import BotApi.Catalog.Basic
import BotApi.Schema.Validate
import BotApi.Error
/-!
The forms of catalog entries: which mappings stand for a type expression, a parameter, an element, a
type, a method or a whole catalog, and what each of them reads as.
-/

namespace BotApi

namespace Form

open Schema (Field Record Records)

inductive Key where
  | basic
  | ref
  | array
  | union
  | param
  | element
  | type
  | method
  | spec
  deriving Repr, DecidableEq

def Key.index : Key → Nat
  | basic => 0
  | ref => 1
  | array => 2
  | union => 3
  | param => 4
  | element => 5
  | type => 6
  | method => 7
  | spec => 8

def Key.schema (k : Key) : Schema := .record k.index

def required (name : String) (s : Schema) : Field := ⟨name, name, s, true, none⟩

def withFallback (name : String) (s : Schema) (v : Value) : Field := ⟨name, name, s, false, some v⟩

def nullable (name : String) (s : Schema) : Field := withFallback name (.optional s) .null

def typeExpr : Schema :=
  .tagged ["kind"] [("basic", Key.basic.schema), ("ref", Key.ref.schema),
    ("array", Key.array.schema), ("union", Key.union.schema)]

def kindField (kind : String) : Field := withFallback "kind" (.onlyText [kind]) (.str kind)

def description : Field := withFallback "description" .text (.str "")

def params : Schema := .array Key.param.schema

def record (name : String) (fields : List Field) : Record := ⟨name, fields, false, .none⟩

def Key.record : Key → Record
  | basic => Form.record "BasicType" [kindField "basic", required "name" .text]
  | ref => Form.record "TypeRef" [kindField "ref", required "id" .text]
  | array => Form.record "ArrayType" [kindField "array", required "item" typeExpr]
  | union => Form.record "UnionType" [kindField "union", required "options" (.distinct (.array typeExpr))]
  | param => Form.record "Param" [required "name" .text, required "type" typeExpr,
      required "required" .flag, description, nullable "value" .text,
      withFallback "json_serialized" .flag (.bool false)]
  | element => Form.record "ApiElement" [required "id" .text, required "name" .text,
      required "kind" (.onlyText ["type", "method"]), description, nullable "fields" params,
      nullable "params" params, nullable "subtypes" (.array .text), nullable "notes" .text]
  | type =>
      { Form.record "ApiType" [required "id" .text, required "name" .text, description,
          nullable "fields" params, nullable "subtypes" (.array .text)] with
        check := .oneOfFieldsAndSubtypes }
  | method => Form.record "ApiMethod" [required "id" .text, required "name" .text, description,
      withFallback "params" params (.list []), withFallback "uploads_file" .flag (.bool false),
      withFallback "json_serialized_params" (.array .text) (.list [])]
  | spec => Form.record "ApiSpec" [required "methods" (.array Key.method.schema),
      required "types" (.array Key.type.schema)]

def keys : List Key := [.basic, .ref, .array, .union, .param, .element, .type, .method, .spec]

def records : Records := keys.map fun k => (k.index, k.record)

def check (source : Schema.Source) (s : Schema) (v : Value) : Except (List Issue) Value :=
  Schema.check records source s v

end Form

namespace Value

def field (v : Value) (name : String) : Value :=
  match v with
  | record _ fs => ((fs.find? (·.1 == name)).map (·.2)).getD null
  | _ => null

def textField (v : Value) (name : String) : String := (v.field name).str?.getD ""

def listField? (v : Value) (name : String) : Option (List Value) :=
  match v.field name with
  | list xs => some xs
  | _ => none

def flagField (v : Value) (name : String) : Bool := (v.field name).truthy

mutual
def toTypeExpr : Value → TypeExpr
  | record name fs => match name with
      | "TypeRef" => .ref (fieldText "id" fs)
      | "ArrayType" => .array (fieldExpr "item" fs)
      | "UnionType" => .union (fieldExprs "options" fs)
      | _ => .basic (fieldText "name" fs)
  | _ => .basic ""
def fieldExpr (name : String) : List (String × Value) → TypeExpr
  | [] => .basic ""
  | (k, v) :: fs => if k == name then toTypeExpr v else fieldExpr name fs
def fieldExprs (name : String) : List (String × Value) → List TypeExpr
  | [] => []
  | (k, v) :: fs => if k == name then toTypeExprs v else fieldExprs name fs
def toTypeExprs : Value → List TypeExpr
  | list xs => listTypeExprs xs
  | _ => []
def listTypeExprs : List Value → List TypeExpr
  | [] => []
  | x :: xs => toTypeExpr x :: listTypeExprs xs
def fieldText (name : String) : List (String × Value) → String
  | [] => ""
  | (k, v) :: fs => if k == name then v.str?.getD "" else fieldText name fs
end

def toParam (v : Value) : Param where
  name := v.textField "name"
  type := (v.field "type").toTypeExpr
  required := v.flagField "required"
  description := v.textField "description"
  value := (v.field "value").str?
  jsonSerialized := v.flagField "json_serialized"

def texts (vs : List Value) : List String := vs.filterMap str?

def toElement (v : Value) : Element where
  id := v.textField "id"
  name := v.textField "name"
  kind := if v.textField "kind" = "type" then .type else .method
  description := v.textField "description"
  fields := (v.listField? "fields").map (·.map toParam)
  params := (v.listField? "params").map (·.map toParam)
  subtypes := (v.listField? "subtypes").map texts
  notes := (v.field "notes").str?

def toApiType (v : Value) : ApiType where
  id := v.textField "id"
  name := v.textField "name"
  description := v.textField "description"
  shape := match v.listField? "subtypes" with
    | some ss => .subtypes (texts ss)
    | none => .fields (((v.listField? "fields").getD []).map toParam)

def toMethod (v : Value) : Method where
  id := v.textField "id"
  name := v.textField "name"
  description := v.textField "description"
  params := ((v.listField? "params").getD []).map toParam
  uploadsFile := v.flagField "uploads_file"
  jsonSerializedParams := texts ((v.listField? "json_serialized_params").getD [])

def toSpec (v : Value) : Spec where
  methods := ((v.listField? "methods").getD []).map toMethod
  types := ((v.listField? "types").getD []).map toApiType

mutual
def withoutNulls : Value → Value
  | record _ fs => dict (fieldsWithoutNulls fs)
  | list xs => list (listWithoutNulls xs)
  | v => v
def listWithoutNulls : List Value → List Value
  | [] => []
  | x :: xs => withoutNulls x :: listWithoutNulls xs
def fieldsWithoutNulls : List (String × Value) → List (Value × Value)
  | [] => []
  | (k, v) :: fs =>
      if v.isNull then fieldsWithoutNulls fs else (str k, withoutNulls v) :: fieldsWithoutNulls fs
end

end Value

namespace TypeExpr

def ofValue? (v : Value) : Except (List Issue) TypeExpr :=
  (Form.check .values Form.typeExpr v).map Value.toTypeExpr

end TypeExpr

def Element.ofValue? (v : Value) : Except (List Issue) Element :=
  (Form.check .values Form.Key.element.schema v).map Value.toElement

def Spec.ofValue? (source : Schema.Source) (v : Value) : Except (List Issue) Spec :=
  (Form.check source Form.Key.spec.schema v).map Value.toSpec

end BotApi
