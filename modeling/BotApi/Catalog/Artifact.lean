import BotApi.Catalog.Compile
import BotApi.Catalog.Form
import BotApi.Digest.Sha256
import BotApi.Disk
import BotApi.Json.Reader
import BotApi.Json.Writer
import BotApi.Page.Element
/-!
The written form of a catalog: an indented JSON document, its fingerprint, and the file it is kept in,
which is written only if the catalog of a page is not the one it holds.
-/

namespace BotApi

open Json (Doc)
open Text (Path)

mutual
def TypeExpr.toDoc : TypeExpr → Doc
  | .basic n => .record [("kind", .str "basic"), ("name", .str n)]
  | .ref i => .record [("kind", .str "ref"), ("id", .str i)]
  | .array e => .record [("kind", .str "array"), ("item", toDoc e)]
  | .union es => .record [("kind", .str "union"), ("options", .list (TypeExpr.toDocs es))]
def TypeExpr.toDocs : List TypeExpr → List Doc
  | [] => []
  | e :: es => TypeExpr.toDoc e :: TypeExpr.toDocs es
end

def Json.Doc.ifSome {α : Type} (name : String) (f : α → Doc) : Option α → List (String × Doc)
  | some a => [(name, f a)]
  | none => []

def Json.Doc.texts (ss : List String) : Doc := .list (ss.map .str)

def Param.toDoc (p : Param) : Doc :=
  .record ([("name", .str p.name), ("type", p.type.toDoc), ("required", .bool p.required),
    ("description", .str p.description)] ++ Doc.ifSome "value" .str p.value ++
    [("json_serialized", .bool p.jsonSerialized)])

def Element.toDoc (e : Element) : Doc :=
  let params (ps : List Param) : Doc := .list (ps.map Param.toDoc)
  .record ([("id", .str e.id), ("name", .str e.name), ("kind", .str e.kind.word),
      ("description", .str e.description)] ++
    Doc.ifSome "fields" params e.fields ++ Doc.ifSome "params" params e.params ++
    Doc.ifSome "subtypes" Doc.texts e.subtypes ++ Doc.ifSome "notes" .str e.notes)

def Shape.toFields : Shape → List (String × Doc)
  | .fields fs => [("fields", .list (fs.map Param.toDoc))]
  | .subtypes ids => [("subtypes", Doc.texts ids)]

def ApiType.toDoc (t : ApiType) : Doc :=
  .record ([("id", .str t.id), ("name", .str t.name), ("description", .str t.description)] ++
    t.shape.toFields)

def Method.toDoc (m : Method) : Doc :=
  .record [("id", .str m.id), ("name", .str m.name), ("description", .str m.description),
    ("params", .list (m.params.map Param.toDoc)), ("uploads_file", .bool m.uploadsFile),
    ("json_serialized_params", Doc.texts m.jsonSerializedParams)]

namespace Spec

def toDoc (s : Spec) : Doc :=
  .record [("methods", .list (s.methods.map Method.toDoc)), ("types", .list (s.types.map ApiType.toDoc))]

def toJson (s : Spec) : String := .ofList (s.toDoc.render 0)

def fingerprint (s : Spec) : String := Digest.sha256 (Text.Utf8.encode s.toJson.toList)

def ofJson? (text : String) : Except (List Issue) Spec :=
  match Json.readStrict text.toList with
  | some v => ofValue? .json v
  | none => .error [⟨[], .json⟩]

def save (d : Disk) (p : Path) (s : Spec) : Except Error Disk := do
  let d ← d.makeParents p
  d.writeText p (s.toJson ++ "\n")

def load (d : Disk) (p : Path) : Except Error Spec :=
  match d.readText p with
  | .error (.file f _) => .error (.compile (.unreadable p.text f))
  | .error e => .error e
  | .ok text => match ofJson? text with
      | .error is => .error (.compile (.invalidFile p.text is))
      | .ok s => match s.checkReferences with
          | .error f => .error (.compile f)
          | .ok () => .ok s

def heldFingerprint (d : Disk) (p : Path) : Noted Error (Option String) :=
  if d.holds p then
    match load d p with
    | .ok s => ([], .ok (some s.fingerprint))
    | .error (.compile f) =>
        ([.warning s!"Replacing unreadable spec file: {f.message}"], .ok none)
    | .error e => ([], .error e)
  else ([], .ok none)

structure Published where
  spec : Spec
  disk : Disk
  written : Bool

def publishTo (d : Disk) (p : Path) (s : Spec) : Noted Error Published :=
  (heldFingerprint d p).followedBy fun held =>
    if held = some s.fingerprint then ([], .ok ⟨s, d, false⟩)
    else ([], (save d p s).map fun d => ⟨s, d, true⟩)

def publish (d : Disk) (p : Path) (html : String) : Noted Error Published :=
  (ofPage html).followedBy (publishTo d p)

end Spec

end BotApi
