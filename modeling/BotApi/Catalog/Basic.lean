import BotApi.TypeExpr.Words
/-!
The catalog of a Bot API: documented types, each a record of fields or a supertype of subtypes, and
methods with their parameters. An element is what the documentation says of one of them before its
references are resolved.
-/

namespace BotApi

/-- A field of a type or a parameter of a method. `value` is the text a discriminant always holds. -/
structure Param where
  name : String
  type : TypeExpr
  required : Bool
  description : String
  value : Option String
  jsonSerialized : Bool
  deriving Repr, DecidableEq

inductive Kind where
  | type
  | method
  deriving Repr, DecidableEq

def Kind.word : Kind → String
  | type => "type"
  | method => "method"

structure Element where
  id : String
  name : String
  kind : Kind
  description : String
  fields : Option (List Param)
  params : Option (List Param)
  subtypes : Option (List String)
  notes : Option String
  deriving Repr, DecidableEq

inductive Shape where
  | fields (fs : List Param)
  | subtypes (ids : List String)
  deriving Repr, DecidableEq

structure ApiType where
  id : String
  name : String
  description : String
  shape : Shape
  deriving Repr, DecidableEq

structure Method where
  id : String
  name : String
  description : String
  params : List Param
  uploadsFile : Bool
  jsonSerializedParams : List String
  deriving Repr, DecidableEq

structure Spec where
  methods : List Method
  types : List ApiType
  deriving Repr, DecidableEq

def inputFileName : String := "InputFile"

namespace ApiType

def fields (t : ApiType) : List Param :=
  match t.shape with
  | .fields fs => fs
  | .subtypes _ => []

def subtypes? (t : ApiType) : Option (List String) :=
  match t.shape with
  | .fields _ => none
  | .subtypes ids => some ids

def isSupertype (t : ApiType) : Bool := t.subtypes?.isSome

def field? (t : ApiType) (name : String) : Option Param := t.fields.find? (·.name == name)

def references (t : ApiType) : List String :=
  match t.shape with
  | .fields fs => fs.flatMap fun f => f.type.refs
  | .subtypes ids => ids

end ApiType

namespace Spec

def type? (s : Spec) (id : String) : Option ApiType := s.types.reverse.find? (·.id == id)

def method? (s : Spec) (name : String) : Option Method := s.methods.reverse.find? (·.name == name)

def typeNamed? (s : Spec) (name : String) : Option ApiType := s.types.find? (·.name == name)

def typeName? (s : Spec) (id : String) : Option String := (s.type? id).map (·.name)

end Spec

end BotApi
