import BotApi.Value.Basic
/-!
Schemas: what a value must look like, and a table of the records they refer to by key. A record may
refer to itself, since its key stands for it.
-/

namespace BotApi

inductive Schema where
  | any
  | text
  | nonEmptyText
  | integer (least most : Int)
  | positiveInteger
  | number
  | positiveNumber
  | flag
  | onlyTrue
  | onlyText (texts : List String)
  | file
  | path
  | optional (s : Schema)
  | array (item : Schema)
  | distinct (items : Schema)
  | union (options : List Schema)
  | firstOf (options : List Schema)
  | tagged (readers : List String) (choices : List (String × Schema))
  | record (key : Nat)
  deriving Repr, Inhabited

namespace Schema

/-- A field is found by its wire name, or else by its attribute name. -/
structure Field where
  name : String
  wire : String
  schema : Schema
  required : Bool
  fallback : Option Value

inductive Check where
  | none
  | oneOfFieldsAndSubtypes
  deriving Repr, DecidableEq

structure Record where
  name : String
  fields : List Field
  closed : Bool
  check : Check

abbrev Records := List (Nat × Record)

def Records.get? (rs : Records) (key : Nat) : Option Record := (rs.find? (·.1 == key)).map (·.2)

def int64Least : Int := -Int.pow 2 63

def int64Most : Int := Int.pow 2 63 - 1

def int64 : Schema := .integer int64Least int64Most

end Schema

end BotApi
