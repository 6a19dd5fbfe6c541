import BotApi.Catalog.Attribute
import BotApi.Catalog.Discriminant
import BotApi.Schema.Basic
/-!
Drafts of schemas. A draft refers to a record by its key, and to a type that is still being drafted
by its name, so a type may lead back to itself. A draft becomes a schema once no name is left in it.
-/

namespace BotApi

inductive BasicType where
  | flag
  | onlyTrue
  | text
  | integer
  | number
  | file
  | any
  deriving Repr, DecidableEq

namespace BasicType

def ofName (name : String) : BasicType :=
  if name = "Boolean" then flag
  else if name = "True" then onlyTrue
  else if name = "String" then text
  else if name = "Integer" then integer
  else if name = "Float" then number
  else if name = inputFileName then file
  else any

def schema : BasicType → Schema
  | flag => .flag
  | onlyTrue => .onlyTrue
  | text => .text
  | integer => .int64
  | number => .number
  | file => .file
  | any => .any

end BasicType

inductive Draft where
  | basic (b : BasicType)
  | literal (text : String)
  | named (name : String)
  | record (key : Nat)
  | array (item : Draft)
  | union (options : List Draft)
  | choice (supertype : String) (field : Option String) (members : List Draft)
  deriving Repr, Inhabited

namespace Draft

mutual
def same : Draft → Draft → Bool
  | basic a, basic b => a == b
  | literal s, literal t => s == t
  | named m, named n => m == n
  | record k, record l => k == l
  | array d, array e => same d e
  | union ds, union es => sameList ds es
  | choice s f ds, choice t g es => s == t && f == g && sameList ds es
  | _, _ => false
def sameList : List Draft → List Draft → Bool
  | [], [] => true
  | d :: ds, e :: es => same d e && sameList ds es
  | _, _ => false
end

def distinct (ds : List Draft) : List Draft :=
  ds.foldl (fun seen d => if seen.any (same d) then seen else seen ++ [d]) []

def options : Draft → List Draft
  | union ds => ds
  | d => [d]

def unionOf (ds : List Draft) : Draft :=
  match distinct (ds.flatMap options) with
  | [d] => d
  | ds => union ds

def isNamed : Draft → Bool
  | named _ => true
  | _ => false

mutual
def keys : Draft → List Nat
  | record k => [k]
  | array d => keys d
  | union ds => keysList ds
  | choice _ _ ds => keysList ds
  | _ => []
def keysList : List Draft → List Nat
  | [] => []
  | d :: ds => keys d ++ keysList ds
end

structure Field where
  name : String
  wire : String
  draft : Draft
  required : Bool
  deriving Repr

structure Record where
  name : String
  fields : List Field
  complete : Bool
  deriving Repr

/-- Of two fields with one attribute name the later counts, at the place of the first. -/
def putField (fs : List Field) (f : Field) : List Field :=
  if fs.any (·.name == f.name) then fs.map fun g => if g.name == f.name then f else g
  else fs ++ [f]

def Record.field? (r : Record) (name : String) : Option Field := r.fields.find? (·.name == name)

end Draft

end BotApi
