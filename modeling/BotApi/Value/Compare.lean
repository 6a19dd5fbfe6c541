import BotApi.Number.Binary
import BotApi.Value.Basic
/-!
Equality of values, truth, and look-up in mappings. Numbers of different kinds are equal when they
stand for the same number, so `1`, `1.0` and `true` are one key.
-/

namespace BotApi

namespace Value

def equalAtoms : Value → Value → Bool
  | null, null => true
  | float x, float y => x == y
  | float x, v => v.integer?.any (Number.equalsInt x)
  | v, float x => v.integer?.any (Number.equalsInt x)
  | str a, str b => a == b
  | bytes a, bytes b | bytes a, buffer b | buffer a, bytes b | buffer a, buffer b => a == b
  | path a, path b => a == b
  | byChatKind, byChatKind => true
  | moment k _ a, moment l _ b => k == l && a == b
  | v, w => match v.integer?, w.integer? with
      | some a, some b => a == b
      | _, _ => false

def optionDefault (name : String) : Value :=
  if name = "period" then float 1.0 else if name = "interruptible" then bool false else null

mutual
def equal : Value → Value → Bool
  | list xs, list ys => equalLists xs ys
  | tuple xs, tuple ys => equalLists xs ys
  | dict es, dict fs => es.length == fs.length && equalEntries es fs
  | limits es, limits fs => equalOptions es fs &&
      fs.all fun (l, w) => es.any (·.1 == l) || equalAtoms (optionDefault l) w
  | record n es, record m fs => n == m && es.length == fs.length && equalFields es fs
  | v, w => equalAtoms v w
def equalLists : List Value → List Value → Bool
  | [], [] => true
  | x :: xs, y :: ys => equal x y && equalLists xs ys
  | _, _ => false
def equalEntries : List (Value × Value) → List (Value × Value) → Bool
  | [], _ => true
  | (k, v) :: es, fs => (fs.any fun (l, w) => equal k l && equal v w) && equalEntries es fs
def equalFields : List (String × Value) → List (String × Value) → Bool
  | [], _ => true
  | (k, v) :: es, fs => (fs.any fun (l, w) => k == l && equal v w) && equalFields es fs
def equalOptions : List (String × Value) → List (String × Value) → Bool
  | [], _ => true
  | (k, v) :: es, fs =>
      (if fs.any (·.1 == k) then fs.any fun (l, w) => k == l && equal v w
        else equalAtoms v (optionDefault k)) && equalOptions es fs
end

mutual
def isKey : Value → Bool
  | list _ | dict _ | buffer _ => false
  | tuple xs => areKeys xs
  | limits fs => areFieldKeys fs
  | record _ _ => false
  | _ => true
def areKeys : List Value → Bool
  | [] => true
  | x :: xs => isKey x && areKeys xs
def areFieldKeys : List (String × Value) → Bool
  | [] => true
  | (_, v) :: fs => isKey v && areFieldKeys fs
end

def truthy : Value → Bool
  | null => false
  | bool b => b
  | int n => n != 0
  | float x => !(x == 0)
  | str s => !s.isEmpty
  | bytes b | buffer b => !b.isEmpty
  | list xs | tuple xs => !xs.isEmpty
  | dict es => !es.isEmpty
  | _ => true

end Value

abbrev Entries := List (Value × Value)

namespace Entries

def get? (es : Entries) (k : Value) : Option Value :=
  (es.find? fun e => e.1.equal k).map (·.2)

def getText? (es : Entries) (k : String) : Option Value := get? es (.str k)

def getText (es : Entries) (k : String) : Value := (getText? es k).getD .null

def has (es : Entries) (k : Value) : Bool := es.any fun e => e.1.equal k

/-- A key that is there keeps its place and its first spelling. -/
def put (es : Entries) (k v : Value) : Entries :=
  match es with
  | [] => [(k, v)]
  | (l, w) :: rest => if l.equal k then (l, v) :: rest else (l, w) :: put rest k v

def erase (es : Entries) (k : Value) : Entries := es.filter fun e => !e.1.equal k

def ofPairs (ps : List (Value × Value)) : Entries := ps.foldl (fun es (k, v) => put es k v) []

def merge (es fs : Entries) : Entries := fs.foldl (fun acc (k, v) => put acc k v) es

def texts? (es : Entries) : Option (List (String × Value)) :=
  es.mapM fun (k, v) => k.str?.map (·, v)

end Entries

end BotApi
