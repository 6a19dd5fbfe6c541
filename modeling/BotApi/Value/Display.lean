import BotApi.Number.Shortest
import BotApi.Text.Quoted
import BotApi.Value.Basic
/-!
The text of a value inside messages: texts quoted, containers bracketed.
-/

namespace BotApi.Value

def bracketed (left right : Char) (items : List (List Char)) : List Char :=
  left :: (List.intercalate [',', ' '] items) ++ [right]

def limitFields : List (String × List Char) :=
  [("limit", "None".toList), ("period", "1.0".toList), ("interruptible", "False".toList)]

mutual
def quoted : Value → List Char
  | null => "None".toList
  | bool b => (if b then "True" else "False").toList
  | int n => Text.intDigits n
  | float x => Number.floatText x
  | str s => Text.quoted s.toList
  | bytes b => Text.quotedOctets false b
  | buffer b => "bytearray(".toList ++ Text.quotedOctets true b ++ [')']
  | path p => "PosixPath(".toList ++ Text.quoted p.toList ++ [')']
  | list xs => bracketed '[' ']' (quotedItems xs)
  | tuple xs => match xs with
      | [x] => '(' :: quoted x ++ [',', ')']
      | xs => bracketed '(' ')' (quotedItems xs)
  | dict es => bracketed '\x7b' '\x7d' (quotedEntries es)
  | limits fs =>
      let set := quotedFields fs
      "LimiterOptions".toList ++ bracketed '(' ')' (limitFields.map fun (k, d) =>
        k.toList ++ '=' :: ((set.find? (·.1 == k)).map (·.2)).getD d)
  | record name fs =>
      name.toList ++ bracketed '(' ')' ((quotedFields fs).map fun (k, v) => k.toList ++ '=' :: v)
  | stream _ _ => "<stream>".toList
  | byChat _ _ | byChatKind => "<function>".toList
  | moment _ _ q => q.toList
  | spent => "<iterator>".toList
  | plain => "<object>".toList
def quotedItems : List Value → List (List Char)
  | [] => []
  | x :: xs => quoted x :: quotedItems xs
def quotedEntries : List (Value × Value) → List (List Char)
  | [] => []
  | (k, v) :: es => (quoted k ++ ':' :: ' ' :: quoted v) :: quotedEntries es
def quotedFields : List (String × Value) → List (String × List Char)
  | [] => []
  | (k, v) :: es => (k, quoted v) :: quotedFields es
end

def shown : Value → List Char
  | str s => s.toList
  | path p => p.toList
  | moment _ s _ => s.toList
  | v => quoted v

def quotedText (v : Value) : String := .ofList v.quoted

def shownText (v : Value) : String := .ofList v.shown

end BotApi.Value
