import BotApi.Number.Shortest
import BotApi.Value.Basic
/-!
Writing JSON text: on one line or indented, with every character outside ASCII escaped or kept.
-/

namespace BotApi.Json

inductive Unwritable where
  | kind (name : String)
  | key (name : String)
  | notFinite
  | tooManyDigits
  deriving Repr, DecidableEq

def Unwritable.message : Unwritable → String
  | kind n => s!"Object of type {n} is not JSON serializable"
  | key n => s!"keys must be str, int, float, bool or None, not {n}"
  | notFinite => "Out of range float values are not JSON compliant"
  | tooManyDigits =>
      "Exceeds the limit (4300 digits) for integer string conversion; " ++
        "use sys.set_int_max_str_digits() to increase the limit"

structure Style where
  ascii : Bool
  finiteOnly : Bool
  deriving Repr, DecidableEq

def units (c : Char) : List Nat :=
  let n := c.toNat
  if n < 0x10000 then [n] else [0xD800 + (n - 0x10000) / 0x400, 0xDC00 + (n - 0x10000) % 0x400]

def codeEscape (n : Nat) : List Char := '\\' :: 'u' :: Text.hexDigits n 4

def escapeChar (ascii : Bool) (c : Char) : List Char :=
  match c with
  | '"' => ['\\', '"']
  | '\\' => ['\\', '\\']
  | '\n' => ['\\', 'n']
  | '\r' => ['\\', 'r']
  | '\t' => ['\\', 't']
  | '\x08' => ['\\', 'b']
  | '\x0c' => ['\\', 'f']
  | c =>
      if c.toNat < 0x20 then codeEscape c.toNat
      else if ascii && 0x7F ≤ c.toNat then (units c).flatMap codeEscape
      else [c]

def string (ascii : Bool) (s : List Char) : List Char := '"' :: s.flatMap (escapeChar ascii) ++ ['"']

def float (style : Style) (x : Float) : Except Unwritable (List Char) :=
  if Number.isFinite x then .ok (Number.floatText x)
  else if style.finiteOnly then .error .notFinite
  else if Number.isNaN x then .ok "NaN".toList
  else if Number.isNegative x then .ok "-Infinity".toList
  else .ok "Infinity".toList

def integer (n : Int) : Except Unwritable (List Char) :=
  if Text.digitsMost < (Text.natDigits n.natAbs).length then .error .tooManyDigits
  else .ok (Text.intDigits n)

def kindName : Value → String
  | .null => "NoneType"
  | .bool _ => "bool"
  | .int _ => "int"
  | .float _ => "float"
  | .str _ => "str"
  | .bytes _ => "bytes"
  | .buffer _ => "bytearray"
  | .path _ => "PosixPath"
  | .stream _ _ => "BytesIO"
  | .list _ => "list"
  | .tuple _ => "tuple"
  | .dict _ => "dict"
  | .limits _ => "LimiterOptions"
  | .byChat _ _ | .byChatKind => "function"
  | .record n _ => n
  | .moment k _ _ => k
  | .spent => "SerializationIterator"
  | .plain => "object"

def key (style : Style) : Value → Except Unwritable (List Char)
  | .str s => .ok (string style.ascii s.toList)
  | .int n => (integer n).map (string style.ascii)
  | .bool b => .ok (string style.ascii (if b then "true" else "false").toList)
  | .null => .ok (string style.ascii "null".toList)
  | .float x => (float style x).map (string style.ascii)
  | v => .error (.key (kindName v))

mutual
def write (style : Style) : Value → Except Unwritable (List Char)
  | .null => .ok "null".toList
  | .bool b => .ok (if b then "true" else "false").toList
  | .int n => integer n
  | .float x => float style x
  | .str s => .ok (string style.ascii s.toList)
  | .list xs => do pure ('[' :: List.intercalate [',', ' '] (← writeItems style xs) ++ [']'])
  | .tuple xs => do pure ('[' :: List.intercalate [',', ' '] (← writeItems style xs) ++ [']'])
  | .dict es => do pure ('{' :: List.intercalate [',', ' '] (← writeEntries style es) ++ ['}'])
  | v => .error (.kind (kindName v))
def writeItems (style : Style) : List Value → Except Unwritable (List (List Char))
  | [] => .ok []
  | x :: xs => do
      let t ← write style x
      pure (t :: (← writeItems style xs))
def writeEntries (style : Style) : List (Value × Value) → Except Unwritable (List (List Char))
  | [] => .ok []
  | (k, v) :: es => do
      let k ← key style k
      let t ← write style v
      pure ((k ++ ':' :: ' ' :: t) :: (← writeEntries style es))
end

inductive Doc where
  | null
  | bool (b : Bool)
  | str (s : String)
  | list (xs : List Doc)
  | record (fields : List (String × Doc))

def newline (depth : Nat) : List Char := '\n' :: List.replicate (2 * depth) ' '

def block (left right : Char) (depth : Nat) (items : List (List Char)) : List Char :=
  match items with
  | [] => [left, right]
  | items =>
      left :: newline (depth + 1) ++ List.intercalate (',' :: newline (depth + 1)) items ++
        newline depth ++ [right]

mutual
def Doc.render (depth : Nat) : Doc → List Char
  | .null => "null".toList
  | .bool b => (if b then "true" else "false").toList
  | .str s => string false s.toList
  | .list xs => block '[' ']' depth (Doc.renderItems (depth + 1) xs)
  | .record fs => block '{' '}' depth (Doc.renderFields (depth + 1) fs)
def Doc.renderItems (depth : Nat) : List Doc → List (List Char)
  | [] => []
  | x :: xs => x.render depth :: Doc.renderItems depth xs
def Doc.renderFields (depth : Nat) : List (String × Doc) → List (List Char)
  | [] => []
  | (k, v) :: fs => (string false k.toList ++ ':' :: ' ' :: v.render depth) :: Doc.renderFields depth fs
end

mutual
def Doc.toValue : Doc → Value
  | .null => .null
  | .bool b => .bool b
  | .str s => .str s
  | .list xs => .list (Doc.toValues xs)
  | .record fs => .dict (Doc.toEntries fs)
def Doc.toValues : List Doc → List Value
  | [] => []
  | x :: xs => x.toValue :: Doc.toValues xs
def Doc.toEntries : List (String × Doc) → List (Value × Value)
  | [] => []
  | (k, v) :: fs => (.str k, v.toValue) :: Doc.toEntries fs
end

end BotApi.Json
