import BotApi.Text.Blank
import BotApi.Text.Digit
/-!
The kinds of scalars. A plain scalar is of the kind that its text has the form of; each kind has a tag
by which it can also be named.
-/

namespace BotApi.Yaml

def coreStem : String := "tag:yaml.org,2002:"

inductive Kind where
  | null
  | flag
  | integer
  | number
  | merge
  | moment
  | equals
  | text
  deriving Repr, DecidableEq

namespace Kind

def word : Kind → String
  | null => "null"
  | flag => "bool"
  | integer => "int"
  | number => "float"
  | merge => "merge"
  | moment => "timestamp"
  | equals => "value"
  | text => "str"

def tag (k : Kind) : String := coreStem ++ k.word

def ofTag? (t : String) : Option Kind :=
  [null, flag, integer, number, merge, moment, equals, text].find? (·.tag == t)

def dropSign : List Char → List Char
  | '+' :: s | '-' :: s => s
  | s => s

def isSpaced (p : Char → Bool) (c : Char) : Bool := p c || c = '_'

def isRun (s : List Char) : Bool :=
  s.head?.any Text.isAsciiDigit && s.all (isSpaced Text.isAsciiDigit)

def isOctalDigit (c : Char) : Bool := '0' ≤ c && c ≤ '7'

def isSixtieth : List Char → Bool
  | [a] => Text.isAsciiDigit a
  | [a, b] => '0' ≤ a && a ≤ '5' && Text.isAsciiDigit b
  | _ => false

def isSexagesimal (s : List Char) : Bool :=
  match Text.pieces ':' s with
  | first :: rest => isRun first && !rest.isEmpty && rest.all isSixtieth
  | [] => false

def isInteger (s : List Char) : Bool :=
  match dropSign s with
  | '0' :: 'b' :: s => !s.isEmpty && s.all (isSpaced fun c => c = '0' || c = '1')
  | '0' :: 'x' :: s => !s.isEmpty && s.all (isSpaced fun c => (Text.hexValue? c).isSome)
  | '0' :: s => s.all (isSpaced isOctalDigit)
  | s => isRun s || isSexagesimal s

def isExponent : List Char → Bool
  | [] => true
  | e :: sign :: s =>
      (e = 'e' || e = 'E') && (sign = '+' || sign = '-') && !s.isEmpty && s.all Text.isAsciiDigit
  | _ => false

def isFraction (exponent : Bool) (s : List Char) : Bool :=
  let rest := s.dropWhile (isSpaced Text.isAsciiDigit)
  if exponent then isExponent rest else rest.isEmpty

def infinities : List (List Char) := [".inf".toList, ".Inf".toList, ".INF".toList]

def nans : List (List Char) := [".nan".toList, ".NaN".toList, ".NAN".toList]

def isNumber (s : List Char) : Bool :=
  infinities.contains (dropSign s) || nans.contains s ||
    match Text.splitFirst? ['.'] s with
    | some ([], rest) => rest.head?.any Text.isAsciiDigit && isFraction true rest
    | some (whole, rest) =>
        let whole := dropSign whole
        (isRun whole && isFraction true rest) || (isSexagesimal whole && isFraction false rest)
    | none => false

def nullWords : List String := ["", "~", "null", "Null", "NULL"]

def trueWords : List String := ["yes", "Yes", "YES", "true", "True", "TRUE", "on", "On", "ON"]

def falseWords : List String := ["no", "No", "NO", "false", "False", "FALSE", "off", "Off", "OFF"]

end Kind

end BotApi.Yaml
