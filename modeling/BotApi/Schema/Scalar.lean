import BotApi.Number.Binary
import BotApi.Schema.Issue
import BotApi.Text.Blank
import BotApi.Text.Octets
/-!
Reading texts, whole numbers, numbers and flags from values of other kinds. The grade of a result
tells how far the value had to be changed.
-/

namespace BotApi.Schema

/-- From the value as it was, over a change of kind that loses nothing, to any other conversion. -/
inductive Grade where
  | lax
  | strict
  | exact
  deriving Repr, DecidableEq

namespace Grade

def rank : Grade → Nat
  | lax => 0
  | strict => 1
  | exact => 2

def worse (a b : Grade) : Grade := if a.rank ≤ b.rank then a else b

end Grade

abbrev Graded (α : Type) := Except Fault (α × Grade)

def readText : Value → Graded String
  | .str s => .ok (s, .exact)
  | .bytes b | .buffer b =>
      match Text.Utf8.decode b with
      | .ok cs => .ok (.ofList cs, .lax)
      | .error _ => .error .textEncoding
  | _ => .error .text

def numeral? (fault : Fault) : Value → Option (Except Fault (List Char))
  | .str s => some (.ok s.toList)
  | .bytes b =>
      match Text.Utf8.decode b with
      | .ok cs => some (.ok cs)
      | .error _ => some (.error fault)
  | _ => none

def dropUnderscores? (s : List Char) : Option (List Char) :=
  let inner := Text.pieces '_' s
  if inner.length = 1 then some s
  else if inner.any (·.isEmpty) then none
  else some inner.flatten

def splitSign : List Char → Bool × List Char
  | '-' :: s => (true, s)
  | '+' :: s => (false, s)
  | s => (false, s)

def integerDigits? (s : List Char) : Option (List Char) :=
  match Text.pieces '.' s with
  | [ds] => some ds
  | [ds, zeros] => if !zeros.isEmpty && zeros.all (· == '0') then some ds else none
  | _ => none

/-- Leading zeros do not count for the size of a number, but its minus does. -/
def integerOfText (s : List Char) : Except Fault Int :=
  let (negative, s) := splitSign (Text.trim Text.isWhite s)
  match (integerDigits? s).bind dropUnderscores? with
  | none => .error .integerText
  | some ds =>
      if ds.isEmpty || !ds.all Text.isAsciiDigit then .error .integerText
      else if Text.digitsMost < (ds.dropWhile (· == '0')).length + negative.toNat then
        .error .integerSize
      else
        let n : Int := (Text.decimalNumber? ds).getD 0
        .ok (if negative then -n else n)

/-- A float stands for an integer if it is whole and strictly within 64 bits. -/
def integerOfFloat (x : Float) : Except Fault Int :=
  if !Number.isFinite x then .error .notFinite
  else match Number.toInt? x with
    | none => .error .fraction
    | some n => if -Int.pow 2 63 < n ∧ n < Int.pow 2 63 then .ok n else .error .integerSize

def readInteger (v : Value) : Graded Int :=
  match v with
  | .int n => .ok (n, .exact)
  | .bool b => .ok (if b then 1 else 0, .lax)
  | .float x => (integerOfFloat x).map (·, .lax)
  | v => match numeral? .integerText v with
      | some s => (s.bind integerOfText).map (·, .lax)
      | none => .error .integer

def exponent? (s : List Char) : Option Int :=
  match s with
  | [] => some 0
  | e :: rest =>
      if e = 'e' ∨ e = 'E' then
        let (negative, ds) := splitSign rest
        if ds.isEmpty || !ds.all Text.isAsciiDigit then none
        else
          let n : Int := (Text.decimalNumber? ds).getD 0
          some (if negative then -n else n)
      else none

def decimal? (s : List Char) : Option Number.Decimal := do
  let (negative, s) := splitSign s
  let (whole, s) := s.span Text.isAsciiDigit
  let (frac, s) := match s with
    | '.' :: t => t.span Text.isAsciiDigit
    | _ => ([], s)
  guard (!(whole.isEmpty && frac.isEmpty))
  let e ← exponent? s
  pure ⟨negative, (Text.decimalNumber? (whole ++ frac)).getD 0, e - frac.length⟩

def namedFloat? (s : List Char) : Option Float :=
  let (negative, s) := splitSign s
  let w := s.map Char.toLower
  if w = "inf".toList ∨ w = "infinity".toList then some (Number.infinity negative)
  else if w = "nan".toList then some Number.nan
  else none

def floatOfText? (s : List Char) : Option Float :=
  (namedFloat? s).or ((decimal? s).map (·.toFloat))

def numberOfText (s : List Char) : Except Fault Float :=
  let s := Text.trim Text.isWhite s
  match (floatOfText? s).or ((dropUnderscores? s).bind floatOfText?) with
  | some x => .ok x
  | none => .error .numberText

def readNumber (v : Value) : Graded Float :=
  match v with
  | .float x => .ok (x, .exact)
  | .int n => match Number.ofInt? n with
      | some x => .ok (x, .strict)
      | none => .error .number
  | .bool b => .ok (Number.ofInt (if b then 1 else 0), .lax)
  | v => match numeral? .numberText v with
      | some s => (s.bind numberOfText).map (·, .lax)
      | none => .error .number

def trueWords : List String := ["1", "t", "y", "on", "yes", "true"]

def falseWords : List String := ["0", "f", "n", "no", "off", "false"]

def flagOfText (s : List Char) : Except Fault Bool :=
  let w := String.ofList (s.map Char.toLower)
  if trueWords.contains w then .ok true
  else if falseWords.contains w then .ok false
  else .error .flagText

def readFlag (v : Value) : Graded Bool :=
  match v with
  | .bool b => .ok (b, .exact)
  | .int n =>
      if n = 0 then .ok (false, .lax)
      else if n = 1 then .ok (true, .lax)
      else if -Int.pow 2 63 ≤ n ∧ n < Int.pow 2 63 then .error .flagText
      else .error .flag
  | .float x =>
      if x == 0 then .ok (false, .lax)
      else if x == 1 then .ok (true, .lax)
      else match integerOfFloat x with
        | .ok _ => .error .flagText
        | .error _ => .error .flag
  | v => match numeral? .flagText v with
      | some s => (s.bind flagOfText).map (·, .lax)
      | none => .error .flag

end BotApi.Schema
