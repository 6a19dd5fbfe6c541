import BotApi.Number.Binary
import BotApi.Text.Digit
/-!
The shortest decimal text of a float: the fewest digits that round back to it, and of those the
nearest to it.
-/

namespace BotApi.Number

structure Digits where
  digits : List Char
  point : Int
  deriving Repr, DecidableEq

structure Ratio where
  num : Nat
  den : Nat

def Ratio.scale (r : Ratio) : Int → Ratio
  | .ofNat k => ⟨r.num * Nat.pow 10 k, r.den⟩
  | .negSucc k => ⟨r.num, r.den * Nat.pow 10 (k + 1)⟩

def Ratio.le (a b : Ratio) : Bool := a.num * b.den ≤ b.num * a.den

def Ratio.lt (a b : Ratio) : Bool := a.num * b.den < b.num * a.den

/-- The interval of numbers that round to a float; its ends belong to it when the mantissa is even. -/
structure Interval where
  lower : Ratio
  value : Ratio
  upper : Ratio
  closed : Bool

/-- Below a power of two the neighbour is half as far. -/
def Interval.ofBinary (m : Nat) (e : Int) : Interval :=
  let lowStep := if m = Nat.pow 2 52 ∧ -1074 < e then 1 else 2
  let at4 (n : Nat) : Ratio := match e with
    | .ofNat k => ⟨n * Nat.pow 2 k, 4⟩
    | .negSucc k => ⟨n, 4 * Nat.pow 2 (k + 1)⟩
  ⟨at4 (4 * m - lowStep), at4 (4 * m), at4 (4 * m + 2), m % 2 == 0⟩

def Interval.holds (i : Interval) (r : Ratio) : Bool :=
  if i.closed then i.lower.le r && r.le i.upper else i.lower.lt r && r.lt i.upper

def magnitude (r : Ratio) : Nat → Int → Int
  | 0, k => k
  | fuel + 1, k =>
      if Ratio.le ⟨1, 1⟩ (r.scale (-k)) then magnitude r fuel (k + 1)
      else if Ratio.lt (r.scale (-k)) ⟨1, 10⟩ then magnitude r fuel (k - 1)
      else k

def onGrid? (i : Interval) (unit : Int) : Option Nat :=
  let v := i.value.scale (-unit)
  let a := v.num / v.den
  let inside (n : Nat) : Bool := i.holds (Ratio.scale ⟨n, 1⟩ unit)
  let r := v.num % v.den
  let downIsNear := 2 * r < v.den || (2 * r == v.den && a % 2 == 0)
  match inside a && a != 0, inside (a + 1) with
  | true, true => some (if downIsNear then a else a + 1)
  | true, false => some a
  | false, true => some (a + 1)
  | false, false => none

def search (i : Interval) (k : Int) : Nat → Nat → Nat × Int
  | 0, n => (i.value.num / i.value.den, n)
  | fuel + 1, n =>
      match onGrid? i (k - n) with
      | some d => (d, k - n)
      | none => search i k fuel (n + 1)

def dropZeros (s : List Char) : List Char := (s.reverse.dropWhile (· == '0')).reverse

def shortest (m : Nat) (e : Int) : Digits :=
  let i := Interval.ofBinary m e
  let estimate : Int := ((m.log2 : Int) + e) * 30103 / 100000
  let k := magnitude i.value 8 estimate
  let (d, unit) := search i k 20 1
  let text := Text.natDigits d
  ⟨dropZeros text, unit + text.length⟩

structure FloatStyle where
  positionalFrom : Int
  positionalTo : Int
  exponentWidth : Nat

def plainStyle : FloatStyle := ⟨-3, 16, 2⟩

def padLeft (width : Nat) (s : List Char) : List Char :=
  List.replicate (width - s.length) '0' ++ s

def layout (style : FloatStyle) (d : Digits) : List Char :=
  if style.positionalFrom ≤ d.point ∧ d.point ≤ style.positionalTo then
    match d.point with
    | .ofNat p =>
        if p = 0 then ['0', '.'] ++ d.digits
        else if d.digits.length ≤ p then
          d.digits ++ List.replicate (p - d.digits.length) '0' ++ ['.', '0']
        else d.digits.take p ++ ['.'] ++ d.digits.drop p
    | .negSucc p => ['0', '.'] ++ List.replicate (p + 1) '0' ++ d.digits
  else
    let e := d.point - 1
    let sign := if e < 0 then '-' else '+'
    let head := match d.digits with
      | [] => ['0']
      | [c] => [c]
      | c :: cs => c :: '.' :: cs
    head ++ ['e', sign] ++ padLeft style.exponentWidth (Text.natDigits e.natAbs)

def floatText (x : Float) : List Char :=
  match Binary.ofFloat? x with
  | none =>
      if isNaN x then "nan".toList
      else if isNegative x then "-inf".toList else "inf".toList
  | some b =>
      let body := if b.mantissa = 0 then ['0', '.', '0']
        else layout plainStyle (shortest b.mantissa b.exponent)
      if b.negative then '-' :: body else body

end BotApi.Number
