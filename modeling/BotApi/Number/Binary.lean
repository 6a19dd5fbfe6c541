/-!
Binary floating point numbers as exact quantities: a finite float is `± m * 2 ^ e`, and a ratio of
naturals is rounded to the nearest float, a tie to the even one.
-/

namespace BotApi.Number

structure Binary where
  negative : Bool
  mantissa : Nat
  exponent : Int
  deriving Repr, DecidableEq

def bitsOf (x : Float) : Nat := x.toBits.toNat

def isNegative (x : Float) : Bool := bitsOf x / Nat.pow 2 63 == 1

def biased (x : Float) : Nat := bitsOf x / Nat.pow 2 52 % Nat.pow 2 11

def fraction (x : Float) : Nat := bitsOf x % Nat.pow 2 52

def isNaN (x : Float) : Bool := biased x == 2047 && fraction x != 0

def isInfinite (x : Float) : Bool := biased x == 2047 && fraction x == 0

def isFinite (x : Float) : Bool := biased x != 2047

def Binary.ofFloat? (x : Float) : Option Binary :=
  if isFinite x then
    if biased x = 0 then some ⟨isNegative x, fraction x, -1074⟩
    else some ⟨isNegative x, Nat.pow 2 52 + fraction x, (biased x : Int) - 1075⟩
  else none

def Binary.toInt? (b : Binary) : Option Int :=
  let sign (n : Nat) : Int := if b.negative then -(n : Int) else n
  match b.exponent with
  | .ofNat e => some (sign (b.mantissa * Nat.pow 2 e))
  | .negSucc e =>
      if b.mantissa % Nat.pow 2 (e + 1) = 0 then some (sign (b.mantissa / Nat.pow 2 (e + 1)))
      else none

def toInt? (x : Float) : Option Int := (Binary.ofFloat? x).bind Binary.toInt?

def Binary.floor (b : Binary) : Int :=
  let signed : Int := if b.negative then -(b.mantissa : Int) else b.mantissa
  match b.exponent with
  | .ofNat e => signed * Nat.pow 2 e
  | .negSucc e => signed.fdiv (Nat.pow 2 (e + 1))

def Binary.truncate (b : Binary) : Int :=
  let n := match b.exponent with
    | .ofNat e => b.mantissa * Nat.pow 2 e
    | .negSucc e => b.mantissa / Nat.pow 2 (e + 1)
  if b.negative then -(n : Int) else n

def assemble (negative : Bool) (biased fraction : Nat) : Float :=
  Float.ofBits (.ofNat ((if negative then Nat.pow 2 63 else 0) + biased * Nat.pow 2 52 + fraction))

def infinity (negative : Bool) : Float := assemble negative 2047 0

def nan : Float := assemble false 2047 (Nat.pow 2 51)

def roundHalfEven (num den : Nat) : Nat :=
  let q := num / den
  let r := num % den
  if 2 * r < den then q
  else if den < 2 * r then q + 1
  else q + q % 2

/-- The exponent that leaves `num / den / 2 ^ e` with 53 bits, never below that of the smallest float. -/
def unitExponent (num den : Nat) : Int :=
  let guess : Int := (num.log2 : Int) - den.log2 - 52
  let fits : Bool := match guess with
    | .ofNat e => den * Nat.pow 2 e * Nat.pow 2 52 ≤ num
    | .negSucc e => den * Nat.pow 2 52 ≤ num * Nat.pow 2 (e + 1)
  max (if fits then guess else guess - 1) (-1074)

def nearest (num den : Nat) : Nat × Int :=
  let e := unitExponent num den
  let m := match e with
    | .ofNat k => roundHalfEven num (den * Nat.pow 2 k)
    | .negSucc k => roundHalfEven (num * Nat.pow 2 (k + 1)) den
  if m = Nat.pow 2 53 then (Nat.pow 2 52, e + 1) else (m, e)

def ofRatio (negative : Bool) (num den : Nat) : Float :=
  if num = 0 ∨ den = 0 then assemble negative 0 0
  else
    let (m, e) := nearest num den
    if m < Nat.pow 2 52 then assemble negative 0 m
    else
      let b := (e + 1075).toNat
      if 2047 ≤ b then infinity negative else assemble negative b (m - Nat.pow 2 52)

/-- The product of a float's size and a natural, rounded as floats are and cut to an integer; none
beyond the largest float. -/
def product? (x : Float) (k : Nat) : Option Nat :=
  (Binary.ofFloat? x).bind fun b =>
    let (m, e) := match b.exponent with
      | .ofNat j => nearest (b.mantissa * Nat.pow 2 j * k) 1
      | .negSucc j => nearest (b.mantissa * k) (Nat.pow 2 (j + 1))
    if 971 < e then none else some (Binary.truncate ⟨false, m, e⟩).toNat

def ofInt (n : Int) : Float := ofRatio (n < 0) n.natAbs 1

def ofInt? (n : Int) : Option Float :=
  let x := ofInt n
  if isFinite x then some x else none

structure Decimal where
  negative : Bool
  digits : Nat
  exponent : Int
  deriving Repr, DecidableEq

def Decimal.toFloat (d : Decimal) : Float :=
  let size : Int := d.digits.log2
  if d.digits = 0 then assemble d.negative 0 0
  else match d.exponent with
    | .ofNat e =>
        if 400 < e then infinity d.negative
        else ofRatio d.negative (d.digits * Nat.pow 10 e) 1
    | .negSucc e =>
        if size + 4000 < 3 * (e : Int) then assemble d.negative 0 0
        else ofRatio d.negative d.digits (Nat.pow 10 (e + 1))

def equalsInt (x : Float) (n : Int) : Bool := toInt? x == some n

end BotApi.Number
