import BotApi.Text.Range
/-!
Digits of all scripts. Decimal digits come in runs of ten, so a run is known by its zero;
other digits, such as superscripts, have no place in a decimal number.
-/

namespace BotApi.Text

def decimalZeros : List Nat := [
  0x30, 0x660, 0x6F0, 0x7C0, 0x966, 0x9E6, 0xA66, 0xAE6, 0xB66, 0xBE6, 0xC66, 0xCE6, 0xD66,
  0xDE6, 0xE50, 0xED0, 0xF20, 0x1040, 0x1090, 0x17E0, 0x1810, 0x1946, 0x19D0, 0x1A80, 0x1A90,
  0x1B50, 0x1BB0, 0x1C40, 0x1C50, 0xA620, 0xA8D0, 0xA900, 0xA9D0, 0xA9F0, 0xAA50, 0xABF0,
  0xFF10, 0x104A0, 0x10D30, 0x11066, 0x110F0, 0x11136, 0x111D0, 0x112F0, 0x11450, 0x114D0,
  0x11650, 0x116C0, 0x11730, 0x118E0, 0x11950, 0x11C50, 0x11D50, 0x11DA0, 0x16A60, 0x16AC0,
  0x16B50, 0x1D7CE, 0x1D7D8, 0x1D7E2, 0x1D7EC, 0x1D7F6, 0x1E140, 0x1E2F0, 0x1E950, 0x1FBF0]

def decimalValue? (c : Char) : Option Nat :=
  if c.toNat < 0x80 then
    if '0'.toNat ≤ c.toNat && c.toNat ≤ '9'.toNat then some (c.toNat - '0'.toNat) else none
  else (decimalZeros.find? fun z => z ≤ c.toNat && c.toNat < z + 10).map fun z => c.toNat - z

def isDecimal (c : Char) : Bool := (decimalValue? c).isSome

def otherDigits : Ranges := #[
  (0xB2,0xB3), (0xB9,0xB9), (0x1369,0x1371), (0x19DA,0x19DA), (0x2070,0x2070), (0x2074,0x2079),
  (0x2080,0x2089), (0x2460,0x2468), (0x2474,0x247C), (0x2488,0x2490), (0x24EA,0x24EA),
  (0x24F5,0x24FD), (0x24FF,0x24FF), (0x2776,0x277E), (0x2780,0x2788), (0x278A,0x2792),
  (0x10A40,0x10A43), (0x10E60,0x10E68), (0x11052,0x1105A), (0x1F100,0x1F10A)]

def isDigit (c : Char) : Bool := isDecimal c || otherDigits.contains c.toNat

def decimalNumber? (s : List Char) : Option Nat :=
  s.foldl (fun acc c => do
    let n ← acc
    let d ← decimalValue? c
    pure (10 * n + d)) (some 0)

/-- Longer runs of digits are not read as numbers. -/
def digitsMost : Nat := 4300

def readableNumber? (s : List Char) : Option Nat :=
  if digitsMost < s.length then none else decimalNumber? s

def isAsciiDigit (c : Char) : Bool := '0' ≤ c && c ≤ '9'

def hexValue? (c : Char) : Option Nat :=
  if '0' ≤ c && c ≤ '9' then some (c.toNat - '0'.toNat)
  else if 'a' ≤ c && c ≤ 'f' then some (c.toNat - 'a'.toNat + 10)
  else if 'A' ≤ c && c ≤ 'F' then some (c.toNat - 'A'.toNat + 10)
  else none

def hexDigit (n : Nat) : Char :=
  if n < 10 then Char.ofNat ('0'.toNat + n) else Char.ofNat ('a'.toNat + n - 10)

def hexDigits (n : Nat) : Nat → List Char
  | 0 => []
  | width + 1 => hexDigits (n / 16) width ++ [hexDigit (n % 16)]

def natDigits (n : Nat) : List Char := Nat.toDigits 10 n

def intDigits (n : Int) : List Char :=
  if n < 0 then '-' :: natDigits n.natAbs else natDigits n.natAbs

end BotApi.Text
