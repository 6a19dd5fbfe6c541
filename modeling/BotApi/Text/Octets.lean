import BotApi.Text.Digit
/-!
Texts as octets: writing and reading UTF-8, and reading UTF-16 and UTF-32. A reader refuses at the
first octet that cannot belong to a character and says why.
-/

namespace BotApi.Text

structure Undecodable where
  codec : String
  start : Nat
  stop : Nat
  first : UInt8
  reason : String
  deriving Repr, DecidableEq

def Undecodable.message (f : Undecodable) : String :=
  let what :=
    if f.stop = f.start + 1 then
      "byte 0x" ++ String.ofList (hexDigits f.first.toNat 2) ++ " in position " ++ toString f.start
    else "bytes in position " ++ toString f.start ++ "-" ++ toString (f.stop - 1)
  "'" ++ f.codec ++ "' codec can't decode " ++ what ++ ": " ++ f.reason

namespace Utf8

def octet (n : Nat) : UInt8 := .ofNat n

def encodeChar (c : Char) : List UInt8 :=
  let n := c.toNat
  if n < 0x80 then [octet n]
  else if n < 0x800 then [octet (0xC0 + n / 64), octet (0x80 + n % 64)]
  else if n < 0x10000 then
    [octet (0xE0 + n / 4096), octet (0x80 + n / 64 % 64), octet (0x80 + n % 64)]
  else
    [octet (0xF0 + n / 262144), octet (0x80 + n / 4096 % 64), octet (0x80 + n / 64 % 64),
      octet (0x80 + n % 64)]

def encode (s : List Char) : List UInt8 := s.flatMap encodeChar

structure Second where
  low : Nat
  high : Nat

def lead? (a : Nat) : Option (Nat × Second) :=
  if a < 0xC2 then none
  else if a < 0xE0 then some (1, ⟨0x80, 0xBF⟩)
  else if a = 0xE0 then some (2, ⟨0xA0, 0xBF⟩)
  else if a = 0xED then some (2, ⟨0x80, 0x9F⟩)
  else if a < 0xF0 then some (2, ⟨0x80, 0xBF⟩)
  else if a = 0xF0 then some (3, ⟨0x90, 0xBF⟩)
  else if a < 0xF4 then some (3, ⟨0x80, 0xBF⟩)
  else if a = 0xF4 then some (3, ⟨0x80, 0x8F⟩)
  else none

inductive Tail where
  | read (code : Nat) (rest : List UInt8)
  | short (taken : Nat)
  | broken (taken : Nat)

def tail (taken code : Nat) (s : Second) : Nat → List UInt8 → Tail
  | 0, bs => .read code bs
  | _ + 1, [] => .short taken
  | n + 1, b :: bs =>
      if s.low ≤ b.toNat && b.toNat ≤ s.high then
        tail (taken + 1) (code * 64 + b.toNat % 64) ⟨0x80, 0xBF⟩ n bs
      else .broken taken

def leadBits (a n : Nat) : Nat :=
  match n with
  | 1 => a % 32
  | 2 => a % 16
  | _ => a % 8

def afterHalf? : List UInt8 → Option (List UInt8)
  | a :: b :: c :: rest =>
      if a = 0xED ∧ 0xA0 ≤ b ∧ b ≤ 0xBF ∧ 0x80 ≤ c ∧ c ≤ 0xBF then some rest else none
  | _ => none

/-- Reads the octets from position `pos` on; each character takes at least one unit of fuel. With
`halves`, the halves of surrogate pairs are read as replaced characters. -/
def decodeFrom (halves : Bool) : Nat → Nat → List UInt8 → Except Undecodable (List Char)
  | 0, _, _ => .ok []
  | _ + 1, _, [] => .ok []
  | fuel + 1, pos, a :: bs =>
      let fault (length : Nat) (why : String) : Undecodable := ⟨"utf-8", pos, pos + length, a, why⟩
      if a.toNat < 0x80 then
        (decodeFrom halves fuel (pos + 1) bs).map (Char.ofNat a.toNat :: ·)
      else match lead? a.toNat with
        | none => .error (fault 1 "invalid start byte")
        | some (n, s) =>
            match tail 0 (leadBits a.toNat n) s n bs with
            | .read code rest =>
                (decodeFrom halves fuel (pos + n + 1) rest).map (Char.ofNat code :: ·)
            | .short taken => .error (fault (taken + 1) "unexpected end of data")
            | .broken taken =>
                match if halves then afterHalf? (a :: bs) else none with
                | some rest =>
                    (decodeFrom halves fuel (pos + 3) rest).map (Char.ofNat 0xFFFD :: ·)
                | none => .error (fault (taken + 1) "invalid continuation byte")

def decode (bs : List UInt8) : Except Undecodable (List Char) := decodeFrom false bs.length 0 bs

def decodeLoose (bs : List UInt8) : Except Undecodable (List Char) :=
  decodeFrom true bs.length 0 bs

end Utf8

inductive Endian where
  | little
  | big
  deriving DecidableEq, Repr

namespace Endian

def label : Endian → String
  | little => "le"
  | big => "be"

def pair (o : Endian) (a b : UInt8) : Nat :=
  match o with
  | little => a.toNat + 256 * b.toNat
  | big => 256 * a.toNat + b.toNat

def quad (o : Endian) (a b c d : UInt8) : Nat :=
  match o with
  | little => o.pair a b + 65536 * o.pair c d
  | big => 65536 * o.pair a b + o.pair c d

end Endian

def charOfCode (n : Nat) : Char :=
  if 0xD800 ≤ n ∧ n ≤ 0xDFFF then Char.ofNat 0xFFFD else Char.ofNat n

def isHighSurrogate (n : Nat) : Bool := 0xD800 ≤ n && n ≤ 0xDBFF

def isLowSurrogate (n : Nat) : Bool := 0xDC00 ≤ n && n ≤ 0xDFFF

def joinSurrogates (high low : Nat) : Nat := 0x10000 + (high - 0xD800) * 0x400 + (low - 0xDC00)

def joinUnits : List Nat → List Char
  | [] => []
  | [a] => [charOfCode a]
  | a :: b :: us =>
      if isHighSurrogate a && isLowSurrogate b then Char.ofNat (joinSurrogates a b) :: joinUnits us
      else charOfCode a :: joinUnits (b :: us)

def units16 (o : Endian) (pos : Nat) : List UInt8 → Except Undecodable (List Nat)
  | [] => .ok []
  | [a] => .error ⟨"utf-16-" ++ o.label, pos, pos + 1, a, "truncated data"⟩
  | a :: b :: bs => (units16 o (pos + 2) bs).map (o.pair a b :: ·)

def decode16 (o : Endian) (pos : Nat) (bs : List UInt8) : Except Undecodable (List Char) :=
  (units16 o pos bs).map joinUnits

def decode32 (o : Endian) (pos : Nat) : List UInt8 → Except Undecodable (List Char)
  | a :: b :: c :: d :: bs =>
      let n := o.quad a b c d
      if 0x10FFFF < n then
        .error ⟨"utf-32-" ++ o.label, pos, pos + 4, a, "code point not in range(0x110000)"⟩
      else (decode32 o (pos + 4) bs).map (charOfCode n :: ·)
  | [] => .ok []
  | a :: bs => .error ⟨"utf-32-" ++ o.label, pos, pos + bs.length + 1, a, "truncated data"⟩

def unitLength (s : List Char) : Nat :=
  (s.map fun c => if c.toNat < 0x10000 then 1 else 2).foldl (· + ·) 0

end BotApi.Text
