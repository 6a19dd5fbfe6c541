import BotApi.Html.Entity
import BotApi.Text.Blank
import BotApi.Text.Digit
import BotApi.Text.Rewrite
/-!
Character references. In text a reference is a token of its own; in attribute values references are
replaced, where a name may also be followed by other text.
-/

namespace BotApi.Html

def westernCodes : List Nat := [
  0x20AC, 0x81, 0x201A, 0x192, 0x201E, 0x2026, 0x2020, 0x2021, 0x2C6, 0x2030, 0x160, 0x2039, 0x152,
  0x8D, 0x17D, 0x8F, 0x90, 0x2018, 0x2019, 0x201C, 0x201D, 0x2022, 0x2013, 0x2014, 0x2DC, 0x2122,
  0x161, 0x203A, 0x153, 0x9D, 0x17E, 0x178]

def replacement : Char := Char.ofNat 0xFFFD

def isScalar (n : Nat) : Bool := n < 0xD800 || (0xDFFF < n && n ≤ 0x10FFFF)

def westernCode? (n : Nat) : Option Nat := if 0x80 ≤ n then westernCodes[n - 0x80]? else none

def numbered (n : Nat) : Char :=
  match westernCode? n with
  | some m => Char.ofNat m
  | none => if isScalar n then Char.ofNat n else replacement

def isNoCharacter (n : Nat) : Bool :=
  (1 ≤ n && n ≤ 8) || n == 0xB || (0xE ≤ n && n ≤ 0x1F) || (0x7F ≤ n && n ≤ 0x9F) ||
    (0xFDD0 ≤ n && n ≤ 0xFDEF) || 0xFFFE ≤ n % 0x10000

def numberedValue (n : Nat) : List Char :=
  if n = 0 then [replacement]
  else match westernCode? n with
    | some m => [Char.ofNat m]
    | none =>
        if !isScalar n then [replacement]
        else if isNoCharacter n then []
        else [Char.ofNat n]

def digitsValue (base : Nat) (ds : List Char) : Nat :=
  ds.foldl (fun n d => n * base + (Text.hexValue? d).getD 0) 0

def isHexDigit (c : Char) : Bool := (Text.hexValue? c).isSome

def number? : List Char → Option (Nat × List Char)
  | [] => none
  | c :: s =>
      let hex := c == 'x' || c == 'X'
      let (ds, rest) := if hex then s.span isHexDigit else (c :: s).span Text.isAsciiDigit
      if ds.isEmpty then none else some (digitsValue (if hex then 16 else 10) ds, rest)

def isNameInValue (c : Char) : Bool := !(['\t', '\n', Char.ofNat 12, ' ', '<', '&', '#', ';'].contains c)

def openStart? (name : List Char) : Nat → Option (List Char)
  | 0 | 1 => none
  | n + 1 =>
      let start := String.ofList (name.take (n + 1))
      if openEntities.contains start then
        (entity? start).map fun e => e.toList ++ name.drop (n + 1)
      else openStart? name n

def named (name : List Char) (closed : Bool) : List Char :=
  let whole := String.ofList name
  let found := if closed || openEntities.contains whole then entity? whole else none
  match found with
  | some e => e.toList
  | none =>
      let written := if closed then name ++ [';'] else name
      (openStart? written (written.length - 1)).getD ('&' :: written)

def afterSemicolon : List Char → List Char
  | ';' :: s => s
  | s => s

def reference? (s : List Char) : Option Text.Match :=
  match s with
  | '&' :: '#' :: s' =>
      (number? s').map fun (n, rest) =>
        ⟨numberedValue n, s.length - (afterSemicolon rest).length⟩
  | '&' :: s' =>
      let name := (s'.takeWhile isNameInValue).take 32
      if name.isEmpty then none
      else
        let rest := s'.drop name.length
        let closed := rest.head? == some ';'
        some ⟨named name closed, 1 + name.length + (if closed then 1 else 0)⟩
  | _ => none

def dereference (s : List Char) : List Char := Text.rewrite reference? (fun c => [c]) s

end BotApi.Html
