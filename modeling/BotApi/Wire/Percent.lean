import BotApi.Text.Blank
import BotApi.Text.Digit
import BotApi.Text.Octets
/-!
Percent escapes: an octet of a text is written as a percent sign and two hexadecimal digits.
-/

namespace BotApi.Wire.Percent

def isAsciiLetter (c : Char) : Bool := ('a' ≤ c && c ≤ 'z') || ('A' ≤ c && c ≤ 'Z')

def isAsciiAlphanumeric (c : Char) : Bool := isAsciiLetter c || Text.isAsciiDigit c

def isUnreserved (c : Char) : Bool :=
  isAsciiAlphanumeric c || c == '-' || c == '.' || c == '_' || c == '~'

def isSubDelimiter (c : Char) : Bool := "!$&'()*+,;=".toList.contains c

def isUserInfo (c : Char) : Bool := isUnreserved c || isSubDelimiter c || c == ':'

def isPath (c : Char) : Bool := isUserInfo c || c == '@' || c == '/'

def isQuery (c : Char) : Bool := isPath c || c == '?'

def upperHex (n : Nat) : Char := .ofNat (if n < 10 then 0x30 + n else 0x41 + (n - 10))

def escapeOctet (b : UInt8) : List Char :=
  ['%', upperHex (b.toNat / 16), upperHex (b.toNat % 16)]

def escapeChar (c : Char) : List Char := (Text.Utf8.encodeChar c).flatMap escapeOctet

def escape (keeps : Char → Bool) (s : List Char) : List Char :=
  s.flatMap fun c => if keeps c then [c] else escapeChar c

def escapeForm (octets : List UInt8) : List Char :=
  octets.flatMap fun b =>
    let c := Char.ofNat b.toNat
    if c = ' ' then ['+'] else if isUnreserved c then [c] else escapeOctet b

def isHex (c : Char) : Bool := (Text.hexValue? c).isSome

def capitalEscapes : List Char → List Char
  | '%' :: a :: b :: rest => match Text.hexValue? a, Text.hexValue? b with
      | some m, some n => '%' :: upperHex m :: upperHex n :: capitalEscapes rest
      | _, _ => '%' :: capitalEscapes (a :: b :: rest)
  | c :: rest => c :: capitalEscapes rest
  | [] => []

def isEscaped : List Char → Bool
  | '%' :: a :: b :: rest => isHex a && isHex b && isEscaped rest
  | '%' :: _ => false
  | _ :: rest => isEscaped rest
  | [] => true

def complete (allows : Char → Bool) (s : List Char) : List Char :=
  let keeps (c : Char) : Bool := allows c || (c == '%' && isEscaped s)
  escape keeps (capitalEscapes s)

def plainPiece? (piece : List Char) : Option (List Char) :=
  match piece with
  | a :: b :: rest =>
      if isAsciiAlphanumeric a && isAsciiAlphanumeric b then
        match Text.hexValue? a, Text.hexValue? b with
        | some m, some n =>
            let c := Char.ofNat (m * 16 + n)
            some (if isUnreserved c then c :: rest else '%' :: piece)
        | _, _ => none
      else some ('%' :: piece)
  | _ => some ('%' :: piece)

def plain? (s : List Char) : Option (List Char) :=
  match Text.pieces '%' s with
  | [] => some []
  | first :: rest => (rest.mapM plainPiece?).map fun ps => first ++ ps.flatten

def isReserved (c : Char) : Bool := ":/?#[]@".toList.contains c || isSubDelimiter c

def tidy (s : List Char) : List Char :=
  let keeps (c : Char) : Bool := isUnreserved c || isReserved c
  match plain? s with
  | some t => escape (fun c => keeps c || c == '%') t
  | none => escape keeps s

def octets : List Char → List UInt8
  | '%' :: a :: b :: rest => match Text.hexValue? a, Text.hexValue? b with
      | some m, some n => .ofNat (m * 16 + n) :: octets rest
      | _, _ => .ofNat 0x25 :: octets (a :: b :: rest)
  | c :: rest => Text.Utf8.encodeChar c ++ octets rest
  | [] => []

end BotApi.Wire.Percent
