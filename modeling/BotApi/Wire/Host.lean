import BotApi.Text.Case
import BotApi.Text.Letter
import BotApi.Wire.Percent
import BotApi.Wire.Punycode
/-!
Hosts in an address: a name, whose labels beyond ASCII are written in ASCII, or a number of the fourth
or sixth version of the protocol.
-/

namespace BotApi.Wire

def isAscii (s : List Char) : Bool := s.all fun c => c.toNat < 0x80

namespace Host

def isLabelChar (c : Char) : Bool := c == '-' || (Text.isWordChar c && c != '_')

def hasGoodHyphens (label : List Char) : Bool :=
  label.head? != some '-' && label.getLast? != some '-' && (label.drop 2).take 2 != ['-', '-']

def label? (label : List Char) : Option (List Char) :=
  let small := Text.lowercase label
  if isAscii label then some small
  else
    let coded := "xn--".toList ++ Punycode.encode small
    if small.all isLabelChar && hasGoodHyphens small && coded.length ≤ 63 then some coded else none

def name? (host : List Char) : Option (List Char) :=
  ((Text.pieces '.' host).mapM label?).map (Text.join ['.'])

def isVersion4 (host : List Char) : Bool :=
  let ps := Text.pieces '.' host
  ps.length = 4 && ps.all fun p => 1 ≤ p.length && p.length ≤ 3 && p.all Text.isAsciiDigit

def isAddress4 (host : List Char) : Bool :=
  isVersion4 host && (Text.pieces '.' host).all fun p =>
    (p.length = 1 || p.head? != some '0') && (Text.decimalNumber? p).any (· < 256)

def isGroup (s : List Char) : Bool := 1 ≤ s.length && s.length ≤ 4 && s.all Percent.isHex

def groups? (ends : List Char → Bool) : List (List Char) → Option Nat
  | [] => some 0
  | [g] => if isGroup g then some 1 else if ends g then some 2 else none
  | g :: gs => if isGroup g then (groups? ends gs).map (· + 1) else none

def groupsOf? (ends : List Char → Bool) (s : List Char) : Option Nat :=
  if s.isEmpty then some 0 else groups? ends (Text.pieces ':' s)

/-- Eight groups of hexadecimal digits, of which one run may be left out; `ends` tells what may stand
for the last two. -/
def isVersion6 (ends : List Char → Bool) (s : List Char) : Bool :=
  match Text.splitFirst? [':', ':'] s with
  | none => groupsOf? ends s == some 8
  | some (before, after) => match groupsOf? (fun _ => false) before, groupsOf? ends after with
      | some m, some n => m + n ≤ 7
      | _, _ => false

def isZone (s : List Char) : Bool :=
  let body := match s with
    | '%' :: '2' :: '5' :: c :: rest => c :: rest
    | _ => s.drop 1
  !body.isEmpty && Percent.isEscaped body && body.all fun c => Percent.isUnreserved c || c == '%'

def bracketed? (inner : List Char) : Option (List Char) :=
  let (number, zone) := inner.span (· != '%')
  if !isVersion6 isVersion4 number then none
  else if zone.isEmpty then some ('[' :: Text.lowercase number ++ [']'])
  else if !isZone zone then none
  else
    let body := match zone with
      | '%' :: '2' :: '5' :: c :: rest => c :: rest
      | _ => zone.drop 1
    some ('[' :: Text.lowercase number ++ '%' :: Percent.complete Percent.isUnreserved body ++ [']'])

end Host

end BotApi.Wire
