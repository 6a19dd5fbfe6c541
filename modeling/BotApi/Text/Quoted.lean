import BotApi.Text.Digit
import BotApi.Text.Printable
/-!
Quoted text. A quotation uses single quotes, unless the text has those and no double ones; the quote
in use and the backslash are escaped, and whatever does not print is written by its code point.
-/

namespace BotApi.Text

def quoteFor (s : List Char) : Char :=
  if s.contains '\'' && !s.contains '"' then '"' else '\''

def escapeCode (n : Nat) : List Char :=
  if n ≤ 0xFF then '\\' :: 'x' :: hexDigits n 2
  else if n ≤ 0xFFFF then '\\' :: 'u' :: hexDigits n 4
  else '\\' :: 'U' :: hexDigits n 8

def quoteChar (q c : Char) : List Char :=
  if c = q ∨ c = '\\' then ['\\', c]
  else if c = '\n' then ['\\', 'n']
  else if c = '\r' then ['\\', 'r']
  else if c = '\t' then ['\\', 't']
  else if isPrintable c then [c]
  else escapeCode c.toNat

def quoted (s : List Char) : List Char :=
  let q := quoteFor s
  q :: s.flatMap (quoteChar q) ++ [q]

/-- Octets are quoted as the ASCII characters they stand for, others by their code. In a buffer the
single quote is escaped even between double ones. -/
def quotedOctets (isBuffer : Bool) (b : List UInt8) : List Char :=
  let s := b.map fun o => Char.ofNat o.toNat
  let q := quoteFor s
  let one (c : Char) : List Char :=
    if 0x7F ≤ c.toNat then escapeCode c.toNat
    else if isBuffer && c == '\'' then ['\\', c]
    else quoteChar q c
  'b' :: q :: s.flatMap one ++ [q]

end BotApi.Text
