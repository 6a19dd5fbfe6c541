import BotApi.Text.Octets
/-!
A name and a secret in a header. Both are written with one octet a character, so only characters of
the first 256 codes can be in them. The octets go as text of sixty-four characters, three octets in four
characters, with padding.
-/

namespace BotApi.Wire

namespace Base64

def digit (n : Nat) : Char :=
  if n < 26 then .ofNat (0x41 + n)
  else if n < 52 then .ofNat (0x61 + (n - 26))
  else if n < 62 then .ofNat (0x30 + (n - 52))
  else if n = 62 then '+'
  else '/'

def encode : List UInt8 → List Char
  | [] => []
  | [a] =>
      let n := a.toNat * 16
      [digit (n / 64), digit (n % 64), '=', '=']
  | [a, b] =>
      let n := (a.toNat * 256 + b.toNat) * 4
      [digit (n / 4096), digit (n / 64 % 64), digit (n % 64), '=']
  | a :: b :: c :: rest =>
      let n := (a.toNat * 256 + b.toNat) * 256 + c.toNat
      digit (n / 262144) :: digit (n / 4096 % 64) :: digit (n / 64 % 64) :: digit (n % 64) ::
        encode rest

end Base64

namespace Credential

def codeText (c : Char) : List Char :=
  let n := c.toNat
  if n < 0x100 then '\\' :: 'x' :: Text.hexDigits n 2
  else if n < 0x10000 then '\\' :: 'u' :: Text.hexDigits n 4
  else '\\' :: 'U' :: Text.hexDigits n 8

def fits (c : Char) : Bool := c.toNat < 0x100

def refusal (s : List Char) : String :=
  let start := (s.takeWhile fits).length
  let run := (s.drop start).takeWhile fun c => !fits c
  let stop := start + run.length - 1
  let what := match run with
    | [c] =>
        let code := String.ofList (codeText c)
        s!"character '{code}' in position {start}"
    | _ => s!"characters in position {start}-{stop}"
  s!"'latin-1' codec can't encode {what}: ordinal not in range(256)"

def octets? (s : List Char) : Except String (List UInt8) :=
  if s.all fits then .ok (s.map fun c => .ofNat c.toNat) else .error (refusal s)

def charsOf (b : List UInt8) : List Char :=
  match Text.Utf8.decode b with
  | .ok cs => cs
  | .error _ => ['\ufffd']

def header (name secret : List UInt8) : Except String String :=
  (octets? (charsOf name)).bind fun n => (octets? (charsOf secret)).map fun s =>
    "Basic " ++ String.ofList (Base64.encode (n ++ [0x3A] ++ s))

end Credential

end BotApi.Wire
