import BotApi.Text.Digit
/-!
The 256-bit secure hash: octets are padded to blocks of 64, and each block is mixed into eight words.
-/

namespace BotApi.Digest

abbrev Word := UInt32

def roundWords : Array Word := #[
  0x428a2f98, 0x71374491, 0xb5c0fbcf, 0xe9b5dba5, 0x3956c25b, 0x59f111f1, 0x923f82a4, 0xab1c5ed5,
  0xd807aa98, 0x12835b01, 0x243185be, 0x550c7dc3, 0x72be5d74, 0x80deb1fe, 0x9bdc06a7, 0xc19bf174,
  0xe49b69c1, 0xefbe4786, 0x0fc19dc6, 0x240ca1cc, 0x2de92c6f, 0x4a7484aa, 0x5cb0a9dc, 0x76f988da,
  0x983e5152, 0xa831c66d, 0xb00327c8, 0xbf597fc7, 0xc6e00bf3, 0xd5a79147, 0x06ca6351, 0x14292967,
  0x27b70a85, 0x2e1b2138, 0x4d2c6dfc, 0x53380d13, 0x650a7354, 0x766a0abb, 0x81c2c92e, 0x92722c85,
  0xa2bfe8a1, 0xa81a664b, 0xc24b8b70, 0xc76c51a3, 0xd192e819, 0xd6990624, 0xf40e3585, 0x106aa070,
  0x19a4c116, 0x1e376c08, 0x2748774c, 0x34b0bcb5, 0x391c0cb3, 0x4ed8aa4a, 0x5b9cca4f, 0x682e6ff3,
  0x748f82ee, 0x78a5636f, 0x84c87814, 0x8cc70208, 0x90befffa, 0xa4506ceb, 0xbef9a3f7, 0xc67178f2]

structure State where
  a : Word
  b : Word
  c : Word
  d : Word
  e : Word
  f : Word
  g : Word
  h : Word
  deriving Repr, DecidableEq

def State.start : State :=
  ⟨0x6a09e667, 0xbb67ae85, 0x3c6ef372, 0xa54ff53a, 0x510e527f, 0x9b05688c, 0x1f83d9ab, 0x5be0cd19⟩

def rotate (x n : Word) : Word := (x >>> n) ||| (x <<< (32 - n))

def State.round (s : State) (k w : Word) : State :=
  let s1 := rotate s.e 6 ^^^ rotate s.e 11 ^^^ rotate s.e 25
  let choice := (s.e &&& s.f) ^^^ ((~~~ s.e) &&& s.g)
  let t1 := s.h + s1 + choice + k + w
  let s0 := rotate s.a 2 ^^^ rotate s.a 13 ^^^ rotate s.a 22
  let majority := (s.a &&& s.b) ^^^ (s.a &&& s.c) ^^^ (s.b &&& s.c)
  ⟨t1 + (s0 + majority), s.a, s.b, s.c, s.d + t1, s.e, s.f, s.g⟩

def State.add (s t : State) : State :=
  ⟨s.a + t.a, s.b + t.b, s.c + t.c, s.d + t.d, s.e + t.e, s.f + t.f, s.g + t.g, s.h + t.h⟩

def State.words (s : State) : List Word := [s.a, s.b, s.c, s.d, s.e, s.f, s.g, s.h]

def wordsOf : List UInt8 → List Word
  | a :: b :: c :: d :: rest =>
      (a.toUInt32 <<< 24 ||| b.toUInt32 <<< 16 ||| c.toUInt32 <<< 8 ||| d.toUInt32) :: wordsOf rest
  | _ => []

def extend (ws : Array Word) : Nat → Array Word
  | 0 => ws
  | n + 1 =>
      let back (i : Nat) : Word := ws.getD (ws.size - i) 0
      let x := back 15
      let y := back 2
      let s0 := rotate x 7 ^^^ rotate x 18 ^^^ (x >>> 3)
      let s1 := rotate y 17 ^^^ rotate y 19 ^^^ (y >>> 10)
      extend (ws.push (back 16 + s0 + back 7 + s1)) n

def schedule (block : List UInt8) : List Word := (extend (wordsOf block).toArray 48).toList

def State.mix (s : State) (block : List UInt8) : State :=
  s.add ((roundWords.toList.zip (schedule block)).foldl (fun t (k, w) => t.round k w) s)

def pad (bs : List UInt8) : List UInt8 :=
  let n := bs.length
  let zeros := (119 - n % 64) % 64
  bs ++ 0x80 :: List.replicate zeros 0 ++
    (List.range 8).map fun i => .ofNat (8 * n / Nat.pow 256 (7 - i) % 256)

def mixAll (s : State) : Nat → List UInt8 → State
  | 0, _ => s
  | n + 1, bs => mixAll (s.mix (bs.take 64)) n (bs.drop 64)

def sha256 (bs : List UInt8) : String :=
  let padded := pad bs
  .ofList ((mixAll .start (padded.length / 64) padded).words.flatMap fun w =>
    Text.hexDigits w.toNat 8)

end BotApi.Digest
