/-!
Host labels in ASCII. The characters beyond ASCII are taken out and listed behind the others, each as
the distance from the one before it, in a numeral system whose thresholds adapt to the distances.
-/

namespace BotApi.Wire.Punycode

def digit (n : Nat) : Char := if n < 26 then .ofNat (0x61 + n) else .ofNat (0x30 + (n - 26))

def threshold (k bias : Nat) : Nat := max 1 (min 26 (k - bias))

theorem threshold_bounds (k bias : Nat) : 1 ≤ threshold k bias ∧ threshold k bias ≤ 26 := by
  unfold threshold
  omega

def numeral (bias k q : Nat) : List Char :=
  let t := threshold k bias
  if q < t then [digit q]
  else
    let rest := q - t
    digit (t + rest % (36 - t)) :: numeral bias (k + 36) (rest / (36 - t))
termination_by q
decreasing_by
  have := threshold_bounds k bias
  have := Nat.div_le_self (q - threshold k bias) (36 - threshold k bias)
  omega

def settle (delta k : Nat) : Nat :=
  if 455 < delta then settle (delta / 35) (k + 36) else k + 36 * delta / (delta + 38)
termination_by delta
decreasing_by omega

def adapt (delta count : Nat) (first : Bool) : Nat :=
  let d := if first then delta / 700 else delta / 2
  settle (d + d / count) 0

structure State where
  out : List Char
  delta : Nat
  bias : Nat
  count : Nat

def pass (basic n : Nat) (s : State) (c : Char) : State :=
  if c.toNat < n then { s with delta := s.delta + 1 }
  else if c.toNat = n then
    ⟨s.out ++ numeral s.bias 36 s.delta, 0, adapt s.delta (s.count + 1) (s.count == basic),
      s.count + 1⟩
  else s

def list (label : List Char) (basic : Nat) : List Nat → Nat → State → State
  | [], _, s => s
  | n :: ns, start, s =>
      let s := { s with delta := s.delta + (n - start) * (s.count + 1) }
      let s := label.foldl (pass basic n) s
      list label basic ns (n + 1) { s with delta := s.delta + 1 }

def insert (n : Nat) : List Nat → List Nat
  | [] => [n]
  | m :: ms => if n < m then n :: m :: ms else if n = m then m :: ms else m :: insert n ms

def encode (label : List Char) : List Char :=
  let basic := label.filter fun c => c.toNat < 0x80
  let codes := (label.map Char.toNat).filter fun n => 0x80 ≤ n
  let start : State := ⟨[], 0, 72, basic.length⟩
  basic ++ (if basic.isEmpty then [] else ['-']) ++
    (list label basic.length (codes.foldr insert []) 0x80 start).out

end BotApi.Wire.Punycode
