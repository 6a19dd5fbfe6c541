/-!
Sets of characters given by sorted ranges of code points.
-/

namespace BotApi.Text

abbrev Ranges := Array (Nat × Nat)

namespace Ranges

def search (r : Ranges) (n : Nat) : Nat → Nat → Nat → Bool
  | 0, _, _ => false
  | fuel + 1, lo, hi =>
      if lo < hi then
        let mid := (lo + hi) / 2
        let (a, b) := r.getD mid (0, 0)
        if n < a then search r n fuel lo mid
        else if b < n then search r n fuel (mid + 1) hi
        else true
      else false

def contains (r : Ranges) (n : Nat) : Bool := search r n (r.size + 1) 0 r.size

end Ranges

abbrev Strides := Array (Nat × Nat × Nat)

def Strides.contains (r : Strides) (n : Nat) : Bool :=
  r.any fun (a, b, d) => a ≤ n && n ≤ b && (n - a) % d == 0

end BotApi.Text
