import BotApi.Value.Compare
/-!
The order of values. Numbers are ordered by size, texts and octets by their parts; values of
different kinds have no order.
-/

namespace BotApi.Value

def fraction? : Value → Option (Int × Nat)
  | bool b => some (if b then 1 else 0, 1)
  | int n => some (n, 1)
  | float x => (Number.Binary.ofFloat? x).map fun b =>
      let m : Int := if b.negative then -(b.mantissa : Int) else b.mantissa
      match b.exponent with
      | .ofNat e => (m * Nat.pow 2 e, 1)
      | .negSucc e => (m, Nat.pow 2 (e + 1))
  | _ => none

def endless? : Value → Option Bool
  | float x => if Number.isInfinite x then some (Number.isNegative x) else none
  | _ => none

def isNumber : Value → Bool
  | bool _ | int _ | float _ => true
  | _ => false

def lessNumbers (a b : Value) : Bool :=
  match a.fraction?, b.fraction? with
  | some (m, d), some (n, e) => m * e < n * d
  | some _, none => b.endless? == some false
  | none, some _ => a.endless? == some true
  | none, none => a.endless? == some true && b.endless? == some false

mutual
def less? : Value → Value → Option Bool
  | str a, str b => some (a < b)
  | bytes a, bytes b | bytes a, buffer b | buffer a, bytes b | buffer a, buffer b => some (a < b)
  | path a, path b => some (a < b)
  | tuple xs, tuple ys => lessLists? xs ys
  | list xs, list ys => lessLists? xs ys
  | a, b => if a.isNumber && b.isNumber then some (lessNumbers a b) else none
def lessLists? : List Value → List Value → Option Bool
  | _, [] => some false
  | [], _ :: _ => some true
  | x :: xs, y :: ys => if x.equal y then lessLists? xs ys else less? x y
end

def insert? (v : Value) : List Value → Option (List Value)
  | [] => some [v]
  | w :: ws => (less? v w).bind fun b =>
      if b then some (v :: w :: ws) else (insert? v ws).map (w :: ·)

def sorted? : List Value → Option (List Value)
  | [] => some []
  | v :: vs => (sorted? vs).bind (insert? v)

end BotApi.Value
