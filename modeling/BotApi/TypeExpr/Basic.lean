/-!
Type expressions of the documentation: names of basic types, references to documented types by
their anchor, arrays, and unions.
-/

namespace BotApi

inductive TypeExpr where
  | basic (name : String)
  | ref (id : String)
  | array (item : TypeExpr)
  | union (options : List TypeExpr)
  deriving Repr, Inhabited

namespace TypeExpr

mutual
def decEq : (a b : TypeExpr) → Decidable (a = b)
  | .basic m, .basic n =>
      if h : m = n then isTrue (h ▸ rfl) else isFalse fun e => h (basic.inj e)
  | .ref m, .ref n =>
      if h : m = n then isTrue (h ▸ rfl) else isFalse fun e => h (ref.inj e)
  | .array a, .array b =>
      match decEq a b with
      | isTrue h => isTrue (h ▸ rfl)
      | isFalse h => isFalse fun e => h (array.inj e)
  | .union as, .union bs =>
      match decEqList as bs with
      | isTrue h => isTrue (h ▸ rfl)
      | isFalse h => isFalse fun e => h (union.inj e)
  | .basic _, .ref _ | .basic _, .array _ | .basic _, .union _ => isFalse nofun
  | .ref _, .basic _ | .ref _, .array _ | .ref _, .union _ => isFalse nofun
  | .array _, .basic _ | .array _, .ref _ | .array _, .union _ => isFalse nofun
  | .union _, .basic _ | .union _, .ref _ | .union _, .array _ => isFalse nofun
def decEqList : (as bs : List TypeExpr) → Decidable (as = bs)
  | [], [] => isTrue rfl
  | a :: as, b :: bs =>
      match decEq a b, decEqList as bs with
      | isTrue h, isTrue t => isTrue (h ▸ t ▸ rfl)
      | isFalse h, _ => isFalse fun e => h (List.cons.inj e).1
      | _, isFalse t => isFalse fun e => t (List.cons.inj e).2
  | [], _ :: _ | _ :: _, [] => isFalse nofun
end

instance : DecidableEq TypeExpr := decEq

mutual
def leaves : TypeExpr → List TypeExpr
  | .basic n => [.basic n]
  | .ref i => [.ref i]
  | .array e => leaves e
  | .union es => leavesList es
def leavesList : List TypeExpr → List TypeExpr
  | [] => []
  | e :: es => leaves e ++ leavesList es
end

def refId? : TypeExpr → Option String
  | .ref i => some i
  | _ => none

def refs (e : TypeExpr) : List String := e.leaves.filterMap refId?

theorem leavesList_eq (es : List TypeExpr) : leavesList es = es.flatMap leaves := by
  induction es with
  | nil => rfl
  | cons e es ih => simp [leavesList, ih]

def distinct {α : Type} [DecidableEq α] (xs : List α) : List α :=
  xs.foldl (fun seen x => if x ∈ seen then seen else seen ++ [x]) []

end TypeExpr

end BotApi
