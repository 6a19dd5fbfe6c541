import BotApi.Draft.Compiler
import BotApi.Proofs.Catalog.Discovery
import BotApi.Proofs.Draft.Substitute
import Mathlib.Order.Nat
/-!
What the types of a catalog stand for, whatever is drafted first. Supertypes stand for their subtypes,
as far as these do not lead back to them; records are told by their keys.
-/

namespace BotApi

open Draft (Site subst leaves named record)
open TypeExpr (Mentions)

def Draft.ofSubtypes (id : String) (field : Option String) : List Draft → Draft
  | [d] => d
  | ds => .choice id field (distinct ds)

mutual
def Draft.ofExpr (self : String → Draft) : TypeExpr → Draft
  | .basic n => .basic (.ofName n)
  | .ref i => self i
  | .array e => .array (ofExpr self e)
  | .union es => unionOf (ofExprs self es)
def Draft.ofExprs (self : String → Draft) : List TypeExpr → List Draft
  | [] => []
  | e :: es => ofExpr self e :: ofExprs self es
end

namespace Spec

variable (s : Spec)

def below (id : String) : List String :=
  match s.typeEntry? id with
  | some (t, _) => if t.name = inputFileName then [] else t.subtypes?.getD []
  | none => []

-- A supertype that has supertypes among its subtypes.
def Nests (id : String) : Prop := ∃ i ∈ s.below id, s.below i ≠ []

def settles : Nat → String → Bool
  | 0, _ => false
  | n + 1, id => (s.below id).all (settles n)

open Classical in
noncomputable def rank (id : String) : Nat :=
  if h : ∃ n, s.settles n id = true then Nat.find h else 0

def draftOf (self : String → Draft) (t : ApiType) (key : Nat) : Draft :=
  if t.name = inputFileName then .basic .file
  else match t.shape with
    | .subtypes ids => .ofSubtypes t.id (s.discriminant? t.id) (ids.map self)
    | .fields [] => .basic .any
    | .fields _ => .record key

def idealAt : Nat → String → Draft
  | 0, _ => .basic .any
  | n + 1, id => match s.typeEntry? id with
    | some (t, key) => s.draftOf (idealAt n) t key
    | none => .basic .any

noncomputable def ideal (id : String) : Draft := s.idealAt (s.rank id) id

noncomputable def meaning (name : String) : Draft :=
  match s.types.find? (·.name == name) with
  | some t => s.ideal t.id
  | none => .named name

noncomputable def idealField (id : String) (p : Param) : Draft.Field :=
  Work.draftField p <|
    if s.tellsApart id p.name then .literal (p.value.getD "") else .ofExpr s.ideal p.type

noncomputable def idealFields (t : ApiType) : List Draft.Field :=
  (t.fields.map (s.idealField t.id)).foldl Draft.putField []

noncomputable def blueprint : Site where
  records := s.types.zipIdx.map fun (t, key) => (key, ⟨t.name, s.idealFields t, true⟩)
  names := []

variable {s}

theorem settles_rank {id : String} (h : ∃ n, s.settles n id = true) :
    s.settles (s.rank id) id = true := by
  classical
  rw [rank, dif_pos h]
  exact Nat.find_spec h

theorem rank_le {n : Nat} {id : String} (h : s.settles n id = true) : s.rank id ≤ n := by
  classical
  rw [rank, dif_pos ⟨n, h⟩]
  exact Nat.find_min' _ h

theorem rank_lt {id i : String} (h : ∃ n, s.settles n id = true) (hi : i ∈ s.below id) :
    s.rank i < s.rank id := by
  have hid := settles_rank h
  cases hr : s.rank id with
  | zero => simp [hr, settles] at hid
  | succ n =>
      rw [hr, settles, List.all_eq_true] at hid
      exact Nat.lt_succ_of_le (rank_le (hid i hi))

theorem not_rank_lt {id i : String} (hid : s.below id = []) (hi : ∃ n, s.settles n i = true) :
    ¬ s.rank i < s.rank id := by
  intro hlt
  have hle : s.rank id ≤ 1 := rank_le (by simp [settles, hid])
  have hzero : s.rank i = 0 := by omega
  have hsettles := settles_rank hi
  rw [hzero] at hsettles
  cases hsettles

theorem mem_below {id i : String} {t : ApiType} {key : Nat} {ids : List String}
    (h : s.typeEntry? id = some (t, key)) (hn : t.name ≠ inputFileName)
    (hs : t.shape = .subtypes ids) : i ∈ s.below id ↔ i ∈ ids := by
  simp [below, h, hn, ApiType.subtypes?, hs]

theorem below_eq_nil {id : String} {t : ApiType} {key : Nat} (h : s.typeEntry? id = some (t, key))
    (ht : t.name = inputFileName ∨ ∃ ps, t.shape = .fields ps) : s.below id = [] := by
  rcases ht with hn | ⟨ps, hs⟩
  · simp [below, h, hn]
  · simp [below, h, ApiType.subtypes?, hs]

theorem typeEntry?_id {id : String} {t : ApiType} {key : Nat}
    (h : s.typeEntry? id = some (t, key)) : t.id = id := by
  simpa using List.find?_some h

theorem typeEntry?_getElem? {id : String} {t : ApiType} {key : Nat}
    (h : s.typeEntry? id = some (t, key)) : s.types[key]? = some t := by
  have hmem := List.mem_of_find?_eq_some h
  simpa using List.mem_zipIdx_iff_getElem?.1 (List.mem_reverse.1 hmem)

theorem key_lt {id : String} {t : ApiType} {key : Nat} (he : s.typeEntry? id = some (t, key)) :
    key < s.types.length := by
  obtain ⟨h, -⟩ := List.getElem?_eq_some_iff.1 (typeEntry?_getElem? he)
  exact h

theorem id_eq_of_key {id id' : String} {t t' : ApiType} {key : Nat}
    (h : s.typeEntry? id = some (t, key)) (h' : s.typeEntry? id' = some (t', key)) : id = id' := by
  have ht : t = t' := by
    have := typeEntry?_getElem? h
    rw [typeEntry?_getElem? h'] at this
    exact (Option.some.inj this).symm
  rw [← typeEntry?_id h, ← typeEntry?_id h', ht]

theorem draftOf_congr {self self' : String → Draft} {t : ApiType} {key : Nat}
    (h : t.name ≠ inputFileName → ∀ i ∈ t.subtypes?.getD [], self i = self' i) :
    s.draftOf self t key = s.draftOf self' t key := by
  unfold draftOf
  split
  · rfl
  · rename_i hn
    split
    · rename_i ids hs
      rw [List.map_congr_left fun i hi => h hn i (by simpa [ApiType.subtypes?, hs] using hi)]
    · rfl
    · rfl

theorem idealAt_eq {n m : Nat} {id : String} (h : s.settles n id = true) (hle : n ≤ m) :
    s.idealAt m id = s.idealAt n id := by
  induction n generalizing m id with
  | zero => simp [settles] at h
  | succ n ih =>
      obtain ⟨m, rfl⟩ : ∃ m', m = m' + 1 := ⟨m - 1, by omega⟩
      simp only [idealAt]
      cases he : s.typeEntry? id with
      | none => rfl
      | some e =>
          obtain ⟨t, key⟩ := e
          refine draftOf_congr fun hn i hi => ih ?_ (by omega)
          rw [settles, List.all_eq_true] at h
          exact h i (by simpa [below, he, hn] using hi)

theorem ideal_eq {id : String} {t : ApiType} {key : Nat} (h : ∃ n, s.settles n id = true)
    (he : s.typeEntry? id = some (t, key)) : s.ideal id = s.draftOf s.ideal t key := by
  have hid := settles_rank h
  rw [ideal]
  cases hr : s.rank id with
  | zero => simp [hr, settles] at hid
  | succ n =>
      rw [hr, settles, List.all_eq_true] at hid
      simp only [idealAt, he]
      refine draftOf_congr fun hn i hi => ?_
      have hi' := hid i (by simpa [below, he, hn] using hi)
      exact idealAt_eq (settles_rank ⟨n, hi'⟩) (rank_le hi')

theorem isUnion_idealAt (n : Nat) (id : String) : (s.idealAt n id).isUnion = false := by
  induction n generalizing id with
  | zero => rfl
  | succ n ih =>
      rw [idealAt]
      split
      · unfold draftOf
        split
        · rfl
        · split
          · rename_i ids hs
            rcases ids with _ | ⟨i, _ | ⟨j, ids⟩⟩
            · rfl
            · exact ih i
            · rfl
          · rfl
          · rfl
      · rfl

theorem isUnion_meaning (name : String) : (s.meaning name).isUnion = false := by
  unfold meaning
  split
  · exact isUnion_idealAt _ _
  · rfl

end Spec

end BotApi
