import BotApi.Proofs.Draft.Sound
import Mathlib.Data.List.Forall2
import Mathlib.Data.List.Nodup
import Mathlib.Data.Option.Basic
/-!
What a discriminant promises: each subtype always carries a text of its own in the field.
-/
namespace BotApi

namespace Spec

variable {s : Spec} {id f : String} {t : ApiType} {key : Nat} {ids : List String}

theorem forall₂_of_mapM {α β : Type} {f : α → Option β} {xs : List α} {ys : List β}
    (h : xs.mapM f = some ys) : List.Forall₂ (fun x y => f x = some y) xs ys := by
  induction xs generalizing ys with
  | nil =>
      cases h
      exact .nil
  | cons x xs ih =>
      rw [List.mapM_cons] at h
      simp only [bind, pure, Option.bind_eq_some_iff] at h
      obtain ⟨y, hy, ys', hys, heq⟩ := h
      cases heq
      exact .cons hy (ih hys)

theorem type?_of_entry (he : s.typeEntry? id = some (t, key)) : s.type? id = some t := by
  have hmap : s.types.reverse = s.types.zipIdx.reverse.map Prod.fst := by
    rw [List.map_reverse, List.zipIdx_map_fst]
  rw [type?, hmap, List.find?_map]
  exact (congrArg (Option.map Prod.fst) he).trans rfl

theorem entry_of_type? (h : s.type? id = some t) : ∃ key, s.typeEntry? id = some (t, key) := by
  cases he : s.typeEntry? id with
  | none =>
      rw [ typeEntry?, List.find?_eq_none] at he
      obtain ⟨key, hkey⟩ := List.getElem?_of_mem (List.mem_reverse.1 (List.mem_of_find?_eq_some h))
      refine absurd (List.find?_some h) (he (t, key) (List.mem_reverse.2 ?_))
      exact List.mem_zipIdx_iff_getElem?.2 (by simpa using hkey)
  | some e =>
      cases (type?_of_entry he).symm.trans h
      exact ⟨e.2, rfl⟩

theorem discriminant?_of_type? (ht : s.type? id = some t) (h : s.discriminantOf t = some f) :
    s.discriminant? id = some f := by
  obtain ⟨hid, before, after, htypes, hbefore⟩ := List.find?_eq_some_iff_append.1 ht
  have hid : t.id = id := by simpa using hid
  have hnone : (before.filterMap fun u => (s.discriminantOf u).map fun f =>
      (⟨u.id, u.subtypes?.getD [], f⟩ : Discriminant)).find? (·.supertype == id) = none := by
    rw [List.find?_eq_none]
    intro d hd hsuper
    obtain ⟨u, hu, hd⟩ := List.mem_filterMap.1 hd
    obtain ⟨f, -, rfl⟩ := Option.map_eq_some_iff.1 hd
    exact absurd hsuper (by simpa using hbefore u hu)
  rw [discriminant?, discriminants, ← List.filterMap_reverse, htypes, List.filterMap_append,
    List.find?_append, hnone, Option.none_or, List.filterMap_cons, h]
  simp [hid]

structure Labels (s : Spec) (f i text : String) : Prop where
  apart : s.tellsApart i f = true
  field : ∃ u p, s.type? i = some u ∧ u.isSupertype = false ∧ u.field? f = some p ∧
    p.required = true ∧ p.value = some text

theorem Labels.unique {i text text' : String} (h : s.Labels f i text) (h' : s.Labels f i text') : text = text' := by
  obtain ⟨u, p, hu, -, hp, -, hvalue⟩ := h.field
  obtain ⟨u', p', hu', -, hp', -, hvalue'⟩ := h'.field
  cases hu.symm.trans hu'
  cases hp.symm.trans hp'
  exact Option.some.inj (hvalue.symm.trans hvalue')

theorem labels (ht : s.type? id = some t) (hshape : t.shape = .subtypes ids)
    (h : s.discriminantOf t = some f) :
    2 ≤ ids.length ∧ ∃ texts, List.Forall₂ (s.Labels f) ids texts ∧ texts.Nodup := by
  have hapart : ∀ i ∈ ids, s.tellsApart i f = true := by
    intro i hi
    refine List.any_eq_true.2 ⟨⟨t.id, ids, f⟩, List.mem_filterMap.2 ⟨t, ?_, ?_⟩, by simpa using hi⟩
    · exact List.mem_reverse.1 (List.mem_of_find?_eq_some ht)
    · rw [h, ApiType.subtypes?, hshape]
      rfl
  simp only [discriminantOf, ApiType.subtypes?, hshape, bind, Option.bind_some, Option.bind_eq_some_iff,
    literals?, exists_const, Option.guard_eq_some'] at h
  obtain ⟨hlen, types, htypes, hrecords, first, -, values, hvalues, hdistinct, hname⟩ := h
  cases hname
  refine ⟨hlen, values, ?_, hdistinct⟩
  replace htypes := forall₂_of_mapM htypes
  replace hvalues := forall₂_of_mapM hvalues
  clear hlen hdistinct hshape
  induction htypes generalizing values with
  | nil =>
      cases hvalues
      exact .nil
  | @cons i u ids types hu _ ih =>
      cases hvalues with
      | @cons _ text _ values htext hvalues =>
          simp only [List.all_cons, Bool.and_eq_true] at hrecords
          refine .cons ⟨hapart i (by simp), ?_⟩
            (ih hrecords.2 values (fun j hj => hapart j (by simp [hj])) hvalues)
          rw [Option.bind_eq_some_iff] at htext
          obtain ⟨p, hp, htext⟩ := htext
          split at htext
          · rename_i hrequired
            simp only [Bool.and_eq_true] at hrequired
            exact ⟨u, p, hu, by simpa using hrecords.1.1, hp, hrequired.1, htext⟩
          · cases htext

end Spec
end BotApi
