import BotApi.Proofs.Draft.Blueprint
/-!
Sets of types that lead to no trouble: each refers to known types of the set only, bears an identifier
that is its own, and as a supertype does not lead back to itself through supertypes.
-/

namespace BotApi

open Draft (subst leaves named record literal)
open TypeExpr (Mentions)

namespace Draft

theorem subst_ofSubtypes {σ : String → Draft} (id : String) (f : Option String)
    (ds : List Draft) : subst σ (ofSubtypes id f ds) = ofSubtypes id f (ds.map (subst σ)) := by
  rcases ds with _ | ⟨d, _ | ⟨e, ds⟩⟩
  · rfl
  · rfl
  · exact subst_choice id f (d :: e :: ds)

theorem mem_leaves_ofSubtypes {l : Draft} {id : String} {f : Option String} {ds : List Draft} :
    l ∈ (ofSubtypes id f ds).leaves ↔ ∃ d ∈ ds, l ∈ d.leaves := by
  rcases ds with _ | ⟨d, _ | ⟨e, ds⟩⟩
  · exact mem_leaves_choice
  · simp [ofSubtypes]
  · exact mem_leaves_choice

theorem ofExprs_eq (self : String → Draft) (es : List TypeExpr) :
    ofExprs self es = es.map (ofExpr self) := by
  induction es with
  | nil => rfl
  | cons e es ih => simp [ofExprs, ih]

mutual
theorem mem_leaves_ofExpr {self : String → Draft} {l : Draft} : ∀ {e : TypeExpr},
    l ∈ (ofExpr self e).leaves → (∃ b, l = .basic b) ∨ ∃ i, e.Mentions i ∧ l ∈ (self i).leaves
  | .basic n, h => .inl ⟨_, by simpa [ofExpr, leaves] using h⟩
  | .ref i, h => .inr ⟨i, .ref, h⟩
  | .array e, h => by
      rcases mem_leaves_ofExpr (e := e) (by simpa only [ofExpr, leaves] using h) with hb | ⟨i, hi, hl⟩
      · exact .inl hb
      · exact .inr ⟨i, .array hi, hl⟩
  | .union es, h => by
      rw [ofExpr, mem_leaves_unionOf] at h
      obtain ⟨d, hd, hl⟩ := h
      rcases mem_leaves_ofExprs hd hl with hb | ⟨i, e, he, hi, hl⟩
      · exact .inl hb
      · exact .inr ⟨i, .union he hi, hl⟩
theorem mem_leaves_ofExprs {self : String → Draft} {l d : Draft} : ∀ {es : List TypeExpr},
    d ∈ ofExprs self es → l ∈ d.leaves →
    (∃ b, l = .basic b) ∨ ∃ i, ∃ e ∈ es, e.Mentions i ∧ l ∈ (self i).leaves
  | [], h, _ => by simp [ofExprs] at h
  | e :: es, h, hl => by
      rw [ofExprs, List.mem_cons] at h
      rcases h with rfl | h
      · rcases mem_leaves_ofExpr hl with hb | ⟨i, hi, hl⟩
        · exact .inl hb
        · exact .inr ⟨i, e, by simp, hi, hl⟩
      · rcases mem_leaves_ofExprs h hl with hb | ⟨i, e', he, hi, hl⟩
        · exact .inl hb
        · exact .inr ⟨i, e', by simp [he], hi, hl⟩
end

section

variable {σ self : String → Draft}

mutual
theorem subst_ofExpr (hσ : ∀ n, (σ n).isUnion = false) : ∀ {e : TypeExpr},
    (∀ i, e.Mentions i → subst σ (self i) = self i) →
      subst σ (ofExpr self e) = ofExpr self e
  | .basic n, _ => rfl
  | .ref i, h => h i .ref
  | .array e, h => by
      rw [ofExpr, subst, subst_ofExpr hσ fun i hi => h i (.array hi)]
  | .union es, h => by
      rw [ofExpr, subst_unionOf hσ, map_subst_ofExprs hσ fun e he i hi => h i (.union he hi)]
theorem map_subst_ofExprs (hσ : ∀ n, (σ n).isUnion = false) : ∀ {es : List TypeExpr},
    (∀ e ∈ es, ∀ i, e.Mentions i → subst σ (self i) = self i) →
      (ofExprs self es).map (subst σ) = ofExprs self es
  | [], _ => rfl
  | e :: es, h => by
      rw [ofExprs, List.map_cons, subst_ofExpr hσ (h e (by simp)),
        map_subst_ofExprs hσ fun e' he => h e' (by simp [he])]
end

end

theorem mem_foldl_putField {fs gs : List Field} {f : Field} (h : f ∈ fs.foldl putField gs) :
    f ∈ gs ∨ f ∈ fs := by
  induction fs generalizing gs with
  | nil => exact .inl h
  | cons g fs ih =>
      rcases ih (by simpa using h) with h | h
      · unfold putField at h
        split at h
        · obtain ⟨f', hf', rfl⟩ := List.mem_map.1 h
          split
          · exact .inr (by simp)
          · exact .inl hf'
        · rcases List.mem_append.1 h with h | h
          · exact .inl h
          · exact .inr (by simp_all)
      · exact .inr (by simp [h])

end Draft

namespace Spec

inductive Follows (s : Spec) (id i : String) : Prop
  | subtype {t : ApiType} {key : Nat} {ids : List String} :
      s.typeEntry? id = some (t, key) → t.name ≠ inputFileName → t.shape = .subtypes ids →
      i ∈ ids → Follows s id i
  | field {t : ApiType} {key : Nat} {ps : List Param} {p : Param} :
      s.typeEntry? id = some (t, key) → t.name ≠ inputFileName → t.shape = .fields ps → p ∈ ps →
      s.tellsApart id p.name = false → p.type.Mentions i → Follows s id i

structure Sound (s : Spec) (good : String → Prop) : Prop where
  entry : ∀ {id}, good id → ∃ t key, s.typeEntry? id = some (t, key)
  identifier : ∀ {id t key}, good id → s.typeEntry? id = some (t, key) →
    Draft.Name.isIdentifier t.name.toList = true
  bearer : ∀ {id t key}, good id → s.typeEntry? id = some (t, key) →
    ∀ u ∈ s.types, u.name = t.name → u = t
  settles : ∀ {id}, good id → ∃ n, s.settles n id = true
  closed : ∀ {id i}, good id → s.Follows id i → good i

structure RecordOf (s : Spec) (id : String) (t : ApiType) (key : Nat) (ps : List Param) : Prop where
  entry : s.typeEntry? id = some (t, key)
  name : t.name ≠ inputFileName
  shape : t.shape = .fields ps
  nonempty : ps ≠ []

def KeyOf (s : Spec) (good : String → Prop) (key : Nat) : Prop :=
  ∃ id t ps, good id ∧ s.RecordOf id t key ps

structure Formed (s : Spec) (id : String) : Prop where
  members : ∀ {t key}, s.typeEntry? id = some (t, key) → t.name ≠ inputFileName →
    t.shape ≠ .subtypes []
  attributes : ∀ {t key ps}, s.RecordOf id t key ps → ∀ p ∈ ps,
    (Catalog.attributeName p.name).startsWith "_" = false

structure Builds (s : Spec) (good : String → Prop) : Prop where
  formed : ∀ {id}, good id → s.Formed id
  records : ∀ {key}, s.KeyOf good key → ∃ rs, s.blueprint.recordsFrom key = .ok rs

theorem typeEntry?_mem {s : Spec} {id : String} {t : ApiType} {key : Nat}
    (he : s.typeEntry? id = some (t, key)) : t ∈ s.types :=
  List.mem_of_getElem? (typeEntry?_getElem? he)

theorem RecordOf.follows {s : Spec} {id i : String} {t : ApiType} {key : Nat} {ps : List Param}
    (hr : s.RecordOf id t key ps) (hi : s.Follows id i) :
    ∃ p ∈ ps, s.tellsApart id p.name = false ∧ p.type.Mentions i := by
  cases hi with
  | subtype hu hn hs hmem =>
      have hut := hu.symm.trans hr.entry
      cases hut
      have hshape := hs.symm.trans hr.shape
      cases hshape
  | field hu hn hs hp ht hmentions =>
      have hut := hu.symm.trans hr.entry
      cases hut
      have hshape := hs.symm.trans hr.shape
      cases hshape
      exact ⟨_, hp, ht, hmentions⟩

theorem Formed.of_record {s : Spec} {id : String} {t : ApiType} {key : Nat} {ps : List Param}
    (hr : s.RecordOf id t key ps)
    (h : ∀ p ∈ ps, (Catalog.attributeName p.name).startsWith "_" = false) : s.Formed id where
  members {u k} hu _ := by
    have hut := hu.symm.trans hr.entry
    cases hut
    rw [hr.shape]
    exact fun h => nomatch h
  attributes {u k qs} hu p hp := by
    have hut := hu.entry.symm.trans hr.entry
    cases hut
    have hshape := hu.shape.symm.trans hr.shape
    cases hshape
    exact h p hp

theorem mem_of_follows {s : Spec} {id i : String} {t : ApiType} {key : Nat} {ids : List String}
    (he : s.typeEntry? id = some (t, key)) (hshape : t.shape = .subtypes ids)
    (hi : s.Follows id i) : i ∈ ids := by
  cases hi with
  | subtype hu hn hs hmem =>
      have hut := hu.symm.trans he
      cases hut
      have hids := hs.symm.trans hshape
      cases hids
      exact hmem
  | field hu hn hs hp ht hmentions =>
      have hut := hu.symm.trans he
      cases hut
      have hids := hs.symm.trans hshape
      cases hids

theorem Formed.of_subtypes {s : Spec} {id : String} {t : ApiType} {key : Nat} {ids : List String}
    (he : s.typeEntry? id = some (t, key)) (hshape : t.shape = .subtypes ids) (h : ids ≠ []) :
    s.Formed id where
  members {u k} hu _ := by
    have hut := hu.symm.trans he
    cases hut
    rw [hshape]
    rintro ⟨⟩
    exact h rfl
  attributes {u k qs} hu := by
    have hut := hu.entry.symm.trans he
    cases hut
    exact nomatch hshape.symm.trans hu.shape

theorem exists_of_mem_below {s : Spec} {id i : String} (hi : i ∈ s.below id) :
    ∃ t key ids, s.typeEntry? id = some (t, key) ∧ t.name ≠ inputFileName ∧
      t.shape = .subtypes ids ∧ i ∈ ids := by
  unfold below at hi
  split at hi
  · rename_i t key he
    split at hi
    · cases hi
    · rename_i hn
      unfold ApiType.subtypes? at hi
      split at hi
      · cases hi
      · rename_i ids hs
        exact ⟨t, key, ids, he, hn, hs, hi⟩
  · cases hi

theorem blueprint_record? {s : Spec} {key : Nat} {t : ApiType} (h : s.types[key]? = some t) :
    s.blueprint.record? key = some ⟨t.name, s.idealFields t, true⟩ := by
  have hmem : (t, key) ∈ s.types.zipIdx := List.mem_zipIdx_iff_getElem?.2 h
  have hfound : (s.blueprint.records.find? (·.1 == key)).isSome = true := by
    rw [List.find?_isSome]
    exact ⟨_, List.mem_map_of_mem hmem, by simp⟩
  obtain ⟨e, he⟩ := Option.isSome_iff_exists.1 hfound
  obtain ⟨⟨u, k⟩, hu, rfl⟩ := List.mem_map.1 (List.mem_of_find?_eq_some he)
  obtain rfl : k = key := by simpa using List.find?_some he
  obtain rfl : t = u := by
    have := List.mem_zipIdx_iff_getElem?.1 hu
    exact Option.some.inj (h.symm.trans this)
  rw [Draft.Site.record?, he]
  rfl

namespace Sound

variable {s : Spec} {good : String → Prop} {id id' : String} {t t' : ApiType} {key key' : Nat}

theorem meaning_name (sound : s.Sound good) (hg : good id)
    (he : s.typeEntry? id = some (t, key)) : s.meaning t.name = s.ideal id := by
  have hfound : (s.types.find? (·.name == t.name)).isSome = true := by
    rw [List.find?_isSome]
    exact ⟨t, typeEntry?_mem he, by simp⟩
  obtain ⟨u, hu⟩ := Option.isSome_iff_exists.1 hfound
  have hname : u.name = t.name := by simpa using List.find?_some hu
  have hut : u = t := sound.bearer hg he u (List.mem_of_find?_eq_some hu) hname
  rw [meaning, hu, hut]
  simp only [typeEntry?_id he]

theorem id_eq_of_name (sound : s.Sound good) (hg : good id)
    (he : s.typeEntry? id = some (t, key)) (he' : s.typeEntry? id' = some (t', key'))
    (hn : t'.name = t.name) : id' = id := by
  have ht := sound.bearer hg he t' (typeEntry?_mem he') hn
  rw [← typeEntry?_id he, ← typeEntry?_id he', ht]

theorem ideal_eq (sound : s.Sound good) (hg : good id)
    (he : s.typeEntry? id = some (t, key)) : s.ideal id = s.draftOf s.ideal t key :=
  Spec.ideal_eq (sound.settles hg) he

theorem ideal_record (sound : s.Sound good) (hg : good id) (hr : s.RecordOf id t key ps) :
    s.ideal id = .record key := by
  rw [sound.ideal_eq hg hr.entry, draftOf, if_neg hr.name, hr.shape]
  cases ps with
  | nil => exact absurd rfl hr.nonempty
  | cons p ps => rfl

theorem ideal_cases (sound : s.Sound good) (hg : good id) :
    ∃ t key, s.typeEntry? id = some (t, key) ∧
      ((t.name = inputFileName ∧ s.ideal id = .basic .file) ∨
      (∃ ids, t.name ≠ inputFileName ∧ t.shape = .subtypes ids ∧
        s.ideal id = .ofSubtypes id (s.discriminant? id) (ids.map s.ideal)) ∨
      (t.name ≠ inputFileName ∧ t.shape = .fields [] ∧ s.ideal id = .basic .any) ∨
      ∃ ps, s.RecordOf id t key ps ∧ s.ideal id = .record key) := by
  obtain ⟨t, key, he⟩ := sound.entry hg
  have hideal := sound.ideal_eq hg he
  refine ⟨t, key, he, ?_⟩
  unfold draftOf at hideal
  split at hideal
  · rename_i hn
    exact .inl ⟨hn, hideal⟩
  · rename_i hn
    rw [typeEntry?_id he] at hideal
    split at hideal
    · rename_i ids hs
      exact .inr (.inl ⟨ids, hn, hs, hideal⟩)
    · rename_i hs
      exact .inr (.inr (.inl ⟨hn, hs, hideal⟩))
    · rename_i ps hps hs
      exact .inr (.inr (.inr ⟨ps, ⟨he, hn, hs, hps⟩, hideal⟩))

theorem induction (sound : s.Sound good) {P : String → Prop}
    (step : ∀ id, good id → (∀ i, i ∈ s.below id → P i) → P id) (hg : good id) : P id := by
  induction hr : s.rank id using Nat.strong_induction_on generalizing id with
  | _ r ih =>
      refine step id hg fun i hi => ?_
      have hlt := rank_lt (sound.settles hg) hi
      obtain ⟨t, key, ids, he, hn, hs, hi⟩ := exists_of_mem_below hi
      exact ih (s.rank i) (hr ▸ hlt) (sound.closed hg (.subtype he hn hs hi)) rfl

theorem leaves_ideal (sound : s.Sound good) (hg : good id) :
    ∀ l ∈ (s.ideal id).leaves, (∃ b, l = .basic b) ∨ ∃ k, l = .record k ∧ s.KeyOf good k := by
  refine sound.induction (P := fun id => ∀ l ∈ (s.ideal id).leaves, (∃ b, l = .basic b) ∨
    ∃ k, l = .record k ∧ s.KeyOf good k) (fun id hg ih => ?_) hg
  intro l hl
  obtain ⟨t, key, he, h⟩ := sound.ideal_cases hg
  rcases h with ⟨-, h⟩ | ⟨ids, hn, hs, h⟩ | ⟨-, -, h⟩ | ⟨ps, hr, h⟩
  · rw [h] at hl
    exact .inl ⟨_, by simpa [leaves] using hl⟩
  · rw [h, Draft.mem_leaves_ofSubtypes] at hl
    obtain ⟨d, hd, hl⟩ := hl
    obtain ⟨i, hi, rfl⟩ := List.mem_map.1 hd
    exact ih i ((mem_below he hn hs).2 hi) l hl
  · rw [h] at hl
    exact .inl ⟨_, by simpa [leaves] using hl⟩
  · rw [h] at hl
    exact .inr ⟨key, by simpa [leaves] using hl, id, t, ps, hg, hr⟩

theorem subst_ideal (sound : s.Sound good) (hg : good id) :
    subst s.meaning (s.ideal id) = s.ideal id := by
  refine sound.induction (P := fun id => subst s.meaning (s.ideal id) = s.ideal id)
    (fun id hg ih => ?_) hg
  obtain ⟨t, key, he, h⟩ := sound.ideal_cases hg
  rcases h with ⟨-, h⟩ | ⟨ids, hn, hs, h⟩ | ⟨-, -, h⟩ | ⟨ps, hr, h⟩
  · rw [h]
    rfl
  · rw [h, Draft.subst_ofSubtypes, List.map_map]
    congr 1
    exact List.map_congr_left fun i hi => ih i ((mem_below he hn hs).2 hi)
  · rw [h]
    rfl
  · rw [h]
    rfl

theorem mem_idealFields (hr : s.RecordOf id t key ps) {f : Draft.Field}
    (hf : f ∈ s.idealFields t) : ∃ p ∈ ps, f = s.idealField id p := by
  have hfields : t.fields = ps := by simp [ApiType.fields, hr.shape]
  rw [idealFields, hfields, typeEntry?_id hr.entry] at hf
  rcases Draft.mem_foldl_putField hf with hf | hf
  · simp at hf
  · obtain ⟨p, hp, rfl⟩ := List.mem_map.1 hf
    exact ⟨p, hp, rfl⟩

theorem leaves_idealFields (sound : s.Sound good) (hg : good id) (hr : s.RecordOf id t key ps)
    {f : Draft.Field} (hf : f ∈ s.idealFields t) :
    (∃ text, f.draft = .literal text) ∨
      ∀ l ∈ f.draft.leaves, (∃ b, l = .basic b) ∨ ∃ k, l = .record k ∧ s.KeyOf good k := by
  obtain ⟨p, hp, rfl⟩ := mem_idealFields hr hf
  cases ht : s.tellsApart id p.name with
  | true => exact .inl ⟨p.value.getD "", by simp [idealField, Work.draftField, ht]⟩
  | false =>
      refine .inr fun l hl => ?_
      simp only [idealField, Work.draftField, ht, Bool.false_eq_true, ↓reduceIte] at hl
      rcases Draft.mem_leaves_ofExpr hl with hb | ⟨i, hi, hl⟩
      · exact .inl hb
      · exact sound.leaves_ideal (sound.closed hg (.field hr.entry hr.name hr.shape hp ht hi)) l hl

theorem subst_ofExpr (sound : s.Sound good) {e : TypeExpr} (h : ∀ i, e.Mentions i → good i) :
    subst s.meaning (.ofExpr s.ideal e) = .ofExpr s.ideal e :=
  Draft.subst_ofExpr isUnion_meaning fun i hi => sound.subst_ideal (h i hi)

end Sound

end Spec

end BotApi
