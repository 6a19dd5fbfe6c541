import BotApi.Catalog.Compile
/-!
Compiling elements succeeds exactly when every identifier that the parameters lead to has a type
element. The types of the catalog are then those identifiers, each once, in depth-first order.
-/

namespace BotApi

inductive TypeExpr.Mentions (id : String) : TypeExpr → Prop where
  | ref : Mentions id (.ref id)
  | array {e : TypeExpr} : Mentions id e → Mentions id (.array e)
  | union {e : TypeExpr} {es : List TypeExpr} : e ∈ es → Mentions id e → Mentions id (.union es)

namespace TypeExpr

mutual
theorem mentions_of_mem_leaves {id : String} :
    ∀ {e : TypeExpr}, .ref id ∈ e.leaves → Mentions id e
  | .basic n, h => by simp [leaves] at h
  | .ref i, h => by
      simp only [leaves, List.mem_singleton, ref.injEq] at h
      exact h ▸ .ref
  | .array e, h => .array (mentions_of_mem_leaves (by simpa [leaves] using h))
  | .union es, h => by
      obtain ⟨e, he, hm⟩ := exists_mentions_of_mem_leavesList (by simpa [leaves] using h)
      exact .union he hm
theorem exists_mentions_of_mem_leavesList {id : String} :
    ∀ {es : List TypeExpr}, .ref id ∈ leavesList es → ∃ e ∈ es, Mentions id e
  | [], h => by simp [leavesList] at h
  | e :: es, h => by
      rcases List.mem_append.1 (by simpa [leavesList] using h) with h | h
      · exact ⟨e, List.mem_cons_self, mentions_of_mem_leaves h⟩
      · obtain ⟨e', he, hm⟩ := exists_mentions_of_mem_leavesList h
        exact ⟨e', List.mem_cons_of_mem _ he, hm⟩
end

theorem mem_leaves_of_mentions {id : String} {e : TypeExpr} (h : Mentions id e) :
    .ref id ∈ e.leaves := by
  induction h with
  | ref => simp [leaves]
  | array _ ih => simpa [leaves] using ih
  | union he _ ih =>
      simp only [leaves, leavesList_eq, List.mem_flatMap]
      exact ⟨_, he, ih⟩

theorem mem_refs_iff {id : String} {e : TypeExpr} : id ∈ e.refs ↔ .ref id ∈ e.leaves := by
  simp only [refs, List.mem_filterMap]
  constructor
  · rintro ⟨l, hl, h⟩
    cases l with
    | ref i =>
        simp only [refId?, Option.some.injEq] at h
        exact h ▸ hl
    | basic n => simp [refId?] at h
    | array e => simp [refId?] at h
    | union es => simp [refId?] at h
  · exact fun h => ⟨_, h, rfl⟩

theorem mem_refs_iff_mentions {id : String} {e : TypeExpr} : id ∈ e.refs ↔ Mentions id e :=
  mem_refs_iff.trans ⟨mentions_of_mem_leaves, mem_leaves_of_mentions⟩

end TypeExpr

namespace Compile

open TypeExpr (Mentions mem_refs_iff mem_refs_iff_mentions)

inductive Reachable (elements : List Element) : String → Prop where
  | param {m : Element} {p : Param} {i : String} : m ∈ elements → m.kind = .method →
      p ∈ m.paramList → Mentions i p.type → Reachable elements i
  | field {e : Element} {f : Param} {i j : String} : Reachable elements i →
      typeElement? elements i = some e → e.subtypes = none → f ∈ e.fields.getD [] →
      Mentions j f.type → Reachable elements j
  | subtype {e : Element} {ids : List String} {i j : String} : Reachable elements i →
      typeElement? elements i = some e → e.subtypes = some ids → j ∈ ids → Reachable elements j

-- The identifiers met so far, those still to be visited, and those met in the end.
inductive DepthFirst (elements : List Element) : List String → List String → List String → Prop where
  | done {met : List String} : DepthFirst elements met [] met
  | again {met rest out : List String} {i : String} : i ∈ met → DepthFirst elements met rest out →
      DepthFirst elements met (i :: rest) out
  | enter {met rest inner out : List String} {i : String} {e : Element} : i ∉ met →
      typeElement? elements i = some e →
      DepthFirst elements (met ++ [i]) e.toType.references inner →
      DepthFirst elements inner rest out → DepthFirst elements met (i :: rest) out

def paramRefs (elements : List Element) : List String :=
  (methodElements elements).flatMap fun m => m.paramList.flatMap fun p => p.type.refs

def seedsOf (methods : List Element) : List Reference :=
  methods.flatMap fun m => m.paramList.flatMap (·.references m.name)

theorem mem_references_iff {e : Element} {j : String} :
    j ∈ e.toType.references ↔
      (∃ ids, e.subtypes = some ids ∧ j ∈ ids) ∨
      (e.subtypes = none ∧ ∃ f ∈ e.fields.getD [], Mentions j f.type) := by
  cases h : e.subtypes with
  | none => simp [Element.toType, ApiType.references, h, mem_refs_iff_mentions]
  | some ids => simp [Element.toType, ApiType.references, h]

theorem Reachable.step {elements : List Element} {e : Element} {i j : String}
    (hi : Reachable elements i) (he : typeElement? elements i = some e)
    (hj : j ∈ e.toType.references) : Reachable elements j := by
  rcases mem_references_iff.1 hj with ⟨ids, hids, hj⟩ | ⟨hnone, f, hf, hj⟩
  · exact .subtype hi he hids hj
  · exact .field hi he hnone hf hj

theorem mem_paramRefs_iff {elements : List Element} {i : String} :
    i ∈ paramRefs elements ↔
      ∃ m ∈ elements, m.kind = .method ∧ ∃ p ∈ m.paramList, Mentions i p.type := by
  simp [paramRefs, methodElements, mem_refs_iff_mentions, and_assoc]

theorem map_id_referencesFrom (t : ApiType) : t.referencesFrom.map (·.id) = t.references := by
  simp [ApiType.referencesFrom, Function.comp_def]

theorem map_id_seedsOf (methods : List Element) :
    (seedsOf methods).map (·.id) =
      methods.flatMap fun m => m.paramList.flatMap fun p => p.type.refs := by
  simp [seedsOf, Param.references, List.map_flatMap, Function.comp_def]

theorem map_id_seeds (elements : List Element) :
    (seeds elements).map (·.id) = paramRefs elements :=
  map_id_seedsOf (methodElements elements)

theorem isUsed_iff {used : List ApiType} {i : String} :
    isUsed used i = true ↔ i ∈ used.map (·.id) := by
  simp [isUsed]

theorem reachable_of_mem_paramRefs {elements : List Element} {i : String}
    (h : i ∈ paramRefs elements) : Reachable elements i := by
  obtain ⟨m, hm, hk, p, hp, hi⟩ := mem_paramRefs_iff.1 h
  exact .param hm hk hp hi

namespace DepthFirst

variable {elements : List Element} {met rest out : List String}

theorem split {xs ys : List String} (h : DepthFirst elements met (xs ++ ys) out) :
    ∃ inner, DepthFirst elements met xs inner ∧ DepthFirst elements inner ys out := by
  induction xs generalizing met with
  | nil => exact ⟨met, .done, h⟩
  | cons x xs ih =>
      cases h with
      | again hi h =>
          obtain ⟨inner, hx, hy⟩ := ih h
          exact ⟨inner, .again hi hx, hy⟩
      | enter hi he hin h =>
          obtain ⟨inner, hx, hy⟩ := ih h
          exact ⟨inner, .enter hi he hin hx, hy⟩

theorem unique {out' : List String} (h : DepthFirst elements met rest out)
    (k : DepthFirst elements met rest out') : out = out' := by
  induction h generalizing out' with
  | done => cases k; rfl
  | again hi _ ih =>
      cases k with
      | again _ k => exact ih k
      | enter hn _ _ _ => exact absurd hi hn
  | enter hn he _ _ ih₁ ih₂ =>
      cases k with
      | again hi _ => exact absurd hi hn
      | enter _ he' k₁ k₂ =>
          cases he.symm.trans he'
          cases ih₁ k₁
          exact ih₂ k₂

theorem isPrefix (h : DepthFirst elements met rest out) : met <+: out := by
  induction h with
  | done => exact List.prefix_refl _
  | again _ _ ih => exact ih
  | enter _ _ _ _ ih₁ ih₂ => exact ((List.prefix_append _ _).trans ih₁).trans ih₂

theorem visited (h : DepthFirst elements met rest out) : ∀ i ∈ rest, i ∈ out := by
  induction h with
  | done => simp
  | again hi h ih =>
      intro j hj
      rcases List.mem_cons.1 hj with rfl | hj
      · exact h.isPrefix.subset hi
      · exact ih j hj
  | enter _ _ h₁ h₂ _ ih₂ =>
      intro j hj
      rcases List.mem_cons.1 hj with rfl | hj
      · exact h₂.isPrefix.subset (h₁.isPrefix.subset (by simp))
      · exact ih₂ j hj

theorem nodup (h : DepthFirst elements met rest out) (hm : met.Nodup) : out.Nodup := by
  induction h with
  | done => exact hm
  | again _ _ ih => exact ih hm
  | @enter met rest inner out i e hn _ _ _ ih₁ ih₂ =>
      refine ih₂ (ih₁ (List.nodup_append.2 ⟨hm, by simp, ?_⟩))
      rintro j hj k hk rfl
      exact hn (List.mem_singleton.1 hk ▸ hj)

theorem closed (h : DepthFirst elements met rest out) :
    ∀ i ∈ out, i ∈ met ∨
      ∃ e, typeElement? elements i = some e ∧ ∀ j ∈ e.toType.references, j ∈ out := by
  induction h with
  | done => exact fun i hi => .inl hi
  | again _ _ ih => exact ih
  | @enter met rest inner out i e hn he h₁ h₂ ih₁ ih₂ =>
      intro k hk
      rcases ih₂ k hk with hk | hk
      · rcases ih₁ k hk with hk | ⟨e', he', hj⟩
        · rcases List.mem_append.1 hk with hk | hk
          · exact .inl hk
          · cases List.mem_singleton.1 hk
            exact .inr ⟨e, he, fun j hj => h₂.isPrefix.subset (h₁.visited j hj)⟩
        · exact .inr ⟨e', he', fun j hj' => h₂.isPrefix.subset (hj j hj')⟩
      · exact .inr hk

theorem reachable (h : DepthFirst elements met rest out)
    (hm : ∀ i ∈ met, Reachable elements i) (hr : ∀ i ∈ rest, Reachable elements i) :
    ∀ i ∈ out, Reachable elements i := by
  induction h with
  | done => exact hm
  | again _ _ ih => exact ih hm fun j hj => hr j (List.mem_cons_of_mem _ hj)
  | @enter met rest inner out i e _ he _ _ ih₁ ih₂ =>
      have hi : Reachable elements i := hr i List.mem_cons_self
      refine ih₂ (ih₁ ?_ fun j hj => hi.step he hj) fun j hj => hr j (List.mem_cons_of_mem _ hj)
      intro j hj
      rcases List.mem_append.1 hj with hj | hj
      · exact hm j hj
      · exact List.mem_singleton.1 hj ▸ hi

theorem mem_iff_reachable {order : List String}
    (h : DepthFirst elements [] (paramRefs elements) order) {i : String} :
    i ∈ order ↔ Reachable elements i := by
  constructor
  · exact fun hi => h.reachable (by simp) (fun j hj => reachable_of_mem_paramRefs hj) i hi
  · intro hi
    have next {i j : String} {e : Element} (hi : i ∈ order) (he : typeElement? elements i = some e)
        (hj : j ∈ e.toType.references) : j ∈ order := by
      rcases h.closed i hi with hm | ⟨e', he', hout⟩
      · simp at hm
      · cases he.symm.trans he'
        exact hout j hj
    induction hi with
    | param hm hk hp hi => exact h.visited _ (mem_paramRefs_iff.2 ⟨_, hm, hk, _, hp, hi⟩)
    | field _ he hs hf hj ih => exact next ih he (mem_references_iff.2 (.inr ⟨hs, _, hf, hj⟩))
    | subtype _ he hs hj ih => exact next ih he (mem_references_iff.2 (.inl ⟨_, hs, hj⟩))

end DepthFirst

section Discover

variable {elements : List Element} {used out : List ApiType} {r : Reference}
  {rest refs : List Reference} {e : Element}

theorem discover_nil : discover elements used [] = .ok used := by
  rw [discover]

theorem discover_used (hu : isUsed used r.id = true) :
    discover elements used (r :: rest) = discover elements used rest := by
  rw [discover]
  split
  · rfl
  · simp_all

theorem discover_missing (hu : isUsed used r.id = false)
    (hf : typeElement? elements r.id = none) :
    discover elements used (r :: rest) = .error (.unresolved r.id r.referrer) := by
  rw [discover]
  split
  · simp_all
  · split <;> simp_all

theorem discover_new (hu : isUsed used r.id = false) (hf : typeElement? elements r.id = some e) :
    discover elements used (r :: rest) =
      discover elements (used ++ [e.toType]) (e.toType.referencesFrom ++ rest) := by
  rw [discover]
  split
  · simp_all
  · split <;> simp_all

theorem discover_induction {motive : List ApiType → List Reference → Prop}
    (done : motive out [])
    (again : ∀ {used r rest}, isUsed used r.id = true → motive used rest → motive used (r :: rest))
    (enter : ∀ {used r rest e}, isUsed used r.id = false → typeElement? elements r.id = some e →
      motive (used ++ [e.toType]) (e.toType.referencesFrom ++ rest) → motive used (r :: rest))
    (h : discover elements used refs = .ok out) : motive used refs := by
  induction used, refs using discover.induct elements with
  | case1 used =>
      rw [discover_nil, Except.ok.injEq] at h
      exact h ▸ done
  | case2 used r rest hu ih => exact again hu (ih (discover_used hu ▸ h))
  | case3 used r rest hu hf =>
      rw [discover_missing hu hf] at h
      cases h
  | case4 used r rest hu e hf ih => exact enter hu hf (ih (discover_new hu hf ▸ h))

theorem discover_append (xs ys : List Reference) :
    discover elements used (xs ++ ys) =
      (discover elements used xs).bind fun u => discover elements u ys := by
  induction used, xs using discover.induct elements with
  | case1 used =>
      rw [discover_nil]
      rfl
  | case2 used r rest hu ih => rw [List.cons_append, discover_used hu, discover_used hu, ih]
  | case3 used r rest hu hf =>
      rw [List.cons_append, discover_missing hu hf, discover_missing hu hf]
      rfl
  | case4 used r rest hu e hf ih =>
      rw [List.cons_append, discover_new hu hf, discover_new hu hf, ← List.append_assoc, ih]

theorem depthFirst_of_discover (h : discover elements used refs = .ok out) :
    DepthFirst elements (used.map (·.id)) (refs.map (·.id)) (out.map (·.id)) := by
  refine discover_induction
    (motive := fun used refs => DepthFirst elements (used.map (·.id)) (refs.map (·.id)) _)
    .done ?_ ?_ h
  · intro used r rest hu ih
    exact .again (isUsed_iff.1 hu) ih
  · intro used r rest e hu hf ih
    have hid : e.toType.id = r.id := (typeElement?_some hf).2.2
    simp only [List.map_append, List.map_cons, List.map_nil, map_id_referencesFrom, hid] at ih
    obtain ⟨inner, h₁, h₂⟩ := ih.split
    exact .enter (fun hi => by simp [isUsed_iff.2 hi] at hu) hf h₁ h₂

theorem extends_of_discover (h : discover elements used refs = .ok out) : used <+: out := by
  refine discover_induction (motive := fun used _ => used <+: out) (List.prefix_refl _) ?_ ?_ h
  · exact fun _ ih => ih
  · exact fun _ _ ih => (List.prefix_append _ _).trans ih

theorem converted_of_discover (h : discover elements used refs = .ok out)
    (hu : ∀ t ∈ used, ∃ e, typeElement? elements t.id = some e ∧ t = e.toType) :
    ∀ t ∈ out, ∃ e, typeElement? elements t.id = some e ∧ t = e.toType := by
  refine discover_induction (motive := fun used _ =>
    (∀ t ∈ used, ∃ e, typeElement? elements t.id = some e ∧ t = e.toType) →
      ∀ t ∈ out, ∃ e, typeElement? elements t.id = some e ∧ t = e.toType) id ?_ ?_ h hu
  · exact fun _ ih => ih
  · intro used r rest e _ hf ih hu
    refine ih fun t ht => ?_
    rcases List.mem_append.1 ht with ht | ht
    · exact hu t ht
    · cases List.mem_singleton.1 ht
      have hid : e.toType.id = r.id := (typeElement?_some hf).2.2
      exact ⟨e, hid ▸ hf, rfl⟩

theorem error_of_discover {f : CompileFault} (h : discover elements used refs = .error f)
    (hr : ∀ r ∈ refs, Reachable elements r.id) :
    ∃ id referrer, f = .unresolved id referrer ∧ Reachable elements id ∧
      typeElement? elements id = none := by
  induction used, refs using discover.induct elements with
  | case1 used =>
      rw [discover_nil] at h
      cases h
  | case2 used r rest hu ih =>
      exact ih (discover_used hu ▸ h) fun q hq => hr q (List.mem_cons_of_mem _ hq)
  | case3 used r rest hu hf =>
      rw [discover_missing hu hf, Except.error.injEq] at h
      exact ⟨r.id, r.referrer, h.symm, hr r List.mem_cons_self, hf⟩
  | case4 used r rest hu e hf ih =>
      refine ih (discover_new hu hf ▸ h) fun q hq => ?_
      rcases List.mem_append.1 hq with hq | hq
      · have hmem : q.id ∈ e.toType.references := by
          rw [← map_id_referencesFrom]
          exact List.mem_map_of_mem hq
        exact (hr r List.mem_cons_self).step hf hmem
      · exact hr q (List.mem_cons_of_mem _ hq)

end Discover

theorem typeElement?_eq_some_iff {elements : List Element} {id : String} {e : Element} :
    typeElement? elements id = some e ↔ e.kind = .type ∧ e.id = id ∧
      ∃ before after, elements = before ++ e :: after ∧
        ∀ x ∈ after, x.kind = .type → x.id ≠ id := by
  rw [typeElement?, List.find?_eq_some_iff_append]
  simp only [Bool.and_eq_true, beq_iff_eq, and_assoc, Bool.not_eq_true', Bool.and_eq_false_iff,
    beq_eq_false_iff_ne]
  refine and_congr_right fun _ => and_congr_right fun _ => ?_
  constructor
  · rintro ⟨after, before, h, hafter⟩
    refine ⟨before.reverse, after.reverse, ?_, fun x hx hk => ?_⟩
    · simpa using congrArg List.reverse h
    · exact (hafter x (List.mem_reverse.1 hx)).resolve_left fun hn => hn hk
  · rintro ⟨before, after, h, hafter⟩
    refine ⟨after.reverse, before.reverse, by simp [h], fun x hx => ?_⟩
    by_cases hk : x.kind = .type
    · exact .inr (hafter x (List.mem_reverse.1 hx) hk)
    · exact .inl hk

theorem typeElement?_eq_none_iff {elements : List Element} {id : String} :
    typeElement? elements id = none ↔ ∀ e ∈ elements, e.kind = .type → e.id ≠ id := by
  simp [typeElement?]

theorem mem_ids_iff {s : Spec} {i : String} :
    i ∈ s.types.map (·.id) ↔ (s.type? i).isSome := by
  simp [Spec.type?]

theorem checkReferences_of_mem {s : Spec} (h : ∀ r ∈ s.references, r.id ∈ s.types.map (·.id)) :
    s.checkReferences = .ok () := by
  have hnone : s.references.find? (fun r => (s.type? r.id).isNone) = none := by
    refine List.find?_eq_none.2 fun r hr => ?_
    simpa [Option.isSome_iff_ne_none] using mem_ids_iff.1 (h r hr)
  simp only [Spec.checkReferences, hnone]

theorem any_named_eq_of_extends {used types : List ApiType} {i : String} (hp : used <+: types)
    (hn : (types.map (·.id)).Nodup) (hi : isUsed used i = true) (name : String) :
    (used.any fun t => t.id == i && t.name == name) =
      types.any fun t => t.id == i && t.name == name := by
  obtain ⟨more, rfl⟩ := hp
  obtain ⟨t, ht, rfl⟩ := List.mem_map.1 (isUsed_iff.1 hi)
  have hmore : (more.any fun u => u.id == t.id && u.name == name) = false := by
    refine List.any_eq_false.2 fun u hu => ?_
    rw [List.map_append] at hn
    have hne : t.id ≠ u.id :=
      (List.nodup_append.1 hn).2.2 _ (List.mem_map_of_mem ht) _ (List.mem_map_of_mem hu)
    simp [hne.symm]
  rw [List.any_append, hmore, Bool.or_false]

theorem uploads_eq_of_extends {used types : List ApiType} {e : TypeExpr} (hp : used <+: types)
    (hn : (types.map (·.id)).Nodup) (hu : ∀ i, .ref i ∈ e.leaves → isUsed used i = true) :
    uploads used e = uploads types e := by
  rw [Bool.eq_iff_iff]
  simp only [uploads, List.any_eq_true]
  refine exists_congr fun l => and_congr_right fun hl => ?_
  cases l with
  | ref i =>
      have h := any_named_eq_of_extends hp hn (hu i hl) inputFileName
      simpa only [List.any_eq_true] using Bool.eq_iff_iff.1 h
  | basic n => rfl
  | array e => rfl
  | union es => rfl

theorem toMethod_eq_of_extends {used types : List ApiType} {m : Element} (hp : used <+: types)
    (hn : (types.map (·.id)).Nodup)
    (hu : ∀ p ∈ m.paramList, ∀ i, .ref i ∈ p.type.leaves → isUsed used i = true) :
    toMethod used m = toMethod types m := by
  have h : (m.paramList.any fun p => uploads used p.type) =
      m.paramList.any fun p => uploads types p.type := by
    rw [Bool.eq_iff_iff]
    simp only [List.any_eq_true]
    exact exists_congr fun p => and_congr_right fun hpm => by
      rw [uploads_eq_of_extends hp hn (hu p hpm)]
  simp only [toMethod, h]

structure Compiled (elements : List Element) (s : Spec) : Prop where
  reachable : ∀ id, id ∈ s.types.map (·.id) ↔ Reachable elements id
  once : (s.types.map (·.id)).Nodup
  depthFirst : ∀ order,
    DepthFirst elements [] (paramRefs elements) order ↔ order = s.types.map (·.id)
  converted : ∀ t ∈ s.types, ∃ before e after, elements = before ++ e :: after ∧
    e.kind = .type ∧ e.id = t.id ∧ (∀ x ∈ after, x.kind = .type → x.id ≠ t.id) ∧ t = e.toType
  resolved : s.checkReferences = .ok ()
  lookedUp : ∀ before m after, methodElements elements = before ++ m :: after →
    ∃ used, discover elements [] (seedsOf (before ++ [m])) = .ok used ∧ used <+: s.types ∧
      (∀ p ∈ m.paramList, ∀ i, .ref i ∈ p.type.leaves → isUsed used i = true) ∧
      s.methods[before.length]? = some (toMethod used m)

theorem lookedUp_of_discover {elements before after : List Element} {m : Element}
    {types : List ApiType} (h : discover elements [] (seeds elements) = .ok types)
    (hm : methodElements elements = before ++ m :: after) :
    ∃ used, discover elements [] (seedsOf (before ++ [m])) = .ok used ∧ used <+: types ∧
      ∀ p ∈ m.paramList, ∀ i, .ref i ∈ p.type.leaves → isUsed used i = true := by
  have hs : seeds elements = seedsOf (before ++ [m]) ++ seedsOf after := by
    rw [show seeds elements = seedsOf (methodElements elements) from rfl, hm]
    simp [seedsOf]
  rw [hs, discover_append] at h
  cases hu : discover elements [] (seedsOf (before ++ [m])) with
  | error f =>
      rw [hu] at h
      cases h
  | ok used =>
      rw [hu] at h
      refine ⟨used, rfl, extends_of_discover h, fun p hp i hi => isUsed_iff.2 ?_⟩
      refine (depthFirst_of_discover hu).visited i ?_
      rw [map_id_seedsOf]
      simp only [List.flatMap_append, List.flatMap_cons, List.flatMap_nil, List.append_nil]
      exact List.mem_append_right _ (List.mem_flatMap.2 ⟨p, hp, mem_refs_iff.2 hi⟩)

theorem compiled_of_discover {elements : List Element} {types : List ApiType}
    (h : discover elements [] (seeds elements) = .ok types) :
    Compiled elements ⟨(methodElements elements).map (toMethod types), types⟩ := by
  have order : DepthFirst elements [] (paramRefs elements) (types.map (·.id)) := by
    simpa only [map_id_seeds, List.map_nil] using depthFirst_of_discover h
  have once : (types.map (·.id)).Nodup := order.nodup List.nodup_nil
  have converted := converted_of_discover h (by simp)
  refine ⟨fun id => order.mem_iff_reachable, once, fun o => ⟨fun ho => ho.unique order, ?_⟩, ?_, ?_, ?_⟩
  · exact fun ho => ho ▸ order
  · intro t ht
    obtain ⟨e, he, rfl⟩ := converted t ht
    obtain ⟨hk, hid, before, after, hb, ha⟩ := typeElement?_eq_some_iff.1 he
    exact ⟨before, e, after, hb, hk, hid, ha, rfl⟩
  · refine checkReferences_of_mem fun r hr => ?_
    rcases List.mem_append.1 hr with hr | hr
    · obtain ⟨t, ht, hr⟩ := List.mem_flatMap.1 hr
      obtain ⟨e, he, hte⟩ := converted t ht
      have hmem : r.id ∈ e.toType.references := by
        rw [← hte, ← map_id_referencesFrom]
        exact List.mem_map_of_mem hr
      exact order.mem_iff_reachable.2
        ((order.mem_iff_reachable.1 (List.mem_map_of_mem ht)).step he hmem)
    · refine order.visited r.id ?_
      have hseed : r ∈ seeds elements := by
        simpa [seeds, toMethod, List.flatMap_map] using hr
      rw [← map_id_seeds]
      exact List.mem_map_of_mem hseed
  · intro before m after hm
    obtain ⟨used, hu, hp, hl⟩ := lookedUp_of_discover h hm
    refine ⟨used, hu, hp, hl, ?_⟩
    simp [hm, toMethod_eq_of_extends hp once hl]

end Compile

open Compile in
theorem Spec.ofElements_exact (elements : List Element) :
    match Spec.ofElements elements with
    | .ok s => Compiled elements s ∧
        ∀ id, Reachable elements id → ∃ e ∈ elements, e.kind = .type ∧ e.id = id
    | .error f => ∃ id referrer, f = .unresolved id referrer ∧ Reachable elements id ∧
        ∀ e ∈ elements, e.kind = .type → e.id ≠ id := by
  cases h : discover elements [] (seeds elements) with
  | ok types =>
      have hc := compiled_of_discover h
      simp only [Spec.ofElements, h, Except.map]
      refine ⟨hc, fun id hid => ?_⟩
      obtain ⟨t, ht, rfl⟩ := List.mem_map.1 ((hc.reachable id).2 hid)
      obtain ⟨before, e, after, he, hk, hid, -⟩ := hc.converted t ht
      exact ⟨e, by simp [he], hk, hid⟩
  | error f =>
      simp only [Spec.ofElements, h, Except.map]
      obtain ⟨id, referrer, hf, hr, hn⟩ := error_of_discover h fun r hr => by
        refine reachable_of_mem_paramRefs ?_
        rw [← map_id_seeds]
        exact List.mem_map_of_mem hr
      exact ⟨id, referrer, hf, hr, typeElement?_eq_none_iff.1 hn⟩

end BotApi
