import BotApi.Proofs.Draft.Reach
import BotApi.Proofs.Draft.Work
import BotApi.Proofs.Schema.Congruent
/-!
Where no record is open, a record is built in one way only: what can be built as a part of something can be built
by itself, and checks every value alike.
-/

namespace BotApi.Draft

open Schema (keysChoices Agree)

namespace Site

variable {site : Site} {rs : Schema.Records}

theorem keys_zip {texts : List String} {ss : List Schema} {k : Nat}
    (h : k ∈ keysChoices (texts.zip ss)) : k ∈ Schema.keysList ss := by
  induction ss generalizing texts with
  | nil => simp [keysChoices] at h
  | cons s ss ih =>
      cases texts with
      | nil => simp [keysChoices] at h
      | cons t texts =>
          rw [List.zip_cons_cons, keysChoices, List.mem_append] at h
          exact List.mem_append.2 (h.imp_right ih)

theorem keys_choiceOf {field : Option String} {ds : List Draft} {ss : List Schema} {s : Schema} {k : Nat}
    (h : site.choiceOf field ds ss = .ok s) (hk : k ∈ s.keys) : k ∈ Schema.keysList ss := by
  rcases choiceOf_eq_ok h with ⟨-, rfl⟩ | ⟨f, texts, -, -, -, rfl⟩
  · exact hk
  · exact keys_zip hk

mutual
theorem keys_schemaOf {k : Nat} : ∀ {d : Draft} {s : Schema}, site.schemaOf d = .ok s → k ∈ s.keys →
    k ∈ d.keys
  | .basic b, s, h, hk => by
      cases h
      cases b <;> simp [BasicType.schema, Schema.int64, Schema.keys] at hk
  | .literal t, s, h, hk => by
      cases h
      simp [Schema.keys] at hk
  | .named n, s, h, hk => by cases h
  | .record k', s, h, hk => by
      cases h
      exact hk
  | .array d, s, h, hk => by
      obtain ⟨_, hd, rfl⟩ := ok_of_map h
      exact keys_schemaOf (d := d) hd hk
  | .union ds, s, h, hk => by
      obtain ⟨_, hds, rfl⟩ := ok_of_map h
      exact keys_schemasOf hds hk
  | .choice _ f ds, s, h, hk => by
      obtain ⟨_, hds, h⟩ := ok_of_bind h
      exact keys_schemasOf hds (keys_choiceOf h hk)
theorem keys_schemasOf {k : Nat} : ∀ {ds : List Draft} {ss : List Schema}, site.schemasOf ds = .ok ss →
    k ∈ Schema.keysList ss → k ∈ Draft.keysList ds
  | [], ss, h, hk => by
      cases h
      simp [Schema.keysList] at hk
  | d :: ds, ss, h, hk => by
      obtain ⟨s, hd, h⟩ := ok_of_bind h
      obtain ⟨ss, hds, rfl⟩ := ok_of_map h
      rw [Schema.keysList, List.mem_append] at hk
      rw [Draft.keysList, List.mem_append]
      exact hk.imp (keys_schemaOf hd) (keys_schemasOf hds)
end

structure BuildsTo (site : Site) (r : Record) (g : Schema.Record) : Prop extends site.Made r.fields g where
  name : g.name = r.name

theorem BuildsTo.unique {r : Record} {g g' : Schema.Record} (h : site.BuildsTo r g) (h' : site.BuildsTo r g') :
    g = g' := by
  obtain ⟨name, fields, closed, check⟩ := g
  obtain ⟨name', fields', closed', check'⟩ := g'
  obtain rfl : closed = true := h.closed
  obtain rfl : closed' = true := h'.closed
  obtain rfl : check = .none := h.check
  obtain rfl : check' = .none := h'.check
  obtain rfl : name = name' := h.name.trans h'.name.symm
  have hfields : fields = fields' := by
    refine Relator.RightUnique.forall₂ ?_ h.fields h'.fields
    rintro f g g' ⟨s, hs, rfl⟩ ⟨s', hs', rfl⟩
    cases hs.symm.trans hs'
    rfl
  rw [hfields]

theorem visit_builds (complete : ∀ {k r}, site.record? k = some r → r.complete = true) (n : Nat)
    {origin : Option Origin} {p p' : Progress} {key : Nat}
    (hp : ∀ e ∈ p.built, ∃ r, site.record? e.1 = some r ∧ site.BuildsTo r e.2)
    (h : site.visit n origin p key = .ok p') :
    ∀ e ∈ p'.built, ∃ r, site.record? e.1 = some r ∧ site.BuildsTo r e.2 := by
  induction n generalizing origin p p' key with
  | zero =>
      cases h
      exact hp
  | succ n ih =>
      rcases visit_cases h with ⟨rfl, -⟩ | ⟨r, fs, q, gs, -, hr, hfs, hfold, rfl⟩
      · exact hp
      · rw [fieldsOf, if_pos (complete hr)] at hfs
        cases hfs
        have hq : ∀ e ∈ q.built, ∃ r, site.record? e.1 = some r ∧ site.BuildsTo r e.2 :=
          foldlM_keeps (P := fun acc : Progress × List Schema.Field =>
            ∀ e ∈ acc.1.built, ∃ r, site.record? e.1 = some r ∧ site.BuildsTo r e.2)
            (fun _ f _ _ hacc hstep => foldlM_keeps (P := fun q : Progress =>
              ∀ e ∈ q.built, ∃ r, site.record? e.1 = some r ∧ site.BuildsTo r e.2)
              (fun _ _ _ _ hq hv => ih hq hv) hacc (buildField_eq_ok hstep).1) hp hfold
        intro e he
        rcases List.mem_append.1 he with he | he
        · exact hq e he
        · obtain rfl : e = (key, ⟨r.name, gs, true, .none⟩) := by simpa using he
          exact ⟨r, hr, made_of_foldlM hfold r.name, rfl⟩

theorem build_builds (complete : ∀ {k r}, site.record? k = some r → r.complete = true) {d : Draft}
    {schema : Schema} (h : site.build d = .ok (rs, schema)) {k : Nat} {g : Schema.Record}
    (hg : rs.get? k = some g) : ∃ r, site.record? k = some r ∧ site.BuildsTo r g := by
  obtain ⟨q, hfold, rfl, -⟩ := build_eq_ok h
  have hall : ∀ e ∈ q.built, ∃ r, site.record? e.1 = some r ∧ site.BuildsTo r e.2 :=
    foldlM_keeps (P := fun q : Progress => ∀ e ∈ q.built, ∃ r, site.record? e.1 = some r ∧ site.BuildsTo r e.2)
      (fun _ _ _ _ hq hv => visit_builds complete _ hq hv) (by simp) hfold
  exact hall _ (mem_of_get? hg)

def Buildable (site : Site) (K : Nat → Prop) : Prop :=
  ∀ k, K k → ∀ r, site.record? k = some r → r.complete = true ∧
    ∀ f ∈ r.fields, (∃ s, site.schemaOf f.draft = .ok s) ∧ ∀ k' ∈ f.draft.keys, K k'

theorem exists_foldlM {α β : Type} {f : α → β → Except Obstacle α} {xs : List β}
    (h : ∀ a, ∀ x ∈ xs, ∃ b, f a x = .ok b) (a : α) : ∃ b, xs.foldlM f a = .ok b := by
  induction xs generalizing a with
  | nil => exact ⟨a, rfl⟩
  | cons x xs ih =>
      obtain ⟨b, hb⟩ := h a x (by simp)
      rw [List.foldlM_cons, hb]
      exact ih (fun a y hy => h a y (by simp [hy])) b

theorem exists_visit {K : Nat → Prop} (hK : site.Buildable K) (n : Nat) (origin : Option Origin) (p : Progress)
    {key : Nat} (hkey : K key) : ∃ p', site.visit n origin p key = .ok p' := by
  induction n generalizing origin p key with
  | zero => exact ⟨p, rfl⟩
  | succ n ih =>
      unfold visit
      split
      · exact ⟨p, rfl⟩
      · split
        · exact ⟨p, rfl⟩
        · rename_i r hr
          obtain ⟨hcomplete, hfields⟩ := hK key hkey r hr
          rw [fieldsOf, if_pos hcomplete]
          have hfield : ∀ acc, ∀ f ∈ r.fields, ∃ acc', site.buildField (site.scopeOf origin r key)
              (site.visit n (some (origin.getD ⟨r.name, key⟩))) acc f = .ok acc' := by
            intro acc f hf
            obtain ⟨⟨s, hs⟩, hkeys⟩ := hfields f hf
            obtain ⟨q, hq⟩ := exists_foldlM (fun q k hk => ih _ q (hkeys k hk)) acc.1
            refine ⟨(q, acc.2 ++ [fieldSchema f s]), ?_⟩
            rw [buildField, hq, Except.bind, schemaWithin_eq_ok.2 hs]
            rfl
          obtain ⟨acc, hacc⟩ := exists_foldlM hfield (⟨key :: p.visited, p.built⟩, [])
          simp only [Except.bind, hacc, Except.map]
          exact ⟨_, rfl⟩

theorem exists_build {K : Nat → Prop} (hK : site.Buildable K) {d : Draft} (hd : ∀ k ∈ d.keys, K k) {schema : Schema}
    (hs : site.schemaOf d = .ok schema) : ∃ rs, site.build d = .ok (rs, schema) := by
  obtain ⟨q, hq⟩ := exists_foldlM (fun p k hk => exists_visit hK site.depth none p (hd k hk)) ⟨[], []⟩
  refine ⟨q.built, ?_⟩
  rw [build, hq, hs]
  rfl

section

variable (complete : ∀ {k r}, site.record? k = some r → r.complete = true) {d d' : Draft}
  {schema schema' : Schema} {rs' : Schema.Records}

include complete

theorem buildable_of_build (h : site.build d = .ok (rs, schema)) :
    site.Buildable fun k => site.record? k ≠ none → ∃ g, rs.get? k = some g := by
  have hbuilt := build_complete complete h
  intro k hk r hr
  obtain ⟨g, hg⟩ := hk (by simp [hr])
  obtain ⟨r', hr', hto⟩ := build_builds complete h hg
  cases hr.symm.trans hr'
  refine ⟨complete hr, fun f hf => ⟨?_, fun k' hk' hknown => hbuilt.leads hg hr f hf k' hk' hknown⟩⟩
  obtain ⟨-, -, s, hs, -⟩ := exists_right_of_mem hto.fields hf
  exact ⟨s, hs⟩

theorem agree_of_build (h : site.build d = .ok (rs, schema)) (h' : site.build d' = .ok (rs', schema')) :
    Agree rs rs' fun k => site.record? k ≠ none → (∃ g, rs.get? k = some g) ∧ ∃ g, rs'.get? k = some g where
  get {k} hk := by
    cases hr : site.record? k with
    | none =>
        have hnone {rs : Schema.Records} {d : Draft} {schema : Schema} (h : site.build d = .ok (rs, schema)) :
            rs.get? k = none := by
          cases hg : rs.get? k with
          | none => rfl
          | some g =>
              obtain ⟨r, hr', -⟩ := build_builds complete h hg
              cases hr.symm.trans hr'
        rw [hnone h, hnone h']
    | some r =>
        obtain ⟨⟨g, hg⟩, g', hg'⟩ := hk (by simp [hr])
        obtain ⟨r₁, hr₁, hto⟩ := build_builds complete h hg
        obtain ⟨r₂, hr₂, hto'⟩ := build_builds complete h' hg'
        cases hr₁.symm.trans hr₂
        rw [hg, hg', hto.unique hto']
  leads {k g} hk hg f hf k' hk' hknown := by
    obtain ⟨r, hr, hto⟩ := build_builds complete h hg
    obtain ⟨-, g', hg'⟩ := hk (by simp [hr])
    obtain ⟨f', hf', s, hs, rfl⟩ := exists_left_of_mem hto.fields hf
    have hkey : k' ∈ f'.draft.keys := by
      refine keys_schemaOf hs ?_
      unfold fieldSchema at hk'
      dsimp only at hk'
      split at hk' <;> exact hk'
    exact ⟨(build_complete complete h).leads hg hr f' hf' k' hkey hknown,
      (build_complete complete h').leads hg' hr f' hf' k' hkey hknown⟩

theorem build_known (h : site.build d = .ok (rs, schema))
    (hkeys : ∀ k ∈ d'.keys, site.record? k ≠ none → ∃ g, rs.get? k = some g) (hs : site.schemaOf d' = .ok schema') :
    ∃ rs', site.build d' = .ok (rs', schema') ∧ ∀ source {n v}, v.depth ≤ n →
      Schema.checkDepth rs' source v.depth schema' v = Schema.checkDepth rs source n schema' v := by
  obtain ⟨rs', h'⟩ := exists_build (buildable_of_build complete h) hkeys hs
  have hbuilt' := build_complete complete h'
  refine ⟨rs', h', fun source n v hn => ?_⟩
  refine ((agree_of_build complete h h').checkDepth hn (Nat.le_refl _) fun k hk hknown => ?_).symm
  have hk' := keys_schemaOf hs hk
  exact ⟨hkeys k hk' hknown, hbuilt'.entry k hk' hknown⟩

theorem build_part (h : site.build d = .ok (rs, schema)) (hkeys : ∀ k ∈ d'.keys, k ∈ d.keys)
    (hs : site.schemaOf d' = .ok schema') : ∃ rs', site.build d' = .ok (rs', schema') ∧ ∀ source {n v}, v.depth ≤ n →
      Schema.checkDepth rs' source v.depth schema' v = Schema.checkDepth rs source n schema' v :=
  build_known complete h (fun k hk hknown => (build_complete complete h).entry k (hkeys k hk) hknown) hs

end

end Site

end BotApi.Draft
