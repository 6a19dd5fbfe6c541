import BotApi.Proofs.Draft.Independence
import BotApi.Proofs.Draft.Rebuilt
/-!
When the parameters of a method can be checked: nothing keeps their record from being built but a type that cannot
be built by itself, or a name that starts with an underscore.
-/

namespace BotApi

open Draft (Site)
open Compiler (Use AtRest Fits)

namespace Catalog

theorem attributeName_startsWith {w : String} (h : w.startsWith "_" = false) :
    (attributeName w).startsWith "_" = false := by
  have hall : ∀ n ∈ takenNames, n.startsWith "_" = false → (n ++ "_").startsWith "_" = false := by decide +kernel
  unfold attributeName
  split
  next htaken => exact hall w (by simpa using htaken) h
  next => exact h

end Catalog

namespace Spec

variable {s : Spec} {good : String → Prop} {m : Method} {key : Nat}

def Checkable (s : Spec) (e : TypeExpr) : Prop :=
  ∃ d c built, (Work.expression e).run (.new s) = (.ok d, c) ∧ c.site.build d = .ok built

theorem Sound.keys_idealFields (sound : s.Sound good) {t : ApiType} (hkey : s.KeyOf good key)
    (ht : s.types[key]? = some t) {f : Draft.Field} (hf : f ∈ s.idealFields t) :
    ∀ k ∈ f.draft.keys, s.KeyOf good k := by
  obtain ⟨id, u, ps, hg, hr⟩ := hkey
  cases ht.symm.trans (typeEntry?_getElem? hr.entry)
  intro k hk
  rcases sound.leaves_idealFields hg hr hf with ⟨text, htext⟩ | hleaves
  · simp [htext, Draft.keys] at hk
  · rcases hleaves _ (Draft.mem_keys.1 hk) with ⟨b, hb⟩ | ⟨k', hk', hkey⟩
    · cases hb
    · cases hk'
      exact hkey

theorem Sound.keepsName_idealFields (sound : s.Sound good) (hkey : s.KeyOf good key) {t : ApiType}
    (ht : s.types[key]? = some t) {f : Draft.Field} (hf : f ∈ s.idealFields t) : f.draft.keepsName = false := by
  obtain ⟨id, u, ps, hg, hr⟩ := hkey
  cases ht.symm.trans (typeEntry?_getElem? hr.entry)
  rw [Draft.keepsName_eq_false]
  intro n hn
  rcases sound.leaves_idealFields hg hr hf with ⟨text, htext⟩ | hleaves
  · simp [htext, Draft.leaves] at hn
  · rcases hleaves _ hn with ⟨b, hb⟩ | ⟨k, hk, -⟩
    · cases hb
    · cases hk

theorem KeyOf.exists_type (h : s.KeyOf good key) : ∃ t, s.types[key]? = some t := by
  obtain ⟨id, t, ps, -, hr⟩ := h
  exact ⟨t, typeEntry?_getElem? hr.entry⟩

theorem paramsSite_mirrors (sound : s.Sound good) :
    Site.Mirrors (s.paramsSite m) s.blueprint False (s.KeyOf good) fun _ => True where
  record {k} hk := by
    obtain ⟨t, ht⟩ := hk.exists_type
    refine ⟨_, _, paramsSite_record? ht, blueprint_record? ht, rfl, rfl, trivial,
      fun f hf => sound.keepsName_idealFields hk ht hf, fun origin _ => ?_⟩
    rw [Site.fieldsOf, if_pos rfl]
    refine ⟨.refl _, fun fs hfs f hf => ?_⟩
    cases hfs
    exact sound.keys_idealFields hk ht hf
  tag {k} hk f := by
    obtain ⟨t, ht⟩ := hk.exists_type
    simp only [Site.tagText?, paramsSite_record? ht, blueprint_record? ht]

theorem exists_schemaOf_idealFields (builds : s.Builds good) (hkey : s.KeyOf good key) {t : ApiType}
    (ht : s.types[key]? = some t) {f : Draft.Field} (hf : f ∈ s.idealFields t) :
    ∃ schema, s.blueprint.schemaOf f.draft = .ok schema := by
  obtain ⟨rs, hbuilt⟩ := builds.records hkey
  rw [Site.recordsFrom] at hbuilt
  cases hvisit : s.blueprint.visit s.blueprint.depth none ⟨[], []⟩ key with
  | error o =>
      rw [hvisit] at hbuilt
      cases hbuilt
  | ok p =>
      rcases Site.visit_cases hvisit with ⟨-, h⟩ | ⟨r, fs, q, gs, -, hr, hfs, hfold, -⟩
      · rw [blueprint_record? ht] at h
        exact absurd h (by simp)
      · obtain rfl := Option.some.inj ((blueprint_record? ht).symm.trans hr)
        cases hfs
        obtain ⟨gs', -, hall⟩ := Site.foldlM_buildField hfold
        obtain ⟨-, -, schema, hschema, -⟩ := exists_right_of_mem hall hf
        exact ⟨schema, hschema⟩

theorem exists_schemaOf_checkable (sound : s.Sound good) (builds : s.Builds good) {e : TypeExpr}
    (he : ∀ i, e.Mentions i → good i) (h : s.Checkable e) :
    ∃ schema, s.blueprint.schemaOf (.ofExpr s.ideal e) = .ok schema := by
  obtain ⟨d, c, built, hrun, hbuild⟩ := h
  obtain ⟨d', c', hrun', hrest, -, hfits, -⟩ :=
    Compiler.run_of_gives (Compiler.expression_rests sound .of_new he) (not_not_intro builds)
  cases hrun.symm.trans hrun'
  have hnames : d.keepsName = false := by
    cases hkeeps : d.keepsName with
    | false => rfl
    | true =>
        obtain ⟨o, ho⟩ : ∃ o, c.site.build d = .error o := Site.build_error_of_keepsName hkeeps
        cases ho.symm.trans hbuild
  rw [hrest.inv.build_eq sound hfits hnames] at hbuild
  obtain ⟨-, -, -, hschema⟩ := Site.build_eq_ok hbuild
  exact ⟨_, hschema⟩

theorem paramsSite_buildable (sound : s.Sound good) (builds : s.Builds good) (hm : s.Takes good m)
    (hchecks : ∀ p ∈ m.params, s.Checkable p.type) :
    (s.paramsSite m).Buildable fun k => s.KeyOf good k ∨ k = s.types.length := by
  have hsame {d : Draft} (hd : ∀ k ∈ d.keys, s.KeyOf good k) :
      (s.paramsSite m).schemaOf d = s.blueprint.schemaOf d := (paramsSite_mirrors sound).schemaOf hd
  intro k hk r hr
  rcases hk with hk | rfl
  · obtain ⟨t, ht⟩ := hk.exists_type
    obtain rfl := Option.some.inj ((paramsSite_record? ht).symm.trans hr)
    refine ⟨rfl, fun f hf => ?_⟩
    have hkeys := sound.keys_idealFields hk ht hf
    rw [hsame hkeys]
    exact ⟨exists_schemaOf_idealFields builds hk ht hf, fun k' hk' => .inl (hkeys k' hk')⟩
  · obtain rfl := Option.some.inj (paramsSite_record?_length.symm.trans hr)
    refine ⟨rfl, fun f hf => ?_⟩
    obtain ⟨⟨p, hp, rfl⟩, hleaves⟩ := hm.leaves sound hf
    have hkeys : ∀ k ∈ (s.idealParam p).draft.keys, s.KeyOf good k := by
      intro k hk
      rcases hleaves _ (Draft.mem_keys.1 hk) with ⟨b, hb⟩ | ⟨k', hk', hkey⟩
      · cases hb
      · cases hk'
        exact hkey
    rw [hsame hkeys]
    exact ⟨exists_schemaOf_checkable sound builds (hm.refs p hp) (hchecks p hp), fun k' hk' => .inl (hkeys k' hk')⟩

theorem paramsOutcome_isOk (sound : s.Sound good) (builds : s.Builds good) (hm : s.Takes good m)
    (hplain : ∀ p ∈ m.params, p.name.startsWith "_" = false) (hchecks : ∀ p ∈ m.params, s.Checkable p.type) :
    (s.paramsOutcome m).isOk = true := by
  have hnames : (m.params.map s.idealParam).any (fun f => f.name.startsWith "_") = false := by
    rw [List.any_eq_false]
    intro f hf
    obtain ⟨p, hp, rfl⟩ := List.mem_map.1 hf
    exact ne_true_of_eq_false (Catalog.attributeName_startsWith (hplain p hp))
  obtain ⟨p, hvisit⟩ := Site.exists_visit (paramsSite_buildable sound builds hm hchecks) (s.paramsSite m).depth none
    ⟨[], []⟩ (.inr rfl)
  rw [paramsOutcome, hnames, Site.recordsFrom, hvisit]
  rfl

theorem paramsSite_build_isOk (sound : s.Sound good) (builds : s.Builds good) (hm : s.Takes good m)
    (hchecks : ∀ p ∈ m.params, s.Checkable p.type) :
    ((s.paramsSite m).build (.record s.types.length)).isOk = true := by
  obtain ⟨rs, hbuild⟩ := Site.exists_build (paramsSite_buildable sound builds hm hchecks)
    (d := .record s.types.length) (fun k hk => .inr (by simpa [Draft.keys] using hk)) rfl
  rw [hbuild]
  rfl

end Spec

namespace Compiler

variable {s : Spec} {m : Method}

theorem compiles_after (orderly : s.Orderly) {us : List Use} (hus : ∀ u ∈ us, u.Within s) (hm : m ∈ s.methods)
    (hplain : ∀ p ∈ m.params, p.name.startsWith "_" = false) (hchecks : ∀ p ∈ m.params, s.Checkable p.type) :
    ((Compiler.new s).after us).compiles m = true := by
  have sound := Spec.sound_good orderly.toNamed
  have builds := Spec.builds_good orderly.toNamed
  have htakes := orderly.takes hm
  rw [compiles_eq sound builds orderly.methods hm htakes (atRest_after orderly hus .of_new),
    Spec.paramsOutcome_isOk sound builds htakes hplain hchecks,
    Spec.paramsSite_build_isOk sound builds htakes hchecks]
  rfl

theorem exists_record_after (orderly : s.Orderly) {us : List Use} (hus : ∀ u ∈ us, u.Within s) {id : String}
    {t : ApiType} {key : Nat} {ps : List Param} (hr : s.RecordOf id t key ps) :
    ∃ d c r, (Work.draft id).run ((Compiler.new s).after us) = (.ok d, c) ∧ c.site.record? key = some r := by
  have sound := Spec.sound_good orderly.toNamed
  have builds := Spec.builds_good orderly.toNamed
  have hgood : s.Good id := orderly.good (by simp [hr.entry])
  have hrest := atRest_after orderly hus .of_new
  obtain ⟨d, c, hrun, inv, -, hstored⟩ :=
    run_of_gives (draft_gives hrest.inv sound hgood (.inr hrest.clear.mine)) (not_not_intro builds)
  obtain ⟨r, hrecord⟩ := Option.isSome_iff_exists.1 (inv.held hgood hr (stored_of_draft? hstored))
  exact ⟨d, c, r, hrun, hrecord⟩

end Compiler

end BotApi
