import BotApi.Proofs.Draft.Fits
/-!
Drafting a record. Its fields come to stand for what they should, and it is complete only if they do so
without any name, and can be built.
-/

namespace BotApi.Compiler

open Draft (OrUndefined Scope Site Origin leaves named record literal)
open Work (Gives)

variable {s : Spec} {good : String → Prop} {path : List String} {c c' : Compiler}

def Open (c : Compiler) (key : Nat) : Prop :=
  ∃ r, c.site.record? key = some r ∧ r.complete = false

-- A name is left only as long as its supertype is deferred, unless this has supertypes in it.
def Covered (s : Spec) (good : String → Prop) (c : Compiler) : Prop :=
  ∀ {id d n}, good id → c.draft? id = some d → named n ∈ d.leaves → id ∈ c.deferred ∨ s.Nests id

structure Step (s : Spec) (good : String → Prop) (c c' : Compiler) : Prop where
  stored : ∀ {id}, c.Stored id → c'.Stored id
  holds : ∀ {key}, c.Holds key → c'.Holds key
  waiting : ∀ {key}, key ∈ c.pending → key ∈ c'.pending
  pending : ∀ {key}, key ∈ c'.pending → key ∈ c.pending ∨ s.KeyOf good key
  deferred : ∀ {id}, id ∈ c'.deferred → id ∈ c.deferred ∨ good id
  opens : ∀ {key}, c'.Open key → c.Open key ∨ key ∈ c'.pending
  covered : Covered s good c → Covered s good c'
  params : c'.params = c.params

namespace Step

theorem refl (c : Compiler) : Step s good c c :=
  ⟨id, id, id, .inl, .inl, .inl, fun h => h, rfl⟩

theorem trans {c'' : Compiler} (h : Step s good c c') (h' : Step s good c' c'') :
    Step s good c c'' where
  stored hid := h'.stored (h.stored hid)
  holds hk := h'.holds (h.holds hk)
  waiting hk := h'.waiting (h.waiting hk)
  pending hk := (h'.pending hk).elim h.pending .inr
  deferred hid := (h'.deferred hid).elim h.deferred .inr
  opens hk := by
    rcases h'.opens hk with hk | hk
    · exact (h.opens hk).imp_right h'.waiting
    · exact .inr hk
  covered hc := h'.covered (h.covered hc)
  params := h'.params.trans h.params

theorem grows (h : Step s good c c') : Grows good path c path c' := .of_stored h.stored h.holds

theorem store {id : String} {t : ApiType} {key : Nat} {d : Draft}
    (he : s.typeEntry? id = some (t, key))
    (h : ∀ {n}, named n ∈ d.leaves → id ∈ c.deferred ∨ s.Nests id) :
    Step s good c (c.store t d) where
  stored h := Inv.stored_store.2 (.inr h)
  holds h := h
  waiting h := h
  pending := .inl
  deferred := .inl
  opens := .inl
  covered hc {i e n} hg hi hn := by
    rcases c.draft?_store_cases (Spec.typeEntry?_id he) hi with ⟨rfl, rfl⟩ | hi
    · exact h hn
    · exact hc hg hi hn
  params := rfl

theorem defer {id : String} (hg : good id) : Step s good c (c.defer id) := by
  rw [defer_eq]
  refine ⟨fun h => h, fun h => h, fun h => h, .inl, fun {i} hi => ?_, .inl, ?_, rfl⟩
  · rcases c.mem_deferred_defer.1 hi with hi | rfl
    · exact .inl hi
    · exact .inr hg
  · exact fun hc i d n hg hi hn => (hc hg hi hn).imp_left fun h => c.mem_deferred_defer.2 (.inl h)

end Step

theorem any_name {fs ideals : List Draft.Field} (p : String → Bool)
    (hfs : List.Forall₂ (FitsField s good path c) fs ideals) :
    (fs.any fun f => p f.name) = ideals.any fun f => p f.name := by
  induction hfs with
  | nil => rfl
  | cons hf _ ih => rw [List.any_cons, List.any_cons, hf.name, ih]

theorem forall₂_putField {fs ideals : List Draft.Field} {f ideal : Draft.Field}
    (hfs : List.Forall₂ (FitsField s good path c) fs ideals) (hf : FitsField s good path c f ideal) :
    List.Forall₂ (FitsField s good path c) (Draft.putField fs f) (Draft.putField ideals ideal) := by
  unfold Draft.putField
  rw [hf.name, any_name (· == ideal.name) hfs]
  split
  · rw [List.forall₂_map_left_iff, List.forall₂_map_right_iff]
    refine hfs.imp fun g g' hg => ?_
    rw [hg.name]
    split
    · exact hf
    · exact hg
  · exact List.rel_append hfs (.cons hf .nil)

theorem forall₂_foldl_putField {fs ideals gs ideals' : List Draft.Field}
    (hfs : List.Forall₂ (FitsField s good path c) fs ideals)
    (hgs : List.Forall₂ (FitsField s good path c) gs ideals') :
    List.Forall₂ (FitsField s good path c) (fs.foldl Draft.putField gs)
      (ideals.foldl Draft.putField ideals') := by
  induction hfs generalizing gs ideals' with
  | nil => exact hgs
  | cons hf _ ih => exact ih (forall₂_putField hgs hf)

section

variable {id : String} {t : ApiType} {key : Nat} {ps : List Param} {F : Prop}

theorem FitsField.of_ideal (sound : s.Sound good) (hg : good id) (hr : s.RecordOf id t key ps)
    {f : Draft.Field} (hf : f ∈ s.idealFields t) (hkeys : ∀ k ∈ f.draft.keys, c.Holds k) :
    FitsField s good path c f f := by
  refine ⟨rfl, rfl, rfl, ?_⟩
  rcases sound.leaves_idealFields hg hr hf with ⟨text, h⟩ | hleaves
  · exact .inl ⟨text, h, h⟩
  · refine .inr (.of_plain ?_ fun l hl => ?_)
    · obtain ⟨p, hp, rfl⟩ := Spec.Sound.mem_idealFields hr hf
      cases ht : s.tellsApart id p.name with
      | true => simp [Spec.idealField, Work.draftField, ht, Draft.subst]
      | false =>
          simp only [Spec.idealField, Work.draftField, ht, Bool.false_eq_true, ↓reduceIte]
          exact sound.subst_ofExpr fun i hi =>
            sound.closed hg (.field hr.entry hr.name hr.shape hp ht hi)
    · rcases hleaves l hl with hb | ⟨k, rfl, hk⟩
      · exact .inl hb
      · exact .inr ⟨k, rfl, hk, hkeys k (Draft.mem_keys.2 hl)⟩

theorem holds_putRecord_iff {r : Draft.Record} {k : Nat} :
    (c.putRecord key r).Holds k ↔ key = k ∨ c.Holds k := by
  unfold Holds
  rw [record?_putRecord]
  by_cases h : key = k <;> simp [h]

structure Settled (s : Spec) (good : String → Prop) (path : List String) (c : Compiler)
    (scope : Scope) (f ideal : Draft.Field) : Prop where
  fits : FitsField s good path c f ideal
  resolved : ∀ g, Site.resolveField scope f = .ok g → f = ideal

theorem settle_gives {K : Nat → Prop} {undecided : Prop} {scope : Scope} {f ideal : Draft.Field}
    (hf : FitsField s good path c' f ideal)
    (hresolve : OrUndefined undecided (Site.resolveField scope f) (.ok ideal) ∧
      ∀ g, Site.resolveField scope f = .ok g → ∀ k ∈ ideal.draft.keys, K k)
    (hideal : (∀ k ∈ ideal.draft.keys, K k) → FitsField s good path c' ideal ideal) :
    Gives F (Work.settle scope f) c fun g c₁ => c₁ = c ∧ Settled s good path c' scope g ideal := by
  unfold Work.settle
  rcases hresolve.1 with h | ⟨-, n, h⟩
  · rw [h]
    exact .pure ⟨rfl, hideal (hresolve.2 ideal h), fun _ _ => rfl⟩
  · rw [h]
    refine .pure ⟨rfl, hf, fun g hg => ?_⟩
    rw [h] at hg
    cases hg

theorem settle_all {K : Nat → Prop} {undecided : Prop} {scope : Scope}
    {fs ideals : List Draft.Field} (hfs : List.Forall₂ (FitsField s good path c') fs ideals)
    (hresolve : ∀ f ideal, FitsField s good path c' f ideal →
      OrUndefined undecided (Site.resolveField scope f) (.ok ideal) ∧
        ∀ g, Site.resolveField scope f = .ok g → ∀ k ∈ ideal.draft.keys, K k)
    (hideal : ∀ f ∈ ideals, (∀ k ∈ f.draft.keys, K k) → FitsField s good path c' f f) :
    Gives F (fs.mapM (Work.settle scope)) c fun gs c₁ =>
      c₁ = c ∧ List.Forall₂ (Settled s good path c' scope) gs ideals := by
  induction hfs with
  | nil =>
      rw [List.mapM_nil]
      exact .pure ⟨rfl, .nil⟩
  | @cons f ideal fs ideals hf hfs ih =>
      rw [List.mapM_cons]
      refine .bind ((settle_gives hf (hresolve f ideal hf) (hideal ideal (by simp))).mono
        fun g c₁ hg => ?_)
      obtain ⟨rfl, hg⟩ := hg
      refine .bind ((ih fun f hf => hideal f (by simp [hf])).mono fun gs c₁ hgs => ?_)
      obtain ⟨rfl, hgs⟩ := hgs
      exact .pure ⟨rfl, .cons hg hgs⟩

theorem eq_of_resolved {scope : Scope} {fs ideals gs : List Draft.Field}
    (hfs : List.Forall₂ (Settled s good path c scope) fs ideals)
    (hgs : fs.mapM (Site.resolveField scope) = .ok gs) : fs = ideals := by
  induction hfs generalizing gs with
  | nil => rfl
  | @cons f ideal fs ideals hf _ ih =>
      rw [List.mapM_cons] at hgs
      obtain ⟨g, hg, hgs⟩ := ok_of_bind hgs
      obtain ⟨gs', hrest, -⟩ := ok_of_bind hgs
      rw [hf.resolved g hg, ih hrest]

theorem fieldsOf_of_recordsFrom {site : Site} {r : Draft.Record} {rs : Schema.Records}
    (hr : site.record? key = some r) (h : site.recordsFrom key = .ok rs) :
    ∃ fs, site.fieldsOf none r key = .ok fs := by
  obtain ⟨p, h, -⟩ := ok_of_map h
  unfold Site.depth Site.visit at h
  simp only [hr, List.contains_nil, Bool.false_eq_true, if_false] at h
  obtain ⟨fs, hfs, -⟩ := ok_of_bind h
  exact ⟨fs, hfs⟩

theorem Inv.putRecord_record (inv : Inv s good path c) (hr : s.RecordOf id t key ps)
    {r : Draft.Record} (h : FitsRecord s good path (c.putRecord key r) t key r) :
    Inv s good path (c.putRecord key r) := by
  refine inv.putRecord fun {i u qs} hi hu => ?_
  obtain rfl : i = id := Spec.id_eq_of_key hu.entry hr.entry
  have hut := hu.entry.symm.trans hr.entry
  cases hut
  exact h

theorem grows_putRecord_putRecord {r r' : Draft.Record} :
    Grows good path (c.putRecord key r) path (c.putRecord key r') :=
  .of_stored (fun h => h) fun hk => holds_putRecord_iff.2 (holds_putRecord_iff.1 hk)

theorem FitsRecord.completed {r : Draft.Record} (h : FitsRecord s good path c t key r)
    (hgrows : Grows good path c path c') (hfields : r.fields = s.idealFields t)
    (hbuilds : ∃ rs, s.blueprint.recordsFrom key = .ok rs) :
    FitsRecord s good path c' t key { r with complete := true } where
  name := h.name
  fields := h.fields.imp fun _ _ hf => hf.mono hgrows
  complete _ := ⟨hfields, hbuilds⟩

theorem complete_gives (inv : Inv s good path c) (sound : s.Sound good) (hg : good id)
    (hr : s.RecordOf id t key ps) {r : Draft.Record} (hopen : r.complete = false)
    (hname : r.name = t.name)
    (hfields : List.Forall₂ (Settled s good path (c.putRecord key r)
      (c.site.scopeOf none r key)) r.fields (s.idealFields t)) :
    Gives (¬ s.Builds good)
      (match (c.putRecord key r).site.recordsFrom key with
        | .ok _ => Pure.pure { r with complete := true }
        | .error (.undefined _) => Pure.pure r
        | .error o => throw o.error : Work Draft.Record) c fun r' c' =>
      c' = c ∧ FitsRecord s good path (c.putRecord key r') t key r' := by
  have hfit : FitsRecord s good path (c.putRecord key r) t key r :=
    ⟨hname, hfields.imp fun _ _ h => h.fits, fun h => by simp [hopen] at h⟩
  have hinv := inv.putRecord_record hr hfit
  have hkey : s.KeyOf good key := ⟨id, t, ps, hg, hr⟩
  have hrecord : (c.putRecord key r).site.record? key = some r := by simp [record?_putRecord]
  have hbuild := (hinv.mirrors sound).recordsFrom (k := key)
    ⟨hkey, holds_putRecord_iff.2 (.inl rfl)⟩
  cases hrs : (c.putRecord key r).site.recordsFrom key with
  | ok rs =>
      refine .pure ⟨rfl, hfit.completed grows_putRecord_putRecord ?_ ⟨rs, ?_⟩⟩
      · obtain ⟨fs, hfs⟩ := fieldsOf_of_recordsFrom hrecord hrs
        rw [Site.fieldsOf, hopen, if_neg (by decide)] at hfs
        exact eq_of_resolved hfields hfs
      · rcases hbuild with h | ⟨-, n, h⟩
        · rw [← h, hrs]
        · rw [h] at hrs
          cases hrs
  | error o =>
      have hfails (hdefined : ∀ fault, o ≠ .undefined fault) : ¬ s.Builds good := by
        intro builds
        obtain ⟨rs, hok⟩ := builds.records hkey
        rcases hbuild with h | ⟨-, n, h⟩
        · rw [hrs, hok] at h
          cases h
        · rw [h] at hrs
          cases hrs
          exact hdefined n rfl
      cases o with
      | undefined n => exact .pure ⟨rfl, hfit⟩
      | misuse how => exact .throw (hfails (by simp))
      | endless => exact .throw (hfails (by simp))

theorem record_gives (inv : Inv s good path c) (sound : s.Sound good) (hg : good id)
    (hr : s.RecordOf id t key ps) {fields : List Draft.Field}
    (hfs : List.Forall₂ (FitsField s good path c) fields (ps.map (s.idealField id))) :
    Gives (¬ s.Builds good) (Work.record key t.name fields) c fun r c' =>
      c' = c ∧ s.Formed id ∧ FitsRecord s good path (c.putRecord key r) t key r := by
  have hkey : s.KeyOf good key := ⟨id, t, ps, hg, hr⟩
  unfold Work.record
  split
  · rename_i hany
    refine .throw fun builds => ?_
    obtain ⟨f, hf, hname⟩ := List.any_eq_true.1 hany
    obtain ⟨f', hf', hfit⟩ := exists_right_of_mem hfs hf
    obtain ⟨p, hp, rfl⟩ := List.mem_map.1 hf'
    have hnot := (builds.formed hg).attributes hr p hp
    rw [hfit.name] at hname
    simp [Spec.idealField, Work.draftField, hnot] at hname
  · rename_i hany
    have hformed : s.Formed id := by
      refine .of_record hr fun p hp => ?_
      by_contra hname
      obtain ⟨f, hf, hfit⟩ := exists_left_of_mem hfs (List.mem_map_of_mem hp)
      refine hany (List.any_eq_true.2 ⟨f, hf, ?_⟩)
      rw [hfit.name]
      simpa [Spec.idealField, Work.draftField] using hname
    refine .bind (.get ?_)
    have hfields : (ps.map (s.idealField id)).foldl Draft.putField [] = s.idealFields t := by
      rw [Spec.idealFields, Spec.typeEntry?_id hr.entry, ApiType.fields, hr.shape]
    have hputs := forall₂_foldl_putField hfs .nil
    rw [hfields] at hputs
    -- The record exists while its fields are settled, since a name in them may mean it.
    let r : Draft.Record := ⟨t.name, fields.foldl Draft.putField [], false⟩
    have hfit : FitsRecord s good path (c.putRecord key r) t key r :=
      ⟨rfl, hputs.imp fun _ _ hf => hf.mono Inv.grows_putRecord, fun h => by cases h⟩
    have hinv := inv.putRecord_record hr hfit
    have hfront : ∀ o ∈ [Origin.mk t.name key], Fronts s good (Stands s good (c.putRecord key r)) o := by
      intro o ho
      obtain rfl := List.mem_singleton.1 ho
      exact StandsAs.fronts sound
        ⟨holds_putRecord_iff.2 (.inl rfl), id, t, ps, hg, hr, rfl⟩
    have hsettle := settle_all (F := ¬ s.Builds good) (c := c) hfit.fields
      (fun f ideal hf => hinv.resolveField sound (fun hk hholds => ⟨hk, hholds⟩) hfront hf)
      fun f hf hkeys => .of_ideal sound hg hr hf fun k hk => (hkeys k hk).2
    refine .bind (hsettle.mono fun gs c₁ hgs => ?_)
    obtain ⟨rfl, hgs⟩ := hgs
    refine (complete_gives inv sound hg hr rfl rfl
      (hgs.imp fun _ _ h => ⟨h.fits.mono grows_putRecord_putRecord, h.resolved⟩)).mono
      fun r' c' h => ?_
    exact ⟨h.1, hformed, h.2⟩

end

end BotApi.Compiler
