import BotApi.Proofs.Draft.Invariant
import BotApi.Proofs.Draft.Work
/-!
What a compiler knows suffices to resolve the fields of its records, and to build them: where nothing
is being drafted, just as if all types had been drafted already.
-/

namespace BotApi.Compiler

open Draft (OrUndefined Scope Site Origin Obstacle subst leaves named record literal)

variable {s : Spec} {good : String → Prop} {path : List String} {c : Compiler}
  {K : Nat → Prop} {O : Origin → Prop}

structure Fronts (s : Spec) (good : String → Prop) (K : Nat → Prop) (o : Origin) : Prop where
  ideal : ∀ {id}, s.Bears good id o.name → s.ideal id = record o.key
  known : K o.key

def scopeWith (c : Compiler) (os : List Origin) : Scope :=
  (os.map fun o => (o.name, record o.key)) ++ c.names

theorem scopeOf_eq (origin : Option Origin) (r : Draft.Record) (key : Nat) :
    c.site.scopeOf origin r key = c.scopeWith (⟨r.name, key⟩ :: origin.toList) := rfl

namespace Inv

variable {os : List Origin}

theorem get?_names (inv : Inv s good path c) {id name : String} (h : s.Bears good id name) :
    Scope.get? c.names name = c.draft? id := by
  obtain ⟨hg, t, key, he, rfl⟩ := h
  exact inv.names hg he

theorem get?_scopeWith (inv : Inv s good path c) (hos : ∀ o ∈ os, Fronts s good K o)
    {id name : String} {d : Draft} (h : s.Bears good id name)
    (hd : Scope.get? (c.scopeWith os) name = some d) :
    (∃ o ∈ os, d = .record o.key ∧ s.ideal id = d) ∨ c.draft? id = some d := by
  rw [Scope.get?, scopeWith, List.find?_append] at hd
  cases hfound : (os.map fun o => (o.name, Draft.record o.key)).find? (·.1 == name) with
  | none =>
      rw [hfound, Option.none_or] at hd
      rw [← inv.get?_names h]
      exact .inr hd
  | some e =>
      rw [hfound, Option.some_or] at hd
      obtain ⟨o, ho, rfl⟩ := List.mem_map.1 (List.mem_of_find?_eq_some hfound)
      obtain rfl : o.name = name := by simpa using List.find?_some hfound
      obtain rfl : .record o.key = d := Option.some.inj hd
      exact .inl ⟨o, ho, rfl, (hos o ho).ideal h⟩

theorem get?_scopeWith_isSome {name : String} (h : (Scope.get? c.names name).isSome = true) :
    (Scope.get? (c.scopeWith os) name).isSome = true := by
  rw [Scope.get?, scopeWith, List.find?_append, Option.isSome_map]
  rw [Scope.get?, Option.isSome_map] at h
  simp [Option.isSome_or, h]

theorem knows (inv : Inv s good path c) (hK : ∀ {k}, s.KeyOf good k → c.Holds k → K k)
    (hos : ∀ o ∈ os, Fronts s good K o) :
    s.Scoped good (path ≠ []) K (c.scopeWith os) where
  subst {id name d} h hd := by
    rcases inv.get?_scopeWith hos h hd with ⟨o, -, rfl, ho⟩ | hd
    · exact ho.symm
    · exact (inv.stored h.good hd).subst
  lower {id name d n} h hd hn := by
    rcases inv.get?_scopeWith hos h hd with ⟨o, -, rfl, -⟩ | hd
    · simp [leaves] at hn
    · exact inv.lower h.good hd hn
  known {id name d n} h hd hn := by
    rcases inv.get?_scopeWith hos h hd with ⟨o, -, rfl, -⟩ | hd
    · simp [leaves] at hn
    · obtain ⟨i, hi, hknown⟩ := (inv.stored h.good hd).names hn
      rcases hknown with hi' | hi'
      · refine .inr (get?_scopeWith_isSome ?_)
        rw [inv.get?_names hi]
        exact hi'
      · exact .inl (List.ne_nil_of_mem hi')
  exist {id name d k} h hd hk := by
    rcases inv.get?_scopeWith hos h hd with ⟨o, ho, rfl, -⟩ | hd
    · obtain rfl : k = o.key := by simpa [leaves] using hk
      exact (hos o ho).known
    · exact hK ((inv.stored h.good hd).keys hk).1 ((inv.stored h.good hd).keys hk).2

theorem resolve (inv : Inv s good path c) (sound : s.Sound good)
    (hK : ∀ {k}, s.KeyOf good k → c.Holds k → K k) (hos : ∀ o ∈ os, Fronts s good K o)
    {d ideal : Draft} (hd : Fits s good path c d ideal) :
    OrUndefined (path ≠ []) ((c.scopeWith os).resolve d) (.ok ideal) ∧
      ∀ e, (c.scopeWith os).resolve d = .ok e → ∀ k ∈ ideal.keys, K k := by
  have hresolve := (inv.knows hK hos).resolve sound (d := d) (fun n hn => by
    obtain ⟨i, hi, hknown⟩ := hd.names hn
    refine ⟨⟨i, hi⟩, ?_⟩
    rcases hknown with hi' | hi'
    · refine .inr (get?_scopeWith_isSome ?_)
      rw [inv.get?_names hi]
      exact hi'
    · exact .inl (List.ne_nil_of_mem hi')) fun k hk => hK (hd.keys hk).1 (hd.keys hk).2
  rw [hd.subst] at hresolve
  exact ⟨hresolve.1, fun e he k hk => hresolve.2 e he k (Draft.mem_keys.1 hk)⟩

theorem resolveField (inv : Inv s good path c) (sound : s.Sound good)
    (hK : ∀ {k}, s.KeyOf good k → c.Holds k → K k) (hos : ∀ o ∈ os, Fronts s good K o)
    {f ideal : Draft.Field} (hf : FitsField s good path c f ideal) :
    OrUndefined (path ≠ []) (Site.resolveField (c.scopeWith os) f) (.ok ideal) ∧
      ∀ g, Site.resolveField (c.scopeWith os) f = .ok g → ∀ k ∈ ideal.draft.keys, K k := by
  obtain ⟨name, wire, draft, required⟩ := f
  obtain ⟨name', wire', draft', required'⟩ := ideal
  obtain ⟨rfl, rfl, rfl, hdraft⟩ := hf
  rcases hdraft with ⟨text, h, h'⟩ | hfits
  · obtain rfl : draft = .literal text := h
    obtain rfl : draft' = .literal text := h'
    exact ⟨.refl _, fun g hg k hk => by simp [Draft.keys] at hk⟩
  · obtain ⟨hresolve, hkeys⟩ := inv.resolve sound hK hos hfits
    refine ⟨hresolve.map _, fun g hg => ?_⟩
    obtain ⟨d, hd, -⟩ := ok_of_map hg
    exact hkeys d hd

theorem resolveFields (inv : Inv s good path c) (sound : s.Sound good)
    (hK : ∀ {k}, s.KeyOf good k → c.Holds k → K k) (hos : ∀ o ∈ os, Fronts s good K o)
    {fs ideals : List Draft.Field} (hfs : List.Forall₂ (FitsField s good path c) fs ideals) :
    OrUndefined (path ≠ []) (fs.mapM (Site.resolveField (c.scopeWith os))) (.ok ideals) ∧
      ∀ gs, fs.mapM (Site.resolveField (c.scopeWith os)) = .ok gs →
        ∀ f ∈ ideals, ∀ k ∈ f.draft.keys, K k := by
  induction hfs with
  | nil => exact ⟨.refl _, by simp⟩
  | @cons f ideal fs ideals hf hfs ih =>
      obtain ⟨hfield, hkey⟩ := inv.resolveField sound hK hos hf
      obtain ⟨hfields, hkeys⟩ := ih
      rw [List.mapM_cons]
      constructor
      · exact hfield.bind (g := fun g => (Except.ok ideals).map (g :: ·)) fun g _ =>
          hfields.bind fun _ _ => .refl _
      · intro gs hgs
        obtain ⟨g, hg, hgs⟩ := ok_of_bind hgs
        obtain ⟨gs', hgs', -⟩ := ok_of_bind hgs
        exact List.forall_mem_cons.2 ⟨hkey g hg, hkeys gs' hgs'⟩

end Inv

theorem Fits.plain_ideal (sound : s.Sound good) {d ideal : Draft}
    (hd : Fits s good path c d ideal) (text : String) : literal text ∉ ideal.leaves := by
  intro h
  rw [← hd.subst] at h
  rcases Draft.mem_leaves_subst h with ⟨n, hn, h⟩ | ⟨h, -⟩
  · obtain ⟨i, hi, -⟩ := hd.names hn
    rw [hi.meaning sound] at h
    rcases sound.leaves_ideal hi.good _ h with ⟨b, hb⟩ | ⟨k, hk, -⟩
    · cases hb
    · cases hk
  · exact hd.plain text h

theorem Fits.fresh_ideal (sound : s.Sound good) {d ideal : Draft}
    (hd : Fits s good path c d ideal) (n : String) : named n ∉ ideal.leaves := by
  intro h
  rw [← hd.subst] at h
  rcases Draft.mem_leaves_subst h with ⟨m, hm, h⟩ | ⟨-, hnamed⟩
  · obtain ⟨i, hi, -⟩ := hd.names hm
    rw [hi.meaning sound] at h
    rcases sound.leaves_ideal hi.good _ h with ⟨b, hb⟩ | ⟨k, hk, -⟩
    · cases hb
    · cases hk
  · cases hnamed

theorem FitsField.fresh_ideal (sound : s.Sound good) {f ideal : Draft.Field}
    (hf : FitsField s good path c f ideal) : ideal.draft.keepsName = false := by
  rw [Draft.keepsName_eq_false]
  rcases hf.draft with ⟨text, -, ht⟩ | hfits
  · simp [ht, leaves]
  · exact hfits.fresh_ideal sound

theorem field?_fits {fs ideals : List Draft.Field} (name : String)
    (hfs : List.Forall₂ (FitsField s good path c) fs ideals) :
    Option.Rel (FitsField s good path c) (fs.find? (·.name == name))
      (ideals.find? (·.name == name)) := by
  induction hfs with
  | nil => exact .none
  | cons hf _ ih =>
      rw [List.find?_cons, List.find?_cons, hf.name]
      split
      · exact .some hf
      · exact ih

theorem tagText?_eq (sound : s.Sound good) {site site' : Site} {k : Nat} {r r' : Draft.Record}
    (hr : site.record? k = some r) (hr' : site'.record? k = some r')
    (hfs : List.Forall₂ (FitsField s good path c) r.fields r'.fields) (field : String) :
    site.tagText? field (record k) = site'.tagText? field (record k) := by
  have hfield := field?_fits (Catalog.attributeName field) hfs
  simp only [Site.tagText?, hr, hr', Option.bind_some, Draft.Record.field?]
  revert hfield
  cases r.fields.find? (·.name == Catalog.attributeName field) with
  | none =>
      cases r'.fields.find? (·.name == Catalog.attributeName field) with
      | none => exact fun _ => rfl
      | some f' => exact fun h => nomatch h
  | some f =>
      cases r'.fields.find? (·.name == Catalog.attributeName field) with
      | none => exact fun h => nomatch h
      | some f' =>
          intro h
          cases h with
          | some hf =>
              rcases hf.draft with ⟨text, h, h'⟩ | hfits
              · simp [h, h']
              · have h : ∀ text, f.draft ≠ .literal text := fun text ht =>
                  hfits.plain text (by simp [ht, leaves])
                have h' : ∀ text, f'.draft ≠ .literal text := fun text ht =>
                  hfits.plain_ideal sound text (by simp [ht, leaves])
                dsimp only
                split <;> simp_all

theorem Inv.mirrors_of (inv : Inv s good path c) (sound : s.Sound good) {site' : Site}
    (hK : ∀ {k}, s.KeyOf good k → c.Holds k → K k) (hO : ∀ {o}, O o → Fronts s good K o)
    (hrecord : ∀ {k}, K k → ∃ r r', c.site.record? k = some r ∧ site'.record? k = some r' ∧
      r.name = r'.name ∧ r'.complete = true ∧ O ⟨r.name, k⟩ ∧
      List.Forall₂ (FitsField s good path c) r.fields r'.fields ∧
      (r.complete = true → r.fields = r'.fields)) :
    Site.Mirrors c.site site' (path ≠ []) K O where
  record {k} hk := by
    obtain ⟨r, r', hr, hr', hname, hcomplete, ho, hfs, heq⟩ := hrecord hk
    have hfresh : ∀ f ∈ r'.fields, f.draft.keepsName = false := by
      intro f hf
      obtain ⟨_, -, hfit⟩ := exists_left_of_mem hfs hf
      exact hfit.fresh_ideal sound
    refine ⟨r, r', hr, hr', hname, hcomplete, ho, hfresh, fun origin horigin => ?_⟩
    unfold Site.fieldsOf
    split
    · rename_i hdone
      refine ⟨.inl (by rw [heq hdone]), fun fs hfs' f hf k' hk' => ?_⟩
      cases hfs'
      obtain ⟨f', -, hfit⟩ := exists_right_of_mem hfs hf
      rcases hfit.draft with ⟨text, ht, -⟩ | hfits
      · simp [ht, Draft.keys] at hk'
      · obtain ⟨hkey, hholds⟩ := hfits.keys (Draft.mem_keys.1 hk')
        exact hK hkey hholds
    · rw [scopeOf_eq]
      have hos : ∀ o ∈ ⟨r.name, k⟩ :: origin.toList, Fronts s good K o := by
        intro o hmem
        rcases List.mem_cons.1 hmem with rfl | hmem
        · exact hO ho
        · exact hO (horigin o (by simpa using hmem))
      obtain ⟨hfields, hkeys⟩ := inv.resolveFields sound hK hos hfs
      refine ⟨hfields, fun fs hok f hf k' hk' => ?_⟩
      rcases hfields with h | ⟨-, n, h⟩
      · rw [h] at hok
        cases hok
        exact hkeys _ h f hf k' hk'
      · rw [h] at hok
        cases hok
  tag {k} hk f := by
    obtain ⟨r, r', hr, hr', -, -, -, hfs, -⟩ := hrecord hk
    exact tagText?_eq sound hr hr' hfs f

def Stands (s : Spec) (good : String → Prop) (c : Compiler) (key : Nat) : Prop :=
  s.KeyOf good key ∧ c.Holds key

def StandsAs (s : Spec) (good : String → Prop) (c : Compiler) (o : Origin) : Prop :=
  c.Holds o.key ∧ ∃ id t ps, good id ∧ s.RecordOf id t o.key ps ∧ o.name = t.name

theorem StandsAs.fronts (sound : s.Sound good) {o : Origin} (h : StandsAs s good c o) :
    Fronts s good (Stands s good c) o := by
  obtain ⟨hholds, id, t, ps, hg, hr, hname⟩ := h
  refine ⟨fun {i} hi => ?_, ⟨id, t, ps, hg, hr⟩, hholds⟩
  have hid : i = id := hi.unique sound ⟨hg, t, _, hr.entry, hname.symm⟩ |>.symm
  rw [hid, sound.ideal_record hg hr]

theorem Inv.mirrors (inv : Inv s good path c) (sound : s.Sound good) :
    Site.Mirrors c.site s.blueprint (path ≠ []) (Stands s good c) (StandsAs s good c) := by
  refine inv.mirrors_of sound (fun hk hholds => ⟨hk, hholds⟩) (fun ho => ho.fronts sound) ?_
  rintro k ⟨⟨id, t, ps, hg, hr⟩, hholds⟩
  obtain ⟨r, hrecord⟩ := Option.isSome_iff_exists.1 hholds
  have hfits := inv.record hg hr hrecord
  refine ⟨r, _, hrecord, Spec.blueprint_record? (Spec.typeEntry?_getElem? hr.entry), hfits.name,
    rfl, ⟨hholds, id, t, ps, hg, hr, hfits.name⟩, hfits.fields, fun h => (hfits.complete h).1⟩

end BotApi.Compiler
