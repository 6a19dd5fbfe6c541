import BotApi.Proofs.Draft.Obtain
/-!
Settling what had to wait. Once nothing is being drafted, good types that were deferred are drafted from
their members, and good records that are not complete are completed.
-/

namespace BotApi.Compiler

open Draft (OrUndefined Origin leaves named record literal)
open Work (Gives)

variable {s : Spec} {good : String → Prop} {c c' : Compiler}
  {id : String} {t : ApiType} {key : Nat} {ps : List Param}

structure Mine (s : Spec) (good : String → Prop) (c : Compiler) : Prop where
  pending : ∀ {key}, key ∈ c.pending → s.KeyOf good key
  deferred : ∀ {id}, id ∈ c.deferred → good id

def Awaits (c : Compiler) : Prop := ∀ {key}, c.Open key → key ∈ c.pending

def Clear (c : Compiler) : Prop := c.pending = [] ∧ c.deferred = []

theorem Step.mine (h : Step s good c c') (hc : Mine s good c) : Mine s good c' where
  pending hk := (h.pending hk).elim hc.pending fun h => h
  deferred hid := (h.deferred hid).elim hc.deferred fun h => h

theorem Step.awaits (h : Step s good c c') (hc : c.Awaits) : c'.Awaits := by
  intro k hk
  rcases h.opens hk with hk | hk
  · exact h.waiting (hc hk)
  · exact hk

theorem run_settled {d : Draft} (h : c.draft? id = some d) (n : Nat) :
    (Work.settled n id).run c = (.ok d, c) := by
  cases n with
  | zero =>
      rw [Work.settled, Work.run_bind]
      change (Work.obtain (c.spec.types.length + 1) [] id).run c = _
      rw [Work.obtain, Work.run_get]
      simp only [h, Work.run_pure]
  | succ n =>
      rw [Work.settled, Work.run_get]
      simp only [h, Work.run_pure]

theorem settled_gives (inv : Inv s good [] c) (sound : s.Sound good) (hg : good id)
    (hid : c.Stored id) (n : Nat) {F : Prop} : Gives F (Work.settled n id) c fun d c' =>
      c' = c ∧ Drafted s good [] c id d := by
  obtain ⟨d, hd⟩ := hid.draft?
  unfold Gives
  rw [run_settled hd]
  exact ⟨rfl, inv.drafted sound hg hd⟩

def Clean (s : Spec) (c : Compiler) (id : String) : Prop :=
  ∀ {d n}, c.draft? id = some d → named n ∈ d.leaves → s.Nests id

theorem Clean.congr {i : String} (h : Clean s c i) (hdrafts : c'.drafts = c.drafts) :
    Clean s c' i := by
  intro d n hd
  rw [draft?, hdrafts] at hd
  exact h hd

theorem redraft_gives (inv : Inv s good [] c) (sound : s.Sound good) (hg : good id)
    (hid : c.Stored id) (hbelow : s.below id ≠ []) (n : Nat) :
    Gives (¬ s.Builds good) (Work.redraft (Work.settled n) id) c fun _ c' =>
      Inv s good [] c' ∧ Step s good c c' ∧ (∀ {i}, Clean s c i → Clean s c' i) ∧
        Clean s c' id := by
  obtain ⟨i₀, hi₀⟩ := List.exists_mem_of_ne_nil _ hbelow
  obtain ⟨t, key, ids, he, hname, hshape, -⟩ := Spec.exists_of_mem_below hi₀
  let I (c' : Compiler) : Prop := Inv s good [] c' ∧ c'.Stored id ∧ c'.drafts = c.drafts
  have hself (i : String) (hi : i ∈ ids) : good i ∧ ∀ c, I c →
      Gives (¬ s.Builds good) (Work.settled n i) c fun d c' =>
        I c' ∧ Step s good c c' ∧ Drafted s good [] c' i d := by
    have hi := Spec.Follows.subtype he hname hshape hi
    refine ⟨sound.closed hg hi, fun c h => ?_⟩
    have hstored : c.Stored i := (h.1.refs hg h.2.1 hi).stored
    refine (settled_gives h.1 sound (sound.closed hg hi) hstored n).mono fun d c' hd => ?_
    obtain ⟨rfl, hd⟩ := hd
    exact ⟨h, .refl _, hd⟩
  have hdefer {c : Compiler} (h : I c) (hknown : Known [] c id ∧ s.below id ≠ []) :
      I (c.defer id) ∧ Step s good c (c.defer id) := by
    refine ⟨⟨h.1.defer fun _ => hknown, (Step.defer (s := s) hg).stored h.2.1, ?_⟩, .defer hg⟩
    rw [defer_eq]
    exact h.2.2
  have hdraft := supertype_gives (I := I) .refl .trans Step.grows And.left hdefer
    sound hg he hname hshape hself ⟨inv, hid, rfl⟩ (.inl hid)
  unfold Work.redraft
  refine .bind (.get ?_)
  simp only [inv.spec, he]
  have hids : t.subtypes?.getD [] = ids := by simp [ApiType.subtypes?, hshape]
  rw [hids]
  refine .bind (hdraft.mono fun d c₁ hd => ?_)
  obtain ⟨⟨inv₁, -, hdrafts⟩, hstep, hready, hwaits⟩ := hd
  have hnests {n : String} (hn : named n ∈ d.leaves) : s.Nests id :=
    (hwaits hn).elim (fun h => h) fun h => absurd rfl h.1
  have hclean {i : String} (h : i = id ∨ Clean s c i) : Clean s (c₁.store t d) i := by
    intro e m he' hm
    rw [draft?_store, Spec.typeEntry?_id he] at he'
    split at he'
    · rename_i hi
      cases he'
      rw [← beq_iff_eq.1 hi]
      exact hnests hm
    · rename_i hi
      exact h.elim (fun h => absurd h.symm (by simpa using hi)) fun h => h.congr hdrafts he' hm
  refine .changed ⟨(inv₁.enter sound id).store sound he fun _ => ?_,
    hstep.trans (.store he fun hn => .inr (hnests hn)), fun h => hclean (.inr h), hclean (.inl rfl)⟩
  exact hready.mono sound (.of_path fun _ h => by cases h) hg

structure Finishes (c c' : Compiler) : Prop where
  stored : ∀ {id}, c.Stored id → c'.Stored id
  holds : ∀ {key}, c.Holds key → c'.Holds key
  opens : ∀ {key}, c'.Open key → c.Open key
  drafts : c'.drafts = c.drafts
  pending : c'.pending = c.pending
  deferred : c'.deferred = c.deferred
  params : c'.params = c.params

namespace Finishes

theorem refl (c : Compiler) : Finishes c c :=
  ⟨fun h => h, fun h => h, fun h => h, rfl, rfl, rfl, rfl⟩

theorem trans {c'' : Compiler} (h : Finishes c c') (h' : Finishes c' c'') : Finishes c c'' where
  stored hid := h'.stored (h.stored hid)
  holds hk := h'.holds (h.holds hk)
  opens hk := h.opens (h'.opens hk)
  drafts := h'.drafts.trans h.drafts
  pending := h'.pending.trans h.pending
  deferred := h'.deferred.trans h.deferred
  params := h'.params.trans h.params

theorem putRecord {r : Draft.Record} (h : c.Open key) : Finishes c (c.putRecord key r) where
  stored h := h
  holds := Inv.holds_putRecord
  opens {k} hk := by
    obtain ⟨r', hr', hopen⟩ := hk
    rcases c.record?_putRecord_cases hr' with ⟨rfl, -⟩ | hr'
    · exact h
    · exact ⟨r', hr', hopen⟩
  drafts := rfl
  pending := rfl
  deferred := rfl
  params := rfl

end Finishes

theorem not_open (h : ∀ r, c.site.record? key = some r → r.complete = true) : ¬ c.Open key := by
  rintro ⟨r, hr, hopen⟩
  rw [h r hr] at hopen
  cases hopen

theorem not_open_putRecord {r : Draft.Record} (h : r.complete = true) : ¬ (c.putRecord key r).Open key := by
  refine not_open fun r' hr' => ?_
  rw [record?_putRecord, if_pos (beq_self_eq_true key)] at hr'
  exact Option.some.inj hr' ▸ h

theorem close_gives (inv : Inv s good [] c) (sound : s.Sound good) (hg : good id)
    (hr : s.RecordOf id t key ps) {r : Draft.Record} (hrecord : c.site.record? key = some r)
    (hopen : r.complete = false) (hfields : r.fields = s.idealFields t) :
    Gives (¬ s.Builds good)
      (match c.site.recordsFrom key with
        | .error o => Work.finish.raise r.name o
        | .ok _ => modify (·.putRecord key { r with complete := true })) c fun _ c' =>
      Inv s good [] c' ∧ Finishes c c' ∧ ¬ c'.Open key := by
  have hkey : s.KeyOf good key := ⟨id, t, ps, hg, hr⟩
  have hholds : c.Holds key := by
    rw [Holds, hrecord]
    rfl
  have hbuild := (inv.mirrors sound).recordsFrom (k := key) ⟨hkey, hholds⟩
  have hbuild := hbuild.decided
  cases hrs : c.site.recordsFrom key with
  | error o =>
      have hfails : ¬ s.Builds good := by
        intro builds
        obtain ⟨rs, hok⟩ := builds.records hkey
        rw [hbuild, hok] at hrs
        cases hrs
      cases o <;> exact .throw hfails
  | ok rs =>
      have hgrows : Grows good [] c [] (c.putRecord key { r with complete := true }) :=
        Inv.grows_putRecord
      have hfit := (inv.record hg hr hrecord).completed hgrows hfields ⟨rs, hbuild.symm.trans hrs⟩
      exact .changed ⟨inv.putRecord_record hr hfit, .putRecord ⟨r, hrecord, hopen⟩, not_open_putRecord rfl⟩

theorem fieldsOf_eq (inv : Inv s good [] c) (sound : s.Sound good) (hg : good id)
    (hr : s.RecordOf id t key ps) {r : Draft.Record} (hrecord : c.site.record? key = some r) :
    c.site.fieldsOf none r key = .ok (s.idealFields t) ∧
      ∀ f ∈ s.idealFields t, ∀ k ∈ f.draft.keys, c.Holds k := by
  have hholds : c.Holds key := by
    rw [Holds, hrecord]
    rfl
  obtain ⟨r', r'', hr', hr'', -, -, -, -, hfields⟩ :=
    (inv.mirrors sound).record (k := key) ⟨⟨id, t, ps, hg, hr⟩, hholds⟩
  rw [hrecord] at hr'
  cases hr'
  rw [Spec.blueprint_record? (Spec.typeEntry?_getElem? hr.entry)] at hr''
  cases hr''
  obtain ⟨hfields, hkeys⟩ := hfields none (by simp)
  have hfields := hfields.decided
  exact ⟨hfields, fun f hf k hk => (hkeys _ hfields f hf k hk).2⟩

theorem finish_gives (inv : Inv s good [] c) (sound : s.Sound good) (hkey : s.KeyOf good key) :
    Gives (¬ s.Builds good) (Work.finish key) c fun _ c' =>
      Inv s good [] c' ∧ Finishes c c' ∧ ¬ c'.Open key := by
  unfold Work.finish
  refine .bind (.get ?_)
  cases hrecord : c.site.record? key with
  | none =>
      exact .pure ⟨inv, .refl c, not_open fun r hr => by cases hrecord.symm.trans hr⟩
  | some r =>
      obtain ⟨id, t, ps, hg, hr⟩ := hkey
      dsimp only
      cases hdone : r.complete with
      | true =>
          refine .pure ⟨inv, .refl c, not_open fun r' hr' => ?_⟩
          cases hrecord.symm.trans hr'
          exact hdone
      | false =>
          obtain ⟨hfields, hkeys⟩ := fieldsOf_eq inv sound hg hr hrecord
          simp only [Bool.false_eq_true, ↓reduceIte, hfields]
          have hfit : FitsRecord s good [] (c.putRecord key ⟨r.name, s.idealFields t, false⟩) t key
              ⟨r.name, s.idealFields t, false⟩ := by
            refine ⟨(inv.record hg hr hrecord).name, List.forall₂_same.2 fun f hf => ?_, fun h => ?_⟩
            · exact .of_ideal sound hg hr hf fun k hk => Inv.holds_putRecord (hkeys f hf k hk)
            · cases h
          have hclose := close_gives (r := ⟨r.name, s.idealFields t, false⟩)
            (inv.putRecord_record hr hfit) sound hg hr (by simp [record?_putRecord]) rfl rfl
          refine .bind (.set (hclose.mono fun _ c' h => ?_))
          exact ⟨h.1, .trans (.putRecord ⟨r, hrecord, hdone⟩) h.2.1, h.2.2⟩

theorem Clear.mine (h : c.Clear) : Mine s good c where
  pending hk := by
    rw [h.1] at hk
    cases hk
  deferred hid := by
    rw [h.2] at hid
    cases hid

structure Rests (s : Spec) (good : String → Prop) (c c' : Compiler) : Prop where
  stored : ∀ {id}, c.Stored id → c'.Stored id
  holds : ∀ {key}, c.Holds key → c'.Holds key
  awaits : c.Awaits → c'.Awaits
  covered : Covered s good c → Covered s good c'
  clear : c.Clear → c'.Clear
  mine : Mine s good c → Mine s good c'
  params : c'.params = c.params

namespace Rests

theorem refl (c : Compiler) : Rests s good c c :=
  ⟨fun h => h, fun h => h, fun h => h, fun h => h, fun h => h, fun h => h, rfl⟩

theorem trans {c'' : Compiler} (h : Rests s good c c') (h' : Rests s good c' c'') :
    Rests s good c c'' where
  stored hid := h'.stored (h.stored hid)
  holds hk := h'.holds (h.holds hk)
  awaits hc := h'.awaits (h.awaits hc)
  covered hc := h'.covered (h.covered hc)
  clear hc := h'.clear (h.clear hc)
  mine hc := h'.mine (h.mine hc)
  params := h'.params.trans h.params

theorem grows (h : Rests s good c c') : Grows good [] c [] c' := .of_stored h.stored h.holds

end Rests

theorem complete_gives_clear (inv : Inv s good [] c) (sound : s.Sound good) (mine : Mine s good c)
    (n : Nat) : Gives (¬ s.Builds good) (Work.complete (Work.settled n)) c fun _ c' =>
      Inv s good [] c' ∧ Rests s good c c' ∧ c'.Clear := by
  have hdeferred : ∀ i ∈ c.deferredInOrder, good i ∧ c.Stored i ∧ s.below i ≠ [] := by
    intro i hi
    have hmem : i ∈ c.deferred := List.mem_mergeSort.1 hi
    obtain ⟨hknown, hbelow⟩ := inv.deferred hmem (mine.deferred hmem)
    exact ⟨mine.deferred hmem, hknown.stored, hbelow⟩
  have hredraft := Gives.forM (f := Work.redraft (Work.settled n)) (l := c.deferredInOrder)
    (I := fun c' => Inv s good [] c' ∧ Step s good c c')
    (L := fun c c' => ∀ {i}, Clean s c i → Clean s c' i) (R := Clean s) (F := ¬ s.Builds good)
    (fun _ _ h => h) (fun h h' _ hi => h' (h hi)) (fun h hi => h hi) (fun i hi c' h => by
      obtain ⟨hg, hid, hbelow⟩ := hdeferred i hi
      refine (redraft_gives h.1 sound hg (h.2.stored hid) hbelow n).mono fun _ c'' h' => ?_
      exact ⟨⟨h'.1, h.2.trans h'.2.1⟩, h'.2.2⟩) ⟨inv, .refl c⟩
  unfold Work.complete
  refine .bind (.get (.bind (hredraft.mono fun _ c₁ h₁ => ?_)))
  obtain ⟨⟨inv₁, hstep⟩, hkept, hclean⟩ := h₁
  refine .bind (.changed (.bind (.get (.bind (.changed ?_)))))
  have inv₂ : Inv s good [] { c₁ with deferred := [], pending := [] } :=
    inv₁.congr rfl rfl rfl rfl fun h _ => .inl (by cases h)
  have hfinish := Gives.forM (f := Work.finish) (l := c₁.pending) (I := Inv s good [])
    (L := Finishes) (R := fun c k => ¬ c.Open k) (F := ¬ s.Builds good) .refl .trans
    (fun hle hk hopen => hk (hle.opens hopen))
    (fun k hk c' inv' => finish_gives inv' sound ((hstep.mine mine).pending hk)) inv₂
  refine hfinish.mono fun _ c₃ h₃ => ?_
  obtain ⟨inv₃, hfinishes, hdone⟩ := h₃
  have hclear : c₃.Clear := ⟨hfinishes.pending, hfinishes.deferred⟩
  refine ⟨inv₃, ⟨fun h => hfinishes.stored (hstep.stored h),
    fun h => hfinishes.holds (hstep.holds h), fun hawaits k hk => ?_,
    fun hcovered {i d m} hg hd hm => .inr ?_, fun _ => hclear,
    fun _ => hclear.mine, hfinishes.params.trans hstep.params⟩, hclear⟩
  · have hmem : k ∈ c₁.pending := hstep.awaits hawaits (hfinishes.opens hk)
    exact absurd hk (hdone k hmem)
  · have hi : Clean s c₁ i := by
      by_cases hdefer : i ∈ c.deferred
      · exact hclean i (List.mem_mergeSort.2 hdefer)
      · exact hkept fun hd hm => (hcovered hg hd hm).resolve_left hdefer
    exact hi.congr hfinishes.drafts hd hm

theorem draft_gives (inv : Inv s good [] c) (sound : s.Sound good) (hg : good id)
    (h : c.Stored id ∨ Mine s good c) :
    Gives (¬ s.Builds good) (Work.draft id) c fun d c' =>
      Inv s good [] c' ∧ Rests s good c c' ∧ c'.draft? id = some d := by
  unfold Work.draft Work.depth
  refine .bind (.bind (.get (.pure ?_)))
  unfold Work.settled
  refine .bind (.get ?_)
  cases hd : c.draft? id with
  | some d => exact .pure ⟨inv, .refl c, hd⟩
  | none =>
      have mine : Mine s good c := by
        refine h.elim (fun h => ?_) fun h => h
        rw [Stored, hd] at h
        cases h
      have hpath : Path s [] := ⟨.nil, by simp⟩
      have hobtain := obtain_gives sound (c.spec.types.length + 1) hpath (by simp [inv.spec]) hg c inv
      unfold Work.depth
      refine .bind (.bind (.get (.pure (.bind (hobtain.mono fun d c₁ h₁ => ?_)))))
      obtain ⟨inv₁, hstep, hdrafted⟩ := h₁
      have hcomplete := complete_gives_clear inv₁ sound (hstep.mine mine) c.spec.types.length
      refine .bind (hcomplete.mono fun _ c₂ h₂ => ?_)
      obtain ⟨inv₂, hrests, hclear⟩ := h₂
      have hid : c₂.Stored id := hrests.stored hdrafted.known.stored
      obtain ⟨d', hd'⟩ := hid.draft?
      refine .bind (.get (.pure ⟨inv₂, ?_, ?_⟩))
      · exact ⟨fun h => hrests.stored (hstep.stored h), fun h => hrests.holds (hstep.holds h),
          fun h => hrests.awaits (hstep.awaits h), fun h => hrests.covered (hstep.covered h),
          fun _ => hclear, fun _ => hclear.mine, hrests.params.trans hstep.params⟩
      · rw [hd', Option.getD_some]

end BotApi.Compiler
