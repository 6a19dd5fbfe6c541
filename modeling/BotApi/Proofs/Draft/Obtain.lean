import BotApi.Proofs.Draft.Record
/-!
Drafting a good type, with whatever it leads to. It only fails if a good type cannot be built at all,
and leaves drafts that stand for what they should.
-/

namespace BotApi.Compiler

open Draft (leaves named record literal ofSubtypes)
open Work (Gives)

variable {s : Spec} {good : String → Prop} {path : List String} {c : Compiler}
  {id : String} {t : ApiType} {key : Nat} {ps : List Param} {self : String → Work Draft}

def Obtains (s : Spec) (good : String → Prop) (path : List String) (self : String → Work Draft)
    (id : String) : Prop :=
  ∀ c, Inv s good path c → Gives (¬ s.Builds good) (self id) c fun d c' =>
    Inv s good path c' ∧ Step s good c c' ∧ Drafted s good path c' id d

structure DraftedField (s : Spec) (good : String → Prop) (path : List String) (id : String)
    (c : Compiler) (p : Param) (f : Draft.Field) : Prop where
  fits : FitsField s good path c f (s.idealField id p)
  known : s.tellsApart id p.name = false →
    ∀ i, p.type.Mentions i → good i ∧ Known path c i

theorem DraftedField.mono {c' : Compiler} {p : Param} {f : Draft.Field} (h : Step s good c c')
    (hf : DraftedField s good path id c p f) : DraftedField s good path id c' p f :=
  ⟨hf.fits.mono h.grows, fun ht i hi =>
    ⟨(hf.known ht i hi).1, h.grows.known (hf.known ht i hi).1 (hf.known ht i hi).2⟩⟩

theorem field_gives (inv : Inv s good path c) {p : Param}
    (hself : s.tellsApart id p.name = false →
      ∀ i, p.type.Mentions i → good i ∧ Obtains s good path self i) :
    Gives (¬ s.Builds good) (Work.field self id p) c fun f c' =>
      Inv s good path c' ∧ Step s good c c' ∧ DraftedField s good path id c' p f := by
  refine .bind (.get ?_)
  rw [inv.spec]
  cases ht : s.tellsApart id p.name with
  | true =>
      refine .pure ⟨inv, .refl c, ⟨rfl, rfl, rfl, .inl ⟨p.value.getD "", rfl, ?_⟩⟩, ?_⟩
      · simp [Spec.idealField, Work.draftField, ht]
      · intro h
        rw [ht] at h
        cases h
  | false =>
      have hexpr := annotation_gives (I := Inv s good path) (N := fun _ => True) .refl .trans
        Step.grows (fun i hi => ⟨(hself ht i hi).1, fun c inv => ((hself ht i hi).2 c inv).mono
          fun d c' hd => ⟨hd.1, hd.2.1, hd.2.2, fun _ _ => trivial⟩⟩) inv
      refine .bind (hexpr.mono fun d c' hd => ?_)
      obtain ⟨inv', hstep, hfits, hknown, -⟩ := hd
      refine .pure ⟨inv', hstep, ⟨rfl, rfl, rfl, .inr ?_⟩, fun _ i hi =>
        ⟨(hself ht i hi).1, hknown i hi⟩⟩
      simpa [Spec.idealField, Work.draftField, ht] using hfits

theorem Step.putRecord (hkey : s.KeyOf good key) (r : Draft.Record) :
    Step s good c (if r.complete then c.putRecord key r
      else { c.putRecord key r with pending := (c.putRecord key r).pending ++ [key] }) := by
  split
  · rename_i hdone
    refine ⟨fun h => h, Inv.holds_putRecord, fun h => h, .inl, .inl, fun {k} hk => ?_, fun h => h, rfl⟩
    obtain ⟨r', hr', hopen⟩ := hk
    rcases c.record?_putRecord_cases hr' with ⟨-, rfl⟩ | hr'
    · rw [hdone] at hopen
      cases hopen
    · exact .inl ⟨r', hr', hopen⟩
  · refine ⟨fun h => h, Inv.holds_putRecord, fun h => List.mem_append_left _ h, fun {k} hk => ?_,
      .inl, fun {k} hk => ?_, fun h => h, rfl⟩
    · rcases List.mem_append.1 hk with hk | hk
      · exact .inl hk
      · rw [List.mem_singleton.1 hk]
        exact .inr hkey
    · obtain ⟨r', hr', hopen⟩ := hk
      rcases c.record?_putRecord_cases hr' with ⟨rfl, -⟩ | hr'
      · exact .inr (by simp)
      · exact .inl ⟨r', hr', hopen⟩

theorem fieldsRecord_gives (inv : Inv s good path c) (sound : s.Sound good) (hg : good id)
    (hr : s.RecordOf id t key ps)
    (hself : ∀ {i}, s.Follows id i → good i ∧ Obtains s good path self i) :
    Gives (¬ s.Builds good) (Work.fieldsRecord self t key ps) c fun d c' =>
      Inv s good path c' ∧ Step s good c c' ∧ Ready s good path c' id d := by
  have hid : t.id = id := Spec.typeEntry?_id hr.entry
  have hkey : s.KeyOf good key := ⟨id, t, ps, hg, hr⟩
  have hfields := Gives.mapM (f := Work.field self id) (l := ps) (I := Inv s good path)
    (L := Step s good) (R := DraftedField s good path id) .refl .trans
    (fun hstep hf => hf.mono hstep) (fun p hp c inv => field_gives inv fun ht i hi =>
      hself (.field hr.entry hr.name hr.shape hp ht hi)) inv
  unfold Work.fieldsRecord
  rw [hid]
  refine .bind (hfields.mono fun fs c₁ hfs => ?_)
  obtain ⟨inv₁, hstep, hfs⟩ := hfs
  have hideal : List.Forall₂ (FitsField s good path c₁) fs (ps.map (s.idealField id)) := by
    rw [List.forall₂_map_right_iff]
    exact hfs.flip.imp fun _ _ hf => hf.fits
  refine .bind ((record_gives inv₁ sound hg hr hideal).mono fun r c₂ hrecord => ?_)
  obtain ⟨rfl, hformed, hfit⟩ := hrecord
  have inv₂ := inv₁.putRecord_record hr hfit
  have inv₃ : Inv s good path (if r.complete then c₂.putRecord key r
      else { c₂.putRecord key r with pending := (c₂.putRecord key r).pending ++ [key] }) := by
    split
    · exact inv₂
    · exact inv₂.congr rfl rfl rfl rfl fun h _ => .inl h
  have hstep' := Step.putRecord (c := c₂) hkey r
  have hholds : Holds (if r.complete then c₂.putRecord key r
      else { c₂.putRecord key r with pending := (c₂.putRecord key r).pending ++ [key] }) key := by
    have hhere : (c₂.putRecord key r).Holds key := holds_putRecord_iff.2 (.inl rfl)
    split
    · exact hhere
    · exact hhere
  refine .bind (.changed (.pure ⟨inv₃, hstep.trans hstep', ?_⟩))
  refine ⟨?_, fun {n} hn => ?_, fun {u k qs} hu => ?_, hformed, fun {i} hi => ?_⟩
  · rw [sound.ideal_record hg hr]
    exact .record hkey hholds
  · simp [leaves] at hn
  · have hut := hu.entry.symm.trans hr.entry
    cases hut
    exact hholds
  · obtain ⟨p, hp, ht, hmentions⟩ := hr.follows hi
    obtain ⟨f, -, hf⟩ := exists_right_of_mem hfs hp
    obtain ⟨hgi, hknown⟩ := hf.known ht i hmentions
    exact hstep'.grows.known hgi hknown

variable {I : Compiler → Prop} {L : Compiler → Compiler → Prop}

-- What a name in a draft of a type means for the type: it is to be drafted again, if there is no
-- supertype among its subtypes.
def Waits (s : Spec) (path : List String) (c : Compiler) (id : String) (d : Draft) : Prop :=
  ∀ {n}, named n ∈ d.leaves → s.Nests id ∨ path ≠ [] ∧ id ∈ c.deferred

theorem Ready.waits {d : Draft} (sound : s.Sound good) (h : Ready s good path c id d)
    (hbelow : s.below id = []) : Waits s path c id d := by
  intro n hn
  obtain ⟨i, hi, hlt⟩ := h.lower hn
  exact absurd hlt (Spec.not_rank_lt hbelow (sound.settles hi.good))

section

variable {ids : List String} {ds : List Draft}

theorem choice_ready (sound : s.Sound good) (hg : good id)
    (he : s.typeEntry? id = some (t, key)) (hname : t.name ≠ inputFileName)
    (hshape : t.shape = .subtypes ids) (hnonempty : ids ≠ [])
    (hds : List.Forall₂ (fun i d => good i ∧ Drafted s good path c i d) ids ds) :
    Ready s good path c id (ofSubtypes id (s.discriminant? id) ds) where
  fits := by
    have hideal : s.ideal id = ofSubtypes id (s.discriminant? id) (ids.map s.ideal) := by
      rw [sound.ideal_eq hg he, Spec.draftOf, if_neg hname, hshape, Spec.typeEntry?_id he]
    rw [hideal]
    refine .subtypes ?_
    rw [List.forall₂_map_right_iff]
    exact hds.flip.imp fun _ _ h => h.2.fits
  lower hn := by
    obtain ⟨d, hd, hn⟩ := Draft.mem_leaves_ofSubtypes.1 hn
    obtain ⟨i, hi, hdrafted⟩ := exists_left_of_mem hds hd
    obtain ⟨j, hj, hle⟩ := hdrafted.2.lower hn
    have hlt := Spec.rank_lt (sound.settles hg) ((Spec.mem_below he hname hshape).2 hi)
    exact ⟨j, hj, Nat.lt_of_le_of_lt hle hlt⟩
  held {u k qs} hu := by
    cases hu.entry.symm.trans he
    cases hshape.symm.trans hu.shape
  formed := .of_subtypes he hshape hnonempty
  refs {i} hi := by
    have hmem := Spec.mem_of_follows he hshape hi
    obtain ⟨d, -, hdrafted⟩ := exists_right_of_mem hds hmem
    exact hdrafted.2.known

theorem named_of_mem_leaves (he : s.typeEntry? id = some (t, key)) (hname : t.name ≠ inputFileName)
    (hshape : t.shape = .subtypes ids) {f : Option String} {n : String}
    (hds : List.Forall₂ (fun i d => good i ∧ Drafted s good path c i d) ids ds)
    (hn : named n ∈ (ofSubtypes id f ds).leaves) :
    s.Nests id ∨ path ≠ [] ∧ ds.any Draft.isNamed = true := by
  obtain ⟨d, hd, hn⟩ := Draft.mem_leaves_ofSubtypes.1 hn
  obtain ⟨i, hi, -, hdrafted⟩ := exists_left_of_mem hds hd
  by_cases hbelow : s.below i = []
  · obtain ⟨hpath, hnamed⟩ := hdrafted.direct hn hbelow
    exact .inr ⟨List.ne_nil_of_mem hpath, List.any_eq_true.2 ⟨d, hd, hnamed⟩⟩
  · exact .inl ⟨i, (Spec.mem_below he hname hshape).2 hi, hbelow⟩

-- What is deferred first is deferred for all that follows.
theorem deferring_gives {F : Prop} {b : Bool} {w : Work Draft} {Q : Draft → Compiler → Prop}
    (h : I c) (hle : L c c) (hdefer : b = true → I (c.defer id) ∧ L c (c.defer id))
    (hw : ∀ c', I c' → L c c' → (b = true → id ∈ c'.deferred) → Gives F w c' Q) :
    Gives F (do
      if b then modify (·.defer id)
      w) c Q := by
  cases b with
  | true =>
      obtain ⟨h', hle'⟩ := hdefer rfl
      exact .bind (.changed (hw _ h' hle' fun _ => c.mem_deferred_defer.2 (.inr rfl)))
  | false => exact hw c h hle fun h => by cases h

theorem supertype_gives (refl : ∀ c, L c c) (trans : ∀ {c c' c''}, L c c' → L c' c'' → L c c'')
    (grows : ∀ {c c'}, L c c' → Grows good path c path c')
    (hinv : ∀ {c}, I c → Inv s good path c)
    (hdefer : ∀ {c}, I c → Known path c id ∧ s.below id ≠ [] →
      I (c.defer id) ∧ L c (c.defer id))
    (sound : s.Sound good) (hg : good id) (he : s.typeEntry? id = some (t, key))
    (hname : t.name ≠ inputFileName) (hshape : t.shape = .subtypes ids)
    (hself : ∀ i ∈ ids, good i ∧ ∀ c, I c → Gives (¬ s.Builds good) (self i) c fun d c' =>
      I c' ∧ L c c' ∧ Drafted s good path c' i d)
    (h : I c) (hknown : Known path c id) :
    Gives (¬ s.Builds good) (Work.supertype self id ids) c fun d c' =>
      I c' ∧ L c c' ∧ Ready s good path c' id d ∧ Waits s path c' id d := by
  let Member (c : Compiler) (i : String) (d : Draft) : Prop := good i ∧ Drafted s good path c i d
  have hkeep {c c' : Compiler} {i : String} {d : Draft} (hle : L c c') (hd : Member c i d) :
      Member c' i d := ⟨hd.1, hd.2.mono (grows hle) hd.1⟩
  have hmembers := Gives.mapM (f := self) (l := ids) (R := Member) refl trans hkeep
    (fun i hi c h => ((hself i hi).2 c h).mono fun d c' hd => ⟨hd.1, hd.2.1, (hself i hi).1, hd.2.2⟩)
    h
  unfold Work.supertype
  refine .bind (hmembers.mono fun ds c₁ hds => ?_)
  obtain ⟨h₁, hle, hds⟩ := hds
  have hbelow (hany : ds.any Draft.isNamed = true) : s.below id ≠ [] := by
    obtain ⟨d, hd, -⟩ := List.any_eq_true.1 hany
    obtain ⟨i, hi, -⟩ := exists_left_of_mem hds hd
    exact List.ne_nil_of_mem ((Spec.mem_below he hname hshape).2 hi)
  have hgive (hnonempty : ids ≠ []) {c₂ : Compiler} (h₂ : I c₂) (hle' : L c₁ c₂)
      (hdeferred : ds.any Draft.isNamed = true → id ∈ c₂.deferred) :
      I c₂ ∧ L c c₂ ∧ Ready s good path c₂ id (ofSubtypes id (s.discriminant? id) ds) ∧
        Waits s path c₂ id (ofSubtypes id (s.discriminant? id) ds) := by
    have hds := hds.imp fun _ _ => hkeep hle'
    refine ⟨h₂, trans hle hle', choice_ready sound hg he hname hshape hnonempty hds, fun hn => ?_⟩
    exact (named_of_mem_leaves he hname hshape hds hn).imp_right fun h => ⟨h.1, hdeferred h.2⟩
  refine deferring_gives h₁ (refl c₁) (fun hany => hdefer h₁ ⟨(grows hle).known hg hknown,
    hbelow hany⟩) fun c₂ h₂ hle' hdeferred => ?_
  rcases ds with _ | ⟨d, _ | ⟨e, ds⟩⟩
  · cases hds
    exact .throw fun builds => (builds.formed hg).members he hname hshape
  · have hnonempty : ids ≠ [] := by
      rintro rfl
      cases hds
    exact .pure (hgive hnonempty h₂ hle' hdeferred)
  · have hnonempty : ids ≠ [] := by
      rintro rfl
      cases hds
    refine .bind (.get ?_)
    rw [(hinv h₂).spec]
    exact .pure (hgive hnonempty h₂ hle' hdeferred)

end

theorem basic_ready {b : BasicType} (hideal : s.ideal id = .basic b)
    (he : s.typeEntry? id = some (t, key))
    (hbasic : t.name = inputFileName ∨ t.shape = .fields []) : Ready s good path c id (.basic b) := by
  have hbare {u : ApiType} {k : Nat} (hu : s.typeEntry? id = some (u, k)) (hn : u.name ≠ inputFileName) :
      u.shape = .fields [] := by
    have hut := hu.symm.trans he
    cases hut
    exact hbasic.resolve_left hn
  have hrecord {u : ApiType} {k : Nat} {ps : List Param} (hu : s.RecordOf id u k ps) : False := by
    have hps := hu.shape.symm.trans (hbare hu.entry hu.name)
    cases hps
    exact hu.nonempty rfl
  refine ⟨?fits, fun hn => by simp [leaves] at hn, fun hu => (hrecord hu).elim,
    ⟨fun hu hn => ?shape, fun hu => (hrecord hu).elim⟩, fun hi => ?refs⟩
  case fits =>
    rw [hideal]
    exact .basic b
  case shape =>
    rw [hbare hu hn]
    exact fun h => nomatch h
  case refs =>
    cases hi with
    | subtype hu hn hs hmem => exact nomatch hs.symm.trans (hbare hu hn)
    | field hu hn hs hp ht hmentions =>
        have hps := hs.symm.trans (hbare hu hn)
        cases hps
        cases hp

theorem type_gives (inv : Inv s good path c) (sound : s.Sound good) (hg : good id)
    (he : s.typeEntry? id = some (t, key)) (hmem : id ∈ path)
    (hself : ∀ {i}, s.Follows id i → good i ∧ Obtains s good path self i) :
    Gives (¬ s.Builds good) (Work.type self t key) c fun d c' =>
      Inv s good path c' ∧ Step s good c c' ∧ Ready s good path c' id d ∧ Waits s path c' id d := by
  have hid : t.id = id := Spec.typeEntry?_id he
  have hideal := sound.ideal_eq hg he
  unfold Work.type
  unfold Spec.draftOf at hideal
  split
  · rename_i hname
    rw [if_pos hname] at hideal
    have hready : Ready s good path c id _ := basic_ready hideal he (.inl hname)
    exact .pure ⟨inv, .refl c, hready, hready.waits sound (Spec.below_eq_nil he (.inl hname))⟩
  · rename_i hname
    rw [if_neg hname] at hideal
    cases hshape : t.shape with
    | subtypes ids =>
        dsimp only
        rw [hid]
        exact supertype_gives .refl .trans Step.grows (fun inv => inv)
          (fun inv h => ⟨inv.defer fun _ => h, .defer hg⟩) sound hg he hname hshape
          (fun i hi => hself (.subtype he hname hshape hi)) inv (.inr hmem)
    | fields ps =>
        have hbelow := Spec.below_eq_nil he (.inr ⟨ps, hshape⟩)
        cases ps with
        | nil =>
            rw [hshape] at hideal
            have hready : Ready s good path c id _ := basic_ready hideal he (.inr hshape)
            exact .pure ⟨inv, .refl c, hready, hready.waits sound hbelow⟩
        | cons p ps =>
            refine (fieldsRecord_gives inv sound hg ⟨he, hname, hshape, by simp⟩ hself).mono ?_
            exact fun d c' hd => ⟨hd.1, hd.2.1, hd.2.2, hd.2.2.waits sound hbelow⟩

-- The types that are being drafted are different types, so there are not more than there are types.
structure Path (s : Spec) (path : List String) : Prop where
  nodup : path.Nodup
  entry : ∀ id ∈ path, ∃ t key, s.typeEntry? id = some (t, key)

theorem Path.length_le (h : Path s path) : path.length ≤ s.types.length := by
  have hsub : path ⊆ s.types.map (·.id) := by
    intro id hid
    obtain ⟨t, key, he⟩ := h.entry id hid
    exact List.mem_map.2 ⟨t, Spec.typeEntry?_mem he, Spec.typeEntry?_id he⟩
  have hle := (List.subperm_of_subset h.nodup hsub).length_le
  simpa using hle

theorem Path.cons (h : Path s path) (he : s.typeEntry? id = some (t, key))
    (hnew : path.contains id = false) : Path s (id :: path) where
  nodup := List.nodup_cons.2 ⟨by simpa using hnew, h.nodup⟩
  entry i hi := by
    rcases List.mem_cons.1 hi with rfl | hi
    · exact ⟨t, key, he⟩
    · exact h.entry i hi

theorem obtain_gives (sound : s.Sound good) (n : Nat) (hpath : Path s path)
    (hfuel : n + path.length = s.types.length + 1) (hg : good id) :
    Obtains s good path (Work.obtain n path) id := by
  induction n generalizing path id with
  | zero =>
      have hle := hpath.length_le
      omega
  | succ n ih =>
      intro c inv
      unfold Work.obtain
      refine .bind (.get ?_)
      cases hd : c.draft? id with
      | some d => exact .pure ⟨inv, .refl c, inv.drafted sound hg hd⟩
      | none =>
          obtain ⟨t, key, he⟩ := sound.entry hg
          simp only [inv.spec, he]
          cases hin : path.contains id with
          | true =>
              have hmem : id ∈ path := by simpa using hin
              have hbears : s.Bears good id t.name := ⟨hg, t, key, he, rfl⟩
              unfold Work.reference
              rw [if_pos (Draft.Name.isExpression_of_isIdentifier (sound.identifier hg he))]
              refine .pure ⟨inv, .refl c, .named sound hbears (.inr hmem), fun {m} hm => ?_,
                .inr hmem, fun _ _ => ⟨hmem, rfl⟩⟩
              obtain rfl : m = t.name := by simpa [leaves] using hm
              exact ⟨id, hbears, Nat.le_refl _⟩
          | false =>
              have hself {i : String} (hi : s.Follows id i) :
                  good i ∧ Obtains s good (id :: path) (Work.obtain n (id :: path)) i := by
                refine ⟨sound.closed hg hi, ih (hpath.cons he hin) ?_ (sound.closed hg hi)⟩
                simp only [List.length_cons]
                omega
              refine .bind ((type_gives (inv.enter sound id) sound hg he (by simp)
                hself).mono fun d c₁ hd => ?_)
              obtain ⟨inv₁, hstep, hready, hwaits⟩ := hd
              refine .bind (.changed (.pure ?_))
              have inv₂ := inv₁.store sound he fun _ => hready
              have hstored : (c₁.store t d).draft? id = some d := by
                simp [draft?_store, Spec.typeEntry?_id he]
              refine ⟨inv₂, hstep.trans (.store he fun hn => ?_), inv₂.drafted sound hg hstored⟩
              exact (hwaits hn).symm.imp_left And.right

end BotApi.Compiler
