import BotApi.Proofs.Catalog.Discriminant
import BotApi.Proofs.Draft.Documented
import BotApi.Proofs.Draft.Settle
/-!
What is drafted for good, whatever the types are called. The draft of a record type is its record, a supertype
of record types is the choice of their records; once they are stored they stay, and a compiler that
succeeds leaves no record open.
-/

namespace BotApi

open Draft (ofSubtypes record Site)

namespace Spec

variable {s : Spec} {told : String → Bool} {p : Param} {f g : Draft.Field} {id i : String} {t : ApiType}
  {key : Nat} {ps : List Param} {ids : List String} {ks : List Nat} {d d' : Draft}

structure MarksField (told : String → Bool) (p : Param) (f : Draft.Field) : Prop where
  name : f.name = Catalog.attributeName p.name
  wire : f.wire = p.name
  required : f.required = p.required
  literal : told p.name = true → f.draft = .literal (p.value.getD "")

theorem MarksField.resolveField {scope : Draft.Scope} (hf : MarksField told p f)
    (h : Site.resolveField scope f = .ok g) : MarksField told p g := by
  obtain ⟨d, hd, rfl⟩ := Site.resolveField_eq_ok h
  refine ⟨hf.name, hf.wire, hf.required, fun ht => ?_⟩
  rw [hf.literal ht] at hd
  cases hd
  rfl

theorem marks_resolved {scope : Draft.Scope} {fs gs : List Draft.Field}
    (hfs : List.Forall₂ (MarksField told) ps fs) (h : fs.mapM (Site.resolveField scope) = .ok gs) :
    List.Forall₂ (MarksField told) ps gs :=
  Site.forall₂_resolved (fun hf hg => hf.resolveField hg) hfs h

def RecordAt (s : Spec) (i : String) (key : Nat) : Prop := ∃ t ps, s.RecordOf i t key ps

structure ChoiceOf (s : Spec) (id : String) (ids : List String) (ks : List Nat) : Prop where
  entry : ∃ t key, s.typeEntry? id = some (t, key) ∧ t.name ≠ inputFileName ∧ t.shape = .subtypes ids
  keys : List.Forall₂ s.RecordAt ids ks

inductive Final (s : Spec) : String → Draft → Prop
  | record {id : String} {key : Nat} (h : s.RecordAt id key) : Final s id (.record key)
  | choice {id : String} {ids : List String} {ks : List Nat} (h : s.ChoiceOf id ids ks) :
      Final s id (ofSubtypes id (s.discriminant? id) (ks.map .record))

theorem RecordAt.key_eq {k k' : Nat} (h : s.RecordAt i k) (h' : s.RecordAt i k') : k = k' := by
  obtain ⟨t, ps, hr⟩ := h
  obtain ⟨t', ps', hr'⟩ := h'
  exact (Prod.mk.inj (Option.some.inj (hr.entry.symm.trans hr'.entry))).2

theorem RecordOf.not_choice (hr : s.RecordOf id t key ps) : ¬ s.ChoiceOf id ids ks := by
  rintro ⟨⟨t', key', he, -, hshape⟩, -⟩
  cases hr.entry.symm.trans he
  cases hr.shape.symm.trans hshape

theorem Final.entry_cases {key : Nat} {d : Draft} (h : s.Final id d) (he : s.typeEntry? id = some (t, key)) :
    (∃ ps, s.RecordOf id t key ps ∧ d = .record key) ∨
      ∃ ids ks, s.ChoiceOf id ids ks ∧ t.name ≠ inputFileName ∧ t.shape = .subtypes ids ∧
        d = ofSubtypes id (s.discriminant? id) (ks.map .record) := by
  cases h with
  | record hr =>
      obtain ⟨u, ps, hr⟩ := hr
      cases hr.entry.symm.trans he
      exact .inl ⟨ps, hr, rfl⟩
  | @choice ids ks hc =>
      obtain ⟨u, k, hu, hname, hshape⟩ := hc.entry
      cases hu.symm.trans he
      exact .inr ⟨ids, ks, hc, hname, hshape, rfl⟩

end Spec

namespace Compiler

open Work (Gives)
open Spec (MarksField marks_resolved)

variable {s : Spec} {path : List String} {c c' : Compiler} {id : String} {t : ApiType} {key : Nat}
  {ps : List Param} {self : String → Work Draft} {F : Prop}

structure Kept (s : Spec) (c : Compiler) : Prop where
  spec : c.spec = s
  draft : ∀ {id key d}, s.RecordAt id key → c.draft? id = some d → d = .record key
  record : ∀ {k r}, c.site.record? k = some r → ∃ id t ps, s.RecordOf id t k ps ∧ r.name = t.name ∧
    List.Forall₂ (MarksField (s.tellsApart id)) ps r.fields

structure Retains (s : Spec) (c c' : Compiler) : Prop where
  final : ∀ {id d}, s.Final id d → c.draft? id = some d → c'.draft? id = some d

theorem Retains.refl (c : Compiler) : Retains s c c := ⟨fun _ h => h⟩

theorem Retains.trans {c'' : Compiler} (h : Retains s c c') (h' : Retains s c' c'') : Retains s c c'' :=
  ⟨fun hd hstored => h'.final hd (h.final hd hstored)⟩

theorem Retains.of_drafts (h : c'.drafts = c.drafts) : Retains s c c' where
  final _ hd := by
    rw [draft?, h]
    exact hd

namespace Kept

theorem new (s : Spec) : Kept s (.new s) where
  spec := rfl
  draft _ h := by cases h
  record h := by cases h

theorem congr (h : Kept s c) (hspec : c'.spec = c.spec) (hdrafts : c'.drafts = c.drafts)
    (hrecords : c'.records = c.records) : Kept s c' where
  spec := hspec.trans h.spec
  draft hr hd := by
    rw [draft?, hdrafts] at hd
    exact h.draft hr hd
  record hr := by
    rw [site, hrecords] at hr
    exact h.record hr

theorem store {d : Draft} (h : Kept s c) (he : s.typeEntry? id = some (t, key))
    (hd : ∀ {k}, s.RecordAt id k → d = .record k) : Kept s (c.store t d) where
  spec := h.spec
  draft {i k d'} hr hi := by
    rcases c.draft?_store_cases (Spec.typeEntry?_id he) hi with ⟨rfl, rfl⟩ | hi
    · exact hd hr
    · exact h.draft hr hi
  record := h.record

theorem putRecord {r : Draft.Record} (h : Kept s c) (hr : s.RecordOf id t key ps) (hname : r.name = t.name)
    (hfs : List.Forall₂ (MarksField (s.tellsApart id)) ps r.fields) : Kept s (c.putRecord key r) where
  spec := h.spec
  draft := h.draft
  record {k r'} hk := by
    rcases c.record?_putRecord_cases hk with ⟨rfl, rfl⟩ | hk
    · exact ⟨id, t, ps, hr, hname, hfs⟩
    · exact h.record hk

theorem defer (h : Kept s c) (id : String) : Kept s (c.defer id) := by
  rw [defer_eq]
  exact h.congr rfl rfl rfl

end Kept

structure Busy (s : Spec) (c : Compiler) : Prop extends Kept s c where
  awaits : c.Awaits

theorem Busy.defer (h : Busy s c) (id : String) : Busy s (c.defer id) where
  toKept := h.toKept.defer id
  awaits := by
    rw [defer_eq]
    exact h.awaits

def Obeys (s : Spec) (path : List String) (self : String → Work Draft) : Prop :=
  ∀ i c, Busy s c → Gives True (self i) c fun d c' => Busy s c' ∧ Retains s c c' ∧
    (i ∉ path → ∀ k, s.RecordAt i k → d = .record k ∧ c'.draft? i = some d)

section

variable {I : Compiler → Prop} {L : Compiler → Compiler → Prop}

theorem composed_passes (refl : ∀ c, L c c) (trans : ∀ {c c' c''}, L c c' → L c' c'' → L c c'') :
    Work.Composed fun w => ∀ c, I c → Gives F w c fun _ c' => I c' ∧ L c c' where
  pure _ c h := .pure ⟨h, refl c⟩
  bind hw hf c h := .bind ((hw c h).mono fun a c₁ h₁ => (hf a c₁ h₁.1).mono fun _ _ h₂ => ⟨h₂.1, trans h₁.2 h₂.2⟩)

end

theorem field_marks (hself : Obeys s path self) (id : String) (p : Param) (h : Busy s c) :
    Gives True (Work.field self id p) c fun f c' =>
      Busy s c' ∧ Retains s c c' ∧ MarksField (s.tellsApart id) p f := by
  refine .bind (.get ?_)
  rw [h.spec]
  split
  · exact .pure ⟨h, .refl c, rfl, rfl, rfl, fun _ => rfl⟩
  · rename_i ht
    have hexpr := (composed_passes (I := Busy s) (L := Retains s) (F := True) .refl .trans).ofExpr p.type
      (fun i _ c h => (hself i c h).mono fun _ _ hd => ⟨hd.1, hd.2.1⟩) c h
    refine .bind (hexpr.mono fun d c' h' => .pure ⟨h'.1, h'.2, rfl, rfl, rfl, fun htold => ?_⟩)
    exact absurd htold ht

theorem settle_marks {told : String → Bool} {scope : Draft.Scope} {f : Draft.Field} (c : Compiler) :
    Gives True (Work.settle scope f) c fun g c' => c' = c ∧
      ∀ p, MarksField told p f → MarksField told p g := by
  unfold Work.settle
  split
  · rename_i g hg
    exact .pure ⟨rfl, fun p hf => hf.resolveField hg⟩
  · exact .pure ⟨rfl, fun p hf => hf⟩
  · exact .throw trivial

theorem marks_settled {told : String → Bool} {fs gs : List Draft.Field}
    (hfs : List.Forall₂ (MarksField told) ps fs)
    (hgs : List.Forall₂ (fun f g => ∀ p, MarksField told p f → MarksField told p g) fs gs) :
    List.Forall₂ (MarksField told) ps gs := by
  induction hfs generalizing gs with
  | nil =>
      cases hgs
      exact .nil
  | cons hf _ ih =>
      cases hgs with
      | cons hg hgs => exact .cons (hg _ hf) (ih hgs)

theorem record_marks {told : String → Bool} {name : String} {fs : List Draft.Field}
    (hnames : (ps.map (Catalog.attributeName ·.name)).Nodup) (hfs : List.Forall₂ (MarksField told) ps fs)
    (c : Compiler) : Gives True (Work.record key name fs) c fun r c' => c' = c ∧ r.name = name ∧
      List.Forall₂ (MarksField told) ps r.fields := by
  unfold Work.record
  split
  · exact .throw trivial
  · refine .bind (.get ?_)
    rw [Draft.foldl_putField_of_names (·.name) hnames hfs]
    have hsettle := Gives.mapM (F := True) (f := Work.settle (c.site.scopeOf none ⟨name, fs, false⟩ key)) (l := fs)
      (I := fun c' => c' = c) (L := fun _ _ => True)
      (R := fun _ f g => ∀ p, MarksField told p f → MarksField told p g) (fun _ => trivial)
      (fun _ _ => trivial) (fun _ h => h)
      (fun f _ c' hc => (settle_marks c').mono fun g c'' h => ⟨h.1.trans hc, trivial, h.2⟩) rfl
    refine .bind (hsettle.mono fun gs c' h => ?_)
    obtain ⟨rfl, -, hgs⟩ := h
    have hmarks := marks_settled hfs hgs
    dsimp only
    split
    · exact .pure ⟨rfl, rfl, hmarks⟩
    · exact .pure ⟨rfl, rfl, hmarks⟩
    · exact .throw trivial

theorem fieldsRecord_keeps (hself : Obeys s path self) (hr : s.RecordOf id t key ps)
    (hnames : (ps.map (Catalog.attributeName ·.name)).Nodup) (h : Busy s c) :
    Gives True (Work.fieldsRecord self t key ps) c fun d c' =>
      Busy s c' ∧ Retains s c c' ∧ d = .record key := by
  have hfields := Gives.mapM (F := True) (f := Work.field self t.id) (l := ps) (I := Busy s) (L := Retains s)
    (R := fun _ p f => MarksField (s.tellsApart t.id) p f) .refl .trans (fun _ h => h)
    (fun p _ c h => field_marks hself t.id p h) h
  unfold Work.fieldsRecord
  refine .bind (hfields.mono fun fs c₁ h₁ => ?_)
  obtain ⟨h₁, hretains, hfs⟩ := h₁
  rw [Spec.typeEntry?_id hr.entry] at hfs
  refine .bind ((record_marks hnames hfs c₁).mono fun r c₂ h₂ => ?_)
  obtain ⟨rfl, hname, hgs⟩ := h₂
  have hkey : s.KeyOf (fun _ => True) key := ⟨id, t, ps, trivial, hr⟩
  have hput := h₁.toKept.putRecord hr hname hgs
  refine .bind (.changed (.pure ⟨⟨?_, (Step.putRecord hkey r).awaits h₁.awaits⟩, hretains.trans (.of_drafts ?_), rfl⟩))
  · split
    · exact hput
    · exact hput.congr rfl rfl rfl
  · split <;> rfl

theorem records_eq {ids : List String} {ks : List Nat} {ds : List Draft}
    (hks : List.Forall₂ s.RecordAt ids ks)
    (hds : List.Forall₂ (fun i d => ∀ k, s.RecordAt i k → d = .record k) ids ds) :
    ds = ks.map .record := by
  induction hks generalizing ds with
  | nil =>
      cases hds
      rfl
  | cons hr _ ih =>
      cases hds with
      | cons hd hds => rw [hd _ hr, ih hds, List.map_cons]

theorem supertype_keeps (hself : Obeys s path self) (id : String) (ids : List String) (h : Busy s c) :
    Gives True (Work.supertype self id ids) c fun d c' => Busy s c' ∧ Retains s c c' ∧ ids ≠ [] ∧
      ∀ ks, List.Forall₂ s.RecordAt ids ks → (∀ i ∈ ids, i ∉ path) →
        d = ofSubtypes id (s.discriminant? id) (ks.map .record) ∧
          ∀ i ∈ ids, ∀ k, s.RecordAt i k → c'.draft? i = some (.record k) := by
  have hmembers := Gives.mapM (F := True) (f := self) (l := ids) (I := Busy s) (L := Retains s)
    (R := fun c i d => i ∉ path → ∀ k, s.RecordAt i k → d = .record k ∧ c.draft? i = some d) .refl .trans
    (fun hle hd hi k hr => ⟨(hd hi k hr).1, hle.final ((hd hi k hr).1 ▸ .record hr) (hd hi k hr).2⟩)
    (fun i _ c h => hself i c h) h
  unfold Work.supertype
  refine .bind (hmembers.mono fun ds c₁ hds => ?_)
  obtain ⟨h₁, hretains, hds⟩ := hds
  have hgive {c₂ : Compiler} (hle : Retains s c₁ c₂) (ks : List Nat) (hks : List.Forall₂ s.RecordAt ids ks)
      (hpath : ∀ i ∈ ids, i ∉ path) : ds = ks.map .record ∧
        ∀ i ∈ ids, ∀ k, s.RecordAt i k → c₂.draft? i = some (.record k) := by
    refine ⟨?_, fun i hi k hr => ?_⟩
    · have hmembers := (List.forall₂_and_left ids ds).2 ⟨hpath, hds⟩
      exact records_eq hks (hmembers.imp fun i d hd k hr => (hd.2 hd.1 k hr).1)
    · obtain ⟨d, -, hd⟩ := exists_right_of_mem hds hi
      obtain ⟨rfl, hstored⟩ := hd (hpath i hi) k hr
      exact hle.final (.record hr) hstored
  refine deferring_gives (I := Busy s) (L := Retains s) h₁ (.refl c₁)
    (fun _ => ⟨h₁.defer id, .of_drafts (by rw [defer_eq])⟩) fun c₂ h₂ hle _ => ?_
  rcases ds with _ | ⟨d, _ | ⟨e, ds⟩⟩
  · exact .throw trivial
  · refine .pure ⟨h₂, hretains.trans hle, ?_, fun ks hks hpath => ?_⟩
    · rintro rfl
      cases hds
    · rw [← (hgive hle ks hks hpath).1]
      exact ⟨rfl, (hgive hle ks hks hpath).2⟩
  · refine .bind (.get (.pure ⟨h₂, hretains.trans hle, ?_, fun ks hks hpath => ?_⟩))
    · rintro rfl
      cases hds
    · rw [h₂.spec, ← (hgive hle ks hks hpath).1]
      exact ⟨rfl, (hgive hle ks hks hpath).2⟩

def Based (s : Spec) (c : Compiler) (id : String) : Prop :=
  ∀ ids ks, s.ChoiceOf id ids ks → ∀ i ∈ ids, ∀ k, s.RecordAt i k → c.draft? i = some (.record k)

theorem Based.mono (h : Retains s c c') (hid : Based s c id) : Based s c' id :=
  fun ids ks hc i hi k hr => h.final (.record hr) (hid ids ks hc i hi k hr)

theorem based_of_record {k : Nat} (h : s.RecordAt id k) : Based s c id := by
  obtain ⟨t, ps, hr⟩ := h
  exact fun ids ks hc => absurd hc hr.not_choice

def Freed (s : Spec) (path : List String) (id : String) : Prop :=
  ∀ ids ks, s.ChoiceOf id ids ks → ∀ i ∈ ids, i ∉ path

theorem type_keeps_final (apart : s.Apart)
    (hself : Obeys s path self) (he : s.typeEntry? id = some (t, key)) (h : Busy s c) :
    Gives True (Work.type self t key) c fun d c' => Busy s c' ∧ Retains s c c' ∧
      ∀ d', s.Final id d' → Freed s path id → d = d' ∧ Based s c' id := by
  unfold Work.type
  split
  · rename_i hname
    refine .pure ⟨h, .refl c, fun d' hd' _ => ?_⟩
    rcases hd'.entry_cases he with ⟨ps, hr, -⟩ | ⟨ids, ks, -, hne, -, -⟩
    · exact absurd hname hr.name
    · exact absurd hname hne
  · rename_i hname
    split
    · rename_i ids hshape
      rw [Spec.typeEntry?_id he]
      refine (supertype_keeps hself id ids h).mono fun d c' hd => ⟨hd.1, hd.2.1, fun d' hd' hfree => ?_⟩
      rcases hd'.entry_cases he with ⟨ps, hr, -⟩ | ⟨ids', ks, hc, -, hshape', rfl⟩
      · cases hr.shape.symm.trans hshape
      · cases hshape'.symm.trans hshape
        obtain ⟨heq, hmembers⟩ := hd.2.2.2 _ hc.keys (hfree ids _ hc)
        refine ⟨heq, fun ids' ks' hc' => ?_⟩
        obtain ⟨u, k, hu, -, hshape''⟩ := hc'.entry
        cases hu.symm.trans he
        cases hshape''.symm.trans hshape
        exact hmembers
    · rename_i hshape
      refine .pure ⟨h, .refl c, fun d' hd' _ => ?_⟩
      rcases hd'.entry_cases he with ⟨ps, hr, -⟩ | ⟨ids, ks, -, -, hshape', -⟩
      · cases hr.shape.symm.trans hshape
        exact absurd rfl hr.nonempty
      · cases hshape'.symm.trans hshape
    · rename_i ps hempty hshape
      have hr : s.RecordOf id t key ps := ⟨he, hname, hshape, hempty⟩
      refine (fieldsRecord_keeps hself hr (hr.apart apart) h).mono fun d c' hd => ⟨hd.1, hd.2.1, fun d' hd' _ => ?_⟩
      rcases hd'.entry_cases he with ⟨ps', hr', rfl⟩ | ⟨ids, ks, hc, -, -, -⟩
      · exact ⟨hd.2.2, based_of_record ⟨t, ps', hr'⟩⟩
      · exact absurd hc hr.not_choice

theorem Busy.store {d : Draft} (h : Busy s c) (he : s.typeEntry? id = some (t, key))
    (hd : ∀ {k}, s.RecordAt id k → d = .record k) : Busy s (c.store t d) where
  toKept := h.toKept.store he hd
  awaits := h.awaits

theorem freed_of_record {k : Nat} (h : s.RecordAt id k) : Freed s path id := by
  obtain ⟨t, ps, hr⟩ := h
  exact fun ids ks hc => absurd hc hr.not_choice

-- What drafting a type outside the path comes to: a supertype has to be new for its members to be seen.
structure Obtained (s : Spec) (path : List String) (c : Compiler) (id : String) (d : Draft) (c' : Compiler) :
    Prop where
  busy : Busy s c'
  retains : Retains s c c'
  stored : id ∉ path → c'.draft? id = some d
  record : ∀ {k}, id ∉ path → s.RecordAt id k → d = .record k
  choice : ∀ {ids ks}, id ∉ path → c.draft? id = none → Freed s (id :: path) id → s.ChoiceOf id ids ks →
    d = ofSubtypes id (s.discriminant? id) (ks.map .record) ∧ Based s c' id

theorem obeys_of_obtained (h : ∀ i c, Busy s c → Gives True (self i) c (Obtained s path c i)) :
    Obeys s path self := by
  intro i c hc
  refine (h i c hc).mono fun d c' hd => ⟨hd.busy, hd.retains, fun hi k hr => ?_⟩
  exact ⟨hd.record hi hr, hd.stored hi⟩

theorem obtain_final (apart : s.Apart) (n : Nat) (path : List String) (id : String) (h : Busy s c) :
    Gives True (Work.obtain n path id) c (Obtained s path c id) := by
  induction n generalizing path id c with
  | zero => exact .throw trivial
  | succ n ih =>
      refine .bind (.get ?_)
      cases hd : c.draft? id with
      | some d =>
          refine .pure ⟨h, .refl c, fun _ => hd, fun _ hr => h.draft hr hd, fun _ hnew => ?_⟩
          cases hd.symm.trans hnew
      | none =>
          rw [h.spec]
          cases he : s.typeEntry? id with
          | none => exact .throw trivial
          | some e =>
              obtain ⟨t, key⟩ := e
              have hid : t.id = id := Spec.typeEntry?_id he
              dsimp only
              split
              · rename_i hin
                have hmem : id ∈ path := by simpa using hin
                unfold Work.reference
                split
                · exact .pure ⟨h, .refl c, fun hnot => absurd hmem hnot, fun hnot => absurd hmem hnot,
                    fun hnot => absurd hmem hnot⟩
                · exact .throw trivial
              · have hself : Obeys s (id :: path) (Work.obtain n (id :: path)) :=
                  obeys_of_obtained fun i c hc => ih (id :: path) i hc
                refine .bind ((type_keeps_final apart hself he h).mono fun d c₁ h₁ => ?_)
                obtain ⟨h₁, hretains, hfinal⟩ := h₁
                have hrecord {k : Nat} (hr : s.RecordAt id k) : d = .record k :=
                  (hfinal _ (.record hr) (freed_of_record hr)).1
                refine .bind (.changed (.pure ⟨h₁.store he hrecord, ⟨fun {i e} he' hi => ?_⟩,
                  fun _ => by simp [draft?_store, hid], fun _ hr => hrecord hr, fun {ids ks} _ _ hfree hc => ?_⟩))
                · rw [draft?_store, hid]
                  split
                  · rename_i heq
                    rw [← beq_iff_eq.1 heq, hd] at hi
                    cases hi
                  · exact hretains.final he' hi
                · obtain ⟨heq, hbased⟩ := hfinal _ (.choice hc) hfree
                  refine ⟨heq, fun ids' ks' hc' i hi k hr => ?_⟩
                  have hne : id ≠ i := by
                    rintro rfl
                    obtain ⟨u, ps, hr⟩ := hr
                    exact hr.not_choice hc
                  rw [draft?_store, hid, if_neg (by simpa using hne)]
                  exact hbased ids' ks' hc' i hi k hr

theorem obtain_obeys (apart : s.Apart) (n : Nat) (path : List String) : Obeys s path (Work.obtain n path) :=
  obeys_of_obtained fun i _ hc => obtain_final apart n path i hc

theorem redraft_keeps_final (hself : Obeys s [] self) (h : Busy s c) (id : String) :
    Gives True (Work.redraft self id) c fun _ c' => Busy s c' ∧ Retains s c c' := by
  refine .bind (.get ?_)
  rw [h.spec]
  cases he : s.typeEntry? id with
  | none => exact .pure ⟨h, .refl c⟩
  | some e =>
      obtain ⟨t, key⟩ := e
      have hid : t.id = id := Spec.typeEntry?_id he
      refine .bind ((supertype_keeps hself id (t.subtypes?.getD []) h).mono fun d c₁ h₁ => .changed ?_)
      obtain ⟨h₁, hretains, hmembers, hd⟩ := h₁
      have hfinal {d'} (hd' : s.Final id d') : d = d' := by
        rcases hd'.entry_cases he with ⟨ps, hr, -⟩ | ⟨ids, ks, hc, -, hshape, rfl⟩
        · simp [ApiType.subtypes?, hr.shape] at hmembers
        · rw [ApiType.subtypes?, hshape] at hd
          exact (hd _ hc.keys (by simp)).1
      refine ⟨h₁.store he fun hr => hfinal (.record hr), ⟨fun {i e} he' hi => ?_⟩⟩
      rw [draft?_store, hid]
      split
      · rename_i heq
        obtain rfl := beq_iff_eq.1 heq
        rw [hfinal he']
      · exact hretains.final he' hi

theorem finish_keeps_final (h : Kept s c) (key : Nat) : Gives True (Work.finish key) c fun _ c' =>
    Kept s c' ∧ Finishes c c' ∧ ¬ c'.Open key := by
  have hraise (c : Compiler) (name : String) (o : Draft.Obstacle) {Q : PUnit → Compiler → Prop} :
      Gives True (Work.finish.raise name o) c Q := by
    cases o <;> exact .throw trivial
  refine .bind (.get ?_)
  split
  · rename_i hnone
    exact .pure ⟨h, .refl c, not_open fun r hr => by cases hnone.symm.trans hr⟩
  · rename_i r hrecord
    split
    · rename_i hdone
      refine .pure ⟨h, .refl c, not_open fun r' hr' => ?_⟩
      cases hrecord.symm.trans hr'
      exact hdone
    · rename_i hopen
      have hfalse : r.complete = false := by simpa using hopen
      split
      · exact hraise _ _ _
      · rename_i fields hfields
        obtain ⟨id, t, ps, hr, hname, hfs⟩ := h.record hrecord
        rw [Site.fieldsOf, if_neg hopen] at hfields
        have hgs := marks_resolved hfs hfields
        refine .bind (.set ?_)
        split
        · exact hraise _ _ _
        · have hput : Kept s (c.putRecord key { r with fields }) := h.putRecord hr hname hgs
          have hstill : (c.putRecord key { r with fields }).Open key :=
            ⟨{ r with fields }, by simp [record?_putRecord], hfalse⟩
          exact .changed ⟨hput.putRecord hr hname hgs, .trans (.putRecord ⟨r, hrecord, hfalse⟩) (.putRecord hstill),
            not_open_putRecord rfl⟩

theorem complete_keeps_final (hself : Obeys s [] self) (h : Busy s c) :
    Gives True (Work.complete self) c fun _ c' =>
      Kept s c' ∧ Retains s c c' ∧ ∀ k, ¬ c'.Open k := by
  have hredraft := Gives.forM (F := True) (f := Work.redraft self) (l := c.deferredInOrder)
    (I := Busy s) (L := Retains s) (R := fun _ _ => True) .refl .trans (fun _ _ => trivial)
    (fun i _ c h => (redraft_keeps_final hself h i).mono fun _ _ h' => ⟨h'.1, h'.2, trivial⟩) h
  unfold Work.complete
  refine .bind (.get (.bind (hredraft.mono fun _ c₁ h₁ => ?_)))
  obtain ⟨h₁, hretains, -⟩ := h₁
  refine .bind (.changed (.bind (.get (.bind (.changed ?_)))))
  have hcleared : Kept s { c₁ with deferred := [], pending := [] } := h₁.toKept.congr rfl rfl rfl
  have hfinish := Gives.forM (F := True) (f := Work.finish) (l := c₁.pending) (I := Kept s)
    (L := Finishes) (R := fun c k => ¬ c.Open k) .refl .trans
    (fun hle hk hopen => hk (hle.opens hopen)) (fun k _ c h => finish_keeps_final h k) hcleared
  refine hfinish.mono fun _ c₂ h₂ => ⟨h₂.1, hretains.trans (.of_drafts h₂.2.1.drafts), fun k hk => ?_⟩
  exact h₂.2.2 k (h₁.awaits (h₂.2.1.opens hk)) hk

theorem settled_final (apart : s.Apart)
    (n : Nat) : Obeys s [] (Work.settled n) := by
  induction n with
  | zero =>
      intro i c hc
      refine .bind (.bind (.get (.pure ?_)))
      exact obtain_obeys apart _ [] i c hc
  | succ n ih =>
      intro i c hc
      refine .bind (.get ?_)
      cases hd : c.draft? i with
      | some d => exact .pure ⟨hc, .refl c, fun _ k hr => ⟨hc.draft hr hd, hd⟩⟩
      | none =>
          refine .bind (.bind (.get (.pure ?_)))
          refine .bind ((obtain_obeys apart _ [] i c hc).mono fun d c₁ h₁ => ?_)
          obtain ⟨h₁, hretains, hrecord⟩ := h₁
          refine .bind ((complete_keeps_final ih h₁).mono fun _ c₂ h₂ => ?_)
          obtain ⟨h₂, hretains', hclosed⟩ := h₂
          refine .bind (.get (.pure ⟨⟨h₂, fun hk => absurd hk (hclosed _)⟩, hretains.trans hretains', fun hi k hr => ?_⟩))
          obtain ⟨rfl, hstored⟩ := hrecord hi k hr
          have hlater := hretains'.final (.record hr) hstored
          simp [hlater]

theorem draft_choice (apart : s.Apart) {ids : List String} {ks : List Nat} (hc : s.ChoiceOf id ids ks) :
    Gives True (Work.draft id) (.new s) fun d c => Kept s c ∧ (∀ k, ¬ c.Open k) ∧
      d = ofSubtypes id (s.discriminant? id) (ks.map .record) ∧ c.draft? id = some d ∧ Based s c id := by
  have hbusy : Busy s (.new s) := ⟨.new s, fun ⟨r, hr, _⟩ => by cases hr⟩
  have hfree : Freed s [id] id := fun ids' ks' hc' i hi hmem => by
    obtain rfl := List.mem_singleton.1 hmem
    obtain ⟨k, -, t, ps, hr⟩ := exists_right_of_mem hc'.keys hi
    exact hr.not_choice hc
  refine .bind (.bind (.get (.pure ?_)))
  refine .bind (.get ?_)
  refine .bind (.bind (.get (.pure ?_)))
  refine .bind ((obtain_final apart _ [] id hbusy).mono fun d c₁ h₁ => ?_)
  obtain ⟨rfl, hbased⟩ := h₁.choice (by simp) rfl hfree hc
  refine .bind ((complete_keeps_final (settled_final apart _) h₁.busy).mono fun _ c₂ h₂ => ?_)
  obtain ⟨h₂, hretains, hclosed⟩ := h₂
  have hstored := hretains.final (.choice hc) (h₁.stored (by simp))
  refine .bind (.get (.pure ⟨h₂, hclosed, ?_, ?_, hbased.mono hretains⟩))
  · rw [hstored, Option.getD_some]
  · rw [hstored, Option.getD_some]

end Compiler

end BotApi
