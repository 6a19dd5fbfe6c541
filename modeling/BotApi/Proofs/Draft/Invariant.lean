import BotApi.Proofs.Draft.Resolve
import BotApi.Proofs.Draft.Work
import BotApi.Proofs.Draft.Visit
import Mathlib.Data.List.Forall2
/-!
What is true of a compiler at any time, of the types of a sound set: what is drafted of them stands for
what it should, with names left only for types that are drafted or being drafted.
-/

namespace BotApi

open Draft (Scope subst leaves named record literal)

namespace Compiler

def Stored (c : Compiler) (id : String) : Prop := (c.draft? id).isSome = true

def Known (path : List String) (c : Compiler) (id : String) : Prop := c.Stored id ∨ id ∈ path

def Holds (c : Compiler) (key : Nat) : Prop := (c.site.record? key).isSome = true

theorem stored_of_draft? {c : Compiler} {id : String} {d : Draft} (h : c.draft? id = some d) :
    c.Stored id := by
  rw [Stored, h]
  rfl

theorem Stored.draft? {c : Compiler} {id : String} (h : c.Stored id) : ∃ d, c.draft? id = some d :=
  Option.isSome_iff_exists.1 h

theorem Known.stored {c : Compiler} {id : String} (h : Known [] c id) : c.Stored id :=
  h.elim (fun h => h) fun h => by cases h

structure Grows (good : String → Prop) (path : List String) (c : Compiler) (path' : List String)
    (c' : Compiler) : Prop where
  known : ∀ {id}, good id → Known path c id → Known path' c' id
  holds : ∀ {key}, c.Holds key → c'.Holds key

section

variable (s : Spec) (good : String → Prop) (path : List String) (c : Compiler)

-- A draft that stands for another one, with every name and record in it accounted for.
structure Fits (d ideal : Draft) : Prop where
  subst : subst s.meaning d = ideal
  tidy : Draft.subst named d = d
  names : ∀ {n}, named n ∈ d.leaves → ∃ i, s.Bears good i n ∧ Known path c i
  keys : ∀ {k}, record k ∈ d.leaves → s.KeyOf good k ∧ c.Holds k
  plain : ∀ text, literal text ∉ d.leaves

structure FitsField (f ideal : Draft.Field) : Prop where
  name : f.name = ideal.name
  wire : f.wire = ideal.wire
  required : f.required = ideal.required
  draft : (∃ text, f.draft = .literal text ∧ ideal.draft = .literal text) ∨
    Fits s good path c f.draft ideal.draft

structure FitsRecord (t : ApiType) (key : Nat) (r : Draft.Record) : Prop where
  name : r.name = t.name
  fields : List.Forall₂ (FitsField s good path c) r.fields (s.idealFields t)
  complete : r.complete = true →
    r.fields = s.idealFields t ∧ ∃ rs, s.blueprint.recordsFrom key = .ok rs

structure Inv : Prop where
  spec : c.spec = s
  entry : ∀ {id}, c.Stored id → ∃ t key, s.typeEntry? id = some (t, key)
  stored : ∀ {id d}, good id → c.draft? id = some d → Fits s good path c d (s.ideal id)
  lower : ∀ {id d n}, good id → c.draft? id = some d → named n ∈ d.leaves →
    ∃ i, s.Bears good i n ∧ s.rank i < s.rank id
  names : ∀ {id t key}, good id → s.typeEntry? id = some (t, key) →
    Scope.get? c.names t.name = c.draft? id
  record : ∀ {id t key ps r}, good id → s.RecordOf id t key ps → c.site.record? key = some r →
    FitsRecord s good path c t key r
  held : ∀ {id t key ps}, good id → s.RecordOf id t key ps → c.Stored id → c.Holds key
  formed : ∀ {id}, good id → c.Stored id → s.Formed id
  refs : ∀ {id i}, good id → c.Stored id → s.Follows id i → Known path c i
  deferred : ∀ {id}, id ∈ c.deferred → good id → Known path c id ∧ s.below id ≠ []

structure Ready (id : String) (d : Draft) : Prop where
  fits : Fits s good path c d (s.ideal id)
  lower : ∀ {n}, named n ∈ d.leaves → ∃ i, s.Bears good i n ∧ s.rank i < s.rank id
  held : ∀ {t key ps}, s.RecordOf id t key ps → c.Holds key
  formed : s.Formed id
  refs : ∀ {i}, s.Follows id i → Known path c i

end

variable {s : Spec} {good : String → Prop} {path path' : List String} {c c' : Compiler}

namespace Grows

theorem of_stored (hstored : ∀ {id}, c.Stored id → c'.Stored id)
    (hholds : ∀ {key}, c.Holds key → c'.Holds key) : Grows good path c path c' :=
  ⟨fun _ h => h.imp_left hstored, hholds⟩

theorem of_path (h : ∀ {id}, good id → id ∈ path → Known path' c id) : Grows good path c path' c :=
  ⟨fun hg hid => hid.elim .inl (h hg), fun h => h⟩

end Grows

theorem Fits.mono (h : Grows good path c path' c') {d ideal : Draft}
    (hd : Fits s good path c d ideal) : Fits s good path' c' d ideal where
  subst := hd.subst
  tidy := hd.tidy
  names hn := by
    obtain ⟨i, hi, hknown⟩ := hd.names hn
    exact ⟨i, hi, h.known hi.good hknown⟩
  keys hk := ⟨(hd.keys hk).1, h.holds (hd.keys hk).2⟩
  plain := hd.plain

theorem FitsField.mono (h : Grows good path c path' c') {f ideal : Draft.Field}
    (hf : FitsField s good path c f ideal) : FitsField s good path' c' f ideal :=
  ⟨hf.name, hf.wire, hf.required, hf.draft.imp_right (Fits.mono h)⟩

theorem FitsRecord.mono (h : Grows good path c path' c') {t : ApiType} {key : Nat}
    {r : Draft.Record} (hr : FitsRecord s good path c t key r) :
    FitsRecord s good path' c' t key r :=
  ⟨hr.name, hr.fields.imp fun _ _ hf => hf.mono h, hr.complete⟩

theorem Ready.mono (sound : s.Sound good) (h : Grows good path c path' c') {id : String}
    {d : Draft} (hg : good id) (hd : Ready s good path c id d) : Ready s good path' c' id d where
  fits := hd.fits.mono h
  lower := hd.lower
  held hr := h.holds (hd.held hr)
  formed := hd.formed
  refs hi := h.known (sound.closed hg hi) (hd.refs hi)

namespace Inv

theorem of_new : Inv s good [] (.new s) where
  spec := rfl
  entry h := by cases h
  stored _ h := by cases h
  lower _ h := by cases h
  names _ _ := rfl
  record _ _ h := by cases h
  held _ _ h := by cases h
  formed _ h := by cases h
  refs _ h := by cases h
  deferred h := by cases h

variable {id : String} {t : ApiType} {key : Nat} {ps : List Param} {d : Draft} {r : Draft.Record}

theorem congr (inv : Inv s good path c) (hspec : c'.spec = c.spec) (hdrafts : c'.drafts = c.drafts)
    (hnames : c'.names = c.names) (hrecords : c'.records = c.records)
    (hdeferred : ∀ {id}, id ∈ c'.deferred → good id →
      id ∈ c.deferred ∨ Known path c id ∧ s.below id ≠ []) : Inv s good path c' := by
  have hdraft (id : String) : c'.draft? id = c.draft? id := by simp only [draft?, hdrafts]
  have hstored (id : String) : c'.Stored id ↔ c.Stored id := by simp only [Stored, hdraft]
  have hrecord (k : Nat) : c'.site.record? k = c.site.record? k := by
    simp only [site, Draft.Site.record?, hrecords]
  have hholds (k : Nat) : c'.Holds k ↔ c.Holds k := by simp only [Holds, hrecord]
  have hgrows : Grows good path c path c' := .of_stored (hstored _).2 (hholds _).2
  exact {
    spec := hspec.trans inv.spec
    entry := fun h => inv.entry ((hstored _).1 h)
    stored := fun hg h => (inv.stored hg (hdraft _ ▸ h)).mono hgrows
    lower := fun hg h => inv.lower hg (hdraft _ ▸ h)
    names := fun hg he => by rw [hnames, hdraft, inv.names hg he]
    record := fun hg hr h => (inv.record hg hr (hrecord _ ▸ h)).mono hgrows
    held := fun hg hr h => (hholds _).2 (inv.held hg hr ((hstored _).1 h))
    formed := fun hg h => inv.formed hg ((hstored _).1 h)
    refs := fun hg h hi => (inv.refs hg ((hstored _).1 h) hi).imp_left (hstored _).2
    deferred := fun h hg => by
      obtain ⟨hknown, hbelow⟩ := (hdeferred h hg).elim (fun h => inv.deferred h hg) fun h => h
      exact ⟨hgrows.known hg hknown, hbelow⟩ }

theorem defer (inv : Inv s good path c) (h : good id → Known path c id ∧ s.below id ≠ []) :
    Inv s good path (c.defer id) := by
  rw [defer_eq]
  refine inv.congr rfl rfl rfl rfl fun {i} hi hg => ?_
  rcases c.mem_deferred_defer.1 hi with hi | rfl
  · exact .inl hi
  · exact .inr (h hg)

theorem of_path (inv : Inv s good path c) (sound : s.Sound good)
    (h : Grows good path c path' c) : Inv s good path' c where
  spec := inv.spec
  entry := inv.entry
  stored hg hd := (inv.stored hg hd).mono h
  lower := inv.lower
  names := inv.names
  record hg hr hk := (inv.record hg hr hk).mono h
  held := inv.held
  formed := inv.formed
  refs hg hid hi := h.known (sound.closed hg hi) (inv.refs hg hid hi)
  deferred hid hg := ⟨h.known hg (inv.deferred hid hg).1, (inv.deferred hid hg).2⟩

theorem enter (inv : Inv s good path c) (sound : s.Sound good) (id : String) :
    Inv s good (id :: path) c :=
  inv.of_path sound (.of_path fun _ h => .inr (List.mem_cons_of_mem id h))

theorem holds_putRecord {k : Nat} (h : c.Holds k) : (c.putRecord key r).Holds k := by
  unfold Holds at h ⊢
  rw [record?_putRecord]
  split
  · rfl
  · exact h

theorem grows_putRecord : Grows good path c path (c.putRecord key r) :=
  .of_stored (fun h => h) holds_putRecord

theorem putRecord (inv : Inv s good path c)
    (h : ∀ {id t ps}, good id → s.RecordOf id t key ps →
      FitsRecord s good path (c.putRecord key r) t key r) :
    Inv s good path (c.putRecord key r) where
  spec := inv.spec
  entry := inv.entry
  stored hg hd := (inv.stored hg hd).mono grows_putRecord
  lower := inv.lower
  names := inv.names
  record {id t k ps r'} hg hr hk := by
    rcases c.record?_putRecord_cases hk with ⟨rfl, rfl⟩ | hk
    · exact h hg hr
    · exact (inv.record hg hr hk).mono grows_putRecord
  held hg hr hid := holds_putRecord (inv.held hg hr hid)
  formed := inv.formed
  refs := inv.refs
  deferred := inv.deferred

theorem stored_store {i : String} : (c.store t d).Stored i ↔ t.id = i ∨ c.Stored i := by
  unfold Stored
  rw [draft?_store]
  by_cases h : t.id = i <;> simp [h]

theorem grows_store (he : s.typeEntry? id = some (t, key)) :
    Grows good (id :: path) c path (c.store t d) where
  known {i} _ h := by
    rcases h with h | h
    · exact .inl (stored_store.2 (.inr h))
    · rcases List.mem_cons.1 h with rfl | h
      · exact .inl (stored_store.2 (.inl (Spec.typeEntry?_id he)))
      · exact .inr h
  holds h := h

theorem store (inv : Inv s good (id :: path) c) (sound : s.Sound good)
    (he : s.typeEntry? id = some (t, key))
    (h : good id → Ready s good (id :: path) c id d) : Inv s good path (c.store t d) := by
  have hid : t.id = id := Spec.typeEntry?_id he
  have hgrows : Grows good (id :: path) c path (c.store t d) := grows_store he
  have hstored {i : String} (hi : (c.store t d).Stored i) : i = id ∨ c.Stored i :=
    (stored_store.1 hi).imp_left fun h => by rw [← h, hid]
  refine ⟨inv.spec, ?_, ?_, ?_, ?_, ?_, ?_, ?_, ?_, ?_⟩
  · intro i hi
    rcases hstored hi with rfl | hi
    · exact ⟨t, key, he⟩
    · exact inv.entry hi
  · intro i e hg hi
    rcases c.draft?_store_cases hid hi with ⟨rfl, rfl⟩ | hi
    · exact (h hg).fits.mono hgrows
    · exact (inv.stored hg hi).mono hgrows
  · intro i e n hg hi hn
    rcases c.draft?_store_cases hid hi with ⟨rfl, rfl⟩ | hi
    · exact (h hg).lower hn
    · exact inv.lower hg hi hn
  · intro i u k hg hu
    rw [get?_store, draft?_store, hid]
    by_cases hname : t.name = u.name
    · have hi : id = i := sound.id_eq_of_name hg hu he hname
      simp [hname, hi]
    · have hi : id ≠ i := by
        rintro rfl
        rw [he] at hu
        cases hu
        exact hname rfl
      simp [hname, hi, inv.names hg hu]
  · intro i u k ps r hg hr hk
    exact (inv.record hg hr hk).mono hgrows
  · intro i u k ps hg hr hi
    rcases hstored hi with rfl | hi
    · exact (h hg).held hr
    · exact inv.held hg hr hi
  · intro i hg hi
    rcases hstored hi with rfl | hi
    · exact (h hg).formed
    · exact inv.formed hg hi
  · intro i j hg hi hj
    refine hgrows.known (sound.closed hg hj) ?_
    rcases hstored hi with rfl | hi
    · exact (h hg).refs hj
    · exact inv.refs hg hi hj
  · intro i hi hg
    obtain ⟨hknown, hbelow⟩ := inv.deferred hi hg
    exact ⟨hgrows.known hg hknown, hbelow⟩

end Inv

end Compiler

end BotApi
