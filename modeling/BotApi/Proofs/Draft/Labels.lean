import BotApi.Proofs.Draft.Filed
/-!
What the fields of a record are called. As long as the attributes of a type are told apart, each of its documented
fields has a field in the record, which keeps its name on the wire and whether it is required; nothing
that a compiler does later changes that.
-/

namespace BotApi

open Draft (Site FieldOf)
open Work (Yields Keeps)

namespace Draft

variable {p : Param} {ps : List Param} {f g : Field} {fs : List Field}

theorem FieldOf.resolveField {scope : Scope} (hf : FieldOf p f) (h : Site.resolveField scope f = .ok g) :
    FieldOf p g := by
  obtain ⟨d, -, rfl⟩ := Site.resolveField_eq_ok h
  exact hf.of_draft d

theorem Site.fieldsOf_labels {site : Site} {origin : Option Origin} {r : Record} {key : Nat}
    (hr : List.Forall₂ FieldOf ps r.fields) (h : site.fieldsOf origin r key = .ok fs) : List.Forall₂ FieldOf ps fs :=
  forall₂_fieldsOf FieldOf.resolveField hr h

end Draft

theorem Work.field_yields {P : Compiler → Prop} {self : String → Work Draft} (hself : ∀ i, Keeps P (self i))
    (id : String) (p : Param) : Yields P (FieldOf p) (Work.field self id p) := by
  refine .get_bind fun c hc => ?_
  split
  · exact .pure ⟨rfl, rfl, rfl⟩
  · exact .keeps_bind (.ofExpr hself p.type) fun _ => .pure ⟨rfl, rfl, rfl⟩

namespace Compiler

structure Marked (s : Spec) (id : String) (key : Nat) (ps : List Param) (c : Compiler) : Prop where
  spec : c.spec = s
  draft : ∀ {d}, c.draft? id = some d → d = .record key
  record : ∀ {r}, c.site.record? key = some r → List.Forall₂ FieldOf ps r.fields
  deferred : id ∉ c.deferred

namespace Marked

variable {s : Spec} {id i : String} {t : ApiType} {key k : Nat} {ps : List Param} {c : Compiler} {d : Draft}
  {r : Draft.Record}

theorem new (s : Spec) (id : String) (key : Nat) (ps : List Param) : Marked s id key ps (.new s) where
  spec := rfl
  draft h := by cases h
  record h := by cases h
  deferred h := by cases h

theorem store (h : Marked s id key ps c) (he : s.typeEntry? i = some (t, k)) (hd : i = id → d = .record key) :
    Marked s id key ps (c.store t d) where
  spec := h.spec
  draft hstored := by
    rcases c.draft?_store_cases (Spec.typeEntry?_id he) hstored with ⟨hi, rfl⟩ | hstored
    · exact hd hi
    · exact h.draft hstored
  record := h.record
  deferred := h.deferred

theorem defer (h : Marked s id key ps c) (hi : i ≠ id) : Marked s id key ps (c.defer i) := by
  have hdeferred : id ∉ (c.defer i).deferred := fun hmem =>
    ((mem_deferred_defer c).1 hmem).elim h.deferred fun heq => hi heq.symm
  rw [defer_eq]
  exact ⟨h.spec, h.draft, h.record, hdeferred⟩

theorem putRecord (h : Marked s id key ps c)
    (hr : k = key → List.Forall₂ FieldOf ps r.fields) :
    Marked s id key ps (c.putRecord k r) where
  spec := h.spec
  draft := h.draft
  record hput := by
    rcases c.record?_putRecord_cases hput with ⟨hk, rfl⟩ | hput
    · exact hr hk
    · exact h.record hput
  deferred := h.deferred

theorem pending (h : Marked s id key ps c) (ks : List Nat) : Marked s id key ps { c with pending := ks } :=
  ⟨h.spec, h.draft, h.record, h.deferred⟩

end Marked

section

variable {s : Spec} {self : String → Work Draft} {id : String} {t : ApiType} {key : Nat} {ps : List Param}

theorem fieldsRecord_marks (hself : ∀ i, Keeps (Marked s id key ps) (self i))
    (hattributes : (ps.map (Catalog.attributeName ·.name)).Nodup) :
    Yields (Marked s id key ps) (· = .record key) (Work.fieldsRecord self t key ps) := by
  refine (Yields.mapM ps fun p => Work.field_yields hself t.id p).bind fun fs hfs => ?_
  have hrecord : Yields (Marked s id key ps) (fun r => r.name = t.name ∧ List.Forall₂ FieldOf ps r.fields)
      (Work.record key t.name fs) :=
    .record (·.name) (fun _ _ _ _ _ _ _ hf hg => hf.resolveField hg) hattributes hfs
  refine hrecord.bind fun r hfields => ?_
  refine .keeps_bind (.changed fun c hc => ?_) fun _ => .pure rfl
  have hput := hc.putRecord (k := key) fun _ => hfields.2
  dsimp only
  split
  · exact hput
  · exact hput.pending _

theorem upheld_marks (hr : s.RecordOf id t key ps) (hattributes : (ps.map (Catalog.attributeName ·.name)).Nodup) :
    Upheld s (Marked s id key ps) fun i d => i = id → d = .record key where
  spec hc := hc.spec
  known hc hd heq := hc.draft (heq ▸ hd)
  store hc he hd := hc.store he hd
  defer hc hi := hc.defer fun heq => nomatch hi (.literal "") heq
  deferred hc hi _ heq := absurd (heq ▸ hi) hc.deferred
  cleared hc := ⟨hc.spec, hc.draft, hc.record, by simp⟩
  pending _ ks hc := hc.pending ks
  file he hname heq := by
    subst heq
    cases he.symm.trans hr.entry
    exact absurd hname hr.name
  bare he _ hshape heq := by
    subst heq
    cases he.symm.trans hr.entry
    exact absurd (Shape.fields.inj (hr.shape.symm.trans hshape)) hr.nonempty
  supertype he _ hshape _ heq := by
    subst heq
    cases he.symm.trans hr.entry
    cases hr.shape.symm.trans hshape
  record {self i u k qs} hself hu := by
    by_cases heq : i = id
    · subst heq
      cases hu.entry.symm.trans hr.entry
      cases hu.shape.symm.trans hr.shape
      have hyields := fieldsRecord_marks (t := t) hself hattributes
      exact ⟨hyields.keeps, fun hc hrun _ => hyields.result hc hrun⟩
    · have hkey : k ≠ key := by
        rintro rfl
        exact heq (Spec.id_eq_of_key hu.entry hr.entry)
      exact ⟨.fieldsRecord hself qs (fun c r hc => hc.putRecord fun h => absurd h hkey) fun _ ks hc => hc.pending ks,
        fun _ _ h => absurd h heq⟩
  finish k := .finish fun c r fields hc hrecord hfields c' complete hc' => hc'.putRecord fun heq => by
    subst heq
    exact Site.fieldsOf_labels (hc.record hrecord) hfields

theorem marked_after (hr : s.RecordOf id t key ps) (hattributes : (ps.map (Catalog.attributeName ·.name)).Nodup)
    (us : List Use) : Marked s id key ps ((Compiler.new s).after us) := by
  have hupheld := upheld_marks hr hattributes
  refine hupheld.after (fun _ _ m _ => ?_) (.new s id key ps)
  refine .paramsRecord (fun i => (hupheld.draft i).keeps) fun c r hc => ?_
  exact ⟨hc.spec, hc.draft, hc.record, hc.deferred⟩

end

end Compiler

end BotApi
