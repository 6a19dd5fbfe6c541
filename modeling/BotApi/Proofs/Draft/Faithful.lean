import BotApi.Proofs.Draft.Documented
import BotApi.Proofs.Draft.History
/-!
However a compiler is used, what it has drafted stays true to the documentation, and so does what it
drafts next.
-/

namespace BotApi

open Draft (Scope Site)
open Compiler (Use)
open Work (Yields Keeps)

namespace Spec

variable {s : Spec} {P : Compiler → Prop} {self : String → Work Draft} {told : String → Bool}
  {scope : Scope} {p : Param} {ps : List Param} {f : Draft.Field} {fs : List Draft.Field}

mutual
theorem annotation_yields (hself : ∀ i, Yields P (s.Offers · (.ref i)) (self i)) :
    ∀ e : TypeExpr, Yields P (s.Offers · e) (Work.annotation self e)
  | .basic n => .pure (.basic n)
  | .ref i => hself i
  | .array e => (annotation_yields hself e).bind fun _ hd => .pure (.array hd)
  | .union es => (annotations_yields hself es).bind fun ds hds => .pure <| .unionOf fun d hd => by
      obtain ⟨e, he, hoffers⟩ := hds d hd
      exact .option he hoffers
theorem annotations_yields (hself : ∀ i, Yields P (s.Offers · (.ref i)) (self i)) :
    ∀ es : List TypeExpr, Yields P (fun ds => ∀ d ∈ ds, ∃ e ∈ es, s.Offers d e)
      (Work.annotations self es)
  | [] => .pure (by simp)
  | e :: es => by
      refine (annotation_yields hself e).bind fun d hd => ?_
      refine (annotations_yields hself es).bind fun ds hds => .pure fun d' hd' => ?_
      rcases List.mem_cons.1 hd' with rfl | hd'
      · exact ⟨e, by simp, hd⟩
      · obtain ⟨e', he', hoffers⟩ := hds d' hd'
        exact ⟨e', by simp [he'], hoffers⟩
end

theorem typed_yields (told : String → Bool) (hself : ∀ i, Yields P (s.Offers · (.ref i)) (self i))
    (h : told p.name = false) : Yields P (s.OffersField told p) (do
      pure (Work.draftField p (← Work.annotation self p.type))) :=
  (annotation_yields hself p.type).bind fun _ hd =>
    .pure ⟨rfl, rfl, rfl, fun ht => absurd (ht.symm.trans h) (by decide), fun _ => hd⟩

theorem field_yields (hspec : ∀ {c}, P c → c.spec = s)
    (hself : ∀ i, Yields P (s.Offers · (.ref i)) (self i)) (id : String) (p : Param) :
    Yields P (s.OffersField (s.tellsApart id) p) (Work.field self id p) := by
  refine .get_bind fun c hc => ?_
  rw [hspec hc]
  split
  · rename_i ht
    exact .pure ⟨rfl, rfl, rfl, fun _ => rfl, fun h => absurd (ht.symm.trans h) (by decide)⟩
  · rename_i ht
    exact typed_yields _ hself (by simpa using ht)

theorem supertype_yields {e : TypeExpr} {id : String} {members : List String}
    (hself : ∀ i, Yields P (s.Offers · (.ref i)) (self i))
    (hdefer : ∀ c, P c → P (c.defer id))
    (hmembers : ∀ {d i}, i ∈ members → s.Offers d (.ref i) → s.Offers d e) :
    Yields P (s.Offers · e) (Work.supertype self id members) := by
  refine (Yields.mapM members hself).bind fun ds hds => ?_
  have hall : ∀ d ∈ ds, s.Offers d e := fun d hd => by
    obtain ⟨i, hi, hoffers⟩ := exists_left_of_mem hds hd
    exact hmembers hi hoffers
  dsimp only
  split
  · refine .keeps_bind (.changed hdefer) fun _ => ?_
    split
    · exact .throw _
    · exact .pure (hall _ (by simp))
    · exact .get_bind fun c _ => .pure (.choiceOf id _ hall)
  · split
    · exact .throw _
    · exact .pure (hall _ (by simp))
    · exact .get_bind fun c _ => .pure (.choiceOf id _ hall)

end Spec

namespace Compiler

structure Documented (s : Spec) (m : Method) (c : Compiler) : Prop where
  spec : c.spec = s
  draft : ∀ {id d}, c.draft? id = some d → s.Offers d (.ref id)
  names : s.Names c.names
  record : ∀ {k r}, c.site.record? k = some r → ∃ id t ps, s.RecordOf id t k ps ∧ r.name = t.name ∧
    List.Forall₂ (s.OffersField (s.tellsApart id)) ps r.fields
  deferred : ∀ {id t k}, id ∈ c.deferred → s.typeEntry? id = some (t, k) → t.name ≠ inputFileName
  params : ∀ e ∈ c.params, e.1 = m.id → e.2.name = Work.paramsName m ∧
    List.Forall₂ (s.OffersField fun _ => false) m.params e.2.fields

namespace Documented

variable {s : Spec} {m : Method} {c : Compiler} {id : String} {t : ApiType} {key : Nat}
  {ps : List Param} {d : Draft} {r : Draft.Record}

theorem new (s : Spec) (m : Method) : Documented s m (.new s) where
  spec := rfl
  draft h := by cases h
  names _ _ h := by cases h
  record h := by cases h
  deferred h := by cases h
  params e h := by cases h

theorem scopeOf (h : Documented s m c) (distinct : s.Distinct) (hr : s.RecordOf id t key ps)
    (hname : r.name = t.name) : s.Names (c.site.scopeOf none r key) := by
  refine h.names.cons ?_
  rw [hname]
  exact distinct.renames hr.entry (.record hr)

theorem store (h : Documented s m c) (distinct : s.Distinct) (he : s.typeEntry? id = some (t, key))
    (hd : s.Offers d (.ref id)) : Documented s m (c.store t d) where
  spec := h.spec
  draft {i d'} hi := by
    rcases c.draft?_store_cases (Spec.typeEntry?_id he) hi with ⟨rfl, rfl⟩ | hi
    · exact hd
    · exact h.draft hi
  names n d' hn := by
    rw [get?_store] at hn
    split at hn
    · rename_i heq
      obtain rfl : t.name = n := by simpa using heq
      cases hn
      exact distinct.renames he hd
    · exact h.names n d' hn
  record hr := h.record hr
  deferred := h.deferred
  params := h.params

theorem putRecord (h : Documented s m c) (hr : s.RecordOf id t key ps) (hname : r.name = t.name)
    (hfs : List.Forall₂ (s.OffersField (s.tellsApart id)) ps r.fields) :
    Documented s m (c.putRecord key r) where
  spec := h.spec
  draft := h.draft
  names := h.names
  record {k r'} hk := by
    rcases c.record?_putRecord_cases hk with ⟨rfl, rfl⟩ | hk
    · exact ⟨id, t, ps, hr, hname, hfs⟩
    · exact h.record hk
  deferred := h.deferred
  params := h.params

theorem defer (h : Documented s m c) (he : s.typeEntry? id = some (t, key))
    (hname : t.name ≠ inputFileName) : Documented s m (c.defer id) := by
  have hdeferred {i : String} {u : ApiType} {k : Nat} (hi : i ∈ (c.defer id).deferred)
      (hu : s.typeEntry? i = some (u, k)) : u.name ≠ inputFileName := by
    rcases (mem_deferred_defer c).1 hi with hi | rfl
    · exact h.deferred hi hu
    · cases he.symm.trans hu
      exact hname
  rw [defer_eq]
  exact ⟨h.spec, h.draft, h.names, h.record, hdeferred, h.params⟩

end Documented

section

variable {s : Spec} {m : Method} {self : String → Work Draft} {id : String} {t : ApiType} {key : Nat}
  {ps : List Param}

theorem fieldsRecord_yields (distinct : s.Distinct)
    (hself : ∀ i, Yields (Documented s m) (s.Offers · (.ref i)) (self i))
    (hr : s.RecordOf id t key ps) :
    Yields (Documented s m) (s.Offers · (.ref id)) (Work.fieldsRecord self t key ps) := by
  refine (Yields.mapM ps fun p => Spec.field_yields (·.spec) hself t.id p).bind fun fs hfs => ?_
  rw [Spec.typeEntry?_id hr.entry] at hfs
  refine (Yields.record (·.name) (fun c hc r hname _ _ _ hf hg => hf.resolveField (hc.scopeOf distinct hr hname) distinct.toNamed hg)
    (hr.attributes distinct) hfs).bind ?_
  rintro r ⟨hname, hgs⟩
  refine .keeps_bind (.changed fun c hc => ?_) fun _ => .pure (.record hr)
  have hput := hc.putRecord hr hname hgs
  dsimp only
  split
  · exact hput
  · exact ⟨hput.spec, hput.draft, hput.names, hput.record, hput.deferred, hput.params⟩

theorem type_yields (distinct : s.Distinct)
    (hself : ∀ i, Yields (Documented s m) (s.Offers · (.ref i)) (self i))
    (he : s.typeEntry? id = some (t, key)) :
    Yields (Documented s m) (s.Offers · (.ref id)) (Work.type self t key) := by
  unfold Work.type
  split
  · rename_i hname
    exact .pure (.file he hname)
  · rename_i hname
    split
    · rename_i ids hshape
      rw [Spec.typeEntry?_id he]
      exact Spec.supertype_yields hself (fun c hc => hc.defer he hname)
        fun hi hd => .subtype he hname hshape hi hd
    · rename_i hshape
      exact .pure (.bare he hname hshape)
    · rename_i ps hempty hshape
      exact fieldsRecord_yields distinct hself ⟨he, hname, hshape, hempty⟩

theorem obtain_yields (distinct : s.Distinct) (n : Nat) (path : List String) (id : String) :
    Yields (Documented s m) (s.Offers · (.ref id)) (Work.obtain n path id) := by
  induction n generalizing path id with
  | zero => exact .throw _
  | succ n ih =>
      refine .get_bind fun c hc => ?_
      split
      · rename_i d hd
        exact .pure (hc.draft hd)
      · rw [hc.spec]
        split
        · exact .throw _
        · rename_i t key he
          split
          · unfold Work.reference
            split
            · exact .pure (.named he)
            · exact .throw _
          · refine (type_yields distinct (ih (id :: path)) he).bind fun d hd => ?_
            exact .keeps_bind (.changed fun c hc => hc.store distinct he hd) fun _ => .pure hd

theorem redraft_keeps_documented (distinct : s.Distinct)
    (hself : ∀ i, Yields (Documented s m) (s.Offers · (.ref i)) (self i))
    (hname : ∀ {t k}, s.typeEntry? id = some (t, k) → t.name ≠ inputFileName) :
    Keeps (Documented s m) (Work.redraft self id) := by
  refine .get_bind fun c hc => ?_
  rw [hc.spec]
  split
  · rename_i t key he
    refine (Spec.supertype_yields (e := .ref id) hself (fun c hc => hc.defer he (hname he)) ?_).bind
      (R := fun _ => True) (fun d hd => ⟨.changed fun c hc => hc.store distinct he hd, by simp⟩) |>.keeps
    intro d i hi hd
    obtain ⟨ids, hshape, hi⟩ : ∃ ids, t.shape = .subtypes ids ∧ i ∈ ids := by
      cases hshape : t.shape with
      | fields fs => simp [ApiType.subtypes?, hshape] at hi
      | subtypes ids => exact ⟨ids, rfl, by simpa [ApiType.subtypes?, hshape] using hi⟩
    exact .subtype he (hname he) hshape hi hd
  · exact .pure _

theorem finish_keeps_documented (distinct : s.Distinct) :
    Keeps (Documented s m) (Work.finish key) := by
  refine .finish fun c r fields hc hrecord hfields c' _ hc' => ?_
  obtain ⟨id, t, ps, hr, hname, hfs⟩ := hc.record hrecord
  refine hc'.putRecord hr hname ?_
  unfold Site.fieldsOf at hfields
  split at hfields
  · cases hfields
    exact hfs
  · exact Spec.offersFields_resolve (hc.scopeOf distinct hr hname) distinct.toNamed hfs hfields

theorem complete_keeps_documented (distinct : s.Distinct)
    (hself : ∀ i, Yields (Documented s m) (s.Offers · (.ref i)) (self i)) :
    Keeps (Documented s m) (Work.complete self) := by
  refine .get_bind fun c hc => ?_
  refine Keeps.bind (.forM _ fun i hi => redraft_keeps_documented distinct hself fun he =>
    hc.deferred (List.mem_mergeSort.1 hi) he) fun _ => ?_
  refine Keeps.bind (.changed fun c hc => ⟨hc.spec, hc.draft, hc.names, hc.record, by simp, hc.params⟩)
    fun _ => ?_
  refine Keeps.get.bind fun c => ?_
  refine Keeps.bind (.changed fun c hc => ⟨hc.spec, hc.draft, hc.names, hc.record, hc.deferred,
    hc.params⟩) fun _ => ?_
  exact .forM _ fun k _ => finish_keeps_documented distinct

theorem obtain_depth_yields (distinct : s.Distinct) (id : String) :
    Yields (Documented s m) (s.Offers · (.ref id)) (do Work.obtain (← Work.depth) [] id) :=
  .keeps_bind (.bind .get fun _ => .pure _) fun n => obtain_yields distinct n [] id

theorem settled_yields (distinct : s.Distinct) (n : Nat) (id : String) :
    Yields (Documented s m) (s.Offers · (.ref id)) (Work.settled n id) := by
  induction n generalizing id with
  | zero => exact obtain_depth_yields distinct id
  | succ n ih =>
      refine .get_bind fun c hc => ?_
      split
      · rename_i d hd
        exact .pure (hc.draft hd)
      · refine .keeps_bind (.bind .get fun _ => .pure _) fun k => ?_
        refine (obtain_yields distinct k [] id).bind fun d hd => ?_
        refine .keeps_bind (complete_keeps_documented distinct ih) fun _ => ?_
        refine .get_bind fun c hc => .pure ?_
        cases hdraft : c.draft? id with
        | none => exact hd
        | some d' => exact hc.draft hdraft

theorem draft_yields (distinct : s.Distinct) (id : String) :
    Yields (Documented s m) (s.Offers · (.ref id)) (Work.draft id) :=
  .keeps_bind (.bind .get fun _ => .pure _) fun n => settled_yields distinct n id

-- The record of the parameters cannot be taken for a type, nor one of its fields for another.
structure Takeable (s : Spec) (m : Method) : Prop where
  name : ∀ t ∈ s.types, t.name ≠ Work.paramsName m
  attributes : (m.params.map (Catalog.attributeName ·.name)).Nodup

theorem paramsRecord_yields (distinct : s.Distinct) (hm : Takeable s m) :
    Yields (Documented s m) (fun r => r.name = Work.paramsName m ∧
      List.Forall₂ (s.OffersField fun _ => false) m.params r.fields) (Work.paramsRecord m) := by
  refine .get_bind fun c hc => ?_
  split
  · rename_i e r hfound
    have hid : e = m.id := by simpa using List.find?_some hfound
    exact .pure (hc.params _ (List.mem_of_find?_eq_some hfound) hid)
  · refine (Yields.mapM m.params fun p =>
      Spec.typed_yields (fun _ => false) (draft_yields distinct) rfl).bind fun fs hfs => ?_
    refine .keeps_bind (.bind .get fun _ => .pure _) fun key => ?_
    have hscope (c : Compiler) (hc : Documented s m c) (r : Draft.Record) (hname : r.name = Work.paramsName m) :
        s.Names (c.site.scopeOf none r key) := by
      refine hc.names.cons fun e he => ?_
      obtain ⟨t, ht, hbears⟩ := he.bearer
      exact absurd (hbears.trans hname) (hm.name t ht)
    refine (Yields.record (·.name) (fun c hc r hname _ _ _ hf hg => hf.resolveField (hscope c hc r hname) distinct.toNamed hg)
      hm.attributes hfs).bind fun r hr => ?_
    refine .keeps_bind (.changed fun c hc => ?_) fun _ => .pure hr
    refine ⟨hc.spec, hc.draft, hc.names, hc.record, hc.deferred, fun e he hid => ?_⟩
    rcases List.mem_append.1 he with he | he
    · exact hc.params e he hid
    · obtain rfl : e = (m.id, r) := by simpa using he
      exact hr

theorem paramsRecord_keeps_documented (distinct : s.Distinct) (hm : Takeable s m) {m' : Method}
    (h : m'.id = m.id → m' = m) : Keeps (Documented s m) (Work.paramsRecord m') := by
  by_cases hid : m'.id = m.id
  · rw [h hid]
    exact (paramsRecord_yields distinct hm).keeps
  · refine .paramsRecord (fun i => (draft_yields distinct i).keeps) fun c r hc => ?_
    refine ⟨hc.spec, hc.draft, hc.names, hc.record, hc.deferred, fun e he hid' => ?_⟩
    rcases List.mem_append.1 he with he | he
    · exact hc.params e he hid'
    · obtain rfl : e = (m'.id, r) := by simpa using he
      exact absurd hid' hid

end

def Use.Spares (s : Spec) (m : Method) : Use → Prop
  | .record m' | .params m' _ => m'.id = m.id → m' = m
  | .everything => ∀ m' ∈ s.methods, m'.id = m.id → m' = m
  | .draft _ | .check _ _ | .checkExpr _ _ => True

theorem Use.Spares.eq_of_concerns {s : Spec} {m m' : Method} {u : Use} (h : u.Spares s m) (hm' : u.Concerns s m') :
    m'.id = m.id → m' = m := by
  cases u with
  | record m₁ | params m₁ ps =>
      obtain rfl : m' = m₁ := hm'
      exact h
  | everything => exact h m' hm'
  | draft id | check id v | checkExpr e v => cases hm'

theorem documented_after {s : Spec} {m : Method} (distinct : s.Distinct) (hm : Takeable s m) (us : List Use)
    (hus : ∀ u ∈ us, u.Spares s m) : Documented s m ((Compiler.new s).after us) :=
  after_keeps (fun u hu => Use.keeps (fun _ hc => hc.spec) (fun i => (draft_yields distinct i).keeps)
    fun _ hm' => paramsRecord_keeps_documented distinct hm ((hus u hu).eq_of_concerns hm')) (.new s m)

end Compiler

end BotApi
