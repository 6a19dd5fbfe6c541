import BotApi.Proofs.Draft.Upheld
/-!
Parameters that take files. However a compiler is used, a file stays among the options of their drafts, since
the type of files is never one that waits to be drafted.
-/

namespace BotApi

open Compiler (Use)
open Work (Yields Keeps)

namespace Draft

structure FieldOf (p : Param) (f : Field) : Prop where
  name : f.name = Catalog.attributeName p.name
  wire : f.wire = p.name
  required : f.required = p.required

theorem FieldOf.of_draft {p : Param} {f : Field} (h : FieldOf p f) (d : Draft) : FieldOf p { f with draft := d } :=
  ⟨h.name, h.wire, h.required⟩

def HasFile (d : Draft) : Prop := basic .file ∈ d.options

theorem hasFile_file : (basic .file).HasFile := List.mem_singleton_self _

theorem HasFile.unionOf {ds : List Draft} {d : Draft} (hd : d ∈ ds) (h : d.HasFile) : (unionOf ds).HasFile := by
  have hmem : basic .file ∈ distinct (ds.flatMap options) := mem_distinct.2 (List.mem_flatMap.2 ⟨d, hd, h⟩)
  unfold Draft.unionOf
  split
  next o ho =>
    rw [ho, List.mem_singleton] at hmem
    rw [← hmem]
    exact hasFile_file
  next => exact hmem

theorem HasFile.expandWith {expand : String → Except Obstacle Draft} {d d' : Draft} (h : d.HasFile)
    (hd : Draft.expandWith expand d = .ok d') : d'.HasFile := by
  have hfile {e : Draft} (he : basic .file ∈ [e]) : e = basic .file := (List.mem_singleton.1 he).symm
  cases d with
  | union ds =>
      obtain ⟨ds', hds, rfl⟩ := ok_of_map hd
      obtain ⟨e, hmem, he⟩ := exists_right_of_mem (forall₂_expandList hds) (x := basic .file) h
      cases he
      exact .unionOf hmem hasFile_file
  | basic b =>
      cases hd
      exact h
  | literal t =>
      cases hd
      exact h
  | record k =>
      cases hd
      exact h
  | named n => cases hfile h
  | array e => cases hfile h
  | choice i f ds => cases hfile h

theorem HasFile.resolve {scope : Scope} {d d' : Draft} (h : d.HasFile) (hd : scope.resolve d = .ok d') : d'.HasFile :=
  h.expandWith hd

end Draft

namespace Spec

def IsFileType (s : Spec) (id : String) : Prop := ∃ t key, s.typeEntry? id = some (t, key) ∧ t.name = inputFileName

theorem IsFileType.name_eq {s : Spec} {id : String} {t : ApiType} {key : Nat} (h : s.IsFileType id)
    (he : s.typeEntry? id = some (t, key)) : t.name = inputFileName := by
  obtain ⟨t', key', he', hname⟩ := h
  cases he.symm.trans he'
  exact hname

inductive TakesFile (s : Spec) : TypeExpr → Prop
  | basic : TakesFile s (.basic inputFileName)
  | ref {id : String} (file : s.IsFileType id) : TakesFile s (.ref id)
  | option {e : TypeExpr} {es : List TypeExpr} (mem : e ∈ es) (takes : TakesFile s e) : TakesFile s (.union es)

structure OffersFile (s : Spec) (p : Param) (f : Draft.Field) : Prop extends Draft.FieldOf p f where
  file : s.TakesFile p.type → f.draft.HasFile

variable {s : Spec} {P : Compiler → Prop} {self : String → Work Draft} {p : Param} {f g : Draft.Field}

theorem OffersFile.resolveField {scope : Draft.Scope} (hf : s.OffersFile p f)
    (h : Draft.Site.resolveField scope f = .ok g) : s.OffersFile p g := by
  obtain ⟨d, hd, rfl⟩ := Draft.Site.resolveField_eq_ok h
  exact ⟨hf.toFieldOf.of_draft d, fun htakes => (hf.file htakes).resolve hd⟩

mutual
theorem annotation_hasFile (hself : ∀ i, Yields P (fun d => s.IsFileType i → d.HasFile) (self i)) :
    ∀ e : TypeExpr, Yields P (fun d => s.TakesFile e → d.HasFile) (Work.annotation self e)
  | .basic n => .pure fun h => by
      cases h
      exact Draft.hasFile_file
  | .ref i =>
      { keeps := (hself i).keeps
        result := fun hc hrun h => by
          cases h with
          | ref file => exact (hself i).result hc hrun file }
  | .array e => (annotation_hasFile hself e).bind fun _ _ => .pure nofun
  | .union es => (annotations_hasFile hself es).bind fun ds hds => .pure fun h => by
      cases h with
      | option mem takes =>
          obtain ⟨d, hd, hfile⟩ := hds _ mem takes
          exact hfile.unionOf hd
theorem annotations_hasFile (hself : ∀ i, Yields P (fun d => s.IsFileType i → d.HasFile) (self i)) :
    ∀ es : List TypeExpr, Yields P (fun ds => ∀ e ∈ es, s.TakesFile e → ∃ d ∈ ds, d.HasFile)
      (Work.annotations self es)
  | [] => .pure (by simp)
  | e :: es => by
      refine (annotation_hasFile hself e).bind fun d hd => ?_
      refine (annotations_hasFile hself es).bind fun ds hds => .pure fun e' he' htakes => ?_
      rcases List.mem_cons.1 he' with rfl | he'
      · exact ⟨d, List.mem_cons_self, hd htakes⟩
      · obtain ⟨d', hd', hfile⟩ := hds e' he' htakes
        exact ⟨d', List.mem_cons_of_mem _ hd', hfile⟩
end

end Spec

namespace Compiler

structure OffersFiles (s : Spec) (m : Method) (c : Compiler) : Prop where
  spec : c.spec = s
  draft : ∀ {id d}, c.draft? id = some d → s.IsFileType id → d.HasFile
  deferred : ∀ {id}, id ∈ c.deferred → ¬ s.IsFileType id
  params : ∀ e ∈ c.params, e.1 = m.id → List.Forall₂ s.OffersFile m.params e.2.fields

namespace OffersFiles

variable {s : Spec} {m : Method} {c : Compiler} {id : String} {t : ApiType} {key : Nat} {d : Draft}

theorem new (s : Spec) (m : Method) : OffersFiles s m (.new s) where
  spec := rfl
  draft h := by cases h
  deferred h := by cases h
  params e h := by cases h

theorem store (h : OffersFiles s m c) (he : s.typeEntry? id = some (t, key)) (hd : s.IsFileType id → d.HasFile) :
    OffersFiles s m (c.store t d) where
  spec := h.spec
  draft {i d'} hi hfile := by
    rcases c.draft?_store_cases (Spec.typeEntry?_id he) hi with ⟨rfl, rfl⟩ | hi
    · exact hd hfile
    · exact h.draft hi hfile
  deferred := h.deferred
  params := h.params

theorem putRecord (h : OffersFiles s m c) (key : Nat) (r : Draft.Record) : OffersFiles s m (c.putRecord key r) :=
  ⟨h.spec, h.draft, h.deferred, h.params⟩

theorem defer (h : OffersFiles s m c) (hid : ¬ s.IsFileType id) : OffersFiles s m (c.defer id) := by
  have hdeferred {i : String} (hi : i ∈ (c.defer id).deferred) : ¬ s.IsFileType i := by
    rcases (mem_deferred_defer c).1 hi with hi | rfl
    · exact h.deferred hi
    · exact hid
  rw [defer_eq]
  exact ⟨h.spec, h.draft, hdeferred, h.params⟩

end OffersFiles

section

variable {s : Spec} {m : Method} {self : String → Work Draft} {id : String} {t : ApiType} {key : Nat}

theorem upheld_files : Upheld s (OffersFiles s m) fun id d => s.IsFileType id → d.HasFile where
  spec hc := hc.spec
  known hc hd := hc.draft hd
  store hc he hd := hc.store he hd
  defer hc hid := hc.defer fun hfile => nomatch List.mem_singleton.1 (hid (.literal "") hfile)
  deferred hc hid _ hfile := absurd hfile (hc.deferred hid)
  cleared hc := ⟨hc.spec, hc.draft, by simp, hc.params⟩
  pending _ _ hc := ⟨hc.spec, hc.draft, hc.deferred, hc.params⟩
  file _ _ _ := Draft.hasFile_file
  bare he hname _ hfile := absurd (hfile.name_eq he) hname
  supertype he hname _ _ hfile := absurd (hfile.name_eq he) hname
  record hself hr := ⟨.fieldsRecord hself _ (fun _ r hc => hc.putRecord _ r)
    fun _ _ hc => ⟨hc.spec, hc.draft, hc.deferred, hc.params⟩,
    fun _ _ hfile => absurd (hfile.name_eq hr.entry) hr.name⟩
  finish key := .finish fun _ _ _ _ _ _ _ _ hc => hc.putRecord key _

theorem paramsRecord_yields_file (hattributes : (m.params.map (Catalog.attributeName ·.name)).Nodup) :
    Yields (OffersFiles s m) (fun r => List.Forall₂ s.OffersFile m.params r.fields) (Work.paramsRecord m) := by
  refine .get_bind fun c hc => ?_
  split
  next e r hfound =>
    have hid : e = m.id := by simpa using List.find?_some hfound
    exact .pure (hc.params _ (List.mem_of_find?_eq_some hfound) hid)
  next =>
    have hparam (p : Param) : Yields (OffersFiles s m) (s.OffersFile p) (do
        pure (Work.draftField p (← Work.annotation Work.draft p.type))) :=
      (Spec.annotation_hasFile upheld_files.draft p.type).bind fun d hd => .pure ⟨⟨rfl, rfl, rfl⟩, hd⟩
    refine (Yields.mapM m.params hparam).bind fun fs hfs => ?_
    refine .keeps_bind (.bind .get fun _ => .pure _) fun key => ?_
    have hrecord : Yields (OffersFiles s m) (fun r => r.name = Work.paramsName m ∧
        List.Forall₂ s.OffersFile m.params r.fields) (Work.record key (Work.paramsName m) fs) :=
      .record (·.name) (fun _ _ _ _ _ _ _ hf hg => hf.resolveField hg) hattributes hfs
    refine hrecord.bind fun r hr => ?_
    refine .keeps_bind (.changed fun c hc => ⟨hc.spec, hc.draft, hc.deferred, fun e he hid => ?_⟩) fun _ => .pure hr.2
    rcases List.mem_append.1 he with he | he
    · exact hc.params e he hid
    · obtain rfl : e = (m.id, r) := by simpa using he
      exact hr.2

theorem paramsRecord_keeps_files (hattributes : (m.params.map (Catalog.attributeName ·.name)).Nodup) {m' : Method}
    (h : m'.id = m.id → m' = m) : Keeps (OffersFiles s m) (Work.paramsRecord m') := by
  by_cases hid : m'.id = m.id
  · rw [h hid]
    exact (paramsRecord_yields_file hattributes).keeps
  · refine .paramsRecord (fun i => (upheld_files.draft i).keeps) fun c r hc => ?_
    refine ⟨hc.spec, hc.draft, hc.deferred, fun e he hid' => ?_⟩
    rcases List.mem_append.1 he with he | he
    · exact hc.params e he hid'
    · obtain rfl : e = (m'.id, r) := by simpa using he
      exact absurd hid' hid

theorem offersFiles_after (hattributes : (m.params.map (Catalog.attributeName ·.name)).Nodup) {us : List Use}
    (hus : ∀ u ∈ us, u.Spares s m) : OffersFiles s m ((Compiler.new s).after us) :=
  upheld_files.after (fun u hu _ hm' => paramsRecord_keeps_files hattributes ((hus u hu).eq_of_concerns hm'))
    (.new s m)

end

end Compiler

end BotApi
