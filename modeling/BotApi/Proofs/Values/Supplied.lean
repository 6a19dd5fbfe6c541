import BotApi.Proofs.Draft.Labels
import BotApi.Proofs.Draft.Models
import BotApi.Proofs.Values.Carried
import BotApi.Proofs.Values.Validated
/-!
The names of what is supplied come back. Where the attributes of the documented fields are told apart, a mapping
that is keyed by their names on the wire is found entry by entry, and what is made of it has the same keys.
-/

namespace BotApi

open Compiler (Use)
open Draft (Site FieldOf)
open Schema (checkField checkDepth)

def Entries.Keyed (es : Entries) (ps : List Param) : Prop := ∀ e ∈ es, ∃ p ∈ ps, e.1 = .str p.name

structure Entries.SameKeys (es : Entries) (ks : List Value) : Prop where
  once : ks.Nodup
  same : ∀ k, k ∈ ks ↔ k ∈ es.map (·.1)

namespace Entries

variable {es : Entries} {ps : List Param} {p : Param} {name : String}

def supplied (es : Entries) (ps : List Param) : List String :=
  (ps.filter fun p => (es.getText? p.name).isSome).map (·.name)

theorem mem_supplied : name ∈ es.supplied ps ↔ (∃ p ∈ ps, p.name = name) ∧ .str name ∈ es.map (·.1) := by
  simp only [supplied, List.mem_map, List.mem_filter, isSome_getText?]
  constructor
  · rintro ⟨p, ⟨hp, hmem⟩, rfl⟩
    exact ⟨⟨p, hp, rfl⟩, hmem⟩
  · rintro ⟨⟨p, hp, rfl⟩, hmem⟩
    exact ⟨p, ⟨hp, hmem⟩, rfl⟩

theorem Keyed.sameKeys_supplied (h : es.Keyed ps) (hattributes : (ps.map (Catalog.attributeName ·.name)).Nodup) :
    es.SameKeys ((es.supplied ps).map .str) where
  once := by
    have hmap : ((ps.map (·.name)).map Catalog.attributeName).Nodup := by rwa [List.map_map]
    have hnames : (ps.map (·.name)).Nodup := hmap.of_map _
    exact List.Nodup.map (fun _ _ => Value.str.inj) (hnames.sublist (List.filter_sublist.map _))
  same k := by
    rw [List.mem_map]
    constructor
    · rintro ⟨name, hname, rfl⟩
      exact (mem_supplied.1 hname).2
    · intro hk
      obtain ⟨e, he, rfl⟩ := List.mem_map.1 hk
      obtain ⟨p, hp, hkey⟩ := h e he
      exact ⟨p.name, mem_supplied.2 ⟨⟨p, hp, rfl⟩, hkey ▸ hk⟩, hkey.symm⟩

-- A field is found by its attribute only if that is its name on the wire, since no other field has it.
theorem Keyed.getText?_attribute (h : es.Keyed ps) (hattributes : (ps.map (Catalog.attributeName ·.name)).Nodup)
    (hp : p ∈ ps) (hnone : es.getText? p.name = none) : es.getText? (Catalog.attributeName p.name) = none := by
  refine getText?_eq_none fun v hv => ?_
  obtain ⟨q, hq, hkey⟩ := h _ hv
  have hname : Catalog.attributeName p.name = q.name := Value.str.inj hkey
  have hsame : Catalog.attributeName q.name = Catalog.attributeName p.name := by
    rw [← hname, Catalog.attributeName_attributeName]
  obtain rfl := List.inj_on_of_nodup_map hattributes hq hp hsame
  have hmem : Value.str q.name ∈ es.map (·.1) := List.mem_map.2 ⟨_, hv, by rw [hname]⟩
  rw [← isSome_getText?, hnone] at hmem
  cases hmem

end Entries

namespace Draft

variable {es : Entries} {ps qs : List Param} {p : Param} {f : Field} {fs : List Field} {site : Site}
  {descend : Schema → Value → Schema.Verdict}

theorem FieldOf.find? (hf : FieldOf p f) (hkeyed : es.Keyed ps)
    (hattributes : (ps.map (Catalog.attributeName ·.name)).Nodup) (hp : p ∈ ps) (schema : Schema) :
    (Site.fieldSchema f schema).find? es = (es.getText? p.name).map fun v => (p.name, v) := by
  unfold Schema.Field.find? Site.fieldSchema
  rw [hf.wire, hf.name]
  cases hget : es.getText? p.name with
  | some v => rfl
  | none => simp [hkeyed.getText?_attribute hattributes hp hget]

theorem FieldOf.fieldResult (hf : FieldOf p f) {schema : Schema} {part : Option (String × Schema.Passed)}
    (hkeyed : es.Keyed ps) (hattributes : (ps.map (Catalog.attributeName ·.name)).Nodup) (hp : p ∈ ps)
    (h : checkField descend es (Site.fieldSchema f schema) = .ok part) :
    (Schema.fieldResult (Site.fieldSchema f schema) part).map (·.1) =
      if (es.getText? p.name).isSome then some p.name else none := by
  have hfind := hf.find? hkeyed hattributes hp schema
  unfold checkField at h
  cases hget : es.getText? p.name with
  | some v =>
      rw [hfind, hget] at h
      dsimp only [Option.map_some] at h
      obtain ⟨q, -, rfl⟩ := Schema.map_eq_ok.1 h
      simp [Schema.fieldResult, Site.fieldSchema, hf.wire]
  | none =>
      rw [hfind, hget] at h
      dsimp only [Option.map_none] at h
      split at h
      · cases h
      · cases h
        rfl

theorem names_fieldResults {gs : List Schema.Field} {parts : List (Option (String × Schema.Passed))}
    (hkeyed : es.Keyed ps) (hattributes : (ps.map (Catalog.attributeName ·.name)).Nodup) (hqs : qs ⊆ ps)
    (hfs : List.Forall₂ FieldOf qs fs)
    (hgs : List.Forall₂ (fun f g => ∃ schema, site.schemaOf f.draft = .ok schema ∧
      g = Site.fieldSchema f schema) fs gs)
    (hparts : List.Forall₂ (fun g part => checkField descend es g = .ok part) gs parts) :
    ((gs.zip parts).filterMap fun x => Schema.fieldResult x.1 x.2).map (·.1) = es.supplied qs := by
  induction hfs generalizing gs parts with
  | nil =>
      cases hgs
      cases hparts
      rfl
  | @cons q f qs fs hf _ ih =>
      obtain ⟨hq, hqs⟩ := List.cons_subset.1 hqs
      cases hgs with
      | cons hg hgs =>
          cases hparts with
          | cons hpart hparts =>
              obtain ⟨schema, -, rfl⟩ := hg
              have hname := hf.fieldResult hkeyed hattributes hq hpart
              rw [List.zip_cons_cons, List.filterMap_cons, Entries.supplied, List.filter_cons]
              cases hget : es.getText? q.name with
              | none =>
                  rw [hget] at hname
                  rw [Option.map_eq_none_iff.1 hname]
                  exact ih hqs hgs hparts
              | some v =>
                  rw [hget] at hname
                  obtain ⟨x, hx, hxname⟩ := Option.map_eq_some_iff.1 hname
                  rw [hx]
                  simp only [List.map_cons, Option.isSome_some, ↓reduceIte, hxname]
                  exact congrArg _ (ih hqs hgs hparts)

theorem checkRecord_names {r : Schema.Record} {passed : Schema.Passed} (hkeyed : es.Keyed ps)
    (hattributes : (ps.map (Catalog.attributeName ·.name)).Nodup) (hfs : List.Forall₂ FieldOf ps fs)
    (hmade : site.Made fs r) (h : Schema.checkRecord .values descend r (.dict es) = .ok passed) :
    ∃ us, passed.value = .record r.name us ∧ us.map (·.1) = es.supplied ps := by
  obtain ⟨es', parts, heq, hparts, -, rfl⟩ := (Schema.checkRecord_eq_ok hmade.closed hmade.check).1 h
  cases heq
  exact ⟨_, rfl, names_fieldResults hkeyed hattributes (List.Subset.refl ps) hfs hmade.fields hparts⟩

theorem Site.check_names {c : Compiler} {rs : Schema.Records} {key : Nat} {schema : Schema} {passed : Schema.Passed}
    (hrecord : ∀ {r}, c.site.record? key = some r → List.Forall₂ FieldOf ps r.fields)
    (hattributes : (ps.map (Catalog.attributeName ·.name)).Nodup) (hkeyed : es.Keyed ps)
    (hbuild : c.site.build (.record key) = .ok (rs, schema))
    (hcheck : checkDepth rs .values (Value.dict es).depth schema (.dict es) = .ok passed) :
    ∃ name us, passed.value = .record name us ∧ us.map (·.1) = es.supplied ps := by
  obtain ⟨origin, known, fs, r, n, hknown, hfs, hmade, hcheck⟩ := Site.made_of_check hbuild hcheck
  obtain ⟨us, hvalue, hnames⟩ :=
    checkRecord_names hkeyed hattributes (Site.fieldsOf_labels (hrecord hknown) hfs) hmade hcheck
  exact ⟨r.name, us, hvalue, hnames⟩

end Draft

namespace Compiler

variable {s : Spec} {m : Method} {us : List Use} {id : String} {t : ApiType} {key : Nat} {ps : List Param}

structure ListsParams (m : Method) (c : Compiler) : Prop where
  record : ∀ {r}, (Use.record m).answer c = .ok (.record r) → List.Forall₂ FieldOf m.params r.fields
  params : ∀ {es out : Entries}, es.Keyed m.params → (Use.params m (.dict es)).answer c = .ok (.params out) →
    es.SameKeys (out.map (·.1))

structure ListsFields (id : String) (key : Nat) (ps : List Param) (c : Compiler) : Prop where
  record : ∀ {d c'}, (Work.draft id).run c = (.ok d, c') → d = .record key ∧
    ∀ {r}, c'.site.record? key = some r → List.Forall₂ FieldOf ps r.fields
  values : ∀ {es : Entries} {v}, es.Keyed ps → (Use.check id (.dict es)).answer c = .ok (.value v) →
    ∃ name us, v = .record name us ∧ es.SameKeys (us.map fun f => .str f.1)

theorem Use.run_record_of_answer {c : Compiler} {r : Draft.Record} (h : (Use.record m).answer c = .ok (.record r)) :
    ∃ c', (Work.paramsRecord m).run c = (.ok r, c') := by
  rw [Use.answer, Use.work, Work.run_bind] at h
  rcases hrun : (Work.paramsRecord m).run c with ⟨e | r', c'⟩
  · rw [hrun] at h
    cases h
  · rw [hrun] at h
    cases h
    exact ⟨c', rfl⟩

theorem Use.run_params_of_answer {c : Compiler} {params : Value} {out : Entries}
    (h : (Use.params m params).answer c = .ok (.params out)) :
    ∃ c', (Work.validateParams m params).run c = (.ok out, c') := by
  rw [Use.answer, Use.work, Work.run_bind] at h
  rcases hrun : (Work.validateParams m params).run c with ⟨e | es, c'⟩
  · rw [hrun] at h
    cases h
  · rw [hrun] at h
    cases h
    exact ⟨c', rfl⟩

theorem Use.checked_params_of_answer {c : Compiler} {es out : Entries}
    (h : (Use.params m (.dict es)).answer c = .ok (.params out)) :
    ∃ r c' key rs schema passed, (Work.paramsRecord m).run c = (.ok r, c') ∧
      (c'.putRecord key r).site.record? key = some r ∧
      (c'.putRecord key r).site.build (.record key) = .ok (rs, schema) ∧
      checkDepth rs .values (Value.dict es).depth schema (.dict es) = .ok passed ∧ out = passed.value.wireParams := by
  obtain ⟨c', hrun⟩ := Use.run_params_of_answer h
  obtain ⟨r, c₁, rs, schema, passed, v, hv, hrecord, hbuild, hcheck, rfl⟩ := Work.exists_of_validateParams hrun
  have hsupplied : v = .dict es := by
    rw [hv]
    cases es <;> rfl
  rw [hsupplied] at hcheck
  exact ⟨r, c₁, _, rs, schema, passed, hrecord, by rw [record?_putRecord, if_pos (by simp)], hbuild, hcheck, rfl⟩

theorem Use.checked_of_answer {c : Compiler} {v u : Value} (h : (Use.check id v).answer c = .ok (.value u)) :
    ∃ d c', (Work.draft id).run c = (.ok d, c') ∧ c'.check d v = .ok u := by
  rw [Use.answer, Use.work, Work.validate, Work.run_bind, Work.run_bind] at h
  rcases hrun : (Work.draft id).run c with ⟨e | d, c'⟩
  · rw [hrun] at h
    cases h
  · rw [hrun] at h
    dsimp only at h
    rw [run_check] at h
    refine ⟨d, c', rfl, ?_⟩
    cases hchecked : c'.check d v with
    | error e =>
        rw [hchecked] at h
        cases h
    | ok w =>
        rw [hchecked] at h
        cases h
        rfl

theorem listsParams_after (hattributes : (m.params.map (Catalog.attributeName ·.name)).Nodup)
    (hus : ∀ u ∈ us, u.Spares s m) : ListsParams m ((Compiler.new s).after us) := by
  have hc := offersFiles_after hattributes hus
  have hfields {r : Draft.Record} {c' : Compiler}
      (hrun : (Work.paramsRecord m).run ((Compiler.new s).after us) = (.ok r, c')) :
      List.Forall₂ FieldOf m.params r.fields :=
    ((paramsRecord_yields_file hattributes).result hc hrun).imp fun _ _ hf => hf.toFieldOf
  constructor
  · intro r h
    obtain ⟨c', hrun⟩ := Use.run_record_of_answer h
    exact hfields hrun
  · intro es out hkeyed h
    obtain ⟨r, c₁, key, rs, schema, passed, hrecord, hknown, hbuild, hcheck, rfl⟩ := Use.checked_params_of_answer h
    have hknown {r'} (hr : (c₁.putRecord key r).site.record? key = some r') : List.Forall₂ FieldOf m.params r'.fields := by
      cases hknown.symm.trans hr
      exact hfields hrecord
    obtain ⟨name, us, hvalue, hnames⟩ := Site.check_names hknown hattributes hkeyed hbuild hcheck
    have hkeys : ((Value.wireParams (.record name us)).map (·.1)).Perm ((es.supplied m.params).map .str) := by
      rw [← hnames, List.map_map]
      simpa [Function.comp_def] using (Value.perm_wireParams name us).map (·.1)
    have hsame := hkeyed.sameKeys_supplied hattributes
    rw [hvalue]
    exact ⟨hkeys.nodup_iff.2 hsame.once, fun k => hkeys.mem_iff.trans (hsame.same k)⟩

theorem listsFields_after (hr : s.RecordOf id t key ps) (hattributes : (ps.map (Catalog.attributeName ·.name)).Nodup)
    (us : List Use) : ListsFields id key ps ((Compiler.new s).after us) := by
  have hc := marked_after hr hattributes us
  have hyields := (upheld_marks hr hattributes).draft id
  have hafter {d : Draft} {c' : Compiler} (hrun : (Work.draft id).run ((Compiler.new s).after us) = (.ok d, c')) :
      d = .record key ∧ Marked s id key ps c' :=
    ⟨hyields.result hc hrun rfl, by simpa [hrun] using hyields.keeps _ hc⟩
  constructor
  · intro d c' hrun
    obtain ⟨rfl, hc'⟩ := hafter hrun
    exact ⟨rfl, hc'.record⟩
  · intro es v hkeyed h
    obtain ⟨d, c', hrun, hchecked⟩ := Use.checked_of_answer h
    obtain ⟨rfl, hc'⟩ := hafter hrun
    obtain ⟨rs, schema, passed, hbuild, hcheck, rfl⟩ := Draft.checkBuilt_eq_ok.1 hchecked
    obtain ⟨name, us, hvalue, hnames⟩ := Site.check_names hc'.record hattributes hkeyed hbuild hcheck
    have hkeys : (us.map fun f => Value.str f.1) = (es.supplied ps).map .str := by
      rw [← hnames, List.map_map]
      rfl
    exact ⟨name, us, hvalue, hkeys ▸ hkeyed.sameKeys_supplied hattributes⟩

end Compiler

open Compiler (ListsParams ListsFields)

theorem names_kept (s : Spec) (us : List Use) :
    (∀ m : Method, (m.params.map (Catalog.attributeName ·.name)).Nodup → (∀ u ∈ us, u.Spares s m) →
      ListsParams m ((Compiler.new s).after us)) ∧
    (∀ id t key ps, s.RecordOf id t key ps → (ps.map (Catalog.attributeName ·.name)).Nodup →
      ListsFields id key ps ((Compiler.new s).after us)) ∧
    (s.Orderly → (∀ u ∈ us, u.Within s) →
      (∀ m ∈ s.methods, (∀ p ∈ m.params, p.name.startsWith "_" = false ∧ s.Checkable p.type) →
        ((Compiler.new s).after us).compiles m = true) ∧
      ∀ id t key ps, s.RecordOf id t key ps → ∃ d c r,
        (Work.draft id).run ((Compiler.new s).after us) = (.ok d, c) ∧ c.site.record? key = some r) :=
  ⟨fun _ hattributes hus => Compiler.listsParams_after hattributes hus,
    fun _ _ _ _ hr hattributes => Compiler.listsFields_after hr hattributes us,
    fun orderly hus => ⟨fun _ hm hparams => Compiler.compiles_after orderly hus hm (fun p hp => (hparams p hp).1)
      fun p hp => (hparams p hp).2, fun _ _ _ _ hr => Compiler.exists_record_after orderly hus hr⟩⟩

namespace Collided

def fields : List Param := [plainParam "from" (.basic "Integer") true, plainParam "from_" (.basic "Integer") true]

def method : Method := plainMethod "send" "send" fields

def spec : Spec where
  methods := [method]
  types := [⟨"a", "A", "", .fields fields⟩]

end Collided

def Compiler.Use.wires (u : Use) (c : Compiler) : List String :=
  match u.answer c with
  | .ok (.record r) => r.fields.map (·.wire)
  | _ => []

theorem Compiler.Use.exists_of_wires {u : Use} {c : Compiler} {n : String} {ns : List String}
    (h : u.wires c = n :: ns) : ∃ r, u.answer c = .ok (.record r) ∧ r.fields.map (·.wire) = n :: ns := by
  unfold Use.wires at h
  split at h
  next r hanswer => exact ⟨r, hanswer, h⟩
  next => cases h

theorem param_lost : (Collided.fields.map (·.name)).Nodup ∧ (∀ p ∈ Collided.fields, p.name.startsWith "_" = false) ∧
    ∃ r, (Use.record Collided.method).answer (.new Collided.spec) = .ok (.record r) ∧
      r.fields.map (·.wire) = ["from_"] :=
  ⟨by decide, by decide +kernel, Use.exists_of_wires (by decide +kernel)⟩

namespace Renamed

def fields : List Param := [plainParam "from" (.basic "Integer") true, plainParam "copy" (.basic "Integer") false]

def method : Method := plainMethod "send" "send" fields

def spec : Spec where
  methods := [method]
  types := [⟨"a", "A", "", .fields fields⟩]

def supplied : Entries := [(.str "copy", .int 1), (.str "from", .int 2)]

end Renamed

theorem names_restored : ListsParams Renamed.method (.new Renamed.spec) ∧
    ListsFields "a" 0 Renamed.fields (.new Renamed.spec) ∧
    ∃ out, (Use.params Renamed.method (.dict Renamed.supplied)).answer (.new Renamed.spec) = .ok (.params out) ∧
      Renamed.supplied.SameKeys (out.map (·.1)) := by
  have hparams : ListsParams Renamed.method (.new Renamed.spec) :=
    (names_kept Renamed.spec []).1 Renamed.method (by decide) (by simp)
  have hfields : ListsFields "a" 0 Renamed.fields (.new Renamed.spec) :=
    (names_kept Renamed.spec []).2.1 "a" _ 0 Renamed.fields ⟨rfl, by decide, rfl, by decide⟩ (by decide)
  have hanswer : (Use.params Renamed.method (.dict Renamed.supplied)).answer (.new Renamed.spec) =
      .ok (.params [(.str "from", .int 2), (.str "copy", .int 1)]) := Use.answer_of_returns (by decide +kernel)
  have hkeyed : Renamed.supplied.Keyed Renamed.method.params := by
    intro e he
    rcases List.mem_pair.1 he with rfl | rfl
    · exact ⟨_, List.mem_cons_of_mem _ List.mem_cons_self, rfl⟩
    · exact ⟨_, List.mem_cons_self, rfl⟩
  exact ⟨hparams, hfields, _, hanswer, hparams.params hkeyed hanswer⟩

end BotApi
