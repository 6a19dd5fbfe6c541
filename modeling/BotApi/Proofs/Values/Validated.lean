import BotApi.Proofs.Values.Checked
import BotApi.Proofs.Values.Conforms
/-!
Validated parameters accord with the documentation, whatever the compiler was used for before. On the wire files
to upload stay as they are, also those that are streams.
-/

namespace BotApi

open Schema (isFile)

namespace Value

def onWire (v : Value) : Value := if isFile v then v else v.plainData

theorem onWire_of_streamless {v : Value} (h : v.hasStream = false) : v.onWire = v.plainData := by
  unfold onWire
  split
  · rename_i hfile
    exact (plainData_of_isFile hfile h).symm
  · rfl

-- Only the order of the entries depends on which of them are files.
theorem perm_wireParams (name : String) (fs : List (String × Value)) :
    (wireParams (.record name fs)).Perm (fs.map fun f => (.str f.1, f.2.onWire)) := by
  have hfiles : (fs.filter fun f => isFile f.2).map (fun f => (str f.1, f.2)) =
      (fs.filter fun f => isFile f.2).map fun f => (str f.1, f.2.onWire) := by
    refine List.map_congr_left fun f hf => ?_
    rw [onWire, if_pos (by simpa using (List.mem_filter.1 hf).2)]
  have hrest : (fs.filter fun f => !isFile f.2).map (fun f => (str f.1, f.2.plainData)) =
      (fs.filter fun f => !isFile f.2).map fun f => (str f.1, f.2.onWire) := by
    refine List.map_congr_left fun f hf => ?_
    rw [onWire, if_neg (by simpa using (List.mem_filter.1 hf).2)]
  have hwire : wireParams (.record name fs) =
      (fs.filter fun f => !isFile f.2).map (fun f => (str f.1, f.2.plainData)) ++
        (fs.filter fun f => isFile f.2).map fun f => (str f.1, f.2) := by
    rw [wireParams, List.partition_eq_filter_filter]
    rfl
  rw [hwire, hfiles, hrest, ← List.map_append]
  refine List.Perm.map _ (List.perm_append_comm.trans ?_)
  exact List.filter_append_perm _ fs

end Value

namespace Spec

variable {s : Spec} {content : List UInt8} {name : Option Value}

theorem reads_stream {b : BasicType} {u : Value} (h : b.Reads (.stream content name) u) :
    u = .stream content name := by
  cases b with
  | flag =>
      obtain ⟨b, g, hread, -⟩ := h
      cases hread
  | onlyTrue =>
      obtain ⟨hequal, -⟩ := h
      simp [Value.equal, Value.equalAtoms, Value.integer?] at hequal
  | text =>
      obtain ⟨t, g, hread, -⟩ := h
      cases hread
  | integer =>
      obtain ⟨n, g, hread, -⟩ := h
      cases hread
  | number =>
      obtain ⟨x, g, hread, -⟩ := h
      cases hread
  | file => exact h.2
  | any => exact h

theorem Reads.conforms_stream (told : String → String → Bool) : ∀ {e : TypeExpr} {v u : Value}, s.Reads e v u →
    v = .stream content name → u = v ∧ s.Conforms told e u
  | _, _, _, .basic hreads, hv => by
      subst hv
      exact ⟨reads_stream hreads, .basic hreads.admits⟩
  | _, _, _, .file hentry hname hadmits, _ => ⟨rfl, .file hentry hname hadmits⟩
  | _, _, _, .bare hentry hname hshape, _ => ⟨rfl, .bare hentry hname hshape⟩
  | _, _, _, .subtype hentry hname hshape hmem hreads, hv => by
      obtain ⟨heq, hconforms⟩ := hreads.conforms_stream told hv
      exact ⟨heq, .subtype hentry hname hshape hmem hconforms⟩
  | _, _, _, .option hmem hreads, hv => by
      obtain ⟨heq, hconforms⟩ := hreads.conforms_stream told hv
      exact ⟨heq, .option hmem hconforms⟩
  | _, _, _, .array hitems _, hv => by
      rcases hitems with rfl | rfl <;> cases hv

theorem Reads.onWire_eq : ∀ {e : TypeExpr} {v u : Value}, s.Reads e v u → v.hasStream = false →
    u.onWire = u.plainData
  | _, _, _, .basic hreads, hv => Value.onWire_of_streamless (hreads.hasStream hv)
  | _, _, _, .file _ _ _, hv | _, _, _, .bare _ _ _, hv => Value.onWire_of_streamless hv
  | _, _, _, .record _ _ _, _ | _, _, _, .array _ _, _ => rfl
  | _, _, _, .subtype _ _ _ _ hreads, hv | _, _, _, .option _ hreads, hv => hreads.onWire_eq hv

end Spec

open Compiler (Use Documented Takeable)
open Draft (Site)

variable {s : Spec} {m : Method}

theorem Compiler.Documented.describes {c : Compiler} (h : Documented s m c) (distinct : s.Distinct)
    (hm : Takeable s m) {r : Draft.Record} (hname : r.name = Work.paramsName m)
    (hfs : List.Forall₂ (s.OffersField fun _ => false) m.params r.fields) :
    s.Describes m (c.putRecord s.types.length r).site where
  named := distinct.toNamed
  names := h.names
  renames {k r'} hr := by
    rcases c.record?_putRecord_cases hr with ⟨-, rfl⟩ | hr
    · intro e he
      obtain ⟨t, ht, hbears⟩ := he.bearer
      exact absurd (hbears.trans hname) (hm.name t ht)
    · obtain ⟨id, t, ps, hrecord, hname', -⟩ := h.record hr
      rw [hname']
      exact distinct.renames hrecord.entry (.record hrecord)
  fields {k r'} hr := by
    rcases c.record?_putRecord_cases hr with ⟨rfl, rfl⟩ | hr
    · exact ⟨_, _, .params, hfs⟩
    · obtain ⟨id, t, ps, hrecord, -, hfields⟩ := h.record hr
      exact ⟨_, _, .type hrecord, hfields⟩

def Value.StreamsOnTop (v : Value) : Prop := ∀ es, v = .dict es → ∀ e ∈ es,
  (∃ content name, e.2 = .stream content name) ∨ e.2.hasStream = false

theorem Work.exists_of_validateParams {c c' : Compiler} {params : Value} {es : Entries}
    (h : (Work.validateParams m params).run c = (.ok es, c')) :
    ∃ r c₁ rs schema p v, v = (if params.truthy then params else .dict []) ∧
      (Work.paramsRecord m).run c = (.ok r, c₁) ∧
      (c₁.putRecord c₁.spec.types.length r).site.build (.record c₁.spec.types.length) = .ok (rs, schema) ∧
      Schema.checkDepth rs .values v.depth schema v = .ok p ∧ es = p.value.wireParams := by
  rw [Work.validateParams, Work.run_bind] at h
  rcases hrun : (Work.paramsRecord m).run c with ⟨e | r, c₁⟩
  · rw [hrun] at h
    cases h
  · rw [hrun] at h
    dsimp only at h
    rw [Work.paramsKey, bind_assoc, Work.run_get, pure_bind, Work.run_get, Work.run_bind, Work.run_ofExcept] at h
    rcases hcheck : (c₁.putRecord c₁.spec.types.length r).check (.record c₁.spec.types.length)
      (if params.truthy then params else .dict []) with e | w
    · rw [hcheck] at h
      cases h
    · rw [hcheck] at h
      cases h
      obtain ⟨rs, schema, p, hbuild, hp, rfl⟩ := Draft.checkBuilt_eq_ok.1 hcheck
      exact ⟨r, _, rs, schema, p, _, rfl, rfl, hbuild, hp, rfl⟩

namespace Spec

theorem ReadsField.conforms_onWire (distinct : s.Distinct) {fixed : String → Bool} {p : Param}
    {v u : Value} (h : s.ReadsField fixed p v u)
    (hv : (∃ content name, v = .stream content name) ∨ v.hasStream = false) :
    s.ConformsField s.tellsApart fixed p u.onWire := by
  rcases hv with ⟨content, name, rfl⟩ | hv
  · cases h with
    | typed hfree _ hreads =>
        obtain ⟨rfl, hconforms⟩ := hreads.conforms_stream s.tellsApart rfl
        exact .typed hfree hconforms
  · cases h with
    | null hoptional => exact .null hoptional
    | fixed hholds => exact .fixed hholds
    | typed hfree _ hreads =>
        rw [hreads.onWire_eq hv]
        exact .typed hfree (hreads.conforms distinct hv)

theorem accords_wireParams (distinct : s.Distinct) (hm : Takeable s m) {es : Entries}
    {us : List (String × Value)} (hes : Value.StreamsOnTop (.dict es))
    (hreads : s.ReadsFields (fun _ => false) es m.params us) (name : String) :
    s.Accords s.tellsApart m (Value.wireParams (.record name us)) := by
  have hperm := Value.perm_wireParams name us
  have hcomplete := hreads.complete Value.onWire hm.attributes
  refine ⟨⟨?_, fun e he => ?_, fun p hp hrequired => ?_⟩, fun p hp w hw => ?_⟩
  · exact (hperm.map _).nodup_iff.2 hcomplete.once
  · exact hcomplete.known e (hperm.mem_iff.1 he)
  · obtain ⟨w, hw⟩ := hcomplete.required p hp hrequired
    exact ⟨w, hperm.mem_iff.2 hw⟩
  · refine of_mem_fields (C := fun p w => s.ConformsField s.tellsApart (fun _ => false) p w)
      hm.attributes (fun f hf => ?_) hp (hperm.mem_iff.1 hw)
    obtain ⟨q, hq, hname, v, hgiven, hfield⟩ := hreads.reads f hf
    obtain ⟨k, hk⟩ := Param.mem_of_given? hgiven
    exact ⟨q, hq, hname, hfield.conforms_onWire distinct (hes es rfl _ hk)⟩

end Spec

theorem exists_of_check {site : Site} {rs : Schema.Records} {v : Value} {p : Schema.Passed} {n : Nat}
    (hbuilt : ∀ {k r}, rs.get? k = some r → s.MadeOf m site k r)
    (h : Schema.checkDepth rs .values n (.record s.types.length) v = .ok p) :
    ∃ es name us, v = .dict es ∧ p.value = .record name us ∧
      s.ReadsFields (fun _ => false) es m.params us := by
  cases n with
  | zero => cases h
  | succ n =>
      rw [Schema.checkDepth, Schema.step] at h
      split at h
      · rename_i r hget
        obtain ⟨fixed, ps, fs, hdoc, hfs, hmade⟩ := hbuilt hget
        obtain ⟨es, us, hv, hvalue, hreads, -⟩ :=
          Spec.record_reads (Spec.checkDepth_reads hbuilt n) hfs hmade (Schema.under_eq_ok.1 h)
        obtain ⟨rfl, rfl⟩ := hdoc.eq_of_params
        exact ⟨es, _, us, hv, hvalue, hreads⟩
      · cases h

theorem validated_accords (distinct : s.Distinct) (hm : Takeable s m) (us : List Use)
    (hus : ∀ u ∈ us, u.Spares s m) {params : Value} (hparams : params.StreamsOnTop) {es : Entries}
    (h : (Use.params m params).answer ((Compiler.new s).after us) = .ok (.params es)) :
    s.Accords s.tellsApart m es := by
  have hc := Compiler.documented_after distinct hm us hus
  rw [Use.answer, Use.work, Work.run_bind] at h
  rcases hrun : (Work.validateParams m params).run ((Compiler.new s).after us) with ⟨e | es', c'⟩
  · rw [hrun] at h
    cases h
  · rw [hrun] at h
    cases h
    obtain ⟨r, c₁, rs, schema, p, v, hv, hrecord, hbuild, hcheck, rfl⟩ := Work.exists_of_validateParams hrun
    have hyields := Compiler.paramsRecord_yields distinct hm
    have hc₁ : Documented s m c₁ := by simpa [hrecord] using hyields.keeps _ hc
    obtain ⟨hname, hfs⟩ := hyields.result hc hrecord
    rw [hc₁.spec] at hbuild
    have hdescribes := hc₁.describes distinct hm hname hfs
    obtain ⟨-, -, -, hschema⟩ := Site.build_eq_ok hbuild
    cases hschema
    obtain ⟨es, name, us, hes, hvalue, hreads⟩ := exists_of_check (hdescribes.build hbuild) hcheck
    rw [hvalue]
    refine Spec.accords_wireParams distinct hm ?_ hreads name
    rw [← hes, hv]
    split
    · exact hparams
    · intro es' hes' e he
      cases hes'
      cases he

namespace Value

mutual
def same : Value → Value → Bool
  | null, null => true
  | bool a, bool b => a == b
  | int a, int b => a == b
  | str a, str b => a == b
  | list xs, list ys => sameItems xs ys
  | dict es, dict fs => sameEntries es fs
  | _, _ => false
def sameItems : List Value → List Value → Bool
  | [], [] => true
  | x :: xs, y :: ys => same x y && sameItems xs ys
  | _, _ => false
def sameEntries : List (Value × Value) → List (Value × Value) → Bool
  | [], [] => true
  | e :: es, f :: fs => same e.1 f.1 && same e.2 f.2 && sameEntries es fs
  | _, _ => false
end

mutual
theorem eq_of_same : ∀ {v w : Value}, same v w = true → v = w
  | null, w, h => by
      cases w with
      | null => rfl
      | _ => cases h
  | bool a, w, h => by
      cases w with
      | bool b => rw [eq_of_beq h]
      | _ => cases h
  | int a, w, h => by
      cases w with
      | int b => rw [eq_of_beq h]
      | _ => cases h
  | str a, w, h => by
      cases w with
      | str b => rw [eq_of_beq h]
      | _ => cases h
  | list xs, w, h => by
      cases w with
      | list ys => rw [eq_of_sameItems h]
      | _ => cases h
  | dict es, w, h => by
      cases w with
      | dict fs => rw [eq_of_sameEntries h]
      | _ => cases h
theorem eq_of_sameItems : ∀ {xs ys : List Value}, sameItems xs ys = true → xs = ys
  | [], [], _ => rfl
  | x :: xs, y :: ys, h => by
      rw [sameItems, Bool.and_eq_true] at h
      rw [eq_of_same h.1, eq_of_sameItems h.2]
theorem eq_of_sameEntries : ∀ {es fs : List (Value × Value)}, sameEntries es fs = true → es = fs
  | [], [], _ => rfl
  | e :: es, f :: fs, h => by
      rw [sameEntries, Bool.and_eq_true, Bool.and_eq_true] at h
      rw [Prod.ext (eq_of_same h.1.1) (eq_of_same h.1.2), eq_of_sameEntries h.2]
end

end Value

def Compiler.Use.returns (u : Use) (c : Compiler) (es : Entries) : Bool :=
  match u.answer c with
  | .ok (.params fs) => Value.sameEntries fs es
  | _ => false

theorem Compiler.Use.answer_of_returns {u : Use} {c : Compiler} {es : Entries}
    (h : u.returns c es = true) : u.answer c = .ok (.params es) := by
  unfold Use.returns at h
  split at h
  · rename_i fs hanswer
    rw [hanswer, Value.eq_of_sameEntries h]
  · cases h

structure Deviates (s : Spec) (m : Method) (us : List Use) (es : Entries) : Prop where
  references : s.checkReferences = .ok ()
  attributes : ∀ t ∈ s.types, (t.fields.map (Catalog.attributeName ·.name)).Nodup
  method : m ∈ s.methods
  parameters : (m.params.map (Catalog.attributeName ·.name)).Nodup
  streams : (Value.dict es).StreamsOnTop
  answer : (Use.params m (.dict es)).answer ((Compiler.new s).after us) = .ok (.params es)
  accords : ¬ s.Accords (fun _ _ => false) m es

theorem Spec.ConformsField.typed_of_ne_null {p : Param} {w : Value}
    (h : s.ConformsField (fun _ _ => false) (fun _ => false) p w) (hw : w.isNull = false) :
    s.Conforms (fun _ _ => false) p.type w := by
  cases h with
  | null => cases hw
  | fixed holds => cases holds
  | typed _ conforms => exact conforms

theorem Spec.Conforms.of_entry {id : String} {t : ApiType} {key : Nat} {ps : List Param} {es : Entries}
    {k w : Value} (h : s.Conforms (fun _ _ => false) (.ref id) (.dict es))
    (hr : s.RecordOf id t key ps) (hmem : (k, w) ∈ es) (hw : w.isNull = false) :
    ∃ p ∈ ps, k = .str p.name ∧ s.Conforms (fun _ _ => false) p.type w := by
  obtain ⟨es', heq, hcomplete, heach⟩ := h.of_record hr
  cases heq
  obtain ⟨p, hp, rfl⟩ := hcomplete.known _ hmem
  exact ⟨p, hp, rfl, (heach p hp w hmem).typed_of_ne_null hw⟩

theorem Spec.Accords.of_entry {es : Entries} {k w : Value} (h : s.Accords (fun _ _ => false) m es)
    (hmem : (k, w) ∈ es) (hw : w.isNull = false) :
    ∃ p ∈ m.params, k = .str p.name ∧ s.Conforms (fun _ _ => false) p.type w := by
  obtain ⟨p, hp, rfl⟩ := h.complete.known _ hmem
  exact ⟨p, hp, rfl, (h.each p hp w hmem).typed_of_ne_null hw⟩

def plainParam (name : String) (type : TypeExpr) (required : Bool) : Param :=
  ⟨name, type, required, "", none, false⟩

def plainMethod (id name : String) (params : List Param) : Method := ⟨id, name, "", params, false, []⟩

-- A field of whole numbers that tells its type from another by a text.
namespace Numbered

def method : Method := plainMethod "send" "send" [plainParam "x" (.ref "s") true]

def spec : Spec where
  methods := [method]
  types := [
    ⟨"a", "A", "", .fields [⟨"kind", .basic "Integer", true, "", some "1", false⟩]⟩,
    ⟨"b", "B", "", .fields [⟨"kind", .basic "Integer", true, "", some "2", false⟩]⟩,
    ⟨"s", "S", "", .subtypes ["a", "b"]⟩]

def params : Entries := [(.str "x", .dict [(.str "kind", .str "1")])]

theorem not_conforms {id : String} {t : ApiType} {key : Nat} (text : String)
    (hr : spec.RecordOf id t key [⟨"kind", .basic "Integer", true, "", some text, false⟩]) :
    ¬ spec.Conforms (fun _ _ => false) (.ref id) (.dict [(.str "kind", .str "1")]) := by
  intro h
  obtain ⟨p, hp, -, hkind⟩ := h.of_entry hr (List.mem_singleton.2 rfl) rfl
  obtain rfl := List.mem_singleton.1 hp
  cases hkind with
  | basic admits =>
      obtain ⟨n, heq, -⟩ := admits
      cases heq

theorem deviates : Deviates spec method [] params where
  references := rfl
  attributes := by decide
  method := by decide
  parameters := by decide
  streams := by simp [Value.StreamsOnTop, params, Value.hasStream, Value.entryStream]
  answer := Use.answer_of_returns (by decide +kernel)
  accords h := by
    obtain ⟨p, hp, -, hs⟩ := h.of_entry (List.mem_singleton.2 rfl) rfl
    obtain rfl := List.mem_singleton.1 hp
    obtain ⟨i, hi, hi'⟩ := hs.of_subtypes (show spec.typeEntry? "s" =
      some (⟨"s", "S", "", .subtypes ["a", "b"]⟩, 2) from rfl) (by decide) rfl
    rcases List.mem_pair.1 hi with rfl | rfl
    · exact not_conforms "1" ⟨rfl, by decide, rfl, by decide⟩ hi'
    · exact not_conforms "2" ⟨rfl, by decide, rfl, by decide⟩ hi'

end Numbered

-- Two types of one name, one of which stands for the other while that is drafted.
namespace Twins

def method : Method := plainMethod "send" "send" [plainParam "q" (.ref "a1") true]

def spec : Spec where
  methods := [method]
  types := [
    ⟨"a1", "A", "", .fields [plainParam "w" (.ref "a2") false, plainParam "x" (.ref "b") true]⟩,
    ⟨"b", "B", "", .fields [plainParam "y" (.ref "a1") true]⟩,
    ⟨"a2", "A", "", .fields [plainParam "z" (.basic "Integer") true]⟩]

def params : Entries := [(.str "q", .dict [(.str "x", .dict [(.str "y", .dict [(.str "z", .int 1)])])])]

theorem deviates : Deviates spec method [] params where
  references := rfl
  attributes := by decide
  method := by decide
  parameters := by decide
  streams := by simp [Value.StreamsOnTop, params, Value.hasStream, Value.entryStream]
  answer := Use.answer_of_returns (by decide +kernel)
  accords h := by
    obtain ⟨p, hp, -, hq⟩ := h.of_entry (List.mem_singleton.2 rfl) rfl
    obtain rfl := List.mem_singleton.1 hp
    obtain ⟨p, hp, hname, hx⟩ := hq.of_entry ⟨rfl, by decide, rfl, by decide⟩
      (List.mem_singleton.2 rfl) rfl
    rcases List.mem_pair.1 hp with rfl | rfl
    · exact absurd (Value.str.inj hname) (by decide)
    · obtain ⟨p, hp, -, hy⟩ := hx.of_entry ⟨rfl, by decide, rfl, by decide⟩
        (List.mem_singleton.2 rfl) rfl
      obtain rfl := List.mem_singleton.1 hp
      obtain ⟨p, hp, hname, -⟩ := hy.of_entry ⟨rfl, by decide, rfl, by decide⟩
        (List.mem_singleton.2 rfl) rfl
      rcases List.mem_pair.1 hp with rfl | rfl <;> exact absurd (Value.str.inj hname) (by decide)

end Twins

-- A type with the name of the record of the parameters, which then stands for it.
namespace Shadowed

def method : Method :=
  plainMethod "send" "send" [plainParam "q" (.ref "a") false, plainParam "x" (.ref "s1") true]

def spec : Spec where
  methods := [method]
  types := [
    ⟨"a", "SendParams", "", .fields [plainParam "f" (.ref "s1") false]⟩,
    ⟨"b", "B", "", .fields [plainParam "x" (.basic "Integer") true]⟩,
    ⟨"c", "C", "", .fields [plainParam "y" (.basic "Integer") true]⟩,
    ⟨"s1", "S1", "", .subtypes ["s2", "c"]⟩,
    ⟨"s2", "S2", "", .subtypes ["a", "b"]⟩]

def params : Entries := [(.str "x", .dict [(.str "x", .dict [(.str "y", .int 1)])])]

theorem not_conforms {id : String} {t : ApiType} {key : Nat} {p : Param} (hr : spec.RecordOf id t key [p])
    (hp : p.name ≠ "x" ∨ p.type = .basic "Integer") :
    ¬ spec.Conforms (fun _ _ => false) (.ref id) (.dict [(.str "x", .dict [(.str "y", .int 1)])]) := by
  intro h
  obtain ⟨p', hp', hname, hx⟩ := h.of_entry hr (List.mem_singleton.2 rfl) rfl
  obtain rfl := List.mem_singleton.1 hp'
  rcases hp with hne | htype
  · exact hne (Value.str.inj hname).symm
  · rw [htype] at hx
    cases hx with
    | basic admits =>
        obtain ⟨n, heq, -⟩ := admits
        cases heq

theorem deviates : Deviates spec method [] params where
  references := rfl
  attributes := by decide
  method := by decide
  parameters := by decide
  streams := by simp [Value.StreamsOnTop, params, Value.hasStream, Value.entryStream]
  answer := Use.answer_of_returns (by decide +kernel)
  accords h := by
    obtain ⟨p, hp, hname, hx⟩ := h.of_entry (List.mem_singleton.2 rfl) rfl
    rcases List.mem_pair.1 hp with rfl | rfl
    · exact absurd (Value.str.inj hname) (by decide)
    · obtain ⟨i, hi, hs⟩ := hx.of_subtypes (show spec.typeEntry? "s1" =
        some (⟨"s1", "S1", "", .subtypes ["s2", "c"]⟩, 3) from rfl) (by decide) rfl
      rcases List.mem_pair.1 hi with rfl | rfl
      · obtain ⟨i, hi, hs⟩ := hs.of_subtypes (show spec.typeEntry? "s2" =
          some (⟨"s2", "S2", "", .subtypes ["a", "b"]⟩, 4) from rfl) (by decide) rfl
        rcases List.mem_pair.1 hi with rfl | rfl
        · exact not_conforms ⟨rfl, by decide, rfl, by decide⟩ (.inl (by decide)) hs
        · exact not_conforms ⟨rfl, by decide, rfl, by decide⟩ (.inr rfl) hs
      · exact not_conforms ⟨rfl, by decide, rfl, by decide⟩ (.inl (by decide)) hs

end Shadowed

-- A type with the names of two others in its own, which then stands for their union.
namespace Joined

def method : Method := plainMethod "send" "send"
  [plainParam "q1" (.ref "a") false, plainParam "q2" (.ref "i") false, plainParam "v" (.ref "b") true]

def spec : Spec where
  methods := [method]
  types := [
    ⟨"a", "A", "", .fields [plainParam "p" (.basic "Integer") false]⟩,
    ⟨"b", "B", "", .fields [plainParam "y" (.ref "i") false]⟩,
    ⟨"i", "A|B", "", .fields [plainParam "x" (.ref "b") false]⟩]

def params : Entries := [(.str "v", .dict [(.str "y", .dict [(.str "p", .int 1)])])]

theorem record_i : spec.RecordOf "i" ⟨"i", "A|B", "", .fields [plainParam "x" (.ref "b") false]⟩ 2
    [plainParam "x" (.ref "b") false] := ⟨rfl, by decide, rfl, by decide⟩

theorem deviates : Deviates spec method [] params where
  references := rfl
  attributes := by decide
  method := by decide
  parameters := by decide
  streams := by simp [Value.StreamsOnTop, params, Value.hasStream, Value.entryStream]
  answer := Use.answer_of_returns (by decide +kernel)
  accords h := by
    obtain ⟨p, hp, hname, hb⟩ := h.of_entry (List.mem_singleton.2 rfl) rfl
    rcases List.mem_cons.1 hp with rfl | hp
    · exact absurd (Value.str.inj hname) (by decide)
    rcases List.mem_pair.1 hp with rfl | rfl
    · exact absurd (Value.str.inj hname) (by decide)
    obtain ⟨p, hp, -, hi⟩ := hb.of_entry ⟨rfl, by decide, rfl, by decide⟩ (List.mem_singleton.2 rfl) rfl
    obtain rfl := List.mem_singleton.1 hp
    obtain ⟨p, hp, hname, -⟩ := hi.of_entry record_i (List.mem_singleton.2 rfl) rfl
    obtain rfl := List.mem_singleton.1 hp
    exact absurd (Value.str.inj hname) (by decide)

end Joined

-- Two methods of one identifier: the parameters of the one used first count for both.
namespace Mixed

def method : Method := plainMethod "send" "send" [plainParam "a" (.basic "Integer") true]

def other : Method := plainMethod "send" "resend" [plainParam "b" (.basic "String") true]

def spec : Spec where
  methods := [method, other]
  types := []

def params : Entries := [(.str "b", .str "x")]

theorem deviates : Deviates spec method [.params other (.dict params)] params where
  references := rfl
  attributes := by decide
  method := by decide
  parameters := by decide
  streams := by simp [Value.StreamsOnTop, params, Value.hasStream]
  answer := Use.answer_of_returns (by decide +kernel)
  accords h := by
    obtain ⟨p, hp, hname, -⟩ := h.of_entry (List.mem_singleton.2 rfl) rfl
    obtain rfl := List.mem_singleton.1 hp
    exact absurd (Value.str.inj hname) (by decide)

end Mixed

theorem validated_deviates :
    Deviates Numbered.spec Numbered.method [] Numbered.params ∧
      Deviates Twins.spec Twins.method [] Twins.params ∧
      Deviates Shadowed.spec Shadowed.method [] Shadowed.params ∧
      Deviates Joined.spec Joined.method [] Joined.params ∧
      Deviates Mixed.spec Mixed.method [.params Mixed.other (.dict Mixed.params)] Mixed.params :=
  ⟨Numbered.deviates, Twins.deviates, Shadowed.deviates, Joined.deviates, Mixed.deviates⟩

theorem numbered_accords : Numbered.spec.Accords Numbered.spec.tellsApart Numbered.method Numbered.params :=
  validated_accords ⟨⟨by decide, by decide +kernel, by decide +kernel, by decide +kernel⟩, by decide⟩ ⟨by decide, by decide⟩ []
    (by simp) Numbered.deviates.streams Numbered.deviates.answer

end BotApi
