import BotApi.Proofs.Values.Preserved
/-!
Parameters of the documented form are accepted, and those that are data go on the wire as they are, whatever the
compiler was used for before.
-/

namespace BotApi

open Compiler (Use)
open Draft (FieldOf Site)
open Schema (Passed Records checkDepth)

namespace Spec

variable {s : Spec} {good : String → Prop} {m : Method} {rs : Records} {n : Nat}

def PreservesParams (s : Spec) (m : Method) (es : Entries) : Prop :=
  ∀ p ∈ m.params, ∀ w, (.str p.name, w) ∈ es → s.PreservesField (fun _ => false) p w

theorem Stands.onWire_eq {p : Param} {u : String × Passed} (h : s.Stands good m rs p.type) (ready : s.Ready good m rs)
    {fixed : String → Bool} (hdraft : (s.idealOf fixed p).draft = .ofExpr s.ideal p.type) (hw : w.Data)
    (htakes : (s.paramsSite m).Takes (checkDepth rs .values n) (s.idealOf fixed p) (.str p.name, w) u) :
    u.2.value.onWire = u.2.value.plainData := by
  rcases htakes.null_or with ⟨-, hu⟩ | hmakes
  · rw [hu]
    rfl
  · rw [hdraft] at hmakes
    exact (h.reads ready hmakes).onWire_eq (Value.hasStream_of_data hw)

end Spec

structure Alters (s : Spec) (m : Method) (es : Entries) : Prop where
  references : s.checkReferences = .ok ()
  attributes : ∀ t ∈ s.types, (t.fields.map (Catalog.attributeName ·.name)).Nodup
  method : m ∈ s.methods
  parameters : (m.params.map (Catalog.attributeName ·.name)).Nodup
  data : (Value.dict es).Data
  accords : s.Accords (fun _ _ => false) m es
  altered : ∀ out, (Use.params m (.dict es)).answer (.new s) = .ok (.params out) → ¬ (Value.dict out).Alike (.dict es)

theorem Entries.complete_single (p : Param) (w : Value) : Entries.Complete [p] [(.str p.name, w)] where
  once := List.nodup_singleton _
  known e he := ⟨p, List.mem_singleton_self p, by rw [List.mem_singleton.1 he]⟩
  required q hq _ := ⟨w, by rw [List.mem_singleton.1 hq]; exact List.mem_singleton_self _⟩

theorem Spec.Accords.single {s : Spec} {told : String → String → Bool} {m : Method} {p : Param} {w : Value}
    (hparams : m.params = [p]) (h : s.ConformsField told (fun _ => false) p w) : s.Accords told m [(.str p.name, w)] where
  complete := hparams ▸ Entries.complete_single p w
  each q hq v hv := by
    rw [hparams] at hq
    cases List.mem_singleton.1 hq
    cases List.mem_singleton.1 hv
    exact h

theorem Spec.Conforms.single {s : Spec} {told : String → String → Bool} {id : String} {t : ApiType} {key : Nat}
    {p : Param} {w : Value} (hr : s.RecordOf id t key [p]) (h : s.ConformsField told (told id) p w) :
    s.Conforms told (.ref id) (.dict [(.str p.name, w)]) := by
  refine .record hr (Entries.complete_single p w) fun q hq v hv => ?_
  cases List.mem_singleton.1 hq
  cases List.mem_singleton.1 hv
  exact h

theorem Spec.Preserves.single {s : Spec} {id : String} {t : ApiType} {key : Nat} {p : Param} {w : Value}
    (hr : s.RecordOf id t key [p]) (h : s.PreservesField (s.tellsApart id) p w) :
    s.Preserves (.ref id) (.dict [(.str p.name, w)]) := by
  refine .record hr (Entries.complete_single p w) fun q hq v hv => ?_
  cases List.mem_singleton.1 hq
  cases List.mem_singleton.1 hv
  exact h

theorem Spec.Reads.of_single {s : Spec} {id : String} {t : ApiType} {key : Nat} {p : Param} {w u : Value}
    (h : s.Reads (.ref id) (.dict [(.str p.name, w)]) u) (hr : s.RecordOf id t key [p])
    (hfree : s.tellsApart id p.name = false) (hrequired : p.required = true) : ∃ u', s.Reads p.type w u' := by
  cases h with
  | file entry name =>
      cases hr.entry.symm.trans entry
      exact absurd name hr.name
  | bare entry _ shape =>
      cases hr.entry.symm.trans entry
      cases hr.shape.symm.trans shape
  | subtype entry _ shape =>
      cases hr.entry.symm.trans entry
      cases hr.shape.symm.trans shape
  | record record _ fields =>
      cases hr.entry.symm.trans record.entry
      cases hr.shape.symm.trans record.shape
      cases fields with
      | absent _ optional => exact absurd (hrequired.symm.trans optional) (by decide)
      | given given field =>
          have hw : p.given? [(.str p.name, w)] = some w := by
            simp [Param.given?, Entries.getText?, Entries.get?, Value.equal_str_self]
          cases hw.symm.trans given
          cases field with
          | null optional => exact absurd (hrequired.symm.trans optional) (by decide)
          | fixed holds => exact absurd (hfree.symm.trans holds) (by decide)
          | typed _ _ reads => exact ⟨_, reads⟩

theorem Value.alike_of_single {k v w : Value} (h : Alike (.dict [(k, v)]) (.dict [(k, w)])) : Alike v w := by
  cases h with
  | same => exact .same v
  | dict _ each => exact each k v w (List.mem_singleton_self _) (List.mem_singleton_self _)

namespace Tried

def number : Param := plainParam "x" (.basic "Integer") true

def text : Param := plainParam "x" (.basic "String") true

def param : Param := plainParam "value" (.ref "s") true

def method : Method := plainMethod "send" "send" [param]

def spec : Spec where
  methods := [method]
  types := [⟨"a", "A", "", .fields [number]⟩, ⟨"b", "B", "", .fields [text]⟩, ⟨"s", "S", "", .subtypes ["a", "b"]⟩]

def params (v : Value) : Entries := [(.str "value", .dict [(.str "x", v)])]

theorem record_a : spec.RecordOf "a" ⟨"a", "A", "", .fields [number]⟩ 0 [number] := ⟨rfl, by decide, rfl, by decide⟩

theorem record_b : spec.RecordOf "b" ⟨"b", "B", "", .fields [text]⟩ 1 [text] := ⟨rfl, by decide, rfl, by decide⟩

theorem entry : spec.typeEntry? "s" = some (⟨"s", "S", "", .subtypes ["a", "b"]⟩, 2) := rfl

theorem data (t : String) : (Value.dict (params (.str t))).Data :=
  .dict (List.nodup_singleton _) fun e he => by
    obtain rfl := List.mem_singleton.1 he
    refine .dict (List.nodup_singleton _) fun e he => ?_
    obtain rfl := List.mem_singleton.1 he
    exact .str t

theorem accords {told : String → String → Bool} (hfree : told "b" "x" = false) (t : String) :
    spec.Accords told method (params (.str t)) := by
  have hb : spec.Conforms told (.ref "b") (.dict [(.str "x", .str t)]) :=
    .single record_b (.typed hfree (.basic ⟨t, rfl⟩))
  exact .single (p := param) rfl (.typed rfl (.subtype entry (by decide) rfl (by decide) hb))

theorem altered : Alters spec method (params (.str "5")) where
  references := rfl
  attributes := by decide
  method := by decide
  parameters := by decide
  data := data "5"
  accords := accords rfl "5"
  altered out h halike := by
    have hanswer : (Use.params method (.dict (params (.str "5")))).answer (.new spec) = .ok (.params (params (.int 5))) :=
      Use.answer_of_returns (by decide +kernel)
    cases hanswer.symm.trans h
    cases Value.alike_of_single (Value.alike_of_single halike)

theorem orderly : spec.Orderly where
  names := by decide
  free := by decide +kernel
  fields := by decide +kernel
  params := by decide
  references := rfl
  acyclic := Spec.acyclic_of_depth (fun id => if id = "s" then 1 else 0) (by decide)
  drafted t ht := Work.exists_of_isOk <| by
    revert t
    decide +kernel
  methods := by decide
  models := by decide

theorem preserves {t : String} (ht : ∀ r, Schema.readInteger (.str t) ≠ .ok r) :
    spec.PreservesParams method (params (.str t)) := by
  intro p hp w hw
  cases List.mem_singleton.1 hp
  cases List.mem_singleton.1 hw
  have hb : spec.Preserves (.ref "b") (.dict [(.str "x", .str t)]) :=
    .single record_b (.typed rfl (.basic ⟨t, rfl⟩))
  have hshape : (⟨"s", "S", "", .subtypes ["a", "b"]⟩ : ApiType).shape = .subtypes (["a"] ++ "b" :: []) := rfl
  refine .typed rfl (.tried entry (by decide) hshape rfl (fun j hj q hq => ?_) hb)
  cases List.mem_singleton.1 hj
  have hgood : ∀ i, (TypeExpr.ref "a").Mentions i → spec.Good i := fun i hi => by
    cases hi
    exact orderly.good (by decide)
  have hreads := hq.reads (Spec.sound_good orderly.toNamed) ⟨orderly.toNamed, by decide⟩ hgood
  obtain ⟨u, hu⟩ := hreads.of_single (p := number) record_a rfl rfl
  cases hu with
  | basic reads =>
      obtain ⟨n, g, hread, -⟩ := reads
      exact absurd hread (ht (n, g))

end Tried

namespace Flagged

def param : Param := plainParam "value" (.union [.basic "True", .basic "Integer"]) true

def method : Method := plainMethod "send" "send" [param]

def spec : Spec where
  methods := [method]
  types := []

def params (v : Value) : Entries := [(.str "value", v)]

theorem altered : Alters spec method (params (.int 1)) where
  references := rfl
  attributes := by decide
  method := by decide
  parameters := by decide
  data := .dict (List.nodup_singleton _) fun e he => by
    obtain rfl := List.mem_singleton.1 he
    exact .int 1
  accords :=
    .single (p := param) rfl (.typed rfl (.option (by decide) (.basic (n := "Integer") ⟨1, rfl, by decide, by decide⟩)))
  altered out h halike := by
    have hanswer : (Use.params method (.dict (params (.int 1)))).answer (.new spec) = .ok (.params (params (.bool true))) :=
      Use.answer_of_returns (by decide +kernel)
    cases hanswer.symm.trans h
    cases Value.alike_of_single halike

end Flagged

namespace Labelled

def kind (text : String) : Param := ⟨"kind", .basic "String", true, "", some text, false⟩

def method : Method := plainMethod "send" "send" [Tried.param]

def spec : Spec where
  methods := [method]
  types := [⟨"a", "A", "", .fields [kind "a"]⟩, ⟨"b", "B", "", .fields [kind "b"]⟩, ⟨"s", "S", "", .subtypes ["a", "b"]⟩]

def params : Entries := [(.str "value", .dict [(.str "kind", .str "c")])]

theorem altered : Alters spec method params where
  references := rfl
  attributes := by decide
  method := by decide
  parameters := by decide
  data := .dict (List.nodup_singleton _) fun e he => by
    obtain rfl := List.mem_singleton.1 he
    refine .dict (List.nodup_singleton _) fun e he => ?_
    obtain rfl := List.mem_singleton.1 he
    exact .str "c"
  accords := by
    have hrecord : spec.RecordOf "a" ⟨"a", "A", "", .fields [kind "a"]⟩ 0 [kind "a"] :=
      ⟨rfl, by decide, rfl, by decide⟩
    have ha : spec.Conforms (fun _ _ => false) (.ref "a") (.dict [(.str "kind", .str "c")]) :=
      .single hrecord (.typed rfl (.basic ⟨"c", rfl⟩))
    have hs : spec.typeEntry? "s" = some (⟨"s", "S", "", .subtypes ["a", "b"]⟩, 2) := rfl
    exact .single (p := Tried.param) rfl (.typed rfl (.subtype hs (by decide) rfl (by decide) ha))
  altered out h _ := by
    have hrefused : ((Use.params method (.dict params)).answer (.new spec)).isOk = false := by decide +kernel
    rw [h] at hrefused
    cases hrefused

end Labelled

namespace Joined

def nested : Entries := [(.str "v", .dict [(.str "y", .dict [(.str "x", .dict [])])])]

theorem conforms {told : String → String → Bool} (hb : told "b" "y" = false) (hi : told "i" "x" = false) :
    spec.Conforms told (.ref "b") (.dict [(.str "y", .dict [(.str "x", .dict [])])]) := by
  have hrecord : spec.RecordOf "b" ⟨"b", "B", "", .fields [plainParam "y" (.ref "i") false]⟩ 1
      [plainParam "y" (.ref "i") false] := ⟨rfl, by decide, rfl, by decide⟩
  have hempty : spec.Conforms told (.ref "b") (.dict []) :=
    .record hrecord ⟨List.nodup_nil, by simp, by simp [plainParam]⟩ fun p hp w hw => by cases hw
  have hx : spec.ConformsField told (told "i") (plainParam "x" (.ref "b") false) (.dict []) := .typed hi hempty
  have hy : spec.ConformsField told (told "b") (plainParam "y" (.ref "i") false) (.dict [(.str "x", .dict [])]) :=
    .typed hb (.single record_i hx)
  exact .single hrecord hy

theorem altered : Alters spec method nested where
  references := rfl
  attributes := by decide
  method := by decide
  parameters := by decide
  data := by
    have hone {k : String} {w : Value} (hw : w.Data) : (Value.dict [(.str k, w)]).Data :=
      .dict (List.nodup_singleton _) fun e he => by
        obtain rfl := List.mem_singleton.1 he
        exact hw
    exact hone (hone (hone (.dict List.nodup_nil fun e he => by cases he)))
  accords := by
    refine ⟨⟨List.nodup_singleton _, fun e he => ?_, fun p hp hrequired => ?_⟩, fun p hp w hw => ?_⟩
    · exact ⟨plainParam "v" (.ref "b") true, by simp [method, plainMethod], by rw [List.mem_singleton.1 he]; rfl⟩
    · have hv : p = plainParam "v" (.ref "b") true := by
        simp only [method, plainMethod, List.mem_cons, List.not_mem_nil, or_false] at hp
        rcases hp with rfl | rfl | rfl <;> simp_all [plainParam]
      exact ⟨_, by rw [hv]; exact List.mem_singleton_self _⟩
    · obtain ⟨hname, rfl⟩ := Prod.mk.inj (List.mem_singleton.1 hw)
      have hname := Value.str.inj hname
      simp only [method, plainMethod, List.mem_cons, List.not_mem_nil, or_false] at hp
      rcases hp with rfl | rfl | rfl
      · exact absurd hname (by decide)
      · exact absurd hname (by decide)
      · exact .typed rfl (conforms rfl rfl)
  altered out h _ := by
    have hrefused : ((Use.params method (.dict nested)).answer (.new spec)).isOk = false := by decide +kernel
    rw [h] at hrefused
    cases hrefused

end Joined

end BotApi
