import BotApi.Proofs.Draft.Filed
import BotApi.Proofs.Json.Writable
import BotApi.Proofs.Values.Carried
import BotApi.Proofs.Values.Supplied
import BotApi.Wire.Encode
/-!
Files among the parameters of a call. A file that is given where a method takes files comes out of the check as it
is, under the name of its parameter; whatever has a JSON text comes out with a JSON text.
-/

namespace BotApi

open Compiler (Use)
open Draft (Carries FieldOf HasFile Site)
open Json (Writable exists_float writable_bool writable_dict writable_int writable_list writable_null writable_str)
open Schema (Passed Records Verdict checkDepth isFile)
open Wire.Encode (fieldStyle)

/-! Files -/

namespace Schema

variable {v : Value} {g : Grade} {rs : Records} {source : Source} {descend : Schema → Value → Verdict}

theorem exists_numeral_bytes (f : Fault) (content : List UInt8) : ∃ s, numeral? f (.bytes content) = some s := by
  rw [numeral?]
  split <;> exact ⟨_, rfl⟩

theorem readText_isFile {t : String} (hv : isFile v = true) (h : readText v = .ok (t, g)) : g = .lax := by
  cases v with
  | bytes content | buffer content =>
      rw [readText] at h
      split at h <;> cases h
      rfl
  | path | stream => cases h
  | _ => cases hv

theorem readInteger_isFile {n : Int} (hv : isFile v = true) (h : readInteger v = .ok (n, g)) : g = .lax := by
  cases v with
  | bytes content =>
      obtain ⟨s, hs⟩ := exists_numeral_bytes .integerText content
      simp only [readInteger, hs] at h
      exact lax_of_map h
  | buffer | path | stream => cases h
  | _ => cases hv

theorem readNumber_isFile {x : Float} (hv : isFile v = true) (h : readNumber v = .ok (x, g)) : g = .lax := by
  cases v with
  | bytes content =>
      obtain ⟨s, hs⟩ := exists_numeral_bytes .numberText content
      simp only [readNumber, hs] at h
      exact lax_of_map h
  | buffer | path | stream => cases h
  | _ => cases hv

theorem readFlag_isFile {b : Bool} (hv : isFile v = true) (h : readFlag v = .ok (b, g)) : g = .lax := by
  cases v with
  | bytes content =>
      obtain ⟨s, hs⟩ := exists_numeral_bytes .flagText content
      simp only [readFlag, hs] at h
      exact lax_of_map h
  | buffer | path | stream => cases h
  | _ => cases hv

/-! No fields of records are set by a file. -/

theorem fieldsSet_ofScalar {α : Type} (wrap : α → Value) (x : Graded α) :
    (scoreOf (Verdict.ofScalar wrap x)).fieldsSet = none := by
  cases x <;> rfl

theorem fieldsSet_bounded {α : Type} (wrap : α → Value) (fault? : α → Option Fault) (x : Graded α) :
    (scoreOf (Verdict.bounded wrap fault? x)).fieldsSet = none := by
  rcases x with f | ⟨a, g⟩
  · rfl
  · rw [Verdict.bounded]
    split <;> rfl

theorem fieldsSet_dropRepeats {p : Passed} (h : p.fieldsSet = none) : (scoreOf (dropRepeats p)).fieldsSet = none := by
  unfold dropRepeats
  split
  · rfl
  · exact h
  · exact h

theorem fieldsSet_andThen {a b : Score} (ha : a.fieldsSet = none) (hb : b.fieldsSet = none) :
    (a.andThen b).fieldsSet = none := by
  unfold Score.andThen
  split
  · exact hb
  · simp only [ha, hb, addSet]

theorem fieldsSet_pick {vs : List Verdict} {best : Option Passed} {findings : List Finding}
    (hbest : ∀ p ∈ best, p.fieldsSet = none) (h : ∀ x ∈ vs, (scoreOf x).fieldsSet = none) :
    (scoreOf ((pick best findings vs).map Passed.picked)).fieldsSet = none := by
  induction vs generalizing best findings with
  | nil =>
      cases best with
      | none => rfl
      | some p => exact hbest p rfl
  | cons x vs ih =>
      rw [List.forall_mem_cons] at h
      cases x with
      | error r => exact ih hbest h.2
      | ok q =>
          rw [pick_ok_cons]
          split
          · exact h.1
          · refine ih (fun p hp => ?_) h.2
            cases hp
            rcases better_cases best q with hq | hq
            · rw [hq]
              exact h.1
            · exact hbest _ hq

theorem fieldsSet_pickFirst {vs : List Verdict} {left : Score} {findings : List Finding} (hleft : left.fieldsSet = none)
    (h : ∀ x ∈ vs, (scoreOf x).fieldsSet = none) : (scoreOf (pickFirst left findings vs)).fieldsSet = none := by
  induction vs generalizing left findings with
  | nil => exact hleft
  | cons x vs ih =>
      rw [List.forall_mem_cons] at h
      have hscore := fieldsSet_andThen hleft h.1
      cases x with
      | error r => exact ih hscore h.2
      | ok p => exact hscore

mutual
theorem fieldsSet_step (hv : isFile v = true) : ∀ schema : Schema,
    (scoreOf (step rs source descend schema v)).fieldsSet = none
  | .any => rfl
  | .text | .number | .flag => fieldsSet_ofScalar _ _
  | .nonEmptyText | .integer _ _ | .positiveInteger | .positiveNumber => fieldsSet_bounded _ _ _
  | .onlyTrue => by
      rw [step]
      split <;> rfl
  | .onlyText ts => by
      cases v with
      | bytes | buffer | path | stream => rfl
      | _ => cases hv
  | .file => by
      rw [step, if_pos hv]
      rfl
  | .path => by
      cases v with
      | bytes | buffer | path | stream => rfl
      | _ => cases hv
  | .optional s => by
      rw [step]
      split
      · rfl
      · exact fieldsSet_step hv s
  | .array s => by
      cases v with
      | bytes | buffer | path | stream => rfl
      | _ => cases hv
  | .distinct s => by
      have hs := fieldsSet_step hv s
      rw [step]
      split
      next p hp =>
        rw [hp] at hs
        exact fieldsSet_dropRepeats hs
      next r hr =>
        rw [hr] at hs
        exact hs
  | .union os => by
      rw [step]
      exact fieldsSet_pick (by simp) (fieldsSet_verdicts hv os)
  | .firstOf os => by
      rw [step]
      exact fieldsSet_pickFirst rfl (fieldsSet_verdicts hv os)
  | .tagged readers cs => by
      cases v with
      | bytes | buffer | path | stream =>
          simp only [step]
          split <;> rfl
      | _ => cases hv
  | .record k => by
      rw [step]
      split
      next r _ =>
        rw [scoreOf_under]
        cases v with
        | bytes | buffer | path | stream => rfl
        | _ => cases hv
      next => rfl
theorem fieldsSet_verdicts (hv : isFile v = true) : ∀ ss : List Schema,
    ∀ x ∈ verdicts rs source descend ss v, (scoreOf x).fieldsSet = none
  | [] => by simp [verdicts]
  | s :: ss => by
      rw [verdicts, List.forall_mem_cons, scoreOf_under]
      exact ⟨fieldsSet_step hv s, fieldsSet_verdicts hv ss⟩
end

end Schema

theorem BasicType.kept_or_lax {b : BasicType} {rs : Records} {descend : Schema → Value → Verdict} {v : Value} {p : Passed}
    (h : Schema.step rs .values descend b.schema v = .ok p) (hv : isFile v = true) : p.value = v ∨ p.grade = .lax := by
  cases b with
  | flag =>
      obtain ⟨a, g, hread, rfl⟩ := ofScalar_eq_ok h
      exact .inr (Schema.readFlag_isFile hv hread)
  | onlyTrue =>
      obtain ⟨hequal, -⟩ := reads_of_step (b := .onlyTrue) h
      cases v with
      | bytes | buffer | path | stream => simp [Value.equal, Value.equalAtoms, Value.integer?] at hequal
      | _ => cases hv
  | text =>
      obtain ⟨a, g, hread, rfl⟩ := ofScalar_eq_ok h
      exact .inr (Schema.readText_isFile hv hread)
  | integer =>
      obtain ⟨a, g, hread, -, rfl⟩ := bounded_eq_ok h
      exact .inr (Schema.readInteger_isFile hv hread)
  | number =>
      obtain ⟨a, g, hread, rfl⟩ := ofScalar_eq_ok h
      exact .inr (Schema.readNumber_isFile hv hread)
  | file => exact .inl (reads_of_step (b := .file) h).2
  | any => exact .inl (reads_of_step (b := .any) h)

-- A file is read as it is or, at worst, as the text in it.
theorem carries_file : Carries fun v p => isFile v = true → p.value = v ∨ p.grade = .lax where
  basic h hv := BasicType.kept_or_lax h hv
  literal _ hv := by cases hv
  null hv := by cases hv
  list _ _ hv := by cases hv
  tuple _ _ hv := by cases hv
  record _ _ hv := by cases hv
  picked h hv := h hv
  after left h hv := by
    refine (h hv).imp_right fun hlax => ?_
    unfold Passed.after Schema.Score.andThen
    dsimp only
    split
    · exact hlax
    · rw [hlax]
      cases left.grade <;> rfl

section

variable {site : Site} {rs : Records} {n : Nat} {d : Draft} {schema : Schema} {v : Value} {p : Passed}

-- Among the options of a union it is the type of files that decides, since it changes a file least.
theorem Draft.HasFile.value_eq (hmade : ∀ {k r}, rs.get? k = some r → ∃ fs, site.Made fs r) (h : d.HasFile)
    (hschema : site.schemaOf d = .ok schema) (hv : isFile v = true)
    (hcheck : checkDepth rs .values n schema v = .ok p) : p.value = v := by
  cases n with
  | zero => cases hcheck
  | succ n =>
      have hown : Schema.step rs .values (checkDepth rs .values n) .file v = .ok ⟨.of .strict, v⟩ := by
        rw [Schema.step, if_pos hv]
      refine (carries_file.checkDepth hmade (n + 1) d _ _ _ hschema hcheck hv).resolve_right fun hlax => ?_
      cases d with
      | union ds =>
          obtain ⟨schemas, hschemas, rfl⟩ := ok_of_map hschema
          obtain ⟨o, hmem, ho⟩ := exists_right_of_mem (Site.forall₂_schemasOf hschemas) h
          cases ho
          have hset : ∀ o ∈ schemas, ∀ q, Schema.step rs .values (checkDepth rs .values n) o v = .ok q →
              q.fieldsSet = none := by
            intro o _ q hq
            have hnone : (Schema.scoreOf (Schema.step rs .values (checkDepth rs .values n) o v)).fieldsSet = none :=
              Schema.fieldsSet_step hv o
            rwa [hq] at hnone
          have hrank := Schema.rank_le_of_union hcheck hset hmem hown
          rw [hlax] at hrank
          exact absurd hrank (Nat.not_succ_le_zero 0)
      | basic b =>
          cases List.mem_singleton.1 h
          cases hschema
          cases hown.symm.trans hcheck
          cases hlax
      | _ => cases List.mem_singleton.1 h

end

/-! What has a JSON text -/

mutual
theorem Json.Writable.plainData {style : Json.Style} : ∀ {v : Value}, Writable style v → Writable style v.plainData
  | .null, h | .bool _, h | .int _, h | .float _, h | .str _, h => h
  | .list _, h => by
      rw [Value.plainData]
      exact writable_list.2 (plainItems_writable (writable_list.1 h))
  | .tuple _, h => by
      rw [Value.plainData]
      exact writable_list.2 (plainItems_writable (Json.writable_tuple.1 h))
  | .dict _, h => by
      rw [Value.plainData]
      exact writable_dict.2 (plainEntries_writable (writable_dict.1 h))
  | .bytes _, h | .buffer _, h | .path _, h | .stream _ _, h | .record _ _, h | .limits _, h
  | .byChat _ _, h | .byChatKind, h | .moment _ _ _, h | .spent, h | .plain, h => by
      obtain ⟨t, ht⟩ := h
      cases ht
theorem plainItems_writable {style : Json.Style} : ∀ {xs : List Value}, (∀ x ∈ xs, Writable style x) →
    ∀ x ∈ Value.plainItems xs, Writable style x
  | [], _ => by simp [Value.plainItems]
  | x :: xs, h => by
      rw [List.forall_mem_cons] at h
      rw [Value.plainItems, List.forall_mem_cons]
      exact ⟨h.1.plainData, plainItems_writable h.2⟩
theorem plainEntries_writable {style : Json.Style} : ∀ {es : Entries},
    (∀ e ∈ es, (∃ k, Json.key style e.1 = .ok k) ∧ Writable style e.2) →
    ∀ e ∈ Value.plainEntries es, (∃ k, Json.key style e.1 = .ok k) ∧ Writable style e.2
  | [], _ => by simp [Value.plainEntries]
  | (k, v) :: es, h => by
      rw [List.forall_mem_cons] at h
      rw [Value.plainEntries, List.forall_mem_cons]
      exact ⟨⟨h.1.1, h.1.2.plainData⟩, plainEntries_writable h.2⟩
end

theorem Json.Writable.onWire {style : Json.Style} {v : Value} (h : Writable style v.plainData) :
    Writable style v.onWire := by
  unfold Value.onWire
  split
  next hfile =>
    obtain ⟨t, ht⟩ := h
    cases v with
    | bytes | buffer | path | stream => cases ht
    | _ => cases hfile
  next => exact h

theorem BasicType.writable_of_step {b : BasicType} {rs : Records} {descend : Schema → Value → Verdict} {v : Value}
    {p : Passed} (h : Schema.step rs .values descend b.schema v = .ok p) (hv : Writable fieldStyle v) :
    Writable fieldStyle p.value.plainData := by
  have hreads := reads_of_step h
  cases b with
  | flag =>
      obtain ⟨b, g, -, hvalue⟩ := hreads
      rw [hvalue]
      exact writable_bool b
  | onlyTrue =>
      rw [hreads.2]
      exact writable_bool true
  | text =>
      obtain ⟨t, g, -, hvalue⟩ := hreads
      rw [hvalue]
      exact writable_str t
  | integer =>
      obtain ⟨n, g, -, hleast, hmost, hvalue⟩ := hreads
      rw [hvalue]
      exact writable_int hleast hmost
  | number =>
      obtain ⟨x, g, -, hvalue⟩ := hreads
      rw [hvalue]
      exact exists_float nofun
  | file => exact absurd (hreads.1.symm.trans hv.not_isFile) (by decide)
  | any =>
      rw [show p.value = v from hreads]
      exact hv.plainData

theorem writable_items {xs : List Value} {ps : List Passed}
    (h : List.Forall₂ (fun v p => Writable fieldStyle v → Writable fieldStyle p.value.plainData) xs ps)
    (hxs : ∀ x ∈ xs, Writable fieldStyle x) : Writable fieldStyle (Value.list (ps.map (·.value))).plainData := by
  rw [Value.plainData, Value.plainItems_eq, writable_list]
  intro w hw
  obtain ⟨u, hu, rfl⟩ := List.mem_map.1 hw
  obtain ⟨p, hp, rfl⟩ := List.mem_map.1 hu
  obtain ⟨x, hx, hkept⟩ := exists_left_of_mem h hp
  exact hkept (hxs x hx)

theorem carries_writable : Carries fun v p => Writable fieldStyle v → Writable fieldStyle p.value.plainData where
  basic h hv := BasicType.writable_of_step h hv
  literal t _ := writable_str t
  null _ := writable_null
  list _ h hv := writable_items h (writable_list.1 hv)
  tuple _ h hv := writable_items h (Json.writable_tuple.1 hv)
  record {es name us p} h hvalue hv := by
    rw [hvalue, Value.plainData, Value.plainFields_eq, writable_dict]
    intro w hw
    obtain ⟨f, hf, rfl⟩ := List.mem_map.1 hw
    obtain ⟨u, hu, rfl⟩ := List.mem_map.1 hf
    obtain ⟨e, he, hkept⟩ := h u hu
    exact ⟨Json.exists_key u.1, hkept (writable_dict.1 hv e he).2⟩
  picked h := h
  after _ h := h

/-! Parameters -/

def Param.GoesBy (p : Param) (key : Value) : Prop := key = .str p.name ∨ key = .str (Catalog.attributeName p.name)

theorem Param.GoesBy.attribute {p : Param} {key : Value} (h : p.GoesBy key) :
    ∃ name, key = .str name ∧ Catalog.attributeName name = Catalog.attributeName p.name := by
  rcases h with rfl | rfl
  · exact ⟨_, rfl, rfl⟩
  · exact ⟨_, rfl, Catalog.attributeName_attributeName _⟩

theorem Param.GoesBy.unique {ps : List Param} {p q : Param} {key : Value}
    (hattributes : (ps.map (Catalog.attributeName ·.name)).Nodup) (hp : p ∈ ps) (hq : q ∈ ps)
    (hkey : p.GoesBy key) (hkey' : q.GoesBy key) : p = q := by
  obtain ⟨name, rfl, hname⟩ := hkey.attribute
  obtain ⟨name', heq, hname'⟩ := hkey'.attribute
  cases heq
  exact List.inj_on_of_nodup_map hattributes hp hq (hname.symm.trans hname')

namespace Spec

-- Parameters among which files stand only where the method takes files, and everything else has a JSON text.
structure Uploads (s : Spec) (m : Method) (es : Entries) : Prop where
  once : (es.map (·.1)).Nodup
  each : ∀ e ∈ es, Writable fieldStyle e.2 ∨
    isFile e.2 = true ∧ ∃ p ∈ m.params, p.GoesBy e.1 ∧ s.TakesFile p.type

structure Sends (m : Method) (es out : Entries) : Prop where
  named : ∀ e ∈ out, ∃ p ∈ m.params, e.1 = .str p.name
  each : ∀ e ∈ out, Writable fieldStyle e.2 ∨ isFile e.2 = true ∧ ∃ e' ∈ es, e'.2 = e.2
  files : ∀ e ∈ es, isFile e.2 = true → ∃ p ∈ m.params, p.GoesBy e.1 ∧ (.str p.name, e.2) ∈ out

variable {s : Spec} {m : Method} {us : List Use} {es out : Entries}

theorem OffersFile.goesBy {p : Param} {f : Draft.Field} (h : s.OffersFile p f) {key : Value}
    (hkey : key = .str f.wire ∨ key = .str f.name) : p.GoesBy key := by
  rw [h.wire, h.name] at hkey
  exact hkey

theorem OffersFile.onWire {site : Site} {rs : Records} {n : Nat} {p : Param} {f : Draft.Field} {e : Value × Value}
    {u : String × Passed} (hattributes : (m.params.map (Catalog.attributeName ·.name)).Nodup) (hes : s.Uploads m es)
    (he : e ∈ es) (hp : p ∈ m.params) (hf : s.OffersFile p f)
    (hmade : ∀ {k r}, rs.get? k = some r → ∃ fs, site.Made fs r)
    (htakes : site.Takes (checkDepth rs .values n) f e u) :
    isFile e.2 = false ∧ Writable fieldStyle u.2.value.onWire ∨ isFile e.2 = true ∧ u.2.value.onWire = e.2 := by
  rcases hes.each e he with htext | ⟨hfile, q, hq, hkey, htakesFile⟩
  · have hpassed := carries_writable.of_takes (carries_writable.checkDepth hmade n) htakes htext
    exact .inl ⟨htext.not_isFile, hpassed.onWire⟩
  · obtain rfl : p = q := Param.GoesBy.unique hattributes hp hq (hf.goesBy htakes.key) hkey
    rcases htakes.null_or with ⟨hnull, -⟩ | ⟨schema, hschema, hcheck⟩
    · rw [hnull] at hfile
      cases hfile
    · refine .inr ⟨hfile, ?_⟩
      rw [(hf.file htakesFile).value_eq hmade hschema hfile hcheck, Value.onWire, if_pos hfile]

end Spec

end BotApi
