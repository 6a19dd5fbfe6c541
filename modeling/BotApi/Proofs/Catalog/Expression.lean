import BotApi.Catalog.Artifact
import BotApi.Proofs.Schema.Accepted
import BotApi.Proofs.Values.Entries
/-!
Type expressions and the documents that they are written as. An expression is read back from its document
provided that its unions have their options as their form leaves them: at least one, and none twice. What the
forms of a catalog's entries read is one lemma for each kind of schema that they are made of; a field that is
not given gets its fallback back.
-/

namespace BotApi

namespace Form

open Schema (Source Field checkDepth collect checkField fieldResult)

variable {source : Source} {n : Nat} {s : Schema} {v w : Value}

def Reads (source : Source) (n : Nat) (s : Schema) (v w : Value) : Prop :=
  ∃ p, checkDepth records source n s v = .ok p ∧ p.value = w

theorem reads_text (t : String) : Reads source (n + 1) .text (.str t) (.str t) := ⟨_, rfl, rfl⟩

theorem reads_flag (b : Bool) : Reads source (n + 1) .flag (.bool b) (.bool b) := ⟨_, rfl, rfl⟩

theorem reads_onlyText {t : String} {ts : List String} (h : t ∈ ts) :
    Reads source (n + 1) (.onlyText ts) (.str t) (.str t) := by
  have hmem : ts.contains t = true := by simpa using h
  exact ⟨⟨.of .exact, .str t⟩, by simp only [checkDepth, Schema.step, hmem, ↓reduceIte], rfl⟩

theorem reads_optional (hv : v.isNull = false) (h : Reads source (n + 1) s v w) :
    Reads source (n + 1) (.optional s) v w := by
  obtain ⟨p, h, hw⟩ := h
  refine ⟨p, ?_, hw⟩
  rw [checkDepth, Schema.step, hv]
  exact h

theorem reads_array {vs ws : List Value} (h : List.Forall₂ (Reads source n s) vs ws) :
    Reads source (n + 1) (.array s) (.list vs) (.list ws) := by
  obtain ⟨ps, hps, hvalues⟩ : ∃ ps : List Schema.Passed,
      List.Forall₂ (fun v p => checkDepth records source n s v = .ok p) vs ps ∧ ps.map (·.value) = ws := by
    induction h with
    | nil => exact ⟨[], .nil, rfl⟩
    | cons hv _ ih =>
        obtain ⟨p, hp, rfl⟩ := hv
        obtain ⟨ps, hps, rfl⟩ := ih
        exact ⟨p :: ps, .cons hp hps, rfl⟩
  obtain ⟨p, harray, hp⟩ : ∃ p, Schema.checkArray source (checkDepth records source n s) (.list vs) = .ok p ∧
      p.value = .list (ps.map (·.value)) :=
    ⟨_, Schema.checkArray_eq_ok.2 ⟨vs, ps, .exact, .inl ⟨rfl, rfl⟩, hps, rfl⟩, rfl⟩
  exact ⟨p, by rw [checkDepth, Schema.step]; exact harray, by rw [hp, hvalues]⟩

inductive FieldReads (source : Source) (n : Nat) (es : Entries) (f : Field) : String × Value → Prop
  | given {a b : Value} (found : es.getText? f.wire = some a)
      (reads : Reads source n f.schema a b) : FieldReads source n es f (f.wire, b)
  | absent {a : Value} (wire : es.getText? f.wire = none) (name : es.getText? f.name = none)
      (optional : f.required = false) (fallback : f.fallback = some a) :
      FieldReads source n es f (f.wire, a)

theorem FieldReads.checkField {es : Entries} {f : Field} {x : String × Value}
    (h : FieldReads source n es f x) : ∃ part,
      checkField (checkDepth records source n) es f = .ok part ∧ fieldResult f part = some x := by
  cases h with
  | given found reads =>
      obtain ⟨p, hp, rfl⟩ := reads
      refine ⟨some (f.wire, p), ?_, rfl⟩
      simp only [Schema.checkField, Field.find?, found, hp]
      rfl
  | absent wire name optional fallback =>
      refine ⟨none, ?_, by simp [fieldResult, fallback]⟩
      simp [Schema.checkField, Field.find?, wire, name, optional]

theorem reads_record (key : Key) {es : Entries} {fs : List (String × Value)}
    (h : List.Forall₂ (FieldReads source n es) key.record.fields fs)
    (hcheck : key.record.check.fault? fs = none) (hopen : key.record.closed = false) :
    Reads source (n + 1) key.schema (.dict es) (.record key.record.name fs) := by
  have hcollect : ∀ {fields : List Field} {fs : List (String × Value)},
      List.Forall₂ (FieldReads source n es) fields fs → ∃ parts,
        collect (fields.map (checkField (checkDepth records source n) es)) = .ok parts ∧
          ((fields.zip parts).filterMap fun x => fieldResult x.1 x.2) = fs := by
    intro fields fs h
    induction h with
    | nil => exact ⟨[], rfl, rfl⟩
    | cons hf _ ih =>
        obtain ⟨part, hpart, hresult⟩ := hf.checkField
        obtain ⟨parts, hparts, hresults⟩ := ih
        refine ⟨part :: parts, by simp [collect, hpart, hparts, Except.map], ?_⟩
        simp [hresult, hresults]
  obtain ⟨parts, hparts, hresults⟩ := hcollect h
  have hget : records.get? key.index = some key.record := by
    cases key <;> rfl
  have hrecord : ∃ p, Schema.checkRecord source (checkDepth records source n) key.record
      (.dict es) = .ok p ∧ p.value = .record key.record.name fs := by
    simp only [Schema.checkRecord, Schema.checkEntries, hparts, hopen, Bool.false_eq_true, ↓reduceIte,
      List.isEmpty_nil, hresults, hcheck]
    exact ⟨_, rfl, rfl⟩
  obtain ⟨p, hp, hw⟩ := hrecord
  exact ⟨p, by rw [checkDepth, Key.schema, Schema.step, hget]; exact Schema.under_eq_ok.2 hp, hw⟩

theorem reads_tagged {readers : List String} {cs : List (String × Schema)} {es : Entries}
    {t : String} (htag : Schema.tagOf? readers es = some (.str t))
    (hchoice : cs.find? (·.1 == t) = some (t, s)) (h : Reads source (n + 1) s (.dict es) w) :
    Reads source (n + 1) (.tagged readers cs) (.dict es) w := by
  obtain ⟨p, hp, hw⟩ := h
  rw [checkDepth] at hp
  refine ⟨p, ?_, hw⟩
  rw [checkDepth]
  have hfind : (fun c : String × Schema => decide ((Value.str t).str? = some c.1)) = (·.1 == t) := by
    funext c
    rw [Bool.eq_iff_iff, decide_eq_true_iff, beq_iff_eq, eq_comm]
    exact Option.some_inj
  simp only [Schema.step, htag, Schema.choose_eq, hfind, hchoice, Option.map_some, hp]
  rfl

end Form

open Json (Doc)
open Schema (dropRepeats)

attribute [simp] Json.Doc.toValue Json.Doc.toValues Json.Doc.toEntries

namespace TypeExpr

mutual
def checked : TypeExpr → Value
  | .basic n => .record "BasicType" [("kind", .str "basic"), ("name", .str n)]
  | .ref i => .record "TypeRef" [("kind", .str "ref"), ("id", .str i)]
  | .array e => .record "ArrayType" [("kind", .str "array"), ("item", checked e)]
  | .union es => .record "UnionType" [("kind", .str "union"), ("options", .list (checkedList es))]
def checkedList : List TypeExpr → List Value
  | [] => []
  | e :: es => checked e :: checkedList es
end

mutual
def Proper : TypeExpr → Prop
  | .basic _ | .ref _ => True
  | .array e => Proper e
  | .union es => es ≠ [] ∧ es.Nodup ∧ ProperList es
def ProperList : List TypeExpr → Prop
  | [] => True
  | e :: es => Proper e ∧ ProperList es
end

theorem checkedList_eq (es : List TypeExpr) : checkedList es = es.map checked := by
  induction es with
  | nil => rfl
  | cons e es ih => rw [checkedList, List.map_cons, ih]

mutual
theorem toTypeExpr_checked : ∀ e : TypeExpr, e.checked.toTypeExpr = e
  | .basic _ | .ref _ => rfl
  | .array e => by simp [checked, Value.toTypeExpr, Value.fieldExpr, toTypeExpr_checked e]
  | .union es => by
      simp [checked, Value.toTypeExpr, Value.fieldExprs, Value.toTypeExprs,
        listTypeExprs_checkedList es]
theorem listTypeExprs_checkedList : ∀ es : List TypeExpr, Value.listTypeExprs (checkedList es) = es
  | [] => rfl
  | e :: es => by
      rw [checkedList, Value.listTypeExprs, toTypeExpr_checked e, listTypeExprs_checkedList es]
end

mutual
theorem eq_of_equal_checked : ∀ a b : TypeExpr, a.checked.equal b.checked = true → a = b
  | .basic m, .basic n, h => by
      simpa [checked, Value.equal, Value.equalFields, Value.equalAtoms] using h
  | .ref i, .ref j, h => by
      simpa [checked, Value.equal, Value.equalFields, Value.equalAtoms] using h
  | .array a, .array b, h => by
      have h : a.checked.equal b.checked = true := by
        simpa [checked, Value.equal, Value.equalFields, Value.equalAtoms] using h
      rw [eq_of_equal_checked a b h]
  | .union as, .union bs, h => by
      have h : Value.equalLists (checkedList as) (checkedList bs) = true := by
        simpa [checked, Value.equal, Value.equalFields, Value.equalAtoms] using h
      rw [eq_of_equalLists_checkedList as bs h]
  | .basic _, .ref _, h | .basic _, .array _, h | .basic _, .union _, h
  | .ref _, .basic _, h | .ref _, .array _, h | .ref _, .union _, h
  | .array _, .basic _, h | .array _, .ref _, h | .array _, .union _, h
  | .union _, .basic _, h | .union _, .ref _, h | .union _, .array _, h => by
      simp [checked, Value.equal] at h
theorem eq_of_equalLists_checkedList : ∀ as bs : List TypeExpr,
    Value.equalLists (checkedList as) (checkedList bs) = true → as = bs
  | [], [], _ => rfl
  | a :: as, b :: bs, h => by
      rw [checkedList, checkedList, Value.equalLists, Bool.and_eq_true] at h
      rw [eq_of_equal_checked a b h.1, eq_of_equalLists_checkedList as bs h.2]
  | [], _ :: _, h | _ :: _, [], h => by simp [checkedList, Value.equalLists] at h
end

end TypeExpr

namespace Form

open TypeExpr

variable {n : Nat} {v : Value}

theorem foldl_kept (xs seen : List Value)
    (h : (seen ++ xs).Pairwise fun a b => a.equal b = false) :
    xs.foldl (fun seen x => if seen.any (·.equal x) then seen else seen ++ [x]) seen = seen ++ xs := by
  induction xs generalizing seen with
  | nil => simp
  | cons x xs ih =>
      have hnew : seen.any (·.equal x) = false := by
        rw [List.any_eq_false]
        intro y hy
        rw [(List.pairwise_append.1 h).2.2 y hy x List.mem_cons_self]
        decide
      rw [List.foldl_cons, hnew, if_neg (by decide), ih _ (by simpa using h)]
      simp

-- The check of a union's options leaves them as they are when it has one, and none twice.
theorem reads_distinct {s : Schema} {vs ws : List Value} (hsome : ws ≠ [])
    (hnodup : ws.Pairwise fun a b => a.equal b = false)
    (h : Reads .json (n + 1) s (.list vs) (.list ws)) :
    Reads .json (n + 1) (.distinct s) (.list vs) (.list ws) := by
  obtain ⟨⟨score, value⟩, hp, hw⟩ := h
  cases hw
  have hdrop : dropRepeats ⟨score, .list ws⟩ = .ok ⟨score, .list ws⟩ := by
    have hkept := foldl_kept ws [] hnodup
    cases ws with
    | nil => exact absurd rfl hsome
    | cons w ws => simp only [dropRepeats, hkept, List.nil_append]
  rw [Schema.checkDepth] at hp
  refine ⟨⟨score, .list ws⟩, ?_, rfl⟩
  rw [Schema.checkDepth]
  simp only [Schema.step, hp, hdrop]

theorem pairwise_checkedList {es : List TypeExpr} (h : es.Nodup) :
    (checkedList es).Pairwise fun a b => a.equal b = false := by
  induction es with
  | nil => exact .nil
  | cons e es ih =>
      rw [List.nodup_cons] at h
      refine .cons (fun v hv => ?_) (ih h.2)
      rw [checkedList_eq] at hv
      obtain ⟨e', he', rfl⟩ := List.mem_map.1 hv
      by_contra hequal
      rw [Bool.not_eq_false] at hequal
      exact h.1 (eq_of_equal_checked e e' hequal ▸ he')

theorem reads_expression (key : Key) {kind title name : String} {s : Schema} {v w : Value}
    (hkey : key.record = Form.record title [kindField kind, required name s]) (hname : name ≠ "kind")
    (hchoice : [("basic", Key.basic.schema), ("ref", Key.ref.schema), ("array", Key.array.schema),
      ("union", Key.union.schema)].find? (·.1 == kind) = some (kind, key.schema))
    (h : Reads .json (n + 1) s v w) :
    Reads .json (n + 2) typeExpr (.dict [(.str "kind", .str kind), (.str name, v)])
      (.record title [("kind", .str kind), (name, w)]) := by
  have htag : Entries.getText? [(.str "kind", .str kind), (.str name, v)] "kind" =
      some (.str kind) := by
    simp
  have hpart : Entries.getText? [(.str "kind", .str kind), (.str name, v)] name = some v := by
    simp [hname.symm]
  have hfields : List.Forall₂ (FieldReads .json (n + 1) [(.str "kind", .str kind), (.str name, v)])
      key.record.fields [("kind", .str kind), (name, w)] := by
    rw [hkey]
    exact .cons (.given htag (reads_onlyText (List.mem_singleton_self kind)))
      (.cons (.given hpart h) .nil)
  have hrecord := reads_record key hfields (by rw [hkey]; rfl) (by rw [hkey]; rfl)
  rw [hkey] at hrecord
  exact reads_tagged (by rw [Schema.tagOf?, List.findSome?_cons, htag]) hchoice hrecord

mutual
theorem reads_typeExpr : ∀ (e : TypeExpr) {n : Nat}, e.Proper → e.toDoc.toValue.depth ≤ n →
    Reads .json n typeExpr e.toDoc.toValue e.checked
  | .basic t, n, _, hn => by
      obtain ⟨n, rfl, -⟩ := Value.exists_of_depth_dict_le hn
      exact reads_expression .basic rfl (by decide) rfl (reads_text t)
  | .ref i, n, _, hn => by
      obtain ⟨n, rfl, -⟩ := Value.exists_of_depth_dict_le hn
      exact reads_expression .ref rfl (by decide) rfl (reads_text i)
  | .array e, n, he, hn => by
      obtain ⟨n, rfl, hparts⟩ := Value.exists_of_depth_dict_le hn
      have hitem := hparts (.str "item", e.toDoc.toValue) (by simp)
      exact reads_expression .array rfl (by decide) rfl (reads_typeExpr e he hitem)
  | .union es, n, he, hn => by
      obtain ⟨n, rfl, hparts⟩ := Value.exists_of_depth_dict_le hn
      have hdepth := hparts (.str "options", (Doc.list (toDocs es)).toValue) (by simp)
      rw [Doc.toValue, Value.depth, Nat.succ_le_succ_iff] at hdepth
      have hoptions : Reads .json (n + 1) (.distinct (.array typeExpr))
          (.list (Doc.toValues (toDocs es))) (.list (checkedList es)) :=
        reads_distinct (by simpa [checkedList_eq] using he.1) (pairwise_checkedList he.2.1)
          (reads_array (reads_typeExprs es he.2.2 hdepth))
      exact reads_expression .union rfl (by decide) rfl hoptions
theorem reads_typeExprs : ∀ (es : List TypeExpr) {n : Nat}, ProperList es →
    Value.depthList (Doc.toValues (toDocs es)) ≤ n →
    List.Forall₂ (Reads .json n typeExpr) (Doc.toValues (toDocs es)) (checkedList es)
  | [], _, _, _ => .nil
  | e :: es, n, he, hn => by
      have hn : max e.toDoc.toValue.depth (Value.depthList (Doc.toValues (toDocs es))) ≤ n := hn
      rw [Nat.max_le] at hn
      exact .cons (reads_typeExpr e he.1 hn.1) (reads_typeExprs es he.2 hn.2)
end

end Form

end BotApi
