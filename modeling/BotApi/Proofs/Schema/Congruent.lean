import BotApi.Proofs.Values.Entries
/-!
Checking asks a table for no records but those a schema leads to: two tables that agree on these check
every value alike.
-/

namespace BotApi.Schema

mutual
def keys : Schema → List Nat
  | record k => [k]
  | optional s | array s | distinct s => keys s
  | union os | firstOf os => keysList os
  | tagged _ cs => keysChoices cs
  | _ => []
def keysList : List Schema → List Nat
  | [] => []
  | s :: ss => keys s ++ keysList ss
def keysChoices : List (String × Schema) → List Nat
  | [] => []
  | (_, s) :: cs => keys s ++ keysChoices cs
end

theorem Field.mem_of_find? {f : Field} {es : Entries} {x : String × Value} (h : f.find? es = some x) :
    ∃ k, (k, x.2) ∈ es := by
  unfold Field.find? at h
  split at h
  next v hv =>
    cases h
    exact ⟨_, Entries.mem_of_getText? hv⟩
  next =>
    obtain ⟨v, hv, rfl⟩ := Option.map_eq_some_iff.1 h
    exact ⟨_, Entries.mem_of_getText? hv⟩

structure Agree (rs rs' : Records) (K : Nat → Prop) : Prop where
  get : ∀ {k}, K k → rs.get? k = rs'.get? k
  leads : ∀ {k r}, K k → rs.get? k = some r → ∀ f ∈ r.fields, ∀ k' ∈ f.schema.keys, K k'

namespace Agree

variable {rs rs' : Records} {K : Nat → Prop} {source : Source}

theorem checkItems {descend descend' : Value → Verdict} {xs : List Value} (h : ∀ x ∈ xs, descend x = descend' x)
    (start : Grade) : checkItems descend start xs = checkItems descend' start xs := by
  have hitems : itemVerdicts descend xs = itemVerdicts descend' xs := by
    refine List.map_congr_left fun x hx => ?_
    simp only [h x.1 (List.fst_mem_of_mem_zipIdx hx)]
  rw [Schema.checkItems, Schema.checkItems, hitems]

theorem checkArray {descend descend' : Value → Verdict} {v : Value} (h : ∀ x ∈ v.parts, descend x = descend' x) :
    checkArray source descend v = checkArray source descend' v := by
  cases v with
  | list xs => exact checkItems h .exact
  | tuple xs => exact checkItems h .lax
  | _ => rfl

theorem checkField {descend descend' : Schema → Value → Verdict} {f : Field} {es : Entries}
    (h : ∀ v, (∃ k, (k, v) ∈ es) → descend f.schema v = descend' f.schema v) :
    checkField descend es f = checkField descend' es f := by
  unfold Schema.checkField
  cases hfind : f.find? es with
  | none => rfl
  | some x => simp only [h x.2 (Field.mem_of_find? hfind)]

theorem checkRecord {descend descend' : Schema → Value → Verdict} {r : Record} {v : Value}
    (h : ∀ f ∈ r.fields, ∀ x ∈ v.parts, descend f.schema x = descend' f.schema x) :
    checkRecord source descend r v = checkRecord source descend' r v := by
  cases v with
  | dict es =>
      have hfields : r.fields.map (Schema.checkField descend es) = r.fields.map (Schema.checkField descend' es) := by
        refine List.map_congr_left fun f hf => checkField fun v hv => h f hf v ?_
        obtain ⟨k, hk⟩ := hv
        exact List.mem_map_of_mem (f := (·.2)) hk
      rw [Schema.checkRecord, Schema.checkRecord, checkEntries, checkEntries, hfields]
  | _ => rfl

section

variable {descend descend' : Schema → Value → Verdict} {v : Value}

mutual
theorem step (h : Agree rs rs' K)
    (hdescend : ∀ s, (∀ k ∈ s.keys, K k) → ∀ x ∈ v.parts, descend s x = descend' s x) : ∀ {s : Schema},
    (∀ k ∈ s.keys, K k) → Schema.step rs source descend s v = Schema.step rs' source descend' s v
  | .any, _ | .text, _ | .nonEmptyText, _ | .integer _ _, _ | .positiveInteger, _ | .number, _ | .positiveNumber, _
  | .flag, _ | .onlyTrue, _ | .onlyText _, _ | .file, _ | .path, _ => by
      simp only [Schema.step]
  | .optional s, hs => by
      rw [Schema.step, Schema.step, h.step hdescend (s := s) hs]
  | .array s, hs => by
      rw [Schema.step, Schema.step, checkArray (hdescend s hs)]
  | .distinct s, hs => by
      rw [Schema.step, Schema.step, h.step hdescend (s := s) hs]
  | .union os, hs => by
      have hos : ∀ k ∈ keysList os, K k := hs
      rw [Schema.step, Schema.step, h.verdicts hdescend hos]
  | .firstOf os, hs => by
      have hos : ∀ k ∈ keysList os, K k := hs
      rw [Schema.step, Schema.step, h.verdicts hdescend hos]
  | .tagged _ cs, hs => by
      have hcs : ∀ k ∈ keysChoices cs, K k := hs
      simp only [Schema.step, fun tag => h.choose hdescend hcs tag]
  | .record k, hs => by
      have hk : K k := hs k (by simp [keys])
      rw [Schema.step, Schema.step, ← h.get hk]
      cases hr : rs.get? k with
      | none => rfl
      | some r =>
          dsimp only
          rw [checkRecord fun f hf => hdescend f.schema (h.leads hk hr f hf)]
theorem verdicts (h : Agree rs rs' K)
    (hdescend : ∀ s, (∀ k ∈ s.keys, K k) → ∀ x ∈ v.parts, descend s x = descend' s x) : ∀ {ss : List Schema},
    (∀ k ∈ keysList ss, K k) → Schema.verdicts rs source descend ss v = Schema.verdicts rs' source descend' ss v
  | [], _ => rfl
  | s :: ss, hs => by
      simp only [keysList, List.mem_append] at hs
      rw [Schema.verdicts, Schema.verdicts, h.step hdescend fun k hk => hs k (.inl hk),
        h.verdicts hdescend fun k hk => hs k (.inr hk)]
theorem choose (h : Agree rs rs' K)
    (hdescend : ∀ s, (∀ k ∈ s.keys, K k) → ∀ x ∈ v.parts, descend s x = descend' s x) :
    ∀ {cs : List (String × Schema)}, (∀ k ∈ keysChoices cs, K k) → ∀ tag,
      Schema.choose rs source descend cs tag v = Schema.choose rs' source descend' cs tag v
  | [], _, _ => rfl
  | (_, s) :: cs, hs, tag => by
      simp only [keysChoices, List.mem_append] at hs
      rw [Schema.choose, Schema.choose, h.step hdescend fun k hk => hs k (.inl hk),
        h.choose hdescend (fun k hk => hs k (.inr hk)) tag]
end

end

-- More levels than a value has make no difference.
theorem checkDepth (h : Agree rs rs' K) {n n' : Nat} {v : Value} (hn : v.depth ≤ n) (hn' : v.depth ≤ n') {s : Schema}
    (hs : ∀ k ∈ s.keys, K k) : checkDepth rs source n s v = checkDepth rs' source n' s v := by
  induction n generalizing n' s v with
  | zero => exact absurd hn (Nat.not_le.2 v.depth_pos)
  | succ n ih =>
      cases n' with
      | zero => exact absurd hn' (Nat.not_le.2 v.depth_pos)
      | succ n' =>
          refine h.step (fun s hs x hx => ?_) hs
          have hdepth := Value.depth_lt_of_mem_parts hx
          exact ih (by omega) (by omega) hs

end Agree

end BotApi.Schema
