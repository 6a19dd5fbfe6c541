import BotApi.Proofs.Schema.Choice
import Mathlib.Data.List.Forall2
/-!
When a value is accepted, and what becomes of its items and fields then.
-/

namespace BotApi.Schema

variable {rs : Records} {source : Source} {descend : Schema → Value → Verdict} {p : Passed}

theorem collect_eq_ok {α : Type} {xs : List (Except Refused α)} {as : List α} :
    collect xs = .ok as ↔ xs = as.map .ok := by
  induction xs generalizing as with
  | nil =>
      cases as <;> simp [collect]
  | cons x xs ih =>
      cases x with
      | error is =>
          rw [collect]
          cases as <;> cases collect xs <;> simp
      | ok a =>
          rw [collect]
          cases as with
          | nil => cases collect xs <;> simp [Except.map]
          | cons b bs =>
              rw [List.map_cons, List.cons.injEq, ← ih]
              cases collect xs <;> simp [Except.map]

theorem map_eq_map_ok {α β : Type} {f : α → Except Refused β} {xs : List α} {ys : List β} :
    xs.map f = ys.map .ok ↔ List.Forall₂ (fun x y => f x = .ok y) xs ys := by
  rw [← List.forall₂_eq_eq_eq, List.forall₂_map_left_iff, List.forall₂_map_right_iff]

theorem collect_itemVerdicts {descend : Value → Verdict} {xs : List Value} {ps : List Passed} :
    collect (itemVerdicts descend xs) = .ok ps ↔ List.Forall₂ (fun x p => descend x = .ok p) xs ps := by
  rw [collect_eq_ok, itemVerdicts, map_eq_map_ok]
  simp only [under_eq_ok]
  rw [← List.forall₂_map_left_iff (f := Prod.fst) (R := fun x p => descend x = .ok p),
    List.zipIdx_map_fst]

theorem map_eq_ok {ε α β : Type} {x : Except ε α} {f : α → β} {b : β} :
    x.map f = .ok b ↔ ∃ a, x = .ok a ∧ f a = b := by
  cases x <;> simp [Except.map]

-- A tuple is taken for a list, but not as it was.
theorem checkArray_eq_ok {descend : Value → Verdict} {v : Value} :
    checkArray source descend v = .ok p ↔ ∃ xs ps g, (v = .list xs ∧ g = .exact ∨ v = .tuple xs ∧ g = .lax) ∧
      List.Forall₂ (fun x p => descend x = .ok p) xs ps ∧
      ⟨total (.of g) ((itemVerdicts descend xs).map scoreOf), .list (ps.map (·.value))⟩ = p := by
  have hitems {g : Grade} {xs : List Value} : checkItems descend g xs = .ok p ↔ ∃ ps,
      List.Forall₂ (fun x p => descend x = .ok p) xs ps ∧
      ⟨total (.of g) ((itemVerdicts descend xs).map scoreOf), .list (ps.map (·.value))⟩ = p := by
    simp only [← collect_itemVerdicts]
    unfold checkItems
    cases hps : collect (itemVerdicts descend xs) <;> simp [hps]
  cases v with
  | list xs => simp [checkArray, hitems]
  | tuple xs => simp [checkArray, hitems]
  | _ => simp [checkArray, refuse, refuseAt]

def recordScore (found : List (Except Refused (Option (String × Passed)))) : Score :=
  total (.of .strict) (found.map fieldScore)

theorem checkRecord_eq_ok {r : Record} {v : Value} (hclosed : r.closed = true) (hcheck : r.check = .none) :
    checkRecord source descend r v = .ok p ↔ ∃ es parts, v = .dict es ∧
      List.Forall₂ (fun f x => checkField descend es f = .ok x) r.fields parts ∧ strayFindings r es = [] ∧
      ⟨(recordScore (r.fields.map (checkField descend es))).setting (parts.filterMap id).length,
        .record r.name ((r.fields.zip parts).filterMap fun x => fieldResult x.1 x.2)⟩ = p := by
  cases v with
  | dict es =>
      simp only [← map_eq_map_ok, ← collect_eq_ok]
      rw [checkRecord, checkEntries, if_pos hclosed, hcheck]
      cases hparts : collect (r.fields.map (checkField descend es)) with
      | error fs => simp [hparts]
      | ok parts =>
          by_cases hstray : strayFindings r es = []
          · simp [hparts, hstray, Check.fault?, recordScore]
          · simp [hparts, hstray]
  | _ => simp [checkRecord, refuseAt]

theorem strayFindings_eq_nil {r : Record} {es : Entries} (h : strayFindings r es = []) :
    ∀ e ∈ es, ∃ f ∈ r.fields, ∃ x, f.find? es = some x ∧ e.1 = .str x.1 := by
  intro e he
  rw [strayFindings, List.filterMap_eq_nil_iff] at h
  have hnone := h e he
  obtain ⟨k, v⟩ := e
  cases k with
  | str name =>
      dsimp only at hnone
      split at hnone
      · rename_i hused
        rw [List.contains_iff_mem, usedNames, List.mem_filterMap] at hused
        obtain ⟨f, hf, hname⟩ := hused
        rw [Option.map_eq_some_iff] at hname
        obtain ⟨x, hx, rfl⟩ := hname
        exact ⟨f, hf, x, hx, rfl⟩
      · cases hnone
  | _ => cases hnone

theorem strayFindings_of_found {r : Record} {es : Entries}
    (h : ∀ e ∈ es, ∃ f ∈ r.fields, ∃ x, f.find? es = some x ∧ e.1 = .str x.1) : strayFindings r es = [] := by
  rw [strayFindings, List.filterMap_eq_nil_iff]
  intro e he
  obtain ⟨f, hf, x, hx, hkey⟩ := h e he
  obtain ⟨k, v⟩ := e
  obtain rfl : k = .str x.1 := hkey
  have hused : (usedNames r es).contains x.1 = true := by
    rw [List.contains_iff_mem, usedNames, List.mem_filterMap]
    exact ⟨f, hf, by rw [hx]; rfl⟩
  simp only [hused, ↓reduceIte]

theorem checkNamed_eq_ok {names : Naming} {s : Schema} {v w : Value} :
    checkNamed names rs source s v = .ok w ↔ ∃ p, checkDepth rs source v.depth s v = .ok p ∧ p.value = w := by
  unfold checkNamed
  cases checkDepth rs source v.depth s v <;> simp

theorem check_eq_ok {s : Schema} {v w : Value} :
    check rs source s v = .ok w ↔ ∃ p, checkDepth rs source v.depth s v = .ok p ∧ p.value = w := checkNamed_eq_ok

theorem checkDepth_optional {n : Nat} {s : Schema} {v : Value}
    (h : checkDepth rs source n (.optional s) v = .ok p) :
    v.isNull = true ∧ p = ⟨.of .exact, .null⟩ ∨ v.isNull = false ∧ checkDepth rs source n s v = .ok p := by
  cases n with
  | zero => cases h
  | succ n =>
      rw [checkDepth, step] at h
      split at h
      · rename_i hnull
        cases h
        exact .inl ⟨hnull, rfl⟩
      · rename_i hnull
        exact .inr ⟨by simpa using hnull, h⟩

theorem eq_of_checkDepth_onlyText {n : Nat} {text : String} {v : Value}
    (h : checkDepth rs source n (.onlyText [text]) v = .ok p) : v = .str text ∧ p = ⟨.of .exact, .str text⟩ := by
  cases n with
  | zero => cases h
  | succ n =>
      rw [checkDepth] at h
      cases v with
      | str t =>
          rw [step] at h
          split at h
          · rename_i ht
            obtain rfl : t = text := by simpa using ht
            cases h
            exact ⟨rfl, rfl⟩
          · cases h
      | _ => cases h

end BotApi.Schema
