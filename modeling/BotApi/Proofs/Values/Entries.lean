import BotApi.Catalog.Attribute
import BotApi.Schema.Validate
import Mathlib.Data.List.Nodup
/-!
What is found in mappings with texts as keys, and how deep the parts of a value are.
-/

namespace BotApi

namespace Catalog

-- Taken names that end in an underscore end in two, and not in three.
theorem not_mem_takenNames {w : String} (h : w ∈ takenNames) : w ++ "_" ∉ takenNames := by
  have hplain : ∀ n ∈ keywords ++ recordMembers ++ innerMembers, n.toList.getLast? ≠ some '_' := by
    decide +kernel
  have hspecial : ∀ n ∈ specialMembers, n.toList.getLast? ≠ some '_' := by decide +kernel
  have hends {v : String} (hv : v ∈ takenNames) (hlast : v.toList.getLast? = some '_') :
      ∃ n ∈ specialMembers, v.toList = ['_', '_'] ++ n.toList ++ ['_', '_'] := by
    rcases List.mem_append.1 hv with hv | hv
    · exact absurd hlast (hplain v hv)
    · obtain ⟨n, hn, rfl⟩ := List.mem_map.1 hv
      exact ⟨n, hn, by simp⟩
  intro hw
  obtain ⟨n, hn, heq⟩ := hends hw (by simp [String.toList_append])
  have hw' : w.toList = ['_', '_'] ++ n.toList ++ ['_'] := by
    refine (List.append_left_inj ['_']).1 ?_
    simpa [String.toList_append] using heq
  obtain ⟨n', -, heq'⟩ := hends h (by rw [hw', List.getLast?_concat])
  have hn' : n.toList = n'.toList ++ ['_'] := by
    refine (List.append_left_inj ['_']).1 ((List.append_right_inj ['_', '_']).1 ?_)
    simpa using hw'.symm.trans heq'
  exact hspecial n hn (by simp [hn'])

theorem attributeName_attributeName (w : String) : attributeName (attributeName w) = attributeName w := by
  by_cases h : w ∈ takenNames
  · have hfree : w ++ "_" ∉ takenNames := not_mem_takenNames h
    simp [attributeName, h, hfree]
  · simp [attributeName, h]

end Catalog

namespace Value

theorem eq_str_of_equal_str {v : Value} {s : String} (h : equal v (.str s) = true) :
    v = .str s := by
  cases v <;> simp_all [equal, equalAtoms, integer?]

theorem eq_str_of_str_equal {v : Value} {s : String} (h : equal (.str s) v = true) :
    v = .str s := by
  cases v <;> simp_all [equal, equalAtoms, integer?]

theorem equal_str_self (s : String) : equal (.str s) (.str s) = true := by
  simp [equal, equalAtoms]

theorem depth_pos (v : Value) : 0 < v.depth := by
  cases v <;> simp [depth]

theorem exists_of_depth_le {v : Value} {n : Nat} (h : v.depth ≤ n) : ∃ m, n = m + 1 :=
  ⟨n - 1, by have hpos := v.depth_pos; omega⟩

theorem depthList_le {xs : List Value} {n : Nat} : depthList xs ≤ n ↔ ∀ x ∈ xs, x.depth ≤ n := by
  induction xs with
  | nil => simp [depthList]
  | cons x xs ih => rw [depthList, Nat.max_le, ih, List.forall_mem_cons]

theorem depthEntries_le {es : Entries} {n : Nat} :
    depthEntries es ≤ n ↔ ∀ e ∈ es, e.2.depth ≤ n := by
  induction es with
  | nil => simp [depthEntries]
  | cons e es ih => rw [depthEntries, Nat.max_le, ih, List.forall_mem_cons]

theorem exists_of_depth_dict_le {e : Value × Value} {es : Entries} {n : Nat}
    (h : (dict (e :: es)).depth ≤ n) :
    ∃ m, n = m + 2 ∧ ∀ x ∈ e :: es, x.2.depth ≤ m + 1 := by
  have hpos := e.2.depth_pos
  have he : e.2.depth ≤ depthEntries (e :: es) := depthEntries_le.1 (Nat.le_refl _) e List.mem_cons_self
  rw [depth] at h
  exact ⟨n - 2, by omega, depthEntries_le.1 (by omega)⟩

theorem exists_of_depth_entries_le {es : Entries} {n : Nat} (h : (dict es).depth ≤ n) :
    ∃ m, n = m + 1 ∧ ∀ e ∈ es, e.2.depth ≤ m := by
  rw [depth] at h
  exact ⟨n - 1, by omega, depthEntries_le.1 (by omega)⟩

theorem exists_of_depth_list_le {xs : List Value} {n : Nat} (h : (list xs).depth ≤ n) :
    ∃ m, n = m + 1 ∧ ∀ x ∈ xs, x.depth ≤ m := by
  rw [depth] at h
  exact ⟨n - 1, by omega, depthList_le.1 (by omega)⟩

def parts : Value → List Value
  | list xs | tuple xs => xs
  | dict es => es.map (·.2)
  | _ => []

theorem depth_lt_of_mem_parts {v x : Value} (h : x ∈ v.parts) : x.depth < v.depth := by
  cases v with
  | list xs | tuple xs =>
      rw [depth, Nat.lt_succ_iff]
      exact depthList_le.1 (Nat.le_refl _) x h
  | dict es =>
      obtain ⟨e, he, rfl⟩ := List.mem_map.1 h
      rw [depth, Nat.lt_succ_iff]
      exact depthEntries_le.1 (Nat.le_refl _) e he
  | _ => cases h

end Value

namespace Entries

variable {es : Entries} {name : String} {v : Value}

@[simp] theorem getText?_cons (k : String) (v : Value) (es : Entries) (name : String) :
    Entries.getText? ((.str k, v) :: es) name =
      if k = name then some v else Entries.getText? es name := by
  by_cases h : k = name <;>
    simp [Entries.getText?, Entries.get?, Value.equal, Value.equalAtoms, h]

@[simp] theorem getText?_nil (name : String) : Entries.getText? [] name = none := rfl

theorem mem_of_getText? (h : es.getText? name = some v) : (.str name, v) ∈ es := by
  rw [getText?, get?, Option.map_eq_some_iff] at h
  obtain ⟨e, he, rfl⟩ := h
  have hkey : e.1.equal (.str name) = true := by simpa using List.find?_some he
  rw [← Value.eq_str_of_equal_str hkey]
  exact List.mem_of_find?_eq_some he

theorem getText?_eq_some (hnodup : (es.map (·.1)).Nodup) :
    es.getText? name = some v ↔ (.str name, v) ∈ es := by
  refine ⟨mem_of_getText?, fun h => ?_⟩
  have hsome : (es.find? fun e => e.1.equal (.str name)).isSome = true :=
    List.find?_isSome.2 ⟨_, h, Value.equal_str_self name⟩
  obtain ⟨e, he⟩ := Option.isSome_iff_exists.1 hsome
  have hkey : e.1.equal (.str name) = true := by simpa using List.find?_some he
  obtain rfl := List.inj_on_of_nodup_map hnodup (List.mem_of_find?_eq_some he) h
    (Value.eq_str_of_equal_str hkey)
  rw [getText?, get?, he]
  rfl

theorem getText?_eq_none (h : ∀ w, (.str name, w) ∉ es) : es.getText? name = none := by
  cases hget : es.getText? name with
  | none => rfl
  | some w => exact absurd (mem_of_getText? hget) (h w)

theorem isSome_getText? : (es.getText? name).isSome = true ↔ .str name ∈ es.map (·.1) := by
  constructor
  · intro h
    obtain ⟨v, hv⟩ := Option.isSome_iff_exists.1 h
    exact List.mem_map.2 ⟨_, mem_of_getText? hv, rfl⟩
  · intro h
    obtain ⟨e, he, hkey⟩ := List.mem_map.1 h
    rw [getText?, get?, Option.isSome_map, List.find?_isSome]
    exact ⟨e, he, by rw [hkey]; exact Value.equal_str_self name⟩

theorem put_of_apart {k : Value} (v : Value) (h : ∀ e ∈ es, e.1.equal k = false) : es.put k v = es ++ [(k, v)] := by
  induction es with
  | nil => rfl
  | cons e es ih =>
      obtain ⟨l, w⟩ := e
      obtain ⟨hl, hes⟩ := List.forall_mem_cons.1 h
      rw [put, if_neg (Bool.eq_false_iff.1 hl), ih hes, List.cons_append]

theorem put_of_not_mem {k : String} (v : Value) (h : .str k ∉ es.map (·.1)) :
    es.put (.str k) v = es ++ [(.str k, v)] := by
  refine put_of_apart v fun e he => ?_
  by_contra hequal
  rw [Bool.not_eq_false] at hequal
  exact h (List.mem_map.2 ⟨e, he, Value.eq_str_of_equal_str hequal⟩)

theorem getText?_cons_key (k v : Value) (es : Entries) (name : String) :
    getText? ((k, v) :: es) name = if k.equal (.str name) then some v else es.getText? name := by
  rw [getText?, getText?, get?, get?, List.find?_cons]
  cases k.equal (.str name) <;> rfl

theorem getText?_put_key (es : Entries) (k v : Value) (name : String) :
    (es.put k v).getText? name = if k.equal (.str name) then some v else es.getText? name := by
  induction es with
  | nil => rw [put, getText?_cons_key]
  | cons e es ih =>
      obtain ⟨l, w⟩ := e
      rw [put]
      by_cases hl : l.equal k = true
      · have hsame : l.equal (.str name) = k.equal (.str name) := by
          rw [Bool.eq_iff_iff]
          constructor
          · intro h
            obtain rfl := Value.eq_str_of_equal_str h
            rw [Value.eq_str_of_str_equal hl]
            exact Value.equal_str_self name
          · intro h
            obtain rfl := Value.eq_str_of_equal_str h
            exact hl
        rw [if_pos hl, getText?_cons_key, getText?_cons_key, hsame]
        split <;> rfl
      · rw [if_neg hl, getText?_cons_key, getText?_cons_key, ih]
        by_cases hname : l.equal (.str name) = true
        · have hk : ¬ k.equal (.str name) = true := by
            intro h
            obtain rfl := Value.eq_str_of_equal_str h
            exact hl hname
          rw [if_pos hname, if_neg hk, if_pos hname]
        · rw [if_neg hname, if_neg hname]

theorem getText?_put (es : Entries) (k : String) (v : Value) (name : String) :
    (es.put (.str k) v).getText? name = if k = name then some v else es.getText? name := by
  rw [getText?_put_key, ← getText?_cons_key, getText?_cons]

theorem exists_of_mem_put {es : Entries} {k v : Value} {e : Value × Value} (h : e ∈ es.put k v) :
    e.1 = k ∨ ∃ w, (e.1, w) ∈ es := by
  induction es with
  | nil =>
      obtain rfl := List.mem_singleton.1 h
      exact .inl rfl
  | cons x es ih =>
      obtain ⟨l, w⟩ := x
      rw [put] at h
      split at h
      · rcases List.mem_cons.1 h with rfl | h
        · exact .inr ⟨w, List.mem_cons_self⟩
        · exact .inr ⟨e.2, List.mem_cons_of_mem _ h⟩
      · rcases List.mem_cons.1 h with rfl | h
        · exact .inr ⟨w, List.mem_cons_self⟩
        · exact (ih h).imp id fun ⟨w', hw'⟩ => ⟨w', List.mem_cons_of_mem _ hw'⟩

end Entries

end BotApi
