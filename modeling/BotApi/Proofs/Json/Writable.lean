import BotApi.Json.Writer
import BotApi.Proofs.Result
import BotApi.Schema.Validate
/-!
Which values have a JSON text: lists and mappings of values that have one, and every number that is not too long.
Numbers that are not finite have none in some styles; in all other respects the style does not count.
-/

namespace BotApi

mutual
def Value.allFinite : Value → Bool
  | .float x => Number.isFinite x
  | .list xs | .tuple xs => Value.itemsFinite xs
  | .dict es => Value.entriesFinite es
  | _ => true
def Value.itemsFinite : List Value → Bool
  | [] => true
  | x :: xs => Value.allFinite x && Value.itemsFinite xs
def Value.entriesFinite : List (Value × Value) → Bool
  | [] => true
  | (k, v) :: es => Value.allFinite k && Value.allFinite v && Value.entriesFinite es
end

theorem Value.itemsFinite_iff {xs : List Value} : itemsFinite xs = true ↔ ∀ x ∈ xs, x.allFinite = true := by
  induction xs with
  | nil => simp [itemsFinite]
  | cons x xs ih => rw [itemsFinite, Bool.and_eq_true, ih, List.forall_mem_cons]

theorem Value.entriesFinite_iff {es : List (Value × Value)} :
    entriesFinite es = true ↔ ∀ e ∈ es, e.1.allFinite = true ∧ e.2.allFinite = true := by
  induction es with
  | nil => simp [entriesFinite]
  | cons e es ih => rw [entriesFinite, Bool.and_eq_true, Bool.and_eq_true, ih, List.forall_mem_cons]

namespace Json

open Schema (int64Least int64Most)

variable {style style' : Style} {v : Value} {xs : List Value} {es : Entries}

def Writable (style : Style) (v : Value) : Prop := ∃ t, write style v = .ok t

theorem exists_writeItems : (∃ ts, writeItems style xs = .ok ts) ↔ ∀ x ∈ xs, Writable style x := by
  induction xs with
  | nil => exact ⟨fun _ => by simp, fun _ => ⟨[], rfl⟩⟩
  | cons x xs ih =>
      rw [List.forall_mem_cons, ← ih, writeItems, Writable]
      cases write style x <;> cases writeItems style xs <;> simp [bind, Except.bind, pure, Except.pure]

theorem exists_writeEntries : (∃ ts, writeEntries style es = .ok ts) ↔
    ∀ e ∈ es, (∃ k, key style e.1 = .ok k) ∧ Writable style e.2 := by
  induction es with
  | nil => exact ⟨fun _ => by simp, fun _ => ⟨[], rfl⟩⟩
  | cons e es ih =>
      rw [List.forall_mem_cons, ← ih, writeEntries, Writable]
      cases key style e.1 <;> cases write style e.2 <;> cases writeEntries style es <;>
        simp [bind, Except.bind, pure, Except.pure]

theorem writable_list : Writable style (.list xs) ↔ ∀ x ∈ xs, Writable style x := by
  rw [← exists_writeItems, Writable, write]
  cases writeItems style xs <;> simp [bind, Except.bind, pure, Except.pure]

theorem writable_tuple : Writable style (.tuple xs) ↔ ∀ x ∈ xs, Writable style x := by
  rw [← exists_writeItems, Writable, write]
  cases writeItems style xs <;> simp [bind, Except.bind, pure, Except.pure]

theorem writable_dict : Writable style (.dict es) ↔ ∀ e ∈ es, (∃ k, key style e.1 = .ok k) ∧ Writable style e.2 := by
  rw [← exists_writeEntries, Writable, write]
  cases writeEntries style es <;> simp [bind, Except.bind, pure, Except.pure]

theorem Writable.not_isFile (h : Writable style v) : Schema.isFile v = false := by
  obtain ⟨t, ht⟩ := h
  cases v with
  | bytes | buffer | path | stream => cases ht
  | _ => rfl

theorem writable_null : Writable style .null := ⟨_, rfl⟩

theorem writable_bool (b : Bool) : Writable style (.bool b) := ⟨_, rfl⟩

theorem writable_str (s : String) : Writable style (.str s) := ⟨_, rfl⟩

theorem exists_key (s : String) : ∃ k, key style (.str s) = .ok k := ⟨_, rfl⟩

theorem writable_int {n : Int} (hleast : int64Least ≤ n) (hmost : n ≤ int64Most) : Writable style (.int n) := by
  have hlt : n.natAbs < 10 ^ 19 := by
    have hleast' : -(2 ^ 63 : Int) ≤ n := hleast
    have hmost' : n ≤ (2 ^ 63 : Int) - 1 := hmost
    omega
  have hlength : (Text.natDigits n.natAbs).length ≤ 19 := (Nat.length_toDigits_le_iff (by decide) (by decide)).2 hlt
  refine ⟨Text.intDigits n, ?_⟩
  rw [write, integer, if_neg (by rw [Text.digitsMost]; omega)]

theorem exists_float {x : Float} (h : style.finiteOnly = true → Number.isFinite x = true) :
    ∃ t, float style x = .ok t := by
  rw [float]
  split
  · exact ⟨_, rfl⟩
  · next hnot =>
    rw [if_neg fun honly => hnot (h honly)]
    split
    · exact ⟨_, rfl⟩
    · split <;> exact ⟨_, rfl⟩

theorem key_of_finite {k : Value} (h : ∃ t, key style k = .ok t) (hfinite : k.allFinite = true) :
    ∃ t, key style' k = .ok t := by
  obtain ⟨t, ht⟩ := h
  cases k with
  | null | bool | str => exact ⟨_, rfl⟩
  | int n =>
      obtain ⟨s, hs, -⟩ := ok_of_map ht
      exact ⟨_, by rw [key, hs]; rfl⟩
  | float x =>
      obtain ⟨s, hs⟩ : ∃ s, float style' x = .ok s := exists_float fun _ => hfinite
      exact ⟨_, by rw [key, hs]; rfl⟩
  | _ => cases ht

mutual
theorem Writable.of_finite : ∀ {v : Value}, Writable style v → v.allFinite = true → Writable style' v
  | .null, _, _ => writable_null
  | .bool b, _, _ => writable_bool b
  | .int _, h, _ => h
  | .float _, _, hfinite => exists_float fun _ => hfinite
  | .str s, _, _ => writable_str s
  | .list _, h, hfinite => writable_list.2 (items_of_finite (writable_list.1 h) hfinite)
  | .tuple _, h, hfinite => writable_tuple.2 (items_of_finite (writable_tuple.1 h) hfinite)
  | .dict _, h, hfinite => writable_dict.2 (entries_of_finite (writable_dict.1 h) hfinite)
  | .bytes _, h, _ | .buffer _, h, _ | .path _, h, _ | .stream _ _, h, _ | .record _ _, h, _ | .limits _, h, _
  | .byChat _ _, h, _ | .byChatKind, h, _ | .moment _ _ _, h, _ | .spent, h, _ | .plain, h, _ => nomatch h
theorem items_of_finite : ∀ {xs : List Value}, (∀ x ∈ xs, Writable style x) → Value.itemsFinite xs = true →
    ∀ x ∈ xs, Writable style' x
  | [], _, _ => by simp
  | x :: xs, h, hfinite => by
      rw [Value.itemsFinite, Bool.and_eq_true] at hfinite
      rw [List.forall_mem_cons] at h ⊢
      exact ⟨h.1.of_finite hfinite.1, items_of_finite h.2 hfinite.2⟩
theorem entries_of_finite : ∀ {es : Entries}, (∀ e ∈ es, (∃ k, key style e.1 = .ok k) ∧ Writable style e.2) →
    Value.entriesFinite es = true → ∀ e ∈ es, (∃ k, key style' e.1 = .ok k) ∧ Writable style' e.2
  | [], _, _ => by simp
  | (k, v) :: es, h, hfinite => by
      rw [Value.entriesFinite, Bool.and_eq_true, Bool.and_eq_true] at hfinite
      rw [List.forall_mem_cons] at h ⊢
      exact ⟨⟨key_of_finite h.1.1 hfinite.1.1, h.1.2.of_finite hfinite.1.2⟩, entries_of_finite h.2 hfinite.2⟩
end

theorem isFinite_of_float {x : Float} {t : List Char} (hstyle : style.finiteOnly = true) (h : float style x = .ok t) :
    Number.isFinite x = true := by
  by_contra hnot
  rw [float, if_neg hnot, if_pos hstyle] at h
  cases h

theorem allFinite_of_key {k : Value} {t : List Char} (hstyle : style.finiteOnly = true) (h : key style k = .ok t) :
    k.allFinite = true := by
  cases k with
  | null | bool | int | str => rfl
  | float x =>
      obtain ⟨s, hs, -⟩ := ok_of_map h
      exact isFinite_of_float hstyle hs
  | _ => cases h

mutual
theorem Writable.allFinite (hstyle : style.finiteOnly = true) : ∀ {v : Value}, Writable style v → v.allFinite = true
  | .null, _ | .bool _, _ | .int _, _ | .str _, _ => rfl
  | .float _, ⟨_, h⟩ => isFinite_of_float hstyle h
  | .list _, h => itemsFinite_of_writable hstyle (writable_list.1 h)
  | .tuple _, h => itemsFinite_of_writable hstyle (writable_tuple.1 h)
  | .dict _, h => entriesFinite_of_writable hstyle (writable_dict.1 h)
  | .bytes _, h | .buffer _, h | .path _, h | .stream _ _, h | .record _ _, h | .limits _, h | .byChat _ _, h
  | .byChatKind, h | .moment _ _ _, h | .spent, h | .plain, h => nomatch h
theorem itemsFinite_of_writable (hstyle : style.finiteOnly = true) : ∀ {xs : List Value},
    (∀ x ∈ xs, Writable style x) → Value.itemsFinite xs = true
  | [], _ => rfl
  | x :: xs, h => by
      rw [List.forall_mem_cons] at h
      rw [Value.itemsFinite, h.1.allFinite hstyle, itemsFinite_of_writable hstyle h.2, Bool.and_true]
theorem entriesFinite_of_writable (hstyle : style.finiteOnly = true) : ∀ {es : Entries},
    (∀ e ∈ es, (∃ k, key style e.1 = .ok k) ∧ Writable style e.2) → Value.entriesFinite es = true
  | [], _ => rfl
  | (k, v) :: es, h => by
      rw [List.forall_mem_cons] at h
      obtain ⟨⟨⟨t, ht⟩, hv⟩, hes⟩ := h
      rw [Value.entriesFinite, allFinite_of_key hstyle ht, hv.allFinite hstyle, entriesFinite_of_writable hstyle hes]
      rfl
end

theorem writable_iff_of_finiteOnly (hstyle : style.finiteOnly = true) :
    Writable style v ↔ Writable style' v ∧ v.allFinite = true :=
  ⟨fun h => ⟨h.of_finite (h.allFinite hstyle), h.allFinite hstyle⟩, fun h => h.1.of_finite h.2⟩

end Json

end BotApi
