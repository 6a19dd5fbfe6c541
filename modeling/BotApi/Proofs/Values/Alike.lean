import BotApi.Proofs.Values.Conforms
/-!
Data: values that are written as they are. Two of them are alike if they differ in nothing but the order
of the entries of mappings.
-/

namespace BotApi

namespace Value

inductive Has : Value → Value → Prop
  | self (v : Value) : Has v v
  | item {xs : List Value} {x w : Value} (mem : x ∈ xs) (has : Has x w) : Has (.list xs) w
  | member {xs : List Value} {x w : Value} (mem : x ∈ xs) (has : Has x w) : Has (.tuple xs) w
  | entry {es : Entries} {k x w : Value} (mem : (k, x) ∈ es) (has : Has x w) : Has (.dict es) w

def isData : Value → Bool
  | bytes _ | buffer _ | path _ | stream _ _ | record _ _ | limits _ => false
  | _ => true

structure Data (v : Value) : Prop where
  plain : ∀ w, v.Has w → w.isData = true
  keys : ∀ es, v.Has (.dict es) → (es.map (·.1)).Nodup

namespace Data

variable {v x k : Value} {xs : List Value} {es : Entries}

theorem of_has (h : v.Data) (hx : ∀ w, x.Has w → v.Has w) : x.Data where
  plain w hw := h.plain w (hx w hw)
  keys es hes := h.keys es (hx _ hes)

theorem item (h : (list xs).Data) (hx : x ∈ xs) : x.Data := h.of_has fun _ => .item hx

theorem member (h : (tuple xs).Data) (hx : x ∈ xs) : x.Data := h.of_has fun _ => .member hx

theorem entry (h : (dict es).Data) (hx : (k, x) ∈ es) : x.Data := h.of_has fun _ => .entry hx

theorem nodup (h : (dict es).Data) : (es.map (·.1)).Nodup := h.keys es (.self _)

theorem list (h : ∀ x ∈ xs, x.Data) : (Value.list xs).Data where
  plain w hw := by
    cases hw with
    | self => rfl
    | item mem has => exact (h _ mem).plain w has
  keys es hes := by
    cases hes with
    | item mem has => exact (h _ mem).keys es has

theorem dict (hkeys : (es.map (·.1)).Nodup) (h : ∀ e ∈ es, e.2.Data) : (Value.dict es).Data where
  plain w hw := by
    cases hw with
    | self => rfl
    | entry mem has => exact (h _ mem).plain w has
  keys fs hfs := by
    cases hfs with
    | self => exact hkeys
    | entry mem has => exact (h _ mem).keys fs has

theorem int (n : Int) : (Value.int n).Data := ⟨fun w hw => by cases hw; rfl, fun es hes => by cases hes⟩

theorem str (t : String) : (Value.str t).Data := ⟨fun w hw => by cases hw; rfl, fun es hes => by cases hes⟩

theorem not_isFile (h : v.Data) : Schema.isFile v = false := by
  have hplain := h.plain v (.self v)
  cases v with
  | bytes | buffer | path | stream => cases hplain
  | _ => rfl

end Data

mutual
theorem plainData_of_data : ∀ {v : Value}, v.Data → v.plainData = v
  | list xs, h => by rw [plainData, plainItems_of_data fun x hx => h.item hx]
  | tuple xs, h => by rw [plainData, plainItems_of_data fun x hx => h.member hx]
  | dict es, h => by rw [plainData, plainEntries_of_data fun e he => h.entry he]
  | bytes _, h | buffer _, h | path _, h | stream _ _, h | record _ _, h | limits _, h => by
      have hplain := h.plain _ (.self _)
      cases hplain
  | null, _ | bool _, _ | int _, _ | float _, _ | str _, _ | byChat _ _, _ | byChatKind, _
  | moment _ _ _, _ | spent, _ | plain, _ => rfl
theorem plainItems_of_data : ∀ {xs : List Value}, (∀ x ∈ xs, x.Data) → plainItems xs = xs
  | [], _ => rfl
  | x :: xs, h => by
      rw [plainItems, plainData_of_data (h x (by simp)), plainItems_of_data fun y hy => h y (by simp [hy])]
theorem plainEntries_of_data : ∀ {es : Entries}, (∀ e ∈ es, e.2.Data) → plainEntries es = es
  | [], _ => rfl
  | (k, v) :: es, h => by
      have hv : v.Data := h (k, v) (by simp)
      rw [plainEntries, plainData_of_data hv, plainEntries_of_data fun e he => h e (by simp [he])]
end

inductive Alike : Value → Value → Prop
  | same (v : Value) : Alike v v
  | list {xs ys : List Value} (length : xs.length = ys.length) (each : ∀ e ∈ xs.zip ys, Alike e.1 e.2) :
      Alike (.list xs) (.list ys)
  | dict {es fs : Entries} (keys : (es.map (·.1)).Perm (fs.map (·.1)))
      (each : ∀ k v w, (k, v) ∈ es → (k, w) ∈ fs → Alike v w) : Alike (.dict es) (.dict fs)

theorem alike_list {xs ys : List Value} : Alike (.list xs) (.list ys) ↔ List.Forall₂ Alike xs ys := by
  rw [List.forall₂_iff_zip]
  constructor
  · intro h
    cases h with
    | same =>
        refine ⟨rfl, fun {a b} hab => ?_⟩
        obtain rfl : a = b := by
          rw [← List.map_id xs, List.zip_map', List.mem_map] at hab
          obtain ⟨x, -, hx⟩ := hab
          cases hx
          rfl
        exact .same a
    | list length each => exact ⟨length, fun hab => each _ hab⟩
  · exact fun h => .list h.1 fun e he => h.2 he

end Value

end BotApi
