import Mathlib.Data.List.Forall2
/-!
Computations that can fail, taken apart: what the steps of one that did not fail have given.
-/

namespace BotApi

variable {ε α β : Type}

theorem exists_of_bind {x : Except ε α} {f : α → Except ε β} (h : (x.bind f).isOk = true) :
    ∃ a, x = .ok a ∧ (f a).isOk = true := by
  cases x with
  | error e => cases h
  | ok a => exact ⟨a, rfl, h⟩

theorem ok_of_bind {x : Except ε α} {f : α → Except ε β} {b : β} (h : x.bind f = .ok b) :
    ∃ a, x = .ok a ∧ f a = .ok b := by
  cases x with
  | error e => cases h
  | ok a => exact ⟨a, rfl, h⟩

theorem exists_ok_iff {x : Except ε α} : (∃ a, x = .ok a) ↔ x.isOk = true := by
  cases x <;> simp [Except.isOk, Except.toBool]

theorem exists_error_iff {x : Except ε α} : (∃ e, x = .error e) ↔ ¬ ∃ a, x = .ok a := by
  cases x <;> simp

theorem ok_of_toOption {x : Except ε α} {a : α} (h : x.toOption = some a) : x = .ok a := by
  cases x with
  | error e => cases h
  | ok b => exact congrArg _ (Option.some.inj h)

theorem ok_of_map {x : Except ε α} {f : α → β} {b : β} (h : x.map f = .ok b) :
    ∃ a, x = .ok a ∧ f a = b := by
  cases x with
  | error e => cases h
  | ok a => exact ⟨a, rfl, Except.ok.inj h⟩

theorem exists_right_of_mem {R : α → β → Prop} {xs : List α} {ys : List β}
    (h : List.Forall₂ R xs ys) {x : α} (hx : x ∈ xs) : ∃ y ∈ ys, R x y := by
  induction h with
  | nil => cases hx
  | @cons x' y xs ys hxy _ ih =>
      rcases List.mem_cons.1 hx with rfl | hx
      · exact ⟨y, by simp, hxy⟩
      · obtain ⟨z, hz, hxz⟩ := ih hx
        exact ⟨z, by simp [hz], hxz⟩

theorem exists_left_of_mem {R : α → β → Prop} {xs : List α} {ys : List β}
    (h : List.Forall₂ R xs ys) {y : β} (hy : y ∈ ys) : ∃ x ∈ xs, R x y := by
  obtain ⟨x, hx, hxy⟩ := exists_right_of_mem h.flip hy
  exact ⟨x, hx, hxy⟩

theorem forall₂_imp_of_mem {R S : α → β → Prop} {xs : List α} {ys : List β} (h : List.Forall₂ R xs ys)
    (hRS : ∀ x ∈ xs, ∀ y, R x y → S x y) : List.Forall₂ S xs ys := by
  induction h with
  | nil => exact .nil
  | cons hxy _ ih =>
      rw [List.forall_mem_cons] at hRS
      exact .cons (hRS.1 _ hxy) (ih hRS.2)

theorem exists_forall₂ {R : α → β → Prop} {as : List α} (h : ∀ a ∈ as, ∃ b, R a b) :
    ∃ bs, List.Forall₂ R as bs := by
  induction as with
  | nil => exact ⟨[], .nil⟩
  | cons a as ih =>
      obtain ⟨b, hb⟩ := h a (by simp)
      obtain ⟨bs, hbs⟩ := ih fun a ha => h a (by simp [ha])
      exact ⟨b :: bs, .cons hb hbs⟩

theorem pairwise_of_forall₂ {R : α → β → Prop} {P : α → α → Prop} {Q : β → β → Prop} {xs : List α} {ys : List β}
    (h : List.Forall₂ R xs ys) (hpairs : xs.Pairwise P)
    (himp : ∀ {x x' y y'}, R x y → R x' y' → P x x' → Q y y') : ys.Pairwise Q := by
  induction h with
  | nil => exact .nil
  | cons hxy hrest ih =>
      obtain ⟨hhead, htail⟩ := List.pairwise_cons.1 hpairs
      refine List.pairwise_cons.2 ⟨fun y hy => ?_, ih htail⟩
      obtain ⟨x, hx, hxy'⟩ := exists_left_of_mem hrest hy
      exact himp hxy hxy' (hhead x hx)

theorem eq_of_nodup {R : α → β → Prop} (hR : ∀ {a b b'}, R a b → R a b' → b = b') {as : List α}
    {bs : List β} (h : List.Forall₂ R as bs) (hnodup : bs.Nodup) {a a' : α} {b : β} (ha : a ∈ as) (ha' : a' ∈ as)
    (hb : R a b) (hb' : R a' b) : a = a' := by
  induction h with
  | nil => cases ha
  | @cons x y as bs hy hrest ih =>
      have hnew {z : α} (hz : z ∈ as) (hzy : R z y) : False := by
        obtain ⟨w, hw, hzw⟩ := exists_right_of_mem hrest hz
        exact (List.nodup_cons.1 hnodup).1 (hR hzw hzy ▸ hw)
      rcases List.mem_cons.1 ha with hx | hmem <;> rcases List.mem_cons.1 ha' with hx' | hmem'
      · rw [hx, hx']
      · subst hx
        exact (hnew hmem' (hR hb hy ▸ hb')).elim
      · subst hx'
        exact (hnew hmem (hR hb' hy ▸ hb)).elim
      · exact ih (List.nodup_cons.1 hnodup).2 hmem hmem'

theorem forall₂_of_mapM {f : α → Except ε β} {l : List α} {bs : List β} (h : l.mapM f = .ok bs) :
    List.Forall₂ (fun a b => f a = .ok b) l bs := by
  induction l generalizing bs with
  | nil =>
      cases h
      exact .nil
  | cons a l ih =>
      rw [List.mapM_cons] at h
      obtain ⟨b, hb, h⟩ := ok_of_bind h
      obtain ⟨bs, hbs, h⟩ := ok_of_bind h
      cases h
      exact .cons hb (ih hbs)

theorem exists_mapM {f : α → Except ε β} {l : List α} (h : ∀ a ∈ l, ∃ b, f a = .ok b) : ∃ bs, l.mapM f = .ok bs := by
  induction l with
  | nil => exact ⟨[], rfl⟩
  | cons a l ih =>
      rw [List.forall_mem_cons] at h
      obtain ⟨⟨b, hb⟩, hl⟩ := h
      obtain ⟨bs, hbs⟩ := ih hl
      exact ⟨b :: bs, by rw [List.mapM_cons, hb, hbs]; rfl⟩

theorem filterM_ok {f : α → Except ε Bool} {p : α → Bool} {xs : List α} (h : ∀ x ∈ xs, f x = .ok (p x)) :
    xs.filterM f = .ok (xs.filter p) := by
  have haux (acc : List α) : xs.filterAuxM f acc = .ok ((xs.filter p).reverse ++ acc) := by
    induction xs generalizing acc with
    | nil => rfl
    | cons x xs ih =>
        rw [List.forall_mem_cons] at h
        rw [List.filterAuxM, h.1]
        refine (ih h.2 _).trans ?_
        cases hx : p x <;> simp [hx]
  rw [List.filterM, haux, List.append_nil]
  exact congrArg Except.ok (List.reverse_reverse _)

theorem foldlM_keeps {P : α → Prop} {f : α → β → Except ε α} {xs : List β}
    {a b : α} (hf : ∀ a, ∀ x ∈ xs, ∀ b, P a → f a x = .ok b → P b) (ha : P a)
    (h : xs.foldlM f a = .ok b) : P b := by
  induction xs generalizing a with
  | nil =>
      cases h
      exact ha
  | cons x xs ih =>
      rw [List.foldlM_cons] at h
      obtain ⟨a', hx, h⟩ := ok_of_bind h
      exact ih (fun a y hy => hf a y (by simp [hy])) (hf a x (by simp) a' ha hx) h

end BotApi
