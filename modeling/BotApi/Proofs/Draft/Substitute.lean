import BotApi.Draft.Build
import BotApi.Proofs.Draft.Distinct
import BotApi.Proofs.Result
/-!
The leaves of a draft, and a draft with its names replaced by what they stand for.
-/

namespace BotApi.Draft

mutual
def leaves : Draft → List Draft
  | array d => leaves d
  | union ds => leavesList ds
  | choice _ _ ds => leavesList ds
  | d => [d]
def leavesList : List Draft → List Draft
  | [] => []
  | d :: ds => leaves d ++ leavesList ds
end

theorem mem_leavesList {l : Draft} {ds : List Draft} :
    l ∈ leavesList ds ↔ ∃ d ∈ ds, l ∈ d.leaves := by
  induction ds with
  | nil => simp [leavesList]
  | cons d ds ih => simp [leavesList, ih]

def keepsName (d : Draft) : Bool := d.leaves.any isNamed

theorem keepsName_eq_false {d : Draft} :
    d.keepsName = false ↔ ∀ n, named n ∉ d.leaves := by
  rw [keepsName, List.any_eq_false]
  constructor
  · exact fun h n hn => h _ hn rfl
  · intro h l hl
    cases l <;> simp [isNamed]
    exact h _ hl

mutual
theorem mem_keys {k : Nat} : ∀ {d : Draft}, k ∈ d.keys ↔ record k ∈ d.leaves
  | basic _ | literal _ | named _ => by simp [keys, leaves]
  | record l => by simp [keys, leaves]
  | array d => by simpa only [keys, leaves] using mem_keys (d := d)
  | union ds => by simpa only [keys, leaves] using @mem_keysList k ds
  | choice s f ds => by simpa only [keys, leaves] using @mem_keysList k ds
theorem mem_keysList {k : Nat} : ∀ {ds : List Draft}, k ∈ keysList ds ↔ record k ∈ leavesList ds
  | [] => by simp [keysList, leavesList]
  | d :: ds => by simp only [keysList, leavesList, List.mem_append, mem_keys, mem_keysList]
end

theorem mem_leaves_options {l d : Draft} : (∃ e ∈ d.options, l ∈ e.leaves) ↔ l ∈ d.leaves := by
  cases d <;> simp [options, leaves, mem_leavesList]

theorem mem_leaves_choice {l : Draft} {s : String} {f : Option String} {ds : List Draft} :
    l ∈ (choice s f (distinct ds)).leaves ↔ ∃ d ∈ ds, l ∈ d.leaves := by
  simp only [leaves, mem_leavesList, mem_distinct]

theorem mem_leaves_unionOf {l : Draft} {ds : List Draft} :
    l ∈ (unionOf ds).leaves ↔ ∃ d ∈ ds, l ∈ d.leaves := by
  have h : l ∈ (unionOf ds).leaves ↔ ∃ d ∈ distinct (ds.flatMap options), l ∈ d.leaves := by
    unfold unionOf
    split
    · rename_i d hd
      simp [hd]
    · simp only [leaves, mem_leavesList]
  rw [h]
  constructor
  · rintro ⟨e, he, hl⟩
    obtain ⟨d, hd, hed⟩ := List.mem_flatMap.1 (mem_distinct.1 he)
    exact ⟨d, hd, mem_leaves_options.1 ⟨e, hed, hl⟩⟩
  · rintro ⟨d, hd, hl⟩
    obtain ⟨e, he, hl⟩ := mem_leaves_options.2 hl
    exact ⟨e, mem_distinct.2 (List.mem_flatMap.2 ⟨d, hd, he⟩), hl⟩

section

variable (σ : String → Draft)

mutual
def subst : Draft → Draft
  | named n => σ n
  | array d => array (subst d)
  | union ds => unionOf (substList ds)
  | choice s f ds => choice s f (distinct (substList ds))
  | d => d
def substList : List Draft → List Draft
  | [] => []
  | d :: ds => subst d :: substList ds
end

theorem substList_eq (ds : List Draft) : substList σ ds = ds.map (subst σ) := by
  induction ds with
  | nil => rfl
  | cons d ds ih => simp [substList, ih]

variable {σ}

mutual
theorem mem_leaves_subst {l : Draft} : ∀ {d : Draft}, l ∈ (subst σ d).leaves →
    (∃ n, named n ∈ d.leaves ∧ l ∈ (σ n).leaves) ∨ l ∈ d.leaves ∧ l.isNamed = false
  | named n, h => .inl ⟨n, by simp [leaves], h⟩
  | basic _, h | literal _, h | record _, h => by
      simp only [subst, leaves, List.mem_singleton] at h
      simp [leaves, h, isNamed]
  | array d, h => by
      simp only [subst, leaves] at h ⊢
      exact mem_leaves_subst h
  | union ds, h => by
      simp only [subst, mem_leaves_unionOf] at h
      simp only [leaves]
      exact mem_leavesList_substList (mem_leavesList.2 h)
  | choice s f ds, h => by
      simp only [subst, mem_leaves_choice] at h
      simp only [leaves]
      exact mem_leavesList_substList (mem_leavesList.2 h)
theorem mem_leavesList_substList {l : Draft} : ∀ {ds : List Draft},
    l ∈ leavesList (substList σ ds) →
    (∃ n, named n ∈ leavesList ds ∧ l ∈ (σ n).leaves) ∨ l ∈ leavesList ds ∧ l.isNamed = false
  | [], h => by simp [substList, leavesList] at h
  | d :: ds, h => by
      simp only [substList, leavesList, List.mem_append] at h ⊢
      rcases h with h | h
      · rcases mem_leaves_subst h with ⟨n, hn, hl⟩ | ⟨hl, hnamed⟩
        · exact .inl ⟨n, .inl hn, hl⟩
        · exact .inr ⟨.inl hl, hnamed⟩
      · rcases mem_leavesList_substList h with ⟨n, hn, hl⟩ | ⟨hl, hnamed⟩
        · exact .inl ⟨n, .inr hn, hl⟩
        · exact .inr ⟨.inr hl, hnamed⟩
end

mutual
theorem subst_congr {τ : String → Draft} : ∀ {d : Draft},
    (∀ n, named n ∈ d.leaves → σ n = τ n) → subst σ d = subst τ d
  | named n, h => h n (by simp [leaves])
  | basic _, _ | literal _, _ | record _, _ => rfl
  | array d, h => by
      rw [subst, subst, subst_congr (d := d) h]
  | union ds, h => by
      rw [subst, subst, substList_congr h]
  | choice s f ds, h => by
      rw [subst, subst, substList_congr h]
theorem substList_congr {τ : String → Draft} : ∀ {ds : List Draft},
    (∀ n, named n ∈ leavesList ds → σ n = τ n) → substList σ ds = substList τ ds
  | [], _ => rfl
  | d :: ds, h => by
      simp only [leavesList, List.mem_append] at h
      rw [substList, substList, subst_congr fun n hn => h n (.inl hn),
        substList_congr fun n hn => h n (.inr hn)]
end

mutual
theorem normal_subst (hσ : ∀ n, (σ n).isUnion = false) : ∀ d : Draft, Normal (subst σ d)
  | named n => .of_not_isUnion (hσ n)
  | basic _ | literal _ | record _ | array _ | choice _ _ _ => .of_not_isUnion rfl
  | union ds => normal_unionOf (normal_substList hσ ds)
theorem normal_substList (hσ : ∀ n, (σ n).isUnion = false) :
    ∀ ds : List Draft, ∀ d ∈ substList σ ds, Normal d
  | [] => by simp [substList]
  | d :: ds => by
      intro e he
      rcases List.mem_cons.1 he with rfl | he
      · exact normal_subst hσ d
      · exact normal_substList hσ ds e he
end

theorem distinct_options_subst (hσ : ∀ n, (σ n).isUnion = false) (d : Draft) :
    distinct (d.options.flatMap fun e => (subst σ e).options) = distinct (subst σ d).options := by
  cases hd : d.isUnion with
  | false => simp [options_of_not_isUnion hd]
  | true =>
      cases d with
      | union ds =>
          have ho := options_unionOf fun e he => (normal_substList hσ ds e he).flat
          rw [show (union ds).options = ds from rfl, subst, ho, distinct_distinct, substList_eq,
            List.flatMap_map]
      | _ => simp [isUnion] at hd

theorem subst_unionOf (hσ : ∀ n, (σ n).isUnion = false) (ds : List Draft) :
    subst σ (unionOf ds) = unionOf (ds.map (subst σ)) := by
  have hd : subst σ (unionOf ds) =
      unionOf ((distinct (ds.flatMap options)).map (subst σ)) := by
    rcases h : distinct (ds.flatMap options) with _ | ⟨d, _ | ⟨e, es⟩⟩
    · rw [unionOf, h, subst, substList_eq]
    · rw [unionOf, h]
      exact (normal_subst hσ d).same.symm
    · rw [unionOf, h, subst, substList_eq]
  rw [hd]
  refine unionOf_congr ?_
  simp only [List.flatMap_map, distinct_flatMap_distinct, List.flatMap_assoc]
  exact distinct_flatMap_congr fun d _ => distinct_options_subst hσ d

theorem subst_choice (s : String) (f : Option String) (ds : List Draft) :
    subst σ (choice s f (distinct ds)) = choice s f (distinct (ds.map (subst σ))) := by
  rw [subst, substList_eq, distinct_map_distinct]

end

-- A result that agrees with another one, unless a name is not defined, where that can be.
def OrUndefined {α : Type} (undecided : Prop) (r r' : Except Obstacle α) : Prop :=
  r = r' ∨ undecided ∧ ∃ n, r = .error (.undefined n)

namespace OrUndefined

variable {α β : Type} {U : Prop} {r r' : Except Obstacle α}

theorem refl (r : Except Obstacle α) : OrUndefined U r r := .inl rfl

theorem decided (h : OrUndefined (([] : List String) ≠ []) r r') : r = r' :=
  h.elim id fun h => absurd rfl h.1

theorem bind {f g : α → Except Obstacle β} (h : OrUndefined U r r')
    (hf : ∀ a, r = .ok a → OrUndefined U (f a) (g a)) :
    OrUndefined U (r.bind f) (r'.bind g) := by
  rcases h with rfl | ⟨hu, n, rfl⟩
  · cases r with
    | error e => exact .inl rfl
    | ok a => exact hf a rfl
  · exact .inr ⟨hu, n, rfl⟩

theorem map (h : OrUndefined U r r') (f : α → β) : OrUndefined U (r.map f) (r'.map f) := by
  rcases h with rfl | ⟨hu, n, rfl⟩
  · exact .inl rfl
  · exact .inr ⟨hu, n, rfl⟩

theorem foldlM {f g : α → β → Except Obstacle α} {xs : List β} (a : α)
    (h : ∀ x ∈ xs, ∀ a, OrUndefined U (f a x) (g a x)) :
    OrUndefined U (xs.foldlM f a) (xs.foldlM g a) := by
  induction xs generalizing a with
  | nil => exact refl _
  | cons x xs ih =>
      simp only [List.foldlM_cons]
      exact (h x (by simp) a).bind fun a' _ => ih a' fun y hy => h y (by simp [hy])

end OrUndefined

section

variable {U : Prop} {σ : String → Draft} {expand : String → Except Obstacle Draft}

mutual
theorem expandWith_orUndefined : ∀ {d : Draft},
    (∀ n, named n ∈ d.leaves → OrUndefined U (expand n) (.ok (σ n))) →
    OrUndefined U (expandWith expand d) (.ok (subst σ d))
  | named n, h => h n (by simp [leaves])
  | basic _, _ | literal _, _ | record _, _ => .refl _
  | array d, h => (expandWith_orUndefined (d := d) h).map array
  | union ds, h => by
      have hds : OrUndefined U (expandList expand ds) (.ok (substList σ ds)) :=
        expandList_orUndefined h
      exact hds.map unionOf
  | choice s f ds, h => by
      have hds : OrUndefined U (expandList expand ds) (.ok (substList σ ds)) :=
        expandList_orUndefined h
      exact hds.map fun ds => choice s f (distinct ds)
theorem expandList_orUndefined : ∀ {ds : List Draft},
    (∀ n, named n ∈ leavesList ds → OrUndefined U (expand n) (.ok (σ n))) →
    OrUndefined U (expandList expand ds) (.ok (substList σ ds))
  | [], _ => .refl _
  | d :: ds, h => by
      simp only [leavesList, List.mem_append] at h
      have hd := expandWith_orUndefined (d := d) fun n hn => h n (.inl hn)
      have hds : OrUndefined U (expandList expand ds) (.ok (substList σ ds)) :=
        expandList_orUndefined fun n hn => h n (.inr hn)
      refine hd.bind (g := fun d' => (Except.ok (substList σ ds)).map (d' :: ·)) fun d' hd' => ?_
      exact hds.map _
end

mutual
theorem expand_ok_of_expandWith : ∀ {d d' : Draft}, expandWith expand d = .ok d' →
    ∀ n, named n ∈ d.leaves → ∃ e, expand n = .ok e
  | named m, d', h, n, hn => by
      obtain rfl : n = m := by simpa [leaves] using hn
      exact ⟨d', h⟩
  | basic _, _, _, n, hn | literal _, _, _, n, hn | record _, _, _, n, hn => by
      simp [leaves] at hn
  | array d, d', h, n, hn => by
      obtain ⟨_, hd, -⟩ := ok_of_map h
      exact expand_ok_of_expandWith hd n hn
  | union ds, d', h, n, hn => by
      obtain ⟨_, hds, -⟩ := ok_of_map h
      exact expand_ok_of_expandList hds n hn
  | choice s f ds, d', h, n, hn => by
      obtain ⟨_, hds, -⟩ := ok_of_map h
      exact expand_ok_of_expandList hds n hn
theorem expand_ok_of_expandList : ∀ {ds ds' : List Draft}, expandList expand ds = .ok ds' →
    ∀ n, named n ∈ leavesList ds → ∃ e, expand n = .ok e
  | [], _, _, n, hn => by simp [leavesList] at hn
  | d :: ds, ds', h, n, hn => by
      obtain ⟨_, hd, h⟩ := ok_of_bind h
      obtain ⟨_, hds, -⟩ := ok_of_map h
      rcases List.mem_append.1 hn with hn | hn
      · exact expand_ok_of_expandWith hd n hn
      · exact expand_ok_of_expandList hds n hn
end

theorem forall₂_expandList {ds ds' : List Draft} (h : expandList expand ds = .ok ds') :
    List.Forall₂ (fun d d' => expandWith expand d = .ok d') ds ds' := by
  induction ds generalizing ds' with
  | nil =>
      cases h
      exact .nil
  | cons d ds ih =>
      obtain ⟨d₁, hd, h⟩ := ok_of_bind h
      obtain ⟨ds₁, hds, rfl⟩ := ok_of_map h
      exact .cons hd (ih hds)

end

end BotApi.Draft
