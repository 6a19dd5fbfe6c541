import BotApi.Proofs.Result
import BotApi.Schema.Validate
/-!
Choices between schemas: when one is found for a value, and which.
-/

namespace BotApi.Schema

-- The equations of the checks, made once here: proofs that ask for them side by side wait for one another.
section
attribute [local simp] step verdicts choose checkDepth
end

variable {rs : Records} {source : Source} {descend : Schema → Value → Verdict} {p : Passed}

theorem under_eq_ok {α : Type} {t : Turn} {x : Except Refused α} {a : α} : under t x = .ok a ↔ x = .ok a := by
  cases x <;> simp [under]

theorem scoreOf_under (t : Turn) (x : Verdict) : scoreOf (under t x) = scoreOf x := by
  cases x <;> rfl

def Passed.better (best : Option Passed) (q : Passed) : Passed :=
  match best with
  | none => q
  | some b => if q.beats b then q else b

theorem better_cases (best : Option Passed) (q : Passed) : q.better best = q ∨ best = some (q.better best) := by
  cases best with
  | none => exact .inl rfl
  | some b =>
      unfold Passed.better
      dsimp only
      split
      · exact .inl rfl
      · exact .inr rfl

theorem pick_ok_cons (best : Option Passed) (findings : List Finding) (q : Passed) (vs : List Verdict) :
    pick best findings (.ok q :: vs) =
      if q.grade = .exact ∧ q.fieldsSet = none then .ok q else pick (some (q.better best)) findings vs := by
  cases best <;> rfl

theorem pick_error_cons (best : Option Passed) (findings : List Finding) (r : Refused) (vs : List Verdict) :
    pick best findings (.error r :: vs) = pick best (findings ++ r.findings) vs := rfl

theorem mem_of_pick {vs : List Verdict} {best : Option Passed} {findings : List Finding}
    (h : pick best findings vs = .ok p) : best = some p ∨ .ok p ∈ vs := by
  induction vs generalizing best findings with
  | nil =>
      cases best with
      | none => cases h
      | some b =>
          cases h
          exact .inl rfl
  | cons x vs ih =>
      cases x with
      | error r =>
          rw [pick_error_cons] at h
          exact (ih h).imp_right (List.mem_cons_of_mem _)
      | ok q =>
          rw [pick_ok_cons] at h
          split at h
          · cases h
            exact .inr List.mem_cons_self
          · rcases ih h with hbest | hmem
            · rcases better_cases best q with hq | hq
              · obtain rfl : q = p := hq.symm.trans (Option.some.inj hbest)
                exact .inr List.mem_cons_self
              · exact .inl (hq.trans hbest)
            · exact .inr (List.mem_cons_of_mem _ hmem)

theorem exists_of_pick {vs : List Verdict} {best : Option Passed} {findings : List Finding}
    (h : best ≠ none ∨ ∃ q, .ok q ∈ vs) : ∃ p, pick best findings vs = .ok p := by
  induction vs generalizing best findings with
  | nil =>
      cases best with
      | none => simp at h
      | some b => exact ⟨b, rfl⟩
  | cons x vs ih =>
      cases x with
      | error r =>
          rw [pick_error_cons]
          exact ih (by simpa using h)
      | ok q =>
          rw [pick_ok_cons]
          split
          · exact ⟨q, rfl⟩
          · exact ih (.inl (by simp))

theorem rank_le_better {b q : Passed} (h : b.fieldsSet = q.fieldsSet) :
    b.grade.rank ≤ (q.better (some b)).grade.rank ∧ q.grade.rank ≤ (q.better (some b)).grade.rank := by
  have hbeats : q.beats b = decide (b.grade.rank < q.grade.rank) := by
    unfold Passed.beats
    rw [h]
    cases q.fieldsSet <;> simp
  simp only [Passed.better, hbeats, decide_eq_true_eq]
  split <;> omega

theorem rank_le_of_pick {vs : List Verdict} {best : Option Passed} {findings : List Finding} {set : Option Nat}
    (hset : ∀ q : Passed, (best = some q ∨ .ok q ∈ vs) → q.fieldsSet = set) (h : pick best findings vs = .ok p) :
    ∀ q : Passed, (best = some q ∨ .ok q ∈ vs) → q.grade.rank ≤ p.grade.rank := by
  induction vs generalizing best findings with
  | nil =>
      cases best with
      | none => cases h
      | some b =>
          cases h
          simp
  | cons x vs ih =>
      cases x with
      | error r =>
          rw [pick_error_cons] at h
          simpa using ih (by simpa using hset) h
      | ok q =>
          rw [pick_ok_cons] at h
          split at h
          · rename_i hexact
            cases h
            intro q' _
            rw [hexact.1]
            cases q'.grade <;> decide
          · have hq := hset q (.inr List.mem_cons_self)
            have hle : ∀ q' : Passed, (best = some q' ∨ q' = q) → q'.grade.rank ≤ (q.better best).grade.rank := by
              rintro q' (rfl | rfl)
              · exact (rank_le_better ((hset q' (.inl rfl)).trans hq.symm)).1
              · cases best with
                | none => exact Nat.le_refl _
                | some b => exact (rank_le_better ((hset b (.inl rfl)).trans hq.symm)).2
            have hnext : ∀ q' : Passed, (some (q.better best) = some q' ∨ .ok q' ∈ vs) → q'.fieldsSet = set := by
              rintro q' (hq' | hmem)
              · cases hq'
                rcases better_cases best q with heq | heq
                · rw [heq, hq]
                · exact hset _ (.inl heq)
              · exact hset q' (.inr (List.mem_cons_of_mem _ hmem))
            have hrest := ih hnext h
            rintro q' (hbest | hmem)
            · exact Nat.le_trans (hle q' (.inl hbest)) (hrest _ (.inl rfl))
            · rcases List.mem_cons.1 hmem with hhead | htail
              · exact Nat.le_trans (hle q' (.inr (Except.ok.inj hhead))) (hrest _ (.inl rfl))
              · exact hrest q' (.inr htail)

def Passed.Conclusive (p : Passed) : Prop := p.grade = .exact ∧ p.fieldsSet = none

def Passed.GivesWay (p q : Passed) : Prop := ¬ p.Conclusive ∧ (q.Conclusive ∨ q.beats p = true)

theorem beats_asymm {p q : Passed} (h : q.beats p = true) : p.beats q = false := by
  unfold Passed.beats at h ⊢
  cases hp : p.fieldsSet with
  | none =>
      rw [hp] at h
      cases hq : q.fieldsSet <;> simp_all <;> omega
  | some a =>
      rw [hp] at h
      cases hq : q.fieldsSet with
      | none => simp_all; omega
      | some b =>
          rw [hq] at h
          by_cases hab : a = b
          · subst hab
            simp_all
            omega
          · simp_all [Ne.symm hab]
            omega

-- If only one of two results is wanted, of which the second comes after the first, it is that one.
structure Settled (K : Passed → Prop) (p q : Passed) : Prop where
  kept : K p → ¬ K q → ¬ p.GivesWay q
  replaced : ¬ K p → K q → p.GivesWay q

def results (vs : List Verdict) : List Passed := vs.filterMap Except.toOption

section

variable {K : Passed → Prop} {best : Option Passed} {q r : Passed}

theorem wanted_better (hbest : ∀ b ∈ best, ¬ b.Conclusive) (hr : ¬ r.Conclusive) (hsome : K r ∨ ∃ b ∈ best, K b)
    (hway : ∀ b ∈ best, Settled K b r) : K (r.better best) := by
  cases best with
  | none => exact hsome.resolve_right (by simp)
  | some b =>
      have hsome : K r ∨ K b := hsome.imp id (by simp)
      obtain ⟨hkept, hreplaced⟩ := hway b rfl
      have hgives : b.GivesWay r ↔ r.beats b = true :=
        ⟨fun h => h.2.resolve_left hr, fun h => ⟨hbest b rfl, .inr h⟩⟩
      rw [hgives] at hkept hreplaced
      unfold Passed.better
      dsimp only
      split
      · rename_i hbeats
        by_cases hK : K r
        · exact hK
        · exact absurd hbeats (hkept (hsome.resolve_left hK) hK)
      · rename_i hbeats
        by_cases hK : K b
        · exact hK
        · exact absurd (hreplaced hK (hsome.resolve_right hK)) hbeats

theorem better_sublist (best : Option Passed) (r : Passed) (qs : List Passed) :
    ((some (r.better best)).toList ++ qs).Sublist (best.toList ++ r :: qs) := by
  rcases better_cases best r with heq | heq
  · rw [heq]
    exact List.sublist_append_right _ _
  · rw [← heq]
    exact List.Sublist.append_left (List.sublist_cons_self _ _) _

variable {qs : List Passed}

theorem wanted_conclusive (hbest : ∀ b ∈ best, ¬ b.Conclusive) (hr : r.Conclusive)
    (hsome : ∃ q ∈ best.toList ++ r :: qs, K q) (hway : (best.toList ++ r :: qs).Pairwise (Settled K)) : K r := by
  obtain ⟨q, hq, hK⟩ := hsome
  obtain ⟨-, hrest, hcross⟩ := List.pairwise_append.1 hway
  by_cases hKr : K r
  · exact hKr
  rcases List.mem_append.1 hq with hq | hq
  · have hgives : q.GivesWay r := ⟨hbest q (Option.mem_toList.1 hq), .inl hr⟩
    exact absurd hgives ((hcross q hq r List.mem_cons_self).kept hK hKr)
  · rcases List.mem_cons.1 hq with rfl | hq
    · exact hK
    · exact absurd hr (((List.pairwise_cons.1 hrest).1 q hq).replaced hKr hK).1

theorem exists_wanted_better (hbest : ∀ b ∈ best, ¬ b.Conclusive) (hr : ¬ r.Conclusive)
    (hsome : ∃ q ∈ best.toList ++ r :: qs, K q) (hway : (best.toList ++ r :: qs).Pairwise (Settled K)) :
    ∃ q ∈ (some (r.better best)).toList ++ qs, K q := by
  obtain ⟨q, hq, hK⟩ := hsome
  by_cases hlater : q ∈ qs
  · exact ⟨q, List.mem_append_right _ hlater, hK⟩
  · have hbestr : ∀ b ∈ best, Settled K b r := fun b hb =>
      (List.pairwise_append.1 hway).2.2 b (Option.mem_toList.2 hb) r List.mem_cons_self
    refine ⟨r.better best, by simp, wanted_better hbest hr ?_ hbestr⟩
    rcases List.mem_append.1 hq with hq | hq
    · exact .inr ⟨q, Option.mem_toList.1 hq, hK⟩
    · rcases List.mem_cons.1 hq with rfl | hq
      · exact .inl hK
      · exact absurd hq hlater

theorem wanted_of_pick {vs : List Verdict} {findings : List Finding} (hbest : ∀ b ∈ best, ¬ b.Conclusive)
    (hsome : ∃ q ∈ best.toList ++ results vs, K q) (hway : (best.toList ++ results vs).Pairwise (Settled K))
    (h : pick best findings vs = .ok p) : K p := by
  induction vs generalizing best findings with
  | nil =>
      obtain ⟨q, hq, hK⟩ := hsome
      cases best with
      | none => cases hq
      | some b =>
          obtain rfl : q = b := by simpa [results] using hq
          cases h
          exact hK
  | cons x vs ih =>
      cases x with
      | error r =>
          rw [pick_error_cons] at h
          exact ih hbest hsome hway h
      | ok r =>
          rw [show results (.ok r :: vs) = r :: results vs from rfl] at hsome hway
          rw [pick_ok_cons] at h
          split at h
          · rename_i hexact
            cases h
            exact wanted_conclusive hbest hexact hsome hway
          · rename_i hinexact
            have hinexact : ¬ r.Conclusive := hinexact
            have hbetter : ∀ b ∈ some (r.better best), ¬ b.Conclusive := fun b hb => by
              cases hb
              rcases better_cases best r with heq | heq
              · rwa [heq]
              · exact hbest _ heq
            exact ih hbetter (exists_wanted_better hbest hinexact hsome hway)
              (hway.sublist (better_sublist best r (results vs))) h

end

/-! Searches that end with one value in whatever order the options are listed -/

-- All results with another value give way to this one, and it beats what is beaten by what it beats. Without the latter
-- one with the same value could be kept in its stead, and given up for another later.
structure Passed.Prevails (p : Passed) (R : Passed → Prop) : Prop where
  others : ∀ q, R q → q.value = p.value ∨ q.GivesWay p
  through : ¬ p.Conclusive → ∀ q b, R q → R b → b.value = p.value → p.beats q = true → q.beats b = true →
    p.beats b = true

theorem Passed.Prevails.mono {R R' : Passed → Prop} (h : p.Prevails R) (hR : ∀ q, R' q → R q) : p.Prevails R' where
  others q hq := h.others q (hR q hq)
  through hp q b hq hb := h.through hp q b (hR q hq) (hR b hb)

structure Passed.Withstands (b p : Passed) : Prop where
  value : b.value = p.value
  inconclusive : ¬ p.Conclusive
  beats : p.beats b = false

section

variable {R : Passed → Prop} {b q r : Passed} {best : Option Passed}

theorem beats_self (p : Passed) : p.beats p = false := by
  cases h : p.beats p with
  | false => rfl
  | true => exact h.symm.trans (beats_asymm h)

theorem Passed.Prevails.met (hp : p.Prevails R) (hbest : ∀ b ∈ best, R b) (hconclusive : ¬ p.Conclusive) :
    (p.better best).Withstands p := by
  cases best with
  | none => exact ⟨rfl, hconclusive, beats_self p⟩
  | some b =>
      unfold Passed.better
      dsimp only
      split
      · exact ⟨rfl, hconclusive, beats_self p⟩
      · rename_i hkept
        refine ⟨(hp.others b (hbest b rfl)).resolve_right fun hgives => ?_, hconclusive, by simpa using hkept⟩
        exact hgives.2.elim hconclusive hkept

theorem Passed.Withstands.next (h : b.Withstands p) (hp : p.Prevails R) (hb : R b) (hq : R q) :
    (q.better (some b)).Withstands p := by
  unfold Passed.better
  dsimp only
  split
  · rename_i hbeats
    have hkept : p.beats q = false := Bool.eq_false_iff.2 fun hpq =>
      Bool.false_ne_true (h.beats.symm.trans (hp.through h.inconclusive q b hq hb h.value hpq hbeats))
    refine ⟨(hp.others q hq).resolve_right fun hgives => ?_, h.inconclusive, hkept⟩
    exact hgives.2.elim h.inconclusive fun hpq => Bool.false_ne_true (hkept.symm.trans hpq)
  · exact h

-- What is carried along the search: `p` is still to come, or it has been met and what was kept withstands it.
theorem value_of_pick {vs : List Verdict} {findings : List Finding} (hp : p.Prevails R)
    (hR : ∀ q ∈ best.toList ++ results vs, R q) (hbest : ∀ b ∈ best, ¬ b.Conclusive)
    (hmet : p ∈ results vs ∨ ∃ b ∈ best, b.Withstands p) (h : pick best findings vs = .ok r) : r.value = p.value := by
  induction vs generalizing best findings with
  | nil =>
      obtain ⟨b, hb, hwithstands⟩ := hmet.resolve_left (by simp [results])
      cases hb
      cases h
      exact hwithstands.value
  | cons x vs ih =>
      cases x with
      | error s =>
          rw [pick_error_cons] at h
          exact ih hR hbest hmet h
      | ok q =>
          rw [show results (.ok q :: vs) = q :: results vs from rfl] at hR hmet
          have hq := hR q (by simp)
          rw [pick_ok_cons] at h
          split at h
          · rename_i hconclusive
            cases h
            exact (hp.others _ hq).resolve_right fun hgives => hgives.1 hconclusive
          · rename_i hinconclusive
            have hinconclusive : ¬ q.Conclusive := hinconclusive
            refine ih (fun q' h => hR q' ((better_sublist best q (results vs)).subset h)) (fun b hb => ?_) ?_ h
            · cases hb
              rcases better_cases best q with heq | heq
              · rwa [heq]
              · exact hbest _ heq
            · rcases hmet with hcoming | ⟨b, hb, hwithstands⟩
              · rcases List.mem_cons.1 hcoming with rfl | hcoming
                · exact .inr ⟨_, rfl, hp.met (fun b hb => hR b (by simp_all)) hinconclusive⟩
                · exact .inl hcoming
              · cases hb
                exact .inr ⟨_, rfl, hwithstands.next hp (hR b (by simp)) hq⟩

end

theorem verdicts_eq (ss : List Schema) (v : Value) : verdicts rs source descend ss v =
    ss.map fun s => under (.option s) (step rs source descend s v) := by
  induction ss with
  | nil => rfl
  | cons s ss ih => rw [verdicts, List.map_cons, ih]

theorem mem_verdicts {ss : List Schema} {v : Value} :
    .ok p ∈ verdicts rs source descend ss v ↔ ∃ s ∈ ss, step rs source descend s v = .ok p := by
  rw [verdicts_eq, List.mem_map]
  exact exists_congr fun s => and_congr_right fun _ => under_eq_ok

theorem pickFirst_eq_ok {left : Score} {findings : List Finding} {vs : List Verdict} :
    pickFirst left findings vs = .ok p ↔ ∃ before q rest, vs = before ++ .ok q :: rest ∧
      (∀ x ∈ before, ∀ q, x ≠ .ok q) ∧ q.after (total left (before.map scoreOf)) = p := by
  induction vs generalizing left findings with
  | nil => simp [pickFirst]
  | cons x vs ih =>
      cases x with
      | error r =>
          rw [show pickFirst left findings (.error r :: vs) =
            pickFirst (left.andThen r.toScore) (findings ++ r.findings) vs from rfl, ih]
          constructor
          · rintro ⟨before, q, rest, rfl, hbefore, hp⟩
            exact ⟨.error r :: before, q, rest, rfl, List.forall_mem_cons.2 ⟨by simp, hbefore⟩, hp⟩
          · rintro ⟨before, q, rest, heq, hbefore, hp⟩
            cases before with
            | nil => simp at heq
            | cons x before =>
                cases heq
                exact ⟨before, q, rest, rfl, (List.forall_mem_cons.1 hbefore).2, hp⟩
      | ok q =>
          constructor
          · intro h
            cases h
            exact ⟨[], q, vs, rfl, by simp, rfl⟩
          · rintro ⟨before, q', rest, heq, hbefore, hp⟩
            cases before with
            | nil =>
                cases heq
                exact congrArg Except.ok hp
            | cons x before =>
                cases heq
                exact absurd rfl (hbefore _ List.mem_cons_self q)

theorem exists_of_pickFirst {left : Score} {findings : List Finding} {vs : List Verdict} {q : Passed}
    (hq : .ok q ∈ vs) : ∃ p, pickFirst left findings vs = .ok p := by
  induction vs generalizing left findings with
  | nil => cases hq
  | cons x vs ih =>
      cases x with
      | error r => exact ih (by simpa using hq)
      | ok q' => exact ⟨q'.after left, rfl⟩

theorem choose_eq (cs : List (String × Schema)) (tag v : Value) :
    choose rs source descend cs tag v = (cs.find? fun c => tag.str? = some c.1).map fun c =>
      under (.step (.key c.1)) (step rs source descend c.2 v) := by
  induction cs with
  | nil => rfl
  | cons c cs ih =>
      by_cases h : tag.str? = some c.1 <;> simp [choose, h, ih]

theorem exists_of_choose {cs : List (String × Schema)} {tag v : Value}
    (h : choose rs source descend cs tag v = some (.ok p)) :
    ∃ c ∈ cs, step rs source descend c.2 v = .ok p := by
  rw [choose_eq, Option.map_eq_some_iff] at h
  obtain ⟨c, hc, hunder⟩ := h
  exact ⟨c, List.mem_of_find?_eq_some hc, under_eq_ok.1 hunder⟩

section

variable {n : Nat} {os : List Schema} {o : Schema} {v : Value} {q : Passed}

theorem step_firstOf_eq_ok : step rs source descend (.firstOf os) v = .ok p ↔
    ∃ before o rest q, os = before ++ o :: rest ∧ step rs source descend o v = .ok q ∧
      (∀ o' ∈ before, ∀ q, step rs source descend o' v ≠ .ok q) ∧
      q.after (total (.of .exact) (before.map fun o => scoreOf (step rs source descend o v))) = p := by
  rw [step, verdicts_eq, pickFirst_eq_ok]
  constructor
  · rintro ⟨before, q, rest, heq, hbefore, hp⟩
    obtain ⟨before, rest, rfl, rfl, hrest⟩ := List.map_eq_append_iff.1 heq
    obtain ⟨o, rest, rfl, ho, -⟩ := List.map_eq_cons_iff.1 hrest
    refine ⟨before, o, rest, q, rfl, under_eq_ok.1 ho, fun o' ho' q' hq' => ?_, ?_⟩
    · exact hbefore _ (List.mem_map_of_mem ho') q' (under_eq_ok.2 hq')
    · rw [← hp, List.map_map]
      simp only [Function.comp_def, scoreOf_under]
  · rintro ⟨before, o, rest, q, rfl, ho, hbefore, hp⟩
    refine ⟨_, q, _, by rw [List.map_append, List.map_cons, ho]; rfl, fun x hx q' hq' => ?_, ?_⟩
    · obtain ⟨o', ho', rfl⟩ := List.mem_map.1 hx
      exact hbefore o' ho' q' (under_eq_ok.1 hq')
    · rw [← hp, List.map_map]
      simp only [Function.comp_def, scoreOf_under]

theorem exists_of_firstOf (ho : o ∈ os) (h : checkDepth rs source n o v = .ok q) :
    ∃ p, checkDepth rs source n (.firstOf os) v = .ok p := by
  cases n with
  | zero => cases h
  | succ n =>
      rw [checkDepth, step]
      exact exists_of_pickFirst (mem_verdicts.2 ⟨o, ho, h⟩)

theorem step_union_eq_ok : step rs source descend (.union os) v = .ok p ↔
    ∃ q, pick none [] (verdicts rs source descend os v) = .ok q ∧ q.picked = p := by
  rw [step]
  cases pick none [] (verdicts rs source descend os v) <;> simp [Except.map]

theorem exists_of_union (ho : o ∈ os) (h : checkDepth rs source n o v = .ok q) :
    ∃ p, checkDepth rs source n (.union os) v = .ok p := by
  cases n with
  | zero => cases h
  | succ n =>
      obtain ⟨p, hp⟩ : ∃ p, pick none [] (verdicts rs source (checkDepth rs source n) os v) = .ok p :=
        exists_of_pick (.inr ⟨q, mem_verdicts.2 ⟨o, ho, h⟩⟩)
      exact ⟨p.picked, step_union_eq_ok.2 ⟨p, hp, rfl⟩⟩

theorem mem_of_union (h : step rs source descend (.union os) v = .ok p) :
    ∃ o ∈ os, ∃ q, step rs source descend o v = .ok q ∧ q.picked = p := by
  obtain ⟨q, hq, hp⟩ := step_union_eq_ok.1 h
  rcases mem_of_pick hq with hnone | hmem
  · cases hnone
  · obtain ⟨o, ho, hstep⟩ := mem_verdicts.1 hmem
    exact ⟨o, ho, q, hstep, hp⟩

theorem rank_le_of_union {set : Option Nat} (hp : step rs source descend (.union os) v = .ok p)
    (hset : ∀ o ∈ os, ∀ q, step rs source descend o v = .ok q → q.fieldsSet = set) (ho : o ∈ os)
    (h : step rs source descend o v = .ok q) : q.grade.rank ≤ p.grade.rank := by
  obtain ⟨r, hr, rfl⟩ := step_union_eq_ok.1 hp
  have hsame : ∀ q' : Passed, (none = some q' ∨ .ok q' ∈ verdicts rs source descend os v) → q'.fieldsSet = set := by
    rintro q' (hnone | hmem)
    · cases hnone
    · obtain ⟨o', ho', hstep⟩ := mem_verdicts.1 hmem
      exact hset o' ho' q' hstep
  exact rank_le_of_pick hsame hr q (.inr (mem_verdicts.2 ⟨o, ho, h⟩))

theorem wanted_of_union {K : Passed → Prop} (hp : step rs source descend (.union os) v = .ok p) (ho : o ∈ os)
    (h : step rs source descend o v = .ok q) (hK : K q)
    (hway : os.Pairwise fun a b => ∀ q r, step rs source descend a v = .ok q → step rs source descend b v = .ok r →
      Settled K q r) : ∃ r, K r ∧ r.picked = p := by
  obtain ⟨r, hr, rfl⟩ := step_union_eq_ok.1 hp
  have hresults : results (verdicts rs source descend os v) =
      os.filterMap fun s => (under (.option s) (step rs source descend s v)).toOption := by
    rw [results, verdicts_eq, List.filterMap_map]
    rfl
  have hstep {s : Schema} {q : Passed} (hq : (under (.option s) (step rs source descend s v)).toOption = some q) :
      step rs source descend s v = .ok q := under_eq_ok.1 (ok_of_toOption hq)
  have hbest : ∀ b ∈ (none : Option Passed), ¬ b.Conclusive := nofun
  refine ⟨r, wanted_of_pick hbest ⟨q, ?_, hK⟩ ?_ hr, rfl⟩
  · rw [hresults]
    exact List.mem_append_right _ (List.mem_filterMap.2 ⟨o, ho, by rw [h]; rfl⟩)
  · rw [hresults, Option.toList_none, List.nil_append, List.pairwise_filterMap]
    exact hway.imp fun h q hq r hr => h q r (hstep hq) (hstep hr)

theorem mem_results_verdicts : q ∈ results (verdicts rs source descend os v) ↔
    ∃ o ∈ os, step rs source descend o v = .ok q := by
  rw [← mem_verdicts, results, List.mem_filterMap]
  constructor
  · rintro ⟨x, hx, hq⟩
    exact ok_of_toOption hq ▸ hx
  · exact fun h => ⟨_, h, rfl⟩

theorem value_of_union {r : Passed} (hr : step rs source descend (.union os) v = .ok r) (ho : o ∈ os)
    (hp : step rs source descend o v = .ok p)
    (hprevails : p.Prevails fun q => ∃ o ∈ os, step rs source descend o v = .ok q) : r.value = p.value := by
  obtain ⟨q, hq, rfl⟩ := step_union_eq_ok.1 hr
  have hvalue : q.value = p.value :=
    value_of_pick hprevails (fun q hq => mem_results_verdicts.1 (by simpa using hq)) (by simp)
    (.inl (mem_results_verdicts.2 ⟨o, ho, hp⟩)) hq
  exact hvalue

theorem checkDepth_tagged_eq_ok {readers : List String} {cs : List (String × Schema)} {es : Entries}
    {c : String × Schema} (htag : tagOf? readers es = some (.str c.1))
    (hc : (cs.find? fun c' => (Value.str c.1).str? = some c'.1) = some c) :
    checkDepth rs source n (.tagged readers cs) (.dict es) = .ok p ↔
      checkDepth rs source n c.2 (.dict es) = .ok p := by
  cases n with
  | zero => simp [checkDepth, refuse, refuseAt]
  | succ n =>
      rw [checkDepth, step]
      simp only [htag, choose_eq, hc, Option.map_some]
      exact under_eq_ok

end

end BotApi.Schema
