import BotApi.Draft.Basic
import Mathlib.Data.List.Induction
/-!
Lists of drafts without repetitions, and the unions made of them.
-/

namespace BotApi.Draft

mutual
theorem eq_of_same : ∀ {d e : Draft}, same d e = true → d = e
  | basic a, basic b, h => congrArg basic (eq_of_beq (by simpa only [same] using h))
  | literal s, literal t, h => congrArg literal (eq_of_beq (by simpa only [same] using h))
  | named m, named n, h => congrArg named (eq_of_beq (by simpa only [same] using h))
  | record k, record l, h => congrArg record (eq_of_beq (by simpa only [same] using h))
  | array d, array e, h => congrArg array (eq_of_same (by simpa only [same] using h))
  | union ds, union es, h => congrArg union (eq_of_sameList (by simpa only [same] using h))
  | choice s f ds, choice t g es, h => by
      simp only [same, Bool.and_eq_true] at h
      rw [eq_of_beq h.1.1, eq_of_beq h.1.2, eq_of_sameList h.2]
theorem eq_of_sameList : ∀ {ds es : List Draft}, sameList ds es = true → ds = es
  | [], [], _ => rfl
  | d :: ds, e :: es, h => by
      simp only [sameList, Bool.and_eq_true] at h
      rw [eq_of_same h.1, eq_of_sameList h.2]
end

mutual
theorem same_self : ∀ d : Draft, same d d = true
  | basic _ | literal _ | named _ | record _ => by simp [same]
  | array d => by simpa only [same] using same_self d
  | union ds => by simpa only [same] using sameList_self ds
  | choice s f ds => by simp [same, sameList_self ds]
theorem sameList_self : ∀ ds : List Draft, sameList ds ds = true
  | [] => rfl
  | d :: ds => by simp [sameList, same_self d, sameList_self ds]
end

theorem any_same {ds : List Draft} {d : Draft} : ds.any (same d) = true ↔ d ∈ ds := by
  rw [List.any_eq_true]
  constructor
  · rintro ⟨e, he, h⟩
    rw [eq_of_same h]
    exact he
  · exact fun h => ⟨d, h, same_self d⟩

theorem distinct_concat (ds : List Draft) (d : Draft) : distinct (ds ++ [d]) =
    if (distinct ds).any (same d) then distinct ds else distinct ds ++ [d] := by
  simp [distinct]

theorem mem_distinct {ds : List Draft} {d : Draft} : d ∈ distinct ds ↔ d ∈ ds := by
  induction ds using List.reverseRecOn with
  | nil => simp [distinct]
  | append_singleton ds e ih =>
      rw [distinct_concat]
      split
      · rename_i h
        have he : e ∈ distinct ds := any_same.1 h
        constructor
        · intro hd
          exact List.mem_append_left _ (ih.1 hd)
        · intro hd
          rcases List.mem_append.1 hd with hd | hd
          · exact ih.2 hd
          · rw [List.mem_singleton.1 hd]
            exact he
      · simp [ih]

theorem distinct_sublist (ds : List Draft) : (distinct ds).Sublist ds := by
  induction ds using List.reverseRecOn with
  | nil => exact .slnil
  | append_singleton ds d ih =>
      rw [distinct_concat]
      split
      · exact ih.trans (List.sublist_append_left ds [d])
      · exact ih.append (.refl [d])

theorem distinct_concat_of_mem {ds : List Draft} {d : Draft} (h : d ∈ ds) :
    distinct (ds ++ [d]) = distinct ds := by
  rw [distinct_concat, if_pos (any_same.2 (mem_distinct.2 h))]

theorem distinct_concat_of_not_mem {ds : List Draft} {d : Draft} (h : d ∉ ds) :
    distinct (ds ++ [d]) = distinct ds ++ [d] := by
  rw [distinct_concat, if_neg (fun hd => h (mem_distinct.1 (any_same.1 hd)))]

theorem distinct_append (ds es : List Draft) : distinct (ds ++ es) =
    distinct ds ++ (distinct es).filter fun e => !ds.any (same e) := by
  induction es using List.reverseRecOn with
  | nil => simp [distinct]
  | append_singleton es e ih =>
      rw [← List.append_assoc]
      by_cases hes : e ∈ es
      · rw [distinct_concat_of_mem (List.mem_append_right ds hes), distinct_concat_of_mem hes, ih]
      · rw [distinct_concat_of_not_mem hes, List.filter_append, ← List.append_assoc, ← ih]
        by_cases hds : e ∈ ds
        · rw [distinct_concat_of_mem (List.mem_append_left es hds)]
          simp [any_same.2 hds]
        · have hnone : ds.any (same e) = false := by
            simpa using fun h => hds (any_same.1 h)
          rw [distinct_concat_of_not_mem (by simp [hds, hes])]
          simp [hnone]

theorem distinct_append_of_subset {ds es : List Draft} (h : ∀ e ∈ es, e ∈ ds) :
    distinct (ds ++ es) = distinct ds := by
  have hnone : ((distinct es).filter fun e => !ds.any (same e)) = [] := by
    refine List.filter_eq_nil_iff.2 fun e he => ?_
    simp [any_same.2 (h e (mem_distinct.1 he))]
  rw [distinct_append, hnone, List.append_nil]

theorem distinct_distinct (ds : List Draft) : distinct (distinct ds) = distinct ds := by
  induction ds using List.reverseRecOn with
  | nil => rfl
  | append_singleton ds d ih =>
      by_cases h : d ∈ ds
      · rw [distinct_concat_of_mem h, ih]
      · rw [distinct_concat_of_not_mem h,
          distinct_concat_of_not_mem (fun hd => h (mem_distinct.1 hd)), ih]

theorem distinct_append_congr {ds ds' es es' : List Draft} (hds : distinct ds = distinct ds')
    (hes : distinct es = distinct es') : distinct (ds ++ es) = distinct (ds' ++ es') := by
  have hmem (e : Draft) : ds.any (same e) = ds'.any (same e) := by
    rw [Bool.eq_iff_iff, any_same, any_same, ← mem_distinct, hds, mem_distinct]
  simp only [distinct_append, hds, hes, hmem]

theorem distinct_flatMap_congr {ds : List Draft} {f g : Draft → List Draft}
    (h : ∀ d ∈ ds, distinct (f d) = distinct (g d)) :
    distinct (ds.flatMap f) = distinct (ds.flatMap g) := by
  induction ds with
  | nil => rfl
  | cons d ds ih =>
      simp only [List.flatMap_cons]
      exact distinct_append_congr (h d (by simp)) (ih fun e he => h e (by simp [he]))

theorem distinct_flatMap_distinct (ds : List Draft) (f : Draft → List Draft) :
    distinct ((distinct ds).flatMap f) = distinct (ds.flatMap f) := by
  induction ds using List.reverseRecOn with
  | nil => rfl
  | append_singleton ds d ih =>
      by_cases h : d ∈ ds
      · rw [distinct_concat_of_mem h, ih, List.flatMap_append,
          distinct_append_of_subset fun e he => ?_]
        obtain ⟨d', hd', he⟩ := List.mem_flatMap.1 he
        rw [List.mem_singleton.1 hd'] at he
        exact List.mem_flatMap.2 ⟨d, h, he⟩
      · rw [distinct_concat_of_not_mem h]
        simp only [List.flatMap_append]
        exact distinct_append_congr ih rfl

theorem distinct_map_distinct (ds : List Draft) (f : Draft → Draft) :
    distinct ((distinct ds).map f) = distinct (ds.map f) := by
  have h := distinct_flatMap_distinct ds fun d => [f d]
  simpa only [← List.map_eq_flatMap] using h

theorem distinct_singleton (d : Draft) : distinct [d] = [d] := rfl

def isUnion : Draft → Bool
  | union _ => true
  | _ => false

theorem options_of_not_isUnion {d : Draft} (h : d.isUnion = false) : d.options = [d] := by
  cases d <;> simp_all [isUnion, options]

structure Normal (d : Draft) : Prop where
  flat : ∀ e ∈ d.options, e.isUnion = false
  distinct : distinct d.options = d.options
  same : unionOf [d] = d

theorem Normal.of_not_isUnion {d : Draft} (h : d.isUnion = false) : Normal d := by
  have ho := options_of_not_isUnion h
  refine ⟨?_, ?_, ?_⟩
  · rw [ho]
    simpa using h
  · rw [ho, distinct_singleton]
  · simp [unionOf, ho, distinct_singleton]

theorem unionOf_congr {ds es : List Draft}
    (h : Draft.distinct (ds.flatMap options) = Draft.distinct (es.flatMap options)) :
    unionOf ds = unionOf es := by
  unfold unionOf
  rw [h]

theorem options_unionOf {ds : List Draft} (h : ∀ d ∈ ds, ∀ e ∈ d.options, e.isUnion = false) :
    (unionOf ds).options = Draft.distinct (ds.flatMap options) := by
  unfold unionOf
  split
  · rename_i d hd
    have hmem : d ∈ ds.flatMap options := mem_distinct.1 (by simp [hd])
    obtain ⟨e, he, hde⟩ := List.mem_flatMap.1 hmem
    rw [hd, options_of_not_isUnion (h e he d hde)]
  · rfl

theorem normal_unionOf {ds : List Draft} (h : ∀ d ∈ ds, Normal d) : Normal (unionOf ds) := by
  have ho := options_unionOf fun d hd => (h d hd).flat
  refine ⟨?_, ?_, ?_⟩
  · intro e he
    rw [ho, mem_distinct] at he
    obtain ⟨d, hd, hed⟩ := List.mem_flatMap.1 he
    exact (h d hd).flat e hed
  · rw [ho, distinct_distinct]
  · refine unionOf_congr ?_
    rw [List.flatMap_cons, List.flatMap_nil, List.append_nil, ho, distinct_distinct]

end BotApi.Draft
