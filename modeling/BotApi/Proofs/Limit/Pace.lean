import BotApi.Limit.Bucket
/-!
The pace of a bucket: no window as long as its interval holds more permits than its limit.
-/

namespace BotApi.Limit

def within (start length time : Nat) : Bool := start ≤ time && time ≤ start + length

-- Times with the last one first; each was admitted while fewer than `limit` others counted.
def Paced (limit interval : Nat) : List Nat → Prop
  | [] => True
  | t :: ts => (ts.filter fun s => t ≤ s + interval).length < limit ∧ Paced limit interval ts

theorem Paced.length_within_le {limit interval : Nat} {ts : List Nat} (h : Paced limit interval ts)
    (start : Nat) : (ts.filter (within start interval)).length ≤ limit := by
  induction ts with
  | nil => simp
  | cons t ts ih =>
      obtain ⟨ht, hts⟩ := h
      cases hw : within start interval t with
      | false =>
          rw [List.filter_cons_of_neg (by simp [hw])]
          exact ih hts
      | true =>
          rw [List.filter_cons_of_pos hw]
          have hsub : ∀ s ∈ ts, within start interval s = true → t ≤ s + interval := by
            intro s _ hs
            simp only [within, Bool.and_eq_true, decide_eq_true_eq] at hw hs
            omega
          have hle : (ts.filter (within start interval)).length ≤
              (ts.filter fun s => t ≤ s + interval).length := by
            simp only [← List.countP_eq_length_filter]
            exact List.countP_mono_left fun s hs h => decide_eq_true (hsub s hs h)
          simp only [List.length_cons]
          omega

theorem Paced.apart {limit interval first last : Nat} {ts mid : List Nat} (h : Paced limit interval ts)
    (hsorted : ts.Pairwise (· ≥ ·)) (hsub : (last :: mid ++ [first]).Sublist ts) (hlen : limit ≤ mid.length + 1) :
    first + interval < last := by
  refine Nat.lt_of_not_le fun hnot => ?_
  have hpairs := hsorted.sublist hsub
  rw [List.cons_append, List.pairwise_cons, List.pairwise_append] at hpairs
  obtain ⟨hlast, -, -, hfirst⟩ := hpairs
  have hwithin : ∀ t ∈ last :: mid ++ [first], within first interval t = true := by
    intro t ht
    have hend : first ≤ last := hlast first (by simp)
    have hle : first ≤ t ∧ t ≤ last := by
      rcases List.mem_cons.1 ht with rfl | ht
      · exact ⟨hend, Nat.le_refl t⟩
      · refine ⟨?_, hlast t ht⟩
        rcases List.mem_append.1 ht with hmid | hone
        · exact hfirst t hmid first (by simp)
        · exact Nat.le_of_eq (List.mem_singleton.1 hone).symm
    simp only [within, Bool.and_eq_true, decide_eq_true_eq]
    omega
  have hlength := (hsub.filter (within first interval)).length_le
  rw [List.filter_eq_self.2 hwithin] at hlength
  have hmost := h.length_within_le first
  simp only [List.cons_append, List.length_cons, List.length_append, List.length_nil] at hlength
  omega

theorem Paced.grant {b : Bucket} {t : Nat} (h : Paced b.limit b.interval b.granted)
    (ha : b.admits t = true) : Paced b.limit b.interval (b.grant t).granted :=
  ⟨of_decide_eq_true ha, h⟩

def Bucket.EndsFrom (b : Bucket) (t : Nat) : Waited → Prop
  | .granted t' _ => t ≤ t' ∧ b.admits t' = true
  | .woken t' => t ≤ t'

theorem Bucket.EndsFrom.mono {b : Bucket} {t u : Nat} {w : Waited} (h : b.EndsFrom u w)
    (htu : t ≤ u) : b.EndsFrom t w := by
  cases w with
  | granted t' alarm => exact ⟨Nat.le_trans htu h.1, h.2⟩
  | woken t' => exact Nat.le_trans htu h

theorem wait_endsFrom (b : Bucket) (wakes : Bool) (alarm : Option Nat) (t : Nat) :
    b.EndsFrom t (b.wait wakes alarm t) := by
  have hpoll : t ≤ t + pollInterval := Nat.le_add_right _ _
  induction alarm, t using Bucket.wait.induct b wakes with
  | case1 alarm t ha =>
      rw [Bucket.wait, dif_pos ha]
      exact ⟨Nat.le_refl t, ha⟩
  | case2 alarm t ha next hr hw =>
      rw [Bucket.wait, dif_neg ha, if_pos hr, if_pos hw]
      exact hpoll
  | case3 alarm t ha next hr hw ih =>
      rw [Bucket.wait, dif_neg ha, if_pos hr, if_neg hw]
      exact (ih (Nat.le_add_right _ _)).mono hpoll
  | case4 alarm t ha next hr ih =>
      rw [Bucket.wait, dif_neg ha, if_neg hr]
      exact (ih (Nat.le_add_right _ _)).mono hpoll

theorem exists_wait_eq_granted (b : Bucket) (wakes : Bool) (t : Nat) : ∃ k,
    b.wait wakes none t = .granted (t + k * pollInterval) none ∧ b.admits (t + k * pollInterval) = true ∧
      ∀ j < k, b.admits (t + j * pollInterval) = false := by
  generalize halarm : (none : Option Nat) = alarm
  induction alarm, t using Bucket.wait.induct b wakes with
  | case1 alarm t ha =>
      refine ⟨0, ?_, by simpa using ha, by simp⟩
      rw [Bucket.wait, dif_pos ha, Nat.zero_mul, Nat.add_zero]
  | case2 alarm t ha next hr =>
      subst halarm
      cases hr
  | case3 alarm t ha next hr =>
      subst halarm
      cases hr
  | case4 alarm t ha next hr ih =>
      obtain ⟨k, hwait, hroom, hnone⟩ := ih halarm
      have hnext (j : Nat) : next + j * pollInterval = t + (j + 1) * pollInterval := by
        rw [Nat.succ_mul, Nat.add_assoc, Nat.add_comm pollInterval]
      rw [hnext] at hwait hroom
      refine ⟨k + 1, ?_, hroom, fun j hj => ?_⟩
      · rw [Bucket.wait, dif_neg ha, if_neg hr, hwait]
      · cases j with
        | zero => simpa using ha
        | succ j =>
            rw [← hnext]
            exact hnone j (by omega)

theorem foldr_max_le {t : Nat} {ts : List Nat} (h : ∀ s ∈ ts, s ≤ t) : ts.foldr max 0 ≤ t := by
  induction ts with
  | nil => exact Nat.zero_le t
  | cons s ts ih =>
      rw [List.forall_mem_cons] at h
      exact Nat.max_le.2 ⟨h.1, ih h.2⟩

-- All permits that counted when waiting began are too old before the interval and one more look are over.
theorem look_le {b : Bucket} {t k : Nat} (htimes : ∀ s ∈ b.granted, s ≤ t)
    (hnone : ∀ j < k, b.admits (t + j * pollInterval) = false) :
    k * pollInterval ≤ b.interval + pollInterval := by
  cases k with
  | zero => simp
  | succ k =>
      have hlast : t + k * pollInterval ≤ b.horizon := Bucket.le_horizon (by simp [hnone k (by omega)])
      have hmax : b.granted.foldr max 0 ≤ t := foldr_max_le htimes
      rw [Bucket.horizon] at hlast
      rw [Nat.succ_mul]
      omega

end BotApi.Limit
