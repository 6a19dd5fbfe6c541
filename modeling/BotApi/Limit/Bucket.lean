/-!
A bucket grants a bounded number of permits within a sliding window of time. Times are whole
milliseconds. Who finds no room looks again after a fixed interval; waiting ends because the permits
in the window grow old.
-/

namespace BotApi.Limit

structure Bucket where
  limit : Nat
  interval : Nat
  /-- The times of all permits, the last one first. -/
  granted : List Nat
  limit_pos : 0 < limit

def pollInterval : Nat := 25

namespace Bucket

def new (limit interval : Nat) (h : 0 < limit) : Bucket := ⟨limit, interval, [], h⟩

def counting (b : Bucket) (t : Nat) : List Nat := b.granted.filter fun s => t ≤ s + b.interval

def admits (b : Bucket) (t : Nat) : Bool := (b.counting t).length < b.limit

def grant (b : Bucket) (t : Nat) : Bucket := { b with granted := t :: b.granted }

def tryTake (b : Bucket) (t : Nat) : Bool × Bucket :=
  if b.admits t then (true, b.grant t) else (false, b)

def horizon (b : Bucket) : Nat := b.granted.foldr max 0 + b.interval

theorem le_foldr_max {n : Nat} {ns : List Nat} (h : n ∈ ns) : n ≤ ns.foldr max 0 := by
  induction ns with
  | nil => simp at h
  | cons m ms ih =>
      simp only [List.foldr_cons]
      rcases List.mem_cons.1 h with rfl | h
      · exact Nat.le_max_left _ _
      · exact Nat.le_trans (ih h) (Nat.le_max_right _ _)

theorem le_horizon {b : Bucket} {t : Nat} (h : ¬ b.admits t = true) : t ≤ b.horizon := by
  have hl : b.limit ≤ (b.counting t).length := by simpa [admits] using h
  obtain ⟨s, hs⟩ := List.exists_mem_of_length_pos (Nat.lt_of_lt_of_le b.limit_pos hl)
  have hm := List.mem_filter.1 hs
  have hle : t ≤ s + b.interval := by simpa using hm.2
  have := le_foldr_max hm.1
  unfold horizon
  omega

end Bucket

inductive Waited where
  | granted (time : Nat) (alarm : Option Nat)
  | woken (time : Nat)
  deriving Repr, DecidableEq

/-- Waits for room from a time on. The alarm rings once, within the first sleep that ends at its time
or later, and wakes only those who can be woken. -/
def Bucket.wait (b : Bucket) (wakes : Bool) (alarm : Option Nat) (t : Nat) : Waited :=
  if _h : b.admits t = true then .granted t alarm
  else
    let next := t + pollInterval
    if alarm.any (· ≤ next) then
      if wakes then .woken next else b.wait wakes none next
    else b.wait wakes alarm next
termination_by b.horizon + 1 - t
decreasing_by
  all_goals
    have := Bucket.le_horizon _h
    simp only [pollInterval]
    omega

end BotApi.Limit
