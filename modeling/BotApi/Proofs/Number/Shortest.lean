import BotApi.Number.Shortest
import BotApi.Proofs.Number.Rounding
/-!
The shortest digits of a float: they are found, and they round back to the float.
-/

namespace BotApi.Number

/-! Ratios as numbers -/

namespace Ratio

def value (r : Ratio) : ℚ := r.num / r.den

theorem le_iff {a b : Ratio} (ha : 0 < a.den) (hb : 0 < b.den) : a.le b = true ↔ a.value ≤ b.value := by
  have haq : (0 : ℚ) < a.den := by exact_mod_cast ha
  have hbq : (0 : ℚ) < b.den := by exact_mod_cast hb
  rw [le, decide_eq_true_iff, value, value, div_le_div_iff₀ haq hbq]
  exact_mod_cast Iff.rfl

theorem lt_iff {a b : Ratio} (ha : 0 < a.den) (hb : 0 < b.den) : a.lt b = true ↔ a.value < b.value := by
  have haq : (0 : ℚ) < a.den := by exact_mod_cast ha
  have hbq : (0 : ℚ) < b.den := by exact_mod_cast hb
  rw [lt, decide_eq_true_iff, value, value, div_lt_div_iff₀ haq hbq]
  exact_mod_cast Iff.rfl

theorem scale_den {r : Ratio} (hr : 0 < r.den) (k : ℤ) : 0 < (r.scale k).den := by
  cases k with
  | ofNat k => exact hr
  | negSucc k => exact Nat.mul_pos hr (Nat.pow_pos (by decide))

theorem value_scale (r : Ratio) (k : ℤ) : (r.scale k).value = r.value * 10 ^ k := by
  cases k with
  | ofNat k =>
      rw [Int.ofNat_eq_natCast, zpow_natCast]
      simp only [scale, value, Nat.pow_eq, Nat.cast_mul, Nat.cast_pow, Nat.cast_ofNat]
      ring
  | negSucc k =>
      rw [zpow_negSucc]
      simp only [scale, value, Nat.pow_eq, Nat.cast_mul, Nat.cast_pow, Nat.cast_ofNat]
      rw [← div_div, div_eq_mul_inv]

theorem value_bounds {r : Ratio} (hr : 0 < r.den) :
    ((r.num / r.den : Nat) : ℚ) ≤ r.value ∧ r.value < (r.num / r.den : Nat) + 1 := by
  have hrq : (0 : ℚ) < r.den := by exact_mod_cast hr
  refine ⟨Nat.cast_div_le, ?_⟩
  rw [value, div_lt_iff₀ hrq, mul_comm]
  exact_mod_cast Nat.lt_mul_div_succ r.num hr

theorem value_one (n : Nat) : value ⟨n, 1⟩ = n := by simp [value]

end Ratio

/-! The numbers that round to a float -/

def reach (m : Nat) (e : ℤ) : ℚ := if m = 2 ^ 52 ∧ -1074 < e then 1 / 4 else 1 / 2

structure Interval.Spans (i : Interval) (m : Nat) (e : ℤ) : Prop where
  lower_den : 0 < i.lower.den
  value_den : 0 < i.value.den
  upper_den : 0 < i.upper.den
  lower : i.lower.value = ((m : ℚ) - reach m e) * 2 ^ e
  value : i.value.value = m * 2 ^ e
  upper : i.upper.value = ((m : ℚ) + 1 / 2) * 2 ^ e
  closed : i.closed = (m % 2 == 0)

theorem lowStep_cast {m : Nat} (e : ℤ) (hm : 0 < m) :
    ((4 * m - (if m = Nat.pow 2 52 ∧ -1074 < e then 1 else 2) : Nat) : ℚ) = 4 * (m - reach m e) := by
  unfold reach
  split
  next h =>
    rw [if_pos (show m = 2 ^ 52 ∧ -1074 < e from h), Nat.cast_sub (by omega)]
    push_cast
    ring
  next h =>
    rw [if_neg (show ¬ (m = 2 ^ 52 ∧ -1074 < e) from h), Nat.cast_sub (by omega)]
    push_cast
    ring

theorem spans_ofBinary {m : Nat} (e : ℤ) (hm : 0 < m) : (Interval.ofBinary m e).Spans m e := by
  have hstep := lowStep_cast e hm
  cases e with
  | ofNat k =>
      refine ⟨by simp [Interval.ofBinary], by simp [Interval.ofBinary], by simp [Interval.ofBinary], ?_, ?_, ?_, rfl⟩
      · simp only [Interval.ofBinary, Ratio.value, Nat.cast_mul, Nat.pow_eq, Nat.cast_pow, Nat.cast_ofNat]
        rw [Nat.pow_eq] at hstep
        rw [hstep, Int.ofNat_eq_natCast, zpow_natCast]
        ring
      · simp only [Interval.ofBinary, Ratio.value, Nat.cast_mul, Nat.pow_eq, Nat.cast_pow, Nat.cast_ofNat]
        rw [Int.ofNat_eq_natCast, zpow_natCast]
        ring
      · simp only [Interval.ofBinary, Ratio.value, Nat.cast_mul, Nat.pow_eq, Nat.cast_pow, Nat.cast_ofNat, Nat.cast_add]
        rw [Int.ofNat_eq_natCast, zpow_natCast]
        ring
  | negSucc k =>
      have hden : 0 < 4 * Nat.pow 2 (k + 1) := Nat.mul_pos (by decide) (Nat.pow_pos (by decide))
      refine ⟨hden, hden, hden, ?_, ?_, ?_, rfl⟩
      · simp only [Interval.ofBinary, Ratio.value, Nat.cast_mul, Nat.pow_eq, Nat.cast_pow, Nat.cast_ofNat]
        rw [Nat.pow_eq] at hstep
        rw [hstep, zpow_negSucc]
        field_simp
      · simp only [Interval.ofBinary, Ratio.value, Nat.cast_mul, Nat.pow_eq, Nat.cast_pow, Nat.cast_ofNat]
        rw [zpow_negSucc]
        field_simp
      · simp only [Interval.ofBinary, Ratio.value, Nat.cast_mul, Nat.pow_eq, Nat.cast_pow, Nat.cast_ofNat, Nat.cast_add]
        rw [zpow_negSucc]
        field_simp
        ring

theorem roundsTo_of_holds {i : Interval} {m : Nat} {e : ℤ} (hi : i.Spans m e) {r : Ratio} (hr : 0 < r.den)
    (h : i.holds r = true) : RoundsTo m e r.value := by
  unfold Interval.holds at h
  rw [hi.closed] at h
  split at h
  next heven =>
    rw [Bool.and_eq_true, Ratio.le_iff hi.lower_den hr, Ratio.le_iff hr hi.upper_den, hi.lower, hi.upper] at h
    exact ⟨h.1, h.2, fun hodd => by simp at heven; omega⟩
  next heven =>
    rw [Bool.and_eq_true, Ratio.lt_iff hi.lower_den hr, Ratio.lt_iff hr hi.upper_den, hi.lower, hi.upper] at h
    refine ⟨h.1.le, h.2.le, fun hodd => ⟨?_, h.2⟩⟩
    have hstep : reach m e = 1 / 2 := if_neg fun hm => by
      rw [hm.1] at hodd
      cases hodd
    rw [← hstep]
    exact h.1

theorem holds_of_bounds {i : Interval} {m : Nat} {e : ℤ} (hi : i.Spans m e) {r : Ratio} (hr : 0 < r.den)
    (hlow : (m : ℚ) * 2 ^ e ≤ r.value) (hhigh : r.value < ((m : ℚ) + 1 / 2) * 2 ^ e) : i.holds r = true := by
  have hpos : (0 : ℚ) < 2 ^ e := by positivity
  have hreach : 0 < reach m e := by
    unfold reach
    split <;> norm_num
  have hlower : i.lower.value < r.value := by
    rw [hi.lower]
    nlinarith
  have hupper : r.value < i.upper.value := by rwa [hi.upper]
  unfold Interval.holds
  split
  · rw [Bool.and_eq_true, Ratio.le_iff hi.lower_den hr, Ratio.le_iff hr hi.upper_den]
    exact ⟨hlower.le, hupper.le⟩
  · rw [Bool.and_eq_true, Ratio.lt_iff hi.lower_den hr, Ratio.lt_iff hr hi.upper_den]
    exact ⟨hlower, hupper⟩

/-! The search for digits -/

theorem holds_of_onGrid? {i : Interval} {unit : ℤ} {d : Nat} (h : onGrid? i unit = some d) :
    i.holds (Ratio.scale ⟨d, 1⟩ unit) = true ∧ 0 < d := by
  unfold onGrid? at h
  dsimp only at h
  split at h
  next hdown hup =>
    rw [Bool.and_eq_true, bne_iff_ne] at hdown
    cases h
    split
    · exact ⟨hdown.1, Nat.pos_of_ne_zero hdown.2⟩
    · exact ⟨hup, Nat.succ_pos _⟩
  next hdown _ =>
    rw [Bool.and_eq_true, bne_iff_ne] at hdown
    cases h
    exact ⟨hdown.1, Nat.pos_of_ne_zero hdown.2⟩
  next hup =>
    cases h
    exact ⟨hup, Nat.succ_pos _⟩
  next => cases h

theorem onGrid?_isSome {i : Interval} {m : Nat} {e unit : ℤ} (hi : i.Spans m e) (hunit : (10 : ℚ) ^ unit < 2 ^ e / 2) :
    (onGrid? i unit).isSome = true := by
  have hpos : (0 : ℚ) < 10 ^ unit := by positivity
  have hvalue : (i.value.scale (-unit)).value * 10 ^ unit = m * 2 ^ e := by
    rw [Ratio.value_scale, hi.value, zpow_neg, inv_mul_cancel_right₀ hpos.ne']
  -- The next point of the grid lies above the value by at most one unit.
  have hup : i.holds (Ratio.scale ⟨(i.value.scale (-unit)).num / (i.value.scale (-unit)).den + 1, 1⟩ unit) = true := by
    obtain ⟨hlow, hhigh⟩ := Ratio.value_bounds (Ratio.scale_den hi.value_den (-unit))
    refine holds_of_bounds hi (Ratio.scale_den Nat.one_pos _) ?_ ?_
    · rw [Ratio.value_scale, Ratio.value_one, ← hvalue]
      refine mul_le_mul_of_nonneg_right ?_ hpos.le
      exact_mod_cast hhigh.le
    · rw [Ratio.value_scale, Ratio.value_one]
      push_cast
      nlinarith
  unfold onGrid?
  dsimp only
  rw [hup]
  generalize (i.holds _ && _) = down
  cases down <;> rfl

theorem search_spec {i : Interval} {k : ℤ} {n : Nat} (fuel last : Nat) (hlast : n ≤ last) (hfuel : last < n + fuel)
    (hsome : (onGrid? i (k - last)).isSome = true) :
    i.holds (Ratio.scale ⟨(search i k fuel n).1, 1⟩ (search i k fuel n).2) = true ∧ 0 < (search i k fuel n).1 := by
  induction fuel generalizing n with
  | zero => omega
  | succ fuel ih =>
      rw [search]
      cases hfound : onGrid? i (k - n) with
      | some d => exact holds_of_onGrid? hfound
      | none =>
          have hne : n ≠ last := by
            rintro rfl
            rw [hfound] at hsome
            cases hsome
          exact ih (by omega) (by omega)

theorem magnitude_le {r : Ratio} (hr : 0 < r.den) (fuel : Nat) {k : ℤ} (h : (10 : ℚ) ^ (k - 3) ≤ r.value) :
    (10 : ℚ) ^ (magnitude r fuel k - 3) ≤ r.value := by
  induction fuel generalizing k with
  | zero => exact h
  | succ fuel ih =>
      rw [magnitude]
      split
      next hless =>
        rw [Ratio.le_iff (by decide) (Ratio.scale_den hr _), Ratio.value_scale, zpow_neg, ← div_eq_mul_inv,
          le_div_iff₀ (by positivity)] at hless
        refine ih ?_
        calc (10 : ℚ) ^ (k + 1 - 3) ≤ 10 ^ k := zpow_le_zpow_right₀ (by norm_num) (by omega)
          _ ≤ r.value := by simpa [Ratio.value] using hless
      next =>
        split
        · exact ih (le_trans (zpow_le_zpow_right₀ (by norm_num) (by omega)) h)
        · exact h

theorem pow_le_estimate : ∀ b < 93, 2 ^ b ≤ 10 ^ (b * 30103 / 100000 + 1) := by decide

-- The estimate of the magnitude is at most three too large.
theorem estimate_le {t : ℤ} (hlow : -1074 ≤ t) (hhigh : t ≤ 1023) :
    (10 : ℚ) ^ (t * 30103 / 100000 - 3) ≤ 2 ^ t := by
  rcases le_or_gt 0 t with hnonneg | hneg
  · obtain ⟨n, rfl⟩ := Int.eq_ofNat_of_zero_le hnonneg
    calc (10 : ℚ) ^ ((n : ℤ) * 30103 / 100000 - 3) ≤ 10 ^ ((3 * (n / 10) : Nat) : ℤ) :=
          zpow_le_zpow_right₀ (by norm_num) (by omega)
      _ = 1000 ^ (n / 10) := by
          rw [zpow_natCast, pow_mul]
          norm_num
      _ ≤ 1024 ^ (n / 10) := pow_le_pow_left₀ (by norm_num) (by norm_num) _
      _ = 2 ^ (10 * (n / 10)) := by
          rw [pow_mul]
          norm_num
      _ ≤ 2 ^ n := pow_le_pow_right₀ (by norm_num) (by omega)
      _ = 2 ^ (n : ℤ) := (zpow_natCast _ _).symm
  · obtain ⟨n, rfl⟩ : ∃ n : Nat, t = -n := ⟨t.natAbs, by omega⟩
    have hrest : (2 : ℚ) ^ (n % 93) ≤ 10 ^ (n % 93 * 30103 / 100000 + 1) := by
      exact_mod_cast pow_le_estimate (n % 93) (Nat.mod_lt _ (by decide))
    have hpow : (2 : ℚ) ^ n ≤ 10 ^ (3 - (-(n : ℤ) * 30103 / 100000)) :=
      calc (2 : ℚ) ^ n = (2 ^ 93) ^ (n / 93) * 2 ^ (n % 93) := by
            rw [← pow_mul, ← pow_add, Nat.div_add_mod]
        _ ≤ (10 ^ 28) ^ (n / 93) * 10 ^ (n % 93 * 30103 / 100000 + 1) := by
            refine mul_le_mul (pow_le_pow_left₀ (by norm_num) (by norm_num) _) hrest (by positivity) (by positivity)
        _ = 10 ^ ((28 * (n / 93) + (n % 93 * 30103 / 100000 + 1) : Nat) : ℤ) := by
            rw [← pow_mul, ← pow_add, zpow_natCast]
        _ ≤ 10 ^ (3 - (-(n : ℤ) * 30103 / 100000)) := zpow_le_zpow_right₀ (by norm_num) (by omega)
    calc (10 : ℚ) ^ (-(n : ℤ) * 30103 / 100000 - 3) = (10 ^ (3 - (-(n : ℤ) * 30103 / 100000)))⁻¹ := by
          rw [← zpow_neg, neg_sub]
      _ ≤ (2 ^ n)⁻¹ := inv_anti₀ (by positivity) hpow
      _ = 2 ^ (-(n : ℤ)) := by rw [zpow_neg, zpow_natCast]

theorem shortest_spec {m : Nat} {e : ℤ} (hc : Canonical m e) (hm : 0 < m) : ∃ (d : Nat) (unit : ℤ), 0 < d ∧
    shortest m e = ⟨dropZeros (Text.natDigits d), unit + (Text.natDigits d).length⟩ ∧
    RoundsTo m e (d * 10 ^ unit) := by
  have hspans := spans_ofBinary e hm
  obtain ⟨hlog, -⟩ := log2_bounds hm
  have hlog' : m.log2 < 53 := (Nat.log2_lt hm.ne').2 hc.mantissa
  have hvalue : (2 : ℚ) ^ ((m.log2 : ℤ) + e) ≤ (Interval.ofBinary m e).value.value := by
    rw [hspans.value, zpow_add₀ (by norm_num)]
    exact mul_le_mul_of_nonneg_right hlog (by positivity)
  have hlowest := hc.lowest
  have hhighest := hc.highest
  have hestimate := (estimate_le (t := (m.log2 : ℤ) + e) (by omega) (by omega)).trans hvalue
  have hmagnitude := magnitude_le hspans.value_den 8 hestimate
  generalize hk : magnitude (Interval.ofBinary m e).value 8 (((m.log2 : ℤ) + e) * 30103 / 100000) = k at hmagnitude
  -- Twenty digits are always enough.
  have hfine : (10 : ℚ) ^ (k - (20 : Nat)) < 2 ^ e / 2 := by
    have hmq : (m : ℚ) < 2 ^ 53 := by exact_mod_cast hc.mantissa
    have hpos : (0 : ℚ) < 2 ^ e := by positivity
    rw [hspans.value] at hmagnitude
    have hsplit : (10 : ℚ) ^ (k - (20 : Nat)) = 10 ^ (k - 3) / 10 ^ 17 := by
      rw [div_eq_mul_inv, ← zpow_natCast, ← zpow_neg, ← zpow_add₀ (by norm_num)]
      congr 1
      push_cast
      ring
    rw [hsplit, div_lt_iff₀ (by norm_num)]
    nlinarith
  obtain ⟨hholds, hpos⟩ := search_spec (n := 1) 20 20 (by decide) (by decide) (onGrid?_isSome hspans hfine)
  refine ⟨_, (search (Interval.ofBinary m e) k 20 1).2, hpos, ?_, ?_⟩
  · rw [shortest]
    dsimp only
    rw [hk]
  · have hrounds := roundsTo_of_holds hspans (Ratio.scale_den Nat.one_pos _) hholds
    rwa [Ratio.value_scale, Ratio.value_one] at hrounds

end BotApi.Number
