import BotApi.Number.Binary
import Mathlib
/-!
Rounding to the nearest float: a ratio that lies nearer to a float than to its neighbours, or half way
between and the float is the even one, is rounded to that float. So where the product with a natural has a
float itself, nothing is rounded before it is cut to an integer.
-/

namespace BotApi.Number

/-! Parts and whole of a float -/

theorem bitsOf_lt (x : Float) : bitsOf x < 2 ^ 64 := x.toBits.toNat_lt

theorem biased_lt (x : Float) : biased x < 2048 := Nat.mod_lt _ (by decide)

theorem fraction_lt (x : Float) : fraction x < 2 ^ 52 := Nat.mod_lt _ (by decide)

theorem bits_eq (x : Float) :
    (if isNegative x then Nat.pow 2 63 else 0) + biased x * Nat.pow 2 52 + fraction x = bitsOf x := by
  have hbits := bitsOf_lt x
  have hsign : isNegative x = true ↔ bitsOf x / 2 ^ 63 = 1 := by simp [isNegative]
  simp only [biased, fraction, Nat.pow_eq]
  by_cases h : bitsOf x / 2 ^ 63 = 1
  · rw [if_pos (hsign.2 h)]
    omega
  · rw [if_neg (mt hsign.1 h)]
    omega

theorem assemble_eq (x : Float) : assemble (isNegative x) (biased x) (fraction x) = x := by
  rw [assemble, bits_eq, bitsOf]
  exact (congrArg Float.ofBits UInt64.ofNat_toNat).trans (Float.ofBits_toBits x)

structure Canonical (m : Nat) (e : Int) : Prop where
  mantissa : m < 2 ^ 53
  lowest : -1074 ≤ e
  highest : e ≤ 971
  full : 2 ^ 52 ≤ m ∨ e = -1074

theorem canonical_of_ofFloat? {x : Float} {b : Binary} (h : Binary.ofFloat? x = some b) :
    Canonical b.mantissa b.exponent := by
  have hfraction := fraction_lt x
  have hbiased := biased_lt x
  unfold Binary.ofFloat? at h
  split at h
  next hfinite =>
    have hfinite : biased x ≠ 2047 := by simpa [isFinite] using hfinite
    split at h
    next hzero =>
      obtain rfl := Option.some.inj h
      exact ⟨by dsimp only; omega, by simp, by simp, .inr rfl⟩
    next hzero =>
      obtain rfl := Option.some.inj h
      have hpow : Nat.pow 2 52 = 2 ^ 52 := rfl
      refine ⟨?_, ?_, ?_, .inl ?_⟩ <;> dsimp only <;> omega
  next => cases h

def compose (negative : Bool) (m : Nat) (e : Int) : Float :=
  if m < 2 ^ 52 then assemble negative 0 m else assemble negative (e + 1075).toNat (m - 2 ^ 52)

theorem compose_eq {x : Float} {b : Binary} (h : Binary.ofFloat? x = some b) :
    compose b.negative b.mantissa b.exponent = x := by
  have hfraction := fraction_lt x
  unfold Binary.ofFloat? at h
  split at h
  next =>
    split at h
    next hzero =>
      cases h
      rw [compose, if_pos hfraction, ← hzero, assemble_eq]
    next hzero =>
      cases h
      have hbiased : ((biased x : Int) - 1075 + 1075).toNat = biased x := by omega
      simp only [compose, Nat.pow_eq]
      rw [if_neg (by omega), hbiased, Nat.add_sub_cancel_left, assemble_eq]
  next => cases h

/-! Rounding -/

-- What lies nearer to `m` than to the naturals beside it, or half way and `m` is even.
structure NearTo (m : Nat) (q : ℚ) : Prop where
  above : (m : ℚ) - 1 / 2 ≤ q
  below : q ≤ (m : ℚ) + 1 / 2
  inside : m % 2 = 1 → (m : ℚ) - 1 / 2 < q ∧ q < (m : ℚ) + 1 / 2

theorem roundHalfEven_eq {a b m : Nat} (hb : 0 < b) (h : NearTo m ((a : ℚ) / b)) : roundHalfEven a b = m := by
  have hbq : (0 : ℚ) < b := by exact_mod_cast hb
  have hlow : 2 * (m * b) ≤ 2 * a + b := by
    have h₁ := (le_div_iff₀ hbq).1 h.above
    have h₂ : (2 * (m * b) : ℚ) ≤ 2 * a + b := by linarith
    exact_mod_cast h₂
  have hhigh : 2 * a ≤ 2 * (m * b) + b := by
    have h₁ := (div_le_iff₀ hbq).1 h.below
    have h₂ : (2 * a : ℚ) ≤ 2 * (m * b) + b := by linarith
    exact_mod_cast h₂
  have hodd : m % 2 = 1 → 2 * (m * b) < 2 * a + b ∧ 2 * a < 2 * (m * b) + b := by
    intro hm
    obtain ⟨h₁, h₂⟩ := h.inside hm
    have h₁ := (lt_div_iff₀ hbq).1 h₁
    have h₂ := (div_lt_iff₀ hbq).1 h₂
    have h₁ : (2 * (m * b) : ℚ) < 2 * a + b := by linarith
    have h₂ : (2 * a : ℚ) < 2 * (m * b) + b := by linarith
    exact ⟨by exact_mod_cast h₁, by exact_mod_cast h₂⟩
  have hdiv : a / b * b + a % b = a := Nat.div_add_mod' a b
  have hmod : a % b < b := Nat.mod_lt _ hb
  unfold roundHalfEven
  dsimp only
  generalize a / b = q at *
  generalize a % b = r at *
  -- Only the quotient and the natural after it are near enough.
  have hq : q ≤ m := by
    by_contra hlt
    have hmul : (m + 1) * b ≤ q * b := Nat.mul_le_mul_right b (by omega)
    rw [Nat.add_mul] at hmul
    omega
  have hq' : m ≤ q + 1 := by
    by_contra hlt
    have hmul : (q + 2) * b ≤ m * b := Nat.mul_le_mul_right b (by omega)
    rw [Nat.add_mul] at hmul
    omega
  obtain rfl | rfl : m = q ∨ m = q + 1 := by omega
  · split
    · rfl
    · split <;> omega
  · rw [Nat.add_mul] at hlow hhigh hodd
    split
    · omega
    · split <;> omega

theorem log2_bounds {n : Nat} (hn : 0 < n) : (2 : ℚ) ^ (n.log2 : ℤ) ≤ n ∧ (n : ℚ) < 2 ^ ((n.log2 : ℤ) + 1) := by
  have hlow : 2 ^ n.log2 ≤ n := Nat.log2_self_le (by omega)
  have hhigh : n < 2 ^ (n.log2 + 1) := Nat.lt_log2_self
  refine ⟨?_, ?_⟩
  · rw [zpow_natCast]
    exact_mod_cast hlow
  · rw [← Nat.cast_succ, zpow_natCast]
    exact_mod_cast hhigh

theorem pow_le_ratio {num den : Nat} (hden : 0 < den) (e n : Nat) :
    den * Nat.pow 2 e * Nat.pow 2 n ≤ num ↔ (2 : ℚ) ^ ((e : ℤ) + n) ≤ num / den := by
  have hdenq : (0 : ℚ) < den := by exact_mod_cast hden
  rw [le_div_iff₀ hdenq, zpow_add₀ (by norm_num), zpow_natCast, zpow_natCast, ← Nat.cast_le (α := ℚ)]
  push_cast [Nat.pow_eq]
  rw [show (2 : ℚ) ^ e * 2 ^ n * den = den * 2 ^ e * 2 ^ n by ring]

theorem pow_le_ratio_neg {num den : Nat} (hden : 0 < den) (e n : Nat) :
    den * Nat.pow 2 n ≤ num * Nat.pow 2 (e + 1) ↔ (2 : ℚ) ^ (Int.negSucc e + n) ≤ num / den := by
  have hdenq : (0 : ℚ) < den := by exact_mod_cast hden
  have hpos : (0 : ℚ) < 2 ^ (e + 1) := by positivity
  rw [le_div_iff₀ hdenq, zpow_add₀ (by norm_num), zpow_negSucc, zpow_natCast, ← Nat.cast_le (α := ℚ), inv_mul_eq_div,
    div_mul_eq_mul_div, div_le_iff₀ hpos]
  push_cast [Nat.pow_eq]
  rw [mul_comm (den : ℚ)]

theorem unitExponent_eq (num : Nat) {den : Nat} (hden : 0 < den) : ∃ fits : Bool,
    (fits = true ↔ (2 : ℚ) ^ ((num.log2 : ℤ) - den.log2 - 52 + 52) ≤ num / den) ∧
    unitExponent num den =
      max (if fits then (num.log2 : ℤ) - den.log2 - 52 else (num.log2 : ℤ) - den.log2 - 52 - 1) (-1074) := by
  refine ⟨_, ?_, rfl⟩
  generalize (num.log2 : ℤ) - den.log2 - 52 = g
  cases g with
  | ofNat e =>
      rw [decide_eq_true_iff]
      exact pow_le_ratio hden e 52
  | negSucc e =>
      rw [decide_eq_true_iff]
      exact pow_le_ratio_neg hden e 52

theorem ratio_bounds {num den : Nat} (hnum : 0 < num) (hden : 0 < den) :
    (2 : ℚ) ^ ((num.log2 : ℤ) - den.log2 - 1) ≤ num / den ∧
      (num / den : ℚ) < 2 ^ ((num.log2 : ℤ) - den.log2 + 1) := by
  obtain ⟨hnumLow, hnumHigh⟩ := log2_bounds hnum
  obtain ⟨hdenLow, hdenHigh⟩ := log2_bounds hden
  have hdenq : (0 : ℚ) < den := by exact_mod_cast hden
  refine ⟨?_, ?_⟩
  · rw [le_div_iff₀ hdenq]
    calc (2 : ℚ) ^ ((num.log2 : ℤ) - den.log2 - 1) * den
        ≤ 2 ^ ((num.log2 : ℤ) - den.log2 - 1) * 2 ^ ((den.log2 : ℤ) + 1) := by gcongr
      _ = 2 ^ (num.log2 : ℤ) := by
          rw [← zpow_add₀ (by norm_num)]
          congr 1
          ring
      _ ≤ num := hnumLow
  · rw [div_lt_iff₀ hdenq]
    calc (num : ℚ) < 2 ^ ((num.log2 : ℤ) + 1) := hnumHigh
      _ = 2 ^ ((num.log2 : ℤ) - den.log2 + 1) * 2 ^ (den.log2 : ℤ) := by
          rw [← zpow_add₀ (by norm_num)]
          congr 1
          ring
      _ ≤ 2 ^ ((num.log2 : ℤ) - den.log2 + 1) * den := by gcongr

theorem unitExponent_spec {num den : Nat} (hnum : 0 < num) (hden : 0 < den) :
    ∃ u : ℤ, (2 : ℚ) ^ (u + 52) ≤ num / den ∧ (num / den : ℚ) < 2 ^ (u + 53) ∧
      unitExponent num den = max u (-1074) := by
  obtain ⟨fits, hfits, heq⟩ := unitExponent_eq num hden
  obtain ⟨hlow, hhigh⟩ := ratio_bounds hnum hden
  refine ⟨_, ?_, ?_, heq⟩
  · cases fits with
    | true => exact hfits.1 rfl
    | false =>
        rw [if_neg (by simp), show (num.log2 : ℤ) - den.log2 - 52 - 1 + 52 = num.log2 - den.log2 - 1 by ring]
        exact hlow
  · cases fits with
    | true =>
        rw [if_pos rfl, show (num.log2 : ℤ) - den.log2 - 52 + 53 = num.log2 - den.log2 + 1 by ring]
        exact hhigh
    | false =>
        have hless := lt_of_not_ge (mt hfits.2 (by simp))
        rw [if_neg (by simp), show (num.log2 : ℤ) - den.log2 - 52 - 1 + 53 = num.log2 - den.log2 - 52 + 52 by ring]
        exact hless

theorem unitExponent_of_bounds {num den : Nat} (hnum : 0 < num) (hden : 0 < den) {e : ℤ} (he : -1074 ≤ e)
    (hlow : (2 : ℚ) ^ (e + 52) ≤ num / den ∨ e = -1074) (hhigh : (num / den : ℚ) < 2 ^ (e + 53)) :
    unitExponent num den = e := by
  obtain ⟨u, hu, hu', heq⟩ := unitExponent_spec hnum hden
  have hue : u + 52 < e + 53 := (zpow_lt_zpow_iff_right₀ (by norm_num : (1 : ℚ) < 2)).1 (hu.trans_lt hhigh)
  rcases hlow with hlow | rfl
  · have heu : e + 52 < u + 53 := (zpow_lt_zpow_iff_right₀ (by norm_num : (1 : ℚ) < 2)).1 (hlow.trans_lt hu')
    omega
  · omega

/-! The float nearest to a ratio -/

structure RoundsTo (m : Nat) (e : ℤ) (q : ℚ) : Prop where
  above : ((m : ℚ) - (if m = 2 ^ 52 ∧ -1074 < e then 1 / 4 else 1 / 2)) * 2 ^ e ≤ q
  below : q ≤ ((m : ℚ) + 1 / 2) * 2 ^ e
  inside : m % 2 = 1 → ((m : ℚ) - 1 / 2) * 2 ^ e < q ∧ q < ((m : ℚ) + 1 / 2) * 2 ^ e

theorem nearest_of_unitExponent {num den m : Nat} (hden : 0 < den) {u : ℤ} (hu : unitExponent num den = u)
    (h : NearTo m (num / den / 2 ^ u)) :
    nearest num den = if m = Nat.pow 2 53 then (Nat.pow 2 52, u + 1) else (m, u) := by
  unfold nearest
  rw [hu]
  cases u with
  | ofNat k =>
      have hround : roundHalfEven num (den * Nat.pow 2 k) = m := by
        refine roundHalfEven_eq (Nat.mul_pos hden (Nat.pow_pos (by decide))) ?_
        rw [Int.ofNat_eq_natCast, zpow_natCast, div_div] at h
        simpa [Nat.pow_eq] using h
      simp only [hround]
  | negSucc k =>
      have hround : roundHalfEven (num * Nat.pow 2 (k + 1)) den = m := by
        refine roundHalfEven_eq hden ?_
        rw [zpow_negSucc, div_inv_eq_mul, div_mul_eq_mul_div] at h
        simpa [Nat.pow_eq] using h
      simp only [hround]

theorem NearTo.scaled {m : Nat} {q r : ℚ} (hr : 0 < r) (h : ((m : ℚ) - 1 / 2) * r ≤ q) (h' : q ≤ ((m : ℚ) + 1 / 2) * r)
    (hodd : m % 2 = 1 → ((m : ℚ) - 1 / 2) * r < q ∧ q < ((m : ℚ) + 1 / 2) * r) : NearTo m (q / r) where
  above := (le_div_iff₀ hr).2 h
  below := (div_le_iff₀ hr).2 h'
  inside hm := ⟨(lt_div_iff₀ hr).2 (hodd hm).1, (div_lt_iff₀ hr).2 (hodd hm).2⟩

theorem RoundsTo.nearTo {m : Nat} {e : ℤ} {q : ℚ} (h : RoundsTo m e q) : NearTo m (q / 2 ^ e) := by
  have hpos : (0 : ℚ) < 2 ^ e := by positivity
  refine .scaled hpos (le_trans ?_ h.above) h.below h.inside
  refine mul_le_mul_of_nonneg_right ?_ hpos.le
  split <;> linarith

-- A number that rounds to a power of two from below has one bit more before it is rounded.
theorem nearest_below_power {num den : Nat} (hnum : 0 < num) (hden : 0 < den) {e : ℤ} (he : -1074 < e)
    (habove : ((2 : ℚ) ^ 52 - 1 / 4) * 2 ^ e ≤ num / den) (hbelow : (num / den : ℚ) < 2 ^ 52 * 2 ^ e) :
    nearest num den = (2 ^ 52, e) := by
  have hhalf : (2 : ℚ) ^ e = 2 ^ (e - 1) * 2 := by rw [← zpow_add_one₀ (by norm_num), sub_add_cancel]
  have hpos : (0 : ℚ) < 2 ^ (e - 1) := by positivity
  rw [hhalf] at habove hbelow
  have hu : unitExponent num den = e - 1 := by
    refine unitExponent_of_bounds hnum hden (by omega) (.inl ?_) ?_
    · rw [zpow_add₀ (by norm_num)]
      refine le_trans ?_ habove
      norm_num
      nlinarith
    · rw [zpow_add₀ (by norm_num)]
      refine hbelow.trans_eq ?_
      norm_num
      ring
  have hnear : NearTo (2 ^ 53) (num / den / 2 ^ (e - 1)) := by
    refine .scaled hpos ?_ ?_ (by norm_num)
    · refine le_trans (le_of_eq ?_) habove
      push_cast
      ring
    · refine hbelow.le.trans ?_
      push_cast
      nlinarith
  rw [nearest_of_unitExponent hden hu hnear, if_pos (show 2 ^ 53 = Nat.pow 2 53 from rfl), sub_add_cancel]
  rfl

theorem nearest_eq {num den m : Nat} {e : ℤ} (hc : Canonical m e) (hnum : 0 < num) (hden : 0 < den)
    (h : RoundsTo m e (num / den)) : nearest num den = (m, e) := by
  have hpos : (0 : ℚ) < 2 ^ e := by positivity
  have hmq : (m : ℚ) + 1 ≤ 2 ^ 53 := by exact_mod_cast hc.mantissa
  have hhigh : (num / den : ℚ) < 2 ^ (e + 53) := by
    rw [zpow_add₀ (by norm_num)]
    refine h.below.trans_lt ?_
    norm_num at hmq ⊢
    nlinarith
  by_cases hlow : (2 : ℚ) ^ (e + 52) ≤ num / den ∨ e = -1074
  · have hu := unitExponent_of_bounds hnum hden hc.lowest hlow hhigh
    have hne : m ≠ Nat.pow 2 53 := hc.mantissa.ne
    rw [nearest_of_unitExponent hden hu h.nearTo, if_neg hne]
  · rw [not_or, not_le, zpow_add₀ (by norm_num), mul_comm] at hlow
    obtain ⟨hbelow, hlowest⟩ := hlow
    have he : -1074 < e := by
      have := hc.lowest
      omega
    have hfull : 2 ^ 52 ≤ m := hc.full.resolve_right hlowest
    obtain rfl : m = 2 ^ 52 := by
      by_contra hne
      have hmore : (2 : ℚ) ^ 52 + 1 ≤ m := by exact_mod_cast (by omega : 2 ^ 52 + 1 ≤ m)
      have habove := h.nearTo.above
      rw [le_div_iff₀ hpos] at habove
      have hlt := lt_of_mul_lt_mul_right (habove.trans_lt hbelow) hpos.le
      linarith
    have habove := h.above
    rw [if_pos ⟨rfl, he⟩] at habove
    exact nearest_below_power hnum hden he (by exact_mod_cast habove) (by exact_mod_cast hbelow)

theorem ofRatio_eq {num den m : Nat} {e : ℤ} (negative : Bool) (hc : Canonical m e) (hnum : 0 < num) (hden : 0 < den)
    (h : RoundsTo m e (num / den)) : ofRatio negative num den = compose negative m e := by
  unfold ofRatio compose
  rw [if_neg (by omega), nearest_eq hc hnum hden h]
  dsimp only
  split
  next hm => rw [if_pos (show m < 2 ^ 52 from hm)]
  next hm =>
    have hlow := hc.lowest
    have hhigh := hc.highest
    rw [if_neg (show ¬ m < 2 ^ 52 from hm), if_neg (by omega)]
    rfl

/-! Decimals -/

theorem RoundsTo.pos {m : Nat} {e : ℤ} {q : ℚ} (hm : 0 < m) (h : RoundsTo m e q) : 2 ^ (e - 1) ≤ q := by
  have hpos : (0 : ℚ) < 2 ^ (e - 1) := by positivity
  have hhalf : (2 : ℚ) ^ e = 2 ^ (e - 1) * 2 := by rw [← zpow_add_one₀ (by norm_num), sub_add_cancel]
  have hmq : (1 : ℚ) ≤ m := by exact_mod_cast hm
  have habove := h.nearTo.above
  rw [le_div_iff₀ (by positivity), hhalf] at habove
  nlinarith

theorem RoundsTo.lt {m : Nat} {e : ℤ} {q : ℚ} (hc : Canonical m e) (h : RoundsTo m e q) : q < 10 ^ (309 : ℤ) := by
  have hmq : (m : ℚ) + 1 ≤ 2 ^ 53 := by exact_mod_cast hc.mantissa
  calc q ≤ ((m : ℚ) + 1 / 2) * 2 ^ e := h.below
    _ ≤ 2 ^ 53 * 2 ^ (971 : ℤ) := by
        refine mul_le_mul (by linarith) (zpow_le_zpow_right₀ (by norm_num) hc.highest) (by positivity) (by positivity)
    _ = (2 ^ 93) ^ 11 * 2 := by
        rw [show (971 : ℤ) = (971 : Nat) from rfl, zpow_natCast, ← pow_add, ← pow_mul, ← pow_succ]
    _ < (10 ^ 28) ^ 11 * 10 := by
        refine mul_lt_mul (pow_lt_pow_left₀ (by norm_num) (by norm_num) (by norm_num)) (by norm_num) (by norm_num)
          (by positivity)
    _ = 10 ^ (309 : ℤ) := by
        rw [show (309 : ℤ) = (309 : Nat) from rfl, zpow_natCast, ← pow_mul, ← pow_succ]

theorem Decimal.toFloat_eq {negative : Bool} {digits m : Nat} {exponent e : ℤ} (hc : Canonical m e) (hm : 0 < m)
    (hdigits : 0 < digits) (h : RoundsTo m e (digits * 10 ^ exponent)) :
    Decimal.toFloat ⟨negative, digits, exponent⟩ = compose negative m e := by
  have hdigitsq : (1 : ℚ) ≤ digits := by exact_mod_cast hdigits
  unfold Decimal.toFloat
  dsimp only
  rw [if_neg (by omega)]
  cases exponent with
  | ofNat k =>
      have hk : (k : ℤ) < 309 := by
        refine (zpow_lt_zpow_iff_right₀ (by norm_num : (1 : ℚ) < 10)).1 (lt_of_le_of_lt ?_ (h.lt hc))
        exact le_mul_of_one_le_left (by positivity) hdigitsq
      dsimp only
      rw [if_neg (by omega)]
      refine ofRatio_eq negative hc (Nat.mul_pos hdigits (Nat.pow_pos (by decide))) (by decide) ?_
      rw [Int.ofNat_eq_natCast, zpow_natCast] at h
      simpa [Nat.pow_eq] using h
  | negSucc k =>
      have hsize : (digits : ℚ) < 2 ^ ((digits.log2 : ℤ) + 1) := (log2_bounds hdigits).2
      have hlow := h.pos hm
      have hk : 3 * ((k : ℤ) + 1) < digits.log2 + 1077 := by
        refine (zpow_lt_zpow_iff_right₀ (by norm_num : (1 : ℚ) < 2)).1 ?_
        have hscale : (2 : ℚ) ^ (e - 1) * 10 ^ (k + 1) ≤ digits := by
          rw [zpow_negSucc, ← div_eq_mul_inv, le_div_iff₀ (by positivity)] at hlow
          exact hlow
        have hlowest : (2 : ℚ) ^ (-1075 : ℤ) ≤ 2 ^ (e - 1) :=
          zpow_le_zpow_right₀ (by norm_num) (by have := hc.lowest; omega)
        have height : (2 : ℚ) ^ (3 * ((k : ℤ) + 1)) ≤ 10 ^ (k + 1) := by
          rw [zpow_mul, ← Nat.cast_succ, zpow_natCast]
          exact pow_le_pow_left₀ (by norm_num) (by norm_num) _
        have hless : (2 : ℚ) ^ (-1075 : ℤ) * 2 ^ (3 * ((k : ℤ) + 1)) < 2 ^ ((digits.log2 : ℤ) + 1) :=
          calc (2 : ℚ) ^ (-1075 : ℤ) * 2 ^ (3 * ((k : ℤ) + 1)) ≤ 2 ^ (e - 1) * 10 ^ (k + 1) := by gcongr
            _ ≤ digits := hscale
            _ < _ := hsize
        rw [← zpow_add₀ (by norm_num)] at hless
        have hexp := (zpow_lt_zpow_iff_right₀ (by norm_num : (1 : ℚ) < 2)).1 hless
        exact zpow_lt_zpow_right₀ (by norm_num) (by omega)
      dsimp only
      rw [if_neg (by omega)]
      refine ofRatio_eq negative hc hdigits (Nat.pow_pos (by decide)) ?_
      rw [zpow_negSucc, ← div_eq_mul_inv] at h
      simpa [Nat.pow_eq] using h

/-! The number that a float stands for, and products that are computed exactly -/

def Binary.size (b : Binary) : ℚ := b.mantissa * 2 ^ b.exponent

def Binary.value (b : Binary) : ℚ := if b.negative then -b.size else b.size

def value? (x : Float) : Option ℚ := (Binary.ofFloat? x).map Binary.value

theorem Binary.size_nonneg (b : Binary) : 0 ≤ b.size := by
  unfold size
  positivity

theorem Binary.size_eq_value {b : Binary} (h : 0 < b.value) : b.size = b.value := by
  have hsize := b.size_nonneg
  unfold value at h ⊢
  split
  next hneg =>
    rw [if_pos hneg] at h
    linarith
  next => rfl

theorem exists_size {x : Float} {p : ℚ} (h : value? x = some p) (hp : 0 < p) :
    ∃ b, Binary.ofFloat? x = some b ∧ b.size = p := by
  obtain ⟨b, hb, rfl⟩ := Option.map_eq_some_iff.1 h
  exact ⟨b, hb, b.size_eq_value hp⟩

theorem roundsTo_self (m : Nat) (e : ℤ) : RoundsTo m e (m * 2 ^ e) := by
  have hpos : (0 : ℚ) < 2 ^ e := by positivity
  refine ⟨?_, ?_, fun _ => ⟨?_, ?_⟩⟩
  · refine mul_le_mul_of_nonneg_right ?_ hpos.le
    split <;> linarith
  · exact mul_le_mul_of_nonneg_right (by linarith) hpos.le
  · exact mul_lt_mul_of_pos_right (by linarith) hpos
  · exact mul_lt_mul_of_pos_right (by linarith) hpos

theorem truncate_toNat (m : Nat) (e : ℤ) : (Binary.truncate ⟨false, m, e⟩).toNat = ⌊(m : ℚ) * 2 ^ e⌋₊ := by
  cases e with
  | ofNat k =>
      have hwhole : (m : ℚ) * 2 ^ (Int.ofNat k) = ((m * 2 ^ k : Nat) : ℚ) := by
        rw [Int.ofNat_eq_natCast, zpow_natCast]
        push_cast
        rfl
      rw [hwhole, Nat.floor_natCast]
      rfl
  | negSucc k =>
      have hratio : (m : ℚ) * 2 ^ (Int.negSucc k) = (m : ℚ) / ((2 ^ (k + 1) : Nat) : ℚ) := by
        rw [zpow_negSucc, ← div_eq_mul_inv]
        push_cast
        rfl
      rw [hratio, Nat.floor_div_eq_div]
      rfl

theorem nearest_exact {num den : Nat} {c : Binary} {y : Float} (hy : Binary.ofFloat? y = some c) (hnum : 0 < num)
    (hden : 0 < den) (h : (num / den : ℚ) = c.size) : nearest num den = (c.mantissa, c.exponent) := by
  refine nearest_eq (canonical_of_ofFloat? hy) hnum hden ?_
  rw [h]
  exact roundsTo_self c.mantissa c.exponent

theorem product?_eq_floor {x y : Float} {k : Nat} {p : ℚ} (hx : value? x = some p) (hpos : 0 < p * k)
    (hy : value? y = some (p * k)) : product? x k = some ⌊p * k⌋₊ := by
  have hk : (0 : ℚ) ≤ k := Nat.cast_nonneg k
  have hp : 0 < p := pos_of_mul_pos_left hpos hk
  obtain ⟨b, hb, rfl⟩ := exists_size hx hp
  obtain ⟨c, hc, hsize⟩ := exists_size hy hpos
  have hmantissa : 0 < b.mantissa * k := by
    have hne : (b.mantissa : ℚ) * 2 ^ b.exponent * k ≠ 0 := hpos.ne'
    refine Nat.pos_of_ne_zero fun hzero => hne ?_
    have hzero : (b.mantissa : ℚ) * k = 0 := by exact_mod_cast hzero
    rw [mul_right_comm, hzero, zero_mul]
  have hhighest := (canonical_of_ofFloat? hc).highest
  have hcut : (if 971 < c.exponent then none
      else some (Binary.truncate ⟨false, c.mantissa, c.exponent⟩).toNat) = some ⌊b.size * k⌋₊ := by
    rw [if_neg (by omega), truncate_toNat, ← hsize]
    rfl
  unfold product?
  rw [hb, Option.bind_some]
  cases hexp : b.exponent with
  | ofNat j =>
      have hratio : ((b.mantissa * Nat.pow 2 j * k : Nat) / (1 : Nat) : ℚ) = c.size := by
        rw [hsize, Binary.size, hexp, Int.ofNat_eq_natCast, zpow_natCast, Nat.pow_eq]
        push_cast
        ring
      have hnum : 0 < b.mantissa * Nat.pow 2 j * k := by
        rw [Nat.mul_right_comm]
        exact Nat.mul_pos hmantissa (Nat.pow_pos (by decide))
      simp only [nearest_exact hc hnum (by decide) hratio]
      exact hcut
  | negSucc j =>
      have hratio : ((b.mantissa * k : Nat) / (Nat.pow 2 (j + 1) : Nat) : ℚ) = c.size := by
        rw [hsize, Binary.size, hexp, zpow_negSucc, Nat.pow_eq]
        push_cast
        ring
      have hden : 0 < Nat.pow 2 (j + 1) := Nat.pow_pos (by decide)
      simp only [nearest_exact hc hmantissa hden hratio]
      exact hcut

end BotApi.Number
