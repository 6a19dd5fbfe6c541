import BotApi.Text.Octets
/-!
Reading what was written in UTF-8: the octets of a text are read as that text.
-/

namespace BotApi.Text.Utf8

theorem toNat_octet {n : Nat} (h : n < 256) : (octet n).toNat = n := by
  simp only [octet, UInt8.toNat_ofNat']
  exact Nat.mod_eq_of_lt h

theorem toNat_bounds (c : Char) :
    c.toNat < 0xD800 ∨ 0xDFFF < c.toNat ∧ c.toNat < 0x110000 := c.valid

theorem tail_succ {taken code n b : Nat} {s : Second} {bs : List UInt8} (hb : b < 256)
    (hlow : s.low ≤ b) (hhigh : b ≤ s.high) : tail taken code s (n + 1) (octet b :: bs) =
      tail (taken + 1) (code * 64 + b % 64) ⟨0x80, 0xBF⟩ n bs := by
  simp [tail, toNat_octet hb, hlow, hhigh]

theorem decodeFrom_ascii {halves : Bool} {fuel pos a : Nat} {bs : List UInt8} (ha : a < 0x80) :
    decodeFrom halves (fuel + 1) pos (octet a :: bs) =
      (decodeFrom halves fuel (pos + 1) bs).map (Char.ofNat a :: ·) := by
  rw [decodeFrom, toNat_octet (by omega), if_pos ha]

theorem decodeFrom_lead {halves : Bool} {fuel pos a n code : Nat} {s : Second}
    {bs rest : List UInt8} (ha : a < 256) (hlarge : ¬ a < 0x80) (hlead : lead? a = some (n, s))
    (htail : tail 0 (leadBits a n) s n bs = .read code rest) :
    decodeFrom halves (fuel + 1) pos (octet a :: bs) =
      (decodeFrom halves fuel (pos + n + 1) rest).map (Char.ofNat code :: ·) := by
  rw [decodeFrom]
  simp only [toNat_octet ha, if_neg hlarge, hlead, htail]

theorem lead?_two {n : Nat} (h : 0x80 ≤ n) (h' : n < 0x800) :
    lead? (0xC0 + n / 64) = some (1, ⟨0x80, 0xBF⟩) := by
  have : ¬ 0xC0 + n / 64 < 0xC2 := by omega
  have : 0xC0 + n / 64 < 0xE0 := by omega
  simp [lead?, *]

-- What the second octet may be depends on the lead, so that each code has one form only.
theorem lead?_three {n : Nat} (h : 0x800 ≤ n) (h' : n < 0x10000)
    (hvalid : n < 0xD800 ∨ 0xDFFF < n) : ∃ s, lead? (0xE0 + n / 4096) = some (2, s) ∧
      s.low ≤ 0x80 + n / 64 % 64 ∧ 0x80 + n / 64 % 64 ≤ s.high := by
  have h₁ : ¬ 0xE0 + n / 4096 < 0xC2 := by omega
  have h₂ : ¬ 0xE0 + n / 4096 < 0xE0 := by omega
  have h₃ : 0xE0 + n / 4096 < 0xF0 := by omega
  by_cases hfirst : n / 4096 = 0
  · refine ⟨⟨0xA0, 0xBF⟩, by simp [lead?, hfirst], ?_, ?_⟩ <;> dsimp only <;> omega
  · by_cases hhalf : n / 4096 = 13
    · refine ⟨⟨0x80, 0x9F⟩, by simp [lead?, hhalf], ?_, ?_⟩ <;> dsimp only <;> omega
    · refine ⟨⟨0x80, 0xBF⟩, ?_, ?_, ?_⟩
      · have h₄ : ¬ 0xE0 + n / 4096 = 0xE0 := by omega
        have h₅ : ¬ 0xE0 + n / 4096 = 0xED := by omega
        simp only [lead?, if_neg h₁, if_neg h₂, if_pos h₃, if_neg h₄, if_neg h₅]
      · dsimp only
        omega
      · dsimp only
        omega

theorem lead?_four {n : Nat} (h : 0x10000 ≤ n) (h' : n < 0x110000) :
    ∃ s, lead? (0xF0 + n / 262144) = some (3, s) ∧
      s.low ≤ 0x80 + n / 4096 % 64 ∧ 0x80 + n / 4096 % 64 ≤ s.high := by
  have hlead : n / 262144 = 0 ∨ n / 262144 = 4 ∨ 0 < n / 262144 ∧ n / 262144 < 4 := by omega
  rcases hlead with hlead | hlead | ⟨hleast, hmost⟩
  · refine ⟨⟨0x90, 0xBF⟩, by simp [lead?, hlead], ?_, ?_⟩ <;> dsimp only <;> omega
  · refine ⟨⟨0x80, 0x8F⟩, by simp [lead?, hlead], ?_, ?_⟩ <;> dsimp only <;> omega
  · refine ⟨⟨0x80, 0xBF⟩, ?_, ?_, ?_⟩
    · have h₁ : ¬ 0xF0 + n / 262144 < 0xF0 := by omega
      have h₂ : ¬ 0xF0 + n / 262144 = 0xF0 := by omega
      have h₃ : 0xF0 + n / 262144 < 0xF4 := by omega
      have h₄ : ¬ 0xF0 + n / 262144 < 0xC2 := by omega
      have h₅ : ¬ 0xF0 + n / 262144 < 0xE0 := by omega
      have h₆ : ¬ 0xF0 + n / 262144 = 0xE0 := by omega
      have h₇ : ¬ 0xF0 + n / 262144 = 0xED := by omega
      simp only [lead?, if_neg h₁, if_neg h₂, if_pos h₃, if_neg h₄, if_neg h₅, if_neg h₆, if_neg h₇]
    · dsimp only
      omega
    · dsimp only
      omega

theorem decodeFrom_encodeChar (halves : Bool) (fuel pos : Nat) (c : Char) (bs : List UInt8) :
    ∃ pos', decodeFrom halves (fuel + 1) pos (encodeChar c ++ bs) =
      (decodeFrom halves fuel pos' bs).map (c :: ·) := by
  have hvalid := toNat_bounds c
  have hchar : Char.ofNat c.toNat = c := Char.ofNat_toNat c
  unfold encodeChar
  generalize c.toNat = n at hvalid hchar
  dsimp only
  split
  · rename_i hone
    refine ⟨pos + 1, ?_⟩
    rw [List.singleton_append, decodeFrom_ascii hone, hchar]
  split
  · rename_i hone htwo
    refine ⟨pos + 1 + 1, ?_⟩
    have hcode : (0xC0 + n / 64) % 32 * 64 + (0x80 + n % 64) % 64 = n := by omega
    rw [List.cons_append, List.singleton_append, decodeFrom_lead (by omega) (by omega)
      (lead?_two (by omega) htwo)
      (by rw [tail_succ (by omega) (by dsimp only; omega) (by dsimp only; omega), tail, leadBits, hcode]),
      hchar]
  split
  · rename_i hone htwo hthree
    obtain ⟨s, hlead, hlow, hhigh⟩ := lead?_three (n := n) (by omega) hthree (by omega)
    refine ⟨pos + 2 + 1, ?_⟩
    have hcode : ((0xE0 + n / 4096) % 16 * 64 + (0x80 + n / 64 % 64) % 64) * 64 +
        (0x80 + n % 64) % 64 = n := by omega
    rw [List.cons_append, List.cons_append, List.singleton_append, decodeFrom_lead (by omega)
      (by omega) hlead (by rw [tail_succ (by omega) hlow hhigh,
        tail_succ (by omega) (by dsimp only; omega) (by dsimp only; omega), tail, leadBits, hcode]),
      hchar]
  · rename_i hone htwo hthree
    obtain ⟨s, hlead, hlow, hhigh⟩ := lead?_four (n := n) (by omega) (by omega)
    refine ⟨pos + 3 + 1, ?_⟩
    have hcode : (((0xF0 + n / 262144) % 8 * 64 + (0x80 + n / 4096 % 64) % 64) * 64 +
        (0x80 + n / 64 % 64) % 64) * 64 + (0x80 + n % 64) % 64 = n := by omega
    rw [List.cons_append, List.cons_append, List.cons_append, List.singleton_append,
      decodeFrom_lead (by omega) (by omega) hlead (by rw [tail_succ (by omega) hlow hhigh,
        tail_succ (by omega) (by dsimp only; omega) (by dsimp only; omega),
        tail_succ (by omega) (by dsimp only; omega) (by dsimp only; omega), tail, leadBits, hcode]
        <;> omega),
      hchar]

theorem encode_append (s t : List Char) : encode (s ++ t) = encode s ++ encode t := List.flatMap_append

theorem toNat_of_mem_encodeChar {c : Char} {b : UInt8} (hb : b ∈ encodeChar c) (hascii : b.toNat < 0x80) :
    c.toNat = b.toNat := by
  have hvalid := toNat_bounds c
  have hlarge {n : Nat} (hn : 0x80 ≤ n) (hn' : n < 256) : b ≠ octet n := by
    rintro rfl
    rw [toNat_octet hn'] at hascii
    omega
  unfold encodeChar at hb
  generalize c.toNat = n at hb hvalid
  dsimp only at hb
  split at hb
  next hone =>
    rw [List.mem_singleton.1 hb, toNat_octet (by omega)]
  split at hb
  · simp only [List.mem_cons, List.not_mem_nil, or_false] at hb
    rcases hb with hb | hb
    · exact absurd hb (hlarge (by omega) (by omega))
    · exact absurd hb (hlarge (by omega) (by omega))
  split at hb
  · simp only [List.mem_cons, List.not_mem_nil, or_false] at hb
    rcases hb with hb | hb | hb
    · exact absurd hb (hlarge (by omega) (by omega))
    · exact absurd hb (hlarge (by omega) (by omega))
    · exact absurd hb (hlarge (by omega) (by omega))
  · simp only [List.mem_cons, List.not_mem_nil, or_false] at hb
    rcases hb with hb | hb | hb | hb
    · exact absurd hb (hlarge (by omega) (by omega))
    · exact absurd hb (hlarge (by omega) (by omega))
    · exact absurd hb (hlarge (by omega) (by omega))
    · exact absurd hb (hlarge (by omega) (by omega))

theorem not_mem_encode {c : Char} {b : UInt8} (hb : b.toNat = c.toNat) (hascii : c.toNat < 0x80) {s : List Char}
    (hc : c ∉ s) : b ∉ encode s := by
  intro h
  obtain ⟨d, hd, hbd⟩ := List.mem_flatMap.1 h
  have hsame := toNat_of_mem_encodeChar hbd (by omega)
  rw [hb, Char.toNat_inj] at hsame
  exact hc (hsame ▸ hd)

theorem encodeChar_ne_nil (c : Char) : 0 < (encodeChar c).length := by
  unfold encodeChar
  dsimp only
  split
  · simp
  split
  · simp
  split <;> simp

theorem decodeFrom_encode (halves : Bool) (s : List Char) (fuel pos : Nat)
    (hfuel : (encode s).length ≤ fuel) : decodeFrom halves fuel pos (encode s) = .ok s := by
  induction s generalizing fuel pos with
  | nil => cases fuel <;> rfl
  | cons c s ih =>
      have hlength : (encode (c :: s)).length = (encodeChar c).length + (encode s).length := by
        simp [encode]
      have hpos := encodeChar_ne_nil c
      obtain ⟨fuel, rfl⟩ : ∃ n, fuel = n + 1 := ⟨fuel - 1, by omega⟩
      obtain ⟨pos', hchar⟩ := decodeFrom_encodeChar halves fuel pos c (encode s)
      have hencode : encode (c :: s) = encodeChar c ++ encode s := by simp [encode]
      rw [hencode, hchar, ih fuel pos' (by omega)]
      rfl

theorem decode_encode (s : List Char) : decode (encode s) = .ok s :=
  decodeFrom_encode false s _ _ (Nat.le_refl _)

end BotApi.Text.Utf8
