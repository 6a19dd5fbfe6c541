import BotApi.Json.Reader
import BotApi.Json.Writer
import BotApi.Proofs.Number.Shortest
/-!
Numbers in JSON text: a number that was written, integer or float, is read back as it was.
-/

namespace BotApi.Json

open Text (isAsciiDigit)

/-! Digits -/

def AreDigits (s : List Char) : Prop := ∀ c ∈ s, isAsciiDigit c = true

theorem AreDigits.append {s t : List Char} (hs : AreDigits s) (ht : AreDigits t) : AreDigits (s ++ t) := by
  intro c hc
  rcases List.mem_append.1 hc with hc | hc
  · exact hs c hc
  · exact ht c hc

theorem areDigits_replicate (n : Nat) : AreDigits (List.replicate n '0') := by
  intro c hc
  rw [(List.mem_replicate.1 hc).2]
  rfl

theorem areDigits_natDigits (n : Nat) : AreDigits (Text.natDigits n) := by
  intro c hc
  have hdigit := Nat.isDigit_of_mem_toDigits (by decide) (by decide) hc
  simpa [isAsciiDigit, Char.isDigit, Char.le_def] using hdigit

theorem decimalValue?_of_digit {c : Char} (hc : isAsciiDigit c = true) :
    Text.decimalValue? c = some (c.toNat - '0'.toNat) := by
  have hbounds : '0'.toNat ≤ c.toNat ∧ c.toNat ≤ '9'.toNat := by
    simpa [isAsciiDigit, Char.le_def, UInt32.le_iff_toNat_le] using hc
  have hzero : '0'.toNat = 48 := rfl
  have hnine : '9'.toNat = 57 := rfl
  rw [Text.decimalValue?, if_pos (by omega), if_pos (by simpa using hbounds)]

def number (s : List Char) : Nat := Nat.ofDigitChars 10 s 0

theorem number_append (s t : List Char) : number (s ++ t) = number s * 10 ^ t.length + number t := by
  rw [number, Nat.ofDigitChars_append, Nat.ofDigitChars_eq_ofDigitChars_zero, Nat.mul_comm]
  rfl

theorem number_zeros (n : Nat) : number (List.replicate n '0') = 0 := Nat.ofDigitChars_replicate_zero

theorem number_natDigits (n : Nat) : number (Text.natDigits n) = n := Nat.ofDigitChars_ten_toDigits

theorem decimalNumber?_of_digits {s : List Char} (hs : AreDigits s) : Text.decimalNumber? s = some (number s) := by
  suffices hfold : ∀ n, s.foldl (fun acc c => do
      let n ← acc
      let d ← Text.decimalValue? c
      pure (10 * n + d)) (some n) = some (Nat.ofDigitChars 10 s n) from hfold 0
  induction s with
  | nil => exact fun n => rfl
  | cons c s ih =>
      intro n
      rw [List.foldl_cons, Nat.ofDigitChars_cons]
      simp only [bind, Option.bind, decimalValue?_of_digit (hs c (by simp)), pure]
      exact ih (fun c hc => hs c (by simp [hc])) _

theorem digitsValue_eq {s : List Char} (hs : AreDigits s) : digitsValue s = number s := by
  rw [digitsValue, decimalNumber?_of_digits hs]
  rfl

theorem takeDigits_append {s t : List Char} (hs : AreDigits s) (ht : ∀ c ∈ t.head?, isAsciiDigit c = false) :
    takeDigits (s ++ t) = (s, t) := by
  have htake : t.takeWhile isAsciiDigit = [] ∧ t.dropWhile isAsciiDigit = t := by
    cases t with
    | nil => exact ⟨rfl, rfl⟩
    | cons c t => simp [ht c rfl]
  rw [takeDigits, List.span_eq_takeWhile_dropWhile, List.takeWhile_append_of_pos hs, List.dropWhile_append_of_pos hs,
    htake.1, htake.2, List.append_nil]

/-! Number texts -/

structure Numeral where
  negative : Bool
  whole : List Char
  fraction : List Char
  exponent : Option (Bool × List Char)

namespace Numeral

def sign (negative : Bool) : List Char := if negative then ['-'] else []

def fractionText (fraction : List Char) : List Char := if fraction = [] then [] else '.' :: fraction

def exponentText : Option (Bool × List Char) → List Char
  | none => []
  | some (negative, digits) => 'e' :: (if negative then '-' else '+') :: digits

def text (n : Numeral) : List Char :=
  sign n.negative ++ (n.whole ++ (fractionText n.fraction ++ exponentText n.exponent))

def power : Option (Bool × List Char) → Int
  | none => 0
  | some (negative, digits) => if negative then -(number digits : Int) else number digits

structure WellFormed (n : Numeral) : Prop where
  some_whole : n.whole ≠ []
  whole : AreDigits n.whole
  leading : n.whole = ['0'] ∨ n.whole.head? ≠ some '0'
  fraction : AreDigits n.fraction
  exponent : ∀ negative digits, n.exponent = some (negative, digits) → digits ≠ [] ∧ AreDigits digits

end Numeral

def Ends (rest : List Char) : Prop := ∀ c ∈ rest.head?, isAsciiDigit c = false ∧ c ≠ '.' ∧ c ≠ 'e' ∧ c ≠ 'E'

theorem Ends.head {rest : List Char} (h : Ends rest) : ∀ c ∈ rest.head?, isAsciiDigit c = false := fun c hc => (h c hc).1

theorem exponentPart?_text {exponent : Option (Bool × List Char)} {rest : List Char} (hrest : Ends rest)
    (h : ∀ negative digits, exponent = some (negative, digits) → digits ≠ [] ∧ AreDigits digits) :
    exponentPart? (Numeral.exponentText exponent ++ rest) = (exponent.map fun e => Numeral.power (some e), rest) := by
  cases exponent with
  | none =>
      cases rest with
      | nil => rfl
      | cons c rest =>
          obtain ⟨-, -, he, hE⟩ := hrest c rfl
          simp [Numeral.exponentText, exponentPart?, he, hE]
  | some e =>
      obtain ⟨negative, digits⟩ := e
      obtain ⟨hne, hdigits⟩ := h negative digits rfl
      have htake := takeDigits_append hdigits hrest.head
      have hvalue := digitsValue_eq hdigits
      cases digits with
      | nil => exact absurd rfl hne
      | cons d digits =>
          rw [List.cons_append] at htake
          cases negative <;> simp [Numeral.exponentText, exponentPart?, Numeral.power, htake, hvalue]

theorem fractionPart_text {fraction t : List Char} (hfraction : AreDigits fraction)
    (ht : ∀ c ∈ t.head?, isAsciiDigit c = false ∧ c ≠ '.') :
    fractionPart (Numeral.fractionText fraction ++ t) = (fraction, t) := by
  cases fraction with
  | nil =>
      rw [Numeral.fractionText, if_pos rfl, List.nil_append]
      unfold fractionPart
      split
      next u => exact absurd rfl (ht '.' rfl).2
      next => rfl
  | cons d fraction =>
      have htake := takeDigits_append hfraction fun c hc => (ht c hc).1
      rw [Numeral.fractionText, if_neg (by simp), List.cons_append, fractionPart]
      rw [htake]

theorem integerPart?_text {whole t : List Char} (hne : whole ≠ []) (hwhole : AreDigits whole)
    (hleading : whole = ['0'] ∨ whole.head? ≠ some '0') (ht : ∀ c ∈ t.head?, isAsciiDigit c = false) :
    integerPart? (whole ++ t) = some (whole, t) := by
  rcases hleading with rfl | hleading
  · rfl
  · have htake := takeDigits_append hwhole ht
    cases whole with
    | nil => exact absurd rfl hne
    | cons d whole =>
        have hd : d ≠ '0' := fun h => hleading (by rw [h]; rfl)
        rw [List.cons_append] at htake ⊢
        rw [integerPart?, htake]
        exact fun _ h => hd (List.cons.inj h).1

theorem head_exponentText (exponent : Option (Bool × List Char)) {rest : List Char} (hrest : Ends rest) :
    ∀ c ∈ (Numeral.exponentText exponent ++ rest).head?, isAsciiDigit c = false ∧ c ≠ '.' := by
  cases exponent with
  | none => exact fun c hc => ⟨(hrest c hc).1, (hrest c hc).2.1⟩
  | some e =>
      intro c hc
      cases hc
      decide

theorem head_fractionText (fraction : List Char) {t : List Char} (ht : ∀ c ∈ t.head?, isAsciiDigit c = false ∧ c ≠ '.') :
    ∀ c ∈ (Numeral.fractionText fraction ++ t).head?, isAsciiDigit c = false := by
  cases fraction with
  | nil => exact fun c hc => (ht c hc).1
  | cons d fraction =>
      intro c hc
      cases hc
      rfl

theorem readNumber_of_parts {body ds t fs u rest : List Char} {e : Option Int} (negative : Bool)
    (hbody : ∀ t, body ≠ '-' :: t) (hwhole : integerPart? body = some (ds, t)) (hfraction : fractionPart t = (fs, u))
    (hexponent : exponentPart? u = (e, rest)) : readNumber (Numeral.sign negative ++ body) =
      if fs.isEmpty && e.isNone then
        if Text.digitsMost < ds.length then .error ⟨.tooManyDigits ds.length, Numeral.sign negative ++ body⟩
        else .ok (.int (if negative then -(digitsValue ds : Int) else digitsValue ds), rest)
      else .ok (.float (Number.Decimal.toFloat ⟨negative, digitsValue (ds ++ fs), e.getD 0 - fs.length⟩), rest) := by
  cases negative with
  | true =>
      rw [Numeral.sign, if_pos rfl, List.singleton_append]
      unfold readNumber
      simp only [hwhole, hfraction, hexponent]
  | false =>
      rw [Numeral.sign, if_neg (by decide), List.nil_append]
      unfold readNumber
      split
      next heq =>
        split at heq
        next t => exact absurd rfl (hbody t)
        next =>
          cases heq
          simp only [hwhole, hfraction, hexponent]

theorem readNumber_text {n : Numeral} (h : n.WellFormed) {rest : List Char} (hrest : Ends rest) :
    readNumber (n.text ++ rest) =
      if n.fraction.isEmpty && n.exponent.isNone then
        if Text.digitsMost < n.whole.length then .error ⟨.tooManyDigits n.whole.length, n.text ++ rest⟩
        else .ok (.int (if n.negative then -(number n.whole : Int) else number n.whole), rest)
      else .ok (.float (Number.Decimal.toFloat
        ⟨n.negative, number (n.whole ++ n.fraction), Numeral.power n.exponent - n.fraction.length⟩), rest) := by
  have hhead (t u : List Char) : n.whole ++ t ≠ '-' :: u := by
    intro hu
    cases hw : n.whole with
    | nil => exact h.some_whole hw
    | cons d whole =>
        rw [hw] at hu
        cases hu
        cases h.whole '-' (by simp [hw])
  have hparts := readNumber_of_parts n.negative (hhead _)
    (integerPart?_text h.some_whole h.whole h.leading (head_fractionText n.fraction (head_exponentText n.exponent hrest)))
    (fractionPart_text h.fraction (head_exponentText n.exponent hrest)) (exponentPart?_text hrest h.exponent)
  have hassoc : n.text ++ rest = Numeral.sign n.negative ++ (n.whole ++ (Numeral.fractionText n.fraction ++
      (Numeral.exponentText n.exponent ++ rest))) := by simp only [Numeral.text, List.append_assoc]
  have hnone : (n.exponent.map fun e => Numeral.power (some e)).isNone = n.exponent.isNone := by
    cases n.exponent <;> rfl
  have hpower : (n.exponent.map fun e => Numeral.power (some e)).getD 0 = Numeral.power n.exponent := by
    cases n.exponent <;> rfl
  rw [hassoc, hparts, hnone, hpower, digitsValue_eq h.whole, digitsValue_eq (h.whole.append h.fraction)]

/-! Integers -/

theorem number_lt {s : List Char} (hs : AreDigits s) : number s < 10 ^ s.length := by
  induction s with
  | nil => decide
  | cons c s ih =>
      have hc := hs c (by simp)
      have hbounds : '0'.toNat ≤ c.toNat ∧ c.toNat ≤ '9'.toNat := by
        simpa [isAsciiDigit, Char.le_def, UInt32.le_iff_toNat_le] using hc
      have hzero : '0'.toNat = 48 := rfl
      have hnine : '9'.toNat = 57 := rfl
      have hs := ih fun c hc => hs c (by simp [hc])
      have hone : number [c] = c.toNat - 48 := by simp [number, Nat.ofDigitChars]
      have happend := number_append [c] s
      rw [List.singleton_append, hone] at happend
      have hmul : (c.toNat - 48) * 10 ^ s.length ≤ 9 * 10 ^ s.length := Nat.mul_le_mul_right _ (by omega)
      rw [happend, List.length_cons, Nat.pow_succ]
      omega

theorem head_natDigits {n : Nat} (hn : 0 < n) : (Text.natDigits n).head? ≠ some '0' := by
  intro hhead
  have hdigits := areDigits_natDigits n
  have hnumber := number_natDigits n
  cases hs : Text.natDigits n with
  | nil => exact Nat.toDigits_ne_nil hs
  | cons c s =>
      rw [hs] at hhead hdigits hnumber
      obtain rfl : c = '0' := Option.some.inj hhead
      have hzero : number ('0' :: s) = number s := by
        simp [number, Nat.ofDigitChars]
      rw [hzero] at hnumber
      have hlt := number_lt fun c hc => hdigits c (List.mem_cons_of_mem _ hc)
      rw [hnumber] at hlt
      cases s with
      | nil =>
          simp at hlt
          omega
      | cons d s =>
          have hlength := (Nat.length_toDigits_le_iff (b := 10) (n := n) (by decide) (by simp)).2 hlt
          have hsame : (Nat.toDigits 10 n).length = (d :: s).length + 1 := congrArg List.length hs
          omega

theorem wellFormed_natDigits (negative : Bool) (n : Nat) : Numeral.WellFormed ⟨negative, Text.natDigits n, [], none⟩ where
  some_whole := Nat.toDigits_ne_nil
  whole := areDigits_natDigits n
  leading := by
    rcases Nat.eq_zero_or_pos n with rfl | hn
    · exact .inl rfl
    · exact .inr (head_natDigits hn)
  fraction := by simp [AreDigits]
  exponent := nofun

theorem readNumber_integer {n : Int} {t rest : List Char} (h : integer n = .ok t) (hrest : Ends rest) :
    readNumber (t ++ rest) = .ok (.int n, rest) := by
  unfold integer at h
  split at h
  · cases h
  next hlength =>
    cases h
    have htext : Numeral.text ⟨decide (n < 0), Text.natDigits n.natAbs, [], none⟩ = Text.intDigits n := by
      unfold Text.intDigits Numeral.text
      split
      next hneg => simp [Numeral.sign, Numeral.fractionText, Numeral.exponentText, hneg]
      next hneg => simp [Numeral.sign, Numeral.fractionText, Numeral.exponentText, hneg]
    have hread := readNumber_text (wellFormed_natDigits (decide (n < 0)) n.natAbs) hrest
    rw [htext] at hread
    refine hread.trans ((if_pos rfl).trans ((if_neg hlength).trans ?_))
    dsimp only
    rw [number_natDigits]
    by_cases hneg : n < 0
    · rw [if_pos (by simpa using hneg), show -(n.natAbs : Int) = n by omega]
    · rw [if_neg (by simpa using hneg), show (n.natAbs : Int) = n by omega]

/-! Floats -/

open Number (dropZeros layout plainStyle padLeft)

theorem dropZeros_append (s : List Char) : ∃ z, s = dropZeros s ++ List.replicate z '0' := by
  refine ⟨(s.reverse.takeWhile (· == '0')).length, ?_⟩
  have hzeros : s.reverse.takeWhile (· == '0') = List.replicate (s.reverse.takeWhile (· == '0')).length '0' := by
    refine List.eq_replicate_of_mem fun c hc => ?_
    simpa using List.mem_takeWhile_imp hc
  have hsplit := congrArg List.reverse (List.takeWhile_append_dropWhile (p := (· == '0')) (l := s.reverse))
  rw [List.reverse_append, List.reverse_reverse] at hsplit
  conv_lhs => rw [← hsplit, hzeros, List.reverse_replicate]
  rfl

structure Leads (s : List Char) : Prop where
  digits : AreDigits s
  ne_nil : s ≠ []
  head : s.head? ≠ some '0'

theorem leads_dropZeros {d : Nat} (hd : 0 < d) : ∃ z, Leads (dropZeros (Text.natDigits d)) ∧
    d = number (dropZeros (Text.natDigits d)) * 10 ^ z ∧
    (Text.natDigits d).length = (dropZeros (Text.natDigits d)).length + z := by
  obtain ⟨z, hz⟩ := dropZeros_append (Text.natDigits d)
  have hnumber := number_natDigits d
  have hhead := head_natDigits hd
  have hdigits := areDigits_natDigits d
  have hlength := congrArg List.length hz
  generalize dropZeros (Text.natDigits d) = s at *
  rw [hz, number_append, number_zeros, List.length_replicate, Nat.add_zero] at hnumber
  rw [hz] at hdigits hhead
  refine ⟨z, ⟨fun c hc => hdigits c (List.mem_append_left _ hc), ?_, ?_⟩, hnumber.symm, by simpa using hlength⟩
  · rintro rfl
    simp [number] at hnumber
    omega
  · cases s with
    | nil => simp
    | cons c s => simpa using hhead

structure LaysOut (n : Numeral) (negative : Bool) (d : Number.Digits) : Prop where
  text : n.text = Numeral.sign negative ++ layout plainStyle d
  wellFormed : n.WellFormed
  float : (n.fraction.isEmpty && n.exponent.isNone) = false
  negative : n.negative = negative
  value : (number (n.whole ++ n.fraction) : ℚ) * 10 ^ (Numeral.power n.exponent - n.fraction.length) =
    number d.digits * 10 ^ (d.point - d.digits.length)

theorem number_zero_cons (s : List Char) : number ('0' :: s) = number s := by simp [number, Nat.ofDigitChars]

theorem fractionText_of_ne_nil {s : List Char} (hs : s ≠ []) : Numeral.fractionText s = '.' :: s := if_neg hs

theorem number_replicate (p : Nat) (s : List Char) : number (List.replicate p '0' ++ s) = number s := by
  rw [number_append, number_zeros, Nat.zero_mul, Nat.zero_add]

theorem layout_zero (s : List Char) : layout plainStyle ⟨s, 0⟩ = ['0', '.'] ++ s :=
  (if_pos (show -3 ≤ (0 : Int) ∧ (0 : Int) ≤ 16 by omega)).trans (if_pos rfl)

theorem layout_negSucc (s : List Char) {p : Nat} (hp : p < 3) :
    layout plainStyle ⟨s, Int.negSucc p⟩ = ['0', '.'] ++ List.replicate (p + 1) '0' ++ s :=
  if_pos (show -3 ≤ Int.negSucc p ∧ Int.negSucc p ≤ 16 by omega)

theorem layout_above {s : List Char} {p : Nat} (hp : p ≤ 16) (hpos : 0 < p) (hs : s.length ≤ p) :
    layout plainStyle ⟨s, (p : Int)⟩ = s ++ List.replicate (p - s.length) '0' ++ ['.', '0'] :=
  (if_pos (show -3 ≤ (p : Int) ∧ (p : Int) ≤ 16 by omega)).trans ((if_neg hpos.ne').trans (if_pos hs))

theorem layout_within {s : List Char} {p : Nat} (hp : p ≤ 16) (hpos : 0 < p) (hs : p < s.length) :
    layout plainStyle ⟨s, (p : Int)⟩ = s.take p ++ ['.'] ++ s.drop p :=
  (if_pos (show -3 ≤ (p : Int) ∧ (p : Int) ≤ 16 by omega)).trans ((if_neg hpos.ne').trans (if_neg (by simpa using hs)))

theorem layout_exponent {s : List Char} (hs : s ≠ []) {point : Int} (hp : ¬ (-3 ≤ point ∧ point ≤ 16)) :
    layout plainStyle ⟨s, point⟩ = s.take 1 ++ (Numeral.fractionText (s.drop 1) ++
      Numeral.exponentText (some (decide (point - 1 < 0), padLeft 2 (Text.natDigits (point - 1).natAbs)))) := by
  unfold layout
  refine (if_neg hp).trans ?_
  match s, hs with
  | [c], _ => simp [Numeral.exponentText, Numeral.fractionText, plainStyle]
  | c :: d :: s, _ => simp [Numeral.exponentText, Numeral.fractionText, plainStyle]

theorem laysOut_below (negative : Bool) {s : List Char} (h : Leads s) (p : Nat) (hp : p ≤ 3) :
    LaysOut ⟨negative, ['0'], List.replicate p '0' ++ s, none⟩ negative ⟨s, -p⟩ where
  text := by
    rw [Numeral.text, fractionText_of_ne_nil (by simp [h.ne_nil])]
    cases p with
    | zero =>
        rw [show (-((0 : Nat) : Int)) = 0 from rfl, layout_zero]
        simp [Numeral.exponentText]
    | succ p =>
        rw [show (-((p + 1 : Nat) : Int)) = Int.negSucc p from rfl, layout_negSucc s (by omega)]
        simp [Numeral.exponentText]
  wellFormed :=
    { some_whole := by simp
      whole := areDigits_replicate 1
      leading := .inl rfl
      fraction := (areDigits_replicate p).append h.digits
      exponent := nofun }
  float := by simp [h.ne_nil]
  negative := rfl
  value := by
    dsimp only
    rw [List.singleton_append, number_zero_cons, number_replicate, Numeral.power, List.length_append,
      List.length_replicate]
    congr 2
    push_cast
    ring

theorem laysOut_above (negative : Bool) {s : List Char} (h : Leads s) (p : Nat) (hp : p ≤ 16) (hs : s.length ≤ p) :
    LaysOut ⟨negative, s ++ List.replicate (p - s.length) '0', ['0'], none⟩ negative ⟨s, p⟩ where
  text := by
    have hlength := List.length_pos_of_ne_nil h.ne_nil
    rw [Numeral.text, fractionText_of_ne_nil (by simp), layout_above hp (by omega) hs]
    simp [Numeral.exponentText]
  wellFormed :=
    { some_whole := by simp [h.ne_nil]
      whole := h.digits.append (areDigits_replicate _)
      leading := .inr (by
        cases s with
        | nil => exact absurd rfl h.ne_nil
        | cons c s => simpa using h.head)
      fraction := areDigits_replicate 1
      exponent := nofun }
  float := rfl
  negative := rfl
  value := by
    have hscale : number (s ++ List.replicate (p - s.length) '0' ++ ['0']) = number s * 10 ^ (p - s.length + 1) := by
      rw [List.append_assoc, ← List.replicate_succ', number_append, number_zeros, List.length_replicate, Nat.add_zero]
    dsimp only
    rw [hscale, Numeral.power, Nat.cast_mul, Nat.cast_pow, mul_assoc, ← zpow_natCast, Nat.cast_ofNat,
      ← zpow_add₀ (by norm_num)]
    congr 2
    push_cast [Nat.cast_sub hs, List.length_singleton]
    ring

theorem laysOut_within (negative : Bool) {s : List Char} (h : Leads s) (p : Nat) (hp : p ≤ 16) (hpos : 0 < p)
    (hs : p < s.length) : LaysOut ⟨negative, s.take p, s.drop p, none⟩ negative ⟨s, p⟩ where
  text := by
    rw [Numeral.text, fractionText_of_ne_nil (by simpa using hs), layout_within hp hpos hs]
    simp [Numeral.exponentText]
  wellFormed :=
    { some_whole := by
        simp [h.ne_nil]
        omega
      whole := fun c hc => h.digits c (List.mem_of_mem_take hc)
      leading := .inr (by
        rw [List.head?_take, if_neg (by omega)]
        exact h.head)
      fraction := fun c hc => h.digits c (List.mem_of_mem_drop hc)
      exponent := nofun }
  float := by
    simp
    omega
  negative := rfl
  value := by
    dsimp only
    rw [List.take_append_drop, Numeral.power, List.length_drop]
    congr 2
    push_cast [Nat.cast_sub hs.le]
    ring

theorem number_padLeft (width : Nat) (s : List Char) : number (padLeft width s) = number s := number_replicate _ s

theorem laysOut_exponent (negative : Bool) {s : List Char} (h : Leads s) {point : Int} (hp : ¬ (-3 ≤ point ∧ point ≤ 16)) :
    LaysOut ⟨negative, s.take 1, s.drop 1, some (decide (point - 1 < 0), padLeft 2 (Text.natDigits (point - 1).natAbs))⟩
      negative ⟨s, point⟩ where
  text := by rw [Numeral.text, layout_exponent h.ne_nil hp]
  wellFormed :=
    { some_whole := by simp [h.ne_nil]
      whole := fun c hc => h.digits c (List.mem_of_mem_take hc)
      leading := .inr (by
        rw [List.head?_take, if_neg (by omega)]
        exact h.head)
      fraction := fun c hc => h.digits c (List.mem_of_mem_drop hc)
      exponent := fun _ _ he => by
        cases he
        exact ⟨by simp [padLeft, Text.natDigits, Nat.toDigits_ne_nil],
          (areDigits_replicate _).append (areDigits_natDigits _)⟩ }
  float := by simp
  negative := rfl
  value := by
    have hpower : Numeral.power (some (decide (point - 1 < 0), padLeft 2 (Text.natDigits (point - 1).natAbs))) =
        point - 1 := by
      rw [Numeral.power, number_padLeft, number_natDigits]
      by_cases hneg : point - 1 < 0
      · rw [if_pos (by simpa using hneg)]
        omega
      · rw [if_neg (by simpa using hneg)]
        omega
    have hlength := List.length_pos_of_ne_nil h.ne_nil
    dsimp only
    rw [List.take_append_drop, hpower, List.length_drop]
    congr 2
    push_cast [Nat.cast_sub hlength]
    ring

theorem exists_laysOut (negative : Bool) {d : Number.Digits} (h : Leads d.digits) : ∃ n, LaysOut n negative d := by
  obtain ⟨s, point⟩ := d
  by_cases hp : -3 ≤ point ∧ point ≤ 16
  · rcases le_or_gt point 0 with hnonpos | hpos
    · obtain ⟨p, rfl⟩ : ∃ p : Nat, point = -p := ⟨point.natAbs, by omega⟩
      exact ⟨_, laysOut_below negative h p (by omega)⟩
    · obtain ⟨p, rfl⟩ := Int.eq_ofNat_of_zero_le hpos.le
      rcases le_or_gt s.length p with hs | hs
      · exact ⟨_, laysOut_above negative h p (by omega) hs⟩
      · exact ⟨_, laysOut_within negative h p (by omega) (by omega) hs⟩
  · exact ⟨_, laysOut_exponent negative h hp⟩

theorem readNumber_shortest (negative : Bool) {m : Nat} {e : ℤ} (hc : Number.Canonical m e) (hm : 0 < m)
    {rest : List Char} (hrest : Ends rest) :
    readNumber (Numeral.sign negative ++ layout plainStyle (Number.shortest m e) ++ rest) =
      .ok (.float (Number.compose negative m e), rest) := by
  obtain ⟨d, unit, hd, hshortest, hrounds⟩ := Number.shortest_spec hc hm
  obtain ⟨z, hleads, hvalue, hlength⟩ := leads_dropZeros hd
  rw [hshortest]
  obtain ⟨n, hn⟩ := exists_laysOut negative (d := ⟨dropZeros (Text.natDigits d), unit + (Text.natDigits d).length⟩) hleads
  have hread := readNumber_text hn.wellFormed hrest
  rw [hn.text, if_neg (by rw [hn.float]; decide), hn.negative] at hread
  have hsame : (number (n.whole ++ n.fraction) : ℚ) * 10 ^ (Numeral.power n.exponent - n.fraction.length) =
      d * 10 ^ unit := by
    have hpoint : unit + ((Text.natDigits d).length : ℤ) - (dropZeros (Text.natDigits d)).length = z + unit := by
      rw [hlength]
      push_cast
      ring
    have hcast : (d : ℚ) = number (dropZeros (Text.natDigits d)) * 10 ^ z := by exact_mod_cast hvalue
    rw [hn.value, hpoint, zpow_add₀ (by norm_num), zpow_natCast, ← mul_assoc, ← hcast]
  have hpos : 0 < number (n.whole ++ n.fraction) := by
    refine Nat.pos_of_ne_zero fun hzero => ?_
    rw [hzero, Nat.cast_zero, zero_mul] at hsame
    have hdq : (0 : ℚ) < d := by exact_mod_cast hd
    exact (mul_pos hdq (by positivity)).ne hsame
  rw [← hsame] at hrounds
  rw [hread, Number.Decimal.toFloat_eq hc hm hpos hrounds]

theorem readNumber_float {x : Float} (hx : Number.isFinite x = true) {rest : List Char} (hrest : Ends rest) :
    readNumber (Number.floatText x ++ rest) = .ok (.float x, rest) := by
  cases hb : Number.Binary.ofFloat? x with
  | none =>
      rw [Number.Binary.ofFloat?, if_pos hx] at hb
      split at hb <;> cases hb
  | some b =>
      have hcompose := Number.compose_eq hb
      have hsign (body : List Char) :
          (if b.negative then '-' :: body else body) = Numeral.sign b.negative ++ body := by
        cases b.negative <;> rfl
      unfold Number.floatText
      rw [hb]
      dsimp only
      rw [hsign]
      split
      next hzero =>
        have hread := readNumber_text (n := ⟨b.negative, ['0'], ['0'], none⟩)
          ⟨by simp, areDigits_replicate 1, .inl rfl, areDigits_replicate 1, nofun⟩ hrest
        rw [hzero] at hcompose
        have hdecimal : Number.Decimal.toFloat ⟨b.negative, 0, -1⟩ = x := by
          rw [← hcompose, Number.Decimal.toFloat, Number.compose, if_pos rfl, if_pos (by norm_num)]
        refine hread.trans ((if_neg (by simp)).trans ?_)
        exact congrArg (fun y => Except.ok (Value.float y, rest)) hdecimal
      next hne => rw [readNumber_shortest _ (Number.canonical_of_ofFloat? hb) (Nat.pos_of_ne_zero hne) hrest, hcompose]

end BotApi.Json
