import BotApi.Proofs.Json.Number
import BotApi.Proofs.Json.RoundTrip
import BotApi.Proofs.Json.Writable
/-!
Reading a value that was written: what has a text is read from it as it was.
-/

namespace BotApi

inductive Value.IsJson : Value → Prop
  | null : IsJson .null
  | bool (b : Bool) : IsJson (.bool b)
  | int (n : Int) : IsJson (.int n)
  | float {x : Float} (h : Number.isFinite x = true) : IsJson (.float x)
  | str (s : String) : IsJson (.str s)
  | list {xs : List Value} (h : ∀ x ∈ xs, IsJson x) : IsJson (.list xs)
  | dict {es : Entries} (texts : ∀ e ∈ es, ∃ k, e.1 = .str k) (nodup : (es.map (·.1)).Nodup)
      (values : ∀ e ∈ es, IsJson e.2) : IsJson (.dict es)

-- Values whose text is read as what it was written for. Of the numbers, floats are those that equal themselves,
-- and integers those that are not too long.
inductive Value.Legible : Value → Prop
  | null : Legible .null
  | bool (b : Bool) : Legible (.bool b)
  | int {n : Int} (h : (Text.natDigits n.natAbs).length ≤ Text.digitsMost) : Legible (.int n)
  | float {x : Float} (h : Number.isNaN x = false) : Legible (.float x)
  | str (s : String) : Legible (.str s)
  | list {xs : List Value} (h : ∀ x ∈ xs, Legible x) : Legible (.list xs)
  | dict {es : Entries} (texts : ∀ e ∈ es, ∃ k, e.1 = .str k) (nodup : (es.map (·.1)).Nodup)
      (values : ∀ e ∈ es, Legible e.2) : Legible (.dict es)

namespace Json

open Text (isAsciiDigit)

variable {style : Style} {v : Value} {t rest : List Char} {fuel : Nat}

theorem isNaN_of_isFinite {x : Float} (h : Number.isFinite x = true) : Number.isNaN x = false := by
  have hbiased : Number.biased x ≠ 2047 := by simpa [Number.isFinite] using h
  simp [Number.isNaN, hbiased]

theorem writable_integer {n : Int} : Writable style (.int n) ↔ (Text.natDigits n.natAbs).length ≤ Text.digitsMost := by
  rw [Writable, write, integer]
  split
  next hmore =>
      refine iff_of_false ?_ (by omega)
      rintro ⟨t, h⟩
      cases h
  next hmore => exact iff_of_true ⟨_, rfl⟩ (by omega)

theorem legible_of_writable (hv : v.IsJson) (h : Writable style v) : v.Legible := by
  induction hv with
  | null => exact .null
  | bool b => exact .bool b
  | int n => exact .int (writable_integer.1 h)
  | float hfinite => exact .float (isNaN_of_isFinite hfinite)
  | str s => exact .str s
  | list _ ih => exact .list fun x hx => ih x hx (writable_list.1 h x hx)
  | dict texts nodup _ ih => exact .dict texts nodup fun e he => ih e he (writable_dict.1 h e he).2

theorem writable_of_legible (hstyle : style.finiteOnly = false) (hv : v.Legible) : Writable style v := by
  induction hv with
  | null => exact writable_null
  | bool b => exact writable_bool b
  | int h => exact writable_integer.2 h
  | float _ => exact exists_float fun honly => by rw [hstyle] at honly; cases honly
  | str s => exact writable_str s
  | list _ ih => exact writable_list.2 ih
  | dict texts _ _ ih =>
      refine writable_dict.2 fun e he => ⟨?_, ih e he⟩
      obtain ⟨k, hk⟩ := texts e he
      exact hk ▸ exists_key k

/-! Numbers -/

theorem head_of_integerPart? {s : List Char} {r : List Char × List Char} (h : integerPart? s = some r) :
    ∃ d u, isAsciiDigit d = true ∧ s = d :: u := by
  cases s with
  | nil => cases h
  | cons d u =>
      refine ⟨d, u, ?_, rfl⟩
      by_contra hd
      have htake : takeDigits (d :: u) = ([], d :: u) := by
        rw [takeDigits, List.span_eq_takeWhile_dropWhile, List.takeWhile_cons_of_neg hd, List.dropWhile_cons_of_neg hd]
      rw [integerPart?, htake] at h
      · cases h
      · rintro u' heq
        cases heq
        exact hd rfl

theorem head_of_readNumber {s : List Char} {r : Value × List Char} (h : readNumber s = .ok r) :
    ∃ d u, isAsciiDigit d = true ∧ (s = d :: u ∨ s = '-' :: d :: u) := by
  unfold readNumber at h
  split at h
  rename_i negative u hu
  split at h
  next => cases h
  next hpart =>
    obtain ⟨d, w, hd, rfl⟩ := head_of_integerPart? hpart
    refine ⟨d, w, hd, ?_⟩
    split at hu
    next =>
      cases hu
      exact .inr rfl
    next =>
      cases hu
      exact .inl rfl

theorem readValue_of_head {c : Char} {u : List Char} (hquote : c ≠ '"') (hbracket : c ≠ '[') (hbrace : c ≠ '{')
    (hword : readWord? (c :: u) = none) : readValue (fuel + 1) (c :: u) = readNumber (c :: u) := by
  rw [readValue, hword]
  · exact fun _ h => hquote (List.cons.inj h).1
  · exact fun _ h => hbracket (List.cons.inj h).1
  · exact fun _ h => hbrace (List.cons.inj h).1

theorem readValue_number {s : List Char} {r : Value × List Char} (h : readNumber s = .ok r) :
    readValue (fuel + 1) s = .ok r := by
  obtain ⟨d, u, hd, hs⟩ := head_of_readNumber h
  have hne (c : Char) (hc : isAsciiDigit c = false) : c ≠ d := by
    rintro rfl
    rw [hd] at hc
    cases hc
  have hword : readWord? s = none := by
    rcases hs with rfl | rfl <;>
      simp [readWord?, words, List.findSome?, Text.dropStart?, hne 'n' rfl, hne 't' rfl, hne 'f' rfl, hne 'N' rfl,
        hne 'I' rfl, hne '-' rfl]
  rcases hs with rfl | rfl
  · exact (readValue_of_head (hne '"' rfl).symm (hne '[' rfl).symm (hne '{' rfl).symm hword).trans h
  · exact (readValue_of_head (by decide) (by decide) (by decide) hword).trans h

theorem head_of_readNumber_append (h : readNumber (t ++ []) = .ok (v, [])) :
    ∃ c s, t = c :: s ∧ isSpace c = false ∧ c ≠ ']' := by
  obtain ⟨d, u, hd, hs⟩ := head_of_readNumber h
  rw [List.append_nil] at hs
  have hdigit : isSpace d = false ∧ d ≠ ']' := by
    constructor
    · rw [Bool.eq_false_iff]
      intro hspace
      have hspaces : d = ' ' ∨ d = '\t' ∨ d = '\n' ∨ d = '\r' := by
        simpa only [isSpace, Bool.or_eq_true, beq_iff_eq, or_assoc] using hspace
      rcases hspaces with rfl | rfl | rfl | rfl <;> cases hd
    · rintro rfl
      cases hd
  rcases hs with rfl | rfl
  · exact ⟨d, u, rfl, hdigit⟩
  · exact ⟨'-', d :: u, rfl, rfl, by decide⟩

theorem eq_infinity_of_float {x : Float} (hnan : Number.isNaN x = false) (hfinite : ¬ Number.isFinite x = true)
    (h : float style x = .ok t) :
    ∃ negative, x = Number.infinity negative ∧ t = Numeral.sign negative ++ "Infinity".toList := by
  have hbiased : Number.biased x = 2047 := by simpa [Number.isFinite] using hfinite
  have hfraction : Number.fraction x = 0 := by simpa [Number.isNaN, hbiased] using hnan
  have hx := Number.assemble_eq x
  rw [hbiased, hfraction] at hx
  refine ⟨Number.isNegative x, hx.symm, ?_⟩
  rw [float, if_neg hfinite, hnan] at h
  split at h
  · cases h
  · cases hnegative : Number.isNegative x <;> rw [hnegative] at h <;> cases h <;> rfl

theorem readValue_infinity (negative : Bool) (rest : List Char) :
    readValue (fuel + 1) (Numeral.sign negative ++ "Infinity".toList ++ rest) =
      .ok (.float (Number.infinity negative), rest) := by
  cases negative <;> rfl

theorem readValue_float {x : Float} (hnan : Number.isNaN x = false) (h : float style x = .ok t) (hrest : Ends rest) :
    readValue (fuel + 1) (t ++ rest) = .ok (.float x, rest) := by
  by_cases hfinite : Number.isFinite x = true
  · rw [float, if_pos hfinite] at h
    cases h
    exact readValue_number (readNumber_float hfinite hrest)
  · obtain ⟨negative, rfl, rfl⟩ := eq_infinity_of_float hnan hfinite h
    exact readValue_infinity negative rest

theorem head_of_float {x : Float} (hnan : Number.isNaN x = false) (h : float style x = .ok t) :
    ∃ c s, t = c :: s ∧ isSpace c = false ∧ c ≠ ']' := by
  by_cases hfinite : Number.isFinite x = true
  · rw [float, if_pos hfinite] at h
    cases h
    exact head_of_readNumber_append (readNumber_float hfinite (by simp [Ends]))
  · obtain ⟨negative, rfl, rfl⟩ := eq_infinity_of_float hnan hfinite h
    cases negative <;> exact ⟨_, _, rfl, rfl, by decide⟩

/-! Values -/

def separator : List Char := [',', ' ']

theorem intercalate_separator (t u : List Char) (ts : List (List Char)) (s : List Char) :
    List.intercalate separator (t :: u :: ts) ++ s = t ++ ',' :: ' ' :: (List.intercalate separator (u :: ts) ++ s) := by
  rw [List.intercalate_cons_cons, List.append_assoc, List.append_assoc]
  rfl

theorem write_list {xs : List Value} (h : write style (.list xs) = .ok t) :
    ∃ ts, writeItems style xs = .ok ts ∧ t = '[' :: (List.intercalate separator ts ++ [']']) := by
  rw [write] at h
  cases hts : writeItems style xs with
  | error e =>
      rw [hts] at h
      cases h
  | ok ts =>
      rw [hts] at h
      cases h
      exact ⟨ts, rfl, rfl⟩

theorem write_dict {es : Entries} (h : write style (.dict es) = .ok t) :
    ∃ ts, writeEntries style es = .ok ts ∧ t = '{' :: (List.intercalate separator ts ++ ['}']) := by
  rw [write] at h
  cases hts : writeEntries style es with
  | error e =>
      rw [hts] at h
      cases h
  | ok ts =>
      rw [hts] at h
      cases h
      exact ⟨ts, rfl, rfl⟩

theorem writeItems_cons {x : Value} {xs : List Value} {ts : List (List Char)} (h : writeItems style (x :: xs) = .ok ts) :
    ∃ t us, write style x = .ok t ∧ writeItems style xs = .ok us ∧ ts = t :: us := by
  rw [writeItems] at h
  cases ht : write style x with
  | error e =>
      rw [ht] at h
      cases h
  | ok t =>
      cases hus : writeItems style xs with
      | error e =>
          rw [ht, hus] at h
          cases h
      | ok us =>
          rw [ht, hus] at h
          cases h
          exact ⟨t, us, rfl, rfl, rfl⟩

theorem writeEntries_cons {k : String} {x : Value} {es : Entries} {ts : List (List Char)}
    (h : writeEntries style ((.str k, x) :: es) = .ok ts) : ∃ t us, write style x = .ok t ∧
      writeEntries style es = .ok us ∧ ts = (string style.ascii k.toList ++ ':' :: ' ' :: t) :: us := by
  rw [writeEntries, key] at h
  cases ht : write style x with
  | error e =>
      rw [ht] at h
      cases h
  | ok t =>
      cases hus : writeEntries style es with
      | error e =>
          rw [ht, hus] at h
          cases h
      | ok us =>
          rw [ht, hus] at h
          cases h
          exact ⟨t, us, rfl, rfl, rfl⟩

theorem head_of_write (hv : v.Legible) (h : write style v = .ok t) :
    ∃ c s, t = c :: s ∧ isSpace c = false ∧ c ≠ ']' := by
  have hends : Ends [] := by simp [Ends]
  cases hv with
  | null =>
      cases h
      exact ⟨_, _, rfl, rfl, by decide⟩
  | bool b =>
      cases h
      cases b <;> exact ⟨_, _, rfl, rfl, by decide⟩
  | int => exact head_of_readNumber_append (readNumber_integer h hends)
  | float hnan => exact head_of_float hnan h
  | str s =>
      cases h
      exact ⟨'"', _, rfl, rfl, by decide⟩
  | list hxs =>
      obtain ⟨ts, -, rfl⟩ := write_list h
      exact ⟨'[', _, rfl, rfl, by decide⟩
  | dict =>
      obtain ⟨ts, -, rfl⟩ := write_dict h
      exact ⟨'{', _, rfl, rfl, by decide⟩

theorem skip_write (hv : v.Legible) (h : write style v = .ok t) (s : List Char) : skip (t ++ s) = t ++ s := by
  obtain ⟨c, u, rfl, hspace, -⟩ := head_of_write hv h
  exact skip_of_not_isSpace hspace

theorem ends_of_head {c : Char} {s : List Char} (h : isAsciiDigit c = false ∧ c ≠ '.' ∧ c ≠ 'e' ∧ c ≠ 'E') :
    Ends (c :: s) := by
  intro d hd
  cases hd
  exact h

-- An item takes twice the fuel of its text, and one unit more among others.
def fuelFor (ts : List (List Char)) : Nat := 2 * ts.flatten.length + ts.length

mutual
theorem readValue_write : ∀ {v : Value} {t : List Char} (fuel : Nat) {rest : List Char}, v.Legible →
    write style v = .ok t → 2 * t.length ≤ fuel → Ends rest → readValue fuel (t ++ rest) = .ok (v, rest)
  | v, t, 0, _, hv, h, hfuel, _ => by
      obtain ⟨c, s, rfl, -⟩ := head_of_write hv h
      cases hfuel
  | .null, _, _ + 1, _, _, h, _, _ => by
      cases h
      rfl
  | .bool true, _, _ + 1, _, _, h, _, _ => by
      cases h
      rfl
  | .bool false, _, _ + 1, _, _, h, _, _ => by
      cases h
      rfl
  | .int n, _, _ + 1, _, _, h, _, hrest => readValue_number (readNumber_integer h hrest)
  | .float x, _, _ + 1, _, .float hnan, h, _, hrest => readValue_float hnan h hrest
  | .str s, _, _ + 1, _, _, h, _, _ => by
      cases h
      rw [readValue_str, String.ofList_toList]
  | .list [], _, _ + 1, _, _, h, _, _ => by
      cases h
      rfl
  | .list (x :: xs), _, fuel + 1, rest, .list hxs, h, hfuel, _ => by
      obtain ⟨ts, hts, rfl⟩ := write_list h
      have hlength := length_le_intercalate ',' [' '] ts
      have hitems := readItems_write fuel rest hxs (by simp) hts (by
        simp only [List.length_cons, List.length_append, fuelFor, separator] at hfuel ⊢
        omega)
      obtain ⟨t, us, ht, -, rfl⟩ := writeItems_cons hts
      obtain ⟨c, s, rfl, hspace, hc⟩ := head_of_write (hxs x (by simp)) ht
      obtain ⟨u, hu⟩ := intercalate_head separator (c :: s) us
      rw [hu] at hitems ⊢
      simp only [List.cons_append, List.append_assoc, List.nil_append] at hitems ⊢
      exact readValue_list (skip_of_not_isSpace hspace) hc hitems
  | .dict [], _, _ + 1, _, _, h, _, _ => by
      cases h
      rfl
  | .dict ((l, v) :: es), _, fuel + 1, rest, .dict htexts hnodup hvalues, h, hfuel, _ => by
      obtain ⟨ts, hts, rfl⟩ := write_dict h
      have hlength := length_le_intercalate ',' [' '] ts
      have hentries := readEntries_write fuel [] rest htexts (by simpa using hnodup) hvalues (by simp) hts (by
        simp only [List.length_cons, List.length_append, fuelFor, separator] at hfuel ⊢
        omega)
      obtain ⟨k, hk⟩ := htexts (l, v) (by simp)
      change l = .str k at hk
      subst hk
      obtain ⟨t, us, -, -, rfl⟩ := writeEntries_cons hts
      obtain ⟨u, hu⟩ := intercalate_head separator (string style.ascii k.toList ++ ':' :: ' ' :: t) us
      rw [hu] at hentries ⊢
      simp only [string, List.cons_append, List.append_assoc, List.nil_append] at hentries ⊢
      exact readValue_dict (skip_of_not_isSpace rfl) hentries
theorem readItems_write : ∀ {xs : List Value} {ts : List (List Char)} (fuel : Nat) (rest : List Char),
    (∀ x ∈ xs, x.Legible) → xs ≠ [] → writeItems style xs = .ok ts → fuelFor ts ≤ fuel →
    readItems fuel (List.intercalate separator ts ++ ']' :: rest) = .ok (xs, rest)
  | [], _, _, _, _, hne, _, _ => absurd rfl hne
  | x :: xs, _, 0, _, _, _, h, hfuel => by
      obtain ⟨t, us, -, -, rfl⟩ := writeItems_cons h
      cases hfuel
  | [x], _, fuel + 1, rest, hxs, _, h, hfuel => by
      obtain ⟨t, us, ht, hus, rfl⟩ := writeItems_cons h
      cases hus
      have hx := readValue_write fuel (hxs x (by simp)) ht (by simp [fuelFor] at hfuel; omega)
        (ends_of_head (c := ']') (s := rest) (by decide))
      rw [List.intercalate_singleton]
      exact readItems_last hx (skip_of_not_isSpace rfl)
  | x :: y :: ys, _, fuel + 1, rest, hxs, _, h, hfuel => by
      obtain ⟨t, us, ht, hus, rfl⟩ := writeItems_cons h
      have hys := readItems_write fuel rest (fun y hy => hxs y (List.mem_cons_of_mem _ hy)) (by simp) hus (by
        simp only [fuelFor, List.flatten_cons, List.length_append, List.length_cons] at hfuel ⊢
        omega)
      obtain ⟨u, ws, hu, -, rfl⟩ := writeItems_cons hus
      have hx := readValue_write fuel (hxs x (by simp)) ht
        (by simp only [fuelFor, List.flatten_cons, List.length_append, List.length_cons] at hfuel; omega)
        (ends_of_head (c := ',') (s := ' ' :: (List.intercalate separator (u :: ws) ++ ']' :: rest)) (by decide))
      have hskip : skip (' ' :: (List.intercalate separator (u :: ws) ++ ']' :: rest)) =
          List.intercalate separator (u :: ws) ++ ']' :: rest := by
        obtain ⟨w, hw⟩ := intercalate_head separator u ws
        rw [hw, List.append_assoc]
        exact skip_write (hxs y (by simp)) hu _
      rw [intercalate_separator]
      refine readItems_more hx (skip_of_not_isSpace rfl) ?_
      rw [hskip]
      exact hys
theorem readEntries_write : ∀ {es : Entries} {ts : List (List Char)} (fuel : Nat) (gs : Entries) (rest : List Char),
    (∀ e ∈ es, ∃ k, e.1 = .str k) → ((gs ++ es).map (·.1)).Nodup → (∀ e ∈ es, e.2.Legible) → es ≠ [] →
    writeEntries style es = .ok ts → fuelFor ts ≤ fuel →
    readEntries fuel gs (List.intercalate separator ts ++ '}' :: rest) = .ok (gs ++ es, rest)
  | [], _, _, _, _, _, _, _, hne, _, _ => absurd rfl hne
  | [(l, v)], _, fuel, gs, rest, htexts, hnodup, hvalues, _, h, hfuel => by
      obtain ⟨k, hk⟩ := htexts (l, v) (by simp)
      change l = .str k at hk
      subst hk
      obtain ⟨t, us, ht, hus, rfl⟩ := writeEntries_cons h
      cases hus
      obtain ⟨fuel, rfl⟩ : ∃ n, fuel = n + 1 := ⟨fuel - 1, by simp [fuelFor] at hfuel; omega⟩
      have hv := readValue_write fuel (hvalues (.str k, v) (by simp)) ht (by simp [fuelFor] at hfuel; omega)
        (ends_of_head (c := '}') (s := rest) (by decide))
      rw [List.intercalate_singleton, List.append_assoc, List.cons_append, List.cons_append]
      rw [readEntries_last (skip_write (hvalues (.str k, v) (by simp)) ht _) hv (skip_of_not_isSpace rfl),
        Entries.put_of_not_mem v (not_mem_of_nodup hnodup)]
  | (l, v) :: e :: es, _, fuel, gs, rest, htexts, hnodup, hvalues, _, h, hfuel => by
      obtain ⟨k, hk⟩ := htexts (l, v) (by simp)
      change l = .str k at hk
      subst hk
      obtain ⟨t, us, ht, hus, rfl⟩ := writeEntries_cons h
      obtain ⟨fuel, rfl⟩ : ∃ n, fuel = n + 1 := ⟨fuel - 1, by simp [fuelFor] at hfuel; omega⟩
      have hes := readEntries_write fuel (gs ++ [(.str k, v)]) rest (fun e he => htexts e (List.mem_cons_of_mem _ he))
        (by simpa using hnodup) (fun e he => hvalues e (List.mem_cons_of_mem _ he)) (by simp) hus (by
          simp only [fuelFor, List.flatten_cons, List.length_append, List.length_cons] at hfuel ⊢
          omega)
      obtain ⟨m, w⟩ := e
      obtain ⟨l, hl⟩ := htexts (m, w) (by simp)
      change m = .str l at hl
      subst hl
      obtain ⟨u, ws, -, -, rfl⟩ := writeEntries_cons hus
      have hv := readValue_write fuel (hvalues (.str k, v) (by simp)) ht
        (by simp only [fuelFor, List.flatten_cons, List.length_append, List.length_cons] at hfuel; omega)
        (ends_of_head (c := ',') (s := ' ' :: (List.intercalate separator
          ((string style.ascii l.toList ++ ':' :: ' ' :: u) :: ws) ++ '}' :: rest)) (by decide))
      rw [intercalate_separator, List.append_assoc, List.cons_append, List.cons_append]
      refine readEntries_more (skip_write (hvalues (.str k, v) (by simp)) ht _) hv (skip_of_not_isSpace rfl) ?_
      have hskip : skip (' ' :: (List.intercalate separator ((string style.ascii l.toList ++ ':' :: ' ' :: u) :: ws) ++
          '}' :: rest)) = List.intercalate separator ((string style.ascii l.toList ++ ':' :: ' ' :: u) :: ws) ++
            '}' :: rest := by
        obtain ⟨w', hw⟩ := intercalate_head separator (string style.ascii l.toList ++ ':' :: ' ' :: u) ws
        rw [hw, List.append_assoc]
        rfl
      rw [Entries.put_of_not_mem v (not_mem_of_nodup hnodup), hskip, hes, List.append_assoc]
      rfl
end

theorem read_write (hv : v.Legible) (h : write style v = .ok t) : read t = .ok v := by
  have hskip := skip_write hv h []
  have hends : Ends [] := by simp [Ends]
  have hvalue := readValue_write (2 * t.length + 2) hv h (by omega) hends
  rw [List.append_nil] at hskip hvalue
  rw [read, hskip, hvalue]
  rfl

end Json

end BotApi
