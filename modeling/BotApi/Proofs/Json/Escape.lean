import BotApi.Json.Reader
import BotApi.Json.Writer
/-!
The characters of written documents: every escape in them stands for a character, and no line ends in
a carriage return.
-/

namespace BotApi.Json

open Text (hexDigit hexDigits hexValue?)

theorem hexValue?_hexDigit : ∀ {n : Nat}, n < 16 → hexValue? (hexDigit n) = some n := by
  decide

theorem hex4?_hexDigits {n : Nat} (h : n < 65536) (s : List Char) :
    hex4? (hexDigits n 4 ++ s) = some (n, s) := by
  have h₁ := hexValue?_hexDigit (n := n / 16 / 16 / 16 % 16) (by omega)
  have h₂ := hexValue?_hexDigit (n := n / 16 / 16 % 16) (by omega)
  have h₃ := hexValue?_hexDigit (n := n / 16 % 16) (by omega)
  have h₄ := hexValue?_hexDigit (n := n % 16) (by omega)
  have hcode : ((n / 16 / 16 / 16 % 16 * 16 + n / 16 / 16 % 16) * 16 + n / 16 % 16) * 16 + n % 16 = n := by
    omega
  simp [hexDigits, hex4?, h₁, h₂, h₃, h₄, hcode]

structure Textual (P : List Char → Prop) : Prop where
  nil : P []
  append : ∀ {s t}, P s → P t → P (s ++ t)
  plain : ∀ {c}, c ≠ '\\' → c ≠ '\r' → P [c]
  escaped : ∀ c, P (escapeChar false c)

namespace Textual

variable {P : List Char → Prop}

theorem cons (h : Textual P) {c : Char} {s : List Char} (hescape : c ≠ '\\') (hreturn : c ≠ '\r')
    (hs : P s) : P (c :: s) :=
  h.append (h.plain hescape hreturn) hs

theorem replicate (h : Textual P) {c : Char} (hescape : c ≠ '\\') (hreturn : c ≠ '\r') (n : Nat) :
    P (List.replicate n c) := by
  induction n with
  | zero => exact h.nil
  | succ n ih => exact h.cons hescape hreturn ih

theorem newline (h : Textual P) (depth : Nat) : P (newline depth) :=
  h.cons (by decide) (by decide) (h.replicate (by decide) (by decide) _)

theorem text (h : Textual P) (s : List Char) : P (s.flatMap (escapeChar false)) := by
  induction s with
  | nil => exact h.nil
  | cons c s ih =>
      rw [List.flatMap_cons]
      exact h.append (h.escaped c) ih

theorem string (h : Textual P) (s : List Char) : P (string false s) :=
  h.cons (by decide) (by decide) (h.append (h.text s) (h.plain (by decide) (by decide)))

theorem intercalate (h : Textual P) {sep : List Char} {items : List (List Char)} (hsep : P sep)
    (hitems : ∀ s ∈ items, P s) : P (List.intercalate sep items) := by
  induction items with
  | nil => exact h.nil
  | cons item items ih =>
      cases items with
      | nil =>
          rw [List.intercalate_singleton]
          exact hitems item (by simp)
      | cons next items =>
          rw [List.intercalate_cons_cons]
          have hnext := ih fun s hs => hitems s (by simp [hs])
          exact h.append (h.append (hitems item (by simp)) hsep) hnext

theorem block (h : Textual P) {left right : Char} {items : List (List Char)} (hleft : P [left])
    (hright : P [right]) (depth : Nat) (hitems : ∀ s ∈ items, P s) :
    P (block left right depth items) := by
  unfold Json.block
  split
  · exact h.append hleft hright
  · have hsep : P (',' :: Json.newline (depth + 1)) :=
      h.cons (by decide) (by decide) (h.newline _)
    exact h.append (h.append (h.append (h.append hleft (h.newline _))
      (h.intercalate hsep hitems)) (h.newline depth)) hright

mutual
theorem render (h : Textual P) : ∀ (d : Doc) (depth : Nat), P (d.render depth)
  | .null, _ => h.cons (by decide) (by decide) <| h.cons (by decide) (by decide) <|
      h.cons (by decide) (by decide) <| h.plain (by decide) (by decide)
  | .bool true, _ => h.cons (by decide) (by decide) <| h.cons (by decide) (by decide) <|
      h.cons (by decide) (by decide) <| h.plain (by decide) (by decide)
  | .bool false, _ => h.cons (by decide) (by decide) <| h.cons (by decide) (by decide) <|
      h.cons (by decide) (by decide) <| h.cons (by decide) (by decide) <|
        h.plain (by decide) (by decide)
  | .str s, _ => h.string s.toList
  | .list xs, depth => h.block (h.plain (by decide) (by decide)) (h.plain (by decide) (by decide))
      depth (renderItems h xs (depth + 1))
  | .record fs, depth => h.block (h.plain (by decide) (by decide)) (h.plain (by decide) (by decide))
      depth (renderFields h fs (depth + 1))
theorem renderItems (h : Textual P) : ∀ (xs : List Doc) (depth : Nat),
    ∀ s ∈ Doc.renderItems depth xs, P s
  | [], _, s, hs => by cases hs
  | x :: xs, depth, s, hs => by
      rcases List.mem_cons.1 hs with rfl | hs
      · exact render h x depth
      · exact renderItems h xs depth s hs
theorem renderFields (h : Textual P) : ∀ (fs : List (String × Doc)) (depth : Nat),
    ∀ s ∈ Doc.renderFields depth fs, P s
  | [], _, s, hs => by cases hs
  | (k, d) :: fs, depth, s, hs => by
      rcases List.mem_cons.1 hs with rfl | hs
      · exact h.append (h.string k.toList)
          (h.cons (by decide) (by decide) (h.cons (by decide) (by decide) (render h d depth)))
      · exact renderFields h fs depth s hs
end

end Textual

theorem escapeChar_cases {P : List Char → Prop} (short : ∀ {c}, c ≠ 'u' → c ≠ '\r' → P ['\\', c])
    (code : ∀ {n}, n < 0x20 → P (codeEscape n)) (plain : ∀ {c}, c ≠ '\\' → c ≠ '\r' → P [c])
    (c : Char) : P (escapeChar false c) := by
  unfold escapeChar
  split
  · exact short (by decide) (by decide)
  · exact short (by decide) (by decide)
  · exact short (by decide) (by decide)
  · exact short (by decide) (by decide)
  · exact short (by decide) (by decide)
  · exact short (by decide) (by decide)
  · exact short (by decide) (by decide)
  · rename_i _ hescape _ hreturn _ _ _
    split
    · rename_i hcontrol
      exact code hcontrol
    · exact plain hescape hreturn

theorem textual_noReturn : Textual (∀ c ∈ ·, c ≠ '\r') where
  nil := by simp
  append hs ht := by
    intro c hc
    rcases List.mem_append.1 hc with hc | hc
    · exact hs c hc
    · exact ht c hc
  plain _ hreturn := by simpa using hreturn
  escaped c := by
    refine escapeChar_cases (P := (∀ c ∈ ·, c ≠ '\r')) (fun _ hreturn => by simpa using hreturn)
      (fun {n} hn => ?_) (fun _ hreturn => by simpa using hreturn) c
    have hcode : ∀ m < 0x20, (codeEscape m).all (· != '\r') = true := by decide
    simpa using hcode n hn

theorem hasLoneEscape_codeEscape {n : Nat} (hn : n < 0x20) (t : List Char) :
    hasLoneEscape (codeEscape n ++ t) = hasLoneEscape t := by
  have hread := hex4?_hexDigits (n := n) (by omega) []
  have hhigh : Text.isHighSurrogate n = false := by
    simp only [Text.isHighSurrogate, Bool.and_eq_false_iff, decide_eq_false_iff_not]
    omega
  have hlow : Text.isLowSurrogate n = false := by
    simp only [Text.isLowSurrogate, Bool.and_eq_false_iff, decide_eq_false_iff_not]
    omega
  simp only [codeEscape, hexDigits, List.nil_append, List.cons_append, List.append_nil] at hread ⊢
  conv =>
    lhs
    unfold hasLoneEscape
  simp [hread, hhigh, hlow]

theorem textual_hasLoneEscape :
    Textual fun s => ∀ t, hasLoneEscape (s ++ t) = hasLoneEscape t where
  nil _ := rfl
  append hs ht u := by rw [List.append_assoc, hs, ht]
  plain hescape _ t := by
    rw [List.singleton_append, hasLoneEscape]
    · exact fun _ h => absurd h hescape
    · exact fun _ _ h => absurd h hescape
  escaped c := by
    refine escapeChar_cases (P := fun s => ∀ t, hasLoneEscape (s ++ t) = hasLoneEscape t)
      (fun hu _ t => ?_) (fun {n} hn t => ?_) (fun hescape _ t => ?_) c
    · rw [List.cons_append, List.singleton_append, hasLoneEscape]
      exact hu
    · exact hasLoneEscape_codeEscape hn t
    · rw [List.singleton_append, hasLoneEscape]
      · exact fun _ h => absurd h hescape
      · exact fun _ _ h => absurd h hescape

theorem hasLoneEscape_render (d : Doc) (depth : Nat) (s : List Char) :
    hasLoneEscape (d.render depth ++ s) = hasLoneEscape s :=
  textual_hasLoneEscape.render d depth s

end BotApi.Json
