import BotApi.Markdown
import BotApi.Proofs.Text.Split
import Mathlib.Algebra.Ring.Parity
import Mathlib.Data.List.DropRight
/-!
How a messenger reads marked-up text: a backslash makes the ASCII character after it literal, and any
other special character starts or ends markup. Escaped text is read as the text it was made from as
long as no backslash of that text stands before an ASCII character, and a special character of the
text gets through as markup exactly when it stands after an odd run of backslashes.

Texts made of plain pieces and inline links: the address of a link is read as far as the last closing
parenthesis before a blank, so links are kept one by one exactly when no closing parenthesis stands between
a link and the next blank, and otherwise the first link with one behind it takes in all up to the last one.
-/

namespace BotApi.Markdown

inductive Token where
  | literal (c : Char)
  | mark (c : Char)
  deriving Repr, DecidableEq

def Ascii (c : Char) : Prop := c.toNat < 128

instance (c : Char) : Decidable (Ascii c) := inferInstanceAs (Decidable (c.toNat < 128))

def read : List Char → List Token
  | [] => []
  | ['\\'] => [.literal '\\']
  | '\\' :: c :: s =>
      if Ascii c then .literal c :: read s else .literal '\\' :: .literal c :: read s
  | c :: s => (if isSpecial c then .mark c else .literal c) :: read s

theorem ascii_of_isSpecial {c : Char} (h : isSpecial c = true) : Ascii c := by
  have hall : special.all (decide <| Ascii ·) = true := by decide +kernel
  exact of_decide_eq_true (List.all_eq_true.1 hall c (List.contains_iff_mem.1 h))

theorem not_isSpecial_of_not_ascii {c : Char} (h : ¬ Ascii c) : isSpecial c = false := by
  rw [Bool.eq_false_iff]
  exact mt ascii_of_isSpecial h

theorem isSpecial_backslash : isSpecial '\\' = false := by decide

theorem ne_backslash_of_isSpecial {c : Char} (h : isSpecial c = true) : c ≠ '\\' := by
  rintro rfl
  exact absurd (isSpecial_backslash.symm.trans h) (by decide)

theorem ne_backslash_of_not_ascii {c : Char} (h : ¬ Ascii c) : c ≠ '\\' := by
  rintro rfl
  exact h (by decide)

theorem read_cons {c : Char} (hc : c ≠ '\\') (s : List Char) :
    read (c :: s) = (if isSpecial c then .mark c else .literal c) :: read s := by
  rw [read]
  · rintro rfl
    exact absurd rfl hc
  · rintro d t rfl
    exact absurd rfl hc

theorem escapeText_special {c : Char} (hc : isSpecial c = true) (s : List Char) :
    escapeText (c :: s) = '\\' :: c :: escapeText s := by
  simp [escapeText, Text.escapeChars, hc]

theorem escapeText_plain {c : Char} (hc : isSpecial c = false) (s : List Char) :
    escapeText (c :: s) = c :: escapeText s := by
  simp [escapeText, Text.escapeChars, hc]

-- How each beginning of a text comes through. The backslash that escaping adds makes the character
-- after it literal, unless a backslash of the text has already made the added one literal.
theorem read_escapeText_cons {c : Char} (hc : c ≠ '\\') (s : List Char) :
    read (escapeText (c :: s)) = .literal c :: read (escapeText s) := by
  by_cases hspecial : isSpecial c = true
  · rw [escapeText_special hspecial, read, if_pos (ascii_of_isSpecial hspecial)]
  · rw [escapeText_plain (by simpa using hspecial), read_cons hc, if_neg hspecial]

theorem read_escapeText_special {c : Char} (hc : isSpecial c = true) (s : List Char) :
    read (escapeText ('\\' :: c :: s)) = .literal '\\' :: .mark c :: read (escapeText s) := by
  rw [escapeText_plain isSpecial_backslash, escapeText_special hc, read, if_pos (by decide),
    read_cons (ne_backslash_of_isSpecial hc), if_pos hc]

theorem read_escapeText_ascii {c : Char} (hspecial : isSpecial c = false) (hc : Ascii c) (s : List Char) :
    read (escapeText ('\\' :: c :: s)) = .literal c :: read (escapeText s) := by
  rw [escapeText_plain isSpecial_backslash, escapeText_plain hspecial, read, if_pos hc]

theorem read_escapeText_other {c : Char} (hc : ¬ Ascii c) (s : List Char) :
    read (escapeText ('\\' :: c :: s)) = .literal '\\' :: .literal c :: read (escapeText s) := by
  rw [escapeText_plain isSpecial_backslash, escapeText_plain (not_isSpecial_of_not_ascii hc), read,
    if_neg hc]

theorem text_induction {P : List Char → Prop} (nil : P []) (last : P ['\\'])
    (special : ∀ {c s}, isSpecial c = true → P s → P ('\\' :: c :: s))
    (ascii : ∀ {c s}, isSpecial c = false → Ascii c → P s → P ('\\' :: c :: s))
    (other : ∀ {c s}, ¬ Ascii c → P s → P ('\\' :: c :: s))
    (cons : ∀ {c s}, c ≠ '\\' → P s → P (c :: s)) (t : List Char) : P t := by
  induction t using read.induct with
  | case1 => exact nil
  | case2 => exact last
  | case3 c s hc ih =>
      cases hspecial : isSpecial c with
      | true => exact special hspecial ih
      | false => exact ascii hspecial hc ih
  | case4 c s hc ih => exact other hc ih
  | case5 c s hlast hpair ih =>
      refine cons ?_ ih
      rintro rfl
      cases s with
      | nil => exact hlast rfl rfl
      | cons d s => exact hpair d s rfl rfl

theorem length_read_escapeText_le (t : List Char) : (read (escapeText t)).length ≤ t.length := by
  induction t using text_induction with
  | nil => exact Nat.le_refl _
  | last => exact Nat.le_refl _
  | special hc ih =>
      rw [read_escapeText_special hc]
      exact Nat.succ_le_succ (Nat.succ_le_succ ih)
  | ascii hspecial hc ih =>
      rw [read_escapeText_ascii hspecial hc]
      exact Nat.le_succ_of_le (Nat.succ_le_succ ih)
  | other hc ih =>
      rw [read_escapeText_other hc]
      exact Nat.succ_le_succ (Nat.succ_le_succ ih)
  | cons hc ih =>
      rw [read_escapeText_cons hc]
      exact Nat.succ_le_succ ih

def Slashed (t : List Char) : Prop := ∃ before c after, t = before ++ '\\' :: c :: after ∧ Ascii c

theorem not_slashed_nil : ¬ Slashed [] := by
  rintro ⟨before, c, after, h, -⟩
  cases before <;> cases h

theorem not_slashed_singleton (c : Char) : ¬ Slashed [c] := by
  rintro ⟨_ | ⟨d, _ | _⟩, e, after, h, -⟩ <;> cases h

theorem slashed_cons {c : Char} (hc : c ≠ '\\') {s : List Char} : Slashed (c :: s) ↔ Slashed s := by
  constructor
  · rintro ⟨_ | ⟨d, before⟩, e, after, h, he⟩
    · cases h
      exact absurd rfl hc
    · obtain ⟨-, h⟩ := List.cons.inj h
      exact ⟨before, e, after, h, he⟩
  · rintro ⟨before, e, after, rfl, he⟩
    exact ⟨c :: before, e, after, rfl, he⟩

theorem slashed_backslash {c : Char} {s : List Char} :
    Slashed ('\\' :: c :: s) ↔ Ascii c ∨ Slashed (c :: s) := by
  constructor
  · rintro ⟨_ | ⟨d, before⟩, e, after, h, he⟩
    · cases h
      exact .inl he
    · obtain ⟨-, h⟩ := List.cons.inj h
      exact .inr ⟨before, e, after, h, he⟩
  · rintro (hc | ⟨before, e, after, h, he⟩)
    · exact ⟨[], c, s, rfl, hc⟩
    · exact ⟨'\\' :: before, e, after, by rw [h, List.cons_append], he⟩

-- The reading has at most one token for each character, so one lost before the rest can never be
-- made up for.
theorem literal_cons_ne {c : Char} {s : List Char} :
    .literal c :: read (escapeText s) ≠ ('\\' :: c :: s).map Token.literal := by
  intro h
  have hlength := congrArg List.length h
  have hle := length_read_escapeText_le s
  simp only [List.length_cons, List.length_map] at hlength
  omega

theorem read_escapeText_faithful (t : List Char) :
    read (escapeText t) = t.map .literal ↔ ¬ Slashed t := by
  induction t using text_induction with
  | nil => exact iff_of_true rfl not_slashed_nil
  | last => exact iff_of_true rfl (not_slashed_singleton _)
  | @special c s hc ih =>
      rw [read_escapeText_special hc]
      refine iff_of_false ?_ (not_not_intro (slashed_backslash.2 (.inl (ascii_of_isSpecial hc))))
      simp
  | ascii hspecial hc ih =>
      rw [read_escapeText_ascii hspecial hc]
      exact iff_of_false literal_cons_ne (not_not_intro (slashed_backslash.2 (.inl hc)))
  | other hc ih =>
      rw [read_escapeText_other hc, slashed_backslash, slashed_cons (ne_backslash_of_not_ascii hc)]
      simp [ih, hc]
  | cons hc ih =>
      rw [read_escapeText_cons hc, slashed_cons hc]
      simp [ih]

def run (t : List Char) : Nat := (t.rtakeWhile (· = '\\')).length

theorem run_concat (c : Char) (t : List Char) : run (t ++ [c]) = if c = '\\' then run t + 1 else 0 := by
  unfold run
  split
  next h => rw [List.rtakeWhile_concat_pos _ _ _ (by simpa using h), List.length_append, List.length_singleton]
  next h => rw [List.rtakeWhile_concat_neg _ _ _ (by simpa using h), List.length_nil]

theorem run_append (s t : List Char) : run (s ++ t) = if run t = t.length then run s + run t else run t := by
  induction t using List.reverseRecOn with
  | nil => simp [run]
  | append_singleton t c ih =>
      rw [← List.append_assoc, run_concat, run_concat, ih, List.length_append, List.length_singleton]
      by_cases hc : c = '\\'
      · by_cases ht : run t = t.length
        · simp [hc, ht, Nat.add_assoc]
        · simp [hc, ht]
      · simp [hc]

theorem odd_run_cons {c : Char} (hc : c ≠ '\\') (t : List Char) : Odd (run (c :: t)) ↔ Odd (run t) := by
  have hsingle : run [c] = 0 := by simpa [hc] using run_concat c []
  rw [← List.singleton_append, run_append, hsingle, Nat.zero_add, ite_self]

theorem odd_run_backslash (c : Char) (t : List Char) :
    Odd (run ('\\' :: c :: t)) ↔ Odd (run t) := by
  have hpair : Even (run ['\\', c]) := by
    rw [show ['\\', c] = ['\\'] ++ [c] from rfl, run_concat]
    split <;> decide
  rw [show '\\' :: c :: t = ['\\', c] ++ t from rfl, run_append]
  split
  · rw [Nat.odd_add', iff_true_right hpair]
  · rfl

def Exposed (c : Char) (t : List Char) : Prop :=
  isSpecial c = true ∧ ∃ before after, t = before ++ c :: after ∧ Odd (run before)

theorem not_exposed_nil (c : Char) : ¬ Exposed c [] := by
  rintro ⟨-, before, after, h, -⟩
  cases before <;> cases h

theorem not_exposed_singleton (c d : Char) : ¬ Exposed c [d] := by
  rintro ⟨-, _ | ⟨_, before⟩, after, h, hodd⟩
  · exact absurd hodd (by decide)
  · cases before <;> cases h

theorem exposed_cons {c d : Char} (hd : d ≠ '\\') {s : List Char} : Exposed c (d :: s) ↔ Exposed c s := by
  refine and_congr_right fun _ => ?_
  constructor
  · rintro ⟨_ | ⟨e, before⟩, after, h, hodd⟩
    · exact absurd hodd (by decide)
    · obtain ⟨rfl, hs⟩ := List.cons.inj h
      exact ⟨before, after, hs, (odd_run_cons hd before).1 hodd⟩
  · rintro ⟨before, after, rfl, hodd⟩
    exact ⟨d :: before, after, rfl, (odd_run_cons hd before).2 hodd⟩

theorem exposed_backslash {c d : Char} {s : List Char} :
    Exposed c ('\\' :: d :: s) ↔ (c = d ∧ isSpecial d = true) ∨ Exposed c s := by
  constructor
  · rintro ⟨hc, _ | ⟨a, _ | ⟨b, before⟩⟩, after, h, hodd⟩
    · exact absurd hodd (by decide)
    · obtain ⟨-, htail⟩ := List.cons.inj h
      obtain ⟨rfl, -⟩ := List.cons.inj htail
      exact .inl ⟨rfl, hc⟩
    · obtain ⟨-, htail⟩ := List.cons.inj h
      obtain ⟨-, hs⟩ := List.cons.inj htail
      obtain ⟨rfl, rfl⟩ : a = '\\' ∧ b = d := ⟨(List.cons.inj h).1.symm, (List.cons.inj htail).1.symm⟩
      exact .inr ⟨hc, before, after, hs, (odd_run_backslash b before).1 hodd⟩
  · rintro (⟨rfl, hc⟩ | ⟨hc, before, after, rfl, hodd⟩)
    · exact ⟨hc, ['\\'], s, rfl, by decide⟩
    · exact ⟨hc, '\\' :: d :: before, after, rfl, (odd_run_backslash d before).2 hodd⟩

theorem mark_mem_read_escapeText (c : Char) (t : List Char) :
    .mark c ∈ read (escapeText t) ↔ Exposed c t := by
  induction t using text_induction with
  | nil => exact iff_of_false (by simp [escapeText, Text.escapeChars, read]) (not_exposed_nil c)
  | last =>
      rw [show read (escapeText ['\\']) = [.literal '\\'] from rfl]
      exact iff_of_false (by simp) (not_exposed_singleton c _)
  | special hd ih =>
      rw [read_escapeText_special hd, exposed_backslash, ← ih]
      simp [hd]
  | ascii hspecial hd ih =>
      rw [read_escapeText_ascii hspecial hd, exposed_backslash, ← ih]
      simp [hspecial]
  | other hd ih =>
      rw [read_escapeText_other hd, exposed_backslash, ← ih]
      simp [not_isSpecial_of_not_ascii hd]
  | cons hd ih =>
      rw [read_escapeText_cons hd, exposed_cons hd, ← ih]
      simp

theorem read_escapeText (t : List Char) :
    (read (escapeText t) = t.map .literal ↔ ¬ Slashed t) ∧
    ∀ c, .mark c ∈ read (escapeText t) ↔ Exposed c t :=
  ⟨read_escapeText_faithful t, fun c => mark_mem_read_escapeText c t⟩

-- The backslash of the text takes the one added before the underscore as its own.
theorem read_escapeText_lost :
    read (escapeText ['\\', '_']) ≠ ['\\', '_'].map .literal ∧
    .mark '_' ∈ read (escapeText ['\\', '_']) := by
  decide

namespace Link

structure Plain (l : Link) : Prop where
  text_ne : l.text ≠ []
  text : ∀ c ∈ l.text, c ≠ '[' ∧ c ≠ ']'
  address_ne : l.address ≠ []
  address : ∀ c ∈ l.address, Text.isBlank c = false

-- Looks at the characters that are there, not at all there are.
instance (l : Link) : Decidable l.Plain :=
  decidable_of_iff (l.text ≠ [] ∧ (l.text.all fun c => c ≠ '[' && c ≠ ']') = true ∧ l.address ≠ [] ∧
      (l.address.all fun c => !Text.isBlank c) = true) <| by
    simp only [List.all_eq_true, Bool.and_eq_true, decide_eq_true_eq, Bool.not_eq_true']
    exact ⟨fun ⟨ht, htext, ha, haddress⟩ => ⟨ht, htext, ha, haddress⟩, fun h => ⟨h.1, h.2, h.3, h.4⟩⟩

-- The link as it is to be sent: its text escaped, and in its address nothing but what would end it.
def kept (l : Link) : List Char :=
  '[' :: escapeText l.text ++ ']' :: '(' ::
    (l.address.flatMap fun c => if c = ')' ∨ c = '\\' then ['\\', c] else [c]) ++ [')']

def reach (s : List Char) : List Char := s.takeWhile fun c => !Text.isBlank c

theorem written_append (l : Link) (s : List Char) :
    l.written ++ s = '[' :: (l.text ++ ']' :: '(' :: (l.address ++ ')' :: s)) := by
  simp [written]

theorem escaped_eq (l : Link) : l.escaped = l.kept := by
  simp [escaped, kept, Text.escapeChars, isAddressSpecial]

theorem match?_plain {c : Char} (hc : c ≠ '[') (s : List Char) : match? (c :: s) = none := by
  simp [match?, atHead?, hc]

theorem address?_append {a b : List Char} (ha : a ≠ []) (hb : ')' ∉ b) : address? (a ++ ')' :: b) = some a := by
  have hdrop : (a ++ ')' :: b).reverse.dropWhile (· != ')') = ')' :: a.reverse := by
    rw [List.reverse_append, List.reverse_cons, List.append_assoc, List.singleton_append,
      List.dropWhile_append_of_pos (by simpa using fun c hc => ne_of_mem_of_not_mem hc hb),
      List.dropWhile_cons_of_neg (by simp)]
  rw [address?, hdrop]
  simp [ha]

theorem reach_address {l : Link} (hl : l.Plain) (s : List Char) :
    reach (l.address ++ ')' :: s) = l.address ++ ')' :: reach s := by
  rw [reach, List.takeWhile_append_of_pos (by simpa using hl.address),
    List.takeWhile_cons_of_pos (by decide), reach]

theorem atHead?_written {l : Link} (hl : l.Plain) (s : List Char) :
    atHead? (l.written ++ s) = (address? (l.address ++ ')' :: reach s)).map (Link.mk l.text) := by
  have htext : (l.text ++ ']' :: '(' :: (l.address ++ ')' :: s)).takeWhile (· != ']') = l.text := by
    rw [Text.takeWhile_append_stop (by decide),
      List.takeWhile_eq_self_iff.2 (by simpa using fun c hc => (hl.text c hc).2)]
  have hbetween : Text.dropStart? "](".toList (']' :: '(' :: (l.address ++ ')' :: s)) =
      some (l.address ++ ')' :: s) :=
    Text.dropStart?_append "](".toList _
  rw [written_append, atHead?, htext, List.drop_left, hbetween]
  dsimp only [Option.bind_eq_bind]
  rw [List.isEmpty_eq_false_iff.2 hl.text_ne]
  change (address? (reach _)).bind _ = _
  rw [reach_address hl, Option.map_eq_bind]
  rfl

theorem rewrite_written {l : Link} (hl : l.Plain) {s : List Char} (hs : ')' ∉ reach s) :
    Text.rewrite match? escapeChar (l.written ++ s) = l.kept ++ Text.rewrite match? escapeChar s := by
  have hhead : atHead? (l.written ++ s) = some l := by
    rw [atHead?_written hl, address?_append hl.address_ne hs, Option.map_some]
  rw [← escaped_eq]
  exact Text.rewrite_match (congrArg (Option.map _) hhead)

-- Behind a link that can go on stands one more closing parenthesis that is the last before a blank.
theorem exists_last {s : List Char} (h : ')' ∈ reach s) :
    ∃ more rest, s = more ++ ')' :: rest ∧ (∀ c ∈ more, Text.isBlank c = false) ∧ ')' ∉ reach rest := by
  induction s with
  | nil => cases h
  | cons c s ih =>
      cases hc : Text.isBlank c with
      | true => simp [reach, hc] at h
      | false =>
          have hreach : reach (c :: s) = c :: reach s := by simp [reach, hc]
          by_cases hs : ')' ∈ reach s
          · obtain ⟨more, rest, rfl, hmore, hrest⟩ := ih hs
            exact ⟨c :: more, rest, rfl, List.forall_mem_cons.2 ⟨hc, hmore⟩, hrest⟩
          · rw [hreach] at h
            obtain rfl : ')' = c := (List.mem_cons.1 h).resolve_right hs
            exact ⟨[], s, rfl, by simp, hs⟩

def stretch (l : Link) (more : List Char) : Link := ⟨l.text, l.address ++ ')' :: more⟩

theorem Plain.stretch {l : Link} (hl : l.Plain) {more : List Char} (hmore : ∀ c ∈ more, Text.isBlank c = false) :
    (l.stretch more).Plain where
  text_ne := hl.text_ne
  text := hl.text
  address_ne := by simp [Link.stretch]
  address := by
    intro c hc
    rcases List.mem_append.1 hc with hc | hc
    · exact hl.address c hc
    · rcases List.mem_cons.1 hc with rfl | hc
      · decide
      · exact hmore c hc

theorem written_stretch (l : Link) (more rest : List Char) :
    (l.stretch more).written ++ rest = l.written ++ (more ++ ')' :: rest) := by
  simp [written, stretch]

theorem kept_stretch_ne (l : Link) (more s t : List Char) : (l.stretch more).kept ++ s ≠ l.kept ++ t := by
  simp [kept, stretch]

theorem rewrite_written_iff {l : Link} (hl : l.Plain) (s t : List Char) :
    Text.rewrite match? escapeChar (l.written ++ s) = l.kept ++ t ↔
      ')' ∉ reach s ∧ Text.rewrite match? escapeChar s = t := by
  by_cases hs : ')' ∈ reach s
  · obtain ⟨more, rest, rfl, hmore, hrest⟩ := exists_last hs
    rw [← written_stretch, rewrite_written (hl.stretch hmore) hrest]
    exact iff_of_false (kept_stretch_ne l more _ t) fun h => h.1 hs
  · rw [rewrite_written hl hs, List.append_cancel_left_eq]
    exact (and_iff_right hs).symm

end Link

theorem isSpecial_of_isBlank {c : Char} (h : Text.isBlank c = true) : isSpecial c = false := by
  have hall : special.all (fun d => !Text.isBlank d) = true := by decide +kernel
  by_contra hspecial
  have hmem : c ∈ special := List.contains_iff_mem.1 (by simpa [isSpecial] using hspecial)
  simpa [h] using List.all_eq_true.1 hall c hmem

theorem escapeText_blank {s : List Char} (h : ∀ c ∈ s, Text.isBlank c = true) : escapeText s = s := by
  induction s with
  | nil => rfl
  | cons c s ih =>
      rw [List.forall_mem_cons] at h
      rw [escapeText_plain (isSpecial_of_isBlank h.1), ih h.2]

theorem rewrite_plain {p : List Char} (hp : '[' ∉ p) (s : List Char) :
    Text.rewrite Link.match? escapeChar (p ++ s) = escapeText p ++ Text.rewrite Link.match? escapeChar s :=
  Text.rewrite_plain (fun _ hc => Link.match?_plain (ne_of_mem_of_not_mem hc hp)) s

theorem rewrite_eq_escapeText {p : List Char} (hp : '[' ∉ p) : Text.rewrite Link.match? escapeChar p = escapeText p := by
  simpa [Text.rewrite, Text.rewriteFrom] using rewrite_plain hp []

theorem escape_eq (s : List Char) : escape s = Text.rewrite Link.match? escapeChar s := by
  unfold escape
  split
  next hblank =>
      rw [List.all_eq_true] at hblank
      have hopen : '[' ∉ s := fun h => absurd (hblank _ h) (by decide)
      rw [rewrite_eq_escapeText hopen, escapeText_blank hblank]
  next => rfl

abbrev Passage := List (Link × List Char)

namespace Passage

def written (ps : Passage) : List Char := ps.flatMap fun x => x.1.written ++ x.2

def kept (ps : Passage) : List Char := ps.flatMap fun x => x.1.kept ++ escapeText x.2

-- Behind each link a blank comes before any closing parenthesis.
def Spaced : Passage → Prop
  | [] => True
  | (_, p) :: ps => ')' ∉ Link.reach (p ++ written ps) ∧ Spaced ps

theorem rewrite_written {ps : Passage} (hps : ∀ x ∈ ps, x.1.Plain ∧ '[' ∉ x.2) :
    Text.rewrite Link.match? escapeChar ps.written = ps.kept ↔ ps.Spaced := by
  induction ps with
  | nil => exact iff_of_true rfl trivial
  | cons x ps ih =>
      obtain ⟨l, p⟩ := x
      obtain ⟨⟨hl, hp⟩, hps⟩ := List.forall_mem_cons.1 hps
      have hwritten : written ((l, p) :: ps) = l.written ++ (p ++ written ps) := by simp [written]
      have hkept : kept ((l, p) :: ps) = l.kept ++ (escapeText p ++ kept ps) := by simp [kept]
      rw [hwritten, hkept, Link.rewrite_written_iff hl, rewrite_plain hp, List.append_cancel_left_eq, ih hps]
      rfl

end Passage

theorem links_kept {p : List Char} {ps : Passage} (hp : '[' ∉ p) (hps : ∀ x ∈ ps, x.1.Plain ∧ '[' ∉ x.2) :
    escape (p ++ ps.written) = escapeText p ++ ps.kept ↔ ps.Spaced := by
  rw [escape_eq, rewrite_plain hp, List.append_cancel_left_eq]
  exact Passage.rewrite_written hps

namespace Passage

def spaced : Passage :=
  [(⟨"the docs".toList, "https://core.telegram.org/bots/api".toList⟩, ", or ".toList),
    (⟨"v1.0".toList, "http://example.com/a_(b)".toList⟩, ".".toList)]

def touching : Passage := [(⟨['a'], ['b']⟩, []), (⟨['c'], ['d']⟩, [])]

end Passage

theorem spaced_links_kept :
    '[' ∉ "See ".toList ∧ (∀ x ∈ Passage.spaced, x.1.Plain ∧ '[' ∉ x.2) ∧ Passage.spaced.Spaced ∧
    escape ("See ".toList ++ Passage.spaced.written) =
      "See [the docs](https://core.telegram.org/bots/api), or [v1\\.0](http://example.com/a_(b\\))\\.".toList := by
  have hstart : '[' ∉ "See ".toList := by decide +kernel
  have hplain : ∀ x ∈ Passage.spaced, x.1.Plain ∧ '[' ∉ x.2 := by decide +kernel
  have hspaced : Passage.spaced.Spaced := ⟨by decide +kernel, by decide +kernel, trivial⟩
  refine ⟨hstart, hplain, hspaced, ?_⟩
  rw [(links_kept hstart hplain).2 hspaced]
  decide +kernel

-- The first of two links that touch takes in the second.
theorem touching_links_joined :
    (∀ x ∈ Passage.touching, x.1.Plain ∧ '[' ∉ x.2) ∧
    (∀ x ∈ Passage.touching, '(' ∉ x.1.address ∧ ')' ∉ x.1.address) ∧
    escape Passage.touching.written ≠ Passage.touching.kept ∧
    escape Passage.touching.written = "[a](b\\)[c](d)".toList := by
  exact ⟨by decide, by decide, by decide +kernel, by decide +kernel⟩

end BotApi.Markdown
