import BotApi.Text.Blank
import BotApi.Text.Rewrite
import Mathlib.Data.List.TakeWhile
/-!
Splitting texts: what is before a mark, after it, and between marks or blanks. Rewriting them piece by piece: a match
is replaced as a whole, and pieces that no match crosses are rewritten each on its own.
-/

namespace BotApi.Text

theorem takeWhile_append_stop {p : Char → Bool} {c : Char} (hc : p c = false) (s b : List Char) :
    (s ++ c :: b).takeWhile p = s.takeWhile p := by
  rw [List.takeWhile_append, List.takeWhile_cons_of_neg (by simp [hc]), List.append_nil]
  split
  next h => exact ((List.takeWhile_sublist p).eq_of_length h).symm
  next => rfl

theorem dropStart?_append_stop {p : List Char} {c : Char} (hc : c ∉ p) (s b : List Char) :
    dropStart? p (s ++ c :: b) = (dropStart? p s).map (· ++ c :: b) := by
  induction p generalizing s with
  | nil => rfl
  | cons a p ih =>
      simp only [List.mem_cons, not_or] at hc
      cases s with
      | nil => simp [dropStart?, Ne.symm hc.1]
      | cons d s =>
          simp only [List.cons_append, dropStart?]
          split
          · exact ih hc.2 s
          · rfl

theorem dropStart?_append (p s : List Char) : dropStart? p (p ++ s) = some s := by
  induction p with
  | nil => rfl
  | cons a p ih => rw [List.cons_append, dropStart?, if_pos rfl, ih]

theorem eq_append_of_dropStart? {p s rest : List Char} (h : dropStart? p s = some rest) : s = p ++ rest := by
  induction p generalizing s with
  | nil =>
      cases h
      rfl
  | cons a p ih =>
      cases s with
      | nil => cases h
      | cons c s =>
          rw [dropStart?] at h
          split at h
          next hc => rw [hc, ih h, List.cons_append]
          next => cases h

theorem eq_append_of_splitFirst? {needle s before after : List Char}
    (h : splitFirst? needle s = some (before, after)) : s = before ++ needle ++ after := by
  induction s generalizing before with
  | nil =>
      rw [splitFirst?] at h
      split at h
      next hempty =>
          cases h
          simpa using hempty
      next => cases h
  | cons c s ih =>
      rw [splitFirst?] at h
      cases hd : dropStart? needle (c :: s) with
      | some rest =>
          rw [hd] at h
          cases h
          exact eq_append_of_dropStart? hd
      | none =>
          rw [hd] at h
          obtain ⟨⟨a, b⟩, hab, heq⟩ := Option.map_eq_some_iff.1 h
          cases heq
          rw [ih hab]
          rfl

theorem splitFirst?_append {c : Char} {s : List Char} (hc : c ∉ s) (rest : List Char) :
    splitFirst? [c] (s ++ c :: rest) = some (s, rest) := by
  induction s with
  | nil => simp [splitFirst?, dropStart?]
  | cons d s ih =>
      rw [List.mem_cons, not_or] at hc
      rw [List.cons_append, splitFirst?, dropStart?, if_neg hc.1, ih hc.2]
      rfl

theorem pieces_of_not_mem {sep : Char} {s : List Char} (h : sep ∉ s) : pieces sep s = [s] := by
  induction s with
  | nil => rfl
  | cons c s ih =>
      rw [List.mem_cons, not_or] at h
      rw [pieces, if_neg (Ne.symm h.1), ih h.2]

theorem pieces_append {sep : Char} {s : List Char} (h : sep ∉ s) (rest : List Char) :
    pieces sep (s ++ sep :: rest) = s :: pieces sep rest := by
  induction s with
  | nil => rw [List.nil_append, pieces, if_pos rfl]
  | cons c s ih =>
      rw [List.mem_cons, not_or] at h
      rw [List.cons_append, pieces, if_neg (Ne.symm h.1), ih h.2]

theorem pieces_join {sep : Char} {ps : List (List Char)} (hne : ps ≠ []) (h : ∀ p ∈ ps, sep ∉ p) :
    pieces sep (join [sep] ps) = ps := by
  induction ps with
  | nil => exact absurd rfl hne
  | cons p ps ih =>
      cases ps with
      | nil => exact pieces_of_not_mem (h p (by simp))
      | cons q ps =>
          rw [join, List.append_assoc, List.singleton_append, pieces_append (h p (by simp)),
            ih (by simp) fun r hr => h r (List.mem_cons_of_mem _ hr)]

/-! Words -/

theorem runsFrom_append {p : Char → Bool} {c : Char} (hc : p c = true) (run s t : List Char) :
    runsFrom p run (s ++ c :: t) = runsFrom p run s ++ runsFrom p [] t := by
  induction s generalizing run with
  | nil =>
      rw [List.nil_append, runsFrom, runsFrom, if_pos hc]
      split <;> rfl
  | cons d s ih =>
      rw [List.cons_append, runsFrom, runsFrom]
      split
      · split
        · exact ih []
        · rw [ih, List.cons_append]
      · exact ih (d :: run)

theorem runsFrom_of_none {p : Char → Bool} {s : List Char} (h : ∀ c ∈ s, p c = false) {run : List Char}
    (hne : run ≠ [] ∨ s ≠ []) : runsFrom p run s = [run.reverse ++ s] := by
  induction s generalizing run with
  | nil =>
      have hrun : run.isEmpty = false := by simpa using hne
      rw [runsFrom, hrun, List.append_nil]
      rfl
  | cons c s ih =>
      rw [List.forall_mem_cons] at h
      rw [runsFrom, h.1, if_neg (by decide), ih h.2 (.inl (by simp)), List.reverse_cons, List.append_assoc]
      rfl

theorem words_append {c : Char} (hc : isBlank c = true) (s t : List Char) :
    words (s ++ c :: t) = words s ++ words t := runsFrom_append hc [] s t

theorem words_of_unbroken {w : List Char} (hne : w ≠ []) (h : ∀ c ∈ w, isBlank c = false) : words w = [w] :=
  runsFrom_of_none h (.inr hne)

section Rewrite

variable {match? : List Char → Option Match} {plain : Char → List Char}

theorem rewriteFrom_length (match? : List Char → Option Match) (plain : Char → List Char) (s b : List Char) :
    rewriteFrom match? plain s.length (s ++ b) = rewriteFrom match? plain 0 b := by
  induction s with
  | nil => rfl
  | cons c s ih =>
      rw [List.length_cons, List.cons_append, rewriteFrom]
      exact ih

theorem rewriteFrom_append {b : List Char} (hsame : ∀ s, s ≠ [] → match? (s ++ b) = match? s)
    (hwithin : ∀ s m, match? s = some m → m.length ≤ s.length) {n : Nat} {s : List Char} (hn : n ≤ s.length) :
    rewriteFrom match? plain n (s ++ b) = rewriteFrom match? plain n s ++ rewriteFrom match? plain 0 b := by
  induction s generalizing n with
  | nil =>
      obtain rfl : n = 0 := by simpa using hn
      simp [rewriteFrom]
  | cons c s ih =>
      cases n with
      | succ n =>
          rw [List.cons_append, rewriteFrom, rewriteFrom]
          exact ih (by simpa using hn)
      | zero =>
          have hmatch := hsame (c :: s) (by simp)
          rw [List.cons_append] at hmatch ⊢
          rw [rewriteFrom, rewriteFrom, hmatch]
          cases hm : match? (c :: s) with
          | none =>
              dsimp only
              rw [ih (Nat.zero_le _), List.append_assoc]
          | some m =>
              have hlength := hwithin _ m hm
              dsimp only
              rw [ih (by simp only [List.length_cons] at hlength; omega), List.append_assoc]

theorem rewrite_match {c : Char} {w s r : List Char}
    (h : match? (c :: (w ++ s)) = some ⟨r, (c :: w).length⟩) :
    rewrite match? plain (c :: (w ++ s)) = r ++ rewrite match? plain s := by
  rw [rewrite, rewriteFrom, h]
  dsimp only
  rw [List.length_cons, Nat.add_sub_cancel, rewriteFrom_length, rewrite]

theorem rewrite_plain {p : List Char} (h : ∀ c ∈ p, ∀ t, match? (c :: t) = none) (s : List Char) :
    rewrite match? plain (p ++ s) = p.flatMap plain ++ rewrite match? plain s := by
  induction p with
  | nil => rfl
  | cons c p ih =>
      rw [List.forall_mem_cons] at h
      rw [List.cons_append, rewrite, rewriteFrom, h.1, List.flatMap_cons, List.append_assoc, ← ih h.2, rewrite]

end Rewrite

end BotApi.Text
