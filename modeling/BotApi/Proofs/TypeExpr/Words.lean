import BotApi.Page.TypeCell
import Mathlib.Data.List.Induction
import Mathlib.Data.List.Nodup
/-!
Which words of a description name types. An array word counts as a layer only in front of all the others,
and behind one of them it is read as the name of a type.
-/

namespace BotApi

namespace TypeExpr

theorem distinct_concat {α : Type} [DecidableEq α] (xs : List α) (x : α) :
    distinct (xs ++ [x]) = if x ∈ distinct xs then distinct xs else distinct xs ++ [x] := by
  rw [distinct, List.foldl_append]
  rfl

theorem mem_distinct {α : Type} [DecidableEq α] {xs : List α} {x : α} : x ∈ distinct xs ↔ x ∈ xs := by
  induction xs using List.reverseRecOn with
  | nil => simp [distinct]
  | append_singleton xs y ih =>
      rw [distinct_concat, List.mem_append, List.mem_singleton, ← ih]
      split
      · rename_i hy
        exact ⟨.inl, fun h => h.elim id fun h => h ▸ hy⟩
      · rw [List.mem_append, List.mem_singleton]

theorem nodup_distinct {α : Type} [DecidableEq α] (xs : List α) : (distinct xs).Nodup := by
  induction xs using List.reverseRecOn with
  | nil => exact List.nodup_nil
  | append_singleton xs x ih =>
      rw [distinct_concat]
      split
      · exact ih
      · rename_i hx
        exact List.concat_eq_append ▸ ih.concat hx

theorem distinct_of_nodup {α : Type} [DecidableEq α] {xs : List α} (h : xs.Nodup) : distinct xs = xs := by
  induction xs using List.reverseRecOn with
  | nil => rfl
  | append_singleton xs x ih =>
      obtain ⟨hxs, -, hx⟩ := List.nodup_append.1 h
      rw [distinct_concat, ih hxs, if_neg fun hmem => hx x hmem x (by simp) rfl]

theorem nest_array (n : Nat) (e : TypeExpr) : nest n (.array e) = .array (nest n e) := by
  induction n generalizing e with
  | zero => rfl
  | succ n ih => exact ih (.array e)

theorem leaves_nest (n : Nat) (e : TypeExpr) : (nest n e).leaves = e.leaves := by
  induction n generalizing e with
  | zero => rfl
  | succ n ih => exact ih (.array e)

theorem ofLeaves?_eq_none {es : List TypeExpr} : ofLeaves? es = none ↔ es = [] := by
  match es with
  | [] => exact iff_of_true rfl rfl
  | [_] => exact iff_of_false nofun nofun
  | _ :: _ :: _ => exact iff_of_false nofun nofun

theorem mem_leaves_ofLeaves {es : List TypeExpr} {e : TypeExpr} (hes : ∀ l ∈ es, l.leaves = [l])
    (h : ofLeaves? es = some e) (l : TypeExpr) : l ∈ e.leaves ↔ l ∈ es := by
  unfold ofLeaves? at h
  split at h
  next => cases h
  next e' =>
      cases h
      rw [hes e (by simp)]
  next =>
      cases h
      rw [leaves, leavesList_eq, List.mem_flatMap]
      constructor
      · rintro ⟨l', hl', hl⟩
        rw [mem_distinct] at hl'
        rw [hes l' hl', List.mem_singleton] at hl
        exact hl ▸ hl'
      · exact fun hl => ⟨l, mem_distinct.2 hl, by simp [hes l hl]⟩

def bareWord (w : List Char) : String := .ofList (Text.trim (· == ',') w)

def bareWords (s : String) : List String := (Text.words s.toList).map bareWord

def isFiller (w : String) : Bool := w.isEmpty || fillers.contains w

theorem isFiller_trimCommas (w : List Char) : (Token.word (trimCommas w)).isFiller = isFiller (bareWord w) := by
  unfold trimCommas
  dsimp only
  split
  next h =>
      rw [List.isEmpty_iff] at h
      rw [bareWord, h]
      decide
  next => rfl

theorem trimCommas_eq {w : List Char} (h : isFiller (bareWord w) = false) : trimCommas w = bareWord w := by
  unfold trimCommas
  dsimp only
  split
  next hempty =>
      rw [List.isEmpty_iff] at hempty
      rw [bareWord, hempty] at h
      cases h
  next => rfl

theorem dropFillers_tokens (s : String) :
    dropFillers (tokens s) = ((bareWords s).filter (!isFiller ·)).map .word := by
  have hsame : (fun w => !(Token.word (trimCommas w)).isFiller) = fun w => !isFiller (bareWord w) :=
    funext fun w => congrArg _ (isFiller_trimCommas w)
  rw [dropFillers, tokens, bareWords, List.filter_map, List.filter_map, List.map_map]
  simp only [Function.comp_def, hsame]
  refine List.map_congr_left fun w hw => ?_
  rw [trimCommas_eq (by simpa using (List.mem_filter.1 hw).2)]

def options (ws : List String) : List String :=
  ((ws.filter (!isFiller ·)).dropWhile (· == arrayWord)).filter (!separators.contains ·)

theorem drop_takeWhile {α : Type} (p : α → Bool) (xs : List α) : xs.drop (xs.takeWhile p).length = xs.dropWhile p := by
  have hsplit : (xs.takeWhile p ++ xs.dropWhile p).drop (xs.takeWhile p).length = xs.dropWhile p := List.drop_left
  rwa [List.takeWhile_append_dropWhile] at hsplit

theorem ofTokens?_tokens (s : String) : ∃ depth,
    ofTokens? (tokens s) = (ofLeaves? ((options (bareWords s)).map .basic)).map (nest depth) := by
  unfold ofTokens?
  dsimp only
  rw [dropFillers_tokens, drop_takeWhile, List.dropWhile_map, List.filter_map, List.map_map]
  exact ⟨_, rfl⟩

theorem typeText_cases (s : String) :
    (∃ f, Page.typeText s = .error f ∧ options (bareWords s) = []) ∨
    ∃ e, Page.typeText s = .ok e ∧ options (bareWords s) ≠ [] ∧
      ∀ l, l ∈ e.leaves ↔ ∃ w ∈ options (bareWords s), .basic w = l := by
  obtain ⟨depth, hread⟩ := ofTokens?_tokens s
  unfold Page.typeText Page.typeOf
  cases hleaves : ofLeaves? ((options (bareWords s)).map .basic) with
  | none =>
      rw [hread, hleaves]
      exact .inl ⟨_, rfl, by simpa using ofLeaves?_eq_none.1 hleaves⟩
  | some e =>
      rw [hread, hleaves]
      refine .inr ⟨nest depth e, rfl, fun h => ?_, fun l => ?_⟩
      · rw [h] at hleaves
        cases hleaves
      · rw [leaves_nest, mem_leaves_ofLeaves _ hleaves, List.mem_map]
        simp [leaves]

-- The words in front of which, and among which, an array word is one more layer.
def leading : List String := [arrayWord, "of", ",", ""]

def grammarWords : List String := leading ++ separators

def LateArray (ws : List String) : Prop :=
  ∃ before after, ws = before ++ arrayWord :: after ∧ ∃ w ∈ before, w ∉ leading

theorem lateArray_cons_of_mem {w : String} (hw : w ∈ leading) (ws : List String) :
    LateArray (w :: ws) ↔ LateArray ws := by
  constructor
  · rintro ⟨_ | ⟨v, before⟩, after, h, u, hu, hother⟩
    · cases hu
    · obtain ⟨rfl, rfl⟩ := List.cons.inj h
      rcases List.mem_cons.1 hu with rfl | hu
      · exact absurd hw hother
      · exact ⟨before, after, rfl, u, hu, hother⟩
  · rintro ⟨before, after, rfl, u, hu, hother⟩
    exact ⟨w :: before, after, rfl, u, List.mem_cons_of_mem _ hu, hother⟩

theorem lateArray_cons_of_not_mem {w : String} (hw : w ∉ leading) (ws : List String) :
    LateArray (w :: ws) ↔ arrayWord ∈ ws := by
  constructor
  · rintro ⟨_ | ⟨v, before⟩, after, h, u, hu, -⟩
    · cases hu
    · obtain ⟨-, rfl⟩ := List.cons.inj h
      simp
  · intro h
    obtain ⟨before, after, rfl⟩ := List.append_of_mem h
    exact ⟨w :: before, after, rfl, w, List.mem_cons_self, hw⟩

theorem isFiller_iff {w : String} : isFiller w = true ↔ w ∈ ["of", ",", ""] := by
  simp only [isFiller, fillers, Bool.or_eq_true, String.isEmpty_iff, List.contains_iff_mem, List.mem_cons,
    List.not_mem_nil, or_false]
  tauto

theorem mem_leading {w : String} : w ∈ leading ↔ w = arrayWord ∨ isFiller w = true := by
  rw [isFiller_iff, leading, List.mem_cons]

theorem options_cons_of_mem {w : String} (hw : w ∈ leading) (ws : List String) : options (w :: ws) = options ws := by
  unfold options
  by_cases hfiller : isFiller w = true
  · rw [List.filter_cons_of_neg (by simp [hfiller])]
  · obtain rfl := (mem_leading.1 hw).resolve_right hfiller
    rw [List.filter_cons_of_pos (by simp [hfiller]), List.dropWhile_cons_of_pos (by simp)]

theorem mem_options_cons_of_not_mem {w : String} (hw : w ∉ leading) (ws : List String) (v : String) :
    v ∈ options (w :: ws) ↔ v ∈ w :: ws ∧ isFiller v = false ∧ v ∉ separators := by
  rw [mem_leading, not_or] at hw
  have hdrop : ((w :: ws).filter (!isFiller ·)).dropWhile (· == arrayWord) = (w :: ws).filter (!isFiller ·) := by
    rw [List.filter_cons_of_pos (by simpa using hw.2), List.dropWhile_cons_of_neg (by simpa using hw.1)]
  rw [options, hdrop, List.mem_filter, List.mem_filter, and_assoc]
  simp

theorem not_mem_grammarWords {w : String} :
    w ∉ grammarWords ↔ w ≠ arrayWord ∧ isFiller w = false ∧ w ∉ separators := by
  rw [grammarWords, List.mem_append, mem_leading, not_or, not_or, and_assoc, Bool.not_eq_true]

theorem arrayWord_kept : isFiller arrayWord = false ∧ arrayWord ∉ separators := by decide

theorem mem_options {ws : List String} {v : String} :
    v ∈ options ws ↔ (v ∈ ws ∧ v ∉ grammarWords) ∨ (v = arrayWord ∧ LateArray ws) := by
  induction ws with
  | nil =>
      refine iff_of_false (by simp [options]) ?_
      rintro (⟨h, -⟩ | ⟨-, before, after, h, -⟩)
      · cases h
      · simp at h
  | cons w ws ih =>
      by_cases hw : w ∈ leading
      · have hgrammar : w ∈ grammarWords := List.mem_append_left _ hw
        rw [options_cons_of_mem hw, ih, lateArray_cons_of_mem hw, List.mem_cons]
        refine or_congr_left (and_congr_left fun hv => (or_iff_right fun h => ?_).symm)
        exact hv (h ▸ hgrammar)
      · have hne : w ≠ arrayWord := fun h => hw (mem_leading.2 (.inl h))
        rw [mem_options_cons_of_not_mem hw, lateArray_cons_of_not_mem hw, not_mem_grammarWords]
        by_cases hv : v = arrayWord
        · subst hv
          simp [arrayWord_kept, hne.symm]
        · simp [hv]

theorem options_eq_nil {ws : List String} : options ws = [] ↔ (∀ w ∈ ws, w ∈ grammarWords) ∧ ¬ LateArray ws := by
  simp only [List.eq_nil_iff_forall_not_mem, mem_options, not_or, not_and, not_not]
  exact ⟨fun h => ⟨fun w => (h w).1, (h arrayWord).2 rfl⟩, fun h w => ⟨h.1 w, fun _ => h.2⟩⟩

end TypeExpr

namespace Page

open TypeExpr

theorem words_name_types (s : String) :
    (∀ e, typeText s = .ok e → ∀ n, .basic n ∈ e.leaves ↔
      (n ∈ bareWords s ∧ n ∉ ["Array", "of", ",", "", "or", "and"]) ∨ (n = "Array" ∧ LateArray (bareWords s))) ∧
    ((∃ f, typeText s = .error f) ↔
      (∀ w ∈ bareWords s, w ∈ ["Array", "of", ",", "", "or", "and"]) ∧ ¬ LateArray (bareWords s)) := by
  rcases typeText_cases s with ⟨f, hf, hnil⟩ | ⟨e, he, hne, hleaves⟩
  · refine ⟨fun e he => ?_, iff_of_true ⟨f, hf⟩ (options_eq_nil.1 hnil)⟩
    rw [hf] at he
    cases he
  · constructor
    · intro e' he' n
      obtain rfl : e = e' := Except.ok.inj (he.symm.trans he')
      rw [hleaves]
      simp only [TypeExpr.basic.injEq, exists_eq_right]
      exact mem_options
    · refine iff_of_false ?_ fun h => hne (options_eq_nil.2 h)
      rintro ⟨f, hf⟩
      rw [he] at hf
      cases hf

-- The first array word is a layer, and the one behind an option names a type.
theorem late_array_named :
    typeText "Array of Integer, Array of String" =
      .ok (.array (.union [.basic "Integer", .basic "Array", .basic "String"])) ∧
    ∀ n, .basic n ∈ (TypeExpr.array (.union [.basic "Integer", .basic "Array", .basic "String"])).leaves ↔
      (n ∈ bareWords "Array of Integer, Array of String" ∧ n ∉ ["Array", "of", ",", "", "or", "and"]) ∨
      (n = "Array" ∧ LateArray (bareWords "Array of Integer, Array of String")) := by
  have h : typeText "Array of Integer, Array of String" =
      .ok (.array (.union [.basic "Integer", .basic "Array", .basic "String"])) := by rfl
  exact ⟨h, (words_name_types _).1 _ h⟩

-- Behind a separator the array word is taken for the name of a type, and as the only one.
theorem separated_array_named :
    typeText "or Array" = .ok (.basic "Array") ∧
    ∀ w ∈ bareWords "or Array", w ∈ ["Array", "of", ",", "", "or", "and"] :=
  ⟨rfl, by decide +kernel⟩

end Page

end BotApi
