import BotApi.Proofs.Text.Split
import BotApi.Proofs.TypeExpr.Words
/-!
Reading back what describes a type. Of an expression as descriptions spell it, layers of arrays around one name or
around a choice of names, the description is read as the expression itself.
-/

namespace BotApi

namespace TypeExpr

/-! Reading tokens one by one -/

theorem ofTokens?_filler {t : Token} (h : t.isFiller = true) (ts : List Token) : ofTokens? (t :: ts) = ofTokens? ts := by
  rw [ofTokens?, ofTokens?, dropFillers, List.filter_cons_of_neg (by simp [h]), dropFillers]

theorem ofTokens?_arrayWord (ts : List Token) :
    ofTokens? (.word arrayWord :: ts) = (ofTokens? ts).map .array := by
  have hkept : dropFillers (.word arrayWord :: ts) = .word arrayWord :: dropFillers ts := rfl
  have hlead : (Token.word arrayWord).isArray = true := rfl
  unfold ofTokens?
  dsimp only
  rw [hkept, List.takeWhile_cons_of_pos hlead, List.length_cons, List.drop_succ_cons, Option.map_map]
  congr 1
  funext e
  exact nest_array _ e

theorem ofTokens?_options {ts : List Token} (hkept : ∀ t ∈ ts, t.isFiller = false) (harray : ∀ t ∈ ts, t.isArray = false) :
    ofTokens? ts = ofLeaves? ((ts.filter fun t => !t.isSeparator).map Token.leaf) := by
  have hall : dropFillers ts = ts := List.filter_eq_self.2 fun t ht => by simp [hkept t ht]
  have hnone : ts.takeWhile Token.isArray = [] := by
    cases ts with
    | nil => rfl
    | cons t ts => exact List.takeWhile_cons_of_neg (by simp [harray t])
  unfold ofTokens?
  dsimp only
  rw [hall, hnone, List.length_nil, List.drop_zero]
  exact Option.map_id'

/-! Names and words -/

structure Spelled (n : String) : Prop where
  nonempty : n ≠ ""
  unbroken : ∀ c ∈ n.toList, Text.isBlank c = false
  first : n.toList.head? ≠ some ','
  last : n.toList.getLast? ≠ some ','
  apart : n ∉ ["Array", "of", "or", "and"]

theorem tokens_append (s t : String) : tokens (s ++ " " ++ t) = tokens s ++ tokens t := by
  have htext : (s ++ " " ++ t).toList = s.toList ++ ' ' :: t.toList := by simp
  rw [tokens, htext, Text.words_append rfl, List.map_append]
  rfl

theorem dropWhile_of_head? {α : Type} {p : α → Bool} {xs : List α} (h : ∀ x, xs.head? = some x → p x = false) :
    xs.dropWhile p = xs := by
  cases xs with
  | nil => rfl
  | cons x xs => exact List.dropWhile_cons_of_neg (by simp [h x rfl])

namespace Spelled

variable {n : String}

theorem trimCommas_eq (h : Spelled n) : trimCommas n.toList = n := by
  have hleft : n.toList.dropWhile (· == ',') = n.toList := dropWhile_of_head? fun c hc => by
    rw [beq_eq_false_iff_ne]
    rintro rfl
    exact h.first hc
  have hright : n.toList.reverse.dropWhile (· == ',') = n.toList.reverse := dropWhile_of_head? fun c hc => by
    rw [beq_eq_false_iff_ne]
    rintro rfl
    exact h.last (by simpa using hc)
  have htrim : Text.trim (· == ',') n.toList = n.toList := by
    rw [Text.trim, Text.trimLeft, hleft, Text.trimRight, hright, List.reverse_reverse]
  have hempty : n.toList.isEmpty = false := by simpa using h.nonempty
  rw [trimCommas, htrim, hempty, if_neg (by decide), String.ofList_toList]

theorem tokens_eq (h : Spelled n) : tokens n = [.word n] := by
  have hne : n.toList ≠ [] := by simpa using h.nonempty
  rw [tokens, Text.words_of_unbroken hne h.unbroken, List.map_singleton, h.trimCommas_eq]

theorem isFiller_eq (h : Spelled n) : (Token.word n).isFiller = false := by
  have hcomma : n ≠ "," := fun hn => h.first (by simp [hn])
  have hof : n ≠ "of" := fun hn => h.apart (by simp [hn])
  simp [Token.isFiller, fillers, h.nonempty, hcomma, hof]

theorem isArray_eq (h : Spelled n) : (Token.word n).isArray = false := by
  have harray : n ≠ "Array" := fun hn => h.apart (by simp [hn])
  simp [Token.isArray, arrayWord, harray]

theorem isSeparator_eq (h : Spelled n) : (Token.word n).isSeparator = false := by
  have hor : n ≠ "or" := fun hn => h.apart (by simp [hn])
  have hand : n ≠ "and" := fun hn => h.apart (by simp [hn])
  simp [Token.isSeparator, separators, hor, hand]

end Spelled

/-! Descriptions -/

inductive Describable : TypeExpr → Prop
  | basic {n : String} (spelled : Spelled n) : Describable (.basic n)
  | union {ns : List String} (several : 2 ≤ ns.length) (distinct : ns.Nodup) (spelled : ∀ n ∈ ns, Spelled n) :
      Describable (.union (ns.map .basic))
  | array {e : TypeExpr} (item : Describable e) : Describable (.array e)

def orWord : Token := .word "or"

variable {nameOf : String → Option String}

theorem describeList_basic (ns : List String) : describeList nameOf (ns.map .basic) = ns := by
  induction ns with
  | nil => rfl
  | cons n ns ih => rw [List.map_cons, describeList, describe, ih]

theorem tokens_array (d : String) : tokens ("Array of " ++ d) = .word arrayWord :: .word "of" :: tokens d := by
  have htext : "Array of " ++ d = "Array" ++ " " ++ ("of" ++ " " ++ d) := by
    rw [← String.append_assoc, ← String.append_assoc]
    rfl
  rw [htext, tokens_append, tokens_append]
  rfl

theorem tokens_choice {n : String} {ns : List String} (h : ∀ m ∈ n :: ns, Spelled m) :
    tokens (String.intercalate " or " (n :: ns)) = .word n :: ns.flatMap fun m => [orWord, .word m] := by
  induction ns generalizing n with
  | nil =>
      rw [String.intercalate_singleton]
      exact (h n (by simp)).tokens_eq
  | cons m ns ih =>
      rw [List.forall_mem_cons] at h
      have htext : String.intercalate " or " (n :: m :: ns) =
          n ++ " " ++ ("or" ++ " " ++ String.intercalate " or " (m :: ns)) := by
        simp only [String.intercalate_cons_cons, String.append_assoc]
        rfl
      rw [htext, tokens_append, tokens_append, h.1.tokens_eq, ih h.2]
      rfl

theorem filter_choice {ns : List String} (h : ∀ m ∈ ns, Spelled m) :
    (ns.flatMap fun m => [orWord, .word m]).filter (fun t => !t.isSeparator) = ns.map .word := by
  have hor : orWord.isSeparator = true := rfl
  induction ns with
  | nil => rfl
  | cons m ns ih =>
      rw [List.forall_mem_cons] at h
      rw [List.flatMap_cons, List.filter_append, ih h.2]
      simp [h.1.isSeparator_eq, hor]

theorem ofTokens?_choice {n : String} {ns : List String} (h : ∀ m ∈ n :: ns, Spelled m) :
    ofTokens? (.word n :: ns.flatMap fun m => [orWord, .word m]) = ofLeaves? ((n :: ns).map .basic) := by
  have hplain : ∀ t ∈ Token.word n :: ns.flatMap fun m => [orWord, .word m], t.isFiller = false ∧ t.isArray = false := by
    intro t ht
    simp only [List.mem_cons, List.mem_flatMap, List.not_mem_nil, or_false] at ht
    rcases ht with rfl | ⟨m, hm, rfl | rfl⟩
    · exact ⟨(h n (by simp)).isFiller_eq, (h n (by simp)).isArray_eq⟩
    · exact ⟨rfl, rfl⟩
    · exact ⟨(h m (by simp [hm])).isFiller_eq, (h m (by simp [hm])).isArray_eq⟩
  rw [List.forall_mem_cons] at h
  rw [ofTokens?_options (fun t ht => (hplain t ht).1) fun t ht => (hplain t ht).2,
    List.filter_cons_of_pos (by simp [h.1.isSeparator_eq]), filter_choice h.2, ← List.map_cons, List.map_map]
  rfl

theorem ofTokens?_describe {e : TypeExpr} (h : Describable e) : ofTokens? (tokens (e.describe nameOf)) = some e := by
  induction h with
  | @basic n spelled =>
      rw [describe, spelled.tokens_eq]
      have hchoice : ofTokens? (.word n :: [].flatMap fun m => [orWord, .word m]) = ofLeaves? ([n].map .basic) :=
        ofTokens?_choice (by simpa using spelled)
      exact hchoice
  | @union ns several distinct spelled =>
      match ns with
      | [] | [_] => simp at several
      | n :: m :: ns =>
          rw [describe, describeList_basic, tokens_choice spelled, ofTokens?_choice spelled]
          exact congrArg (some <| TypeExpr.union ·) (distinct_of_nodup (distinct.map fun _ _ h => TypeExpr.basic.inj h))
  | array _ ih =>
      rw [describe, tokens_array, ofTokens?_arrayWord, ofTokens?_filler rfl, ih]
      rfl

end TypeExpr

namespace Page

open TypeExpr

theorem typeText_describe (nameOf : String → Option String) {e : TypeExpr} (h : e.Describable) :
    typeText (e.describe nameOf) = .ok e := by
  rw [typeText, typeOf, ofTokens?_describe h]

theorem nested_choice_described : (TypeExpr.array (.array (.union [.basic "Integer", .basic "a,b"]))).Describable ∧
    typeText "Array of Array of Integer or a,b" = .ok (.array (.array (.union [.basic "Integer", .basic "a,b"]))) := by
  have hspelled : ∀ n ∈ ["Integer", "a,b"], Spelled n := by
    have hinteger : Spelled "Integer" := ⟨by decide, by simp [Text.isBlank], by decide, by decide, by decide⟩
    have hcomma : Spelled "a,b" := ⟨by decide, by simp [Text.isBlank], by decide, by decide, by decide⟩
    simpa using ⟨hinteger, hcomma⟩
  have hchoice : (TypeExpr.union (["Integer", "a,b"].map .basic)).Describable := .union (by decide) (by decide) hspelled
  exact ⟨hchoice.array.array, typeText_describe (fun _ => none) hchoice.array.array⟩

end Page

end BotApi
