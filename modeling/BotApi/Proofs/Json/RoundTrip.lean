import BotApi.Proofs.Json.Escape
import BotApi.Proofs.Values.Entries
import Mathlib.Data.List.Nodup
import Mathlib.Data.List.TakeWhile
/-!
Reading a document that was written: what is read is the value that the document writes down, provided
that no record in it has a name twice.
-/

namespace BotApi.Json

-- The readers' equations, made once here: proofs that ask for them side by side wait for one another.
section
attribute [local simp] readString readValue readItems readEntries Doc.render Doc.renderItems Doc.renderFields
end

open Text (hexDigits)

theorem readCode_unit {n : Nat} (hn : n < 0xD800 ∨ 0xDFFF < n) (hunit : n < 0x10000) (atU : List Char) {s : List Char}
    (hs : s ≠ []) : readCode atU (hexDigits n 4 ++ s) = .ok (Char.ofNat n, s) := by
  have hchar : Text.charOfCode n = Char.ofNat n := by
    rw [Text.charOfCode, if_neg (by omega)]
  have hhigh : Text.isHighSurrogate n = false := by
    simp only [Text.isHighSurrogate, Bool.and_eq_false_iff, decide_eq_false_iff_not]
    omega
  unfold readCode
  rw [hex4?_hexDigits hunit]
  split
  · rename_i h
    cases h
  · rename_i h
    cases h
    exact absurd rfl hs
  · rename_i h
    cases h
    simp [hhigh, hchar]
  · rename_i h
    cases h
    rw [hchar]

theorem readCode_pair {a b : Nat} (ha : a < 0x400) (hb : b < 0x400) (atU : List Char) {s : List Char} (hs : s ≠ []) :
    readCode atU (hexDigits (0xD800 + a) 4 ++ (codeEscape (0xDC00 + b) ++ s)) =
      .ok (Char.ofNat (0x10000 + a * 0x400 + b), s) := by
  have hhigh : Text.isHighSurrogate (0xD800 + a) = true := by
    simp only [Text.isHighSurrogate, Bool.and_eq_true, decide_eq_true_eq]
    omega
  have hlow : Text.isLowSurrogate (0xDC00 + b) = true := by
    simp only [Text.isLowSurrogate, Bool.and_eq_true, decide_eq_true_eq]
    omega
  have hjoin : Text.joinSurrogates (0xD800 + a) (0xDC00 + b) = 0x10000 + a * 0x400 + b :=
    congrArg₂ (0x10000 + · * 0x400 + ·) (Nat.add_sub_cancel_left _ _) (Nat.add_sub_cancel_left _ _)
  have hlength : 5 ≤ (hexDigits (0xDC00 + b) 4 ++ s).length := by
    have hpos := List.length_pos_of_ne_nil hs
    simp only [hexDigits, List.length_append, List.length_cons, List.length_nil]
    omega
  unfold readCode
  rw [hex4?_hexDigits (by omega), codeEscape, List.cons_append, List.cons_append]
  simp only
  rw [if_pos (by simpa [hhigh] using hlength), hex4?_hexDigits (by omega)]
  dsimp only
  rw [if_pos hlow, hjoin]

variable {opening s rest cs : List Char} {fuel : Nat} {c : Char}

theorem ne_nil_of_readString (h : readString opening fuel s = .ok (cs, rest)) : s ≠ [] := by
  rintro rfl
  cases fuel <;> cases h

theorem readString_plain (hquote : c ≠ '"') (hescape : c ≠ '\\') (hcontrol : ¬ c.toNat < 0x20)
    (h : readString opening fuel s = .ok (cs, rest)) :
    readString opening (fuel + 1) (c :: s) = .ok (c :: cs, rest) := by
  simp only [readString, hquote, hescape, hcontrol, h, ↓reduceIte]
  rfl

theorem readString_escaped {e : Char} (he : shortEscape? e = some c) (hu : e ≠ 'u')
    (h : readString opening fuel s = .ok (cs, rest)) :
    readString opening (fuel + 1) ('\\' :: e :: s) = .ok (c :: cs, rest) := by
  simp only [readString, he, h, ↓reduceIte, Char.reduceEq]
  rfl

theorem readString_code {t : List Char} (hcode : ∀ atU, readCode atU (t ++ s) = .ok (c, s))
    (h : readString opening fuel s = .ok (cs, rest)) :
    readString opening (fuel + 1) ('\\' :: 'u' :: (t ++ s)) = .ok (c :: cs, rest) := by
  rw [readString, if_neg (by decide), if_pos rfl]
  dsimp only
  rw [hcode]
  simp only [bind, Except.bind, h]
  rfl

theorem readString_units (c : Char) (h : readString opening fuel s = .ok (cs, rest)) :
    readString opening (fuel + 1) ((units c).flatMap codeEscape ++ s) = .ok (c :: cs, rest) := by
  have hvalid : c.toNat < 0xD800 ∨ 0xDFFF < c.toNat ∧ c.toNat < 0x110000 := c.valid
  have hs := ne_nil_of_readString h
  unfold units
  dsimp only
  split
  next hunit =>
    rw [List.flatMap_singleton, codeEscape, List.cons_append, List.cons_append]
    refine readString_code (fun atU => ?_) h
    rw [readCode_unit (by omega) hunit atU hs, Char.ofNat_toNat]
  next hpair =>
    rw [List.flatMap_cons, List.flatMap_singleton, List.append_assoc]
    conv =>
      lhs
      rw [codeEscape, List.cons_append, List.cons_append, ← List.append_assoc]
    have hcode : 0x10000 + (c.toNat - 0x10000) / 0x400 * 0x400 + (c.toNat - 0x10000) % 0x400 = c.toNat := by omega
    refine readString_code (fun atU => ?_) h
    rw [List.append_assoc, readCode_pair (by omega) (by omega) atU hs, hcode, Char.ofNat_toNat]

theorem readString_escapeChar (ascii : Bool) (c : Char) (h : readString opening fuel s = .ok (cs, rest)) :
    readString opening (fuel + 1) (escapeChar ascii c ++ s) = .ok (c :: cs, rest) := by
  unfold escapeChar
  split
  · exact readString_escaped rfl (by decide) h
  · exact readString_escaped rfl (by decide) h
  · exact readString_escaped rfl (by decide) h
  · exact readString_escaped rfl (by decide) h
  · exact readString_escaped rfl (by decide) h
  · exact readString_escaped rfl (by decide) h
  · exact readString_escaped rfl (by decide) h
  · rename_i hquote hescape _ _ _ _ _
    split
    next hcontrol =>
      have hunits : codeEscape c.toNat = (units c).flatMap codeEscape := by
        rw [units, if_pos (by omega), List.flatMap_singleton]
      rw [hunits]
      exact readString_units c h
    next hcontrol =>
      split
      · exact readString_units c h
      · exact readString_plain hquote hescape hcontrol h

variable {ascii : Bool}

theorem readString_text (s : List Char) (h : s.length < fuel) :
    readString opening fuel (s.flatMap (escapeChar ascii) ++ '"' :: rest) = .ok (s, rest) := by
  induction s generalizing fuel with
  | nil =>
      obtain ⟨fuel, rfl⟩ : ∃ n, fuel = n + 1 := ⟨fuel - 1, by simp at h; omega⟩
      rfl
  | cons c s ih =>
      obtain ⟨fuel, rfl⟩ : ∃ n, fuel = n + 1 := ⟨fuel - 1, by simp at h; omega⟩
      rw [List.flatMap_cons, List.append_assoc]
      exact readString_escapeChar ascii c (ih (by simpa using h))

theorem escapeChar_length_pos (ascii : Bool) (c : Char) : 0 < (escapeChar ascii c).length := by
  unfold escapeChar
  split
  · simp
  · simp
  · simp
  · simp
  · simp
  · simp
  · simp
  · split
    · simp [codeEscape]
    split
    · unfold units
      dsimp only
      split <;> simp [codeEscape]
    · simp

theorem length_le_flatMap (ascii : Bool) (s : List Char) : s.length ≤ (s.flatMap (escapeChar ascii)).length := by
  induction s with
  | nil => simp
  | cons c s ih =>
      have hpos := escapeChar_length_pos ascii c
      simp only [List.flatMap_cons, List.length_append, List.length_cons]
      omega

theorem readString_string (ascii : Bool) (s rest : List Char) :
    ∃ t, string ascii s ++ rest = '"' :: t ∧
      readString ('"' :: t) (t.length + 1) t = .ok (s, rest) := by
  refine ⟨s.flatMap (escapeChar ascii) ++ '"' :: rest, by simp [string], readString_text s ?_⟩
  have := length_le_flatMap ascii s
  simp only [List.length_append, List.length_cons]
  omega

mutual
def Doc.Keyed : Doc → Prop
  | .list xs => Doc.KeyedItems xs
  | .record fs => (fs.map (·.1)).Nodup ∧ Doc.KeyedFields fs
  | _ => True
def Doc.KeyedItems : List Doc → Prop
  | [] => True
  | x :: xs => x.Keyed ∧ Doc.KeyedItems xs
def Doc.KeyedFields : List (String × Doc) → Prop
  | [] => True
  | (_, v) :: fs => v.Keyed ∧ Doc.KeyedFields fs
end

mutual
def Doc.cost : Doc → Nat
  | .list xs => Doc.costItems xs + 1
  | .record fs => Doc.costFields fs + 1
  | _ => 1
def Doc.costItems : List Doc → Nat
  | [] => 0
  | x :: xs => x.cost + Doc.costItems xs + 1
def Doc.costFields : List (String × Doc) → Nat
  | [] => 0
  | (_, v) :: fs => v.cost + Doc.costFields fs + 1
end

theorem skip_of_not_isSpace {c : Char} {s : List Char} (h : isSpace c = false) :
    skip (c :: s) = c :: s := by
  simp [skip, h]

theorem skip_newline (depth : Nat) (s : List Char) : skip (newline depth ++ s) = skip s := by
  have hspaces : ∀ c ∈ newline depth, isSpace c = true := by
    simp [newline, isSpace]
  rw [skip, skip, List.dropWhile_append, List.dropWhile_eq_nil_iff.2 hspaces]
  rfl

theorem render_head (depth : Nat) (d : Doc) :
    ∃ c s, d.render depth = c :: s ∧ isSpace c = false ∧ c ≠ ']' := by
  cases d with
  | null => exact ⟨_, _, rfl, rfl, by decide⟩
  | bool b => cases b <;> exact ⟨_, _, rfl, rfl, by decide⟩
  | str s => exact ⟨'"', _, rfl, rfl, by decide⟩
  | list xs => cases xs <;> exact ⟨_, _, rfl, rfl, by decide⟩
  | record fs => cases fs <;> exact ⟨_, _, rfl, rfl, by decide⟩

theorem skip_render (depth : Nat) (d : Doc) (s : List Char) :
    skip (d.render depth ++ s) = d.render depth ++ s := by
  obtain ⟨c, t, hd, hspace, -⟩ := render_head depth d
  rw [hd]
  exact skip_of_not_isSpace hspace

variable {t u : List Char} {v : Value} {vs : List Value} {es es' : Entries}

theorem readItems_last (h : readValue fuel s = .ok (v, t)) (ht : skip t = ']' :: rest) :
    readItems (fuel + 1) s = .ok ([v], rest) := by
  simp only [readItems, h, bind, Except.bind, ht]
  rfl

theorem readItems_more (h : readValue fuel s = .ok (v, t)) (ht : skip t = ',' :: u)
    (hu : readItems fuel (skip u) = .ok (vs, rest)) :
    readItems (fuel + 1) s = .ok (v :: vs, rest) := by
  simp only [readItems, h, bind, Except.bind, ht, hu]
  rfl

theorem readEntries_last {k : String} (hu : skip u = u) (hv : readValue fuel u = .ok (v, t))
    (ht : skip t = '}' :: rest) :
    readEntries (fuel + 1) es (string ascii k.toList ++ ':' :: ' ' :: u) =
      .ok (es.put (.str k) v, rest) := by
  obtain ⟨s, hs, hk⟩ := readString_string ascii k.toList (':' :: ' ' :: u)
  have hcolon : skip (':' :: ' ' :: u) = ':' :: ' ' :: u := skip_of_not_isSpace rfl
  have hblank : skip (' ' :: u) = u := hu
  rw [hs]
  simp only [readEntries, hk, bind, Except.bind, hcolon, hblank, hv, ht, String.ofList_toList]
  rfl

theorem readEntries_more {k : String} (hu : skip u = u) (hv : readValue fuel u = .ok (v, t))
    (ht : skip t = ',' :: cs)
    (hcs : readEntries fuel (es.put (.str k) v) (skip cs) = .ok (es', rest)) :
    readEntries (fuel + 1) es (string ascii k.toList ++ ':' :: ' ' :: u) = .ok (es', rest) := by
  obtain ⟨s, hs, hk⟩ := readString_string ascii k.toList (':' :: ' ' :: u)
  have hcolon : skip (':' :: ' ' :: u) = ':' :: ' ' :: u := skip_of_not_isSpace rfl
  have hblank : skip (' ' :: u) = u := hu
  rw [hs]
  simp only [readEntries, hk, bind, Except.bind, hcolon, hblank, hv, ht, String.ofList_toList, hcs]

theorem readValue_str (s rest : List Char) :
    readValue (fuel + 1) (string ascii s ++ rest) = .ok (.str (.ofList s), rest) := by
  obtain ⟨t, ht, hread⟩ := readString_string ascii s rest
  rw [ht]
  simp only [readValue, hread, bind, Except.bind]
  rfl

theorem readValue_list (hs : skip s = c :: t) (hc : c ≠ ']')
    (h : readItems fuel (c :: t) = .ok (vs, rest)) :
    readValue (fuel + 1) ('[' :: s) = .ok (.list vs, rest) := by
  simp only [readValue, hs]
  split
  · rename_i heq
    cases heq
    exact absurd rfl hc
  · rw [h]
    rfl

theorem readValue_dict (hs : skip s = '"' :: t) (h : readEntries fuel [] ('"' :: t) = .ok (es, rest)) :
    readValue (fuel + 1) ('{' :: s) = .ok (.dict es, rest) := by
  simp only [readValue, hs]
  split
  · rename_i heq
    cases heq
  · rw [h]
    rfl

theorem block_cons (left right : Char) (depth : Nat) (item : List Char) (items : List (List Char))
    (rest : List Char) : block left right depth (item :: items) ++ rest = left :: (newline (depth + 1) ++
      (List.intercalate (',' :: newline (depth + 1)) (item :: items) ++
        (newline depth ++ right :: rest))) := by
  simp [block]

theorem intercalate_head (sep item : List Char) (items : List (List Char)) :
    ∃ s, List.intercalate sep (item :: items) = item ++ s := by
  cases items with
  | nil => exact ⟨[], by simp [List.intercalate]⟩
  | cons next items => exact ⟨_, by rw [List.intercalate_cons_cons, List.append_assoc]⟩

theorem keys_toEntries (gs : List (String × Doc)) : (Doc.toEntries gs).map (·.1) = gs.map fun g => .str g.1 := by
  induction gs with
  | nil => rfl
  | cons g gs ih => rw [Doc.toEntries, List.map_cons, List.map_cons, ih]

theorem put_new {k : String} {gs : List (String × Doc)} (v : Value) (h : k ∉ gs.map (·.1)) :
    Entries.put (Doc.toEntries gs) (.str k) v = Doc.toEntries gs ++ [(.str k, v)] := by
  refine Entries.put_of_not_mem v ?_
  rw [keys_toEntries]
  simpa using h

theorem not_mem_of_nodup {α β : Type} {gs fs : List (α × β)} {k : α} {x : β}
    (h : ((gs ++ (k, x) :: fs).map (·.1)).Nodup) : k ∉ gs.map (·.1) := by
  rw [List.map_append, List.nodup_append] at h
  exact fun hk => h.2.2 _ hk _ (by simp) rfl

theorem toEntries_concat (gs : List (String × Doc)) (k : String) (d : Doc) :
    Doc.toEntries (gs ++ [(k, d)]) = Doc.toEntries gs ++ [(.str k, d.toValue)] := by
  induction gs with
  | nil => rfl
  | cons g gs ih => simp [Doc.toEntries, ih]

mutual
theorem readValue_render : ∀ (d : Doc) (depth fuel : Nat) (rest : List Char), d.Keyed →
    d.cost ≤ fuel → readValue fuel (d.render depth ++ rest) = .ok (d.toValue, rest)
  | .null, _, 0, _, _, h => by cases h
  | .null, _, _ + 1, _, _, _ => rfl
  | .bool _, _, 0, _, _, h => by cases h
  | .bool true, _, _ + 1, _, _, _ => rfl
  | .bool false, _, _ + 1, _, _, _ => rfl
  | .str s, _, 0, _, _, h => by cases h
  | .str s, _, _ + 1, rest, _, _ => by
      rw [Doc.render, readValue_str, String.ofList_toList, Doc.toValue]
  | .list [], _, 0, _, _, h => by cases h
  | .list [], _, _ + 1, _, _, _ => rfl
  | .list (x :: xs), depth, fuel, rest, hkeyed, hfuel => by
      obtain ⟨fuel, rfl⟩ : ∃ n, fuel = n + 1 := ⟨fuel - 1, by simp [Doc.cost] at hfuel; omega⟩
      have hitems := readItems_render (x :: xs) (depth + 1) depth fuel rest (by simp) hkeyed
        (by simpa [Doc.cost] using hfuel)
      obtain ⟨c, s, hx, hspace, hc⟩ := render_head (depth + 1) x
      obtain ⟨t, ht⟩ := intercalate_head (',' :: newline (depth + 1)) (x.render (depth + 1))
        (Doc.renderItems (depth + 1) xs)
      rw [Doc.render, Doc.renderItems, block_cons]
      rw [Doc.renderItems] at hitems
      rw [ht, hx] at hitems ⊢
      refine readValue_list ?_ hc hitems
      rw [skip_newline]
      exact skip_of_not_isSpace hspace
  | .record [], _, 0, _, _, h => by cases h
  | .record [], _, _ + 1, _, _, _ => rfl
  | .record ((k, d) :: fs), depth, fuel, rest, hkeyed, hfuel => by
      obtain ⟨fuel, rfl⟩ : ∃ n, fuel = n + 1 := ⟨fuel - 1, by simp [Doc.cost] at hfuel; omega⟩
      have hentries := readEntries_render ((k, d) :: fs) [] (depth + 1) depth fuel rest (by simp)
        hkeyed.1 hkeyed.2 (by simpa [Doc.cost] using hfuel)
      obtain ⟨t, ht⟩ := intercalate_head (',' :: newline (depth + 1))
        (string false k.toList ++ ':' :: ' ' :: d.render (depth + 1)) (Doc.renderFields (depth + 1) fs)
      rw [Doc.render, Doc.renderFields, block_cons]
      rw [Doc.renderFields] at hentries
      rw [ht] at hentries ⊢
      refine readValue_dict ?_ hentries
      rw [skip_newline]
      exact skip_of_not_isSpace rfl
theorem readItems_render : ∀ (xs : List Doc) (depth close fuel : Nat) (rest : List Char), xs ≠ [] →
    Doc.KeyedItems xs → Doc.costItems xs ≤ fuel →
    readItems fuel (List.intercalate (',' :: newline depth) (Doc.renderItems depth xs) ++
      (newline close ++ ']' :: rest)) = .ok (Doc.toValues xs, rest)
  | [], _, _, _, _, h, _, _ => absurd rfl h
  | [x], depth, close, fuel, rest, _, hkeyed, hfuel => by
      obtain ⟨fuel, rfl⟩ : ∃ n, fuel = n + 1 := ⟨fuel - 1, by simp [Doc.costItems] at hfuel; omega⟩
      have hx := readValue_render x depth fuel (newline close ++ ']' :: rest) hkeyed.1
        (by simp [Doc.costItems] at hfuel; omega)
      simp only [Doc.renderItems, List.intercalate_singleton]
      refine readItems_last hx ?_
      rw [skip_newline]
      rfl
  | x :: y :: ys, depth, close, fuel, rest, _, hkeyed, hfuel => by
      obtain ⟨fuel, rfl⟩ : ∃ n, fuel = n + 1 := ⟨fuel - 1, by simp [Doc.costItems] at hfuel; omega⟩
      rw [Doc.costItems] at hfuel
      have hys := readItems_render (y :: ys) depth close fuel rest (by simp) hkeyed.2 (by omega)
      obtain ⟨t, ht⟩ := intercalate_head (',' :: newline depth) (y.render depth)
        (Doc.renderItems depth ys)
      have hx := readValue_render x depth fuel (',' :: (newline depth ++
        (List.intercalate (',' :: newline depth) (Doc.renderItems depth (y :: ys)) ++
          (newline close ++ ']' :: rest)))) hkeyed.1 (by omega)
      simp only [Doc.renderItems, List.intercalate_cons_cons, List.append_assoc, List.cons_append]
        at hx hys ⊢
      refine readItems_more hx (skip_of_not_isSpace rfl) ?_
      rw [skip_newline, ht, List.append_assoc, skip_render]
      rw [ht, List.append_assoc] at hys
      exact hys
theorem readEntries_render : ∀ (fs gs : List (String × Doc)) (depth close fuel : Nat)
    (rest : List Char), fs ≠ [] → ((gs ++ fs).map (·.1)).Nodup → Doc.KeyedFields fs →
    Doc.costFields fs ≤ fuel →
    readEntries fuel (Doc.toEntries gs)
      (List.intercalate (',' :: newline depth) (Doc.renderFields depth fs) ++
        (newline close ++ '}' :: rest)) = .ok (Doc.toEntries (gs ++ fs), rest)
  | [], _, _, _, _, _, h, _, _, _ => absurd rfl h
  | [(k, d)], gs, depth, close, fuel, rest, _, hnodup, hkeyed, hfuel => by
      obtain ⟨fuel, rfl⟩ : ∃ n, fuel = n + 1 := ⟨fuel - 1, by simp [Doc.costFields] at hfuel; omega⟩
      have hd := readValue_render d depth fuel (newline close ++ '}' :: rest) hkeyed.1
        (by simp [Doc.costFields] at hfuel; omega)
      simp only [Doc.renderFields, List.intercalate_singleton, List.append_assoc, List.cons_append]
      rw [readEntries_last (skip_render depth d _) hd (by rw [skip_newline]; rfl),
        put_new _ (not_mem_of_nodup hnodup), toEntries_concat]
  | (k, d) :: g :: fs, gs, depth, close, fuel, rest, _, hnodup, hkeyed, hfuel => by
      obtain ⟨fuel, rfl⟩ : ∃ n, fuel = n + 1 := ⟨fuel - 1, by simp [Doc.costFields] at hfuel; omega⟩
      rw [Doc.costFields] at hfuel
      have hfs := readEntries_render (g :: fs) (gs ++ [(k, d)]) depth close fuel rest (by simp)
        (by simpa using hnodup) hkeyed.2 (by omega)
      obtain ⟨t, ht⟩ := intercalate_head (',' :: newline depth)
        (string false g.1.toList ++ ':' :: ' ' :: g.2.render depth) (Doc.renderFields depth fs)
      have hd := readValue_render d depth fuel (',' :: (newline depth ++
        (List.intercalate (',' :: newline depth) (Doc.renderFields depth (g :: fs)) ++
          (newline close ++ '}' :: rest)))) hkeyed.1 (by omega)
      rw [toEntries_concat, ← put_new _ (not_mem_of_nodup hnodup), List.append_assoc,
        List.singleton_append] at hfs
      simp only [Doc.renderFields, List.intercalate_cons_cons, List.append_assoc, List.cons_append]
        at hd hfs ⊢
      refine readEntries_more (skip_render depth d _) hd (skip_of_not_isSpace rfl) ?_
      rw [skip_newline, ht]
      rw [ht] at hfs
      exact hfs
end

theorem length_le_intercalate (c : Char) (sep : List Char) (items : List (List Char)) :
    items.flatten.length + items.length ≤
      (List.intercalate (c :: sep) items).length + 1 := by
  induction items with
  | nil => simp
  | cons item items ih =>
      cases items with
      | nil => simp
      | cons next items =>
          rw [List.intercalate_cons_cons]
          simp only [List.flatten_cons, List.length_cons, List.length_append] at ih ⊢
          omega

theorem length_block (left right : Char) (depth : Nat) (items : List (List Char)) :
    items.flatten.length + items.length + 1 ≤ (block left right depth items).length := by
  cases items with
  | nil => simp [block]
  | cons item items =>
      have hlength := length_le_intercalate ',' (newline (depth + 1)) (item :: items)
      simp only [block, List.length_append, List.length_cons, List.length_nil] at hlength ⊢
      omega

mutual
theorem cost_le : ∀ (d : Doc) (depth : Nat), d.cost ≤ 2 * (d.render depth).length
  | .null, _ => by simp [Doc.cost, Doc.render]
  | .bool true, _ => by simp [Doc.cost, Doc.render]
  | .bool false, _ => by simp [Doc.cost, Doc.render]
  | .str s, _ => by
      simp only [Doc.cost, Doc.render, string, List.length_cons, List.cons_append]
      omega
  | .list xs, depth => by
      have hcost := costItems_le xs (depth + 1)
      have hlength := length_block '[' ']' depth (Doc.renderItems (depth + 1) xs)
      rw [Doc.cost, Doc.render]
      omega
  | .record fs, depth => by
      have hcost := costFields_le fs (depth + 1)
      have hlength := length_block '{' '}' depth (Doc.renderFields (depth + 1) fs)
      rw [Doc.cost, Doc.render]
      omega
theorem costItems_le : ∀ (xs : List Doc) (depth : Nat), Doc.costItems xs ≤
    2 * (Doc.renderItems depth xs).flatten.length + (Doc.renderItems depth xs).length
  | [], _ => by simp [Doc.costItems]
  | x :: xs, depth => by
      have hx := cost_le x depth
      have hxs := costItems_le xs depth
      simp only [Doc.costItems, Doc.renderItems, List.flatten_cons, List.length_cons,
        List.length_append]
      omega
theorem costFields_le : ∀ (fs : List (String × Doc)) (depth : Nat), Doc.costFields fs ≤
    2 * (Doc.renderFields depth fs).flatten.length + (Doc.renderFields depth fs).length
  | [], _ => by simp [Doc.costFields]
  | (k, d) :: fs, depth => by
      have hd := cost_le d depth
      have hfs := costFields_le fs depth
      simp only [Doc.costFields, Doc.renderFields, List.flatten_cons, List.length_cons,
        List.length_append]
      omega
end

theorem read_render {d : Doc} (h : d.Keyed) (s : List Char) (hs : s.all isSpace = true) :
    read (d.render 0 ++ s) = .ok d.toValue := by
  have hskip : skip s = [] := List.dropWhile_eq_nil_iff.2 (by simpa using hs)
  have hcost := cost_le d 0
  rw [read, skip_render, readValue_render d _ _ _ h (by simp only [List.length_append]; omega)]
  simp only [bind, Except.bind, hskip]
  rfl

end BotApi.Json
