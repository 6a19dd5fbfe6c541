import Mathlib.Data.List.Basic
import Mathlib.Data.List.TakeDrop
import BotApi.Proofs.Text.Split
import BotApi.Proofs.Text.Utf8
import BotApi.Wire.Form
/-!
Reading forms. Fields in one line are read as they were, and so are parts between boundaries, up to the
escapes in their names, provided that the boundary stands in no part.
-/

namespace BotApi.Wire

open Text

namespace Percent

theorem hexValue?_upperHex : ∀ {n : Nat}, n < 16 → Text.hexValue? (upperHex n) = some n := by decide

theorem isUnreserved_upperHex : ∀ {n : Nat}, n < 16 → isUnreserved (upperHex n) = true := by decide

theorem ascii_of_isUnreserved {c : Char} (h : isUnreserved c = true) : c.toNat < 0x80 := by
  simp only [isUnreserved, isAsciiAlphanumeric, isAsciiLetter, isAsciiDigit, Bool.or_eq_true, Bool.and_eq_true,
    decide_eq_true_eq, beq_iff_eq, Char.le_def, UInt32.le_iff_toNat_le] at h
  rcases h with ((((((⟨-, h⟩ | ⟨-, h⟩) | ⟨-, h⟩) | rfl) | rfl) | rfl) | rfl)
  · exact Nat.lt_of_le_of_lt h (by decide)
  · exact Nat.lt_of_le_of_lt h (by decide)
  · exact Nat.lt_of_le_of_lt h (by decide)
  · decide
  · decide
  · decide
  · decide

theorem mem_escapeForm {bs : List UInt8} {c : Char} (hc : c ∈ escapeForm bs) :
    c = '+' ∨ c = '%' ∨ isUnreserved c = true := by
  obtain ⟨b, -, hc⟩ := List.mem_flatMap.1 hc
  have hb := b.toNat_lt
  dsimp only at hc
  split at hc
  · exact .inl (List.mem_singleton.1 hc)
  split at hc
  next hplain =>
    rw [List.mem_singleton.1 hc]
    exact .inr (.inr hplain)
  next =>
    simp only [escapeOctet, List.mem_cons, List.not_mem_nil, or_false] at hc
    rcases hc with rfl | rfl | rfl
    · exact .inr (.inl rfl)
    · exact .inr (.inr (isUnreserved_upperHex (by omega)))
    · exact .inr (.inr (isUnreserved_upperHex (by omega)))

def formOctets (s : List Char) : List UInt8 := octets (s.map fun c => if c = '+' then ' ' else c)

theorem octets_cons {c : Char} (hc : c ≠ '%') (s : List Char) : octets (c :: s) = Utf8.encodeChar c ++ octets s := by
  rw [octets]
  exact fun _ _ _ h => absurd h hc

theorem octets_escapeOctet (b : UInt8) (s : List Char) : octets (escapeOctet b ++ s) = b :: octets s := by
  have hb := b.toNat_lt
  have hcode : b.toNat / 16 * 16 + b.toNat % 16 = b.toNat := by omega
  simp only [escapeOctet, List.cons_append, List.nil_append, octets, hexValue?_upperHex (show b.toNat / 16 < 16 by omega),
    hexValue?_upperHex (show b.toNat % 16 < 16 by omega), hcode, UInt8.ofNat_toNat]

theorem toNat_ofNat_octet (b : UInt8) : (Char.ofNat b.toNat).toNat = b.toNat := by
  have hb := b.toNat_lt
  have hvalid : b.toNat.isValidChar := .inl (by omega)
  rw [Char.ofNat, dif_pos hvalid]
  rfl

theorem encodeChar_octet {b : UInt8} (hb : b.toNat < 0x80) : Utf8.encodeChar (Char.ofNat b.toNat) = [b] := by
  rw [Utf8.encodeChar, toNat_ofNat_octet, if_pos hb, Utf8.octet, UInt8.ofNat_toNat]

theorem formOctets_escapeForm (bs : List UInt8) : formOctets (escapeForm bs) = bs := by
  induction bs with
  | nil => rfl
  | cons b bs ih =>
      have hb := b.toNat_lt
      have hplus {n : Nat} (hn : n < 16) : upperHex n ≠ '+' := by
        intro h
        have := isUnreserved_upperHex hn
        rw [h] at this
        cases this
      rw [escapeForm, List.flatMap_cons, ← escapeForm, formOctets, List.map_append]
      dsimp only
      split
      next hspace =>
        have hcode : b = 0x20 := by
          rw [← UInt8.toNat_inj, ← toNat_ofNat_octet, hspace]
          rfl
        rw [List.map_singleton, if_pos rfl, List.singleton_append, octets_cons (by decide), ← formOctets, ih, hcode]
        rfl
      split
      next hplain =>
        have hascii := ascii_of_isUnreserved hplain
        rw [toNat_ofNat_octet] at hascii
        have hne (c : Char) (hc : isUnreserved c = false) : Char.ofNat b.toNat ≠ c := by
          rintro rfl
          rw [hplain] at hc
          cases hc
        rw [List.map_singleton, if_neg (hne '+' rfl), List.singleton_append, octets_cons (hne '%' rfl), ← formOctets,
          ih, encodeChar_octet hascii, List.singleton_append]
      next =>
        have hsame : (escapeOctet b).map (fun c => if c = '+' then ' ' else c) = escapeOctet b := by
          simp [escapeOctet, hplus (show b.toNat / 16 < 16 by omega), hplus (show b.toNat % 16 < 16 by omega)]
        rw [hsame, octets_escapeOctet, ← formOctets, ih]

end Percent

namespace Form

/-! Fields in one line -/

def field? (s : List Char) : Option (List UInt8 × List UInt8) :=
  (splitFirst? ['='] s).map fun (k, v) => (Percent.formOctets k, Percent.formOctets v)

def fields? (s : List Char) : Option (List (List UInt8 × List UInt8)) := (pieces '&' s).mapM field?

theorem not_mem_escapeForm {c : Char} (hplus : c ≠ '+') (hescape : c ≠ '%') (hc : Percent.isUnreserved c = false)
    (bs : List UInt8) : c ∉ Percent.escapeForm bs := by
  intro h
  rcases Percent.mem_escapeForm h with rfl | rfl | hplain
  · exact hplus rfl
  · exact hescape rfl
  · rw [hc] at hplain
    cases hplain

theorem field?_escapeForm (k v : List UInt8) :
    field? (Percent.escapeForm k ++ '=' :: Percent.escapeForm v) = some (k, v) := by
  rw [field?, splitFirst?_append (not_mem_escapeForm (by decide) (by decide) rfl k), Option.map_some]
  dsimp only
  rw [Percent.formOctets_escapeForm, Percent.formOctets_escapeForm]

theorem fields?_joined {fields : List (List UInt8 × List UInt8)} (hne : fields ≠ []) :
    fields? (joined fields) = some fields := by
  have hpieces : pieces '&' (joined fields) =
      fields.map fun f => Percent.escapeForm f.1 ++ '=' :: Percent.escapeForm f.2 := by
    refine pieces_join (by simpa using hne) fun p hp => ?_
    obtain ⟨f, -, rfl⟩ := List.mem_map.1 hp
    have hk := not_mem_escapeForm (c := '&') (by decide) (by decide) rfl f.1
    have hv := not_mem_escapeForm (c := '&') (by decide) (by decide) rfl f.2
    simp [hk, hv]
  rw [fields?, hpieces, List.mapM_map]
  clear hpieces hne
  induction fields with
  | nil => rfl
  | cons f fields ih =>
      rw [List.mapM_cons, Function.comp_apply, field?_escapeForm, ih]
      rfl

/-! Names of parts -/

def unescapeName : List Char → List Char
  | '%' :: '2' :: '2' :: s => '"' :: unescapeName s
  | '%' :: '0' :: 'D' :: s => '\r' :: unescapeName s
  | '%' :: '0' :: 'A' :: s => '\n' :: unescapeName s
  | c :: s => c :: unescapeName s
  | [] => []

-- What the names of parts have escapes for is part of the name itself.
def HasEscape (s : List Char) : Prop := "%22".toList <:+: s ∨ "%0D".toList <:+: s ∨ "%0A".toList <:+: s

theorem escapeName_cons {c : Char} (hquote : c ≠ '"') (hreturn : c ≠ '\r') (hfeed : c ≠ '\n') (s : List Char) :
    escapeName (c :: s) = c :: escapeName s := by
  unfold escapeName
  rw [List.flatMap_cons]
  split
  · exact absurd rfl hquote
  · exact absurd rfl hreturn
  · exact absurd rfl hfeed
  · rfl

theorem mem_escapeName {c : Char} (hc : c ∈ ['"', '\r', '\n']) (s : List Char) : c ∉ escapeName s := by
  intro h
  obtain ⟨d, -, hd⟩ := List.mem_flatMap.1 h
  have hall : ("%22".toList ++ "%0D".toList ++ "%0A".toList).all
      (fun e => !(['"', '\r', '\n'].contains e)) = true := rfl
  have hescapes {e : Char} (he : e ∈ "%22".toList ++ "%0D".toList ++ "%0A".toList) : e ∉ ['"', '\r', '\n'] := by
    intro hmem
    have hfree := List.all_eq_true.1 hall e he
    rw [List.contains_iff_mem.2 hmem] at hfree
    cases hfree
  split at hd
  · exact hescapes (List.mem_append_left _ (List.mem_append_left _ hd)) hc
  · exact hescapes (List.mem_append_left _ (List.mem_append_right _ hd)) hc
  · exact hescapes (List.mem_append_right _ hd) hc
  next hquote hreturn hfeed =>
    rw [List.mem_singleton.1 hd] at hc
    simp only [List.mem_cons, List.not_mem_nil, or_false] at hc
    exact hc.elim hquote (·.elim hreturn hfeed)

theorem eq_cons_of_escapeName {c : Char} (hc : c ≠ '%') {s t : List Char} (h : escapeName s = c :: t) :
    ∃ u, s = c :: u ∧ escapeName u = t := by
  cases s with
  | nil => cases h
  | cons d u =>
      by_cases hquote : d = '"'
      · subst hquote
        cases h
        exact absurd rfl hc
      by_cases hreturn : d = '\r'
      · subst hreturn
        cases h
        exact absurd rfl hc
      by_cases hfeed : d = '\n'
      · subst hfeed
        cases h
        exact absurd rfl hc
      rw [escapeName_cons hquote hreturn hfeed] at h
      cases h
      exact ⟨u, rfl, rfl⟩

theorem eq_cons_cons_of_escapeName {c d : Char} (hc : c ≠ '%') (hd : d ≠ '%') {s t : List Char}
    (h : escapeName s = c :: d :: t) : ∃ u, s = c :: d :: u := by
  obtain ⟨u, rfl, hu⟩ := eq_cons_of_escapeName hc h
  obtain ⟨w, rfl, -⟩ := eq_cons_of_escapeName hd hu
  exact ⟨w, rfl⟩

theorem unescapeName_escapeName (s : List Char) : unescapeName (escapeName s) = unescapeName s := by
  fun_induction unescapeName s with
  | case1 s ih => exact congrArg ('"' :: ·) ih
  | case2 s ih => exact congrArg ('\r' :: ·) ih
  | case3 s ih => exact congrArg ('\n' :: ·) ih
  | case4 c s hquote hreturn hfeed ih =>
      by_cases hc : c ∈ ['"', '\r', '\n']
      · simp only [List.mem_cons, List.not_mem_nil, or_false] at hc
        rcases hc with rfl | rfl | rfl
        · exact congrArg ('"' :: ·) ih
        · exact congrArg ('\r' :: ·) ih
        · exact congrArg ('\n' :: ·) ih
      · simp only [List.mem_cons, List.not_mem_nil, or_false, not_or] at hc
        rw [escapeName_cons hc.1 hc.2.1 hc.2.2, unescapeName, ih]
        · rintro t rfl ht
          obtain ⟨u, rfl⟩ := eq_cons_cons_of_escapeName (by decide) (by decide) ht
          exact hquote u rfl rfl
        · rintro t rfl ht
          obtain ⟨u, rfl⟩ := eq_cons_cons_of_escapeName (by decide) (by decide) ht
          exact hreturn u rfl rfl
        · rintro t rfl ht
          obtain ⟨u, rfl⟩ := eq_cons_cons_of_escapeName (by decide) (by decide) ht
          exact hfeed u rfl rfl
  | case5 => rfl

theorem HasEscape.cons {s : List Char} (h : HasEscape s) (c : Char) : HasEscape (c :: s) :=
  h.imp (·.trans (List.suffix_cons c s).isInfix) (·.imp (·.trans (List.suffix_cons c s).isInfix)
    (·.trans (List.suffix_cons c s).isInfix))

theorem unescapeName_of_not_hasEscape {s : List Char} (h : ¬ HasEscape s) : unescapeName s = s := by
  fun_induction unescapeName s with
  | case1 s => exact absurd (.inl ⟨[], s, rfl⟩) h
  | case2 s => exact absurd (.inr (.inl ⟨[], s, rfl⟩)) h
  | case3 s => exact absurd (.inr (.inr ⟨[], s, rfl⟩)) h
  | case4 c s _ _ _ ih => rw [ih fun hs => h (hs.cons c)]
  | case5 => rfl

def quoted? (key s : List Char) : Option (List Char × List Char) :=
  (dropStart? (key ++ ['=', '"']) s).bind fun s =>
    (splitFirst? ['"'] s).map fun (name, rest) => (unescapeName name, rest)

def heading? (s : List Char) : Option (List Char × Option (List Char)) :=
  (dropStart? "Content-Disposition: form-data; ".toList s).bind fun s =>
    (quoted? "name".toList s).bind fun (name, rest) =>
      if rest.isEmpty then some (name, none)
      else (quoted? ([';', ' '] ++ "filename".toList) rest).bind fun (fileName, rest) =>
        if rest.isEmpty then some (name, some fileName) else none

theorem dropStart?_key (key s : List Char) : dropStart? (key ++ ['=', '"']) (key ++ '=' :: '"' :: s) = some s := by
  have hkey : key ++ '=' :: '"' :: s = (key ++ ['=', '"']) ++ s := by simp
  rw [hkey, dropStart?_append]

theorem quoted?_escapeName (key name rest : List Char) :
    quoted? key (key ++ '=' :: '"' :: (escapeName name ++ '"' :: rest)) = some (unescapeName name, rest) := by
  rw [quoted?, dropStart?_key, Option.bind_some, splitFirst?_append (mem_escapeName (by simp) name), Option.map_some]
  dsimp only
  rw [unescapeName_escapeName]

theorem join_named (key key' name : List Char) (fileName : Option (List Char)) :
    join [';', ' '] (named key (some name) ++ named key' fileName) = key ++ '=' :: '"' :: (escapeName name ++ '"' ::
      fileName.elim [] fun f => ([';', ' '] ++ key') ++ '=' :: '"' :: (escapeName f ++ ['"'])) := by
  cases fileName <;> simp [named, join]

theorem heading_eq (p : Part) : p.heading = "Content-Disposition: form-data; ".toList ++
    join [';', ' '] (named "name".toList p.name ++ named "filename".toList p.fileName) := rfl

theorem heading?_heading {p : Part} {name : List Char} (hname : p.name = some name) :
    heading? p.heading = some (unescapeName name, p.fileName.map unescapeName) := by
  rw [heading?, heading_eq, dropStart?_append, Option.bind_some, hname, join_named, quoted?_escapeName,
    Option.bind_some]
  cases p.fileName with
  | none => rfl
  | some fileName =>
      have hquoted := quoted?_escapeName ([';', ' '] ++ "filename".toList) fileName []
      dsimp only [Option.elim_some]
      rw [if_neg (by simp), hquoted]
      rfl

/-! Parts between boundaries -/

def sections (delimiter : List UInt8) : Nat → List UInt8 → List (List UInt8)
  | _, [] => [[]]
  | n + 1, _ :: s => sections delimiter n s
  | 0, b :: s =>
      if delimiter.isPrefixOf (b :: s) then [] :: sections delimiter (delimiter.length - 1) s
      else match sections delimiter 0 s with
        | [] => [[b]]
        | p :: ps => (b :: p) :: ps

variable {delimiter : List UInt8}

theorem sections_skip {n : Nat} {s : List UInt8} (hs : s.length = n) (rest : List UInt8) :
    sections delimiter n (s ++ rest) = sections delimiter 0 rest := by
  induction s generalizing n with
  | nil =>
      subst hs
      rfl
  | cons b s ih =>
      subst hs
      rw [List.length_cons, List.cons_append, sections]
      exact ih rfl

theorem sections_append {s rest : List UInt8} (hne : delimiter ≠ [])
    (h : ∀ t u, s = t ++ u → u ≠ [] → ¬ delimiter <+: u ++ (delimiter ++ rest)) :
    sections delimiter 0 (s ++ (delimiter ++ rest)) = s :: sections delimiter 0 rest := by
  induction s with
  | nil =>
      cases delimiter with
      | nil => exact absurd rfl hne
      | cons b delimiter =>
          rw [List.nil_append, List.cons_append, sections, if_pos (by simp), List.length_cons, Nat.add_sub_cancel,
            sections_skip rfl]
  | cons b s ih =>
      have hbegins := h [] (b :: s) rfl (by simp)
      have hrest := ih fun t u htu hu => h (b :: t) u (by rw [htu, List.cons_append]) hu
      rw [List.cons_append] at hbegins ⊢
      rw [sections, if_neg (by simpa using hbegins), hrest]

theorem sections_of_not_infix {s : List UInt8} (h : ¬ delimiter <:+: s) : sections delimiter 0 s = [s] := by
  induction s with
  | nil => rfl
  | cons b s ih =>
      have hbegins : ¬ delimiter <+: b :: s := fun hd => h hd.isInfix
      rw [sections, if_neg (by simpa using hbegins), ih fun hd => h (hd.trans (List.suffix_cons b s).isInfix)]

-- A delimiter of which the first octet is found nowhere else in it overlaps no other one.
theorem not_begins_within {c : UInt8} {d s : List UInt8} (hc : c ∉ d) (hs : ¬ (c :: d) <:+: s) (rest : List UInt8) :
    ∀ t u, s = t ++ u → u ≠ [] → ¬ (c :: d) <+: u ++ ((c :: d) ++ rest) := by
  rintro t u rfl hu hbegins
  rcases Nat.le_total (c :: d).length u.length with hle | hle
  · have hwithin := List.prefix_of_prefix_length_le hbegins (List.prefix_append u _) hle
    exact hs (hwithin.isInfix.trans (List.suffix_append t u).isInfix)
  · obtain ⟨b, hb⟩ := List.prefix_of_prefix_length_le (List.prefix_append u _) hbegins hle
    cases u with
    | nil => exact hu rfl
    | cons e u =>
        rw [List.cons_append, List.cons.injEq] at hb
        obtain ⟨rfl, rfl⟩ := hb
        cases b with
        | nil =>
            rw [List.append_nil] at hs
            exact hs (List.suffix_append t _).isInfix
        | cons b bs =>
            rw [← List.cons_append, List.append_assoc, List.prefix_append_right_inj] at hbegins
            obtain ⟨w, hw⟩ := hbegins
            simp only [List.cons_append, List.cons.injEq] at hw
            exact hc (by simp [hw.1])

def Part.text (p : Part) : List UInt8 := Utf8.encode (p.heading ++ lineEnd ++ lineEnd) ++ p.content

def part? (s : List UInt8) : Option Part :=
  (s.dropPrefix? (Utf8.encode lineEnd)).bind fun s =>
    let (heading, s) := s.span (· != 0x0D)
    (s.dropPrefix? (Utf8.encode (lineEnd ++ lineEnd))).bind fun content =>
      (Utf8.decode heading).toOption.bind fun heading =>
        (heading? heading).map fun (name, fileName) => ⟨some name, fileName, content⟩

def closed? : List (List UInt8) → Option (List Part)
  | [] => none
  | s :: ss =>
      if (Utf8.encode ['-', '-']).isPrefixOf s then some []
      else (part? s).bind fun p => (closed? ss).map (p :: ·)

def delimiterOf (boundary : List Char) : List UInt8 := Utf8.encode (lineEnd ++ '-' :: '-' :: boundary)

def parts? (boundary : List Char) (body : List UInt8) : Option (List Part) :=
  closed? (sections (delimiterOf boundary) 0 (Utf8.encode lineEnd ++ body)).tail

def Part.reading (p : Part) : Part := ⟨p.name.map unescapeName, p.fileName.map unescapeName, p.content⟩

theorem not_mem_heading {p : Part} (hname : p.name.isSome = true) : '\r' ∉ p.heading := by
  obtain ⟨name, hname⟩ := Option.isSome_iff_exists.1 hname
  have hstart : '\r' ∉ "Content-Disposition: form-data; ".toList := by decide
  have hescape := mem_escapeName (c := '\r') (by simp)
  rw [heading_eq, hname, join_named, List.mem_append, not_or]
  refine ⟨hstart, ?_⟩
  cases p.fileName <;> simp [hescape]

theorem part?_text {p : Part} (hname : p.name.isSome = true) : part? (Utf8.encode lineEnd ++ p.text) = some p.reading := by
  have hheading : ∀ b ∈ Utf8.encode p.heading, (b != 0x0D) = true := by
    intro b hb
    have hreturn : (0x0D : UInt8) ∉ Utf8.encode p.heading := Utf8.not_mem_encode rfl (by decide) (not_mem_heading hname)
    exact bne_iff_ne.2 fun h => hreturn (h ▸ hb)
  have hspan : p.text.span (· != 0x0D) = (Utf8.encode p.heading, Utf8.encode (lineEnd ++ lineEnd) ++ p.content) := by
    have htext : p.text = Utf8.encode p.heading ++ (0x0D :: (Utf8.encode ('\n' :: lineEnd) ++ p.content)) := by
      rw [Part.text, List.append_assoc p.heading, Utf8.encode_append, List.append_assoc]
      rfl
    rw [htext, List.span_eq_takeWhile_dropWhile, List.takeWhile_append_of_pos hheading,
      List.dropWhile_append_of_pos hheading, List.takeWhile_cons_of_neg (by decide),
      List.dropWhile_cons_of_neg (by decide), List.append_nil]
    rfl
  obtain ⟨name, hname⟩ := Option.isSome_iff_exists.1 hname
  rw [part?, List.dropPrefix?_append_of_beq _ (beq_self_eq_true _), Option.bind_some, hspan]
  dsimp only
  rw [List.dropPrefix?_append_of_beq _ (beq_self_eq_true _), Option.bind_some, Utf8.decode_encode]
  dsimp only [Except.toOption]
  rw [Option.bind_some, heading?_heading hname, Option.map_some, Part.reading, hname]
  rfl

def behind (boundary : List Char) : List Part → List UInt8
  | [] => Utf8.encode ('-' :: '-' :: lineEnd)
  | p :: ps => Utf8.encode lineEnd ++ p.text ++ (delimiterOf boundary ++ behind boundary ps)

theorem multipart_eq (boundary : List Char) (ps : List Part) :
    Utf8.encode lineEnd ++ multipart boundary ps = delimiterOf boundary ++ behind boundary ps := by
  induction ps with
  | nil =>
      rw [multipart, List.flatMap_nil, List.nil_append, delimiterOf, behind, ← Utf8.encode_append, ← Utf8.encode_append]
      simp
  | cons p ps ih =>
      have hps : multipart boundary (p :: ps) = p.octets boundary ++ multipart boundary ps := by
        rw [multipart, multipart, List.flatMap_cons, List.append_assoc]
      have hp : Utf8.encode lineEnd ++ p.octets boundary =
          delimiterOf boundary ++ (Utf8.encode lineEnd ++ p.text) ++ Utf8.encode lineEnd := by
        simp only [Part.octets, Part.text, delimiterOf, List.flatMap_append, List.append_assoc, List.cons_append,
          Utf8.encode, List.flatMap_cons]
      rw [hps, ← List.append_assoc, hp, List.append_assoc, ih, behind]
      simp only [List.append_assoc]

theorem delimiterOf_eq (boundary : List Char) :
    delimiterOf boundary = 0x0D :: Utf8.encode ('\n' :: '-' :: '-' :: boundary) := rfl

theorem not_infix_closing (boundary : List Char) :
    ¬ delimiterOf boundary <:+: Utf8.encode ('-' :: '-' :: lineEnd) := by
  rintro ⟨s, t, hst⟩
  cases s with
  | nil => cases hst
  | cons b s =>
      have hlength := congrArg List.length hst
      simp [delimiterOf, lineEnd, Utf8.encode, Utf8.encodeChar] at hlength
      omega

theorem not_infix_text {boundary : List Char} {p : Part} (h : ¬ Utf8.encode boundary <:+: p.text) :
    ¬ delimiterOf boundary <:+: Utf8.encode lineEnd ++ p.text := by
  rintro ⟨s, t, hst⟩
  have hsplit : s ++ delimiterOf boundary ++ t =
      (s ++ Utf8.encode (lineEnd ++ ['-', '-'])) ++ (Utf8.encode boundary ++ t) := by
    have hdelimiter : delimiterOf boundary = Utf8.encode (lineEnd ++ ['-', '-']) ++ Utf8.encode boundary := rfl
    simp only [hdelimiter, List.append_assoc]
  have hlength : (Utf8.encode lineEnd).length ≤ (s ++ Utf8.encode (lineEnd ++ ['-', '-'])).length := by
    rw [List.length_append]
    exact Nat.le_add_left_of_le (by decide)
  rw [hsplit] at hst
  have hdrop := congrArg (List.drop (Utf8.encode lineEnd).length) hst
  rw [List.drop_append_of_le_length hlength, List.drop_left] at hdrop
  exact h ⟨_, t, by rw [List.append_assoc]; exact hdrop⟩

theorem sections_behind {boundary : List Char} (hline : '\r' ∉ boundary) {ps : List Part}
    (h : ∀ p ∈ ps, ¬ Utf8.encode boundary <:+: p.text) : sections (delimiterOf boundary) 0 (behind boundary ps) =
      ps.map (fun p => Utf8.encode lineEnd ++ p.text) ++ [Utf8.encode ('-' :: '-' :: lineEnd)] := by
  induction ps with
  | nil => exact sections_of_not_infix (not_infix_closing boundary)
  | cons p ps ih =>
      have hfirst : (0x0D : UInt8) ∉ Utf8.encode ('\n' :: '-' :: '-' :: boundary) :=
        Utf8.not_mem_encode (c := '\r') rfl (by decide) (by simpa using hline)
      have happart := not_begins_within hfirst (not_infix_text (h p (by simp))) (behind boundary ps)
      rw [← delimiterOf_eq] at happart
      rw [behind, sections_append (by simp [delimiterOf_eq]) happart, ih fun q hq => h q (List.mem_cons_of_mem _ hq)]
      rfl

theorem parts?_multipart {boundary : List Char} (hline : '\r' ∉ boundary) {ps : List Part}
    (hnames : ∀ p ∈ ps, p.name.isSome = true) (h : ∀ p ∈ ps, ¬ Utf8.encode boundary <:+: p.text) :
    parts? boundary (multipart boundary ps) = some (ps.map Part.reading) := by
  have hsections : sections (delimiterOf boundary) 0 (Utf8.encode lineEnd ++ multipart boundary ps) =
      [] :: sections (delimiterOf boundary) 0 (behind boundary ps) := by
    rw [multipart_eq]
    exact sections_append (s := []) (by simp [delimiterOf_eq]) (by simp)
  rw [parts?, hsections, List.tail_cons, sections_behind hline h]
  clear hsections h
  induction ps with
  | nil => rfl
  | cons p ps ih =>
      have hopen : ¬ (Utf8.encode ['-', '-']).isPrefixOf (Utf8.encode lineEnd ++ p.text) = true :=
        Bool.false_ne_true
      rw [List.map_cons, List.cons_append, closed?, if_neg hopen, part?_text (hnames p (by simp)), Option.bind_some,
        ih fun q hq => hnames q (List.mem_cons_of_mem _ hq)]
      rfl

end Form

end BotApi.Wire
