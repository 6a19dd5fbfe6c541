import BotApi.Html.Node
import BotApi.Html.Reference
import BotApi.Html.Render
import BotApi.Text.Case
/-!
Tokens of markup. What cannot be read as markup is text; only a marked section of unknown kind is
refused.

A construct may lack its end. Such a construct stops the reading once; when it is met again, or
another one is, it is text. The same holds for a reference that is no number.
-/

namespace BotApi.Html

inductive Token where
  | text (s : List Char)
  | start (name : String) (attributes : List (String × String)) (closed : Bool)
  | stop (name : String)
  | note (kind : TextKind) (s : List Char)
  deriving Repr

inductive Scan where
  | found (ts : List Token) (rest : List Char)
  | unfinished
  | refused

def isTagNameChar (c : Char) : Bool :=
  !(['\t', '\n', '\r', Char.ofNat 12, ' ', '/', '>', Char.ofNat 0].contains c)

def isAsciiLetter (c : Char) : Bool := c.isAlpha

def lowered (s : List Char) : String := .ofList (Text.lowercase s)

def skipGap : List Char → Bool × List Char
  | [] => (false, [])
  | c :: s =>
      if Text.isBlank c || (c == '/' && s.head? != some '>') then (true, (skipGap s).2)
      else (false, c :: s)

theorem length_skipGap (s : List Char) : (skipGap s).2.length ≤ s.length := by
  induction s with
  | nil => simp [skipGap]
  | cons c s ih =>
      simp only [skipGap]
      split
      · exact Nat.le_succ_of_le ih
      · exact Nat.le_refl _

def isValueChar (c : Char) : Bool := c != '>' && !Text.isBlank c

def bareValue (s : List Char) : List Char × List Char :=
  (s.takeWhile isValueChar, s.dropWhile isValueChar)

def quotedValue? (q : Char) (s : List Char) : Option (List Char × List Char) :=
  match s.dropWhile (· != q) with
  | _ :: rest => some (s.takeWhile (· != q), rest)
  | [] => none

/-- A value that starts with a quote. One that is never closed opens no value: the value is empty
if there are blanks before the quote, and otherwise starts at the second sign. -/
def openedValue? (signs : Nat) (gap : List Char) (q : Char) (s : List Char) :
    Option (List Char × List Char) :=
  match quotedValue? q s with
  | some r => some r
  | none =>
      match gap.getLast? with
      | some b => some ([], b :: q :: s)
      | none => if 2 ≤ signs then some (bareValue ('=' :: q :: s)) else none

def value? (s : List Char) : Option (List Char × List Char) :=
  let s := s.dropWhile Text.isBlank
  let signs := s.takeWhile (· == '=')
  let s := s.dropWhile (· == '=')
  let gap := s.takeWhile Text.isBlank
  if signs.isEmpty then none
  else match s.dropWhile Text.isBlank with
    | [] => some ([], [])
    | c :: s =>
        if c = '"' ∨ c = '\'' then openedValue? signs.length gap c s else some (bareValue (c :: s))

theorem length_dropWhile_le (p : Char → Bool) (s : List Char) :
    (s.dropWhile p).length ≤ s.length := (List.dropWhile_sublist p).length_le

theorem length_quotedValue? {q : Char} {s v rest : List Char}
    (h : quotedValue? q s = some (v, rest)) : rest.length < s.length := by
  have le := length_dropWhile_le (· != q) s
  unfold quotedValue? at h
  split at h
  · next e =>
      cases h
      rw [e] at le
      exact Nat.lt_of_succ_le le
  · cases h

theorem length_take_drop (p : Char → Bool) (s : List Char) :
    (s.takeWhile p).length + (s.dropWhile p).length = s.length := by
  rw [← List.length_append, List.takeWhile_append_dropWhile]

theorem length_openedValue? {signs : Nat} {gap s v rest : List Char} {q : Char}
    (pos : 0 < signs) (h : openedValue? signs gap q s = some (v, rest)) :
    rest.length ≤ signs + gap.length + s.length + 1 := by
  unfold openedValue? at h
  split at h
  · next e =>
      cases h
      have := length_quotedValue? e
      omega
  · split at h
    · next e =>
        cases h
        have := List.length_pos_of_mem (List.mem_of_getLast? e)
        simp only [List.length_cons]
        omega
    · split at h
      · cases h
        have := length_dropWhile_le isValueChar ('=' :: q :: s)
        simp only [List.length_cons] at this
        omega
      · cases h

theorem length_value? {s v rest : List Char} (h : value? s = some (v, rest)) :
    rest.length ≤ s.length := by
  have blanks := length_dropWhile_le Text.isBlank s
  have signs := length_take_drop (· == '=') (s.dropWhile Text.isBlank)
  have gap := length_take_drop Text.isBlank ((s.dropWhile Text.isBlank).dropWhile (· == '='))
  unfold value? at h
  simp only at h
  split at h
  · cases h
  · next pos =>
      split at h
      · cases h
        simp
      · next c t e =>
          rw [e, List.length_cons] at gap
          split at h
          · have := length_openedValue? (by cases hs : List.takeWhile (· == '=') _ <;> simp_all) h
            omega
          · cases h
            have := length_dropWhile_le isValueChar (c :: t)
            simp only [List.length_cons] at this
            omega

def isNameStart (c : Char) : Bool := !Text.isBlank c && c != '/' && c != '>'

def isAttributeChar (c : Char) : Bool := isNameStart c && c != '='

def endsApart (s : List Char) : Bool :=
  s.getLast?.any fun c => c == '\'' || c == '"' || Text.isBlank c

def attributeAt (c : Char) (s : List Char) : (String × String) × Bool × List Char :=
  let name := c :: s.takeWhile isAttributeChar
  let rest := s.dropWhile isAttributeChar
  match value? rest with
  | some (v, rest) => ((lowered name, .ofList (dereference v)), true, rest)
  | none => ((lowered name, ""), endsApart name, rest)

theorem length_attributeAt (c : Char) (s : List Char) : (attributeAt c s).2.2.length ≤ s.length := by
  have name := length_dropWhile_le isAttributeChar s
  unfold attributeAt
  simp only
  split
  · next e => exact Nat.le_trans (length_value? e) name
  · exact name

def attributes (apart : Bool) (s : List Char) : List (String × String) × List Char :=
  match _gap : skipGap s with
  | (_, []) => ([], [])
  | (gap, c :: s') =>
      if (apart || gap) && isNameStart c then
        let (as, rest) := attributes (attributeAt c s').2.1 (attributeAt c s').2.2
        ((attributeAt c s').1 :: as, rest)
      else ([], c :: s')
termination_by s.length
decreasing_by
  have skipped := length_skipGap s
  rw [_gap] at skipped
  exact Nat.lt_of_le_of_lt (length_attributeAt c s') skipped

def scanStart (s : List Char) : Scan :=
  let name := s.takeWhile isTagNameChar
  let (as, rest) := attributes (endsApart name) (s.dropWhile isTagNameChar)
  match rest with
  | '>' :: rest => .found [.start (lowered name) as false] rest
  | '/' :: '>' :: rest => .found [.start (lowered name) as true] rest
  | [] => .unfinished
  | c :: _ =>
      if isAsciiLetter c || c == '=' || c == '/' then .unfinished
      else .found [.text ('<' :: s.take (s.length - rest.length))] rest

def upToEnd? (s : List Char) : Option (List Char × List Char) := Text.splitFirst? ['>'] s

def scanNote (kind : TextKind) (s : List Char) : Scan :=
  match upToEnd? s with
  | some (a, rest) => .found [.note kind a] rest
  | none => .unfinished

def isPlainNameChar (c : Char) : Bool :=
  c.isAlphanum || c == '-' || c == '.' || c == ':' || c == '_'

def startsWithLetter (s : List Char) : Bool := s.head?.any isAsciiLetter

def plainName? (inside : List Char) : Option (List Char) :=
  let s := inside.dropWhile Text.isBlank
  if startsWithLetter s && (s.dropWhile isPlainNameChar).all Text.isBlank then
    some (s.takeWhile isPlainNameChar)
  else none

def scanStop (s : List Char) : Scan :=
  match upToEnd? s with
  | none => .unfinished
  | some (inside, rest) => match plainName? inside with
      | some name => .found [.stop (lowered name)] rest
      | none =>
          if startsWithLetter inside then
            .found [.stop (lowered (inside.takeWhile isTagNameChar))] rest
          else if inside.isEmpty then .found [] rest
          else .found [.note .comment inside] rest

def upToMark? (mark : List Char) : List Char → Option (List Char × List Char)
  | [] => none
  | c :: s =>
      match (Text.dropStart? mark (c :: s)).map (·.dropWhile Text.isBlank) with
      | some ('>' :: rest) => some ([], rest)
      | _ => (upToMark? mark s).map fun (a, b) => (c :: a, b)

def upToSectionEnd? : List Char → Option (List Char × List Char)
  | [] => none
  | c :: s =>
      match (if c = ']' then s.dropWhile Text.isBlank else []) with
      | ']' :: t => match t.dropWhile Text.isBlank with
          | '>' :: rest => some ([], rest)
          | _ => (upToSectionEnd? s).map fun (a, b) => (c :: a, b)
      | _ => (upToSectionEnd? s).map fun (a, b) => (c :: a, b)

def standardSections : List String := ["temp", "cdata", "ignore", "include", "rcdata"]

def officeSections : List String := ["if", "else", "endif"]

def scanSection (s : List Char) : Scan :=
  match s with
  | [] => .unfinished
  | c :: _ =>
      let name := s.takeWhile fun c => c.isAlphanum || c == '-' || c == '_' || c == '.'
      let rest := (s.drop name.length).dropWhile Text.isBlank
      if !isAsciiLetter c then .refused
      else if rest.isEmpty then .unfinished
      else
        let found :=
          if standardSections.contains (lowered name) then some (upToSectionEnd? s)
          else if officeSections.contains (lowered name) then some (upToMark? [']'] s)
          else none
        match found with
        | none => .refused
        | some none => .unfinished
        | some (some (a, rest)) =>
            if lowered (a.take 6) = "cdata[" then .found [.note .characters (a.drop 6)] rest
            else .found [.note .declaration a] rest

def scanMarkup (s : List Char) : Scan :=
  match s with
  | '/' :: s => scanStop s
  | '!' :: '-' :: '-' :: s => match upToMark? ['-', '-'] s with
      | some (a, rest) => .found [.note .comment a] rest
      | none => .unfinished
  | '?' :: s => scanNote .instruction s
  | '!' :: '[' :: s => scanSection s
  | '!' :: s =>
      if lowered (s.take 7) = "doctype" then match upToEnd? (s.drop 7) with
        | some (a, rest) => .found [.note .doctype (a.drop 1)] rest
        | none => .unfinished
      else scanNote .comment s
  | c :: s =>
      if isAsciiLetter c then scanStart (c :: s) else .found [.text ['<']] (c :: s)
  | [] => .unfinished

def asText (s : List Char) : List Char × List Char :=
  match upToEnd? s with
  | some (a, rest) => ('<' :: a ++ ['>'], rest)
  | none =>
      let a := s.takeWhile (· != '<')
      if a.length < s.length then ('<' :: a, s.drop a.length) else (['<'], s)

def isReferenceName (c : Char) : Bool := c.isAlphanum || c == '-' || c == '.'

def entityName? (s : List Char) : Option (List Char × List Char) :=
  let run := s.takeWhile isReferenceName
  let rest := s.drop run.length
  if !startsWithLetter s then none
  else if !rest.isEmpty then some (run, afterSemicolon rest)
  else
    let tail := run.reverse.takeWhile Char.isAlphanum
    let name := (run.reverse.drop (tail.length + 1)).reverse
    if tail.length < run.length then some (name, run.drop name.length) else none

def numberReference? (s : List Char) : Option (Nat × List Char) :=
  (number? s).bind fun (n, rest) => match rest with
    | [] => none
    | c :: _ => if isHexDigit c then none else some (n, afterSemicolon rest)

def upToRawEnd? (name : String) : List Char → Option (List Char × List Char)
  | [] => none
  | c :: s =>
      match rawEnd? (c :: s) with
      | some rest => some ([], rest)
      | none => (upToRawEnd? name s).map fun (a, b) => (c :: a, b)
where
  rawEnd? : List Char → Option (List Char)
    | '<' :: '/' :: s =>
        let s := s.dropWhile Text.isBlank
        if lowered (s.take name.length) = name then
          match (s.drop name.length).dropWhile Text.isBlank with
          | '>' :: rest => some rest
          | _ => none
        else none
    | _ => none

structure Reading where
  final : Bool
  raw : Option String

inductive Next where
  | go (ts : List Token) (r : Reading) (rest : List Char)
  | done (ts : List Token)
  | refused

/-- The reading is stopped: the first time it goes on, the second time the rest is text. -/
def Reading.halt (r : Reading) (ts : List Token) (rest : List Char) : Next :=
  if r.final then .done (ts ++ if rest.isEmpty then [] else [.text rest])
  else .go ts { r with final := true } rest

def Reading.markup (r : Reading) (s : List Char) : Next :=
  match scanMarkup s with
  | .refused => .refused
  | .found ts rest =>
      let raw := ts.findSome? fun
        | .start n _ false => if rawElements.contains n then some n else none
        | _ => none
      .go ts { r with raw } rest
  | .unfinished =>
      if s.isEmpty then r.halt [] ['<']
      else if r.final then
        let (a, rest) := asText s
        .go [.text a] r rest
      else r.halt [] ('<' :: s)

def Reading.reference (r : Reading) (s : List Char) : Next :=
  match s with
  | '#' :: s' => match numberReference? s' with
      | some (n, rest) => .go [.text [numbered n]] r rest
      | none =>
          if s'.contains ';' then r.halt [.text ['&', '#']] s' else r.halt [] ('&' :: s)
  | [] => r.halt [] ['&']
  | c :: s' => match entityName? s with
      | some (n, rest) =>
          let text := match entity? (.ofList n) with
            | some e => e.toList
            | none => '&' :: n
          .go [.text text] r rest
      | none =>
          if !isAsciiLetter c then .go [.text ['&']] r s
          else if r.final && s'.isEmpty then r.halt [] [c]
          else r.halt [] ('&' :: s)

def Reading.next (r : Reading) (s : List Char) : Next :=
  match r.raw with
  | some name => match upToRawEnd? name s with
      | some (a, rest) =>
          .go ((if a.isEmpty then [] else [.text a]) ++ [.stop name]) { r with raw := none } rest
      | none => .done []
  | none => match s with
      | [] => .done []
      | '<' :: s => r.markup s
      | '&' :: s => r.reference s
      | c :: s =>
          let run := (c :: s).takeWhile fun c => c != '<' && c != '&'
          .go [.text run] r ((c :: s).drop run.length)

def tokensFrom : Nat → Reading → List Char → Option (List Token)
  | 0, _, _ => some []
  | n + 1, r, s => match r.next s with
      | .refused => none
      | .done ts => some ts
      | .go ts r rest => (tokensFrom n r rest).map (ts ++ ·)

def tokens? (s : List Char) : Option (List Token) := tokensFrom (s.length + 2) ⟨false, none⟩ s

end BotApi.Html
