import BotApi.Text.Octets
import BotApi.Yaml.Scalar
/-!
Tokens. Indentation opens and closes blocks, so the tokens of a text say where a block begins and
ends. That a key was read shows only at the colon after it; its tokens are then put in front of it.
-/

namespace BotApi.Yaml

inductive Directive where
  | version (major minor : Nat)
  | handle (handle stem : String)
  | other
  deriving Repr, DecidableEq

inductive Token where
  | directive (d : Directive)
  | documentStart
  | documentEnd
  | blockSequence
  | blockMapping
  | blockEnd
  | flowSequence
  | flowSequenceEnd
  | flowMapping
  | flowMappingEnd
  | key
  | value
  | item
  | comma
  | alias (name : String)
  | anchor (name : String)
  | tag (handle : Option String) (suffix : String)
  | scalar (text : String) (plain : Bool)
  | textEnd
  deriving Repr, DecidableEq

def isNameChar (c : Char) : Bool := c.isAlphanum || c = '-' || c = '_'

def takeName (c : Cursor) : Except Fault (String × Cursor) :=
  let (s, c) := c.takeWhile isNameChar
  if s.isEmpty then .error .token else .ok (.ofList s, c)

def takeNumber (c : Cursor) : Except Fault (Nat × Cursor) :=
  let (s, c) := c.takeWhile Text.isAsciiDigit
  match Text.decimalNumber? s with
  | some n => .ok (n, c)
  | none => .error .token

def ensure (p : Cursor → Bool) (c : Cursor) : Except Fault Cursor :=
  if p c then .ok c else .error .token

namespace Tag

def takeHandle (c : Cursor) : Except Fault (String × Cursor) :=
  if !c.isAt '!' then .error .token
  else
    let c := c.advance
    if c.isAt ' ' then .ok ("!", c)
    else
      let (s, c) := c.takeWhile isNameChar
      if c.isAt '!' then .ok (.ofList ('!' :: s ++ ['!']), c.advance)
      else if s.isEmpty then .ok ("!", c)
      else .error .token

def isUriChar (c : Char) : Bool := c.isAlphanum || "-;/?:@&=+$,_.!~*'()[]".toList.contains c

def takeOctets : Nat → Cursor → Except Fault (List UInt8 × Cursor)
  | 0, c => .ok ([], c)
  | n + 1, c =>
      if !c.isAt '%' then .ok ([], c)
      else match (c.peek 1).bind Text.hexValue?, (c.peek 2).bind Text.hexValue? with
        | some a, some b => (takeOctets n (c.skip 3)).map fun (bs, c) => (.ofNat (16 * a + b) :: bs, c)
        | _, _ => .error .token

def uriParts : Nat → Cursor → Except Fault (List Char × Cursor)
  | 0, c => .ok ([], c)
  | n + 1, c =>
      if c.isAt '%' then do
        let (bs, c) ← takeOctets (c.rest.length + 1) c
        let s ← (Text.Utf8.decode bs).mapError fun _ => Fault.token
        let (t, c) ← uriParts n c
        .ok (s ++ t, c)
      else
        let (s, c) := c.takeWhile isUriChar
        if s.isEmpty then .ok ([], c) else (uriParts n c).map fun (t, c) => (s ++ t, c)

def takeUri (c : Cursor) : Except Fault (String × Cursor) := do
  let (s, c) ← uriParts (c.rest.length + 1) c
  if s.isEmpty then .error .token else .ok (.ofList s, c)

def hasHandle (c : Cursor) : Bool :=
  (c.rest.drop 1).takeWhile (fun x => x = '\t' || !isGapChar x) |>.contains '!'

def scan (c : Cursor) : Except Fault (Token × Cursor) := do
  let (t, c) ← read c
  .ok (t, ← ensure (·.isSpace 0) c)
where
  read (c : Cursor) : Except Fault (Token × Cursor) :=
    if c.peek 1 == some '<' then do
      let (s, c) ← takeUri (c.skip 2)
      .ok (.tag none s, (← ensure (·.isAt '>') c).advance)
    else if c.isGap 1 then .ok (.tag none "!", c.advance)
    else do
      let (h, c) ← if hasHandle c then takeHandle c else .ok ("!", c.advance)
      let (s, c) ← takeUri c
      .ok (.tag (some h) s, c)

end Tag

namespace Directive

def finish (c : Cursor) : Except Fault Cursor := do
  let c ← ensure Cursor.isLineEnd c.skipSpaces.skipComment
  .ok c.takeBreak.2

def scan (c : Cursor) : Except Fault (Token × Cursor) := do
  let (name, c) ← takeName c.advance
  let c ← ensure (·.isSpace 0) c
  let (d, c) ← read name c
  .ok (.directive d, ← finish c)
where
  read (name : String) (c : Cursor) : Except Fault (Directive × Cursor) := do
    if name = "YAML" then
      let (major, c) ← takeNumber c.skipSpaces
      let c ← ensure (·.isAt '.') c
      let (minor, c) ← takeNumber c.advance
      .ok (.version major minor, ← ensure (·.isSpace 0) c)
    else if name = "TAG" then
      let (h, c) ← Tag.takeHandle c.skipSpaces
      let c ← ensure (·.isAt ' ') c
      let (s, c) ← Tag.takeUri c.skipSpaces
      .ok (.handle h s, ← ensure (·.isSpace 0) c)
    else .ok (.other, c.skipWhile (!isBreak ·))

end Directive

structure KeyStart where
  tokens : Nat
  required : Bool
  index : Nat
  line : Nat
  column : Nat
  deriving Repr

structure Layout where
  cursor : Cursor
  /-- The newest token comes first. -/
  tokens : List Token
  depth : Nat
  indent : Int
  indents : List Int
  mayStartKey : Bool
  /-- Where keys may have begun, by depth. -/
  starts : List (Nat × KeyStart)
  deriving Repr

namespace Layout

def ofChars (s : List Char) : Layout := ⟨.ofChars s, [], 0, -1, [], true, []⟩

def inFlow (l : Layout) : Bool := l.depth != 0

def emit (t : Token) (l : Layout) : Layout := { l with tokens := t :: l.tokens }

def mark (t : Token) (length : Nat) (l : Layout) : Layout :=
  emit t { l with cursor := l.cursor.skip length }

def insert (place : Nat) (t : Token) (l : Layout) : Layout :=
  let (newer, older) := l.tokens.splitAt (l.tokens.length - place)
  { l with tokens := newer ++ t :: older }

def allowKey (b : Bool) (l : Layout) : Layout := { l with mayStartKey := b }

def unwind (column : Int) (l : Layout) : Layout :=
  if l.inFlow then l else close l.indents l
where
  close (outer : List Int) (l : Layout) : Layout :=
    match outer with
    | [] => { l with indents := [] }
    | i :: outer =>
        if column < l.indent then close outer (emit .blockEnd { l with indent := i })
        else { l with indents := i :: outer }

def indentTo (column : Nat) (l : Layout) : Layout × Bool :=
  if l.indent < column then
    ({ l with indent := column, indents := l.indent :: l.indents }, true)
  else (l, false)

def isStale (l : Layout) (k : KeyStart) : Bool :=
  k.line != l.cursor.line || 1024 < l.cursor.index - k.index

def dropStale (l : Layout) : Except Fault Layout :=
  if l.starts.any fun s => l.isStale s.2 && s.2.required then .error .token
  else .ok { l with starts := l.starts.filter fun s => !l.isStale s.2 }

def start? (l : Layout) : Option KeyStart := l.starts.lookup l.depth

def dropStart (l : Layout) : Except Fault Layout :=
  if l.start?.any (·.required) then .error .token
  else .ok { l with starts := l.starts.filter (·.1 != l.depth) }

def saveStart (l : Layout) : Except Fault Layout :=
  if l.mayStartKey then do
    let l ← l.dropStart
    let c := l.cursor
    let k : KeyStart := ⟨l.tokens.length, !l.inFlow && l.indent == c.column, c.index, c.line, c.column⟩
    .ok { l with starts := (l.depth, k) :: l.starts }
  else .ok l

def skipGap : Nat → Layout → Layout
  | 0, l => l
  | n + 1, l =>
      let c := l.cursor.skipSpaces.skipComment
      match c.takeBreak with
      | ([], c) => { l with cursor := c }
      | (_, c) => skipGap n { l with cursor := c, mayStartKey := l.mayStartKey || !l.inFlow }

def scanBoundary (t : Token) (length : Nat) (l : Layout) : Except Fault Layout := do
  let l ← (l.unwind (-1)).dropStart
  .ok (mark t length (l.allowKey false))

def scanDirective (l : Layout) : Except Fault Layout := do
  let l ← (l.unwind (-1)).dropStart
  let (t, c) ← Directive.scan l.cursor
  .ok (emit t { l with cursor := c, mayStartKey := false })

def scanEnd (l : Layout) : Except Fault Layout := do
  let l ← (l.unwind (-1)).dropStart
  .ok (emit .textEnd l)

def openFlow (t : Token) (l : Layout) : Except Fault Layout := do
  let l ← l.saveStart
  .ok (mark t 1 { l with depth := l.depth + 1, mayStartKey := true })

def closeFlow (t : Token) (l : Layout) : Except Fault Layout := do
  let l ← l.dropStart
  .ok (mark t 1 { l with depth := l.depth - 1, mayStartKey := false })

def scanComma (l : Layout) : Except Fault Layout := do
  let l ← l.dropStart
  .ok (mark .comma 1 (l.allowKey true))

def openBlock (t : Token) (l : Layout) : Except Fault Layout :=
  if l.inFlow then .ok l
  else if !l.mayStartKey then .error .token
  else match l.indentTo l.cursor.column with
    | (l, true) => .ok (l.emit t)
    | (l, false) => .ok l

def scanItem (l : Layout) : Except Fault Layout := do
  let l ← l.openBlock .blockSequence
  let l ← l.dropStart
  .ok (mark .item 1 (l.allowKey true))

def scanKey (l : Layout) : Except Fault Layout := do
  let l ← l.openBlock .blockMapping
  let l ← l.dropStart
  .ok (mark .key 1 (l.allowKey !l.inFlow))

def scanValue (l : Layout) : Except Fault Layout :=
  match l.start? with
  | some k =>
      let l := { l with starts := l.starts.filter (·.1 != l.depth) }.insert k.tokens .key
      let l := if l.inFlow then l else match l.indentTo k.column with
        | (l, true) => l.insert k.tokens .blockMapping
        | (l, false) => l
      .ok (mark .value 1 (l.allowKey false))
  | none => do
      let l ← l.openBlock .blockMapping
      let l ← l.dropStart
      .ok (mark .value 1 (l.allowKey !l.inFlow))

def scanContent (scan : Cursor → Except Fault (Token × Cursor)) (l : Layout) : Except Fault Layout := do
  let l ← l.saveStart
  let (t, c) ← scan l.cursor
  .ok (emit t { l with cursor := c, mayStartKey := false })

def isNameEnd (c : Cursor) : Bool := c.next.all fun x => isGapChar x || "?:,]\x7d%@\x60".toList.contains x

def scanName (token : String → Token) (c : Cursor) : Except Fault (Token × Cursor) := do
  let (s, c) ← takeName c.advance
  .ok (token s, ← ensure isNameEnd c)

def scanQuoted (m : Quotation.Mark) (c : Cursor) : Except Fault (Token × Cursor) :=
  (Quotation.scan m c).map fun (s, c) => (.scalar (.ofList s) false, c)

def scanPlain (l : Layout) : Except Fault Layout := do
  let l ← l.saveStart
  let (s, g) := Plain.scan l.inFlow l.indent l.cursor
  .ok (emit (.scalar (.ofList s) true) { l with cursor := g.cursor, mayStartKey := g.broken })

def scanBlock (folded : Bool) (l : Layout) : Except Fault Layout := do
  let l ← l.dropStart
  let (s, c) ← Block.scan folded l.indent l.cursor
  .ok (emit (.scalar (.ofList s) false) { l with cursor := c, mayStartKey := true })

def startsPlain (l : Layout) (x : Char) : Bool :=
  !(isGapChar x || "-?:,[]\x7b\x7d#&*!|>'\"%@\x60".toList.contains x) ||
    (!l.cursor.isGap 1 && (x = '-' || (!l.inFlow && (x = '?' || x = ':'))))

def scanAt (x : Char) (l : Layout) : Except Fault Layout :=
  let c := l.cursor
  let atGap := l.inFlow || c.isGap 1
  if x = '%' && c.column = 0 then l.scanDirective
  else if c.column = 0 && c.isMark '-' then l.scanBoundary .documentStart 3
  else if c.column = 0 && c.isMark '.' then l.scanBoundary .documentEnd 3
  else if x = '[' then l.openFlow .flowSequence
  else if x = '\x7b' then l.openFlow .flowMapping
  else if x = ']' then l.closeFlow .flowSequenceEnd
  else if x = '\x7d' then l.closeFlow .flowMappingEnd
  else if x = ',' then l.scanComma
  else if x = '-' && c.isGap 1 then l.scanItem
  else if x = '?' && atGap then l.scanKey
  else if x = ':' && atGap then l.scanValue
  else if x = '*' then l.scanContent (scanName .alias)
  else if x = '&' then l.scanContent (scanName .anchor)
  else if x = '!' then l.scanContent Tag.scan
  else if x = '|' && !l.inFlow then l.scanBlock false
  else if x = '>' && !l.inFlow then l.scanBlock true
  else if x = '\'' then l.scanContent (scanQuoted .single)
  else if x = '"' then l.scanContent (scanQuoted .double)
  else if l.startsPlain x then l.scanPlain
  else .error .token

def step (l : Layout) : Except Fault Layout := do
  let l ← (l.skipGap (l.cursor.rest.length + 1)).dropStale
  let l := l.unwind l.cursor.column
  match l.cursor.next with
  | none => l.scanEnd
  | some x => l.scanAt x

def isDone (l : Layout) : Bool := l.tokens.head? == some .textEnd

def run : Nat → Layout → Layout × Option Fault
  | 0, l => (l, some .token)
  | n + 1, l => match l.step with
      | .error f => (l, some f)
      | .ok l => if l.isDone then (l, none) else run n l

end Layout

def isAllowed (c : Char) : Bool :=
  c = '\t' || c = '\n' || c = '\r' || c = '\x85' || ('\x20' ≤ c && c ≤ '\x7e') ||
    ('\xa0' ≤ c && c ≤ '\ufffd') || 0x10000 ≤ c.toNat

def Token.ofChars (s : List Char) : List Token × Option Fault :=
  if !s.all isAllowed then ([], some .character)
  else
    let s := if s.head? == some '\uFEFF' then s.drop 1 else s
    let (l, f) := Layout.run (s.length + 2) (.ofChars s)
    (l.tokens.reverse, f)

end BotApi.Yaml
