import BotApi.Text.Digit
import BotApi.Yaml.Cursor
/-!
The three ways to write a scalar: plain, in quotes, and as a block of indented lines. A single line
break within a plain or quoted scalar stands for a space, and of several the first is dropped.
-/

namespace BotApi.Yaml

def foldBreaks (first rest : List Char) : List Char :=
  if first != ['\n'] then first ++ rest else if rest.isEmpty then [' '] else rest

namespace Plain

def stops (flow : Bool) (x : Char) (next : Option Char) : Bool :=
  isGapChar x || (x = ':' && next.all fun y => isGapChar y || (flow && ",[]\x7b\x7d".toList.contains y)) ||
    (flow && ",?[]\x7b\x7d".toList.contains x)

def run (flow : Bool) : List Char → List Char
  | [] => []
  | x :: s => if stops flow x s.head? then [] else x :: run flow s

structure Gap where
  text : List Char
  cursor : Cursor
  broken : Bool

def emptyLines : Nat → Cursor → Option (List Char) × Cursor
  | 0, c => (some [], c)
  | n + 1, c =>
      if c.isAt ' ' then emptyLines n c.advance
      else match c.takeBreak with
        | ([], c) => (some [], c)
        | (b, c) =>
            if c.isBoundary then (none, c)
            else
              let (bs, c) := emptyLines n c
              (bs.map (b ++ ·), c)

def gap (c : Cursor) : Gap :=
  let (spaces, c) := c.takeWhile (· == ' ')
  match c.takeBreak with
  | ([], c) => ⟨spaces, c, false⟩
  | (b, c) =>
      if c.isBoundary then ⟨[], c, true⟩
      else match emptyLines (c.rest.length + 1) c with
        | (some bs, c) => ⟨foldBreaks b bs, c, true⟩
        | (none, c) => ⟨[], c, true⟩

def more (flow : Bool) (indent : Int) : Nat → Gap → List Char × Gap
  | 0, g => ([], g)
  | n + 1, g =>
      let part := run flow g.cursor.rest
      if g.cursor.isAt '#' || part.isEmpty then ([], g)
      else
        let next := gap (g.cursor.skip part.length)
        let taken := g.text ++ part
        if next.text.isEmpty || next.cursor.isAt '#' || (!flow && (next.cursor.column : Int) < indent)
        then (taken, next)
        else
          let (s, g) := more flow indent n next
          (taken ++ s, g)

def scan (flow : Bool) (indent : Int) (c : Cursor) : List Char × Gap :=
  more flow (indent + 1) (c.rest.length + 1) ⟨[], c, false⟩

end Plain

namespace Quotation

inductive Mark where
  | single
  | double
  deriving Repr, DecidableEq

def Mark.char : Mark → Char
  | single => '\''
  | double => '"'

def escapes : List (Char × Char) := [
  ('0', '\x00'), ('a', '\x07'), ('b', '\x08'), ('t', '\t'), ('\t', '\t'), ('n', '\n'), ('v', '\x0b'),
  ('f', '\x0c'), ('r', '\r'), ('e', '\x1b'), (' ', ' '), ('"', '"'), ('\\', '\\'), ('/', '/'),
  ('N', '\x85'), ('_', '\xa0'), ('L', '\u2028'), ('P', '\u2029')]

def codeLength? : Char → Option Nat
  | 'x' => some 2
  | 'u' => some 4
  | 'U' => some 8
  | _ => none

def codeValue? (digits : List Char) : Option Nat :=
  (digits.mapM Text.hexValue?).map fun ds => ds.foldl (fun n d => 16 * n + d) 0

def coded (length : Nat) (c : Cursor) : Except Fault (Char × Cursor) :=
  let digits := c.rest.take length
  match codeValue? digits with
  | some n =>
      if digits.length != length then .error .token
      else if 0x110000 ≤ n then .error .number
      else .ok (.ofNat n, c.skip length)
  | none => .error .token

def breaks : Nat → Cursor → Except Fault (List Char × Cursor)
  | 0, c => .ok ([], c)
  | n + 1, c =>
      if c.isBoundary then .error .token
      else match (c.skipWhile fun x => x == ' ' || x == '\t').takeBreak with
        | ([], c) => .ok ([], c)
        | (b, c) => (breaks n c).map fun (bs, c) => (b ++ bs, c)

def part (m : Mark) : Nat → Cursor → Except Fault (List Char × Cursor)
  | 0, c => .ok ([], c)
  | n + 1, c =>
      let (s, c) := c.takeWhile fun x => !isGapChar x && !"'\"\\".toList.contains x
      match c.next with
      | none => .ok (s, c)
      | some x =>
          if m = .single && x = '\'' && c.peek 1 == some '\'' then
            (part m n (c.skip 2)).map fun (t, c) => (s ++ '\'' :: t, c)
          else if (m = .double && x = '\'') || (m = .single && (x = '"' || x = '\\')) then
            (part m n c.advance).map fun (t, c) => (s ++ x :: t, c)
          else if m = .double && x = '\\' then do
            let (e, c) ← escaped n c.advance
            let (t, c) ← part m n c
            .ok (s ++ e ++ t, c)
          else .ok (s, c)
where
  escaped (n : Nat) (c : Cursor) : Except Fault (List Char × Cursor) :=
    match c.next with
    | none => .error .token
    | some x => match escapes.lookup x, codeLength? x with
        | some y, _ => .ok ([y], c.advance)
        | none, some k => (coded k c.advance).map fun (y, c) => ([y], c)
        | none, none => if isBreak x then breaks n c.takeBreak.2 else .error .token

def gap (c : Cursor) : Except Fault (List Char × Cursor) :=
  let (blanks, c) := c.takeWhile fun x => x == ' ' || x == '\t'
  match c.next with
  | none => .error .token
  | some x =>
      if isBreak x then
        let (b, c) := c.takeBreak
        (breaks (c.rest.length + 1) c).map fun (bs, c) => (foldBreaks b bs, c)
      else .ok (blanks, c)

def more (m : Mark) : Nat → Cursor → Except Fault (List Char × Cursor)
  | 0, _ => .error .token
  | n + 1, c =>
      if c.isAt m.char then .ok ([], c.advance)
      else do
        let (g, c) ← gap c
        let (s, c) ← part m (c.rest.length + 1) c
        let (t, c) ← more m n c
        .ok (g ++ s ++ t, c)

def scan (m : Mark) (c : Cursor) : Except Fault (List Char × Cursor) := do
  let (s, c) ← part m (c.rest.length + 1) c.advance
  let (t, c) ← more m (c.rest.length + 1) c
  .ok (s ++ t, c)

end Quotation

namespace Block

inductive Chomping where
  | strip
  | clip
  | keep
  deriving Repr, DecidableEq

def chomping? : Char → Option Chomping
  | '+' => some .keep
  | '-' => some .strip
  | _ => none

structure Head where
  chomping : Chomping
  increment : Option Nat

def increment? (c : Cursor) : Except Fault (Option Nat × Cursor) :=
  match c.next with
  | some x =>
      if x = '0' then .error .token
      else if Text.isAsciiDigit x then .ok (Text.hexValue? x, c.advance)
      else .ok (none, c)
  | none => .ok (none, c)

def head (c : Cursor) : Except Fault (Head × Cursor) :=
  match c.next.bind chomping? with
  | some k => (increment? c.advance).map fun (i, c) => (⟨k, i⟩, c)
  | none => (increment? c).map fun (i, c) =>
      match i, c.next.bind chomping? with
      | some i, some k => (⟨k, some i⟩, c.advance)
      | i, _ => (⟨.clip, i⟩, c)

def endHead (c : Cursor) : Except Fault Cursor :=
  if !c.isSpace 0 then .error .token
  else
    let c := c.skipSpaces.skipComment
    if c.isLineEnd then .ok c.takeBreak.2 else .error .token

def leading : Nat → Nat → Cursor → List Char × Nat × Cursor
  | 0, w, c => ([], w, c)
  | n + 1, w, c =>
      if c.isAt ' ' then
        let c := c.advance
        leading n (max w c.column) c
      else match c.takeBreak with
        | ([], c) => ([], w, c)
        | (b, c) =>
            let (bs, w, c) := leading n w c
            (b ++ bs, w, c)

def indentTo (indent : Nat) : Nat → Cursor → Cursor
  | 0, c => c
  | n + 1, c => if c.column < indent && c.isAt ' ' then indentTo indent n c.advance else c

def breaks (indent : Nat) : Nat → Cursor → List Char × Cursor
  | 0, c => ([], c)
  | n + 1, c =>
      match (indentTo indent indent c).takeBreak with
      | ([], c) => ([], c)
      | (b, c) =>
          let (bs, c) := breaks indent n c
          (b ++ bs, c)

def isIndented (indent : Nat) (c : Cursor) : Bool := c.column == indent && c.next.isSome

def startsBlank (c : Cursor) : Bool := c.isAt ' ' || c.isAt '\t'

def joint (folded blankBefore blankAfter : Bool) (lineBreak empty : List Char) : List Char :=
  if folded && lineBreak == ['\n'] && !blankBefore && !blankAfter then
    if empty.isEmpty then [' '] else []
  else lineBreak

def lines (folded : Bool) (indent : Nat) :
    Nat → List Char → Cursor → List Char × List Char × List Char × Cursor
  | 0, empty, c => ([], [], empty, c)
  | n + 1, empty, c =>
      let blank := startsBlank c
      let (s, c) := c.takeWhile (!isBreak ·)
      let (b, c) := c.takeBreak
      let (next, c) := breaks indent (c.rest.length + 1) c
      if isIndented indent c then
        let (t, last, tail, c) := lines folded indent n next c
        (empty ++ s ++ joint folded blank (startsBlank c) b next ++ t, last, tail, c)
      else (empty ++ s, b, next, c)

def scan (folded : Bool) (parent : Int) (c : Cursor) : Except Fault (List Char × Cursor) := do
  let (h, c) ← head c.advance
  let c ← endHead c
  let least := (max (parent + 1) 1).toNat
  let (empty, indent, c) := match h.increment with
    | some k =>
        let indent := least + k - 1
        let (bs, c) := breaks indent (c.rest.length + 1) c
        (bs, indent, c)
    | none =>
        let (bs, w, c) := leading (c.rest.length + 1) 0 c
        (bs, max least w, c)
  let (s, last, tail, c) :=
    if isIndented indent c then lines folded indent (c.rest.length + 1) empty c else ([], [], empty, c)
  .ok (s ++ (if h.chomping = .strip then [] else last) ++ (if h.chomping = .keep then tail else []), c)

end Block

end BotApi.Yaml
