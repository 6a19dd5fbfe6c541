import BotApi.Yaml.Fault
/-!
A cursor in a text: what is left of it, and the place it has come to. Columns count characters from
the start of the line.
-/

namespace BotApi.Yaml

def isBreak (c : Char) : Bool := c = '\n' || c = '\x85' || c = '\u2028' || c = '\u2029'

def isGapChar (c : Char) : Bool := c = ' ' || c = '\t' || isBreak c

structure Cursor where
  rest : List Char
  index : Nat
  line : Nat
  column : Nat
  deriving Repr

namespace Cursor

def ofChars (s : List Char) : Cursor := ⟨s, 0, 0, 0⟩

def peek (c : Cursor) (k : Nat) : Option Char := c.rest[k]?

def next (c : Cursor) : Option Char := c.peek 0

def isAt (c : Cursor) (x : Char) : Bool := c.next == some x

def isGap (c : Cursor) (k : Nat) : Bool := (c.peek k).all isGapChar

def isSpace (c : Cursor) (k : Nat) : Bool := (c.peek k).all fun x => x != '\t' && isGapChar x

def isLineEnd (c : Cursor) : Bool := c.next.all isBreak

/-- The byte order mark takes no column. -/
def advance (c : Cursor) : Cursor :=
  match c.rest with
  | [] => c
  | x :: s =>
      if isBreak x then ⟨s, c.index + 1, c.line + 1, 0⟩
      else ⟨s, c.index + 1, c.line, if x = '\uFEFF' then c.column else c.column + 1⟩

def skip : Nat → Cursor → Cursor
  | 0, c => c
  | n + 1, c => skip n c.advance

def takeWhile (p : Char → Bool) (c : Cursor) : List Char × Cursor :=
  let t := c.rest.takeWhile p
  (t, c.skip t.length)

def skipWhile (p : Char → Bool) (c : Cursor) : Cursor := (c.takeWhile p).2

def skipSpaces (c : Cursor) : Cursor := c.skipWhile (· == ' ')

def skipComment (c : Cursor) : Cursor := if c.isAt '#' then c.skipWhile (!isBreak ·) else c

/-- A line break stands for a line feed, but the two separators stand for themselves. -/
def takeBreak (c : Cursor) : List Char × Cursor :=
  match c.next with
  | some x =>
      if x = '\n' || x = '\x85' then (['\n'], c.advance)
      else if isBreak x then ([x], c.advance)
      else ([], c)
  | none => ([], c)

def isMark (c : Cursor) (x : Char) : Bool :=
  c.peek 0 == some x && c.peek 1 == some x && c.peek 2 == some x && c.isGap 3

def isBoundary (c : Cursor) : Bool := c.isMark '-' || c.isMark '.'

end Cursor

end BotApi.Yaml
