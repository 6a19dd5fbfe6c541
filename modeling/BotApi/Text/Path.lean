import BotApi.Text.Blank
/-!
Paths with slashes, in normal form: no empty or single-dot part, and the empty path is a dot. Two dots are a part like
any other, and a relative path is not made absolute: paths that lead to one place may differ.
-/

namespace BotApi.Text

structure Path where
  absolute : Bool
  parts : List String
  deriving Repr, DecidableEq

namespace Path

def ofText (s : String) : Path :=
  let parts := (pieces '/' s.toList).filter fun p => !p.isEmpty && p != ['.']
  ⟨s.toList.head? == some '/', parts.map String.ofList⟩

def text (p : Path) : String :=
  let body := String.intercalate "/" p.parts
  if p.absolute then "/" ++ body
  else if p.parts.isEmpty then "." else body

def name (p : Path) : String := p.parts.getLast?.getD ""

def parent (p : Path) : Path := { p with parts := p.parts.dropLast }

def child (p : Path) (part : String) : Path := { p with parts := p.parts ++ [part] }

def ancestors (p : Path) : List Path :=
  (List.range p.parts.length).filterMap fun i =>
    if i = 0 then none else some { p with parts := p.parts.take i }

end Path

def baseName (s : List Char) : List Char := (s.reverse.takeWhile (· != '/')).reverse

end BotApi.Text
