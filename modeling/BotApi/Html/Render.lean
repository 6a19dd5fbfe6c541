import BotApi.Html.Node
/-!
Markup as text. Attributes stand in the order of their names.
-/

namespace BotApi.Html

def voidElements : List String := [
  "area", "base", "basefont", "bgsound", "br", "col", "command", "embed", "frame", "hr", "image",
  "img", "input", "isindex", "keygen", "link", "menuitem", "meta", "nextid", "param", "source",
  "spacer", "track", "wbr"]

def rawElements : List String := ["script", "style"]

def escapeChar (c : Char) : List Char :=
  if c = '&' then "&amp;".toList
  else if c = '<' then "&lt;".toList
  else if c = '>' then "&gt;".toList
  else [c]

def escape (s : List Char) : List Char := s.flatMap escapeChar

def quoteValue (s : List Char) : List Char :=
  if !s.contains '"' then '"' :: s ++ ['"']
  else if !s.contains '\'' then '\'' :: s ++ ['\'']
  else '"' :: (s.flatMap fun c => if c = '"' then "&quot;".toList else [c]) ++ ['"']

def renderAttribute (a : String × String) : List Char :=
  ' ' :: a.1.toList ++ '=' :: quoteValue (escape a.2.toList)

def renderAttributes (as : List (String × String)) : List Char :=
  (as.mergeSort (fun a b => a.1 ≤ b.1)).flatMap renderAttribute

def renderText (raw : Bool) (k : TextKind) (s : List Char) : List Char :=
  match k with
  | .plain | .embedded => if raw then s else escape s
  | k => k.opening ++ s ++ k.closing

mutual
def render (raw : Bool) : Node → List Char
  | .text k s => renderText raw k s
  | .element n as cs =>
      let start := '<' :: n.toList ++ renderAttributes as
      if cs.isEmpty && voidElements.contains n then start ++ ['/', '>']
      else start ++ '>' :: renderAll (rawElements.contains n) cs ++ '<' :: '/' :: n.toList ++ ['>']
def renderAll (raw : Bool) : List Node → List Char
  | [] => []
  | n :: ns => render raw n ++ renderAll raw ns
end

namespace Node

def inner : Node → List Char
  | .element n _ cs => renderAll (rawElements.contains n) cs
  | .text _ _ => []

def outer : Node → List Char
  | .text _ s => s
  | n => render false n

end Node

end BotApi.Html
