import BotApi.Text.Blank
import BotApi.Text.Rewrite
/-!
Escaping text for messages in the second version of the markup language: special characters get a
backslash, while inline links stay links.
-/

namespace BotApi.Markdown

def special : List Char := "_*[]()~`>#+-=|\x7b\x7d.!".toList

def isSpecial (c : Char) : Bool := special.contains c

def escapeText (s : List Char) : List Char := Text.escapeChars isSpecial s

structure Link where
  text : List Char
  address : List Char
  deriving Repr, DecidableEq

namespace Link

def written (l : Link) : List Char := '[' :: l.text ++ "](".toList ++ l.address ++ [')']

def isAddressSpecial (c : Char) : Bool := c == ')' || c == '\\'

def escaped (l : Link) : List Char :=
  '[' :: escapeText l.text ++ "](".toList ++ Text.escapeChars isAddressSpecial l.address ++ [')']

/-- The address goes up to the last closing parenthesis before a blank. -/
def address? (run : List Char) : Option (List Char) :=
  match run.reverse.dropWhile (· != ')') with
  | _ :: rest => if rest.isEmpty then none else some rest.reverse
  | [] => none

def atHead? : List Char → Option Link
  | '[' :: s => do
      let text := s.takeWhile (· != ']')
      guard !text.isEmpty
      let rest ← Text.dropStart? "](".toList (s.drop text.length)
      let address ← address? (rest.takeWhile fun c => !Text.isBlank c)
      pure ⟨text, address⟩
  | _ => none

def match? (s : List Char) : Option Text.Match :=
  (atHead? s).map fun l => ⟨l.escaped, l.written.length⟩

end Link

def escapeChar (c : Char) : List Char := if isSpecial c then ['\\', c] else [c]

def escape (s : List Char) : List Char :=
  if s.all Text.isBlank then s else Text.rewrite Link.match? escapeChar s

inductive Style where
  | bold
  | italic
  | underline
  | strikethrough
  deriving Repr, DecidableEq

def Style.name : Style → String
  | bold => "bold"
  | italic => "italic"
  | underline => "underline"
  | strikethrough => "strikethrough"

def Style.ofName? (name : String) : Option Style :=
  [bold, italic, underline, strikethrough].find? (·.name == name)

def Style.marker : Style → List Char
  | bold => ['*']
  | italic => ['_']
  | underline => ['_', '_']
  | strikethrough => ['~']

def format (style : Style) (s : List Char) (escaping : Bool := true) : List Char :=
  style.marker ++ (if escaping then escape s else s) ++ style.marker

end BotApi.Markdown
