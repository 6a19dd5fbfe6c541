import BotApi.Text.Blank
/-!
Trees of markup: elements with attributes and children, and texts of several kinds. Only plain texts
and character sections count as the text of an element around them.
-/

namespace BotApi.Html

inductive TextKind where
  | plain
  | characters
  | embedded
  | comment
  | doctype
  | declaration
  | instruction
  deriving Repr, DecidableEq

inductive Node where
  | text (kind : TextKind) (content : List Char)
  | element (name : String) (attributes : List (String × String)) (children : List Node)
  deriving Repr, Inhabited

namespace TextKind

def isContent : TextKind → Bool
  | plain | characters => true
  | _ => false

def opening : TextKind → List Char
  | plain | embedded => []
  | characters => "<![CDATA[".toList
  | comment => "<!--".toList
  | doctype => "<!DOCTYPE ".toList
  | declaration | instruction => "<?".toList

def closing : TextKind → List Char
  | plain | embedded => []
  | characters => "]]>".toList
  | comment => "-->".toList
  | doctype => ">\n".toList
  | declaration => "?>".toList
  | instruction => ">".toList

end TextKind

namespace Node

def isElement (names : List String) : Node → Bool
  | element n _ _ => names.contains n
  | text _ _ => false

def children : Node → List Node
  | element _ _ cs => cs
  | text _ _ => []

def attribute? (n : Node) (name : String) : Option String :=
  match n with
  | element _ as _ => (as.find? (·.1 == name)).map (·.2)
  | text _ _ => none

mutual
def contents : Node → List (List Char)
  | text k s => if k.isContent then [s] else []
  | element _ _ cs => contentsList cs
def contentsList : List Node → List (List Char)
  | [] => []
  | n :: ns => contents n ++ contentsList ns
end

def textContent (n : Node) : List Char := n.contents.flatten

def trimmedContents (n : Node) : List (List Char) :=
  (n.contents.map (Text.trim Text.isBlank)).filter fun s => !s.isEmpty

def trimmedText (n : Node) : List Char := n.trimmedContents.flatten

mutual
def nodes : Node → List Node
  | text k s => [.text k s]
  | element n as cs => .element n as cs :: nodesList cs
def nodesList : List Node → List Node
  | [] => []
  | n :: ns => nodes n ++ nodesList ns
end

mutual
def within (path : List String) (above : List String) : Node → List Node
  | text _ _ => []
  | element n _ cs => withinList path (n :: above) cs
def withinList (path : List String) (above : List String) : List Node → List Node
  | [] => []
  | n :: ns =>
      let here := if path.reverse.isPrefixOf above then [n] else []
      here ++ within path above n ++ withinList path above ns
end

def select (path : List String) (name : String) (n : Node) : List Node :=
  (within path [] n).filter (isElement [name])

end Node

end BotApi.Html
