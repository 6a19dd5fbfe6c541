import BotApi.Error
import BotApi.Html.Node
import BotApi.Text.Letter
/-!
Sections of the documentation page. Its content is a list of nodes, which headings of the third
level divide into sections, and those of the fourth into subsections.
-/

namespace BotApi.Page

open Html (Node)

def contentId : String := "dev_page_content"

def firstSection : String := "Getting updates"

def isSectionHeading (n : Node) : Bool := n.isElement ["h3"]

def isHeading (n : Node) : Bool := n.isElement ["h4"]

def isBody (n : Node) : Bool := n.isElement ["table", "ul"]

structure Subsection where
  heading : Node
  description : List Node
  body : Option Node
  notes : List Node

def isContent : Node → Bool
  | .element _ _ _ => true
  | .text .comment _ => false
  | .text _ s => !s.all Text.isBlank

def heldBy (id : String) (n : Node) : Bool := n.attribute? "id" == some id

def content (page : List Node) : Except CompileFault (List Node) :=
  match (Node.nodesList page).find? (heldBy contentId) with
  | none => .error (.noContent contentId)
  | some root => .ok (root.children.filter isContent)

def runs (p : Node → Bool) : List Node → List (List Node)
  | [] => []
  | n :: ns =>
      match runs p ns with
      | [] => [[n]]
      | r :: rs => match r with
          | m :: _ => if p m then [n] :: r :: rs else (n :: r) :: rs
          | [] => [n] :: rs

def startsSections (n : Node) : Bool :=
  isSectionHeading n && Text.trim Text.isBlank n.textContent == firstSection.toList

def sections (nodes : List Node) : Except CompileFault (List (List Node)) :=
  match nodes.dropWhile (fun n => !startsSections n) with
  | [] => .error (.noSection firstSection)
  | ns => .ok (runs isSectionHeading ns)

def Subsection.ofRun? : List Node → Option Subsection
  | [] => none
  | heading :: rest =>
      let after := rest.dropWhile (fun n => !isBody n)
      some ⟨heading, rest.takeWhile (fun n => !isBody n), after.head?, after.tail⟩

def subsectionsOf (nodes : List Node) : List Subsection :=
  (runs isHeading (nodes.dropWhile (fun n => !isHeading n))).filterMap Subsection.ofRun?

def subsections (nodes : List Node) : Except CompileFault (List Subsection) :=
  (sections nodes).map (·.flatMap subsectionsOf)

inductive Topic where
  | notes
  | type
  | method
  deriving Repr, DecidableEq

def topicOf (heading : List Char) : Topic :=
  let name := Text.trim Text.isBlank heading
  if name.any Text.isBlank then .notes
  else if name.head?.any Text.isCapital then .type
  else .method

end BotApi.Page
