import BotApi.Catalog.Compile
import BotApi.Html.Tree
import BotApi.Log
import BotApi.Page.Section
import BotApi.Page.Table
/-!
The elements that a documentation page describes, and the catalog of a page.
-/

namespace BotApi

namespace Page

open Html (Node)

def headingName (s : Subsection) : List Char := Text.trim Text.isBlank s.heading.textContent

def Topic.kind : Topic → Kind
  | type => .type
  | _ => .method

def outerAll (ns : List Node) : String := .ofList (ns.flatMap Node.outer)

def bare (s : Subsection) (id : String) (kind : Kind) : Element where
  id := id
  name := .ofList (headingName s)
  kind := kind
  description := outerAll s.description
  fields := none
  params := none
  subtypes := none
  notes := if s.notes.isEmpty || (outerAll s.notes).isEmpty then none else some (outerAll s.notes)

def filled (s : Subsection) (id : String) : Except CompileFault Element :=
  match s.body with
  | none => match (topicOf (headingName s)).kind with
      | .type => .ok { bare s id .type with fields := some [] }
      | .method => .ok { bare s id .method with params := some [] }
  | some body =>
      if body.isElement ["table"] then (listing body).map fun
        | .fields fs => { bare s id .type with fields := some fs }
        | .params ps => { bare s id .method with params := some ps }
      else (subtypes body).map fun ids => { bare s id .type with subtypes := some ids }

def element (s : Subsection) : Except CompileFault Element :=
  let name := String.ofList (headingName s)
  match s.heading.children.findSome? Node.anchorId? with
  | none => .error (.noAnchor name)
  | some id => match filled s id with
      | .ok e => .ok e
      | .error f => .error (.element name f)

def surprise (s : Subsection) (e : Element) : List LogEntry :=
  let announced := (topicOf (headingName s)).kind
  let n := e.name
  if announced = e.kind then []
  else
    let looks := Kind.word announced
    let found := Kind.word e.kind
    [.warning s!"'{n}' looks like a {looks} but is documented as a {found}"]

def duplicate (es : List Element) (e : Element) : List LogEntry :=
  let id := e.id
  if es.any (·.id == id) then
    [.warning s!"Duplicate API element id '{id}', keeping the last one"]
  else []

def putElement (es : List Element) (e : Element) : List Element :=
  if es.any (·.id == e.id) then es.map fun f => if f.id == e.id then e else f else es ++ [e]

def isNotes (s : Subsection) : Bool := topicOf s.heading.textContent == .notes

def collect (es : List Element) : List Subsection → Noted CompileFault (List Element)
  | [] => ([], .ok es)
  | s :: ss =>
      match element s with
      | .error f => ([], .error f)
      | .ok e =>
          let (notes, r) := collect (putElement es e) ss
          (surprise s e ++ duplicate es e ++ notes, r)

def elements (page : List Node) : Noted CompileFault (List Element) :=
  match (content page).bind subsections with
  | .error f => ([], .error f)
  | .ok ss => collect [] (ss.filter fun s => !isNotes s)

def compile (page : List Node) : Noted CompileFault Spec :=
  let (notes, r) := elements page
  (notes, r.bind Spec.ofElements)

end Page

def Html.read (html : String) : Except Error (List Html.Node) :=
  match Html.parse? html.toList with
  | some page => .ok page
  | none => .error (.misuse .markup "")

def Spec.ofPage (html : String) : Noted Error Spec :=
  match Html.read html with
  | .error e => ([], .error e)
  | .ok page =>
      let (notes, r) := Page.compile page
      (notes, r.mapError .compile)

end BotApi
