import BotApi.Html.Token
/-!
Trees from tokens. An element is closed by its own end tag or by that of an element around it, and
by nothing else; an end tag that closes nothing is dropped.
-/

namespace BotApi.Html

def keepsBlanks (name : String) : Bool := name == "pre" || name == "textarea"

def embeddingElements : List String := ["rt", "rp", "style", "script", "template"]

def isWordList (element name : String) : Bool :=
  ["class", "accesskey", "dropzone"].contains name ||
    [("a", "rel"), ("a", "rev"), ("link", "rel"), ("link", "rev"), ("td", "headers"),
      ("th", "headers"), ("form", "accept-charset"), ("object", "archive"), ("area", "rel"),
      ("icon", "sizes"), ("iframe", "sandbox"), ("output", "for")].contains (element, name)

structure Open where
  name : String
  attributes : List (String × String)
  inside : List Node

structure Builder where
  page : List Node
  opened : List Open
  pending : Option (List Char)
  /-- The names of elements that were closed where they opened, and may be closed again. -/
  settled : List String

namespace Builder

def add (b : Builder) (n : Node) : Builder :=
  match b.opened with
  | [] => { b with page := n :: b.page }
  | o :: os => { b with opened := { o with inside := n :: o.inside } :: os }

def isAsciiSpace (c : Char) : Bool := [' ', '\n', '\t', '\r', Char.ofNat 12].contains c

def condense (b : Builder) (s : List Char) : List Char :=
  if b.opened.any (fun o => keepsBlanks o.name) || !s.all isAsciiSpace then s
  else if s.contains '\n' then ['\n'] else [' ']

def kindOf (b : Builder) (k : TextKind) : TextKind :=
  if k = .plain && b.opened.any (fun o => embeddingElements.contains o.name) then .embedded else k

def flush (b : Builder) (k : TextKind) : Builder :=
  match b.pending with
  | none => b
  | some s => { b with pending := none }.add (.text (b.kindOf k) (b.condense s))

def write (b : Builder) (s : List Char) : Builder :=
  { b with pending := some ((b.pending.getD []) ++ s) }

def pop (b : Builder) : Builder :=
  match b.opened with
  | [] => b
  | o :: os => { b with opened := os }.add (.element o.name o.attributes o.inside.reverse)

def popTimes (b : Builder) : Nat → Builder
  | 0 => b
  | n + 1 => b.pop.popTimes n

def close (b : Builder) (name : String) : Builder :=
  match b.opened.findIdx? (·.name == name) with
  | some i => b.popTimes (i + 1)
  | none => b

/-- The last value of an attribute counts, at the place of the first. -/
def putAttribute (as : List (String × String)) (a : String × String) : List (String × String) :=
  if as.any (·.1 == a.1) then as.map fun b => if b.1 == a.1 then a else b else as ++ [a]

def wordsJoined (s : String) : String := Text.onChars (fun s => Text.join [' '] (Text.words s)) s

def attributesOf (name : String) (as : List (String × String)) : List (String × String) :=
  (as.foldl putAttribute []).map fun (k, v) => (k, if isWordList name k then wordsJoined v else v)

/-- The end tag of an element that was closed before does not even divide the text around it. -/
def take (b : Builder) : Token → Builder
  | .text s => b.write s
  | .note k s => (b.flush .plain).write s |>.flush k
  | .stop n =>
      if b.settled.contains n then { b with settled := b.settled.erase n }
      else (b.flush .plain).close n
  | .start n as closed =>
      let b := b.flush .plain
      let b := { b with opened := ⟨n, attributesOf n as, []⟩ :: b.opened }
      if closed then b.pop
      else if voidElements.contains n then { b.pop with settled := n :: b.settled }
      else b

def finish (b : Builder) : List Node :=
  let b := b.flush .plain
  (b.popTimes b.opened.length).page.reverse

end Builder

def parse? (s : List Char) : Option (List Node) :=
  (tokens? s).map fun ts => (ts.foldl Builder.take ⟨[], [], none, []⟩).finish

end BotApi.Html
