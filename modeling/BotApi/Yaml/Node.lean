import BotApi.Yaml.Kind
import BotApi.Yaml.Moment
import BotApi.Yaml.Token
/-!
Nodes: the tree of a document, each part with its tag. An alias stands for the node of its anchor.
A text holds one document at most.
-/

namespace BotApi.Yaml

inductive Node where
  | scalar (tag text : String)
  | sequence (tag : String) (items : List Node)
  | mapping (tag : String) (entries : List (Node × Node))
  deriving Inhabited

def Kind.ofPlain (s : List Char) : Kind :=
  let w := String.ofList s
  if nullWords.contains w then .null
  else if trueWords.contains w || falseWords.contains w then .flag
  else if isNumber s then .number
  else if isInteger s then .integer
  else if w = "<<" then .merge
  else if w = "=" then .equals
  else if (Moment.ofChars? s).isSome then .moment
  else .text

namespace Node

def sequenceTag : String := coreStem ++ "seq"

def mappingTag : String := coreStem ++ "map"

def tag : Node → String
  | scalar t _ | sequence t _ | mapping t _ => t

structure Reading where
  tokens : List Token
  fault : Option Fault
  handles : List (String × String)
  anchors : List (String × Node)

abbrev Read := StateT Reading (Except Fault)

def defaultHandles : List (String × String) := [("!", "!"), ("!!", coreStem)]

def peek : Read Token := do
  let r ← get
  match r.tokens, r.fault with
  | t :: _, _ => pure t
  | [], some f => throw f
  | [], none => throw .grammar

def drop : Read Unit := modify fun r => { r with tokens := r.tokens.drop 1 }

def isAt (ts : List Token) : Read Bool := do return ts.contains (← peek)

def take (t : Token) : Read Bool := do
  if ← isAt [t] then
    drop
    pure true
  else pure false

def need (t : Token) : Read Unit := do
  unless ← take t do throw .grammar

structure Properties where
  anchor : Option String
  tag : Option String

def takeAnchor : Read (Option String) := do
  match ← peek with
  | .anchor a => do
      drop
      pure (some a)
  | _ => pure none

def takeTag : Read (Option String) := do
  match ← peek with
  | .tag handle suffix => do
      drop
      match handle with
      | none => pure (some suffix)
      | some h => match (← get).handles.lookup h with
          | some stem => pure (some (stem ++ suffix))
          | none => throw .grammar
  | _ => pure none

def properties : Read Properties := do
  match ← takeAnchor with
  | some a => pure ⟨some a, ← takeTag⟩
  | none => do
      let t ← takeTag
      pure ⟨← if t.isSome then takeAnchor else pure none, t⟩

def Properties.given (p : Properties) : Option String := if p.tag == some "!" then none else p.tag

def ofScalar (p : Properties) (text : String) (plain : Bool) : Node :=
  let plain := if p.tag.isSome then p.tag == some "!" else plain
  scalar (p.given.getD (if plain then Kind.ofPlain text.toList else .text).tag) text

def empty : Node := ofScalar ⟨none, none⟩ "" true

def define (p : Properties) (n : Node) : Read Node := do
  match p.anchor with
  | none => pure n
  | some a => do
      if ((← get).anchors.lookup a).isSome then throw .reference
      modify fun r => { r with anchors := (a, n) :: r.anchors }
      pure n

mutual
/-- A node. Blocks are nodes only outside of brackets, and items without a block of their own only as
keys and values of a block. -/
def node (block items : Bool) : Nat → Read Node
  | 0 => throw .grammar
  | n + 1 => do
      match ← peek with
      | .alias a => do
          drop
          match (← get).anchors.lookup a with
          | some m => pure m
          | none => throw .reference
      | _ => do
          let p ← properties
          content block items p n >>= define p
def content (block items : Bool) (p : Properties) : Nat → Read Node
  | 0 => throw .grammar
  | n + 1 => do
      let ofItems (ns : List Node) : Node := sequence (p.given.getD sequenceTag) ns
      let ofEntries (es : List (Node × Node)) : Node := mapping (p.given.getD mappingTag) es
      let t ← peek
      if items && t = .item then return ofItems (← looseItems n)
      match t, block with
      | .scalar text plain, _ => do
          drop
          pure (ofScalar p text plain)
      | .flowSequence, _ => do
          drop
          return ofItems (← flowItems true n)
      | .flowMapping, _ => do
          drop
          return ofEntries (← flowEntries true n)
      | .blockSequence, true => do
          drop
          return ofItems (← blockItems n)
      | .blockMapping, true => do
          drop
          return ofEntries (← blockEntries n)
      | _, _ => if p.anchor.isSome || p.tag.isSome then pure (ofScalar p "" true) else throw .grammar
def blockItems : Nat → Read (List Node)
  | 0 => throw .grammar
  | n + 1 => do
      if ← take .item then
        let m ← if ← isAt [.item, .blockEnd] then pure empty else node true false n
        return m :: (← blockItems n)
      need .blockEnd
      pure []
def looseItems : Nat → Read (List Node)
  | 0 => throw .grammar
  | n + 1 => do
      if ← take .item then
        let m ← if ← isAt [.item, .key, .value, .blockEnd] then pure empty else node true false n
        return m :: (← looseItems n)
      pure []
def blockEntries : Nat → Read (List (Node × Node))
  | 0 => throw .grammar
  | n + 1 => do
      if ← take .key then
        let k ← if ← isAt [.key, .value, .blockEnd] then pure empty else node true true n
        let v ← if ← take .value then
            if ← isAt [.key, .value, .blockEnd] then pure empty else node true true n
          else pure empty
        return (k, v) :: (← blockEntries n)
      need .blockEnd
      pure []
def flowItems (first : Bool) : Nat → Read (List Node)
  | 0 => throw .grammar
  | n + 1 => do
      if ← take .flowSequenceEnd then return []
      unless first do need .comma
      if ← take .flowSequenceEnd then return []
      let m ← if ← take .key then pair n else node false false n
      return m :: (← flowItems false n)
def pair : Nat → Read Node
  | 0 => throw .grammar
  | n + 1 => do
      let k ← if ← isAt [.value, .comma, .flowSequenceEnd] then pure empty else node false false n
      let v ← if ← take .value then
          if ← isAt [.comma, .flowSequenceEnd] then pure empty else node false false n
        else pure empty
      return mapping mappingTag [(k, v)]
def flowEntries (first : Bool) : Nat → Read (List (Node × Node))
  | 0 => throw .grammar
  | n + 1 => do
      if ← take .flowMappingEnd then return []
      unless first do need .comma
      if ← take .flowMappingEnd then return []
      if ← take .key then
        let k ← if ← isAt [.value, .comma, .flowMappingEnd] then pure empty else node false false n
        let v ← if ← take .value then
            if ← isAt [.comma, .flowMappingEnd] then pure empty else node false false n
          else pure empty
        return (k, v) :: (← flowEntries false n)
      let k ← node false false n
      return (k, empty) :: (← flowEntries false n)
end

def directives (version : Bool) : Nat → Read Unit
  | 0 => throw .grammar
  | n + 1 => do
      match ← peek with
      | .directive d => do
          drop
          match d with
          | .version major _ => do
              if version || major != 1 then throw .grammar
              directives true n
          | .handle h stem => do
              if ((← get).handles.lookup h).isSome then throw .grammar
              modify fun r => { r with handles := (h, stem) :: r.handles }
              directives version n
          | .other => directives version n
      | _ => pure ()

def isDirective : Token → Bool
  | .directive _ => true
  | _ => false

def skipEnds : Nat → Read Unit
  | 0 => pure ()
  | n + 1 => do
      if ← take .documentEnd then skipEnds n

def head (n : Nat) : Read Unit := do
  modify ({ · with handles := [] })
  directives false n
  need .documentStart
  modify fun r => { r with handles := r.handles ++ defaultHandles }

def document (n : Nat) : Read Node := do
  if isDirective (← peek) || (← isAt [.documentStart]) then
    head n
    if isDirective (← peek) || (← isAt [.documentStart, .documentEnd, .textEnd]) then pure empty
    else node true false n
  else node true false n

def single (n : Nat) : Read (Option Node) := do
  if ← isAt [.textEnd] then return none
  let m ← document n
  let _ ← take .documentEnd
  skipEnds n
  if ← isAt [.textEnd] then return some m
  head n
  throw .reference

def ofTokens (ts : List Token) (fault : Option Fault) : Except Fault (Option Node) :=
  (single (2 * ts.length + 4)).run' ⟨ts, fault, defaultHandles, []⟩

end Node

end BotApi.Yaml
