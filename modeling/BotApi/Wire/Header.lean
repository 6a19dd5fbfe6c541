import BotApi.Error
import BotApi.Json.Writer
import BotApi.Text.Case
import BotApi.Value.Compare
/-!
Headers. Their names are the same in small and in capital letters; a header that is set again takes
the spelling of the last setting.
-/

namespace BotApi.Wire

abbrev Headers := List (String × Value)

inductive HeaderPart where
  | name
  | value
  deriving Repr, DecidableEq

def HeaderPart.label : HeaderPart → String
  | name => "name"
  | value => "value"

namespace Headers

def fold (name : String) : String := Text.onChars Text.lowercase name

def sameName (a b : String) : Bool := fold a == fold b

def get? (hs : Headers) (name : String) : Option Value :=
  (hs.find? (sameName name ·.1)).map (·.2)

def put (hs : Headers) (name : String) (v : Value) : Headers :=
  match hs with
  | [] => [(name, v)]
  | h :: rest => if sameName name h.1 then (name, v) :: rest else h :: put rest name v

def isLine (s : List Char) : Bool :=
  let s := if s.getLast? == some '\n' then s.dropLast else s
  !s.contains '\r' && !s.contains '\n'

def isName (s : List Char) : Bool :=
  match s with
  | [] => false
  | c :: rest => c != ':' && !Text.isWhite c && !rest.contains ':' && isLine rest

def isValue (s : List Char) : Bool :=
  match s with
  | [] | ['\n'] => true
  | c :: rest => !Text.isWhite c && isLine rest

def isPart : HeaderPart → List Char → Bool
  | .name, s => isName s
  | .value, s => isValue s

def charsOf (b : List UInt8) : List Char := b.map fun o => .ofNat o.toNat

def fault? (part : HeaderPart) (entry : Value × Value) (v : Value) : Option String :=
  let chars? := match v with
    | .str s => some s.toList
    | .bytes b => some (charsOf b)
    | _ => none
  let text := v.quotedText
  match chars? with
  | none =>
      let header := (Value.tuple [entry.1, entry.2]).quotedText
      let kind := Json.kindName v
      some s!"Header part ({text}) from {header} must be of type str or bytes, not <class '{kind}'>"
  | some s =>
      if isPart part s then none
      else
        let label := part.label
        some <| "Invalid leading whitespace, reserved character(s), or return character(s) " ++
          s!"in header {label}: {text}"

def nameOf : Value → String
  | .str s => s
  | .bytes b => .ofList (charsOf b)
  | _ => ""

def ofEntries (es : Entries) : Except String Headers :=
  es.foldlM (fun hs e =>
    match fault? .name e e.1 with
    | some why => .error why
    | none => match fault? .value e e.2 with
        | some why => .error why
        | none => .ok (put hs (nameOf e.1) e.2)) []

end Headers

end BotApi.Wire
