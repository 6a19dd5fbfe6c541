import BotApi.Schema.Scalar
import BotApi.Value.Access
import BotApi.Yaml.Node
/-!
Documents: the value that a text in this notation stands for. A mapping can take over the entries of
others, which its own entries override.
-/

namespace BotApi.Yaml

namespace Kind

def digitsValue? (base : Nat) (s : List Char) : Option Nat :=
  if s.isEmpty then none
  else (s.mapM fun c => (Text.hexValue? c).filter (· < base)).map fun ds =>
    ds.foldl (fun n d => base * n + d) 0

def splitSign : List Char → Bool × List Char
  | '-' :: s => (true, s)
  | '+' :: s => (false, s)
  | s => (false, s)

def sixtieths (ns : List Nat) : Nat := ns.foldl (fun n d => 60 * n + d) 0

def magnitude? (s : List Char) : Option Nat :=
  match s with
  | ['0'] => some 0
  | '0' :: 'b' :: s => digitsValue? 2 s
  | '0' :: 'x' :: s => digitsValue? 16 s
  | '0' :: s => digitsValue? 8 s
  | s =>
      if s.contains ':' then ((Text.pieces ':' s).mapM (digitsValue? 10)).map sixtieths
      else digitsValue? 10 s

def integer? (s : List Char) : Option Int :=
  let (negative, s) := splitSign (s.filter (· != '_'))
  (magnitude? s).map fun n => if negative then -n else n

def weigh (unit : Float) : List Float → Float → Float
  | [], total => total
  | x :: xs, total => weigh (unit * 60.0) xs (total + x * unit)

def float? (s : List Char) : Option Float :=
  let (negative, s) := splitSign ((s.filter (· != '_')).map Char.toLower)
  let x :=
    if s = ".inf".toList then some (Number.infinity false)
    else if s = ".nan".toList then some Number.nan
    else if s.contains ':' then
      ((Text.pieces ':' s).mapM Schema.floatOfText?).map fun xs => weigh 1.0 xs.reverse 0.0
    else Schema.floatOfText? s
  x.map fun x => if negative then -x else x

def flag? (s : List Char) : Option Bool :=
  let w := String.ofList (s.map Char.toLower)
  if ["yes", "true", "on"].contains w then some true
  else if ["no", "false", "off"].contains w then some false
  else none

def moment? (s : List Char) : Except Fault Value :=
  match Moment.ofChars? s with
  | none => .error .construction
  | some m =>
      if m.isValid then .ok (.moment m.kind (.ofList m.text) m.quoted) else .error .number

def value (k : Kind) (written : String) : Except Fault Value :=
  let s := written.toList
  match k with
  | null => .ok .null
  | flag => (flag? s).elim (.error .word) fun b => .ok (.bool b)
  | integer => (integer? s).elim (.error .number) fun n => .ok (.int n)
  | number => (float? s).elim (.error .number) fun x => .ok (.float x)
  | moment => moment? s
  | text => .ok (.str written)
  | merge | equals => .error .construction

end Kind

namespace Node

def isMerge (n : Node) : Bool := n.tag == Kind.merge.tag

def scalarValue (tag text : String) : Except Fault Value :=
  match Kind.ofTag? tag with
  | some k => k.value text
  | none => .error .construction

def key (v : Value) : Except Fault Value := if v.isKey then .ok v else .error .construction

mutual
def toValue : Node → Except Fault Value
  | scalar t s => scalarValue t s
  | sequence t ns => if t = sequenceTag then (toValues ns).map .list else .error .construction
  | mapping t es =>
      if t = mappingTag then (toPairs es).map fun (merged, own) => .dict (Entries.ofPairs (merged ++ own))
      else .error .construction
def toValues : List Node → Except Fault (List Value)
  | [] => .ok []
  | n :: ns => do
      let v ← toValue n
      let vs ← toValues ns
      .ok (v :: vs)
def toPairs : List (Node × Node) → Except Fault (List (Value × Value) × List (Value × Value))
  | [] => .ok ([], [])
  | (k, n) :: es =>
      if isMerge k then do
        let ps ← taken n
        let (merged, own) ← toPairs es
        .ok (ps ++ merged, own)
      else do
        let w ← match k with
          | .scalar t s => if t = Kind.equals.tag then .ok (.str s) else scalarValue t s
          | k => toValue k
        let w ← key w
        let v ← toValue n
        let (merged, own) ← toPairs es
        .ok (merged, (w, v) :: own)
def taken : Node → Except Fault (List (Value × Value))
  | mapping _ es => (toPairs es).map fun (merged, own) => merged ++ own
  | sequence _ ns => takenAll ns
  | scalar _ _ => .error .construction
def takenAll : List Node → Except Fault (List (Value × Value))
  | [] => .ok []
  | n :: ns => do
      let ps ← match n with
        | .mapping _ es => (toPairs es).map fun (merged, own) => merged ++ own
        | _ => .error .construction
      let qs ← takenAll ns
      .ok (qs ++ ps)
end

end Node

def read (s : List Char) : Except Fault Value :=
  let (ts, fault) := Token.ofChars s
  (Node.ofTokens ts fault).bind fun
    | some n => n.toValue
    | none => .ok .null

end BotApi.Yaml

namespace BotApi

def Error.ofYaml : Yaml.Fault → Error
  | .number => .misuse .value ""
  | .word => .misuse .key ""
  | f => .yaml f

end BotApi
