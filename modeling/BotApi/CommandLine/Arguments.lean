import BotApi.Disk
/-!
Arguments of commands. Options stand anywhere before two dashes; of an option that is given twice the
last counts. What is left are the values of the parameters, in order.
-/

namespace BotApi.CommandLine

open Text (Path)

structure Choice where
  names : List String
  takesValue : Bool
  deriving Repr

structure Parameter where
  name : String
  required : Bool
  isPath : Bool
  deriving Repr

structure Grammar where
  words : List String
  shape : String
  choices : List Choice
  parameters : List Parameter
  interspersed : Bool
  deriving Repr

inductive UsageFault where
  | noSuchOption (name : String)
  | noValue (name : String)
  | needlessValue (name : String)
  | missing (parameter : String)
  | absentPath (parameter path : String)
  | extra (arguments : List String)
  | noSuchCommand (name : String)
  | noCommand
  deriving Repr, DecidableEq

namespace UsageFault

def message : UsageFault → String
  | noSuchOption n => s!"No such option {inQuotes n}."
  | noValue n => s!"Option {inQuotes n} requires an argument."
  | needlessValue n => s!"Option {inQuotes n} does not take a value."
  | missing p => s!"Missing argument '{p}'."
  | absentPath p t => s!"Invalid value for '{p}': Path {inQuotes t} does not exist."
  | extra [a] => s!"Got unexpected extra argument ({a})"
  | extra args =>
      let all := String.intercalate " " args
      s!"Got unexpected extra arguments ({all})"
  | noSuchCommand n => s!"No such command {inQuotes n}."
  | noCommand => "Missing command."

def showsUsage : UsageFault → Bool
  | noValue _ | needlessValue _ => false
  | _ => true

end UsageFault

namespace Grammar

def call (g : Grammar) : String := String.intercalate " " g.words

def usage (g : Grammar) : String := s!"Usage: {g.call} {g.shape}\n"

def complaint (g : Grammar) (f : UsageFault) : String :=
  let error := "Error: " ++ f.message ++ "\n"
  if f.showsUsage then s!"{g.usage}Try '{g.call} --help' for help.\n\n{error}" else error

def help : Choice := ⟨["--help"], false⟩

def choice? (g : Grammar) (name : String) : Option Choice :=
  (g.choices ++ [help]).find? (·.names.contains name)

end Grammar

structure Given where
  name : String
  value : Option String
  deriving Repr

def Choice.longName (c : Choice) : String := c.names.getLast?.getD ""

def Choice.take (c : Choice) (name : String) (attached : Option String) (rest : List String) :
    Except UsageFault (Given × List String) :=
  match c.takesValue, attached, rest with
  | true, some v, rest => .ok (⟨c.longName, some v⟩, rest)
  | true, none, v :: rest => .ok (⟨c.longName, some v⟩, rest)
  | true, none, [] => .error (.noValue name)
  | false, none, rest => .ok (⟨c.longName, none⟩, rest)
  | false, some _, _ => .error (.needlessValue name)

namespace Grammar

def takeLong (g : Grammar) (arg : List Char) (rest : List String) :
    Except UsageFault (List Given × List String) :=
  let (name, attached) := match Text.splitFirst? ['='] arg with
    | some (name, value) => (String.ofList name, some (String.ofList value))
    | none => (String.ofList arg, none)
  match g.choice? name with
  | none => .error (.noSuchOption name)
  | some c => (c.take name attached rest).map fun (given, rest) => ([given], rest)

def takeShort (g : Grammar) (rest : List String) :
    List Char → Except UsageFault (List Given × List String)
  | [] => .ok ([], rest)
  | x :: s =>
      let name := String.ofList ['-', x]
      match g.choice? name with
      | none => .error (.noSuchOption name)
      | some c =>
          if c.takesValue then
            let attached := if s.isEmpty then none else some (String.ofList s)
            (c.take name attached rest).map fun (given, rest) => ([given], rest)
          else (g.takeShort rest s).map fun (more, rest) => (⟨c.longName, none⟩ :: more, rest)

structure Parsed where
  given : List Given
  values : List String

def takeApart (g : Grammar) : Nat → List String → Except UsageFault Parsed
  | 0, args => .ok ⟨[], args⟩
  | _, [] => .ok ⟨[], []⟩
  | n + 1, arg :: rest =>
      let options (r : Except UsageFault (List Given × List String)) : Except UsageFault Parsed := do
        let (given, rest) ← r
        let p ← g.takeApart n rest
        .ok { p with given := given ++ p.given }
      match arg.toList with
      | ['-', '-'] => .ok ⟨[], rest⟩
      | '-' :: '-' :: _ => options (g.takeLong arg.toList rest)
      | '-' :: x :: s => options (g.takeShort rest (x :: s))
      | _ =>
          if g.interspersed then
            (g.takeApart n rest).map fun p => { p with values := arg :: p.values }
          else .ok ⟨[], arg :: rest⟩

def parse (g : Grammar) (args : List String) : Except UsageFault Parsed := g.takeApart args.length args

namespace Parsed

def has (p : Parsed) (name : String) : Bool := p.given.any (·.name == name)

def get? (p : Parsed) (name : String) : Option String :=
  (p.given.reverse.find? (·.name == name)).bind (·.value)

end Parsed

def checkParameter (d : Disk) (p : Parameter) : Option String → Except UsageFault Unit
  | none => if p.required then .error (.missing p.name) else .ok ()
  | some t =>
      if p.isPath && (t.isEmpty || !d.holds (.ofText t)) then .error (.absentPath p.name t) else .ok ()

def values (g : Grammar) (d : Disk) (p : Parsed) : Except UsageFault (List (Option String)) := do
  let vs := g.parameters.mapIdx fun i _ => p.values[i]?
  (g.parameters.zip vs).forM fun (q, v) => checkParameter d q v
  let extra := p.values.drop g.parameters.length
  if extra.isEmpty then .ok vs else .error (.extra extra)

end Grammar

end BotApi.CommandLine
