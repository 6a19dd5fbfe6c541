import BotApi.Schema.Basic
import BotApi.Schema.Issue
import BotApi.Text.Blank
import BotApi.Text.Quoted
/-!
What a check finds wrong, and how it is shown. On its way into a value a check takes the options of unions
and enters records. The place of an issue shows an option by a name, which is fixed when the schema of the union
is made: a record that has no name by then has none in it for good. So names depend on what was made
first; what is found does not.
-/

namespace BotApi.Schema

inductive Turn where
  | step (s : Step)
  | option (s : Schema)
  | record (key : Nat)

structure Finding where
  way : List Turn
  fault : Fault

namespace Finding

def here (f : Fault) : Finding := ⟨[], f⟩

def under (t : Turn) (f : Finding) : Finding := { f with way := t :: f.way }

end Finding

def quotedName (s : String) : String := Text.onChars Text.quoted s

mutual
def label (rs : Records) (unnamed : List Nat) : Schema → String
  | .any => "any"
  | .text => "str"
  | .nonEmptyText => "constrained-str"
  | .integer _ _ | .positiveInteger => "constrained-int"
  | .number => "float"
  | .positiveNumber => "constrained-float"
  | .flag => "bool"
  | .onlyTrue => "literal[True]"
  | .onlyText ts => "literal[" ++ String.intercalate "," (ts.map quotedName) ++ "]"
  | .file => "function-after[_check_input_file(), any]"
  | .path => "path"
  | .optional s => "nullable[" ++ label rs unnamed s ++ "]"
  | .array s => "list[" ++ label rs unnamed s ++ "]"
  | .distinct s => label rs unnamed s
  | .union os => "union[" ++ String.intercalate "," (labels rs unnamed os) ++ "]"
  | .firstOf os => "union[" ++ String.intercalate "," (labels rs unnamed os) ++ "]"
  | .tagged _ cs => "tagged-union[" ++ String.intercalate "," (choiceLabels rs unnamed cs) ++ "]"
  | .record k =>
      if unnamed.contains k then "..." else ((rs.get? k).map (·.name)).getD "..."
def labels (rs : Records) (unnamed : List Nat) : List Schema → List String
  | [] => []
  | s :: ss => label rs unnamed s :: labels rs unnamed ss
def choiceLabels (rs : Records) (unnamed : List Nat) : List (String × Schema) → List String
  | [] => []
  | (_, s) :: cs => label rs unnamed s :: choiceLabels rs unnamed cs
end

/-- A record or a list of one is asked for its name anew each time. -/
def optionName (rs : Records) (unnamed : List Nat) (s : Schema) : String :=
  match s with
  | .record _ | .array (.record _) => label rs [] s
  | s => label rs unnamed s

abbrev Unnamed := List (Nat × List Nat)

def Unnamed.get? (u : Unnamed) (key : Nat) : Option (List Nat) := (u.find? (·.1 == key)).map (·.2)

/-- How the options of unions are named: in what is made for the check, and in records that were made
before, each of them with what it was made for. -/
structure Naming where
  current : Unnamed
  made : List (Nat × Unnamed)

namespace Naming

def plain : Naming := ⟨[], []⟩

/-- A record that is part of what is being checked against is named with it, any other on its own. -/
def enter (n : Naming) (key : Nat) : Naming :=
  if (n.current.get? key).isSome then n
  else { n with current := ((n.made.find? (·.1 == key)).map (·.2)).getD [] }

def place (n : Naming) (rs : Records) (unnamed : List Nat) : List Turn → List Step
  | [] => []
  | .step s :: way => s :: place n rs unnamed way
  | .option s :: way => .key (optionName rs unnamed s) :: place n rs unnamed way
  | .record k :: way => place (n.enter k) rs (((n.enter k).current.get? k).getD []) way

def issue (n : Naming) (rs : Records) (f : Finding) : Issue := ⟨n.place rs [] f.way, f.fault⟩

end Naming

end BotApi.Schema
