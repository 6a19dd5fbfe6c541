import BotApi.Draft.Basic
import BotApi.Error
import BotApi.Text.Letter
import BotApi.Text.Digit
/-!
The names of drafts. A name is looked up in a scope; it has to be an identifier, or identifiers joined by
operators. Joined by bars they are a union; with any other operator the first one is looked up instead. Nothing
but drafts is in a scope, so a name must not mean anything else where it is looked up.
-/

namespace BotApi.Draft

abbrev Scope := List (String × Draft)

inductive Obstacle where
  | undefined (fault : NameFault)
  | misuse (how : Misuse)
  | endless
  deriving Repr, DecidableEq

def Obstacle.error : Obstacle → Error
  | undefined _ => .misuse .schema ""
  | misuse how => .misuse how ""
  | endless => .misuse .runtime "maximum recursion depth exceeded"

namespace Name

def isIdentifier (s : List Char) : Bool :=
  match s with
  | [] => false
  | c :: cs => Text.isWordChar c && !Text.isDigit c && cs.all Text.isWordChar &&
      !Catalog.keywords.contains (String.ofList s)

def isOperator (c : Char) : Bool := ['.', '-', '+', '*', '/', '%', '&', '|', '^', '@', '<', '>'].contains c

def identifiers (s : List Char) : List (List Char) := match s with
  | [] => [[]]
  | c :: cs =>
      if isOperator c then [] :: identifiers cs
      else match identifiers cs with
        | [] => [[c]]
        | i :: is => (c :: i) :: is

def isExpression (s : String) : Bool := (identifiers s.toList).all isIdentifier

end Name

def Scope.get? (scope : Scope) (name : String) : Option Draft := (scope.find? (·.1 == name)).map (·.2)

def Scope.look (scope : Scope) (name : String) : Except Obstacle Draft :=
  match scope.get? name with
  | some d => .ok d
  | none => .error (.undefined (.unknown name))

/-- Of the expressions of several identifiers only a union stands for a draft. -/
def Scope.find (scope : Scope) (name : String) : Except Obstacle Draft :=
  match Name.identifiers name.toList with
  | [_] => scope.look name
  | is =>
      if is = Text.pieces '|' name.toList then
        (is.mapM fun i => scope.look (String.ofList i)).map unionOf
      else (scope.look (String.ofList (is.headD []))).bind fun _ => .error (.misuse .member)

mutual
def expandWith (expand : String → Except Obstacle Draft) : Draft → Except Obstacle Draft
  | named n => expand n
  | array d => (expandWith expand d).map array
  | union ds => (expandList expand ds).map unionOf
  | choice s f ds => (expandList expand ds).map fun ds => choice s f (distinct ds)
  | d => .ok d
def expandList (expand : String → Except Obstacle Draft) : List Draft → Except Obstacle (List Draft)
  | [] => .ok []
  | d :: ds => (expandWith expand d).bind fun d => (expandList expand ds).map (d :: ·)
end

def Scope.expand (scope : Scope) : Nat → List String → String → Except Obstacle Draft
  | 0, _, name => .ok (.named name)
  | n + 1, within, name =>
      if within.contains name then .ok (.named name)
      else (scope.find name).bind (expandWith (scope.expand n (name :: within)))

/-- Every expansion goes through names of the scope, each at most once. -/
def Scope.resolve (scope : Scope) (d : Draft) : Except Obstacle Draft :=
  expandWith (scope.expand (scope.length + 1) []) d

def Scope.remains (scope : Scope) (name : String) : Obstacle :=
  match scope.resolve (.named name) with
  | .ok (.named n) => .undefined (.circular n)
  | _ => .endless

end BotApi.Draft
