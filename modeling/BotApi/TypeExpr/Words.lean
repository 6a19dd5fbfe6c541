import BotApi.Text.Blank
import BotApi.Text.Quoted
import BotApi.TypeExpr.Basic
/-!
Reading a type expression from the words of a description, as in `Array of Integer or String`, and
writing one the way descriptions spell it.
-/

namespace BotApi.TypeExpr

inductive Token where
  | word (text : String)
  | anchor (id : String)
  deriving Repr, DecidableEq

def arrayWord : String := "Array"

def fillers : List String := ["of", ","]

def separators : List String := ["or", "and"]

def trimCommas (w : List Char) : String :=
  let t := Text.trim (· == ',') w
  if t.isEmpty then "," else .ofList t

def tokens (s : String) : List Token := (Text.words s.toList).map fun w => .word (trimCommas w)

def Token.isFiller : Token → Bool
  | word w => w.isEmpty || fillers.contains w
  | anchor _ => false

def Token.isArray : Token → Bool
  | word w => w == arrayWord
  | anchor _ => false

def Token.isSeparator : Token → Bool
  | word w => separators.contains w
  | anchor _ => false

def Token.leaf : Token → TypeExpr
  | word w => .basic w
  | anchor i => .ref i

def nest : Nat → TypeExpr → TypeExpr
  | 0, e => e
  | n + 1, e => nest n (.array e)

def ofLeaves? : List TypeExpr → Option TypeExpr
  | [] => none
  | [e] => some e
  | es => some (.union (distinct es))

def dropFillers (ts : List Token) : List Token := ts.filter fun t => !t.isFiller

/-- Each leading array word adds a layer; the other tokens, separators apart, are the options. -/
def ofTokens? (ts : List Token) : Option TypeExpr :=
  let kept := dropFillers ts
  let depth := (kept.takeWhile Token.isArray).length
  let leaves := ((kept.drop depth).filter fun t => !t.isSeparator).map Token.leaf
  (ofLeaves? leaves).map (nest depth)

def Token.quoted : Token → List Char
  | word w => Text.quoted w.toList
  | anchor i => "TypeRef(kind='ref', id=".toList ++ Text.quoted i.toList ++ [')']

def quotedTokens (ts : List Token) : String :=
  .ofList ('[' :: List.intercalate [',', ' '] (ts.map Token.quoted) ++ [']'])

mutual
def describe (nameOf : String → Option String) : TypeExpr → String
  | .basic n => n
  | .ref i => (nameOf i).getD i
  | .array e => "Array of " ++ describe nameOf e
  | .union es => String.intercalate " or " (describeList nameOf es)
def describeList (nameOf : String → Option String) : List TypeExpr → List String
  | [] => []
  | e :: es => describe nameOf e :: describeList nameOf es
end

end BotApi.TypeExpr
