import BotApi.Error
import BotApi.Html.Node
import BotApi.TypeExpr.Words
/-!
The type cell of a table: its words, and the anchors in it that refer to documented types.
-/

namespace BotApi

namespace Html.Node

def anchorId? (n : Node) : Option String :=
  match n with
  | element "a" _ _ => match (n.attribute? "href").map String.toList with
      | some ('#' :: id) => some (.ofList id)
      | _ => none
  | _ => none

end Html.Node

namespace Page

open Html (Node TextKind)
open TypeExpr (Token)

mutual
/-- The tokens of a node: an anchor within the page is one token, whatever it holds. -/
def nodeTokens : Node → List Token
  | .text .comment _ => []
  | .text _ s => TypeExpr.tokens (.ofList s)
  | .element n as cs => match (Node.element n as cs).anchorId? with
      | some id => [.anchor id]
      | none => childTokens cs
def childTokens : List Node → List Token
  | [] => []
  | n :: ns => nodeTokens n ++ childTokens ns
end

def typeOf (ts : List Token) : Except CompileFault TypeExpr :=
  match TypeExpr.ofTokens? ts with
  | some e => .ok e
  | none => .error (.noType (TypeExpr.quotedTokens (TypeExpr.dropFillers ts)))

def typeText (s : String) : Except CompileFault TypeExpr := typeOf (TypeExpr.tokens s)

def typeCell (cell : Node) : Except CompileFault TypeExpr := typeOf (childTokens cell.children)

end Page

end BotApi
