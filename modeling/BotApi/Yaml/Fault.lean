/-!
What makes a text no document.
-/

namespace BotApi.Yaml

inductive Fault where
  | character
  | token
  | grammar
  | reference
  | construction
  | number
  | word
  deriving Repr, DecidableEq

def Fault.message : Fault → String
  | character => "a character that no document may hold"
  | token => "characters that are no token"
  | grammar => "tokens in a wrong order"
  | reference => "an alias, an anchor or a document that must not be there"
  | construction => "a node that its tag does not fit"
  | number => "a number that there is not"
  | word => "a word that its tag does not know"

end BotApi.Yaml
