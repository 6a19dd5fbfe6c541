import BotApi.Error
import BotApi.Text.Digit
import BotApi.Text.Letter
import BotApi.Text.Rewrite
/-!
Bot tokens: the number of the bot, a colon and a secret. The secret is never shown.
-/

namespace BotApi.Token

def head? (token : List Char) : Option (List Char) :=
  match Text.splitFirst? [':'] token with
  | some (head, _) => if !head.isEmpty && head.all Text.isDigit then some head else none
  | none => none

/-- The number of the bot. Digits that no decimal number is written with are misused, and so are
more of them than a number may have. -/
def botId (token : String) : Except Error Nat :=
  match head? token.toList with
  | none => .error (.config .token)
  | some head => match Text.readableNumber? head with
      | some n => .ok n
      | none => .error (.misuse .value "")

def defaultMask : String := "..."

def mask (token : String) (cover : String := defaultMask) : Except Error String :=
  (botId token).map fun n => s!"{n}:{cover}"

def isSecretChar (c : Char) : Bool := Text.isWordChar c || c == '-'

def inPath? (s : List Char) : Option Text.Match := do
  let rest ← Text.dropStart? "/bot".toList s
  let digits := rest.takeWhile Text.isDecimal
  guard !digits.isEmpty
  let rest ← Text.dropStart? [':'] (rest.drop digits.length)
  let secret := rest.takeWhile isSecretChar
  guard !secret.isEmpty
  pure ⟨"/bot".toList ++ digits ++ ":...".toList, 4 + digits.length + 1 + secret.length⟩

def maskUrl (url : String) : String := Text.onChars (Text.rewrite inPath? fun c => [c]) url

end BotApi.Token
