import BotApi.Call.Envelope
import BotApi.Limit.Policy
import BotApi.Log
/-!
Replies. The outcome of a call is handed to the callback for its kind, if there is one; what the
callback returns is the reply. Without callbacks a result is the reply, and a failure or an error is
noted and becomes the error of the call. A slot that ignores its outcome replies with null.
-/

namespace BotApi

inductive Occasion where
  | success (result : Value)
  | failure (method : String) (params envelope : Value)
  | error (method : String) (params : Value) (cause : Error)

abbrev Callback := Occasion → Except Error Value

inductive Slot where
  | call (callback : Callback)
  | ignore
  | default

structure Callbacks where
  onSuccess : Slot
  onFailure : Slot
  onError : Slot

structure Reply where
  result : Except Error Value
  logs : List LogEntry
  told : List Occasion

def Slot.ofValue? : Value → Except Error Slot
  | .null => .ok .default
  | v =>
      if v.isCallable then
        .ok <| .call fun
          | .success r => Limit.forChat r v
          | _ => Error.wrongKind
      else .error (.config (.callback v))

inductive SlotChoice where
  | slot (s : Slot)
  | value (v : Value)

def SlotChoice.slot? : SlotChoice → Except Error Slot
  | slot s => .ok s
  | value v => Slot.ofValue? v

def Callbacks.ofChoices (success failure error : SlotChoice) : Except Error Callbacks := do
  pure ⟨← success.slot?, ← failure.slot?, ← error.slot?⟩

namespace Reply

def failureText : String := "Unsuccessful Telegram Bot API request"

def errorText : String := "Error while making a Telegram Bot API request"

def errorLevel : Int := 40

def aboutCall (message method : String) (params : Value) : String :=
  let args := params.shownText
  s!"{message} (method='{method}' args={args})"

def details (reason : Entries) : String :=
  String.intercalate ", " <| reason.map fun (k, v) => k.shownText ++ "=\"" ++ v.shownText ++ "\""

def failureNote (message : String) (level : Int) (method : String) (params envelope : Value) :
    Except Error LogEntry :=
  (Envelope.error? envelope).map fun reason =>
    let text := details (reason.getD [])
    let message := if text.isEmpty then message else s!"{message}: {text}"
    ⟨level, aboutCall message method params⟩

def errorNote (message : String) (level : Int) (method : String) (params : Value) : LogEntry :=
  ⟨level, aboutCall message method params⟩

def unhandledFailure (message method : String) (params envelope : Value) : Noted Error Value :=
  match failureNote message errorLevel method params envelope with
  | .error e => ([], .error e)
  | .ok note => ([note], .error (.failure message method params envelope))

/-- An error that nobody handles. It always has the same text, whatever the note says. -/
def unhandledError (message method : String) (params : Value) (cause : Error) :
    Noted Error Value :=
  ([errorNote message errorLevel method params], .error (.call errorText method params cause))

def unhandled (method : String) (params : Value) : Outcome → Noted Error Value
  | .success result _ => ([], .ok result)
  | .failure envelope => unhandledFailure failureText method params envelope
  | .error cause => unhandledError errorText method params cause

end Reply

namespace Outcome

def occasion (method : String) (params : Value) : Outcome → Occasion
  | success result _ => .success result
  | failure envelope => .failure method params envelope
  | error cause => .error method params cause

def slot (c : Callbacks) : Outcome → Slot
  | success _ _ => c.onSuccess
  | failure _ => c.onFailure
  | error _ => c.onError

def reply (method : String) (params : Value) (c : Callbacks) (o : Outcome) : Reply :=
  match o.slot c with
  | .ignore => ⟨.ok .null, [], []⟩
  | .call f => ⟨f (o.occasion method params), [], [o.occasion method params]⟩
  | .default =>
      let (logs, result) := Reply.unhandled method params o
      ⟨result, logs, []⟩

end Outcome

end BotApi
