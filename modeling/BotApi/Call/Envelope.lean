import BotApi.Json.Reader
import BotApi.Value.Access
import BotApi.Wire.Message
/-!
Envelopes and outcomes. Every answer of the Bot API is a mapping whose entry `ok` tells whether it carries
a result or says why there is none; a mapping without this entry is no envelope. A call ends in exactly one
of three: an envelope with a result, an envelope without, or an error before there was an envelope.
-/

namespace BotApi

namespace Envelope

def isValid (v : Value) : Bool := v.entries?.any fun es => (Entries.getText? es "ok").isSome

def isSuccessful (v : Value) : Bool :=
  match v with
  | .dict es => match Entries.getText? es "ok" with
      | some (.bool b) => b
      | _ => false
  | _ => false

def result (v : Value) : Value :=
  if isSuccessful v then Entries.getText (v.entries?.getD []) "result" else .null

def resultOr (default v : Value) : Value := if (result v).isNull then default else result v

def chatId (result : Value) : Value :=
  match result with
  | .dict es => match (Entries.getText es "chat").entries?.bind (Entries.getText? · "id") with
      | some id => id
      | none => Entries.getText es "chat_id"
  | _ => .null

def reasonKeys : List String := ["error_code", "description"]

def present (v : Value) : List String → Except Error Entries
  | [] => .ok []
  | k :: ks => (v.mentions k).bind fun found =>
      if found then (v.required k).bind fun w => (present v ks).map ((.str k, w) :: ·)
      else present v ks

def error? (v : Value) : Except Error (Option Entries) :=
  if isSuccessful v then .ok none else (present v reasonKeys).map some

def reasonOf (method : String) (params v : Value) : Except Error Entries :=
  (error? v).map fun es =>
    Entries.put (Entries.put (es.getD []) (.str "method") (.str method)) (.str "params") params

def parameters (v : Value) : Except Error Value := (v.entry "parameters").map (·.orEmpty)

def parameter (v : Value) (key : String) : Except Error Value := (parameters v).bind (·.entry key)

def migrateToChatId (v : Value) : Except Error Value := parameter v "migrate_to_chat_id"

def retryAfter (v : Value) : Except Error Value := parameter v "retry_after"

def failed (code : Int) (description : String) : Value :=
  .ofFields [("ok", .bool false), ("error_code", .int code), ("description", .str description)]

def isBlankOctet (b : UInt8) : Bool := Text.isAsciiBlank (Char.ofNat b.toNat)

/-- Reads the body of a response. A response that reports a failure need not have one. -/
def ofResponse (r : Wire.Response) : Except Error Value :=
  if r.body.all isBlankOctet && !r.isSuccess then .ok (failed r.status r.reason)
  else match Json.readOctets r.body with
    | .ok v => .ok v
    | .error e =>
        .error (.transport (.unparsable (.ofList (Text.intDigits r.status)) e.message))

end Envelope

inductive Outcome where
  | success (result envelope : Value)
  | failure (envelope : Value)
  | error (cause : Error)

namespace Outcome

def ofEnvelope (v : Value) : Except Error Outcome :=
  if Envelope.isValid v then
    .ok (if Envelope.isSuccessful v then success (Envelope.result v) v else failure v)
  else
    let text := v.quotedText
    .error (.malformed s!"Malformed Telegram Bot API response: {text}")

end Outcome

def expectResult (expected envelope : Value) : Except Error Value :=
  let actual := Envelope.resultOr .null envelope
  if actual.equal expected then .ok actual else .error (.unexpected expected actual)

end BotApi
