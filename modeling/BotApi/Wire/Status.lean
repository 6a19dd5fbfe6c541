import BotApi.Error
import BotApi.Json.Writer
import BotApi.Number.Binary
import BotApi.Text.Octets
import BotApi.Value.Access
import BotApi.Wire.Message
/-!
Envelopes as responses: the status an envelope would have been sent with, and its text.
-/

namespace BotApi.Wire

namespace Status

def digits? (s : List Char) : Option Nat :=
  let runs := Text.pieces '_' s
  if runs.any (·.isEmpty) then none else Text.decimalNumber? runs.flatten

def integer? (s : List Char) : Option Int :=
  match Text.trim Text.isWhite s with
  | '-' :: s => (digits? s).map fun n => -(n : Int)
  | '+' :: s => (digits? s).map fun n => (n : Int)
  | s => (digits? s).map fun n => (n : Int)

def ofText (s : List Char) : Except Error Int :=
  (integer? s).elim (.error (.misuse .value "")) .ok

def ofValue : Value → Except Error Int
  | .int n => .ok n
  | .bool b => .ok (if b then 1 else 0)
  | .float x => match Number.Binary.ofFloat? x with
      | some b => .ok b.truncate
      | none => .error (.misuse (if Number.isNaN x then .value else .overflow) "")
  | .str s => ofText s.toList
  | .bytes b | .buffer b => ofText (b.map fun o => .ofNat o.toNat)
  | _ => Error.wrongKind

def badRequest : Value := .int 400

def ok : Int := 200

def ofEnvelope (es : Entries) : Except Error Int :=
  match Entries.getText es "ok" with
  | .bool true => .ok ok
  | _ =>
      let code := Entries.getText es "error_code"
      ofValue (if code.truthy then code else badRequest)

end Status

def unwritable : Json.Unwritable → Misuse
  | .kind _ | .key _ => .kind
  | .notFinite | .tooManyDigits => .value

def Response.ofEnvelope (v : Value) : Except Error Response :=
  match v with
  | .dict es => (Status.ofEnvelope es).bind fun status =>
      match Json.write ⟨true, false⟩ v with
      | .error e => .error (.misuse (unwritable e) e.message)
      | .ok text => .ok ⟨status, Text.Utf8.encode text, "",
          [(.str "Content-Type", .str "application/json")]⟩
  | _ => Error.noMember

end BotApi.Wire
