import BotApi.Bot.Token
import BotApi.Wire.Encode
import BotApi.Wire.Status
/-!
Transports. A transport answers a request: with responses prepared in advance, over a network, or in a
way of its own. Every transport but the last encodes the request first, and what cannot be encoded is
not sent.
-/

namespace BotApi.Wire

inductive Answer where
  | value (v : Value)
  | response (r : Response)
  deriving Inhabited

inductive Canned where
  | answer (a : Answer)
  | function (f : Request → Except Error Answer)
  deriving Inhabited

inductive Responses where
  | byMethod (entries : List (String × Canned))
  | function (f : Request → Except Error Answer)
  | other (v : Value)

inductive Transport where
  | canned (responses : Responses)
  | network (exchange : Prepared → Except Error Response)
  | custom (send : Request → Except Error Response)

inductive Sent where
  | request (r : Request)
  | prepared (p : Prepared) (timeout : Value)

def Answer.response? : Answer → Except Error Response
  | .value v => Response.ofEnvelope v
  | .response r => .ok r

def Canned.answerTo (r : Request) : Canned → Except Error Answer
  | .answer a => .ok a
  | .function f => f r

namespace Responses

def isUsable : Responses → Bool
  | .other _ => false
  | _ => true

def find (r : Request) : Responses → Except Error Canned
  | .byMethod es => match es.find? (·.1 == r.method) with
      | some e => .ok e.2
      | none => .error (.transport (.noCanned r.method))
  | .function f => .ok (.function f)
  | .other v => (v.mentions r.method).bind fun found =>
      if found then Error.wrongKind else .error (.transport (.noCanned r.method))

def answer (r : Request) (rs : Responses) : Except Error Response := do
  let canned ← rs.find r
  (← canned.answerTo r).response?

end Responses

def networkError (method : String) (e : Error) : Error :=
  match e with
  | .network _ text => .transport (.failed method (Token.maskUrl text))
  | e => e

structure Setting where
  boundary : List Char
  disk : Disk

namespace Transport

def send (s : Setting) (t : Transport) (r : Request) : Except Error Response × List Sent :=
  match t with
  | .custom f => (f r, [.request r])
  | .canned rs => match r.encode s.boundary s.disk with
      | .error e => (.error e, [])
      | .ok _ => (rs.answer r, [.request r])
  | .network exchange => match r.encode s.boundary s.disk with
      | .error e => (.error e, [])
      | .ok p => ((exchange p).mapError (networkError r.method), [.prepared p r.timeout])

end Transport

end BotApi.Wire
