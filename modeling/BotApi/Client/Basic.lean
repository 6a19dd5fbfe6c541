import BotApi.Draft.Params
import BotApi.Limit.Registry
import BotApi.Wire.Transport
/-!
Clients of one bot: what a client is made of, and what its calls change. The options of a client are
checked when it is made, each in its turn; the first that is wrong is reported.
-/

namespace BotApi

abbrev Hook := Wire.Request → Except Error Wire.Request

structure Client where
  token : String
  botId : Nat
  serverUrl : String
  limitRate : Bool
  policy : Value
  transport : Wire.Transport
  ownsTransport : Bool
  hooks : List Hook
  timeout : Value

structure ClientOptions where
  token : Value
  serverUrl : Option Value
  limitRate : Option Value
  policy : Value
  responses : Option Wire.Responses
  transport : Option Wire.Transport
  hooks : List Hook
  timeout : Value

structure ClientState where
  compiler : Compiler
  registry : Limit.Registry
  clock : Limit.Clock
  sent : List Wire.Sent

namespace Client

def globalServerUrl : String := "https://api.telegram.org/bot"

def config {α : Type} (f : ConfigFault) : Except Error α := .error (.config f)

def nonEmptyText (fault : ConfigFault) : Value → Except Error String
  | .str s => if s.isEmpty then config fault else .ok s
  | _ => config fault

def flag (fault : ConfigFault) : Value → Except Error Bool
  | .bool b => .ok b
  | _ => config fault

def chooseTransport (own : Wire.Transport) (responses : Option Wire.Responses)
    (transport : Option Wire.Transport) : Except Error (Wire.Transport × Bool) :=
  match responses, transport with
  | some _, some _ => config .responsesAndTransport
  | some rs, none => if rs.isUsable then .ok (.canned rs, false) else config .responses
  | none, some t => .ok (t, false)
  | none, none => .ok (own, true)

def ofOptions (own : Wire.Transport) (o : ClientOptions) : Except Error Client := do
  let token ← nonEmptyText .noToken o.token
  let serverUrl ← nonEmptyText .noServerUrl (o.serverUrl.getD (.str globalServerUrl))
  let limitRate ← flag .limitRate (o.limitRate.getD (.bool true))
  let (transport, owned) ← chooseTransport own o.responses o.transport
  let botId ← Token.botId token
  Limit.checkPolicy? o.policy
  pure ⟨token, botId, serverUrl, limitRate, o.policy, transport, owned, o.hooks, o.timeout⟩

/-- The registry of a client: one that is given but empty gives way to the one all clients share. -/
def chooseRegistry (given : Option Limit.Registry) (shared : Limit.Registry) : Limit.Registry :=
  match given with
  | some r => if r.size = 0 then shared else r
  | none => shared

def describe (c : Client) : Except Error String :=
  (Token.mask c.token).map fun bot =>
    let bot := inQuotes bot
    let server := inQuotes c.serverUrl
    s!"Client(bot={bot}, server_url={server})"

end Client

end BotApi
