import BotApi.Call.Reply
import BotApi.Call.Stage
import BotApi.Catalog.Lookup
import BotApi.Client.Basic
/-!
Calls. A call checks its parameters, waits for the limits of its method, sends the request and reads
the envelope of the response; its outcome then goes to the callback for it. Of the errors on the way
those of the parameters, of waiting, of sending and of reading are outcomes; all others end the call.
-/

namespace BotApi

structure CallOptions where
  method : String
  params : Value
  onSuccess : SlotChoice
  onFailure : SlotChoice
  onError : SlotChoice
  policy : Value

namespace Client

def paramsOf (given : Value) : Except Error Value :=
  if given.isNull then .ok .null
  else (given.toEntries).map fun es => (Value.dict es).withUnderscores

/-- Only issues of the parameters are told to the caller as an outcome. -/
def paramsError (method : Method) : Except Error Entries → Except Error (Kept Entries)
  | .ok es => .ok (.ok es)
  | .error (.invalid is) => .ok (.error (.invalidParams method.name is))
  | .error e => .error e

def validate (method : Method) : Stage ClientState Value Entries := fun params s =>
  let (r, compiler) := (Work.validateParams method params).run s.compiler
  (paramsError method r, { s with compiler := compiler })

def isInterrupted : Error → Bool
  | .interrupted _ => true
  | _ => false

def acquire (c : Client) (method : Method) (override : Value) (params : Entries) (s : ClientState) :
    Except Error Unit × ClientState :=
  let chat := Entries.getText params "chat_id"
  match s.registry.limitersFor (.int c.botId) method.name chat c.policy override with
  | (.error e, registry) => (.error e, { s with registry := registry })
  | (.ok ls, registry) =>
      let (r, registry, clock) := registry.acquireAll s.clock ls
      (r, { s with registry := registry, clock := clock })

def limit (c : Client) (method : Method) (override : Value) : Stage ClientState Entries Entries :=
  fun params s =>
    if c.limitRate then
      let (r, s) := c.acquire method override params s
      (Stage.attempt isInterrupted (r.map fun _ => params), s)
    else (.ok (.ok params), s)

def request (c : Client) (method : Method) (params : Entries) : Wire.Request where
  method := method.name
  url := c.serverUrl ++ c.token ++ "/" ++ method.name
  params := .dict params
  multipart := method.uploadsFile
  headers := .dict []
  timeout := c.timeout

def hooked (c : Client) (r : Wire.Request) : Except Error Wire.Request :=
  c.hooks.foldlM (fun r h => h r) r

def send (c : Client) (setting : Wire.Setting) (method : Method) :
    Stage ClientState Entries Wire.Response := fun params s =>
  match c.hooked (c.request method params) with
  | .error e => (.error e, s)
  | .ok r =>
      let (answer, sent) := c.transport.send setting r
      (.ok answer, { s with sent := s.sent ++ sent })

def isTransport : Error → Bool
  | .transport _ => true
  | _ => false

def interpret : Stage ClientState Wire.Response Outcome := fun response s =>
  match Envelope.ofResponse response with
  | .error e => (if isTransport e then .ok (.error e) else .error e, s)
  | .ok envelope => ((Outcome.ofEnvelope envelope).map .ok, s)

def stages (c : Client) (setting : Wire.Setting) (method : Method) (override : Value) :
    Stage ClientState Value Outcome :=
  (((validate method).followedBy (c.limit method override)).followedBy
    (c.send setting method)).followedBy interpret

def outcomeOf : Kept Outcome → Outcome
  | .ok o => o
  | .error e => .error e

def prepare (s : ClientState) (o : CallOptions) : Except Error (Method × Callbacks × Value) := do
  let method ← s.compiler.spec.find o.method
  let callbacks ← Callbacks.ofChoices o.onSuccess o.onFailure o.onError
  let params ← paramsOf o.params
  Limit.checkPolicy? o.policy
  pure (method, callbacks, params)

def call (c : Client) (setting : Wire.Setting) (s : ClientState) (o : CallOptions) :
    Reply × ClientState :=
  match prepare s o with
  | .error e => (⟨.error e, [], []⟩, s)
  | .ok (method, callbacks, params) =>
      match c.stages setting method o.policy params s with
      | (.error e, s) => (⟨.error e, [], []⟩, s)
      | (.ok kept, s) => ((outcomeOf kept).reply method.name params callbacks, s)

end Client

end BotApi
