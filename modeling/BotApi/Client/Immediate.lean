import BotApi.Client.Call
/-!
A call as the reply to a delivery of the server. It is encoded as any other call, with the name of the
method among its parameters, but it is not sent, and it takes no permit.
-/

namespace BotApi

structure ImmediateReply where
  status : Int
  headers : Wire.Headers
  body : Option (List UInt8)

namespace Client

def invalidParams (method : Method) : Error → Error
  | .invalid is => .invalidParams method.name is
  | e => e

def immediateRequest (c : Client) (method : Method) (params : Entries) : Wire.Request :=
  c.request method (Entries.put params (.str "method") (.str method.name))

def immediate (c : Client) (setting : Wire.Setting) (s : ClientState) (name : String)
    (given : Value) : Except Error ImmediateReply × ClientState :=
  match s.compiler.spec.find name, paramsOf given with
  | .error e, _ | .ok _, .error e => (.error e, s)
  | .ok method, .ok params =>
      let (r, compiler) := (Work.validateParams method params).run s.compiler
      let reply := (r.mapError (invalidParams method)).bind fun params =>
        ((c.immediateRequest method params).encode setting.boundary setting.disk).map fun p =>
          ⟨200, p.headers, p.body⟩
      (reply, { s with compiler := compiler })

end Client

end BotApi
