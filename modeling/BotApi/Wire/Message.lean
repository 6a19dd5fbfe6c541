import BotApi.Value.Compare
/-!
What goes over the wire: a request as a caller states it, the same request ready to be sent, and a
response.
-/

namespace BotApi.Wire

structure Request where
  method : String
  url : String
  params : Value
  multipart : Bool
  headers : Value
  timeout : Value
  deriving Inhabited

structure Prepared where
  url : String
  headers : List (String × Value)
  body : Option (List UInt8)

structure Response where
  status : Int
  body : List UInt8
  reason : String
  headers : Entries

def Response.isSuccess (r : Response) : Bool := 200 ≤ r.status && r.status < 300

end BotApi.Wire
