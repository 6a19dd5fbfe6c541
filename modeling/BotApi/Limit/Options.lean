import BotApi.Error
import BotApi.Number.Shortest
import BotApi.Schema.Validate
/-!
Options of a limiter: at most `limit` calls within any `period` seconds.
-/

namespace BotApi.Limit

open Schema (Field Record)

structure Options where
  limit : Nat
  period : Float
  interruptible : Bool
  limit_pos : 0 < limit

def record : Record where
  name := "LimiterOptions"
  fields := [⟨"limit", "limit", .positiveInteger, true, none⟩,
    ⟨"period", "period", .positiveNumber, false, some (.float 1.0)⟩,
    ⟨"interruptible", "interruptible", .flag, false, some (.bool false)⟩]
  closed := true
  check := .none

def fields (v : Value) : Except (List Issue) (List (String × Value)) :=
  (Schema.check [(0, record)] .values (.record 0) v).map fun
    | .record _ fs => fs
    | _ => []

def givenFields (es : Entries) : Except (List Issue) (List (String × Value)) :=
  (fields (.dict es)).map fun fs => fs.filter fun f => (Entries.getText? es f.1).isSome

namespace Options

def ofFields (fs : List (String × Value)) : Except (List Issue) Options :=
  let get (name : String) : Value := ((fs.find? (·.1 == name)).map (·.2)).getD .null
  match get "limit" with
  | .int (.ofNat (n + 1)) =>
      let period := match get "period" with
        | .float x => x
        | _ => 1.0
      .ok ⟨n + 1, period, (get "interruptible").truthy, n.succ_pos⟩
  | _ => .error [⟨[.key "limit"], .above 0⟩]

def ofValue? (v : Value) : Except (List Issue) Options :=
  (fields (match v with
    | .limits fs => .ofFields fs
    | v => v)).bind ofFields

def interval? (o : Options) : Option Nat := Number.product? o.period 1000

end Options

end BotApi.Limit
