/-!
Values as they come in with requests, updates and policies. A mapping keeps the order in which its
keys were first set, and its keys need not be texts.
-/

namespace BotApi

inductive Value where
  | null
  | bool (b : Bool)
  | int (n : Int)
  | float (x : Float)
  | str (s : String)
  | bytes (content : List UInt8)
  | buffer (content : List UInt8)
  | path (p : String)
  | stream (content : List UInt8) (name : Option Value)
  | list (xs : List Value)
  | tuple (xs : List Value)
  | dict (entries : List (Value × Value))
  | limits (fields : List (String × Value))
  | byChat (cases : List (Value × Value)) (otherwise : Value)
  | byChatKind
  | record (name : String) (fields : List (String × Value))
  | moment (kind shown quoted : String)
  | spent
  | plain
  deriving Inhabited

namespace Value

def str? : Value → Option String
  | str s => some s
  | _ => none

def entries? : Value → Option (List (Value × Value))
  | dict es => some es
  | _ => none

def isNull : Value → Bool
  | null => true
  | _ => false

def integer? : Value → Option Int
  | bool b => some (if b then 1 else 0)
  | int n => some n
  | _ => none

def ofFields (fields : List (String × Value)) : Value :=
  dict (fields.map fun (k, v) => (str k, v))

def isCallable : Value → Bool
  | byChat _ _ | byChatKind => true
  | _ => false

end Value

end BotApi
