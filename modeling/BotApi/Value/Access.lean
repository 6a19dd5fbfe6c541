import BotApi.Error
import BotApi.Value.Compare
/-!
Reading parts of values whose form is not known: each way to read a part says what it makes of a
value that has no such part.
-/

namespace BotApi

namespace Value

def entry (v : Value) (key : String) : Except Error Value :=
  match v with
  | dict es => .ok (Entries.getText es key)
  | _ => Error.noMember

def orEmpty (v : Value) : Value := if v.truthy then v else dict []

def required (v : Value) (key : String) : Except Error Value :=
  match v with
  | dict es => match Entries.getText? es key with
      | some w => .ok w
      | none => Error.noKey key
  | _ => Error.wrongKind

def lines (run : List UInt8) : List UInt8 → List Value
  | [] => if run.isEmpty then [] else [bytes run.reverse]
  | b :: rest =>
      if b = 10 then bytes (b :: run).reverse :: lines [] rest else lines (b :: run) rest

def optionPairs (fields : List (String × Value)) : List Value :=
  ["limit", "period", "interruptible"].map fun k =>
    tuple [str k, ((fields.find? (·.1 == k)).map (·.2)).getD (optionDefault k)]

def items : Value → Except Error (List Value)
  | list xs | tuple xs => .ok xs
  | dict es => .ok (es.map (·.1))
  | str s => .ok (s.toList.map fun c => str (.singleton c))
  | bytes b | buffer b => .ok (b.map fun o => int o.toNat)
  | stream b _ => .ok (lines [] b)
  | limits fs => .ok (optionPairs fs)
  | _ => Error.wrongKind

def pair (v : Value) : Except Error (Value × Value) :=
  v.items.bind fun
    | [k, w] => if k.isKey then .ok (k, w) else Error.wrongKind
    | _ => .error (.misuse .value "")

def toEntries (v : Value) : Except Error Entries :=
  match v with
  | dict es => .ok es
  | v => v.items.bind fun xs => (xs.mapM pair).map Entries.ofPairs

def mentions (v : Value) (text : String) : Except Error Bool :=
  match v with
  | dict es => .ok (Entries.getText? es text).isSome
  | str s => .ok (Text.contains text.toList s.toList)
  | bytes _ | buffer _ => Error.wrongKind
  | v => v.items.map fun xs => xs.any (·.equal (.str text))

def size : Value → Except Error Nat
  | list xs | tuple xs => .ok xs.length
  | dict es => .ok es.length
  | str s => .ok s.length
  | bytes b | buffer b => .ok b.length
  | _ => Error.wrongKind

def position (length : Nat) (i : Int) : Nat :=
  if i < 0 then (length + i).toNat else min i.toNat length

def span {α : Type} (xs : List α) (start stop : Int) : List α :=
  let a := position xs.length start
  let b := position xs.length stop
  (xs.take b).drop a

def part (v : Value) (start stop : Int) : Except Error Value :=
  match v with
  | list xs => .ok (list (span xs start stop))
  | tuple xs => .ok (tuple (span xs start stop))
  | str s => .ok (str (.ofList (span s.toList start stop)))
  | bytes b => .ok (bytes (span b start stop))
  | buffer b => .ok (buffer (span b start stop))
  | _ => Error.wrongKind

def isOneOf (v : Value) (texts : List String) : Except Error Bool :=
  if v.isKey then .ok (v.str?.any texts.contains) else Error.wrongKind

end Value

end BotApi
