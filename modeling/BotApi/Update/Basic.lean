import BotApi.Value.Access
/-!
Updates: mappings with an identifier and one more entry that names the kind of the update and holds
what it is about.
-/

namespace BotApi.Update

def idKey : String := "update_id"

def id (update : Value) : Except Error Value := update.entry idKey

def kind? (update : Value) : Except Error (Option Value) := do
  pure ((← update.items).find? fun k => k.str? != some idKey)

def payload (update : Value) : Except Error Value := do
  match ← kind? update with
  | none => pure .null
  | some k =>
      if !k.truthy then pure .null
      else match update with
        | .dict es => pure ((Entries.get? es k).getD .null)
        | _ => Error.noMember

def message (update : Value) : Except Error Value := do
  match ← payload update with
  | .dict es =>
      if (Entries.getText? es "message_id").isSome then pure (.dict es)
      else pure (Entries.getText es "message")
  | _ => pure .null

def chat (update : Value) : Except Error Value := do
  match ← payload update with
  | .dict es => match Entries.getText? es "chat" with
      | some c => pure c
      | none => (Entries.getText es "message").orEmpty.entry "chat"
  | _ => pure .null

def chatType (update : Value) : Except Error Value := do
  let c ← chat update
  if c.isNull then (← update.entry "inline_query").orEmpty.entry "chat_type"
  else c.entry "type"

def commandEntities (message : Value) : Except Error (List Value) := do
  let entities ← message.entry "entities"
  if entities.truthy then
    (← entities.items).filterM fun e => do pure ((← e.entry "type").str? == some "bot_command")
  else pure []

inductive Offset where
  | int (n : Int)
  | float

def Offset.of : Value → Except Error Offset
  | .float _ => .ok .float
  | v => match v.integer? with
      | some n => .ok (.int n)
      | none => Error.wrongKind

def Offset.add : Offset → Offset → Offset
  | int a, int b => int (a + b)
  | _, _ => float

def Offset.toInt : Offset → Except Error Int
  | int n => .ok n
  | float => Error.wrongKind

def commandName (message entity : Value) : Except Error String := do
  let offset ← Offset.of (← entity.required "offset")
  let text ← match message with
    | .dict es => pure ((Entries.getText? es "text").getD (.str ""))
    | _ => Error.noMember
  let length ← Offset.of (← entity.required "length")
  let start ← (offset.add (.int 1)).toInt
  let stop ← (offset.add length).toInt
  match ← text.part start stop with
  | .str s => pure (.ofList (s.toList.takeWhile (· != '@')))
  | .bytes _ | .buffer _ => Error.wrongKind
  | _ => Error.noMember

def commands? (update : Value) : Except Error (Option (List String)) := do
  let m ← message update
  if m.isNull then pure none
  else
    let es ← commandEntities m
    if es.isEmpty then pure none else some <$> es.mapM (commandName m)

def isEdited (update : Value) : Except Error Bool := do
  match ← kind? update with
  | none => pure false
  | some k =>
      if !k.truthy then pure false
      else match k with
        | .str s => pure (Text.startsWith "edited".toList s.toList)
        | .bytes _ | .buffer _ => Error.wrongKind
        | _ => Error.noMember

end BotApi.Update
