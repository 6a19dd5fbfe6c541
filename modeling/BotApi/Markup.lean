import BotApi.Value.Access
/-!
Reply markups: keyboards, their removal and forced replies, as the mappings that go with a message.
-/

namespace BotApi.Markup

def placeholderMost : Nat := 64

def placeholder? (v : Value) : Except Error (Option Value) :=
  if v.isNull then .ok none
  else do
    if (← v.size) < 2 then pure none else some <$> v.part 0 placeholderMost

def rows (v : Value) : Except Error Value := do
  let rs ← (← v.items).mapM fun row => do pure (Value.list (← row.items))
  pure (.list rs)

def flagIf (name : String) (v : Value) : List (String × Value) :=
  if v.truthy then [(name, .bool true)] else []

def withPlaceholder (v : Value) : Except Error (List (String × Value)) := do
  pure ((← placeholder? v).toList.map fun p => ("input_field_placeholder", p))

def keyboard (buttons persistent oneTime placeholder selective : Value) : Except Error Value := do
  let rs ← rows buttons
  let p ← withPlaceholder placeholder
  pure (.ofFields ([("keyboard", rs), ("resize_keyboard", .bool true)] ++
    flagIf "is_persistent" persistent ++ flagIf "one_time_keyboard" oneTime ++ p ++
    flagIf "selective" selective))

def removal (selective : Value) : Value :=
  .ofFields (("remove_keyboard", .bool true) :: flagIf "selective" selective)

def inlineKeyboard (buttons : Value) : Except Error Value := do
  pure (.ofFields [("inline_keyboard", ← rows buttons)])

def forcedReply (placeholder selective : Value) : Except Error Value := do
  let p ← withPlaceholder placeholder
  pure (.ofFields (("force_reply", .bool true) :: p ++ flagIf "selective" selective))

def buttonKinds : List String :=
  ["url", "login_url", "callback_data", "switch_inline_query",
    "switch_inline_query_current_chat", "callback_game", "pay"]

def underscored (s : String) : String := Text.onChars (Text.replaceChar '-' '_') s

def inlineButton (text : Value) (kind : String) (value : Value) : Except Error Value :=
  let kind := underscored kind
  if buttonKinds.contains kind then .ok (.ofFields [("text", text), (kind, value)])
  else .error (.config (.buttonKind kind))

def bind (slots : List (String × Value)) (args : List Value) (named : List (String × Value)) :
    Except Error (List (String × Value)) :=
  let given := slots.zip args |>.map fun (s, v) => (s.1, v)
  if slots.length < args.length then Error.wrongKind
  else if named.any fun (k, _) => !slots.any (·.1 == k) || given.any (·.1 == k) then Error.wrongKind
  else .ok (slots.map fun (k, d) =>
    (k, (((given ++ named).find? (·.1 == k)).map (·.2)).getD d))

inductive Kind where
  | keyboard
  | removal
  | inlineKeyboard
  | forcedReply
  deriving Repr, DecidableEq

namespace Kind

def named : List (String × Kind) :=
  [("custom_keyboard", keyboard), ("remove_keyboard", removal),
    ("inline_keyboard", inlineKeyboard), ("force_reply", forcedReply)]

def ofName? (name : String) : Option Kind :=
  (named.find? (·.1 == underscored name)).map (·.2)

def slots : Kind → List (String × Value)
  | keyboard => [("button_rows", .tuple []), ("persistent", .bool false), ("one_time", .bool false),
      ("placeholder", .null), ("selective", .bool false)]
  | removal => [("selective", .bool false)]
  | inlineKeyboard => [("button_rows", .tuple [])]
  | forcedReply => [("placeholder", .null), ("selective", .bool false)]

def build (k : Kind) (arg : String → Value) : Except Error Value :=
  match k with
  | keyboard => Markup.keyboard (arg "button_rows") (arg "persistent") (arg "one_time")
      (arg "placeholder") (arg "selective")
  | removal => .ok (Markup.removal (arg "selective"))
  | inlineKeyboard => Markup.inlineKeyboard (arg "button_rows")
  | forcedReply => Markup.forcedReply (arg "placeholder") (arg "selective")

end Kind

def build (name : String) (args : List Value) (named : List (String × Value)) :
    Except Error Value :=
  if named.any (·.1 == "kind") then Error.wrongKind
  else match Kind.ofName? name with
    | none => .error (.config (.markupKind name))
    | some k => do
        let bound ← bind k.slots args named
        k.build fun n => ((bound.find? (·.1 == n)).map (·.2)).getD .null

end BotApi.Markup
