import BotApi.Value.Access
/-!
Kinds of chats, and what a change in a chat member amounts to.
-/

namespace BotApi

namespace Chat

def privateTypes : List String := ["private", "sender"]

def isPrivate (type : Value) : Except Error Bool := type.isOneOf privateTypes

def isGroup (type : Value) : Bool := type.str? == some "group"

def isSupergroup (type : Value) : Bool := type.str? == some "supergroup"

def isChannel (type : Value) : Bool := type.str? == some "channel"

end Chat

namespace Member

def activeStatuses : List String := ["member", "administrator", "creator", "restricted"]

def inactiveStatuses : List String := ["left", "kicked"]

def administratorStatuses : List String := ["administrator", "creator"]

def status (member : Value) : Except Error Value := member.orEmpty.entry "status"

def isAdministrator (member : Value) : Except Error Bool := do
  (← status member).isOneOf administratorStatuses

def old (change : Value) : Except Error Value := change.entry "old_chat_member"

def new (change : Value) : Except Error Value := change.entry "new_chat_member"

def moves (before after : List String) (change : Value) : Except Error Bool := do
  let a ← status (← old change)
  let b ← status (← new change)
  if ← a.isOneOf before then b.isOneOf after else pure false

def hasJoined (change : Value) : Except Error Bool := moves inactiveStatuses activeStatuses change

def hasLeft (change : Value) : Except Error Bool := moves activeStatuses inactiveStatuses change

def isPromoted (change : Value) : Except Error Bool := do
  if ← isAdministrator (← old change) then pure false else isAdministrator (← new change)

def isDemoted (change : Value) : Except Error Bool := do
  if ← isAdministrator (← old change) then pure !(← isAdministrator (← new change)) else pure false

end Member

end BotApi
