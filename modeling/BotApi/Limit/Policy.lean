import BotApi.Disk
import BotApi.Limit.Options
import BotApi.Value.Access
import BotApi.Value.Order
import BotApi.Yaml.Document
/-!
Policies. A policy maps methods to the name of a method whose limits they share, or to the options of
two levels: all calls together, and the calls to one chat. Options are a mapping, nothing, or a
choice by chat. Of several policies the earlier ones take precedence. Policies are also kept in files.
-/

namespace BotApi.Limit

inductive Level where
  | total
  | perChat
  deriving Repr, DecidableEq

def Level.name : Level → String
  | total => "total"
  | perChat => "per_chat"

def levelNames : List String := [Level.total.name, Level.perChat.name]

def isGroupChat : Value → Except Error Bool
  | .str s => .ok (s.toList.head?.any fun c => c == '-' || c == '@')
  | .int n => .ok (n < 0)
  | .bool _ => .ok false
  | .float x => .ok (x < 0)
  | _ => Error.wrongKind

def rate (limit period : Int) : Value := .ofFields [("limit", .int limit), ("period", .int period)]

def defaultPolicy : Value := .ofFields [
  ("sendMessage", .ofFields [(Level.total.name, rate 30 1), (Level.perChat.name, .byChatKind)]),
  ("editMessageText", .str "sendMessage")]

/-- The method whose limits a method shares: the first policy with an entry for it decides. -/
def baseMethod (method : String) : List Value → Except Error String
  | [] => .ok method
  | p :: ps =>
      if !p.truthy then baseMethod method ps
      else (p.mentions method).bind fun found =>
        if !found then baseMethod method ps
        else match p with
          | .dict es => match Entries.getText? es method with
              | some (.str base) => .ok base
              | _ => .ok method
          | _ => Error.wrongKind

def forChat (chat options : Value) : Except Error Value :=
  match options with
  | .byChat cases otherwise => .ok (((cases.find? fun c => c.1.equal chat).map (·.2)).getD otherwise)
  | .byChatKind => (isGroupChat chat).map fun group => if group then rate 20 60 else rate 1 1
  | o => .ok o

def stated (level : Level) (method : String) (chat policy : Value) :
    Except Error (Option (Option Entries)) :=
  match policy.orEmpty with
  | .dict es => match Entries.getText es method with
      | .dict levels => match Entries.getText? levels level.name with
          | none => .ok none
          | some options => (forChat chat options).bind fun
              | .null => .ok (some none)
              | .dict os => .ok (some (some os))
              | .limits fs => .ok (some (some (fs.map fun (k, v) => (.str k, v))))
              | _ => Error.wrongKind
      | _ => .ok none
  | _ => Error.noMember

/-- The options of all policies laid over each other; a level that is off hides those below. -/
def merged (level : Level) (method : String) (chat : Value) :
    List Value → Except Error (Option Entries)
  | [] => .ok none
  | p :: ps => (merged level method chat ps).bind fun below =>
      (stated level method chat p).map fun
        | none => below
        | some none => none
        | some (some os) => some (Entries.merge (below.getD []) os)

def levelOptions (level : Level) (method : String) (chat : Value) (policies : List Value) :
    Except Error (Option Options) :=
  (merged level method chat policies).bind fun
    | none => .ok none
    | some os => match Entries.texts? os with
        | none => Error.wrongKind
        | some _ => match Options.ofValue? (.dict os) with
            | .ok o => .ok (some o)
            | .error is => .error (.config (.invalidOptions level.name method is))

def isOptions (fromFile : Bool) : Value → Bool
  | .null | .dict _ => true
  | .limits _ | .byChat _ _ | .byChatKind => !fromFile
  | _ => false

def checkLevels (fromFile : Bool) (method : String) (es : Entries) : Except Error Unit :=
  let unknown := (es.map (·.1)).filter fun k => !k.str?.any levelNames.contains
  if unknown.isEmpty then
    match es.find? fun e => !isOptions fromFile e.2 with
    | none => .ok ()
    | some (level, options) => .error (.config (.levelOptions level.shownText method options))
  else match Value.sorted? unknown with
    | some ks => .error (.config (.policyLevels method (Value.list ks).quotedText))
    | none => Error.wrongKind

def checkEntry (fromFile : Bool) (e : Value × Value) : Except Error Unit :=
  let method := e.1.shownText
  match e.2 with
  | .str _ => .ok ()
  | .dict es => checkLevels fromFile method es
  | v => .error (.config (.policyEntry method v))

def checkPolicy (fromFile : Bool) : Value → Except Error Unit
  | .dict es => es.forM (checkEntry fromFile)
  | _ => .error (.config .policy)

def checkPolicy? (policy : Value) : Except Error Unit :=
  if policy.isNull then .ok () else checkPolicy false policy

def loadPolicy (d : Disk) (p : Text.Path) : Except Error Value := do
  let text ← d.readText p
  let v ← (Yaml.read text.toList).mapError .ofYaml
  let policy := v.orEmpty
  checkPolicy true policy
  pure policy

end BotApi.Limit
