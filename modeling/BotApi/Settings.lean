import BotApi.Catalog.Artifact
import BotApi.Client.Basic
import BotApi.Limit.Policy
/-!
Settings of a client. They come from named values, or else from variables of the environment, where an
empty variable counts as none. The files they name are read when a client is made.
-/

namespace BotApi

open Schema (Field Record)
open Text (Path)

structure Settings where
  token : String
  serverUrl : String
  limitRate : Bool
  timeout : Option Float
  policyFile : Option Path
  specFile : Option Path

namespace Settings

structure Entry where
  variableName : String
  field : Field

def entries : List Entry := [
  ⟨"TG_BOT_TOKEN", ⟨"bot_token", "bot_token", .nonEmptyText, true, none⟩⟩,
  ⟨"TG_BOT_API_SERVER_URL", withFallback "server_url" .text (.str Client.globalServerUrl)⟩,
  ⟨"TG_BOT_API_LIMIT_RATE", withFallback "limit_rate" .flag (.bool true)⟩,
  ⟨"TG_BOT_API_TIMEOUT", withFallback "timeout" (.optional .positiveNumber) .null⟩,
  ⟨"TG_BOT_API_LIMITER_OPTS", withFallback "limiter_opts_file" (.optional .path) .null⟩,
  ⟨"TG_BOT_API_SPEC", withFallback "spec_file" (.optional .path) .null⟩]
where
  withFallback (name : String) (s : Schema) (v : Value) : Field := ⟨name, name, s, false, some v⟩

def record : Record := ⟨"ClientSettings", entries.map (·.field), false, .none⟩

abbrev Variables := List (String × String)

def Entry.given? (vars : Variables) (e : Entry) : Option (Value × Value) :=
  match vars.lookup e.variableName with
  | some t => if t.isEmpty then none else some (.str e.field.name, .str t)
  | none => none

def gather (vars : Variables) (named : Entries) : Entries :=
  Entries.merge (entries.filterMap (Entry.given? vars)) (named.filter fun e => !e.2.isNull)

def ofRecord (v : Value) : Settings :=
  let get (name : String) : Value := match v with
    | .record _ fs => (fs.lookup name).getD .null
    | _ => .null
  let path? (name : String) : Option Path := match get name with
    | .path p => some (.ofText p)
    | _ => none
  let timeout := match get "timeout" with
    | .float x => some x
    | _ => none
  ⟨(get "bot_token").str?.getD "", (get "server_url").str?.getD "", (get "limit_rate").truthy,
    timeout, path? "limiter_opts_file", path? "spec_file"⟩

def ofVariables (vars : Variables) (named : Entries) : Except Error Settings :=
  let given := gather vars named
  if (Entries.getText? given "bot_token").isNone then .error (.config .unsetToken)
  else match Schema.check [(0, record)] .values (.record 0) (.dict given) with
    | .ok v => .ok (ofRecord v)
    | .error is => .error (.config (.invalidSettings is))

def ofPath? (p : Option Path) : Value := (p.map fun p => Value.path p.text).getD .null

def timeoutValue (s : Settings) : Value := (s.timeout.map Value.float).getD .null

def toFields (s : Settings) : List (String × Value) := [
  ("bot_token", .str s.token), ("server_url", .str s.serverUrl), ("limit_rate", .bool s.limitRate),
  ("timeout", s.timeoutValue), ("limiter_opts_file", ofPath? s.policyFile),
  ("spec_file", ofPath? s.specFile)]

def describe (s : Settings) : String := (Value.record record.name (s.toFields.drop 1)).quotedText

def spec (d : Disk) (given : Option Spec) (s : Settings) : Except Error Spec :=
  match given, s.specFile with
  | some c, _ => .ok c
  | none, some p => Spec.load d p
  | none, none => .error (.config .unsetSpec)

/-- The policy file is read in any case, but a policy that is named overrides it. -/
def policy (d : Disk) (named : Option Value) (s : Settings) : Except Error Value :=
  match s.policyFile with
  | none => .ok (named.getD .null)
  | some p => (Limit.loadPolicy d p).map fun v => named.getD v

structure Additions where
  policy : Option Value
  responses : Option Wire.Responses
  transport : Option Wire.Transport
  hooks : List Hook
  others : List String

def sharedNames : List String := ["registry", "schemas"]

def client (own : Wire.Transport) (d : Disk) (given : Option Spec) (more : Additions) (s : Settings) :
    Except Error (Client × Spec) := do
  let spec ← s.spec d given
  let policy ← s.policy d more.policy
  if more.others.any fun n => !sharedNames.contains n then Error.wrongKind
  let c ← Client.ofOptions own ⟨.str s.token, some (.str s.serverUrl), some (.bool s.limitRate), policy,
    more.responses, more.transport, more.hooks, s.timeoutValue⟩
  pure (c, spec)

end Settings

end BotApi
