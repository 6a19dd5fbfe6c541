import BotApi.Schema.Issue
import BotApi.Text.Blank
import BotApi.Yaml.Fault
/-!
Everything that can go wrong, as causes. The wording of each is one function beside its type; where
a message refers to a list of issues, the issues stand beside it.
-/

namespace BotApi

def inQuotes (s : String) : String := Text.onChars Text.quoted s

def issuesMark : String := "<details>"

inductive FileFault where
  | absent
  | directory
  | existing
  | notDirectory
  deriving Repr, DecidableEq

def FileFault.message (path : String) : FileFault → String
  | absent => s!"[Errno 2] No such file or directory: {inQuotes path}"
  | directory => s!"[Errno 21] Is a directory: {inQuotes path}"
  | existing => s!"[Errno 17] File exists: {inQuotes path}"
  | notDirectory => s!"[Errno 20] Not a directory: {inQuotes path}"

inductive NameFault where
  | unknown (name : String)
  | circular (name : String)
  deriving Repr, DecidableEq

def NameFault.message : NameFault → String
  | unknown n => s!"name '{n}' is not defined"
  | circular n => s!"Unable to evaluate forward reference ForwardRef('{n}')"

inductive CompileFault where
  | stated (text : String)
  | noType (tokens : String)
  | noContent (id : String)
  | noSection (title : String)
  | noHeader
  | unknownColumns (names : List String)
  | rowWidth (found expected : Nat) (row : String)
  | noNameOrType
  | firstColumn (name : String)
  | noSubtypes
  | noAnchor (heading : String)
  | element (name : String) (cause : CompileFault)
  | unresolved (id referrer : String)
  | unknownType (id : String)
  | incomplete (schema : String) (fault : NameFault)
  | unreadable (path : String) (fault : FileFault)
  | invalidFile (path : String) (issues : List Issue)
  deriving Repr

def CompileFault.message : CompileFault → String
  | stated t => t
  | noType ts => s!"Empty type expression: {ts}"
  | noContent id => s!"No '#{id}' element in the documentation page"
  | noSection t => s!"Section '{t}' not found"
  | noHeader => "Table without a header row"
  | unknownColumns ns =>
      "Unknown table columns: [" ++ String.intercalate ", " (ns.map inQuotes) ++ "]"
  | rowWidth n m row => s!"Row has {n} cells, expected {m}: {inQuotes row}"
  | noNameOrType => "Table lacks a name or type column"
  | firstColumn n => s!"Table must start with 'Field' or 'Parameter', got '{n}'"
  | noSubtypes => "Subtype list without any type anchors"
  | noAnchor h => s!"Heading '{h}' has no anchor"
  | element n c => s!"Failed to parse API element '{n}': {c.message}"
  | unresolved id r => s!"Unresolved type reference '{id}' in '{r}'"
  | unknownType id => s!"Unknown type id '{id}'"
  | incomplete m f => s!"Cannot complete schema '{m}': {f.message}"
  | unreadable p f => s!"Failed to load spec file '{p}': {f.message p}"
  | invalidFile p _ => s!"Failed to load spec file '{p}': {issuesMark}"

inductive ConfigFault where
  | token
  | noToken
  | noServerUrl
  | limitRate
  | responsesAndTransport
  | responses
  | policy
  | policyEntry (method : String) (entry : Value)
  | policyLevels (method levels : String)
  | levelOptions (level method : String) (options : Value)
  | invalidOptions (level method : String) (issues : List Issue)
  | callback (given : Value)
  | buttonKind (kind : String)
  | markupKind (kind : String)
  | noUpdateType
  | updatesMode (mode : String)
  | unsetToken
  | invalidSettings (issues : List Issue)
  | unsetSpec

def ConfigFault.message : ConfigFault → String
  | token => "Failed to parse an ID from the bot auth token"
  | noToken => "The bot token must be a non-empty string"
  | noServerUrl => "The server URL must be a non-empty string"
  | limitRate => "The limit_rate flag must be a boolean"
  | responsesAndTransport => "Pass either canned responses or a transport, not both"
  | responses => "Canned responses must be a mapping or a callable"
  | policy => "Rate limiter policy must be a mapping of method names"
  | policyEntry m e => s!"Invalid rate limiter policy entry for '{m}': {e.quotedText}"
  | policyLevels m ls => s!"Unknown rate limiter levels for '{m}': {ls}"
  | levelOptions l m o => s!"Invalid '{l}' options for '{m}': {o.quotedText}"
  | invalidOptions l m _ => s!"Invalid '{l}' rate limiter options for '{m}': {issuesMark}"
  | callback v => s!"A callback must be callable or IGNORE, got {v.quotedText}"
  | buttonKind k => s!"Unknown inline keyboard button kind '{k}'"
  | markupKind k => s!"Unknown reply markup kind '{k}'"
  | noUpdateType => "The spec does not describe the 'Update' type"
  | updatesMode m => s!"Unknown allowed updates mode '{m}'"
  | unsetToken => "No bot token: set TG_BOT_TOKEN"
  | invalidSettings _ => s!"Invalid client settings: {issuesMark}"
  | unsetSpec => "No spec: pass one or set TG_BOT_API_SPEC"

inductive TransportFault where
  | stated (text : String)
  | unencodable (method why : String)
  | failed (method why : String)
  | noCanned (method : String)
  | unparsable (status why : String)
  | fetch (why : String)
  | fetchStatus (status : Int)
  deriving Repr, DecidableEq

def TransportFault.message : TransportFault → String
  | stated t => t
  | unencodable m why => s!"Failed to encode '{m}' request: {why}"
  | failed m why => s!"Request to '{m}' failed: {why}"
  | noCanned m => s!"No canned response for '{m}'"
  | unparsable s why => s!"Unparsable Telegram Bot API response (status {s}): {why}"
  | fetch why => s!"Failed to fetch the Bot API page: {why}"
  | fetchStatus s => s!"Failed to fetch the Bot API page: HTTP {s}"

inductive Misuse where
  | kind
  | member
  | key
  | value
  | assertion
  | division
  | encoding
  | schema
  | name
  | runtime
  | overflow
  | markup
  deriving Repr, DecidableEq

inductive NetworkFault where
  | connection
  | timeout
  | request
  deriving Repr, DecidableEq

inductive Error where
  | compile (fault : CompileFault)
  | config (fault : ConfigFault)
  | unknownMethod (name : String)
  | invalidParams (method : String) (issues : List Issue)
  | transport (fault : TransportFault)
  | malformed (text : String)
  | interrupted (text : String)
  | failure (message method : String) (params response : Value)
  | unexpected (expected actual : Value)
  | call (message method : String) (params : Value) (cause : Error)
  | invalid (issues : List Issue)
  | misuse (how : Misuse) (text : String)
  | file (fault : FileFault) (path : String)
  | network (fault : NetworkFault) (text : String)
  | yaml (fault : Yaml.Fault)

def Issue.summary (i : Issue) : String :=
  String.intercalate "." (i.place.map Step.text) ++ ": " ++ i.fault.message

namespace Error

def message : Error → String
  | compile f => f.message
  | config f => f.message
  | unknownMethod n => s!"Unknown Telegram Bot API method '{n}'"
  | invalidParams m is =>
      s!"Invalid params for '{m}': " ++ String.intercalate "; " (is.map Issue.summary)
  | transport f => f.message
  | malformed t => t
  | interrupted t => t
  | failure m _ _ _ => m
  | unexpected e a =>
      "The Telegram Bot API method returned an unexpected result: " ++
        s!"expected={e.quotedText}, actual={a.quotedText}"
  | call m _ _ _ => m
  | invalid _ => issuesMark
  | misuse .key t => inQuotes t
  | misuse _ t => t
  | file f p => f.message p
  | network _ t => t
  | yaml f => f.message

def issues : Error → List Issue
  | compile (.invalidFile _ is) => is
  | config (.invalidOptions _ _ is) | config (.invalidSettings is) => is
  | invalidParams _ is | invalid is => is
  | _ => []

def wrongKind {α : Type} : Except Error α := .error (.misuse .kind "")

def noMember {α : Type} : Except Error α := .error (.misuse .member "")

def noKey {α : Type} (key : String) : Except Error α := .error (.misuse .key key)

end Error

end BotApi
