import BotApi.Catalog.Artifact
import BotApi.Catalog.Overview
import BotApi.CommandLine.Arguments
import BotApi.Page.Download
/-!
The commands: to download the documentation and publish its catalog, to compile a page that is at
hand, and to look into a catalog.
-/

namespace BotApi.CommandLine

open Text (Path)

inductive Command where
  | update (url : String) (output : Path) (versionFile : Path) (force : Bool)
  | compile (page output : Path)
  | explore (spec : Path) (method : Option String)
  deriving Repr

def program : String := "tg-bot-api"

def defaultOutput : String := "tg-bot-api-spec.json"

def versionFileFor (output : Path) : Path := output.parent.child ".tg-bot-api-etag"

def verbose : Choice := ⟨["-v", "--verbose"], false⟩

def output : Choice := ⟨["-o", "--output"], true⟩

def root : Grammar := ⟨[program], "[OPTIONS] COMMAND [ARGS]...", [verbose], [], false⟩

def updateGrammar : Grammar :=
  ⟨[program, "update-spec"], "[OPTIONS]",
    [⟨["--url"], true⟩, output, ⟨["--etag-file"], true⟩, ⟨["--force"], false⟩], [], true⟩

def compileGrammar : Grammar :=
  ⟨[program, "compile"], "[OPTIONS] PAGE_PATH", [output], [⟨"PAGE_PATH", true, true⟩], true⟩

def exploreGrammar : Grammar :=
  ⟨[program, "explore"], "[OPTIONS] SPEC_PATH [METHOD]", [],
    [⟨"SPEC_PATH", true, true⟩, ⟨"METHOD", false, false⟩], true⟩

inductive Request where
  | run (c : Command)
  | help (g : Grammar)
  | wrong (g : Grammar) (f : UsageFault)

def updateOf (p : Grammar.Parsed) (_ : List (Option String)) : Command :=
  let out : Path := .ofText ((p.get? "--output").getD defaultOutput)
  .update ((p.get? "--url").getD Page.documentationUrl) out
    (((p.get? "--etag-file").map Path.ofText).getD (versionFileFor out)) (p.has "--force")

def compileOf (p : Grammar.Parsed) (vs : List (Option String)) : Command :=
  .compile (.ofText (vs.head?.join.getD "")) (.ofText ((p.get? "--output").getD defaultOutput))

def exploreOf (_ : Grammar.Parsed) (vs : List (Option String)) : Command :=
  .explore (.ofText (vs.head?.join.getD "")) (vs[1]?.join)

def Request.ofArguments (g : Grammar) (d : Disk) (command : Grammar.Parsed → List (Option String) → Command)
    (args : List String) : Request :=
  match g.parse args with
  | .error f => .wrong g f
  | .ok p =>
      if p.has "--help" then .help g
      else match g.values d p with
        | .error f => .wrong g f
        | .ok vs => .run (command p vs)

def Request.ofLine (d : Disk) (args : List String) : Request :=
  match root.parse args with
  | .error f => .wrong root f
  | .ok p =>
      if p.has "--help" || args.isEmpty then .help root
      else match p.values with
        | [] => .wrong root .noCommand
        | name :: args =>
            if name = "update-spec" then .ofArguments updateGrammar d updateOf args
            else if name = "compile" then .ofArguments compileGrammar d compileOf args
            else if name = "explore" then .ofArguments exploreGrammar d exploreOf args
            else .wrong root (.noSuchCommand name)

structure Scene where
  disk : Disk
  printed : List String
  notes : List LogEntry
  visits : List Page.Visit

abbrev Job := ExceptT Error (StateM Scene)

namespace Job

def say (line : String) : Job Unit := modify fun s => { s with printed := s.printed ++ [line ++ "\n"] }

def ofResult {α : Type} : Except Error α → Job α
  | .ok a => pure a
  | .error e => throw e

def ofNoted {α : Type} (n : Noted Error α) : Job α := do
  modify fun s => { s with notes := s.notes ++ n.1 }
  ofResult n.2

def publish (output : Path) (html : String) : Job Bool := do
  let p ← ofNoted (Spec.publish (← get).disk output html)
  modify ({ · with disk := p.disk })
  if p.written then
    let methods := p.spec.methods.length
    let types := p.spec.types.length
    say s!"Spec updated: {methods} methods, {types} types -> {output.text}"
  pure p.written

def download (web : Page.Web) (v : Page.Visit) : Job (Option Page.Download) := do
  modify fun s => { s with visits := s.visits ++ [v] }
  ofNoted (Page.download web v)

def keep (versionFile : Path) (version : Option String) : Job Unit :=
  match version with
  | none => pure ()
  | some v => do
      unless v.isEmpty do
        let d ← ofResult (Page.keepVersion (← get).disk versionFile v)
        modify ({ · with disk := d })

def update (web : Page.Web) (url : String) (output versionFile : Path) (force : Bool) : Job Unit := do
  let last ← if force then pure none else ofResult (Page.keptVersion (← get).disk versionFile)
  match ← download web (.since last url Page.defaultTimeout) with
  | none => say "No changes (not modified)."
  | some page => do
      unless ← publish output page.html do say "No changes."
      keep versionFile page.version

def compile (page output : Path) : Job Unit := do
  let html ← ofResult ((← get).disk.readText page)
  unless ← publish output html do say "No changes."

def explore (path : Path) (method : Option String) : Job Unit := do
  let spec ← ofResult (Spec.load (← get).disk path)
  match method with
  | none => do
      let os ← ofResult spec.methodOverviews
      os.forM fun o => say s!"{o.name}: {o.description}"
      say s!"\nTotal: {os.length} methods"
  | some m => do
      let os ← ofResult (spec.paramOverviews m)
      os.forM fun o => do
        let need := if o.required then "required" else "optional"
        say s!"{o.name} ({o.type}, {need}): {o.description}"

end Job

def Command.job (web : Page.Web) : Command → Job Unit
  | update url output versionFile force => Job.update web url output versionFile force
  | compile page output => Job.compile page output
  | explore spec method => Job.explore spec method

def isTold : Error → Bool
  | .invalid _ | .misuse _ _ | .file _ _ | .network _ _ | .yaml _ => false
  | _ => true

structure Outcome where
  scene : Scene
  complaint : String
  status : Nat
  crash : Option Error

def Outcome.printed (o : Outcome) : String := String.join o.scene.printed

def run (web : Page.Web) (d : Disk) (args : List String) : Outcome :=
  let scene : Scene := ⟨d, [], [], []⟩
  match Request.ofLine d args with
  | .wrong g f => ⟨scene, g.complaint f, 2, none⟩
  | .help g => ⟨{ scene with printed := [g.usage] }, "", if args.isEmpty then 2 else 0, none⟩
  | .run c => match (c.job web).run scene with
      | (.ok (), scene) => ⟨scene, "", 0, none⟩
      | (.error e, scene) =>
          if isTold e then ⟨scene, "Error: " ++ e.message ++ "\n", 1, none⟩ else ⟨scene, "", 1, some e⟩

end BotApi.CommandLine
