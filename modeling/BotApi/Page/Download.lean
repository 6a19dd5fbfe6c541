import BotApi.Disk
import BotApi.Log
import BotApi.Wire.Header
/-!
Downloads of the documentation page. A page comes with a tag of its version; with the tag of the last
download a server is asked for the page only if it has changed since.
-/

namespace BotApi.Page

open Text (Path)

def documentationUrl : String := "https://core.telegram.org/bots/api"

structure Visit where
  url : String
  headers : Wire.Headers
  timeout : Float

structure Served where
  status : Int
  text : String
  headers : Wire.Headers

structure Download where
  html : String
  version : Option String

abbrev Web := Visit → Except Error Served

def defaultTimeout : Float := 30.0

def Visit.since (version : Option String) (url : String) (timeout : Float) : Visit :=
  let headers := match version with
    | some v => if v.isEmpty then [] else [("If-None-Match", Value.str v)]
    | none => []
  ⟨url, headers, timeout⟩

def unreachable : Error → Error
  | .network _ text => .transport (.fetch text)
  | e => e

def download (web : Web) (v : Visit) : Noted Error (Option Download) :=
  match web v with
  | .error e => ([], .error (unreachable e))
  | .ok s =>
      if s.status = 304 then ([.info s!"Documentation at {v.url} is unchanged"], .ok none)
      else if 200 ≤ s.status ∧ s.status < 300 then
        ([], .ok (some ⟨s.text, (s.headers.get? "ETag").bind Value.str?⟩))
      else ([], .error (.transport (.fetchStatus s.status)))

def keptVersion (d : Disk) (p : Path) : Except Error (Option String) :=
  if d.holds p then
    (d.readText p).map fun t =>
      let version := Text.onChars (Text.trim Text.isBlank) t
      if version.isEmpty then none else some version
  else .ok none

def keepVersion (d : Disk) (p : Path) (version : String) : Except Error Disk :=
  (d.makeParents p).bind fun d => d.writeText p version

end BotApi.Page
