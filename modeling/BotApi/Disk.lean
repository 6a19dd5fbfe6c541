import BotApi.Error
import BotApi.Text.Octets
import BotApi.Text.Path
/-!
A disk holds files by their paths. Directories are the paths that lead to files, and those made. A path is taken
as it is spelled: two spellings of one place, such as `a/../b` and `b`, or an absolute path and a relative one, are two
files here. What is said of the files of a run holds where each is spelled in one way.
-/

namespace BotApi

open Text (Path)

structure Disk where
  files : List (Path × List UInt8)
  directories : List Path
  deriving Repr

namespace Disk

def empty : Disk := ⟨[], []⟩

def file? (d : Disk) (p : Path) : Option (List UInt8) := (d.files.find? (·.1 == p)).map (·.2)

def isFile (d : Disk) (p : Path) : Bool := (d.file? p).isSome

def isWithin (p q : Path) : Bool := p.absolute == q.absolute && p.parts.isPrefixOf q.parts

def isDirectory (d : Disk) (p : Path) : Bool :=
  p.parts.isEmpty || d.directories.any (isWithin p) ||
    d.files.any fun f => f.1 != p && isWithin p f.1

def holds (d : Disk) (p : Path) : Bool := d.isFile p || d.isDirectory p

/-- A file on the way to a path makes it unreachable. -/
def absence (d : Disk) (p : Path) : FileFault :=
  if p.ancestors.any d.isFile then .notDirectory else .absent

def read (d : Disk) (p : Path) : Except FileFault (List UInt8) :=
  match d.file? p with
  | some b => .ok b
  | none => .error (if d.isDirectory p then .directory else d.absence p)

def put (d : Disk) (p : Path) (b : List UInt8) : Disk :=
  if d.isFile p then { d with files := d.files.map fun f => if f.1 == p then (p, b) else f }
  else { d with files := d.files ++ [(p, b)] }

def write (d : Disk) (p : Path) (b : List UInt8) : Except FileFault Disk :=
  if d.isDirectory p then .error .directory
  else if d.isFile p || d.isDirectory p.parent then .ok (d.put p b)
  else .error (if d.isFile p.parent then .notDirectory else d.absence p)

def makeDirectory (d : Disk) (p : Path) : Except FileFault Disk :=
  if d.isDirectory p then .ok d
  else if d.isFile p then .error .existing
  else if p.ancestors.any d.isFile then .error .notDirectory
  else .ok { d with directories := d.directories ++ [p] }

def lineFeeds : List Char → List Char
  | '\r' :: '\n' :: s => '\n' :: lineFeeds s
  | '\r' :: s => '\n' :: lineFeeds s
  | c :: s => c :: lineFeeds s
  | [] => []

def readText (d : Disk) (p : Path) : Except Error String :=
  match d.read p with
  | .error f => .error (.file f p.text)
  | .ok b => match Text.Utf8.decode b with
      | .ok cs => .ok (.ofList (lineFeeds cs))
      | .error f => .error (.misuse .encoding f.message)

def writeText (d : Disk) (p : Path) (s : String) : Except Error Disk :=
  match d.write p (Text.Utf8.encode s.toList) with
  | .ok d => .ok d
  | .error f => .error (.file f p.text)

def makeParents (d : Disk) (p : Path) : Except Error Disk :=
  match d.makeDirectory p.parent with
  | .ok d => .ok d
  | .error f => .error (.file f p.parent.text)

end Disk

end BotApi
