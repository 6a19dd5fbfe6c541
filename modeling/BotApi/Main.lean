import BotApi.CommandLine.Command
/-!
The program. It works on a copy of the files its arguments name, and writes back what has changed.
-/

namespace BotApi

open Text (Path)

def namedPaths (args : List String) : List Path :=
  let words := CommandLine.defaultOutput :: args.flatMap fun a => a :: (a.splitOn "=").drop 1
  (words.map Path.ofText).flatMap fun p => [p, CommandLine.versionFileFor p]

def loadPath (d : Disk) (p : Path) : IO Disk := do
  try
    let b ← IO.FS.readBinFile p.text
    pure (d.put p b.toList)
  catch
    | .noFileOrDirectory .. => pure d
    | _ => pure { d with directories := d.directories ++ [p] }

def storeFile (old : Disk) (f : Path × List UInt8) : IO Unit := do
  unless old.file? f.1 == some f.2 do
    IO.FS.createDirAll f.1.parent.text
    IO.FS.writeBinFile f.1.text ⟨f.2.toArray⟩

def offline : Page.Web := fun _ => .error (.network .connection "the network cannot be reached")

end BotApi

open BotApi in
def main (args : List String) : IO UInt32 := do
  let d ← (namedPaths args).foldlM loadPath Disk.empty
  let o := CommandLine.run offline d args
  o.scene.disk.files.forM (storeFile d)
  o.scene.notes.forM fun l => IO.eprintln l.message
  IO.print o.printed
  IO.eprint o.complaint
  match o.crash with
  | some e => IO.eprintln e.message
  | none => pure ()
  pure (UInt32.ofNat o.status)
