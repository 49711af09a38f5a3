import Amalgam.Command.Run

/-!
# The program

Standard input names the files that the program may read, one path a line; they make up the disk on
which the command line is run. What the run writes is then written, its output is printed, and its
exit code is returned.
-/

namespace Amalgam.Program

/-- The lines of standard input. -/
def inputLines : IO (List String) := do
  let stdin ← IO.getStdin
  let bytes ← stdin.readToEnd
  return (Text.lines bytes.toList).map String.ofList

/-- The disk with one file of the system on it; a file that cannot be read is left out. -/
def loadFile (d : Disk) (path : Path) : IO Disk := do
  try
    let bytes ← IO.FS.readBinFile path.spelling
    let parents := path.parent?.elim d fun parent => (d.makeDirs parent).disk
    return (parents.write path bytes.toList).disk
  catch _ => return d

/-- Writes a file and makes the directories above it. -/
def storeFile (location : Location) (bytes : List UInt8) : IO Unit := do
  IO.FS.createDirAll (Path.ofLocation location.dropLast).spelling
  IO.FS.writeBinFile (Path.ofLocation location).spelling ⟨bytes.toArray⟩

/-- Writes every file that is new or has other bytes than before. -/
def store (before after : Disk) : IO Unit :=
  after.nodes.toList.forM fun (location, node) =>
    match node with
    | .file bytes => unless before.node? location = some node do storeFile location bytes
    | _ => pure ()

end Amalgam.Program

open Amalgam in
/-- Runs the command line on the files that standard input names. -/
def main (arguments : List String) : IO UInt32 := do
  let here : Path := ⟨toString (← IO.currentDir)⟩
  let base := (Disk.empty.makeDirs here).disk
  let empty := (base.enter here).toOption.getD base
  let disk ← (← Program.inputLines).foldlM (fun d line => Program.loadFile d ⟨line⟩) empty
  let coloured := (← IO.getEnv "CLICOLOR_FORCE").any (· ≠ "0")
  let outcome := Command.run .standard disk coloured arguments
  Program.store disk outcome.disk
  IO.print outcome.stdout
  IO.eprint outcome.stderr
  return outcome.exit.toUInt32
