import ScriptTree.Command.Run
import ScriptTree.Command.Snapshot

/-!
# The program

Runs a command line. The files that it can see and the parse trees of its sources come as a snapshot
on standard input.
-/
namespace ScriptTree

/-- Reads a stream to its end. -/
partial def readAll (input : IO.FS.Stream) (text : String) : IO String := do
  let line ← input.getLine
  if line.isEmpty then return text else readAll input (text ++ line)

end ScriptTree

open ScriptTree in
/-- Runs a command line in the directory of a snapshot. -/
def main (args : List String) : IO UInt32 := do
  let start ← IO.monoMsNow
  let text ← readAll (← IO.getStdin) ""
  let directory := Path.ofText (toString (← IO.currentDir)).toList
  let snapshot := Snapshot.ofJson directory ((Json.parse? 1000 text.toList).getD .null)
  let finish ← IO.monoMsNow
  let environment : Command.Environment := ⟨snapshot.parser, finish - start, false⟩
  let outcome := Command.run environment snapshot.disk (args.map String.toList)
  IO.print outcome.output
  IO.eprint outcome.messages
  match outcome.written with
  | some path =>
    match outcome.disk.read path with
    | .ok content => IO.FS.writeBinFile (String.ofList path.toText) ⟨content.toArray⟩
    | .error _ => pure ()
  | none => pure ()
  return outcome.code.toUInt32
