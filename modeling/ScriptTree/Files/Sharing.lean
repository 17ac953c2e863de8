import ScriptTree.Files.Building

/-!
# Sharing files among workers

The files of a run are built by workers. Each of them has a session of its own, with which it builds
one file after another; a file is taken by one worker, and the turns of all workers come in any
order. Results are kept by the places of their files and are read in the order of the files.
-/
namespace ScriptTree

/-- The turn of a worker: it builds the file at a place. -/
structure Turn (count : Nat) where
  worker : Nat
  place : Fin count
  deriving DecidableEq, Repr

/-- The turns in which workers build a number of files, each file once. -/
structure Sharing (count : Nat) where
  turns : List (Turn count)
  once : (turns.map Turn.place).Perm (List.finRange count)

/-- How files are shared among workers. -/
abbrev Scheduler := (files : List Path) → Sharing files.length

/-- One worker builds all files in their order. -/
def Sharing.inOrder (count : Nat) : Sharing count where
  turns := (List.finRange count).map (⟨0, ·⟩)
  once := by
    rw [List.map_map]
    exact .of_eq (List.map_id _)

/-- One worker builds all files in their order, whatever they are. -/
def Scheduler.inOrder : Scheduler :=
  fun files => .inOrder files.length

/-- Workers on the way: their sessions, and the results by the places of the files. -/
structure Workshop (count : Nat) where
  session : Nat → BuildSession
  result : Fin count → Option (Except FileError Program)

namespace Workshop

variable {count : Nat}

/-- Workers who have built nothing yet. -/
def start (style : CatchStyle) : Workshop count :=
  ⟨fun _ => .start style, fun _ => none⟩

/-- Takes a turn: the worker goes on with its session, and the result is put at the place of the
file. -/
def take (parser : Parser) (d : Disk) (file : Fin count → Path) (w : Workshop count)
    (turn : Turn count) : Workshop count :=
  let (result, session) := (w.session turn.worker).buildFile parser d (file turn.place)
  { session := fun worker => if worker = turn.worker then session else w.session worker
    result := fun place => if place = turn.place then some result else w.result place }

/-- The results in the order of the files. -/
def results (w : Workshop count) : List (Except FileError Program) :=
  (List.finRange count).filterMap w.result

end Workshop

/-- The results of files that are shared among workers. -/
def Sharing.build {files : List Path} (share : Sharing files.length) (parser : Parser) (d : Disk)
    (style : CatchStyle) : List (Except FileError Program) :=
  (share.turns.foldl (Workshop.take parser d files.get) (.start style)).results

end ScriptTree
