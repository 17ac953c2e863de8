import Mathlib
import ScriptTree.Command.Run
import ScriptTree.Proofs.PathOrder
import ScriptTree.Proofs.Results
import ScriptTree.Proofs.Sessions
import ScriptTree.Proofs.WrittenFiles

/-!
# Builds that are shared among workers

A worker's session is used for one file after another, also after files that could not be built. No
session keeps anything for its next build but the style, so each turn of a worker gives what a
session that has built nothing gives for its file (`freshBuild`), and the results of a run, which
are read by the places of the files, do not tell who built which file and when.
-/
namespace ScriptTree

/-- What a session that has built nothing yet gives for a file. -/
def freshBuild (parser : Parser) (d : Disk) (style : CatchStyle) (p : Path) :
    Except FileError Program :=
  ((BuildSession.start style).buildFile parser d p).1

section

variable (parser : Parser) (d : Disk)

namespace BuildSession

theorem buildFile_style (s : BuildSession) (p : Path) :
    (s.buildFile parser d p).2.style = s.style := by
  unfold buildFile
  cases d.readSource p with
  | error cause => rfl
  | ok text => exact s.build_style _ _

/-- Whatever a session has built before, it gives what a new one gives. -/
theorem buildFile_eq_fresh (s : BuildSession) (p : Path) :
    (s.buildFile parser d p).1 = freshBuild parser d s.style p := by
  unfold freshBuild buildFile
  cases d.readSource p with
  | error cause => rfl
  | ok text =>
    show (s.build _ _).1.mapError _ = ((start s.style).build _ _).1.mapError _
    rw [build_eq_start]

end BuildSession

/-! ## Turns of workers -/

namespace Workshop

variable {count : Nat} (style : CatchStyle) (file : Fin count → Path)

/-- Workers who have been at some places: their sessions have kept the style, and at those places,
and only there, are the results of new sessions. -/
structure Has (done : List (Fin count)) (w : Workshop count) : Prop where
  styled : ∀ worker, (w.session worker).style = style
  result : ∀ place, w.result place =
    if place ∈ done then some (freshBuild parser d style (file place)) else none

theorem has_start : Has parser d style file [] (start style) :=
  ⟨fun _ => rfl, fun _ => rfl⟩

variable {parser d style file}

theorem take_session (w : Workshop count) (turn : Turn count) (worker : Nat) :
    (w.take parser d file turn).session worker =
      if worker = turn.worker then
        ((w.session turn.worker).buildFile parser d (file turn.place)).2
      else w.session worker :=
  rfl

theorem take_result (w : Workshop count) (turn : Turn count) (place : Fin count) :
    (w.take parser d file turn).result place =
      if place = turn.place then
        some ((w.session turn.worker).buildFile parser d (file turn.place)).1
      else w.result place :=
  rfl

/-- A turn adds its place. -/
theorem Has.take {done : List (Fin count)} {w : Workshop count}
    (h : Has parser d style file done w) (turn : Turn count) :
    Has parser d style file (done ++ [turn.place]) (w.take parser d file turn) := by
  constructor
  · intro worker
    rw [take_session]
    by_cases same : worker = turn.worker
    · rw [if_pos same, BuildSession.buildFile_style, h.styled]
    · rw [if_neg same, h.styled]
  · intro place
    rw [take_result]
    by_cases same : place = turn.place
    · rw [if_pos same, BuildSession.buildFile_eq_fresh, h.styled, same, if_pos (by simp)]
    · rw [if_neg same, h.result]
      simp [same]

/-- All turns add their places, in whatever order they come. -/
theorem Has.foldl {done : List (Fin count)} {w : Workshop count}
    (h : Has parser d style file done w) (turns : List (Turn count)) :
    Has parser d style file (done ++ turns.map Turn.place)
      (turns.foldl (Workshop.take parser d file) w) := by
  induction turns generalizing done w with
  | nil => simpa using h
  | cons turn turns ih => simpa using ih (h.take turn)

/-- Workers who have been everywhere have the results of new sessions in the order of the files. -/
theorem Has.results_eq {done : List (Fin count)} {w : Workshop count}
    (h : Has parser d style file done w) (all : ∀ place, place ∈ done) :
    w.results = (List.finRange count).map fun place => freshBuild parser d style (file place) := by
  rw [results, ← List.filterMap_eq_map]
  refine List.filterMap_congr fun place _ => ?_
  rw [h.result, if_pos (all place)]
  rfl

end Workshop

/-- However files are shared, the results are those of a new session for each file. -/
theorem Sharing.build_eq_map {files : List Path} (share : Sharing files.length)
    (style : CatchStyle) :
    share.build parser d style = files.map (freshBuild parser d style) := by
  have all (place : Fin files.length) : place ∈ [] ++ share.turns.map Turn.place :=
    share.once.mem_iff.2 (List.mem_finRange place)
  have has := (Workshop.has_start parser d style files.get).foldl share.turns
  calc
    share.build parser d style
      = (List.finRange files.length).map (freshBuild parser d style ∘ files.get) :=
        has.results_eq all
    _ = files.map (freshBuild parser d style) := by
        rw [← List.map_map, List.map_get_finRange]

end

/-! ## Counting results -/

namespace Command.Tally

/-- The programs of results, in order. -/
def programs (results : List (Except FileError Program)) : List Program :=
  results.filterMap Except.toOption

/-- The errors of results, in order. -/
def errors (results : List (Except FileError Program)) : List FileError :=
  results.filterMap fun
    | .ok _ => none
    | .error e => some e

theorem programs_append (results more : List (Except FileError Program)) :
    programs (results ++ more) = programs results ++ programs more :=
  List.filterMap_append

theorem errors_append (results more : List (Except FileError Program)) :
    errors (results ++ more) = errors results ++ errors more :=
  List.filterMap_append

theorem programs_ok (program : Program) : programs [.ok program] = [program] := rfl

theorem programs_error (e : FileError) : programs [.error e] = [] := rfl

theorem errors_ok (program : Program) : errors [.ok program] = [] := rfl

theorem errors_error (e : FileError) : errors [.error e] = [e] := rfl

/-- What a tally of results says: how many files were built, how many failed and how many nodes
were made, all programs as they are written, and a line about each error. -/
structure Accounts (writer report : Report) (files : Nat)
    (results : List (Except FileError Program)) (t : Tally) : Prop where
  files : t.summary.files = files
  built : t.summary.built = results.countP Except.isOk
  failed : t.summary.failed = results.countP fun result => !result.isOk
  nodes : t.summary.nodes = ((programs results).map Program.nodeCount).sum
  output : t.output =
    String.join ((programs results).map fun program => writer.object program.toJson)
  failures : t.failures =
    String.join ((errors results).map fun e => report.error (chain e.messages))

variable {writer report : Report} {files : Nat}

theorem accounts_start (writer report : Report) (files : Nat) :
    Accounts writer report files [] (start files) :=
  ⟨rfl, rfl, rfl, rfl, rfl, rfl⟩

/-- A result that is counted is accounted for. -/
theorem Accounts.count {done : List (Except FileError Program)} {t : Tally}
    (h : Accounts writer report files done t) (result : Except FileError Program) :
    Accounts writer report files (done ++ [result]) (t.count writer report result) := by
  obtain ⟨files, built, failed, nodes, output, failures⟩ := h
  cases result with
  | ok program =>
    constructor <;>
      simp [Tally.count, programs_append, errors_append, programs_ok, errors_ok, Except.isOk,
        Except.toBool, String.join_cons, *]
  | error e =>
    constructor <;>
      simp [Tally.count, programs_append, errors_append, programs_error, errors_error, Except.isOk,
        Except.toBool, String.join_cons, *]

theorem Accounts.foldl {done : List (Except FileError Program)} {t : Tally}
    (h : Accounts writer report files done t) (results : List (Except FileError Program)) :
    Accounts writer report files (done ++ results)
      (results.foldl (Tally.count writer report) t) := by
  induction results generalizing done t with
  | nil => simpa using h
  | cons result results ih => simpa using ih (h.count result)

/-- A tally accounts for all results. -/
theorem accounts_ofResults (writer report : Report) (files : Nat)
    (results : List (Except FileError Program)) :
    Accounts writer report files results (ofResults writer report files results) :=
  (accounts_start writer report files).foldl results

/-- Every result is that of a file that was built or of one that failed. -/
theorem Accounts.built_add_failed {results : List (Except FileError Program)} {t : Tally}
    (h : Accounts writer report files results t) :
    t.summary.built + t.summary.failed = results.length := by
  rw [h.built, h.failed, List.length_eq_countP_add_countP Except.isOk]
  simp

end Command.Tally

/-! ## Whole parses -/

/-- Collected files are in the order of their paths, each once. -/
theorem Disk.collect_increasing {d : Disk} {paths files : List Path}
    (h : d.collect paths = .ok files) : files.Pairwise fun p q => p.compare q = .lt := by
  obtain ⟨found, -, sorted⟩ := bind_eq_ok.1 h
  rw [← Except.ok.inj sorted]
  exact Path.sortedSet_increasing found.flatten

namespace Command

theorem parseRequest_increasing {d : Disk} {o : ParseOptions} {style : CatchStyle}
    {files : List Path} (h : parseRequest d o = .ok (style, files)) :
    files.Pairwise fun p q => p.compare q = .lt := by
  obtain ⟨config, -, h⟩ := bind_eq_ok.1 h
  obtain ⟨style, -, h⟩ := bind_eq_ok.1 h
  obtain ⟨-, -, h⟩ := bind_eq_ok.1 h
  obtain ⟨files, found, h⟩ := bind_eq_ok.1 h
  cases h
  exact Disk.collect_increasing (mapError_eq_ok.1 (mapError_eq_ok.1 found))

/-- A parse does not tell how its files were shared. -/
theorem runParse_congr (scheduler scheduler' : Scheduler) (env : Environment) (d : Disk)
    (report : Report) (common : CommonOptions) (o : ParseOptions) :
    runParse scheduler env d report common o = runParse scheduler' env d report common o := by
  unfold runParse
  simp only [Sharing.build_eq_map]

/-- Nor does a whole command line. -/
theorem runShared_eq_run (scheduler : Scheduler) (env : Environment) (d : Disk)
    (words : List (List Char)) : runShared scheduler env d words = run env d words := by
  unfold run runShared
  simp only [runParse_congr scheduler Scheduler.inOrder]

/-! ## What is left behind -/

/-- Without a target the text is put out, and the disk is as it was. -/
theorem deliver_none (d : Disk) (text : String) : deliver d none text = .ok (d, text) := rfl

/-- With a target that can be written, nothing is put out, and the text is on the disk. -/
theorem deliver_of_write {d disk : Disk} {p : Path} {text : String}
    (h : d.write p (Utf8.encode text.toList) = .ok disk) :
    deliver d (some p) text = .ok (disk, "") := by
  rw [deliver, h]

theorem deliver_of_not_write {d : Disk} {p : Path} {text : String} {cause : DiskError}
    (h : d.write p (Utf8.encode text.toList) = .error cause) :
    deliver d (some p) text = .error ["Failed to open output", cause.message] := by
  rw [deliver, h]

/-- A disk after a text has been put into the file of a path: the file holds the text in UTF-8, and
all other files hold what they held. -/
structure HasStored (d : Disk) (p : Path) (text : String) (disk : Disk) : Prop where
  text : disk.read p = .ok (Utf8.encode text.toList)
  others : ∀ q kept, d.read q = .ok kept → d.locate q ≠ disk.locate p → disk.read q = .ok kept

theorem hasStored_of_write {d disk : Disk} {p : Path} {text : String}
    (h : d.write p (Utf8.encode text.toList) = .ok disk) : HasStored d p text disk :=
  ⟨(Disk.read_of_write h).1, fun _ _ read other => Disk.read_of_write_other h read other⟩

/-- A parse counts what new sessions give for its files, and delivers the text of the programs. -/
theorem runParse_of_request (scheduler : Scheduler) (env : Environment) {d : Disk}
    (report : Report) (common : CommonOptions) {o : ParseOptions} {style : CatchStyle}
    {files : List Path} (request : parseRequest d o = .ok (style, files)) :
    let tally := Tally.ofResults (o.writer env.colored) report files.length
      (files.map (freshBuild env.parser d style))
    runParse scheduler env d report common o =
      (deliver d o.output tally.output).map fun (disk, output) =>
        { code := if tally.summary.failed = 0 then 0 else 1
          output, disk, written := o.output
          messages := tally.failures ++
            if common.isTalkative then tally.verdict report env.elapsed else "" } := by
  rw [runParse, request]
  show (deliver d o.output _ >>= _) = _
  rw [Sharing.build_eq_map]
  cases deliver d o.output _ <;> rfl

/-- A parse whose files are shared among workers in any way is the parse in which one worker builds
them in order. If there is a request, its files are in the order of their paths, each once, and the
parse is told by what a new session gives for each of them: every file is counted as built or as
failed, the programs that there are make up one text, and the parse is a success if and only if no
file has failed. That text is the output, and the disk is as it was; or, if the request names a file
for it, nothing is put out and the file holds the text, unless it cannot be written. -/
theorem shared_parse_eq_fresh (scheduler : Scheduler) (env : Environment) (d : Disk)
    (report : Report) (common : CommonOptions) (o : ParseOptions) :
    runParse scheduler env d report common o = runParse .inOrder env d report common o ∧
      match parseRequest d o with
      | .error messages => runParse scheduler env d report common o = .error messages
      | .ok (style, files) =>
        files.Pairwise (fun p q => p.compare q = .lt) ∧
          ∃ tally : Tally,
            tally.Accounts (o.writer env.colored) report files.length
              (files.map (freshBuild env.parser d style)) ∧
            tally.summary.built + tally.summary.failed = tally.summary.files ∧
            let code := if tally.summary.failed = 0 then 0 else 1
            let messages := tally.failures ++
              if common.isTalkative then tally.verdict report env.elapsed else ""
            match o.output with
            | none =>
              runParse scheduler env d report common o =
                .ok { code, messages, output := tally.output, disk := d, written := none }
            | some p =>
              match d.write p (Utf8.encode tally.output.toList) with
              | .ok disk =>
                HasStored d p tally.output disk ∧
                  runParse scheduler env d report common o =
                    .ok { code, messages, output := "", disk, written := some p }
              | .error cause =>
                runParse scheduler env d report common o =
                  .error ["Failed to open output", cause.message] := by
  refine ⟨runParse_congr scheduler .inOrder env d report common o, ?_⟩
  split
  next messages failed => rw [runParse, failed]; rfl
  next style files request =>
    have accounts := Tally.accounts_ofResults (o.writer env.colored) report files.length
      (files.map (freshBuild env.parser d style))
    refine ⟨parseRequest_increasing request, _, accounts, ?_, ?_⟩
    · rw [accounts.built_add_failed, accounts.files, List.length_map]
    · have told := runParse_of_request scheduler env report common request
      generalize Tally.ofResults _ _ _ _ = tally at told
      dsimp only at told ⊢
      rw [told]
      split
      next none => rw [none, deliver_none]; rfl
      next p some =>
        rw [some]
        split
        next disk written =>
          refine ⟨hasStored_of_write written, ?_⟩
          rw [deliver_of_write written]
          rfl
        next cause failed =>
          rw [deliver_of_not_write failed]
          rfl

end Command

end ScriptTree
