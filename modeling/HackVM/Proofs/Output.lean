import Mathlib
import HackVM.CommandLine.Run
import HackVM.Proofs.Files
import HackVM.Proofs.Paths
import HackVM.Proofs.Writing

/-!
# The output of the command

The command writes its output only after everything else has succeeded, so the output file is never wrong:
either the disk is left alone and the exit code tells so, or the output file holds the assembly text of the
program that the arguments name, and every other file is as it was.
-/

namespace HackVM

/-- Work on a disk that may fail. -/
abbrev Task (α : Type) := ExceptT Failure (StateM (Disk ByteArray)) α

namespace Disk

variable {α β : Type} {disk disk' : Disk ByteArray} {task : Task α} {P Q : α → Prop}

/-- What a task does on a disk. -/
def perform (disk : Disk ByteArray) (task : Task α) : Except Failure α × Disk ByteArray :=
  StateT.run (ExceptT.run task) disk

/-- After a task that succeeds, the next one goes on with its value. -/
lemma perform_bind_ok {value : α} (h : disk.perform task = (.ok value, disk'))
    (next : α → Task β) : disk.perform (task >>= next) = disk'.perform (next value) := by
  rw [perform] at h ⊢
  rw [ExceptT.run_bind, StateT.run_bind, h]
  rfl

/-- After a task that fails, nothing else is done. -/
lemma perform_bind_error {failure : Failure} (h : disk.perform task = (.error failure, disk'))
    (next : α → Task β) : disk.perform (task >>= next) = (.error failure, disk') := by
  rw [perform] at h ⊢
  rw [ExceptT.run_bind, StateT.run_bind, h]
  rfl

/-- An action that cannot fail succeeds with its result. -/
lemma perform_lift (disk : Disk ByteArray) (action : StateM (Disk ByteArray) α) :
    disk.perform action = (.ok (StateT.run action disk).1, (StateT.run action disk).2) := rfl

/-- Writing a file changes the disk, or leaves it alone and says why. -/
lemma perform_write (disk : Disk ByteArray) (path : RawText) (bytes : ByteArray) :
    disk.perform (FileSystem.write path bytes : StateM (Disk ByteArray) (Except FileError Unit)) =
      match disk.write path bytes with
      | .ok disk' => (.ok (.ok ()), disk')
      | .error error => (.ok (.error error), disk) := by
  have run : StateT.run (FileSystem.write path bytes : StateM (Disk ByteArray) (Except FileError Unit))
      disk = match disk.write path bytes with
        | .ok disk' => (.ok (), disk')
        | .error error => (.error error, disk) := by
    simp only [FileSystem.write, StateT.run_bind, StateT.run_get, pure_bind]
    cases disk.write path bytes <;> rfl
  rw [perform_lift, run]
  cases disk.write path bytes <;> rfl

/-- The task leaves the disk alone, and succeeds with a value exactly when a condition says so. -/
def Settles (disk : Disk ByteArray) (task : Task α) (P : α → Prop) : Prop :=
  ∃ result, disk.perform task = (result, disk) ∧ ∀ value, result = .ok value ↔ P value

/-- A task that does nothing settles on its value. -/
lemma settles_pure (value : α) : disk.Settles (pure value) (value = ·) :=
  ⟨.ok value, rfl, fun _ => ⟨Except.ok.inj, congrArg _⟩⟩

/-- A task that only fails settles on nothing. -/
lemma settles_throw (failure : Failure) : disk.Settles (throw failure : Task α) fun _ => False :=
  ⟨.error failure, rfl, fun _ => ⟨nofun, False.elim⟩⟩

/-- A condition may be replaced by an equivalent one. -/
lemma Settles.congr (h : disk.Settles task P) (same : ∀ value, P value ↔ Q value) :
    disk.Settles task Q := by
  obtain ⟨result, performed, success⟩ := h
  exact ⟨result, performed, fun value => (success value).trans (same value)⟩

/-- Tasks that leave the disk alone one after the other settle on what the last one does. -/
lemma Settles.bind {next : α → Task β} {R : α → β → Prop} (h : disk.Settles task P)
    (h' : ∀ value, P value → disk.Settles (next value) (R value)) :
    disk.Settles (task >>= next) fun result => ∃ value, P value ∧ R value result := by
  obtain ⟨result, performed, success⟩ := h
  cases result with
  | error failure =>
    refine ⟨.error failure, perform_bind_error performed next, fun value => ⟨nofun, ?_⟩⟩
    rintro ⟨value, hv, -⟩
    cases (success value).mpr hv
  | ok value =>
    have hv := (success value).mp rfl
    obtain ⟨result, performed', success'⟩ := h' value hv
    refine ⟨result, (perform_bind_ok performed next).trans performed', fun final => ?_⟩
    rw [success']
    constructor
    · exact fun hr => ⟨value, hv, hr⟩
    · rintro ⟨other, ho, hr⟩
      cases (success other).mpr ho
      exact hr

/-- A task for each of several items settles on the list of the results. -/
lemma Settles.mapM {f : α → Task β} {R : α → β → Prop} (h : ∀ item, disk.Settles (f item) (R item))
    (items : List α) : disk.Settles (items.mapM f) (List.Forall₂ R items) := by
  induction items with
  | nil =>
    rw [List.mapM_nil]
    exact (settles_pure []).congr fun values => by rw [List.forall₂_nil_left_iff, eq_comm]
  | cons item rest ih =>
    rw [List.mapM_cons]
    have whole := (h item).bind fun value _ => ih.bind fun values _ => settles_pure (value :: values)
    refine whole.congr fun results => ?_
    rw [List.forall₂_cons_left_iff]
    constructor
    · rintro ⟨value, hv, values, hs, rfl⟩
      exact ⟨value, values, hv, hs, rfl⟩
    · rintro ⟨value, values, hv, hs, rfl⟩
      exact ⟨value, hv, values, hs, rfl⟩

/-- The file at a path holds the text of a unit, which is named by the stem of the file name. -/
def HoldsUnit (disk : Disk ByteArray) (path : RawText) (unit : SourceUnit) : Prop :=
  ∃ name bytes text, Path.NamesUnit path name ∧ disk.read path = .ok bytes ∧
    String.fromUTF8? bytes = some text ∧ SourceUnit.read name text = .ok unit

end Disk

namespace Invocation

/-- Everything that comes before the output is written has succeeded: the arguments stand for files, which
hold the units of a program, which is compiled. -/
structure Prepares (invocation : Invocation) (disk : Disk ByteArray) (paths : List RawText)
    (program : Program) (compiled : Compiled) : Prop where
  gathered : Sources.gather (invocation.inputs.map fun path => (path, disk.look path)) = .ok paths
  nonempty : paths ≠ []
  units : List.Forall₂ disk.HoldsUnit paths program
  compiles : Program.compile ⟨invocation.entryPoint, defaultStackBase, invocation.inlineLocals⟩ program =
    .ok compiled

/-- Reading a source settles on the unit that the file holds. -/
lemma settles_readSource (disk : Disk ByteArray) (path : RawText) :
    disk.Settles (readSource path) (disk.HoldsUnit path) := by
  rw [readSource]
  cases named : Path.unitName? path with
  | none =>
    refine ⟨.error (.unnamed path), rfl, fun unit => ⟨nofun, ?_⟩⟩
    rintro ⟨name, bytes, text, h, -⟩
    rw [← Path.unitName?_eq_some_iff, named] at h
    cases h
  | some name =>
    have read : disk.Settles (FileSystem.read path : StateM (Disk ByteArray) (Except FileError ByteArray))
        (disk.read path = ·) := Disk.settles_pure (disk.read path)
    refine (read.bind (R := fun found unit => ∃ bytes text, found = .ok bytes ∧
      String.fromUTF8? bytes = some text ∧ SourceUnit.read name text = .ok unit) ?_).congr ?_
    · rintro found -
      cases found with
      | error error => exact (Disk.settles_throw _).congr (by simp)
      | ok bytes =>
        cases decoded : String.fromUTF8? bytes with
        | none =>
          simp only [decoded]
          exact (Disk.settles_throw _).congr (by simp [decoded])
        | some text =>
          simp only [decoded]
          cases parsed : SourceUnit.read name text with
          | error fault => exact (Disk.settles_throw _).congr (by simp [decoded, parsed])
          | ok unit => exact (Disk.settles_pure unit).congr (by simp [decoded, parsed])
    · intro unit
      simp [Disk.HoldsUnit, ← Path.unitName?_eq_some_iff, named]

/-- Looking for sources settles on what is gathered, if that is anything. -/
lemma settles_sources (disk : Disk ByteArray) (invocation : Invocation) :
    disk.Settles invocation.sources fun paths =>
    Sources.gather (invocation.inputs.map fun path => (path, disk.look path)) = .ok paths ∧
      paths ≠ [] := by
  have looked : disk.Settles (invocation.inputs.mapM fun path => do
      return (path, ← (FileSystem.look path : StateM (Disk ByteArray) (Option (FileTree Unit)))))
      (invocation.inputs.map (fun path => (path, disk.look path)) = ·) := by
    refine (Disk.Settles.mapM (R := fun path found => (path, disk.look path) = found) ?_ _).congr ?_
    · intro path
      exact Disk.settles_pure (path, disk.look path)
    · intro found
      rw [← List.forall₂_map_left_iff (R := Eq), List.forall₂_eq_eq_eq]
  refine (looked.bind (R := fun found paths => Sources.gather found = .ok paths ∧ paths ≠ []) ?_).congr
    fun paths => by simp
  rintro found -
  cases gathered : Sources.gather found with
  | error failure => exact (Disk.settles_throw _).congr (by simp)
  | ok paths =>
    cases paths with
    | nil => exact (Disk.settles_throw _).congr (by simp)
    | cons path rest => exact (Disk.settles_pure (path :: rest)).congr (by simp)

/-- The command writes what it has prepared, and leaves the disk alone when it cannot prepare it. -/
lemma perform_run (invocation : Invocation) (disk : Disk ByteArray) :
    (∃ paths program compiled, invocation.Prepares disk paths program compiled ∧
      disk.perform invocation.run =
        match disk.write invocation.output compiled.code.bytes with
        | .ok disk' => (.ok compiled.stats, disk')
        | .error error => (.error (.files error), disk)) ∨
    (∀ paths program compiled, ¬ invocation.Prepares disk paths program compiled) ∧
      ∃ failure, disk.perform invocation.run = (.error failure, disk) := by
  obtain ⟨result, performed, success⟩ := (settles_sources disk invocation).bind fun paths _ =>
    Disk.Settles.mapM (settles_readSource disk) paths
  have only {paths program compiled} (prepares : invocation.Prepares disk paths program compiled) :
      result = .ok program :=
    (success program).mpr ⟨paths, ⟨prepares.gathered, prepares.nonempty⟩, prepares.units⟩
  rw [run, ← bind_assoc]
  cases result with
  | error failure =>
    right
    refine ⟨fun paths program compiled prepares => ?_, failure, Disk.perform_bind_error performed _⟩
    cases only prepares
  | ok program =>
    obtain ⟨paths, ⟨gathered, nonempty⟩, units⟩ := (success program).mp rfl
    rw [Disk.perform_bind_ok performed]
    cases compiles : Program.compile invocation.settings program with
    | error fault =>
      right
      refine ⟨fun paths' program' compiled prepares => ?_, .program fault, rfl⟩
      cases only prepares
      cases compiles.symm.trans prepares.compiles
    | ok compiled =>
      left
      refine ⟨paths, program, compiled, ⟨gathered, nonempty, units, compiles⟩, ?_⟩
      have written := Disk.perform_write disk invocation.output compiled.code.bytes
      cases h : disk.write invocation.output compiled.code.bytes with
      | ok disk' =>
        rw [h] at written
        exact Disk.perform_bind_ok written _
      | error error =>
        rw [h] at written
        exact Disk.perform_bind_ok written _

end Invocation

namespace CommandLine

variable {Argument : Type} {read : List Argument → Except Outcome Invocation} {arguments : List Argument}
  {invocation : Invocation} {disk disk' : Disk ByteArray} {outcome : Outcome}

/-- The command does what an accepted list of arguments asks for, and ends with 0 if that succeeds. -/
lemma run_of_read_eq_ok (h : read arguments = .ok invocation) (disk : Disk ByteArray) :
    StateT.run (run read arguments : StateM (Disk ByteArray) Outcome) disk =
      match disk.perform invocation.run with
      | (.ok stats, disk') => (⟨0, if invocation.stats then stats.text else "", none⟩, disk')
      | (.error failure, disk') => (⟨1, "", some ("Error: " ++ failure.written)⟩, disk') := by
  rw [run, h, StateT.run_bind]
  rcases performed : disk.perform invocation.run with ⟨result, disk'⟩
  rw [Disk.perform] at performed
  rw [performed]
  cases result <;> rfl

/-- The output of the command is never wrong, however its arguments are read: if it cannot prepare the output,
it ends with 1 and leaves the disk alone; if it ends with 0, the output file holds the text of the compiled
program and every other file is as it was. It does end with 0 if all is prepared and the output can be
written. -/
theorem run_output_right (h : read arguments = .ok invocation)
    (ran : StateT.run (run read arguments : StateM (Disk ByteArray) Outcome) disk = (outcome, disk')) :
    ((∀ paths program compiled, ¬ invocation.Prepares disk paths program compiled) →
      outcome.exitCode = 1 ∧ disk' = disk) ∧
    (outcome.exitCode = 0 → ∃ paths program compiled,
      invocation.Prepares disk paths program compiled ∧
      disk.Wrote invocation.output compiled.code.text.toUTF8 disk' ∧
      outcome.output = if invocation.stats then compiled.stats.text else "") ∧
    ∀ paths program compiled names, invocation.Prepares disk paths program compiled →
      disk.target invocation.output = .ok names → outcome.exitCode = 0 := by
  rw [run_of_read_eq_ok h] at ran
  rcases invocation.perform_run disk with
    ⟨paths, program, compiled, prepares, performed⟩ | ⟨unprepared, failure, performed⟩
  · have unfailing : (∀ paths program compiled, ¬ invocation.Prepares disk paths program compiled) →
        outcome.exitCode = 1 ∧ disk' = disk :=
      fun unprepared => absurd prepares (unprepared paths program compiled)
    rw [performed, compiled.code.bytes_eq] at ran
    cases written : disk.write invocation.output compiled.code.text.toUTF8 with
    | ok disk'' =>
      rw [written] at ran
      cases ran
      refine ⟨unfailing, fun _ => ?_, fun _ _ _ _ _ _ => rfl⟩
      exact ⟨paths, program, compiled, prepares, .of_write written, rfl⟩
    | error error =>
      rw [written] at ran
      cases ran
      refine ⟨unfailing, fun code => absurd code (by simp), ?_⟩
      intro paths program compiled names prepares target
      rw [Disk.write, target] at written
      cases written
  · rw [performed] at ran
    cases ran
    refine ⟨fun _ => ⟨rfl, rfl⟩, fun code => absurd code (by simp), ?_⟩
    intro paths program compiled names prepares
    exact absurd prepares (unprepared paths program compiled)

/-- A disk with a source, a file that is none, a source whose stem is no text, and the output of an earlier
run. -/
def bench : Disk ByteArray where
  tree := .folder
    [(Text.encode "src", .folder
      [(Text.encode "Main.vm",
          .file "function Main.run 0\npush static 3\ncall Main.run 1\nreturn\n".toUTF8),
        (Text.encode "notes.txt", .file "push\n".toUTF8), (0xFF :: Text.encode ".vm", .file .empty)]),
      (Text.encode "out.asm", .file "@0\n".toUTF8)]
  home := [Text.encode "src"]

/-- Arguments that are inputs all, of a program that starts at `Main.run`. -/
def onlyInputs (arguments : List RawText) : Except Outcome Invocation :=
  .ok ⟨arguments, Text.encode "../out.asm", "Main.run", 2, true⟩

/-- The source on the bench is compiled and written over the output of the earlier run. -/
theorem bench_output_right :
    ∃ outcome disk' paths program compiled,
      StateT.run (run onlyInputs [Text.encode "Main.vm"] : StateM (Disk ByteArray) Outcome) bench =
        (outcome, disk') ∧ outcome.exitCode = 0 ∧
      Invocation.Prepares ⟨[Text.encode "Main.vm"], Text.encode "../out.asm", "Main.run", 2, true⟩ bench
        paths program compiled ∧
      bench.Wrote (Text.encode "../out.asm") compiled.code.text.toUTF8 disk' ∧
      outcome.output = compiled.stats.text := by
  have code : (StateT.run (run onlyInputs [Text.encode "Main.vm"] : StateM (Disk ByteArray) Outcome)
      bench).1.exitCode = 0 := by
    decide +kernel
  have asked : onlyInputs [Text.encode "Main.vm"] =
      .ok ⟨[Text.encode "Main.vm"], Text.encode "../out.asm", "Main.run", 2, true⟩ := rfl
  rcases ran : StateT.run (run onlyInputs [Text.encode "Main.vm"] : StateM (Disk ByteArray) Outcome)
    bench with ⟨outcome, disk'⟩
  rw [ran] at code
  obtain ⟨paths, program, compiled, prepares, wrote, output⟩ := (run_output_right asked ran).2.1 code
  exact ⟨outcome, disk', paths, program, compiled, rfl, code, prepares, wrote, output⟩

-- A source whose stem is no text has no name for its unit.
example : (StateT.run (run onlyInputs [0xFF :: Text.encode ".vm"] : StateM (Disk ByteArray) Outcome)
    bench).1 = ⟨1, "", some "Error: \"cannot derive a unit name from �.vm\""⟩ := by
  decide +kernel

end CommandLine

end HackVM
