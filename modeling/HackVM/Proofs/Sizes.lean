import Mathlib
import HackVM.Proofs.Functions

/-!
# Sizes

How many instructions a command takes depends on the command alone, not on where it stands, so the size
of a function is the sum over its commands and the size of a program is the sum over its functions.
`Program.measured` reads the sizes of the functions off the code of the program, and
`Program.functionSizes` off its commands; for an acceptable program the two agree.
-/

namespace HackVM

namespace Command

/-- The number of instructions that a command takes. The numbers 0 and 1 need not be loaded. -/
def size (inlineMax : UInt16) : Command → Nat
  | .push .constant index => if index ≤ 1 then 4 else 6
  | .push .pointer _ | .push .temp _ | .push .statics _ => 6
  | .push .locals index | .push .arguments index | .push .this index | .push .that index =>
    if index ≤ 1 then 7 else 9
  | .pop .pointer _ | .pop .temp _ | .pop .statics _ => 5
  | .pop _ index => if index ≤ 1 then 7 else 9
  | .operate (.compare _) => 4
  | .operate .neg | .operate .not => 3
  | .operate _ => 5
  | .label _ => 0
  | .goto _ | .ret => 2
  | .ifGoto _ => 5
  | .function _ locals => if locals ≤ inlineMax then 4 * locals.toNat else 9
  | .call _ arguments => if arguments ≤ 1 then 10 else 12

/-- The number of instructions that commands take together. -/
def totalSize (inlineMax : UInt16) (commands : List Command) : Nat :=
  (commands.map (size inlineMax)).sum

/-- The functions that commands define, each with its size: that of its start and of its body. -/
def functionSizes (inlineMax : UInt16) : List Command → List (String × Nat)
  | [] => []
  | .function name locals :: rest =>
    (name, (Command.function name locals).size inlineMax + totalSize inlineMax (body rest)) ::
      functionSizes inlineMax rest
  | _ :: rest => functionSizes inlineMax rest

variable {inlineMax : UInt16}

lemma totalSize_cons (command : Command) (rest : List Command) :
    totalSize inlineMax (command :: rest) = command.size inlineMax + totalSize inlineMax rest :=
  rfl

lemma functionSizes_cons_of_not {command : Command} (h : command.isFunction = false)
    (rest : List Command) :
    functionSizes inlineMax (command :: rest) = functionSizes inlineMax rest := by
  cases command with
  | function => cases h
  | _ => rfl

/-- Commands take what those in front of the first function take and what the functions take. -/
lemma totalSize_eq (inlineMax : UInt16) (commands : List Command) :
    totalSize inlineMax commands =
      totalSize inlineMax (body commands) +
        ((functionSizes inlineMax commands).map Prod.snd).sum := by
  induction commands with
  | nil => rfl
  | cons command rest ih =>
    cases h : command.isFunction with
    | true =>
      cases command with
      | function name locals =>
        rw [totalSize_cons, ih, body_function, functionSizes, List.map_cons, List.sum_cons]
        simp [totalSize, Nat.add_assoc]
      | _ => cases h
    | false =>
      rw [totalSize_cons, ih, body_cons_of_not h, totalSize_cons, functionSizes_cons_of_not h,
        Nat.add_assoc]

end Command

namespace Code

/-- Code for a number that is the same in size for 0 and for 1. -/
lemma size_of_number {number : UInt16} {zero one other : Code} (same : zero.size = one.size) :
    size (if number = 0 then zero else if number = 1 then one else other) =
      if number ≤ 1 then one.size else other.size := by
  have small : number ≤ 1 ↔ number = 0 ∨ number = 1 := by
    rw [UInt16.le_iff_toNat_le, ← UInt16.toNat_inj, ← UInt16.toNat_inj]
    exact Nat.le_one_iff_eq_zero_or_eq_one
  by_cases is_zero : number = 0
  · rw [if_pos is_zero, if_pos (small.mpr (.inl is_zero)), same]
  · by_cases is_one : number = 1
    · rw [if_neg is_zero, if_pos is_one, if_pos (small.mpr (.inr is_one))]
    · rw [if_neg is_zero, if_neg is_one, if_neg (by simp [small, is_zero, is_one])]

lemma size_replicate_pushComp (comp : Comp) (count : Nat) :
    size (List.replicate count (pushComp comp)).flatten = 4 * count := by
  induction count with
  | zero => rfl
  | succ count ih =>
    rw [List.replicate_succ, List.flatten_cons, size_append, ih, Nat.mul_succ, Nat.add_comm]
    rfl

lemma size_callSequence (target : String) (arguments : UInt16) (returnLabel : String) :
    (callSequence target arguments returnLabel).size = if arguments ≤ 1 then 10 else 12 := by
  simp only [callSequence, loadArgumentCount, size_append]
  rw [size_of_number]
  · split_ifs <;> rfl
  · rfl

end Code

namespace Location

lemma size_pushCode_immediate (value : UInt16) :
    (Location.immediate value).pushCode.size = if value ≤ 1 then 4 else 6 := by
  rw [pushCode, Code.size_of_number]
  · rfl
  · rfl

lemma size_pushCode_indirect (base : Register) (offset : UInt16) :
    (Location.indirect base offset).pushCode.size = if offset ≤ 1 then 7 else 9 := by
  rw [pushCode, Code.size_append, Code.size_append, Code.size_of_number]
  · split_ifs <;> rfl
  · rfl

lemma size_popCode_indirect {base : Register} {offset : UInt16} {code : Code}
    (place : (Location.indirect base offset).popCode? = some code) :
    code.size = if offset ≤ 1 then 7 else 9 := by
  cases place
  rw [Code.size_append, addressCode, Code.size_of_number]
  · split_ifs <;> rfl
  · rfl

end Location

lemma Scope.size_prologue (scope : Scope) (name : String) (locals inlineMax : UInt16) :
    (scope.prologue locals inlineMax).size = (Command.function name locals).size inlineMax := by
  rw [prologue, Command.size]
  split_ifs
  · exact Code.size_replicate_pushComp _ _
  · rfl

namespace Line

variable {functions : List (String × String)} {inlineMax : UInt16} {returns : Nat} {scope : Scope}
  {command : Command} {code : Code}

/-- The code of a line has the size of its command. -/
lemma Lowers.size_eq (h : Lowers functions inlineMax returns scope command code) :
    code.size = command.size inlineMax := by
  cases h with
  | @push segment index location resolved =>
    have fits := (Segment.resolve_isOk_iff segment scope.unit).mp ⟨location, resolved⟩
    rw [Segment.resolve.eq_def, if_neg (UInt16.not_lt.mpr fits)] at resolved
    cases segment with
    | constant =>
      cases resolved
      exact Location.size_pushCode_immediate index
    | locals | arguments | this | that =>
      cases resolved
      exact Location.size_pushCode_indirect _ index
    | _ =>
      cases resolved
      rfl
  | @pop segment index location _ resolved place =>
    have fits := (Segment.resolve_isOk_iff segment scope.unit).mp ⟨location, resolved⟩
    rw [Segment.resolve.eq_def, if_neg (UInt16.not_lt.mpr fits)] at resolved
    cases segment with
    | constant =>
      cases resolved
      cases place
    | locals | arguments | this | that =>
      cases resolved
      exact Location.size_popCode_indirect place
    | _ =>
      cases resolved
      cases place
      rfl
  | operate operation => cases operation <;> rfl
  | function =>
    rw [Code.size_cons_label]
    exact Scope.size_prologue _ _ _ _
  | call => exact Code.size_callSequence _ _ _
  | _ => rfl

/-- The code of lines has the size of their commands. -/
lemma size_codeOf {lines : List Line}
    (wf : ∀ line ∈ lines, line.command.WellFormed (functions.map Prod.fst)) :
    (codeOf functions inlineMax returns lines).size =
      Command.totalSize inlineMax (lines.map Line.command) := by
  induction lines generalizing returns with
  | nil => rfl
  | cons line rest ih =>
    have lowers : Lowers functions inlineMax returns line.scope line.command _ :=
      lowers_code (wf line List.mem_cons_self)
    rw [codeOf, Code.size_append, lowers.size_eq, ih fun line hl => wf line (.tail _ hl),
      List.map_cons, Command.totalSize_cons]

end Line

namespace SourceUnit

variable {unit current : String}

lemma map_command_linesFrom (unit current : String) (commands : List Command) :
    (linesFrom unit current commands).map Line.command = commands := by
  induction commands generalizing current with
  | nil => rfl
  | cons command rest ih => exact congrArg _ (ih _)

/-- Behind the start of a function the lines of a unit go on in that function. -/
lemma linesFrom_append_function (unit current : String) (before : List Command) (name : String)
    (locals : UInt16) (rest : List Command) :
    linesFrom unit current (before ++ .function name locals :: rest) =
      linesFrom unit current before ++
        ⟨⟨unit, name⟩, .function name locals⟩ :: linesFrom unit name rest := by
  induction before generalizing current with
  | nil => rfl
  | cons command before ih => exact congrArg _ (ih _)

/-- The lines up to the next start of a function have the commands up to it. -/
lemma takeWhile_linesFrom (unit current : String) (commands : List Command) {later : List Line}
    (next : ∀ line ∈ later.head?, line.command.isFunction = true) :
    ((linesFrom unit current commands ++ later).takeWhile
      fun line => !line.command.isFunction).map Line.command = Command.body commands := by
  induction commands generalizing current with
  | nil =>
    cases later with
    | nil => rfl
    | cons line later =>
      rw [linesFrom, List.nil_append, List.takeWhile_cons_of_neg (by simp [next line rfl])]
      rfl
  | cons command rest ih =>
    rw [linesFrom, List.cons_append, Command.body]
    cases h : command.isFunction with
    | true =>
      rw [List.takeWhile_cons_of_neg (by simp [h]), List.takeWhile_cons_of_neg (by simp [h])]
      rfl
    | false =>
      rw [List.takeWhile_cons_of_pos (by simp [h]), List.takeWhile_cons_of_pos (by simp [h]),
        List.map_cons, ih]
      rfl

end SourceUnit

namespace Program

variable {settings : Settings} {program : Program}

/-- The commands of a program in order. -/
def commands (program : Program) : List Command :=
  program.flatMap SourceUnit.commands

/-- The functions of a program in order, each with its size, from the commands of the program. -/
def functionSizes (inlineMax : UInt16) (program : Program) : List (String × Nat) :=
  program.flatMap fun unit => Command.functionSizes inlineMax unit.commands

/-- The functions of a program in order, each with the number of instructions in code between its entry
label and the next entry label or the end. -/
def measured (program : Program) (code : Code) : List (String × Nat) :=
  program.definitions.map fun (name, unit) =>
    (name, (program.functionCode ⟨unit, name⟩ code).size)

lemma map_command_lines (program : Program) : program.lines.map Line.command = program.commands := by
  rw [lines, List.map_flatMap, commands]
  exact List.flatMap_congr fun unit _ => SourceUnit.map_command_linesFrom _ _ _

/-- Units that start with a function take what their functions take. -/
lemma totalSize_commands (inlineMax : UInt16)
    (starts : ∀ unit ∈ program, ∀ command ∈ unit.commands.head?, command.isFunction = true) :
    Command.totalSize inlineMax program.commands =
      ((program.functionSizes inlineMax).map Prod.snd).sum := by
  induction program with
  | nil => rfl
  | cons unit rest ih =>
    have own := Command.totalSize_eq inlineMax unit.commands
    rw [Command.body_eq_nil (starts unit List.mem_cons_self)] at own
    have ih := ih fun unit hu => starts unit (.tail _ hu)
    calc Command.totalSize inlineMax (commands (unit :: rest))
        = Command.totalSize inlineMax unit.commands +
            Command.totalSize inlineMax (commands rest) := by
          simp [Command.totalSize, commands]
      _ = ((Command.functionSizes inlineMax unit.commands).map Prod.snd).sum +
            ((functionSizes inlineMax rest).map Prod.snd).sum := by
          rw [own, ih, Command.totalSize, List.map_nil, List.sum_nil, Nat.zero_add]
      _ = ((functionSizes inlineMax (unit :: rest)).map Prod.snd).sum := by
          simp [functionSizes]

namespace Accepted

variable (accepted : program.Accepted settings)

include accepted

/-- The code of a function has the size of its start and of the lines up to the next start. -/
lemma size_functionCode {scope : Scope} {locals : UInt16} {front behind : List Line}
    (e : program.lines = front ++ ⟨scope, .function scope.function locals⟩ :: behind) :
    (program.functionCode scope (program.assembly settings)).size =
      (Command.function scope.function locals).size settings.inlineLocals +
        Command.totalSize settings.inlineLocals
          ((behind.takeWhile fun line => !line.command.isFunction).map Line.command) := by
  have divides := accepted.divides_of_split e
  rw [divides.functionCode_eq accepted, Code.size_append, Scope.size_prologue,
    Line.size_codeOf fun line hl => (accepted.line_legal (divides.body_subset hl)).2.2]

/-- The functions of one unit have the sizes that their commands say. -/
lemma measured_unit {before behind : Program} {unit : SourceUnit}
    (e : program = before ++ unit :: behind) {front rest : List Command}
    (split : unit.commands = front ++ rest) :
    (rest.filterMap Command.defines?).map (fun name =>
        (name, (program.functionCode ⟨unit.name, name⟩ (program.assembly settings)).size)) =
      Command.functionSizes settings.inlineLocals rest := by
  have next : ∀ line ∈ (lines behind).head?, line.command.isFunction = true :=
    head_lines fun unit hu => accepted.starts unit (by simp [e, hu])
  induction rest generalizing front with
  | nil => rfl
  | cons command rest ih =>
    have ih := ih (show unit.commands = front ++ [command] ++ rest by simp [split])
    cases command with
    | function name locals =>
      have lines_eq : program.lines = (lines before ++ SourceUnit.linesFrom unit.name "" front) ++
          ⟨⟨unit.name, name⟩, .function name locals⟩ ::
            (SourceUnit.linesFrom unit.name name rest ++ lines behind) := by
        rw [e, lines, List.flatMap_append, List.flatMap_cons, split,
          SourceUnit.linesFrom_append_function]
        simp [lines]
      have own := accepted.size_functionCode lines_eq
      rw [SourceUnit.takeWhile_linesFrom _ _ _ next] at own
      rw [Command.functionSizes, ← ih, ← own]
      rfl
    | _ => exact ih

/-- The sizes of functions in the code of an acceptable program are those that its commands say. -/
lemma measured_assembly :
    program.measured (program.assembly settings) =
      program.functionSizes settings.inlineLocals := by
  rw [measured, definitions, List.map_flatMap, functionSizes]
  apply List.flatMap_congr
  intro unit hu
  obtain ⟨before, behind, e⟩ := List.append_of_mem hu
  rw [← accepted.measured_unit e (List.nil_append _).symm, List.map_map]
  rfl

/-- The code of an acceptable program is what stands in front of the first function and its functions. -/
lemma size_assembly :
    (program.assembly settings).size =
      (program.preamble settings).size +
        ((program.functionSizes settings.inlineLocals).map Prod.snd).sum := by
  have wf : ∀ line ∈ program.lines,
      line.command.WellFormed (program.definitions.map Prod.fst) :=
    fun line hl => (accepted.line_legal hl).2.2
  rw [assembly, Code.size_append, Line.size_codeOf wf, map_command_lines,
    totalSize_commands settings.inlineLocals accepted.starts]

end Accepted

end Program

end HackVM
