import Mathlib
import HackVM.Proofs.Closure
import HackVM.Proofs.Statics

/-!
# Programs with further units

Units that are added behind a program leave what it compiles to in place. The functions that are added
stand behind those that calls of the program find, the return labels go on counting where they stopped, and
the static variables that are added get later cells. So the code of the longer program starts with that of
the shorter one, and once both are loaded no label, no static variable and no word of the shorter program
has moved.
-/

namespace HackVM

section Lookup

variable {α β : Type} [DecidableEq α] {table : List (α × β)} {key : α} {value : β}

/-- What is found in a table is found in a longer one. -/
lemma lookup_append_of_eq_some (h : table.lookup key = some value) (more : List (α × β)) :
    (table ++ more).lookup key = some value := by
  rw [List.lookup_append, h]
  rfl

end Lookup

/-- An item that is noted keeps its place when more are noted. -/
lemma idxOf_noted_append {α : Type} [DecidableEq α] {items : List α} {item : α} (h : item ∈ items)
    (more : List α) : (noted [] (items ++ more)).idxOf item = (noted [] items).idxOf item := by
  obtain ⟨later, e⟩ := exists_noted_append (noted [] items) more
  rw [noted_append, e, List.idxOf_append_of_mem (mem_noted.mpr (.inr h))]

namespace Line

variable {functions : List (String × String)} {inlineMax : UInt16} {returns : Nat} {scope : Scope}
  {command : Command} {code : Code}

/-- A command is lowered to one code only. -/
lemma Lowers.code_eq (h : Lowers functions inlineMax returns scope command code) :
    Line.code functions inlineMax returns ⟨scope, command⟩ = code := by
  cases h with
  | push resolved => exact code_push resolved
  | pop resolved place => exact code_pop resolved place
  | operate operation => exact code_operate operation
  | label legal => exact code_label legal
  | goto legal => exact code_goto legal
  | ifGoto legal => exact code_ifGoto legal
  | function fits => exact code_function fits
  | call fits defined => exact code_call fits defined
  | ret => rfl

/-- With more functions behind those of a program, a command is lowered to the same code. -/
lemma Lowers.append (h : Lowers functions inlineMax returns scope command code)
    (more : List (String × String)) :
    Lowers (functions ++ more) inlineMax returns scope command code := by
  cases h with
  | push resolved => exact .push resolved
  | pop resolved place => exact .pop resolved place
  | operate operation =>
    cases operation with
    | compare comparison => exact .operate (.compare comparison)
    | _ => exact .operate _
  | label legal => exact .label legal
  | goto legal => exact .goto legal
  | ifGoto legal => exact .ifGoto legal
  | function fits => exact .function fits
  | call fits defined => exact .call fits (lookup_append_of_eq_some defined more)
  | ret => exact .ret

/-- Functions that are added change nothing in the code of lines that are well formed without them. -/
lemma codeOf_functions_append {lines : List Line}
    (wf : ∀ line ∈ lines, line.command.WellFormed (functions.map Prod.fst))
    (more : List (String × String)) :
    codeOf (functions ++ more) inlineMax returns lines = codeOf functions inlineMax returns lines := by
  induction lines generalizing returns with
  | nil => rfl
  | cons line rest ih =>
    have own : Lowers (functions ++ more) inlineMax returns line.scope line.command
        (line.code functions inlineMax returns) :=
      (lowers_code (wf line List.mem_cons_self)).append more
    rw [codeOf, codeOf, own.code_eq, ih fun line hl => wf line (.tail _ hl)]

end Line

namespace Image

variable {image image' : Image} {code : Code}

/-- Program memory holds the words of the code that is loaded. -/
lemma toList_rom (h : ofCode code = .ok image) :
    image.rom.toList = cells image.labels image.vars code := by
  obtain ⟨-, rfl⟩ := ofCode_eq_ok_iff.mp h
  rfl

/-- Two images have the same words for code if all that it loads has the same values in both. -/
lemma cells_eq_of_value
    (h : ∀ operand, .load operand ∈ code → image'.value operand = image.value operand) :
    cells image'.labels image'.vars code = cells image.labels image.vars code := by
  refine List.filterMap_congr fun instruction hi => ?_
  cases instruction with
  | load operand => exact congrArg (fun value => some (Cell.load value)) (h operand hi)
  | _ => rfl

end Image

namespace Program

variable {settings : Settings} {program added : Program} {unit : SourceUnit} {image image' : Image}

lemma lines_append (program added : Program) :
    (program ++ added).lines = program.lines ++ added.lines :=
  List.flatMap_append ..

lemma definitions_append (program added : Program) :
    (program ++ added).definitions = program.definitions ++ added.definitions :=
  List.flatMap_append ..

lemma statics_append (program added : Program) :
    (program ++ added).statics = program.statics ++ added.statics :=
  List.flatMap_append ..

/-- The code of the units that are added behind a program. -/
def addedCode (settings : Settings) (program added : Program) : Code :=
  Line.codeOf (program ++ added).definitions settings.inlineLocals
    (program.lines.map fun line => line.command.returnLabels).sum added.lines

namespace Accepted

variable (accepted : program.Accepted settings)

include accepted

lemma entryLabel_append (added : Program) :
    (program ++ added).entryLabel settings = program.entryLabel settings := by
  obtain ⟨unit, hu⟩ := accepted.exists_entry
  rw [entryLabel, entryLabel, definitions_append, lookup_append_of_eq_some hu, hu]

/-- The code of a program is followed by that of the units that are added. -/
lemma assembly_append (added : Program) :
    (program ++ added).assembly settings =
      program.assembly settings ++ addedCode settings program added := by
  have wf : ∀ line ∈ program.lines,
      line.command.WellFormed (program.definitions.map Prod.fst) :=
    fun line hl => (accepted.line_legal hl).2.2
  rw [assembly, assembly, preamble, preamble, accepted.entryLabel_append, addedCode, lines_append,
    Line.codeOf_append, definitions_append, Line.codeOf_functions_append wf, Nat.zero_add,
    List.append_assoc, List.append_assoc, List.append_assoc]

end Accepted

/-- The code of a unit that is added starts with the entry label of its first function, and there is none
if it has no commands. -/
lemma Accepted.addedCode_unit (accepted : (program ++ [unit]).Accepted settings) :
    unit.commands = [] ∧ addedCode settings program [unit] = [] ∨
      ∃ name locals rest tail, unit.commands = .function name locals :: rest ∧
        addedCode settings program [unit] = .label (Scope.entry ⟨unit.name, name⟩) :: tail := by
  have added : unit ∈ program ++ [unit] := List.mem_append_right _ List.mem_cons_self
  have starts := accepted.starts unit added
  have wf := accepted.wellFormed unit added
  have lines_eq : Program.lines [unit] = SourceUnit.linesFrom unit.name "" unit.commands :=
    List.append_nil _
  rw [addedCode, lines_eq]
  cases e : unit.commands with
  | nil => exact .inl ⟨rfl, rfl⟩
  | cons command rest =>
    rw [e] at starts wf
    have first := starts command rfl
    cases command with
    | function name locals =>
      right
      have fits : locals ≤ maxImmediate := wf _ List.mem_cons_self
      rw [SourceUnit.linesFrom, Line.codeOf, Line.code_function fits]
      exact ⟨name, locals, rest, _, rfl, rfl⟩
    | _ => cases first

/-- A static variable of a program has as many others in front of it in the longer program. -/
lemma staticRank_append {owner : String} {index : UInt16} (used : program.UsesStatic owner index)
    (added : Program) :
    (program ++ added).staticRank owner index = program.staticRank owner index := by
  have mem := mem_statics_iff.mpr used
  have mem' := List.mem_append_left added.statics mem
  rw [staticRank, staticRank, ← idxOf_noted mem, statics_append, ← idxOf_noted mem',
    idxOf_noted_append mem]

lemma UsesStatic.append {owner : String} {index : UInt16} (used : program.UsesStatic owner index)
    (added : Program) : (program ++ added).UsesStatic owner index := by
  rw [← mem_statics_iff, statics_append] at *
  exact List.mem_append_left _ used

namespace Loaded

variable (loaded : Loaded settings program image) (loaded' : Loaded settings (program ++ added) image')

include loaded loaded'

/-- The labels of a program stand where they stood. -/
lemma labels_lookup_append {name : String} {address : Nat}
    (h : image.labels.lookup name = some address) : image'.labels.lookup name = some address := by
  obtain ⟨-, rfl⟩ := Image.ofCode_eq_ok_iff.mp loaded.loads
  obtain ⟨-, rfl⟩ := Image.ofCode_eq_ok_iff.mp loaded'.loads
  rw [loaded.accepted.assembly_append, Code.labelTable_append]
  exact lookup_append_of_eq_some h _

/-- The static variables of a program keep their cells. -/
lemma variableCell?_append {name : String} {address : Nat}
    (h : image.variableCell? name = some address) : image'.variableCell? name = some address := by
  obtain ⟨owner, index, used, rfl⟩ := loaded.usesStatic_of_variableCell? h
  rw [← h, loaded'.variableCell?_static (used.append added), loaded.variableCell?_static used,
    staticRank_append used]

/-- What the code of a program loads keeps its value. -/
lemma value_append {operand : Operand} (h : .load operand ∈ program.assembly settings) :
    image'.value operand = image.value operand := by
  cases operand with
  | symbol name =>
    rcases loaded.accepted.xor_symbol h with ⟨declared, -⟩ | ⟨⟨owner, index, used, rfl⟩, -⟩
    · obtain ⟨address, -, placed⟩ := loaded.holds.places_of_mem declared
      have placed' : image'.Places name (0 + address) :=
        ⟨loaded.labels_lookup_append loaded' placed.listed, placed.free, placed.inRom⟩
      rw [placed.value, placed'.value]
    · rw [loaded.value_staticSymbol used, loaded'.value_staticSymbol (used.append added),
        staticRank_append used]
  | _ => rfl

/-- The words of a program stand where they stood. -/
lemma rom_prefix : image.rom.toList <+: image'.rom.toList := by
  rw [Image.toList_rom loaded.loads, Image.toList_rom loaded'.loads,
    loaded.accepted.assembly_append, Image.cells_append,
    Image.cells_eq_of_value fun operand => loaded.value_append loaded']
  exact List.prefix_append _ _

end Loaded

/-- A unit that is added to a program only adds code. The code of the longer program is that of the shorter
one followed by more, which starts with the entry label of the unit's first function, or by nothing if the
unit has no commands. If the longer code fits program memory both are loaded, and then the words of the
shorter program come first in the longer one, each of its labels stands for the same address, and each of
its static variables has the same cell. -/
theorem compiled_unit_appended {compiled compiled' : Compiled}
    (h : compile settings program = .ok compiled)
    (h' : compile settings (program ++ [unit]) = .ok compiled') :
    (∃ more, compiled'.code = compiled.code ++ more ∧
      (unit.commands = [] ∧ more = [] ∨
        ∃ name locals rest tail, unit.commands = .function name locals :: rest ∧
          more = .label (Scope.entry ⟨unit.name, name⟩) :: tail)) ∧
    (compiled'.code.size ≤ romSize →
      ∃ image image', Image.ofCode compiled.code = .ok image ∧
        Image.ofCode compiled'.code = .ok image' ∧
        image.rom.toList <+: image'.rom.toList ∧
        (∀ name address, image.labels.lookup name = some address →
          image'.labels.lookup name = some address) ∧
        ∀ name address, image.variableCell? name = some address →
          image'.variableCell? name = some address) := by
  have accepted := Accepted.of_compile h
  have accepted' := Accepted.of_compile h'
  have longer := accepted.assembly_append [unit]
  rw [compile_code h, compile_code h']
  refine ⟨⟨_, longer, accepted'.addedCode_unit⟩, fun fits => ?_⟩
  have fits_shorter : (program.assembly settings).size ≤ romSize := by
    rw [longer, Code.size_append] at fits
    omega
  obtain ⟨image, loaded⟩ := accepted.exists_loaded fits_shorter
  obtain ⟨image', loaded'⟩ := accepted'.exists_loaded fits
  refine ⟨image, image', loaded.loads, loaded'.loads, loaded.rom_prefix loaded', ?_, ?_⟩
  · exact fun name address => loaded.labels_lookup_append loaded'
  · exact fun name address => loaded.variableCell?_append loaded'

/-- A program with a static variable that calls itself. -/
def landlord : Program :=
  [⟨"Main", [.function "main" 1, .push .statics 7, .call "main" 1, .operate (.compare .eq), .ret]⟩]

/-- A unit that calls the landlord and has static variables of its own. -/
def tenant : SourceUnit :=
  ⟨"Lib", [.function "help" 0, .push .statics 7, .call "main" 0, .pop .statics 3, .ret]⟩

/-- With the tenant added, the landlord's code is followed by the code of the function that the tenant
starts with, and its static variable keeps the first cell. -/
theorem landlord_tenant_appended :
    ∃ compiled compiled' image image' tail, compile ⟨"main", 256, 0⟩ landlord = .ok compiled ∧
      compile ⟨"main", 256, 0⟩ (landlord ++ [tenant]) = .ok compiled' ∧
      compiled'.code = compiled.code ++ .label "Lib.help" :: tail ∧
      Image.ofCode compiled.code = .ok image ∧ Image.ofCode compiled'.code = .ok image' ∧
      image.rom.toList <+: image'.rom.toList ∧
      image.variableCell? (staticSymbol "Main" 7) = some 16 ∧
      image'.variableCell? (staticSymbol "Main" 7) = some 16 := by
  have outcome : ((compile ⟨"main", 256, 0⟩ landlord).toOption.bind fun compiled =>
      (Image.ofCode compiled.code).toOption.map fun image =>
        image.variableCell? (staticSymbol "Main" 7)) = some (some 16) := by
    decide +kernel
  have outcome' : ((compile ⟨"main", 256, 0⟩ (landlord ++ [tenant])).toOption.map fun compiled =>
      decide (compiled.code.size ≤ romSize)) = some true := by
    decide +kernel
  obtain ⟨compiled, h, loaded⟩ := Option.bind_eq_some_iff.mp outcome
  obtain ⟨image, loads, cell⟩ := Option.map_eq_some_iff.mp loaded
  obtain ⟨compiled', h', fits⟩ := Option.map_eq_some_iff.mp outcome'
  rw [toOption_eq_some_iff] at h h' loads
  obtain ⟨⟨more, code, starts⟩, keeps⟩ := compiled_unit_appended h h'
  obtain ⟨image₁, image', loads₁, loads', rom, -, statics⟩ := keeps (of_decide_eq_true fits)
  cases loads.symm.trans loads₁
  rcases starts with ⟨none, -⟩ | ⟨name, locals, rest, tail, commands, rfl⟩
  · cases none
  · cases commands
    exact ⟨compiled, compiled', image, image', tail, h, h', code, loads, loads', rom, cell,
      statics _ _ cell⟩

end Program

end HackVM
