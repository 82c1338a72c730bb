import Mathlib
import HackVM.Proofs.Offences

/-!
# Which fault is reported

A program can have many faults, and a compilation reports one of them. Three passes look for faults: over
the units, over the functions that they define, and over everything that happens while the commands are
read. Each pass stops at the first item that offends, and is made only if those before it found nothing. That
a function jumps to a label it never declares shows when the function ends, so the end of a function is an
event of its own in the last pass.
-/

namespace HackVM

variable {fault : Fault} {settings : Settings}

namespace Command

/-- The last function that commands of a unit start, with its commands from the start on. -/
def opened? : List Command → Option (String × List Command)
  | [] => none
  | command :: rest => (opened? rest).or (command.defines?.map (·, command :: rest))

/-- The function that a command belongs to, with the commands of the function in front of it. -/
def home? (before : List Command) (command : Command) : Option (String × List Command) :=
  match command with
  | .function name _ => some (name, [])
  | _ => opened? before

lemma home?_of_not {command : Command} (h : command.isFunction = false) (before : List Command) :
    home? before command = opened? before := by
  cases command with
  | function name locals => cases h
  | _ => rfl

/-- A command leaves the function open that it belongs to. -/
lemma opened?_concat (before : List Command) (command : Command) :
    opened? (before ++ [command]) =
      (home? before command).map fun home => (home.1, home.2 ++ [command]) := by
  induction before with
  | nil => cases command <;> rfl
  | cons first rest ih =>
    rw [List.cons_append, opened?, ih]
    cases starts : command.isFunction with
    | true =>
      cases command with
      | function name locals => rfl
      | _ => cases starts
    | false =>
      rw [home?_of_not starts, home?_of_not starts, opened?]
      cases opened? rest with
      | some opened => rfl
      | none => cases first.defines? <;> rfl

end Command

/-- What happens while the commands of a unit are read. -/
inductive Event where
  /-- A command is reached, behind those in front of it in its unit. -/
  | reach (unit : String) (before : List Command) (command : Command)
  /-- A function ends, with all its commands. -/
  | close (scope : Scope) (body : List Command)

namespace Event

/-- The static variable that is used in an event. -/
def static? : Event → Option (String × UInt16)
  | .reach unit _ command => command.static?.map (unit, ·)
  | .close _ _ => none

/-- The end of the function that commands of a unit leave open. -/
def closing (unit : String) (before : List Command) : List Event :=
  ((Command.opened? before).map fun opened => .close ⟨unit, opened.1⟩ opened.2).toList

/-- The events of a unit behind some of its commands: the start of a function and the end of the unit end
the function at hand. -/
def scan (unit : String) (before : List Command) : List Command → List Event
  | [] => closing unit before
  | command :: rest =>
    (if command.isFunction then closing unit before else []) ++
      .reach unit before command :: scan unit (before ++ [command]) rest

/-- How an event offends in a program with given functions, behind the events in front of it. Positions of
commands are counted from zero. -/
inductive Offends (defined : List String) (front : List Event) : Event → Fault → Prop where
  | unresolvedLabel {scope : Scope} {body : List Command} {label : String} {earlier later : List String}
    (references : Command.referenced body = earlier ++ label :: later)
    (resolved : ∀ other ∈ earlier, other ∈ Command.declared body) (missing : label ∉ Command.declared body) :
    Offends defined front (.close scope body) (.unresolvedLabel scope label)
  | outside {unit : String} {before : List Command} {command : Command}
    (homeless : Command.home? before command = none) :
    Offends defined front (.reach unit before command)
      (.malformedCommand unit before.length (.outsideFunction command))
  | inside {unit name : String} {before body : List Command} {command : Command} {fault : Fault}
    (home : Command.home? before command = some (name, body))
    (offence : command.Offends (Command.declared body) defined (front.filterMap static?)
      ⟨⟨unit, name⟩, before.length⟩ fault) :
    Offends defined front (.reach unit before command) fault

variable {defined : List String} {front : List Event} {scope : Scope} {unit name : String}
  {before body : List Command} {command : Command}

/-- The first jump of a function to a label that it does not declare. -/
lemma offends_close_iff : Offends defined front (.close scope body) fault ↔
    (Command.labelUse body).unresolved?.map (.unresolvedLabel scope) = some fault := by
  rw [LabelUse.unresolved?, Option.map_eq_some_iff]
  simp only [List.find?_eq_some_iff_append]
  constructor
  · intro offence
    cases offence with
    | unresolvedLabel references resolved missing =>
      refine ⟨_, ⟨by simpa [Command.labelUse] using missing, _, _, references, ?_⟩, rfl⟩
      simpa [Command.labelUse] using resolved
  · rintro ⟨label, ⟨missing, earlier, later, references, resolved⟩, rfl⟩
    refine .unresolvedLabel references ?_ ?_
    · simpa [Command.labelUse] using resolved
    · simpa [Command.labelUse] using missing

lemma offends_reach_iff (home : Command.home? before command = some (name, body)) :
    Offends defined front (.reach unit before command) fault ↔
      command.Offends (Command.declared body) defined (front.filterMap static?)
        ⟨⟨unit, name⟩, before.length⟩ fault := by
  constructor
  · intro offence
    cases offence with
    | outside homeless => cases homeless.symm.trans home
    | inside home' offence =>
      cases home.symm.trans home'
      exact offence
  · exact .inside home

lemma offends_reach_iff_of_homeless (homeless : Command.home? before command = none) :
    Offends defined front (.reach unit before command) fault ↔
      fault = .malformedCommand unit before.length (.outsideFunction command) := by
  constructor
  · intro offence
    cases offence with
    | outside _ => rfl
    | inside home _ => cases homeless.symm.trans home
  · rintro rfl
    exact .outside homeless

lemma filterMap_static?_closing (unit : String) (before : List Command) :
    (closing unit before).filterMap static? = [] := by
  rw [closing]
  cases Command.opened? before <;> rfl

/-- The events of a unit use the static variables of its commands. -/
lemma filterMap_static?_scan (unit : String) (before commands : List Command) :
    (scan unit before commands).filterMap static? =
      (commands.filterMap Command.static?).map fun index => (unit, index) := by
  induction commands generalizing before with
  | nil => exact filterMap_static?_closing unit before
  | cons command rest ih =>
    have closed : (if command.isFunction then closing unit before else []).filterMap static? = [] := by
      split_ifs
      · exact filterMap_static?_closing unit before
      · rfl
    rw [scan, List.filterMap_append, closed, List.nil_append, List.filterMap_cons, List.filterMap_cons, ih,
      static?]
    cases command.static? <;> rfl

end Event

/-- The events of a program in order. -/
def Program.events (program : Program) : List Event :=
  program.flatMap fun unit => Event.scan unit.name [] unit.commands

/-- A ledger behind events of a program with given functions, in a function with commands in front. -/
structure Ledger.Tracks (ledger : Ledger) (defined : List String) (front : List Event)
    (body : List Command) : Prop where
  functions : ledger.functions.map Prod.fst = defined
  statics : ledger.statics = noted [] (front.filterMap Event.static?)
  labels : ledger.labels = Command.labelUse body

namespace Ledger.Tracks

variable {ledger ledger' : Ledger} {defined : List String} {front : List Event} {unit name : String}
  {before body : List Command} {command : Command}

/-- A command is refused if reaching it offends. -/
lemma lower_eq_error_iff (h : ledger.Tracks defined front body) (inlineMax : UInt16)
    (home : Command.home? before command = some (name, body)) :
    Site.lower ⟨⟨unit, name⟩, before.length⟩ inlineMax command ledger = .error fault ↔
      Event.Offends defined front (.reach unit before command) fault := by
  have distinct : ledger.statics.Nodup := h.statics ▸ nodup_noted List.nodup_nil
  have same : ledger.statics.toFinset = (front.filterMap Event.static?).toFinset := by
    ext cell
    simp [h.statics, mem_noted]
  rw [Site.lower_eq_error_iff distinct, Event.offends_reach_iff home, h.functions, h.labels]
  constructor
  · exact .of_toFinset same.symm
  · exact .of_toFinset same

/-- A command that is admitted is noted. -/
lemma after (h : ledger.Tracks defined front body) (unit name : String) (before : List Command)
    (command : Command) :
    (ledger.after ⟨⟨unit, name⟩, command⟩).Tracks defined (front ++ [.reach unit before command])
      (body ++ [command]) := by
  refine ⟨h.functions, ?_, ?_⟩
  · rw [Ledger.after, h.statics, List.filterMap_append, noted_append]
    rfl
  · have declared : Command.declared [command] = command.declares?.toList := by
      rw [Command.declared_cons]
      exact List.append_nil _
    have referenced : Command.referenced [command] = command.refersTo?.toList := by
      rw [Command.referenced_cons]
      exact List.append_nil _
    rw [Ledger.after, h.labels, ← declared, ← referenced]
    simp only [Command.labelUse, Command.declared, Command.referenced, List.filterMap_append]

lemma recordCommand (h : ledger.Tracks defined front body) (kind : String) :
    (ledger.recordCommand kind).Tracks defined front body :=
  ⟨h.functions, h.statics, h.labels⟩

/-- The end of a function is noted by forgetting its labels. -/
lemma close (h : ledger.Tracks defined front body) (agrees : ledger.Agrees ledger')
    (empty : ledger'.labels = .empty) (unit : String) (before : List Command) :
    ledger'.Tracks defined (front ++ Event.closing unit before) [] := by
  refine ⟨agrees.functions ▸ h.functions, ?_, empty⟩
  rw [agrees.statics, h.statics, List.filterMap_append, Event.filterMap_static?_closing, List.append_nil]

end Ledger.Tracks

lemma OpenFunction.close_eq_error_iff {current : OpenFunction} {ledger : Ledger} :
    current.close ledger = .error fault ↔ ledger.unresolved? current.scope = some fault := by
  rw [close]
  cases ledger.unresolved? current.scope with
  | none => simp
  | some other => simp

lemma OpenFunction.enter_none_of_not {unit : String} {position : Nat} {command : Command} {ledger : Ledger}
    (h : command.isFunction = false) : enter unit position none command ledger =
      .error (.malformedCommand unit position (.outsideFunction command)) := by
  cases command with
  | function name locals => cases h
  | _ => rfl

/-- The commands of the function that commands of a unit leave open. -/
def Command.openBody (before : List Command) : List Command :=
  ((opened? before).map Prod.snd).getD []

/-- The function at hand behind commands of a unit is the one that they leave open. -/
def OpenFunction.AtHand (unit : String) (before : List Command) (current? : Option OpenFunction) : Prop :=
  current?.map OpenFunction.scope = (Command.opened? before).map fun opened => ⟨unit, opened.1⟩

lemma Ledger.Tracks.labels_eq_empty {ledger : Ledger} {defined : List String} {front : List Event}
    {unit : String} {before : List Command} {current? : Option OpenFunction}
    (h : ledger.Tracks defined front (Command.openBody before))
    (hand : OpenFunction.AtHand unit before current?) : current? = none → ledger.labels = .empty := by
  rintro rfl
  rw [h.labels, Command.openBody, Option.map_eq_none_iff.mp hand.symm]
  rfl

namespace Program

variable {inlineMax : UInt16} {unit name : String} {before body commands : List Command} {position : Nat}
  {current? : Option OpenFunction} {ledger ledger' : Ledger} {defined : List String} {front : List Event}
  {program : Program}

/-- A function is refused at its end if ending it offends. -/
lemma closeAny_eq_error_iff (tracks : ledger.Tracks defined front (Command.openBody before))
    (hand : OpenFunction.AtHand unit before current?) :
    OpenFunction.closeAny current? ledger = .error fault ↔
      Foremost (Event.Offends defined) front (Event.closing unit before) fault := by
  have labels := tracks.labels
  rw [Command.openBody] at labels
  rw [OpenFunction.AtHand] at hand
  rw [Event.closing]
  cases found : Command.opened? before with
  | none =>
    rw [found] at hand
    obtain rfl := Option.map_eq_none_iff.mp hand
    simp [OpenFunction.closeAny, not_foremost_nil]
  | some opened =>
    rw [found] at hand labels
    obtain ⟨function, rfl, scope⟩ := Option.map_eq_some_iff.mp hand
    show function.close ledger = _ ↔ Foremost _ _ [_] _
    rw [OpenFunction.close_eq_error_iff, Ledger.unresolved?, labels, scope, foremost_singleton_iff,
      Event.offends_close_iff]
    rfl

/-- Inside its function, a command stops the reading if reaching it offends, and otherwise the rest decides;
`ih` is about the rest. -/
lemma lower_then_eq_error_iff {command : Command} {rest : List Command} {size : Nat}
    (tracks : ledger.Tracks defined front body) (home : Command.home? before command = some (name, body))
    (ih : ∀ {current? : Option OpenFunction} {next : Ledger} {front : List Event} (before : List Command),
      next.Tracks defined front (Command.openBody before) → OpenFunction.AtHand unit before current? →
      (lowerCommands inlineMax unit rest before.length current? next = .error fault ↔
        Foremost (Event.Offends defined) front (Event.scan unit before rest) fault)) :
    (do
      let (code, ledger) ← Site.lower ⟨⟨unit, name⟩, before.length⟩ inlineMax command ledger
      let (more, ledger) ← lowerCommands inlineMax unit rest (before.length + 1)
        (some ⟨⟨unit, name⟩, size + code.size⟩) (ledger.recordCommand command.kind)
      return (code ++ more, ledger)) = Except.error fault ↔
      Foremost (Event.Offends defined) front
        (.reach unit before command :: Event.scan unit (before ++ [command]) rest) fault := by
  have opened : Command.opened? (before ++ [command]) = some (name, body ++ [command]) := by
    rw [Command.opened?_concat, home]
    rfl
  have length : before.length + 1 = (before ++ [command]).length := by simp
  apply bind_eq_error_iff_foremost_cons
  · exact fun _ => tracks.lower_eq_error_iff inlineMax home
  · rintro ⟨code, next⟩ lowered
    obtain ⟨_, _, rfl⟩ := (Site.lower_isOk_iff _).mp ⟨code, lowered⟩
    have counted := (tracks.after unit name before command).recordCommand command.kind
    have hand : OpenFunction.AtHand unit (before ++ [command]) (some ⟨⟨unit, name⟩, size + code.size⟩) := by
      rw [OpenFunction.AtHand, opened]
      rfl
    rw [← ih (before ++ [command]) (by rwa [Command.openBody, opened]) hand, ← length]
    exact bind_eq_error_iff_of_ok fun _ => ⟨_, rfl⟩

/-- Lowering the commands of a unit stops at the first event that offends. -/
lemma lowerCommands_eq_error_iff (before : List Command)
    (tracks : ledger.Tracks defined front (Command.openBody before))
    (hand : OpenFunction.AtHand unit before current?) :
    lowerCommands inlineMax unit commands before.length current? ledger = .error fault ↔
      Foremost (Event.Offends defined) front (Event.scan unit before commands) fault := by
  induction commands generalizing before current? ledger front with
  | nil =>
    rw [lowerCommands, map_eq_error_iff]
    exact closeAny_eq_error_iff tracks hand
  | cons command rest ih =>
    -- The ledger tracks the events in front, so what it holds decides as the events do: at the end of the
    -- function at hand if the command starts another one, and then at the command itself.
    rw [lowerCommands, Event.scan]
    cases starts : command.isFunction with
    | true =>
      cases command with
      | function name locals =>
        rw [if_pos rfl]
        apply bind_eq_error_iff_foremost
        · intro other
          rw [OpenFunction.enter, map_eq_error_iff]
          exact closeAny_eq_error_iff tracks hand
        · rintro ⟨opened, next⟩ entered
          obtain ⟨closed, rfl⟩ := OpenFunction.enter_function_eq_ok_iff.mp entered
          obtain ⟨agrees, empty⟩ := OpenFunction.closeAny_ok (tracks.labels_eq_empty hand) closed
          exact lower_then_eq_error_iff (tracks.close agrees empty unit before) rfl ih
      | _ => cases starts
    | false =>
      rw [if_neg (by simp), List.nil_append]
      have home := Command.home?_of_not starts before
      rw [OpenFunction.AtHand] at hand
      cases found : Command.opened? before with
      | none =>
        rw [found] at hand home
        obtain rfl := Option.map_eq_none_iff.mp hand
        rw [OpenFunction.enter_none_of_not starts]
        apply bind_eq_error_iff_foremost_cons
        · intro other
          rw [Event.offends_reach_iff_of_homeless home, Except.error.injEq, eq_comm]
        · intro _ entered
          cases entered
      | some opened =>
        rw [found] at hand home
        obtain ⟨⟨scope, size⟩, rfl, rfl⟩ := Option.map_eq_some_iff.mp hand
        rw [(OpenFunction.enter_other_eq_ok_iff starts).mpr ⟨rfl, rfl⟩, ok_bind]
        rw [Command.openBody, found] at tracks
        exact lower_then_eq_error_iff tracks home ih

/-- Lowering the units of a program stops at the first event that offends. -/
lemma lowerUnits_eq_error_iff (tracks : ledger.Tracks defined front []) :
    lowerUnits inlineMax program ledger = .error fault ↔
      Foremost (Event.Offends defined) front program.events fault := by
  induction program generalizing ledger front with
  | nil => simp [lowerUnits, events, not_foremost_nil]
  | cons unit rest ih =>
    rw [lowerUnits, events, List.flatMap_cons]
    apply bind_eq_error_iff_foremost
    · exact fun other => lowerCommands_eq_error_iff [] tracks rfl
    · rintro ⟨code, next⟩ lowered
      obtain ⟨-, passes, labels⟩ := lowerCommands_ok "" (by simp) (fun _ => tracks.labels) lowered
      have statics : next.statics =
          noted [] ((front ++ Event.scan unit.name [] unit.commands).filterMap Event.static?) := by
        rw [passes.statics, tracks.statics, SourceUnit.statics_linesFrom, List.filterMap_append,
          Event.filterMap_static?_scan, noted_append]
      rw [← events, ← ih ⟨passes.functions ▸ tracks.functions, statics, labels⟩]
      exact bind_eq_error_iff_of_ok fun _ => ⟨_, rfl⟩

/-- The fault that is reported for a program: the settings are looked at first, then the names of the units,
the definitions of functions, the entry point, and last what happens while the commands are read. -/
inductive Reports (settings : Settings) (program : Program) : Fault → Prop where
  | stackBase (beyond : maxImmediate < settings.stackBase) :
    Reports settings program (.invalidSettings (.stackBase settings.stackBase))
  | entryName {cause : NameFault} (fits : settings.stackBase ≤ maxImmediate)
    (illegal : Name.fault? settings.entryPoint = some cause) :
    Reports settings program (.invalidSettings (.entryPoint cause))
  | unit {fault : Fault} (usable : settings.Usable)
    (first : Foremost SourceUnit.Offends [] program fault) : Reports settings program fault
  | definition {fault : Fault} (usable : settings.Usable)
    (units : Blameless SourceUnit.Offends [] program)
    (first : Foremost Site.Redefines [] program.definitionSites fault) : Reports settings program fault
  | missingEntryPoint (usable : settings.Usable) (units : Blameless SourceUnit.Offends [] program)
    (definitions : Blameless Site.Redefines [] program.definitionSites)
    (undefined : settings.entryPoint ∉ program.functionNames) :
    Reports settings program (.missingEntryPoint settings.entryPoint)
  | event {fault : Fault} (usable : settings.Usable) (units : Blameless SourceUnit.Offends [] program)
    (definitions : Blameless Site.Redefines [] program.definitionSites)
    (defined : settings.entryPoint ∈ program.functionNames)
    (first : Foremost (Event.Offends program.functionNames) [] program.events fault) :
    Reports settings program fault

/-- With its functions defined, a program lacks its entry point or is read for offences. -/
lemma entry_then_eq_error_iff {stackBase : UInt16} :
    (match Ledger.entry? (.opening program.definitions 0) settings.entryPoint with
      | none => throw (.missingEntryPoint settings.entryPoint)
      | some entry => do
        let (body, ledger) ← lowerUnits inlineMax program (.opening program.definitions 0)
        let code := Bootstrap.code stackBase entry ++ Routine.allCode ++ body
        return (⟨code, { ledger.finalStats with instructions := code.size }⟩ : Compiled)) =
          Except.error fault ↔
      (settings.entryPoint ∉ program.functionNames ∧ fault = .missingEntryPoint settings.entryPoint) ∨
      (settings.entryPoint ∈ program.functionNames ∧
        Foremost (Event.Offends program.functionNames) [] program.events fault) := by
  have tracks : (Ledger.opening program.definitions 0).Tracks program.functionNames [] [] := ⟨rfl, rfl, rfl⟩
  cases entry : Ledger.entry? (.opening program.definitions 0) settings.entryPoint with
  | none =>
    have undefined : settings.entryPoint ∉ program.functionNames := Ledger.entry?_eq_none_iff.mp entry
    simp [undefined, throw, throwThe, MonadExceptOf.throw, eq_comm]
  | some label =>
    have defined : settings.entryPoint ∈ program.functionNames := by
      by_contra undefined
      cases entry.symm.trans (Ledger.entry?_eq_none_iff.mpr undefined)
    rw [← lowerUnits_eq_error_iff tracks]
    simp only [defined, not_true, false_and, true_and, false_or]
    exact bind_eq_error_iff_of_ok fun _ => ⟨_, rfl⟩

/-- With settings that can be used, the three passes follow one another. -/
lemma compile_eq_error_iff_of_usable (usable : settings.Usable) :
    compile settings program = .error fault ↔
      Foremost SourceUnit.Offends [] program fault ∨
      Blameless SourceUnit.Offends [] program ∧
        (Foremost Site.Redefines [] program.definitionSites fault ∨
        Blameless Site.Redefines [] program.definitionSites ∧
          ((settings.entryPoint ∉ program.functionNames ∧ fault = .missingEntryPoint settings.entryPoint) ∨
          (settings.entryPoint ∈ program.functionNames ∧
            Foremost (Event.Offends program.functionNames) [] program.events fault))) := by
  rw [compile, Settings.check_eq_ok_iff_usable.mpr usable, ok_bind]
  apply bind_eq_error_iff_or
  · exact fun other => checkUnitNames_eq_error_iff (by simp)
  · intro _ _
    apply bind_eq_error_iff_or
    · exact fun other => defineAll_eq_error_iff
    · intro ledger defined
      obtain ⟨-, -, rfl⟩ := defineAll_empty_eq_ok_iff.mp defined
      exact entry_then_eq_error_iff

/-- A compilation reports exactly the first fault of a program. -/
theorem compile_eq_error_iff {settings : Settings} {program : Program} {fault : Fault} :
    compile settings program = .error fault ↔ program.Reports settings fault := by
  constructor
  · intro h
    obtain refused | ⟨_, checked, _⟩ := bind_eq_error_iff.mp h
    · obtain ⟨beyond, rfl⟩ | ⟨fits, cause, illegal, rfl⟩ := Settings.check_eq_error_iff.mp refused
      · exact .stackBase beyond
      · exact .entryName fits illegal
    · have usable := Settings.check_eq_ok_iff_usable.mp checked
      obtain first | ⟨units, first | ⟨definitions, ⟨undefined, rfl⟩ | ⟨defined, first⟩⟩⟩ :=
        (compile_eq_error_iff_of_usable usable).mp h
      · exact .unit usable first
      · exact .definition usable units first
      · exact .missingEntryPoint usable units definitions undefined
      · exact .event usable units definitions defined first
  · intro reports
    cases reports with
    | stackBase beyond =>
      exact bind_eq_error_iff.mpr (.inl (Settings.check_eq_error_iff.mpr (.inl ⟨beyond, rfl⟩)))
    | entryName fits illegal =>
      exact bind_eq_error_iff.mpr
        (.inl (Settings.check_eq_error_iff.mpr (.inr ⟨fits, _, illegal, rfl⟩)))
    | unit usable first => exact (compile_eq_error_iff_of_usable usable).mpr (.inl first)
    | definition usable units first =>
      exact (compile_eq_error_iff_of_usable usable).mpr (.inr ⟨units, .inl first⟩)
    | missingEntryPoint usable units definitions undefined =>
      exact (compile_eq_error_iff_of_usable usable).mpr
        (.inr ⟨units, .inr ⟨definitions, .inl ⟨undefined, rfl⟩⟩⟩)
    | event usable units definitions defined first =>
      exact (compile_eq_error_iff_of_usable usable).mpr
        (.inr ⟨units, .inr ⟨definitions, .inr ⟨defined, first⟩⟩⟩)

-- The jump is at fault only where its function ends: behind the command that follows it, but in front of the
-- start of the next function.
example : compile .default [⟨"Main", [.function "Sys.init" 0, .goto "end", .function "Main.f" 40000]⟩] =
    .error (.unresolvedLabel ⟨"Main", "Sys.init"⟩ "end") := by
  decide +kernel

example : compile .default
    [⟨"Main", [.function "Sys.init" 0, .goto "end", .call "Main.g" 0, .function "Main.f" 40000]⟩] =
      .error (.undefinedFunction ⟨"Main", "Sys.init"⟩ "Main.g") := by
  decide +kernel

end Program

end HackVM
