import HackVM.CommandLine.Run

/-!
# Arguments

A reader of the words of the command line. A long option takes its value after `=` or as the next
word, a short one in the same word or as the next, and flags of one letter can share a word. A word
`--` ends the options. Options with a value and `--stats` can be given once.
-/

namespace HackVM.Arguments

/-- The name and version of the command. -/
def versionText : String := "vmtrans 0.1.0\n"

/-- How the command is used. -/
def helpText : String := "Usage: vmtrans [OPTIONS] <INPUT>...\n"

/-- The end of a command that was asked for help. -/
def help : Outcome := ⟨0, helpText, none⟩

/-- The end of a command that was asked for its version. -/
def version : Outcome := ⟨0, versionText, none⟩

/-- The end of a command that was used in a wrong way. -/
def misuse : Outcome := ⟨2, "", none⟩

/-- An option that takes a value. -/
inductive Setting where
  | output
  | entry
  | inlineLocals
deriving DecidableEq, Repr

/-- What was read so far. -/
structure Choices where
  inputs : List String
  output? : Option String
  entry? : Option String
  inlineLocals? : Option UInt16
  stats : Bool
deriving DecidableEq, Repr

/-- What is to be done after a word that starts with a dash. -/
inductive Reaction where
  /-- Go on with the next word. -/
  | proceed (choices : Choices)
  /-- Take the next word as the value of an option. -/
  | expect (setting : Setting)
  /-- Look at no further word. -/
  | stop (outcome : Outcome)
deriving DecidableEq, Repr

/-- Nothing read yet. -/
def Choices.empty : Choices := ⟨[], none, none, none, false⟩

/-- What is asked for at the end of the words: there must be an input. -/
def Choices.invocation (choices : Choices) : Except Outcome Invocation :=
  if choices.inputs.isEmpty then .error misuse
  else .ok
    { inputs := choices.inputs.map Text.encode
      output := Text.encode (choices.output?.getD "out.asm")
      entryPoint := choices.entry?.getD Settings.default.entryPoint
      inlineLocals := choices.inlineLocals?.getD Settings.default.inlineLocals
      stats := choices.stats }

/-- Reads a count, which may have a sign; the only count with a minus sign is zero. -/
def readCount? : List Char → Option UInt16
  | '-' :: digits => (Text.readDigits? digits).bind fun value =>
    if value = 0 then some 0 else none
  | word => Text.readWord? word

/-- Sets an option; a second value, an empty path and a bad count are refused. -/
def Choices.set? (choices : Choices) (setting : Setting) (value : String) : Option Choices :=
  match setting with
  | .output =>
    if choices.output?.isSome || value.isEmpty then none
    else some { choices with output? := some value }
  | .entry =>
    if choices.entry?.isSome then none else some { choices with entry? := some value }
  | .inlineLocals =>
    if choices.inlineLocals?.isSome then none
    else (readCount? value.toList).map fun count => { choices with inlineLocals? := some count }

/-- Asks for statistics; a second time is refused. -/
def Choices.setStats? (choices : Choices) : Option Choices :=
  if choices.stats then none else some { choices with stats := true }

/-- Adds an input; an empty path is refused. -/
def Choices.addInput? (choices : Choices) (path : String) : Option Choices :=
  if path.isEmpty then none else some { choices with inputs := choices.inputs ++ [path] }

/-- Goes on if a word was accepted. -/
def Reaction.ofChoices? : Option Choices → Reaction
  | some choices => .proceed choices
  | none => .stop misuse

/-- Reads a long option, its dashes taken off. -/
def readLong (choices : Choices) (word : List Char) : Reaction :=
  let name := String.ofList (word.takeWhile (· != '='))
  match name, word.dropWhile (· != '=') with
  | "output", [] => .expect .output
  | "entry", [] => .expect .entry
  | "inline-locals", [] => .expect .inlineLocals
  | "output", _ :: value => .ofChoices? (choices.set? .output (String.ofList value))
  | "entry", _ :: value => .ofChoices? (choices.set? .entry (String.ofList value))
  | "inline-locals", _ :: value => .ofChoices? (choices.set? .inlineLocals (String.ofList value))
  | "stats", [] => .ofChoices? choices.setStats?
  | "verbose", [] => .proceed choices
  | "help", [] => .stop help
  | "version", [] => .stop version
  | _, _ => .stop misuse

/-- Reads options of one letter that share a word, the dash taken off. -/
def readShort (choices : Choices) : List Char → Reaction
  | [] => .proceed choices
  | 'v' :: rest => readShort choices rest
  | 'h' :: _ => .stop help
  | 'V' :: _ => .stop version
  | ['o'] => .expect .output
  | 'o' :: '=' :: value => .ofChoices? (choices.set? .output (String.ofList value))
  | 'o' :: value => .ofChoices? (choices.set? .output (String.ofList value))
  | _ => .stop misuse

/-- Whether a word cannot be the value of an option in front of it: it starts with a dash and is
more than that. -/
def looksLikeOption (word : String) : Bool :=
  match word.toList with
  | '-' :: _ :: _ => true
  | _ => false

/-- Reads words that are inputs all. -/
def readInputs (choices : Choices) : List String → Except Outcome Invocation
  | [] => choices.invocation
  | path :: rest =>
    match choices.addInput? path with
    | some choices => readInputs choices rest
    | none => .error misuse

/-- Reads the words of the command line after what was read so far. -/
def readFrom (choices : Choices) : List String → Except Outcome Invocation
  | [] => choices.invocation
  | word :: rest =>
    if word = "--" then readInputs choices rest
    else
      let reaction := match word.toList with
        | '-' :: '-' :: long => readLong choices long
        | '-' :: c :: short => readShort choices (c :: short)
        | _ => .ofChoices? (choices.addInput? word)
      match reaction with
      | .proceed choices => readFrom choices rest
      | .stop outcome => .error outcome
      | .expect setting =>
        match rest with
        | [] => .error misuse
        | value :: rest =>
          if looksLikeOption value then .error misuse
          else match choices.set? setting value with
            | some choices => readFrom choices rest
            | none => .error misuse

/-- Reads the words of the command line. -/
def read (words : List String) : Except Outcome Invocation :=
  readFrom .empty words

end HackVM.Arguments
