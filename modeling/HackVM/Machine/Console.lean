import HackVM.Machine.Computer

/-!
# The console

Running a loaded program and looking at what it does: bounded runs, the memory, the stack, and the
places of labels and variables.
-/

namespace HackVM

/-- A loaded program on the computer, and how many instructions were begun. -/
structure Console where
  image : Image
  computer : Computer
  begun : Nat
deriving DecidableEq, Repr

/-- Why a request to the console fails. -/
inductive ConsoleFault where
  /-- The computer stopped. -/
  | trap (cause : Trap)
  /-- The program has no such label. -/
  | noLabel (name : String)
  /-- A run did not come to its label in time. -/
  | unreached (name : String) (limit : Nat)
  /-- A range starts beyond the memory. -/
  | rangeStart (first : Nat)
  /-- A range ends beyond the memory. -/
  | rangeEnd (last : Nat)
  /-- A range ends before it starts. -/
  | rangeOrder (first last : Nat)
  /-- A range would start below the first cell. -/
  | belowMemory
deriving DecidableEq, Repr

/-- A failed request together with the number of instructions begun until then. -/
structure Halt where
  fault : ConsoleFault
  begun : Nat
deriving DecidableEq, Repr

/-- The text that reports a failed request. -/
def ConsoleFault.message : ConsoleFault → String
  | .trap cause => cause.message
  | .noLabel name => "no label (" ++ name ++ ")"
  | .unreached name limit =>
    "did not reach (" ++ name ++ ") within " ++ Nat.repr limit ++ " steps"
  | .rangeStart first =>
    "range start index " ++ Nat.repr first ++ " out of range for slice of length " ++
      Nat.repr ramSize
  | .rangeEnd last =>
    "range end index " ++ Nat.repr last ++ " out of range for slice of length " ++
      Nat.repr ramSize
  | .rangeOrder first last =>
    "slice index starts at " ++ Nat.repr first ++ " but ends at " ++ Nat.repr last
  | .belowMemory => "attempt to subtract with overflow"

namespace Computer

/-- Runs until the program counter meets a condition or `fuel` instructions were executed; says
whether the condition was met, and adds the instructions begun to `begun`. -/
def run (rom : Array Cell) (isStop : Nat → Bool) :
    (fuel : Nat) → Computer → (begun : Nat) → Except (Trap × Nat) (Computer × Nat × Bool)
  | fuel, computer, begun =>
    if isStop computer.pc then .ok (computer, begun, true)
    else match fuel with
      | 0 => .ok (computer, begun, false)
      | fuel + 1 =>
        match computer.step rom with
        | .error trap => .error (trap, begun + trap.begun)
        | .ok computer => run rom isStop fuel computer (begun + 1)

/-- Stores a value in every cell of a range, its end excluded. -/
def fill (computer : Computer) (first last : Nat) (value : Word) : Computer :=
  { computer with
    ram := computer.ram.mapIdx fun address old =>
      if first ≤ address && address < last then value else old }

end Computer

namespace Console

/-- Switches the computer on with a program. -/
def start (image : Image) : Console := ⟨image, .initial, 0⟩

/-- The failure of a request that begins no instruction. -/
def fail {α : Type} (console : Console) (fault : ConsoleFault) : Except Halt α :=
  .error ⟨fault, console.begun⟩

/-- The address of a label. -/
def label (console : Console) (name : String) : Except Halt Nat :=
  match console.image.labels.lookup name with
  | some address => .ok address
  | none => console.fail (.noLabel name)

/-- Whether the program has a label. -/
def hasLabel (console : Console) (name : String) : Bool :=
  (console.image.labels.lookup name).isSome

/-- Runs to a label within a number of instructions, and says how many it took. -/
def runUntil (console : Console) (name : String) (limit : Nat) : Except Halt (Nat × Console) :=
  match console.label name with
  | .error halt => .error halt
  | .ok address =>
    match console.computer.run console.image.rom (· == address) limit console.begun with
    | .error (trap, begun) => .error ⟨.trap trap, begun⟩
    | .ok (_, begun, false) => .error ⟨.unreached name limit, begun⟩
    | .ok (computer, begun, true) =>
      .ok (begun - console.begun, { console with computer := computer, begun := begun })

/-- Executes a number of instructions, and says how many were begun in all. -/
def advance (console : Console) (count : Nat) : Except Halt (Nat × Console) :=
  match console.computer.run console.image.rom (fun _ => false) count console.begun with
  | .error (trap, begun) => .error ⟨.trap trap, begun⟩
  | .ok (computer, begun, _) => .ok (begun, { console with computer := computer, begun := begun })

/-- The content of a memory cell. -/
def read (console : Console) (address : Nat) : Except Halt Word :=
  match console.computer.read address with
  | .ok value => .ok value
  | .error trap => console.fail (.trap trap)

/-- Stores a value in a memory cell. -/
def write (console : Console) (address : Nat) (value : Word) : Except Halt Console :=
  match console.computer.write address value with
  | .ok computer => .ok { console with computer := computer }
  | .error trap => console.fail (.trap trap)

/-- Refuses a range of cells, its end excluded, that is not part of memory. Each end is held against
the memory, the start first, before the two are held against each other. -/
def checkRange (console : Console) (first last : Nat) : Except Halt Unit :=
  if ramSize < first then console.fail (.rangeStart first)
  else if ramSize < last then console.fail (.rangeEnd last)
  else if last < first then console.fail (.rangeOrder first last)
  else .ok ()

/-- Stores a value in every cell of a range, its end excluded. -/
def fill (console : Console) (first last : Nat) (value : Word) : Except Halt Console := do
  console.checkRange first last
  return { console with computer := console.computer.fill first last value }

/-- The topmost cells of the stack, the lowest first. A stack pointer that is negative as a signed
number is an address beyond all memory. -/
def stackTop (console : Console) (count : Nat) : Except Halt (List Word) := do
  let pointer ← console.read Register.sp.address
  let last := (pointer.signExtend 64).toNat
  if last < count then console.fail .belowMemory
  console.checkRange (last - count) last
  (List.range' (last - count) count).mapM console.read

end Console

end HackVM
