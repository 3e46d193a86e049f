import RegisterMachine.Arithmetic
import RegisterMachine.CodeReader
import RegisterMachine.Memory
import RegisterMachine.Operand
import RegisterMachine.Registers
import RegisterMachine.Sink
import RegisterMachine.Syscall.Standard

namespace RegisterMachine

/-- A machine with its program. `trace` has the instructions fetched so far with their positions,
the latest first. -/
structure Machine where
  code : CodeReader
  registers : Registers
  memory : Memory
  locations : Locations := .empty
  syscalls : SyscallTable := .standard
  output : Sink := {}
  status : Status := {}
  onWorker : Bool := false
  trace : List (Nat × Opcode) := []

/-- What follows an instruction. -/
inductive Flow
  | next
  | halt (status : Int32)
  | crash
  deriving DecidableEq, Repr

namespace Machine

/-- A machine of the given sizes with a program at the start of its code. -/
def load (sizing : Sizing) (program : List UInt8) : Except LoadError Machine :=
  match sizing.validate with
  | .error cause => .error (.sizing cause)
  | .ok () =>
    match (CodeReader.empty (sizing.codeCapacity.getD program.length)).load program with
    | .error cause => .error cause
    | .ok code =>
      .ok { code
            registers := .empty sizing.registerCount
            memory := .zeroed sizing.memorySize }

/-- Something that a machine does. When it fails, the machine is left as it was at that point. -/
abbrev Action (α : Type) : Type := EStateM Fault Machine α

/-- A reading step on the machine's code. -/
def reading {α : Type} (step : CodeReader.Reading α) : Action α := fun m =>
  match step m.code with
  | .ok x code => .ok x { m with code }
  | .error cause code => .error cause { m with code }

/-- An answer that a part of the machine gives without changing it. -/
def asking {α : Type} (question : Machine → Except Fault α) : Action α := fun m =>
  match question m with
  | .ok x => .ok x m
  | .error cause => .error cause m

/-- A change of the machine that may be refused. -/
def changing (change : Machine → Except Fault Machine) : Action Unit := fun m =>
  match change m with
  | .ok m' => .ok () m'
  | .error cause => .error cause m

/-- Reads one byte of the code. -/
def readByte : Action UInt8 := reading CodeReader.byte

/-- Reads an operand and gives its value, which for a register is what it holds now. -/
def readOperand : Action Value := do
  let offset := (← get).code.cursor
  let kind ← readByte
  match OperandKind.ofCode? kind with
  | some .register =>
    let index ← readByte
    asking fun m => m.registers.get index
  | some .value => reading CodeReader.value
  | none => throw (.invalidOperandKind kind offset)

/-- Writes a register. -/
def setRegister (index : UInt8) (v : Value) : Action Unit :=
  changing fun m => (m.registers.set index v).map fun registers => { m with registers }

/-- Writes a value to memory. -/
def storeValue (address : UInt8) (v : Value) : Action Unit :=
  changing fun m => (m.memory.store address.toNat v).map fun memory => { m with memory }

/-- Reads a value from memory. -/
def fetchValue (address : UInt8) : Action Value :=
  asking fun m => m.memory.load address.toNat

/-- Prints a line. -/
def writeLine (line : String) : Action Unit := fun m =>
  match Sink.writeLine line m.output with
  | .ok () output => .ok () { m with output }
  | .error cause output => .error cause { m with output }

/-- Goes on behind the latest marker of a location. -/
def jumpTo (id : UInt8) : Action Unit := do
  match (← get).locations.find? id with
  | some position => reading (CodeReader.seek position)
  | none => throw (.unresolvedLocation id)

/-- Notes that the marker of a location has been passed. -/
def markHere (id : UInt8) : Action Unit :=
  modify fun m => { m with locations := m.locations.insert id m.code.cursor }

/-- Carries out a system call. Only a machine that has not been started could be asked to run, and
such a machine makes no calls, so the answer is always a refusal. -/
def perform : Script → Action Flow
  | .done => pure .next
  | .fail cause => throw cause
  | .crash => pure .crash
  | .operand next => fun m =>
    match readOperand m with
    | .ok v m' => perform (next (.ok v)) m'
    | .error cause m' => perform (next (.error cause)) m'
  | .line text next => fun m =>
    match writeLine text m with
    | .ok () m' => perform (next (.ok ())) m'
    | .error cause m' => perform (next (.error cause)) m'
  | .register index next => fun m => perform (next (m.registers.get index)) m
  | .run next => fun m =>
    match m.status.begin with
    | .error cause => perform (next (.error cause)) m
    | .ok _ => .ok .crash m
  | .observe next => fun m => perform (next m.status.phase m.status.exitStatus?) m
  | .onWorker next => fun m => perform (next m.onWorker) m

end Machine

/-- The outcome of a test on a value, if the test applies to values of its kind. -/
def Test.holds? : Test → Value → Option Bool
  | zero, v => v.sign?.map (· = .zero)
  | positive, v => v.sign?.map (· = .positive)
  | negative, v => v.sign?.map (· = .negative)
  | nonzero, v => v.sign?.map (· ≠ .zero)
  | isTrue, .bool b => some b
  | isFalse, .bool b => some !b
  | _, _ => none

/-- The kind of value that a test applies to. -/
def Test.demand : Test → Demand
  | isTrue => .boolean
  | isFalse => .boolean
  | _ => .numeric

namespace Machine

/-- Reads the next opcode. -/
def fetch : Action Opcode := do
  let offset := (← get).code.cursor
  if (← get).code.atEnd then
    throw (.missingHalt offset)
  let b ← readByte
  match Opcode.ofCode? b with
  | none => throw (.invalidInstruction b offset)
  | some op =>
    modify fun m => { m with trace := (offset, op) :: m.trace }
    return op

/-- Carries out an instruction whose operands come next in the code. -/
def execute : Opcode → Action Flow
  | .load => do
    let target ← readByte
    let v ← readOperand
    setRegister target v
    return .next
  | .store => do
    let address ← readByte
    let v ← readOperand
    storeValue address v
    return .next
  | .fetch => do
    let address ← readByte
    let target ← readByte
    let v ← fetchValue address
    setRegister target v
    return .next
  | .arithmetic op => do
    let a ← readOperand
    let b ← readOperand
    let target ← readByte
    let v ← asking fun _ => op.apply a b
    setRegister target v
    return .next
  | .halt => do
    let v ← readOperand
    match v.status? with
    | some code => return .halt code
    | none => throw (.typeMismatch .halt .status v.kind)
  | .branch test => do
    let v ← readOperand
    let id ← readByte
    match test.holds? v with
    | some true =>
      jumpTo id
      return .next
    | some false => return .next
    | none => throw (.typeMismatch (.branch test) test.demand v.kind)
  | .jump => do
    let id ← readByte
    jumpTo id
    return .next
  | .mark => do
    let id ← readByte
    markHere id
    return .next
  | .call => do
    let index ← readByte
    let count ← readByte
    let entry ← asking fun m => m.syscalls.get index
    perform (entry.script count)

/-- Carries out one instruction. -/
def step : Action Flow := do
  let op ← fetch
  execute op

end Machine

end RegisterMachine
