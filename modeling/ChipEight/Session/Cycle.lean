import ChipEight.Instruction.Mnemonic
import ChipEight.Machine.Perform
import ChipEight.Session.State

/-! The cycle of a machine: fetch, decode, execute, count down the timers, show the screen. -/

namespace ChipEight

namespace SessionM

def ofExcept {α : Type} : Except Fault α → SessionM α
  | .ok a => pure a
  | .error f => throw (.fault f)

def ofMachine {α : Type} (work : MachineM α) : SessionM α := fun s =>
  match work s.machine with
  | .ok a m => .ok a { s with machine := m }
  | .error f m => .error (.fault f) { s with machine := m }

def askRandom (h : Host) (low high : Int) : SessionM Int := fun s =>
  .ok (h.random s.asked.size) { s with asked := s.asked.push (low, high) }

def awaitKey : SessionM Int := fun s =>
  match s.source with
  | .absent => .error (.fault .noKeySource) s
  | .script names =>
    let found := s.machine.keypad.search names
    let s := { s with source := .script found.rest, polls := s.polls + found.polls }
    match found.found with
    | some code => .ok code s
    | none => .error .dry s
  | .keyboard =>
    let wait := s.machine.keypad.await s.keyboard.queue
    let s := { s with
      machine := { s.machine with keypad := wait.keypad }
      keyboard := { s.keyboard with queue := wait.rest } }
    match wait.ended with
    | .key code => .ok code s
    | .quit => .error (.exit 0) s
    | .dry => .error .dry s

end SessionM

open SessionM

def decodeIntTraced (h : Host) (v : Int) : SessionM Opcode := do
  let w ← ofExcept (fit 16 (.word v) v)
  modify (·.trace h (Word.traceMark w))
  ofExcept (decode w)

def answerTo (h : Host) (f : Form) : SessionM Int :=
  match f with
  | .rand => askRandom h 0 255
  | .waitKey => awaitKey
  | _ => pure 0

/-- Carries out a decoded instruction; one that fails leaves no line in the trace. -/
def execute (h : Host) (op : Opcode) : SessionM Unit := do
  modify (·.onMachine (·.enter op))
  let answer ← answerTo h op.form
  ofMachine (op.perform answer)
  modify fun s => s.trace h (op.traceLine s.machine.current)

/-- Fetches, decodes and executes an instruction, then counts the timers down and shows the
screen. One that fails does neither. -/
def cycle (h : Host) : SessionM Opcode := do
  modify (·.onMachine fun m => { m with dirty := false })
  let w ← ofExcept (← get).machine.fetch
  let op ← decodeIntTraced h w.toNat
  execute h op
  modify fun s => (s.tickTimers h).present h
  return op

def runFor (h : Host) : (limit count : Nat) → SessionM Nat
  | 0, count => pure count
  | limit + 1, count => do
    if (← get).machine.running then
      let _ ← cycle h
      runFor h limit (count + 1)
    else return count

def run (h : Host) (limit : Int) : SessionM Nat := do
  modify (·.onMachine fun m => { m with running := true })
  let count ← runFor h limit.toNat 0
  modify (·.onMachine fun m => { m with running := false })
  return count

def executeInt (h : Host) (v : Int) : SessionM Unit := do
  execute h (← decodeIntTraced h v)

def stop : SessionM Unit :=
  modify (·.grant .stop)

end ChipEight
