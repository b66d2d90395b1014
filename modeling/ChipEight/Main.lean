import ChipEight.Emulator

/-! The command line. Each line of standard input holds the events of a frame, such as +w for a key
that goes down, -w for one that goes up, or quit; the window is closed at the end of the input. -/

namespace ChipEight

def Event.ofWord (word : String) : Event :=
  match word.toList with
  | '+' :: key => .keyDown (String.ofList key)
  | '-' :: key => .keyUp (String.ofList key)
  | _ => if word = "quit" then .close else .other

def readFile (path : String) : IO (Except PathError (Array Byte)) := do
  try
    let content ← IO.FS.readBinFile path
    return .ok (content.data.map (·.toBitVec))
  catch
    | .noFileOrDirectory .. => return .error .missing
    | e => return .error (.other (toString e))

def printNew (s : Session) : IO Session := do
  let printed := s.printed.toList
  IO.eprint (warningsOf printed)
  IO.print (outputOf printed)
  (← IO.getStdout).flush
  return { s with printed := #[] }

partial def loop (h : Host) (s : Session) : IO (Ending × Session) := do
  let line ← (← IO.getStdin).getLine
  let events := if line.isEmpty then [.close]
    else ((line.trimAscii.toString.splitOn " ").filter (· ≠ "")).map Event.ofWord
  let random ← IO.rand 0 255
  match Emulator.turn { h with random := fun _ => random } (fun _ => .ok events) s with
  | .error e s => return (.ofHalt (Ending.ofFault s.machine) e, s)
  | .ok .completed s => loop h (← printNew s)
  | .ok last s => return (.ofFrame last, s)

def Ending.leave : Ending → IO UInt32
  | returned => return 0
  | left status => return UInt32.ofNat status
  | crashed report => do IO.eprintln report; return 1
  | escaped f => do IO.eprintln f.message; return 1
  | noWindow e => do IO.eprintln e.message; return 1
  | stalled why => do IO.eprintln why; return 1
  | dry | unfinished => return 1

end ChipEight

open ChipEight in
def main (arguments : List String) : IO UInt32 := do
  match tracingOf (← IO.getEnv "DEBUG") with
  | .error e => IO.eprintln e.message; return 1
  | .ok tracing =>
    match Options.ofArguments arguments with
    | .error r => IO.eprint r.notice; return UInt32.ofNat r.status
    | .ok o =>
      match Window.ofOptions (.standard fun _ => []) o with
      | .error e => (Ending.noWindow e).leave
      | .ok w =>
        let content ← readFile w.file
        let h := Emulator.host o tracing (fun _ => content) (fun _ => 0)
        match Emulator.load h w.file (.fresh .keyboard) with
        | .error e s =>
          let _ ← printNew s
          (Ending.ofHalt .escaped e).leave
        | .ok _ s =>
          let (ending, s) ← loop h (← printNew s)
          let _ ← printNew s
          ending.leave
