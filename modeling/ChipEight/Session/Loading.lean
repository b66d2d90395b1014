import ChipEight.Session.Cycle

/-! Loading programs, from bytes and from files. -/

namespace ChipEight

def boot : SessionM Unit :=
  modify (·.onMachine Machine.boot)

def revise (f : Machine → Except Fault Machine) : SessionM Unit := fun s =>
  match f s.machine with
  | .ok m => .ok () { s with machine := m }
  | .error f => .error (.fault f) s

def loadBytes (program : Array Byte) : SessionM Unit :=
  revise (·.load program)

def unreadable (path : String) (e : PathError) : String :=
  "WARNING: unable to read ROM at path " ++ path ++ " (" ++ e.message ++
    "), starting with an empty program\n"

def loaded (path : String) : String :=
  "The ROM at path " ++ path ++ " has been loaded successfully\n"

/-- Loads a file. One that cannot be read leaves the machine as it is and gives a warning; a path
that cannot be one is a fault. -/
def loadProgram (h : Host) (path : String) : SessionM Bool := do
  if path.contains '\x00' then throw (.fault (.outOfRange .path))
  match h.files path with
  | .error e =>
    modify (·.print (.notice (unreadable path e)))
    return false
  | .ok program =>
    loadBytes program
    modify (·.trace h (loaded path))
    return true

end ChipEight
