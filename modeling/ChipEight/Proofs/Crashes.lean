import ChipEight.Emulator
import ChipEight.Proofs.Chain
import ChipEight.Proofs.Started

/-! How the emulator ends when its machine cannot go on: which faults it reports, and which one escapes
it. -/

namespace ChipEight

open Actions

theorem Ending.ofHalt_ne_escaped {m : Machine} {e : Halt} {f : Fault} (hf : f.ofMachine = true) :
    ofHalt (ofFault m) e ≠ .escaped f := by
  intro hescaped
  cases e with
  | fault g =>
    change (if g.ofMachine then crashed _ else escaped g) = escaped f at hescaped
    split at hescaped
    · cases hescaped
    · next hg =>
      cases hescaped
      exact hg hf
  | dry | exit => cases hescaped

namespace Emulator

section Loading

variable {h : Host} {file : String} {program : Array Byte} {s : Session}

theorem load_nul (hpath : file.contains '\x00' = true) :
    load h file s = .error (.fault (.outOfRange .path)) s := by
  unfold load loadProgram
  rw [hpath]
  rfl

theorem load_unreadable {e : PathError} (hpath : file.contains '\x00' = false)
    (hfile : h.files file = .error e) : ∃ s', load h file s = .ok () s' := by
  unfold load loadProgram
  rw [hpath, hfile]
  exact ⟨_, rfl⟩

theorem load_readable (hpath : file.contains '\x00' = false) (hfile : h.files file = .ok program) :
    load h file s = proceed (loadBytes program s) fun _ =>
      modify fun s => (s.trace h (loaded file)).onMachine Machine.boot := by
  unfold load loadProgram boot
  rw [hpath, hfile]
  show proceed (proceed (loadBytes program s) _) _ = _
  cases loadBytes program s with
  | ok => simp only [proceed_ok, bind_apply, modify_apply, pure_apply]
  | error => rfl

theorem load_fitting (hpath : file.contains '\x00' = false) (hfile : h.files file = .ok program)
    (hsize : program.size ≤ 3584) :
    ∃ s', load h file (.fresh .keyboard) = .ok () s' ∧
      s'.machine = (Session.started .keyboard program.toList).machine ∧ s'.keyboard = .idle := by
  have hload : Machine.fresh.load program =
      .ok { Machine.fresh with memory := Memory.blank.overlay program (512 : Nat) } := by
    rw [Machine.load_eq, if_neg (Nat.not_lt_of_le hsize)]
    rfl
  have hloaded : loadBytes program (.fresh .keyboard) = _ := revise_of_ok hload
  rw [load_readable hpath hfile, hloaded, proceed_ok, modify_apply]
  refine ⟨_, rfl, ?_, ?_⟩
  · rw [Session.started_eq _ (by simpa using hsize), Session.onMachine_machine,
      Session.trace_machine]
    rfl
  · exact Session.trace_keyboard ..

theorem load_oversized (hpath : file.contains '\x00' = false) (hfile : h.files file = .ok program)
    (hsize : 3584 < program.size) :
    load h file s = .error (.fault (.programTooLarge program.size 512)) s := by
  have hload : s.machine.load program = .error (.programTooLarge program.size 512) := by
    rw [Machine.load_eq, if_pos hsize]
  have hloaded : loadBytes program s = .error (.fault (.programTooLarge program.size 512)) s :=
    revise_of_error hload
  rw [load_readable hpath hfile, hloaded, proceed_error]

/-- The file has content that can be read, and more of it than the memory has room for. -/
def Oversized (files : String → Except PathError (Array Byte)) (file : String) : Prop :=
  file.contains '\x00' = false ∧ ∃ program, files file = .ok program ∧ 3584 < program.size

theorem load_error {e : Halt} (hload : load h file (.fresh .keyboard) = .error e s)
    (hfits : ¬ Oversized h.files file) : e = .fault (.outOfRange .path) := by
  cases hpath : file.contains '\x00' with
  | true =>
    rw [load_nul hpath] at hload
    cases hload
    rfl
  | false =>
    cases hfile : h.files file with
    | error =>
      obtain ⟨s₀, hs₀⟩ := load_unreadable (s := .fresh .keyboard) hpath hfile
      rw [hs₀] at hload
      cases hload
    | ok program =>
      have hsize : ¬ 3584 < program.size := fun hsize => hfits ⟨hpath, program, hfile, hsize⟩
      obtain ⟨s₀, hs₀, -⟩ := load_fitting hpath hfile (Nat.le_of_not_lt hsize)
      rw [hs₀] at hload
      cases hload

end Loading

section Frames

variable {h : Host} {clock : Clock} {s t s' : Session}

/-- A frame begins: nobody has asked to quit so far, the clock ticks, and more events arrive. -/
def Begins (clock : Clock) (s t : Session) : Prop :=
  ∃ s₁ s₂ events, pump s = .ok true s₁ ∧ tick clock s₁ = .ok (.ok events) s₂ ∧ t = s₂.receive events

def Sticks (clock : Clock) (s : Session) (why : String) (s' : Session) : Prop :=
  ∃ s₁, pump s = .ok true s₁ ∧ tick clock s₁ = .ok (.error why) s'

theorem turn_of_begins (hbegins : Begins clock s t) (h : Host) :
    turn h clock s = proceed (cycle h t) fun _ => pure .completed := by
  obtain ⟨s₁, s₂, events, hpump, htick, rfl⟩ := hbegins
  have hpost : post events s₂ = .ok () (s₂.receive events) := rfl
  unfold turn
  rw [bind_apply, hpump, proceed_ok, if_pos rfl, bind_apply, htick, proceed_ok]
  dsimp only
  rw [bind_apply, hpost, proceed_ok, bind_apply]

theorem turn_of_sticks {why : String} (hsticks : Sticks clock s why s') (h : Host) :
    turn h clock s = .ok (.stalled why) s' := by
  obtain ⟨s₁, hpump, htick⟩ := hsticks
  unfold turn
  rw [bind_apply, hpump, proceed_ok, if_pos rfl, bind_apply, htick]
  rfl

theorem turn_of_closed (hpump : pump s = .ok false s') (h : Host) (clock : Clock) :
    turn h clock s = .ok .closed s' := by
  unfold turn
  rw [bind_apply, hpump, proceed_ok]
  rfl

theorem begins_of_idle (clock : Clock) {events : List Event} (hidle : s.keyboard = .idle)
    (hclock : clock s.ticks = .ok events) :
    ∃ t, Begins clock s t ∧ t.machine = s.machine ∧ t.source = s.source ∧
      t.keyboard.queue = events := by
  have hpump : pump s = .ok true s := by
    obtain ⟨machine, source, keyboard, _, _, _, _, _, _, _⟩ := s
    obtain rfl : keyboard = .idle := hidle
    rfl
  have htick : tick clock s = .ok (.ok events) { s with ticks := s.ticks + 1 } := by
    rw [tick, hclock]
  refine ⟨_, ⟨s, _, events, hpump, htick, rfl⟩, rfl, rfl, ?_⟩
  rw [Session.receive, Keyboard.post, hidle]
  rfl

/-- A frame the cycle of which is completed. It is listed with the session in which that is begun. -/
def CompletedTurn (h : Host) (clock : Clock) (s t s' : Session) : Prop :=
  Begins clock s t ∧ ∃ op, cycle h t = .ok op s'

def Turns (h : Host) (clock : Clock) : Session → List Session → Session → Prop :=
  Chain (CompletedTurn h clock)

theorem emulate_succ (h : Host) (clock : Clock) (limit : Nat) (s : Session) :
    emulate h clock (limit + 1) s = proceed (turn h clock s) fun last =>
      match last with
      | .completed => emulate h clock limit
      | last => pure last := rfl

theorem Turns.emulate_eq {starts : List Session} (hturns : Turns h clock s starts s')
    (limit : Nat) : emulate h clock (starts.length + limit) s = emulate h clock limit s' := by
  induction hturns with
  | nil => rw [List.length_nil, Nat.zero_add]
  | @cons s s₁ s' t starts hturn _ ih =>
    obtain ⟨hbegins, op, hcycle⟩ := hturn
    rw [List.length_cons, Nat.add_right_comm, emulate_succ, turn_of_begins hbegins, hcycle]
    exact ih

theorem Turns.emulate_next {starts : List Session} (hturns : Turns h clock s starts s')
    {limit : Nat} (hlimit : starts.length < limit) :
    ∃ rest, emulate h clock limit s = emulate h clock (rest + 1) s' := by
  refine ⟨limit - starts.length - 1, ?_⟩
  rw [← hturns.emulate_eq]
  congr 1
  omega

end Frames

/-- A fault is raised while the emulator runs, in the session that it leaves: when the program is
loaded, or in one of the frames. -/
inductive Raises (h : Host) (file : String) (clock : Clock) (waiting : List Event) (limit : Nat)
    (f : Fault) (s : Session) : Prop
  | loading (hload : load h file (.fresh .keyboard) = .error (.fault f) s)
  | running {s₀ s₁ : Session} {starts : List Session}
      (hload : load h file (.fresh .keyboard) = .ok () s₀)
      (hturns : Turns h clock (s₀.receive waiting) starts s₁) (hlimit : starts.length < limit)
      (hturn : turn h clock s₁ = .error (.fault f) s)

/-- The faults of the machine are all reported, and none escapes. -/
structure Reports (h : Host) (file : String) (clock : Clock) (waiting : List Event) (limit : Nat)
    (ending : Ending) : Prop where
  crashed : ∀ f s, f.ofMachine = true → Raises h file clock waiting limit f s →
    ending = .crashed (Ending.crashReport f s.machine)
  contained : ∀ f, f.ofMachine = true → ending ≠ .escaped f

section Start

variable {h : Host} {file : String} {clock : Clock} {waiting : List Event} {limit : Nat}

theorem start_of_load_error {e : Halt} {s : Session}
    (hload : load h file (.fresh .keyboard) = .error e s) :
    start file h clock waiting limit = (Ending.ofHalt .escaped e, s) := by
  rw [start, hload]

def conclusion : EStateM.Result Halt Session FrameEnd → Ending × Session
  | .ok last s => (Ending.ofFrame last, s)
  | .error e s => (Ending.ofHalt (Ending.ofFault s.machine) e, s)

theorem start_of_load {s₀ : Session} (hload : load h file (.fresh .keyboard) = .ok () s₀) :
    start file h clock waiting limit =
      conclusion (emulate h clock limit (s₀.receive waiting)) := by
  rw [start, hload]
  rfl

theorem Raises.crashed {f : Fault} {s : Session} (hf : f.ofMachine = true)
    (hs : Raises h file clock waiting limit f s) (hfits : ¬ Oversized h.files file) :
    (start file h clock waiting limit).1 = .crashed (Ending.crashReport f s.machine) := by
  cases hs with
  | loading hload =>
    cases load_error hload hfits
    cases hf
  | running hload hturns hlimit hturn =>
    obtain ⟨rest, hrest⟩ := hturns.emulate_next hlimit
    rw [start_of_load hload, hrest, emulate_succ, hturn]
    exact if_pos hf

theorem start_contained {f : Fault} (hf : f.ofMachine = true) (hfits : ¬ Oversized h.files file) :
    (start file h clock waiting limit).1 ≠ .escaped f := by
  cases hload : load h file (.fresh .keyboard) with
  | error e s =>
    rw [start_of_load_error hload, load_error hload hfits]
    rintro ⟨⟩
    cases hf
  | ok _ s₀ =>
    rw [start_of_load hload]
    cases emulate h clock limit (s₀.receive waiting) with
    | ok last s => cases last <;> nofun
    | error e s => exact Ending.ofHalt_ne_escaped hf

end Start

section Run

variable {arguments : List String} {o : Options} {w : Window} {tracing : Bool}
  {files : String → Except PathError (Array Byte)} {random : Nat → Int} {d : WindowSystem}
  {waiting : List Event} {limit : Nat}

theorem run_of_window (ho : Options.ofArguments arguments = .ok o)
    (hw : Window.ofOptions d o = .ok w) :
    run arguments tracing files random d waiting limit =
      ⟨some o, some w,
        (start w.file (host o tracing files random) (d.clock o.speed) waiting limit).1,
        (start w.file (host o tracing files random) (d.clock o.speed) waiting limit).2⟩ := by
  rw [run, ho]
  dsimp only
  rw [hw]

theorem run_oversized (ho : Options.ofArguments arguments = .ok o)
    (hw : Window.ofOptions d o = .ok w) {program : Array Byte}
    (hpath : w.file.contains '\x00' = false) (hfile : files w.file = .ok program)
    (hsize : 3584 < program.size) :
    (run arguments tracing files random d waiting limit).ending =
      .escaped (.programTooLarge program.size 512) := by
  have hload : load (host o tracing files random) w.file (.fresh .keyboard) =
      .error (.fault (.programTooLarge program.size 512)) (.fresh .keyboard) :=
    load_oversized hpath hfile hsize
  rw [run_of_window ho hw, start_of_load_error hload]
  rfl

end Run

/-- The emulator reports the faults of its machine exactly if the program is not too large. -/
theorem reports_iff_not_oversized {arguments : List String} {o : Options} {d : WindowSystem}
    {w : Window} (ho : Options.ofArguments arguments = .ok o) (hw : Window.ofOptions d o = .ok w)
    (tracing : Bool) (files : String → Except PathError (Array Byte)) (random : Nat → Int)
    (waiting : List Event) (limit : Nat) :
    Reports (host o tracing files random) w.file (d.clock o.speed) waiting limit
        (run arguments tracing files random d waiting limit).ending ↔
      ¬ Oversized files w.file := by
  constructor
  · rintro hreports ⟨hpath, program, hfile, hsize⟩
    exact hreports.contained _ rfl (run_oversized ho hw hpath hfile hsize)
  · intro hfits
    rw [run_of_window ho hw]
    exact ⟨fun f s hf hs => hs.crashed hf hfits, fun f hf => start_contained hf hfits⟩

section Example

def namedProgram : Options :=
  { Options.standard with file := "rom.ch8" }

def holding (program : List Byte) : Host :=
  host namedProgram false (fun _ => .ok program.toArray) fun _ => 0

def unattended : WindowSystem :=
  .standard fun _ => []

def endingWith (program : List Byte) (limit : Nat) : Ending :=
  (run ["-f", "rom.ch8"] false (holding program).files (fun _ => 0) unattended [] limit).ending

theorem ofArguments_namedProgram : Options.ofArguments ["-f", "rom.ch8"] = .ok namedProgram := rfl

theorem splitOnAux_of_ne {s sep : String} {b i : String.Pos.Raw} (hend : i.atEnd s = false)
    (hne : (i.get s == String.Pos.Raw.get sep 0) = false) (r : List String) :
    s.splitOnAux sep b i 0 r = s.splitOnAux sep b (i.next s) 0 r := by
  rw [String.splitOnAux, hend, hne]
  rfl

theorem titleOf_namedProgram : Window.titleOf "rom.ch8" = "rom.ch8" := by
  have hsplit : "rom.ch8".splitOn "/" = ["rom.ch8"] := by
    rw [String.splitOn, if_neg (by decide)]
    iterate 7 rw [splitOnAux_of_ne (by decide) (by decide)]
    rw [String.splitOnAux, if_pos (by decide)]
    decide
  rw [Window.titleOf, hsplit]
  rfl

theorem namedProgram_contains : "rom.ch8".contains '\x00' = false := by
  simp

theorem ofOptions_of_title {file : String} (events : Nat → List Event)
    (htitle : (Window.titleOf file).contains '\x00' = false) :
    Window.ofOptions (.standard events) { Options.standard with file := file } =
      .ok ⟨file, 960, 480⟩ := by
  have hentitled : (WindowSystem.standard events).entitle (Window.titleOf file) = .ok () :=
    if_neg (Bool.eq_false_iff.1 htitle)
  unfold Window.ofOptions
  dsimp only
  rw [hentitled]
  rfl

theorem ofOptions_namedProgram (events : Nat → List Event) :
    Window.ofOptions (.standard events) namedProgram = .ok ⟨"rom.ch8", 960, 480⟩ := by
  refine ofOptions_of_title events ?_
  rw [titleOf_namedProgram, namedProgram_contains]

theorem oversized_not_reported :
    endingWith (List.replicate 3585 0xFF) 3 = .escaped (.programTooLarge 3585 512) ∧
      ¬ Reports (holding (List.replicate 3585 0xFF)) "rom.ch8" (fun _ => .ok []) [] 3
        (endingWith (List.replicate 3585 0xFF) 3) := by
  have hsize : (List.replicate 3585 (0xFF : Byte)).toArray.size = 3585 := by
    rw [List.size_toArray, List.length_replicate]
  have hescaped : endingWith (List.replicate 3585 0xFF) 3 =
      .escaped (.programTooLarge (List.replicate 3585 (0xFF : Byte)).toArray.size 512) :=
    run_oversized ofArguments_namedProgram (ofOptions_namedProgram _) namedProgram_contains rfl
      (by rw [hsize]; decide)
  rw [hsize] at hescaped
  exact ⟨hescaped, fun hreports => hreports.contained _ rfl hescaped⟩

theorem unknown_opcode_reported :
    ∃ s, Raises (holding [0xFF, 0xFF]) "rom.ch8" (fun _ => .ok []) [] 1 (.unknownOpcode 0xFFFF) s ∧
      endingWith [0xFF, 0xFF] 1 = .crashed (Ending.crashReport (.unknownOpcode 0xFFFF) s.machine) := by
  have hraised : ∃ s, Raises (holding [0xFF, 0xFF]) "rom.ch8" (fun _ => .ok []) [] 1
      (.unknownOpcode 0xFFFF) s := by
    obtain ⟨s₀, hload, hmachine, hidle⟩ := load_fitting (h := holding [0xFF, 0xFF])
      namedProgram_contains rfl (by decide)
    have hcounter : s₀.machine.counter = 512 := by
      rw [hmachine, Session.started_counter _ (by decide)]
    have hdecode : decode s₀.machine.word = .error (.unknownOpcode 0xFFFF) := by
      rw [hmachine, Session.started_word _ (by decide) (by decide)]
      rfl
    have hhalts : ∀ s : Session, s.machine = s₀.machine →
        Halts (holding [0xFF, 0xFF]) s (.fault (.unknownOpcode 0xFFFF))
          (s.announced (holding [0xFF, 0xFF])) := by
      intro s hs
      refine .decode ?_ (by rw [hs, hdecode])
      rw [hs, hcounter]
      decide
    have hidle' : (s₀.receive []).keyboard = .idle := by
      rw [Session.receive, hidle]
      rfl
    obtain ⟨t, hbegins, ht, -⟩ := begins_of_idle (fun _ => .ok []) hidle' rfl
    have hturn := turn_of_begins hbegins (holding [0xFF, 0xFF])
    rw [(hhalts t ht).cycle_eq, proceed_error] at hturn
    exact ⟨_, .running hload (.nil _) (by decide) hturn⟩
  have hfits : ¬ Oversized (holding [0xFF, 0xFF]).files "rom.ch8" := by
    rintro ⟨-, program, hfile, hsize⟩
    cases hfile
    exact absurd hsize (by decide)
  have hreports := (reports_iff_not_oversized ofArguments_namedProgram
    (ofOptions_namedProgram fun _ => []) false (holding [0xFF, 0xFF]).files (fun _ => 0) [] 1).2 hfits
  obtain ⟨s, hs⟩ := hraised
  exact ⟨s, hs, hreports.crashed _ s rfl hs⟩

end Example

end Emulator

end ChipEight
