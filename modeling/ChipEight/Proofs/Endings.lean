import ChipEight.Proofs.Crashes
import ChipEight.Proofs.Ledger
import ChipEight.Proofs.Runs

/-! How the emulator ends, and which cycles it has begun by then. -/

namespace ChipEight

open Actions

namespace Emulator

/-- The ways in which the frames come to an end, or to their limit, each with the cycles that were begun
until then. -/
inductive Ends (h : Host) (clock : Clock) (limit : Nat) (s₀ : Session) :
    List Session → Ending → Session → Prop
  | returned {starts : List Session} {s s' : Session} {e : Event}
      (hturns : Turns h clock s₀ starts s) (hpump : pump s = .ok false s')
      (he : e ∈ s.keyboard.queue) (hquit : e.isQuit = true) :
      Ends h clock limit s₀ starts .returned s'
  | left {starts : List Session} {s t s' : Session} {op : Opcode} {before : List Event} {e : Event}
      (hturns : Turns h clock s₀ starts s) (hbegins : Begins clock s t)
      (hcycle : cycle h t = .error (.exit 0) s') (hnext : t.machine.Next op)
      (hform : op.form = .waitKey) (hqueue : t.keyboard.queue = before ++ e :: s'.keyboard.queue)
      (hquit : e.isQuit = true) : Ends h clock limit s₀ (starts ++ [t]) (.left 0) s'
  | crashed {starts : List Session} {s t s' : Session} {f : Fault}
      (hturns : Turns h clock s₀ starts s) (hbegins : Begins clock s t)
      (hcycle : cycle h t = .error (.fault f) s') (hf : f.ofMachine = true) :
      Ends h clock limit s₀ (starts ++ [t]) (.crashed (Ending.crashReport f s'.machine)) s'
  | dry {starts : List Session} {s t s' : Session} {op : Opcode}
      (hturns : Turns h clock s₀ starts s) (hbegins : Begins clock s t)
      (hcycle : cycle h t = .error .dry s') (hnext : t.machine.Next op)
      (hform : op.form = .waitKey) (hempty : s'.keyboard.queue = []) :
      Ends h clock limit s₀ (starts ++ [t]) .dry s'
  | unfinished {starts : List Session} {s : Session} (hturns : Turns h clock s₀ starts s)
      (hlimit : starts.length = limit) : Ends h clock limit s₀ starts .unfinished s

section Cycle

variable {h : Host} {s s' : Session} {op : Opcode}

theorem concluded_keyboard (s : Session) (h : Host) (op : Opcode) (answer : Int) :
    (s.concluded h op answer).keyboard = s.keyboard := by
  unfold Session.concluded
  rw [Session.present_eq, Session.tickTimers_eq]
  exact Session.trace_keyboard ..

theorem begun_keyboard (s : Session) (h : Host) (op : Opcode) :
    (s.begun h op).keyboard = s.keyboard :=
  Session.trace_keyboard s.cleared h _

theorem begun_source (s : Session) (h : Host) (op : Opcode) : (s.begun h op).source = s.source :=
  Session.trace_source s.cleared h _

theorem cycle_takes_unquit (hsource : s.source = .keyboard) (hs : cycle h s = .ok op s') :
    ∃ taken, s.keyboard.queue = taken ++ s'.keyboard.queue ∧ ∀ e ∈ taken, e.isQuit = false := by
  obtain ⟨answer, s₁, hc, rfl⟩ := cycle_ok_iff.1 hs
  have hkeyboard := begun_keyboard s h op
  have hbegun := (begun_source s h op).trans hsource
  have hanswered := hc.answered
  rw [concluded_keyboard, ← hkeyboard]
  -- only a wait for a key takes events, and it does not return from a request to quit
  by_cases hkey : op.form = .waitKey
  · rw [hkey] at hanswered
    obtain ⟨_, taken, _, hok, hqueue, hunquit⟩ | ⟨_, _, _, herror, -⟩ | ⟨_, herror, -⟩ :=
      Session.awaitKey_cases hbegun
    · cases hok.symm.trans hanswered
      exact ⟨taken, hqueue, hunquit⟩
    · cases herror.symm.trans hanswered
    · cases herror.symm.trans hanswered
  · have hunasked : s₁.keyboard = (s.begun h op).keyboard := by
      generalize op.form = f at hkey hanswered
      cases answerTo_answered hanswered with
      | unasked | random => rfl
      | script | keyboard => exact absurd rfl hkey
    exact ⟨[], congrArg Keyboard.queue hunasked.symm, List.forall_mem_nil _⟩

end Cycle

/-- The events that arrive before a frame: those that are waiting before the first one, and those that
have arrived when the clock has ticked in the one before. -/
def arrivals (clock : Clock) (waiting : List Event) : Nat → List Event
  | 0 => waiting
  | n + 1 => (clock n).toOption.getD []

/-- A session between two frames, the first `n` of which are over: a request to quit that arrived before
is still waiting. -/
structure Between (clock : Clock) (waiting : List Event) (n : Nat) (s : Session) : Prop where
  source_eq : s.source = .keyboard
  requested_eq : s.keyboard.quitRequested = false
  ticks_eq : s.ticks = n
  pending : ∀ j ≤ n, ∀ e ∈ arrivals clock waiting j, e.isQuit = true → e ∈ s.keyboard.queue

/-- A session in which the cycle of frame `n` is begun. The clock has ticked once for each of the frames up
to there. All events that arrived before the frame have been taken, and nobody has asked to quit by any of
them. -/
structure Begun (clock : Clock) (waiting : List Event) (n : Nat) (t : Session) : Prop where
  source_eq : t.source = .keyboard
  requested_eq : t.keyboard.quitRequested = false
  ticks_eq : t.ticks = n + 1
  queue_eq : clock n = .ok t.keyboard.queue
  unquit : ∀ j ≤ n, ∀ e ∈ arrivals clock waiting j, e.isQuit = false

/-- All cycles are begun one tick after the other, and none after a request to quit has been taken. -/
def InOrder (clock : Clock) (waiting : List Event) (starts : List Session) : Prop :=
  ∀ n t, starts[n]? = some t → Begun clock waiting n t

theorem InOrder.snoc {clock : Clock} {waiting : List Event} {starts : List Session} {t : Session}
    (hstarts : InOrder clock waiting starts) (ht : Begun clock waiting starts.length t) :
    InOrder clock waiting (starts ++ [t]) := by
  intro n u hu
  obtain hlt | heq | hgt := Nat.lt_trichotomy n starts.length
  · rw [List.getElem?_append_left hlt] at hu
    exact hstarts n u hu
  · rw [heq, List.getElem?_concat_length] at hu
    cases hu
    exact heq ▸ ht
  · have hnone : (starts ++ [t])[n]? = none := by
      rw [List.getElem?_eq_none_iff, List.length_append]
      exact hgt
    rw [hnone] at hu
    cases hu

section Frame

variable {h : Host} {clock : Clock} {waiting : List Event} {n : Nat} {s t s' : Session} {op : Opcode}

theorem Between.pump_eq (hs : Between clock waiting n s)
    (hnone : s.keyboard.queue.any Event.isQuit = false) :
    ∃ s₁, pump s = .ok true s₁ ∧ s₁.source = .keyboard ∧ s₁.keyboard = .idle ∧ s₁.ticks = n := by
  have hpump := Session.pump_apply s
  rw [hs.requested_eq, hnone] at hpump
  exact ⟨_, hpump, hs.source_eq, rfl, hs.ticks_eq⟩

theorem Between.begins (hs : Between clock waiting n s)
    (hnone : s.keyboard.queue.any Event.isQuit = false) {events : List Event}
    (hclock : clock n = .ok events) : ∃ t, Begins clock s t ∧ Begun clock waiting n t := by
  obtain ⟨s₁, hpump, hsource, hidle, hticks⟩ := hs.pump_eq hnone
  have htick : tick clock s₁ = .ok (.ok events) { s₁ with ticks := s₁.ticks + 1 } := by
    rw [tick, hticks, hclock]
  have hqueue : (s₁.keyboard.post events).queue = events := by
    rw [hidle]
    rfl
  have hrequested : (s₁.keyboard.post events).quitRequested = false := by
    rw [hidle]
    rfl
  -- an earlier request to quit would still be waiting, and the pump would have met it
  have hunquit : ∀ j ≤ n, ∀ e ∈ arrivals clock waiting j, e.isQuit = false := by
    intro j hj e he
    refine Bool.eq_false_iff.2 fun hquit => ?_
    have hany := List.any_eq_true.2 ⟨e, hs.pending j hj e he hquit, hquit⟩
    rw [hnone] at hany
    cases hany
  exact ⟨_, ⟨s₁, _, events, hpump, htick, rfl⟩, hsource, hrequested, congrArg (· + 1) hticks,
    hclock.trans (congrArg Except.ok hqueue.symm), hunquit⟩

theorem Between.sticks (hs : Between clock waiting n s)
    (hnone : s.keyboard.queue.any Event.isQuit = false) {why : String}
    (hclock : clock n = .error why) : ∃ s', Sticks clock s why s' := by
  obtain ⟨s₁, hpump, -, -, hticks⟩ := hs.pump_eq hnone
  refine ⟨{ s₁ with ticks := s₁.ticks + 1 }, s₁, hpump, ?_⟩
  rw [tick, hticks, hclock]

theorem Between.closes (hs : Between clock waiting n s)
    (hsome : s.keyboard.queue.any Event.isQuit = true) :
    ∃ s', pump s = .ok false s' ∧ s'.ticks = n := by
  have hpump := Session.pump_apply s
  rw [hs.requested_eq, hsome] at hpump
  exact ⟨_, hpump, hs.ticks_eq⟩

theorem Begun.completed (ht : Begun clock waiting n t) (hh : h.LeavesKeys)
    (hcycle : cycle h t = .ok op s') : Between clock waiting (n + 1) s' := by
  obtain ⟨_, hconsumed⟩ := cycle_consumes hh t
  rw [leftBy_of_ok hcycle] at hconsumed
  obtain ⟨taken, hqueue, hunquit⟩ := cycle_takes_unquit ht.source_eq hcycle
  have harrived : arrivals clock waiting (n + 1) = taken ++ s'.keyboard.queue := by
    rw [arrivals, ht.queue_eq, ← hqueue]
    rfl
  refine ⟨hconsumed.source_eq ht.source_eq, hconsumed.requested_eq.trans ht.requested_eq,
    hconsumed.ticks_eq.trans ht.ticks_eq, fun j hj e he hquit => ?_⟩
  obtain hle | rfl := Nat.le_succ_iff.1 hj
  · rw [ht.unquit j hle e he] at hquit
    cases hquit
  · rw [harrived, List.mem_append] at he
    refine he.resolve_left fun htaken => ?_
    rw [hunquit e htaken] at hquit
    cases hquit

theorem Begun.halted (ht : Begun clock waiting n t) (hh : h.LeavesKeys) {e : Halt}
    (hcycle : cycle h t = .error e s') : s'.ticks = n + 1 := by
  obtain ⟨_, hconsumed⟩ := cycle_consumes hh t
  rw [leftBy_of_error hcycle] at hconsumed
  exact hconsumed.ticks_eq.trans ht.ticks_eq

end Frame

section Ends

variable {h : Host} {clock : Clock} {waiting : List Event} {limit : Nat} {s₀ s t s' : Session}
  {starts : List Session}

theorem Ends.of_cycle_error {e : Halt} (hturns : Turns h clock s₀ starts s)
    (hbegins : Begins clock s t) (hsource : t.source = .keyboard)
    (hcycle : cycle h t = .error e s') :
    Ends h clock limit s₀ (starts ++ [t]) (Ending.ofHalt (Ending.ofFault s'.machine) e) s' := by
  have hcrashed : ∀ {f : Fault}, e = .fault f → f.ofMachine = true →
      Ends h clock limit s₀ (starts ++ [t]) (Ending.ofHalt (Ending.ofFault s'.machine) e) s' := by
    rintro f rfl hf
    rw [Ending.ofHalt, Ending.ofFault, if_pos hf]
    exact .crashed hturns hbegins hcycle hf
  cases cycle_error_iff.1 hcycle with
  | fetch => exact hcrashed rfl rfl
  | decode hc hd =>
    obtain ⟨rfl, -⟩ := decode_eq_error_iff.1 hd
    exact hcrashed rfl rfl
  | perform hc hd ha hf =>
    refine hcrashed rfl ?_
    cases Machine.fault?_eq_some_iff.1 hf <;> rfl
  | answer hc hd ha =>
    have hnext := Machine.next_iff.2 ⟨hc, hd⟩
    obtain ⟨hform, hkey⟩ := answerTo_error ha
    obtain ⟨_, _, _, hok, -⟩ | ⟨before, q, _, hleft, hqueue, hquit⟩ | ⟨_, hdry, hempty⟩ :=
      Session.awaitKey_cases ((begun_source ..).trans hsource)
    · cases hok.symm.trans hkey
    · cases hleft.symm.trans hkey
      rw [begun_keyboard] at hqueue
      exact .left hturns hbegins hcycle hnext hform hqueue hquit
    · cases hdry.symm.trans hkey
      exact .dry hturns hbegins hcycle hnext hform hempty

/-- The cycles that were begun until an ending: one for each tick of the clock. -/
def Accounts (h : Host) (clock : Clock) (waiting : List Event) (limit : Nat) (s₀ : Session)
    (ending : Ending) (s : Session) : Prop :=
  ∃ starts, Ends h clock limit s₀ starts ending s ∧ s.ticks = starts.length ∧
    InOrder clock waiting starts

theorem Accounts.finished {ending : Ending} (hs : Accounts h clock waiting limit s₀ ending s)
    {n : Nat} (hn : n < limit) {e : Event} (he : e ∈ arrivals clock waiting n)
    (hquit : e.isQuit = true) : ending ≠ .unfinished := by
  rintro rfl
  obtain ⟨starts, hends, -, hstarts⟩ := hs
  cases hends with
  | unfinished hturns hlimit =>
    have hlast : starts[n]? = some starts[n] := List.getElem?_eq_getElem (by omega)
    have hunquit := (hstarts n _ hlast).unquit n (Nat.le_refl n) e he
    rw [hquit] at hunquit
    cases hunquit

def Stalls (h : Host) (clock : Clock) (limit : Nat) (s₀ : Session) : Prop :=
  ∃ starts s why s', Turns h clock s₀ starts s ∧ starts.length < limit ∧ Sticks clock s why s'

theorem not_stalls_of_ticks (hclock : ∀ n, ∃ events, clock n = .ok events) :
    ¬ Stalls h clock limit s₀ := by
  rintro ⟨starts, s, why, s', -, -, s₁, -, htick⟩
  obtain ⟨events, hevents⟩ := hclock s₁.ticks
  rw [tick, hevents] at htick
  cases htick

theorem Stalls.emulate_eq (hstalls : Stalls h clock limit s₀) :
    ∃ why s', emulate h clock limit s₀ = .ok (.stalled why) s' := by
  obtain ⟨starts, s, why, s', hturns, hlimit, hsticks⟩ := hstalls
  obtain ⟨rest, hrest⟩ := hturns.emulate_next hlimit
  refine ⟨why, s', ?_⟩
  rw [hrest, emulate_succ, turn_of_sticks hsticks]
  rfl

theorem emulate_accounts (hh : h.LeavesKeys) (hticks : ¬ Stalls h clock limit s₀) {fuel : Nat}
    (hturns : Turns h clock s₀ starts s) (hs : Between clock waiting starts.length s)
    (hstarts : InOrder clock waiting starts) (hlimit : starts.length + fuel = limit) :
    Accounts h clock waiting limit s₀ (conclusion (emulate h clock fuel s)).1
      (conclusion (emulate h clock fuel s)).2 := by
  -- on the frames that are left: a completed one leaves a session between two frames again
  induction fuel generalizing starts s with
  | zero => exact ⟨starts, .unfinished hturns hlimit, hs.ticks_eq, hstarts⟩
  | succ fuel ih =>
    rw [emulate_succ]
    cases hquit : s.keyboard.queue.any Event.isQuit with
    | true =>
      obtain ⟨e, he, hequit⟩ := List.any_eq_true.1 hquit
      obtain ⟨s', hpump, hticks⟩ := hs.closes hquit
      rw [turn_of_closed hpump, proceed_ok]
      exact ⟨starts, .returned hturns hpump he hequit, hticks, hstarts⟩
    | false =>
      cases hclock : clock starts.length with
      | error why =>
        obtain ⟨s', hsticks⟩ := hs.sticks hquit hclock
        exact absurd ⟨starts, s, why, s', hturns, by omega, hsticks⟩ hticks
      | ok events =>
        obtain ⟨t, hbegins, ht⟩ := hs.begins hquit hclock
        have hlength : (starts ++ [t]).length = starts.length + 1 := List.length_append
        rw [turn_of_begins hbegins]
        cases hcycle : cycle h t with
        | error e s' =>
          have hticks : s'.ticks = (starts ++ [t]).length :=
            (ht.halted hh hcycle).trans hlength.symm
          exact ⟨starts ++ [t], .of_cycle_error hturns hbegins ht.source_eq hcycle, hticks,
            hstarts.snoc ht⟩
        | ok op s' =>
          exact ih (hturns.concat ⟨hbegins, op, hcycle⟩) (hlength.symm ▸ ht.completed hh hcycle)
            (hstarts.snoc ht) (by omega)

end Ends

section Start

variable {h : Host} {file : String} {s₀ : Session}

def opening (h : Host) (file : String) (waiting : List Event) : Session :=
  (leftBy (load h file) (.fresh .keyboard)).receive waiting

theorem leftBy_load_loaded (h : Host) (file : String) :
    (Session.fresh .keyboard).Loaded (leftBy (load h file) (.fresh .keyboard)) := by
  have hkeeps : Keeps (Session.fresh .keyboard).Loaded (load h file) :=
    .bind (Session.loadProgram_loaded h file) fun _ => Session.boot_loaded
  exact hkeeps _ (.refl _)

theorem opening_between (h : Host) (file : String) (clock : Clock) (waiting : List Event) :
    Between clock waiting 0 (opening h file waiting) := by
  obtain ⟨_, _, _, hloaded⟩ := leftBy_load_loaded h file
  rw [opening, hloaded]
  refine ⟨rfl, rfl, rfl, fun j hj e he _ => ?_⟩
  rw [Nat.le_zero.1 hj] at he
  exact he

theorem load_ok (hpath : file.contains '\x00' = false) (hfits : ¬ Oversized h.files file) :
    load h file (.fresh .keyboard) = .ok () (leftBy (load h file) (.fresh .keyboard)) := by
  have hok : ∃ s, load h file (.fresh .keyboard) = .ok () s := by
    cases hfile : h.files file with
    | error e => exact load_unreadable hpath hfile
    | ok program =>
      have hsize : ¬ 3584 < program.size := fun hsize => hfits ⟨hpath, program, hfile, hsize⟩
      obtain ⟨s, hs, -⟩ := load_fitting hpath hfile (Nat.le_of_not_lt hsize)
      exact ⟨s, hs⟩
  obtain ⟨s, hs⟩ := hok
  rw [leftBy_of_ok hs, hs]

theorem start_of_fitting (hpath : file.contains '\x00' = false)
    (hfits : ¬ Oversized h.files file) (clock : Clock) (waiting : List Event) (limit : Nat) :
    start file h clock waiting limit =
      conclusion (emulate h clock limit (opening h file waiting)) :=
  start_of_load (load_ok hpath hfits)

end Start

section Run

theorem host_leavesKeys (o : Options) (tracing : Bool)
    (files : String → Except PathError (Array Byte)) (random : Nat → Int) :
    (host o tracing files random).LeavesKeys := by
  constructor
  · rintro renderer ⟨rfl⟩ n frame r ⟨⟩
  · rintro beeper ⟨rfl⟩ n r ⟨⟩

/-- The emulator ends in one of the expected ways, with the ticks and the cycles accounted for, and does end
when asked to, exactly if there is no NUL character in the path of the program and the clock ticks in every
frame. -/
theorem accounts_iff_no_nul_and_ticks {arguments : List String} {o : Options} {d : WindowSystem}
    {w : Window} (ho : Options.ofArguments arguments = .ok o) (hw : Window.ofOptions d o = .ok w)
    (tracing : Bool) {files : String → Except PathError (Array Byte)}
    (hfits : ¬ Oversized files w.file) (random : Nat → Int) (waiting : List Event) (limit : Nat) :
    Accounts (host o tracing files random) (d.clock o.speed) waiting limit
        (opening (host o tracing files random) w.file waiting)
        (run arguments tracing files random d waiting limit).ending
        (run arguments tracing files random d waiting limit).session ∧
      (∀ n < limit, ∀ e ∈ arrivals (d.clock o.speed) waiting n, e.isQuit = true →
        (run arguments tracing files random d waiting limit).ending ≠ .unfinished) ↔
      w.file.contains '\x00' = false ∧
        ¬ Stalls (host o tracing files random) (d.clock o.speed) limit
          (opening (host o tracing files random) w.file waiting) := by
  rw [run_of_window ho hw]
  constructor
  · rintro ⟨⟨_, hends, -⟩, -⟩
    have hpath : w.file.contains '\x00' = false := by
      refine Bool.eq_false_iff.2 fun hpath => ?_
      rw [start_of_load_error (load_nul hpath)] at hends
      cases hends
    refine ⟨hpath, fun hstalls => ?_⟩
    obtain ⟨why, s', hs⟩ := hstalls.emulate_eq
    rw [start_of_fitting hpath hfits, hs] at hends
    cases hends
  · rintro ⟨hpath, hticks⟩
    have haccounts := emulate_accounts (host_leavesKeys ..) hticks (.nil _)
      (opening_between _ w.file _ waiting) nofun (Nat.zero_add limit)
    rw [start_of_fitting hpath hfits]
    exact ⟨haccounts, fun n hn e he hquit => haccounts.finished hn he hquit⟩

end Run

section Example

def waitingHost : Host :=
  holding [0xF0, 0x0A]

def closedOutcome : Outcome :=
  run ["-f", "rom.ch8"] false waitingHost.files (fun _ => 0) (.standard fun _ => [.close]) [] 1

theorem closed_while_waiting :
    ¬ Oversized waitingHost.files "rom.ch8" ∧ closedOutcome.ending = .left 0 ∧
      Accounts waitingHost (fun _ => .ok [.close]) [] 1 (opening waitingHost "rom.ch8" [])
        closedOutcome.ending closedOutcome.session := by
  have hfits : ¬ Oversized waitingHost.files "rom.ch8" := by
    rintro ⟨-, program, hfile, hsize⟩
    cases hfile
    exact absurd hsize (by decide)
  obtain ⟨haccounts, -⟩ := (accounts_iff_no_nul_and_ticks ofArguments_namedProgram
    (ofOptions_namedProgram fun _ => [.close]) false hfits (fun _ => 0) [] 1).2
      ⟨namedProgram_contains, not_stalls_of_ticks fun _ => ⟨_, rfl⟩⟩
  refine ⟨hfits, ?_, haccounts⟩
  obtain ⟨s₀, hload, hmachine, hidle⟩ :=
    load_fitting (h := waitingHost) namedProgram_contains rfl (by decide)
  have hsource : s₀.source = .keyboard := by
    obtain ⟨_, _, _, hloaded⟩ := leftBy_load_loaded waitingHost "rom.ch8"
    rw [leftBy_of_ok hload] at hloaded
    rw [hloaded]
    rfl
  have hnext : s₀.machine.Next ⟨0xF00A, .waitKey⟩ := by
    rw [hmachine]
    exact Session.started_next .keyboard (by decide) (by decide) rfl
  have hidle' : (s₀.receive []).keyboard = .idle := by
    rw [Session.receive, hidle]
    rfl
  obtain ⟨t, hbegins, hmachine', hsource', hqueue⟩ :=
    begins_of_idle (fun _ => .ok [.close]) hidle' rfl
  have hquit : t.keyboard.queue = [] ++ .close :: [] := hqueue
  have hfails : t.Fails (.exit 0) :=
    .wait (hmachine' ▸ hnext) rfl
      (.quit (hsource'.trans hsource) hquit (List.forall_mem_nil _) rfl)
  obtain ⟨s', hhalts⟩ := hfails.halts waitingHost
  have houtcome : closedOutcome.ending =
      (start "rom.ch8" waitingHost (fun _ => .ok [.close]) [] 1).1 :=
    congrArg Outcome.ending
      (run_of_window ofArguments_namedProgram (ofOptions_namedProgram fun _ => [.close]))
  rw [houtcome, start_of_load hload, emulate_succ, turn_of_begins hbegins, hhalts.cycle_eq]
  rfl

def brokenOptions : Options :=
  { Options.standard with file := "a\x00/d" }

def brokenHost : Host :=
  host brokenOptions false (fun _ => .error .missing) fun _ => 0

def brokenOutcome : Outcome :=
  run ["-f", "a\x00/d"] false brokenHost.files (fun _ => 0) unattended [] 2

theorem splitOnAux_of_eq {s sep : String} {b i : String.Pos.Raw} (hend : i.atEnd s = false)
    (heq : (i.get s == String.Pos.Raw.get sep 0) = true)
    (hsep : (String.Pos.Raw.next sep 0).atEnd sep = true) (r : List String) :
    s.splitOnAux sep b i 0 r = s.splitOnAux sep (i.next s) (i.next s) 0
      (b.extract s ((i.next s).unoffsetBy (String.Pos.Raw.next sep 0)) :: r) := by
  rw [String.splitOnAux, hend, heq]
  dsimp only
  rw [hsep]
  rfl

theorem ofOptions_brokenOptions :
    Window.ofOptions unattended brokenOptions = .ok ⟨"a\x00/d", 960, 480⟩ := by
  have hsplit : "a\x00/d".splitOn "/" = ["a\x00", "d"] := by
    rw [String.splitOn, if_neg (by decide)]
    iterate 2 rw [splitOnAux_of_ne (by decide) (by decide)]
    rw [splitOnAux_of_eq (by decide) (by decide) (by decide),
      splitOnAux_of_ne (by decide) (by decide), String.splitOnAux, if_pos (by decide)]
    decide
  refine ofOptions_of_title (fun _ => []) ?_
  rw [Window.titleOf, hsplit]
  simp

theorem broken_path_unaccounted :
    brokenOutcome.ending = .escaped (.outOfRange .path) ∧ brokenOutcome.session.ticks = 0 ∧
      ∀ s₀, ¬ Accounts brokenHost (unattended.clock brokenOptions.speed) [] 2 s₀
        brokenOutcome.ending brokenOutcome.session := by
  have hstart : start "a\x00/d" brokenHost (unattended.clock brokenOptions.speed) [] 2 =
      (.escaped (.outOfRange .path), .fresh .keyboard) :=
    start_of_load_error (load_nul (by simp))
  have hargs : Options.ofArguments ["-f", "a\x00/d"] = .ok brokenOptions := rfl
  have houtcome : brokenOutcome = ⟨some brokenOptions, some ⟨"a\x00/d", 960, 480⟩,
      .escaped (.outOfRange .path), .fresh .keyboard⟩ := by
    have hrun : brokenOutcome = ⟨_, _,
        (start "a\x00/d" brokenHost (unattended.clock brokenOptions.speed) [] 2).1,
        (start "a\x00/d" brokenHost (unattended.clock brokenOptions.speed) [] 2).2⟩ :=
      run_of_window hargs ofOptions_brokenOptions
    rw [hrun, hstart]
  rw [houtcome]
  refine ⟨rfl, rfl, ?_⟩
  rintro s₀ ⟨_, hends, -⟩
  cases hends

end Example

end Emulator

end ChipEight
