import ChipEight.Proofs.Hooks
import ChipEight.Proofs.Silence

/-! What the trace tells: the words that are decoded, the instructions that are carried out and the files that
are loaded, and nothing else. -/

namespace ChipEight

open Actions

inductive Notice
  | decoded (w : Word)
  | carriedOut (address : Address) (op : Opcode)
  | loaded (path : String)

namespace Notice

def text : Notice → String
  | decoded w => w.traceMark
  | carriedOut address op => op.traceLine address
  | loaded path => ChipEight.loaded path

end Notice

namespace Session

variable (s : Session) (h : Host)

end Session

namespace Session

section Muted

variable (s : Session) (h : Host)

end Muted

def traces (s : Session) : List Chunk :=
  s.printed.toList.filter Chunk.isTrace

theorem traces_print (s : Session) {c : Chunk} (hc : c.isTrace = false) :
    (s.print c).traces = s.traces := by
  rw [traces, traces, print, Array.toList_push, List.filter_append, List.filter_cons_of_neg,
    List.filter_nil, List.append_nil]
  rw [hc]
  exact Bool.false_ne_true

theorem traces_accept (s : Session) (r : Reply) : (s.accept r).traces = s.traces := by
  have hgrants : ∀ s : Session, (r.requests.foldl grant s).traces = s.traces := by
    intro s
    rw [grants_eq]
    rfl
  unfold accept
  rw [hgrants]
  split
  · rfl
  · exact s.traces_print rfl

theorem traces_beep (s : Session) (h : Host) : (s.beep h).traces = s.traces := by
  unfold beep
  cases h.beeper with
  | none => rfl
  | some beeper => exact traces_accept _ _

theorem traces_tickTimers (s : Session) (h : Host) : (s.tickTimers h).traces = s.traces := by
  unfold tickTimers
  dsimp only
  split
  · exact traces_beep _ h
  · rfl

theorem traces_present (s : Session) (h : Host) : (s.present h).traces = s.traces := by
  unfold present
  cases h.renderer with
  | none => rfl
  | some renderer =>
    dsimp only
    split
    · exact traces_accept _ _
    · rfl

end Session

section Told

variable {h : Host}

theorem current_of_answered {op : Opcode} {s s₁ : Session} {answer : Int}
    (ha : answerTo h op.form (s.onMachine (·.enter op)) = .ok answer s₁) :
    (s₁.machine.effect op answer).current = s.machine.counter := by
  obtain ⟨keypad, running, hm⟩ := answerTo_touched h op.form (s.onMachine (·.enter op))
  rw [leftBy_of_ok ha] at hm
  rw [Machine.effect_current, hm, Session.onMachine_machine, Machine.enter_eq]

variable (ht : h.tracing = true)
include ht

end Told

end ChipEight
