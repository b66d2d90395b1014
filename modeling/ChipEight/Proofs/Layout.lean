import ChipEight.Proofs.Keys

/-! Which key a name stands for, and how the keys of the standard layout stand after some events: each of
them as the last event about it has left it. -/

namespace ChipEight

namespace Keypad

def nameAt? (layout : List Char) (n : Nat) : KeyName :=
  layout[n]?.map String.singleton

theorem lastPlace?_eq_none_iff (id : String) (layout : List Char) :
    lastPlace? id layout = none ↔ ∀ n, nameAt? layout n ≠ some id := by
  induction layout with
  | nil => simp [lastPlace?, nameAt?]
  | cons c cs ih =>
    rw [lastPlace?]
    constructor
    · intro hnone n
      cases hrest : lastPlace? id cs with
      | some i =>
        rw [hrest] at hnone
        cases hnone
      | none =>
        rw [hrest] at hnone
        cases n with
        | zero =>
          intro hc
          have hid : id = String.singleton c := (Option.some.inj hc).symm
          simp only [if_pos hid] at hnone
          cases hnone
        | succ n => exact ih.1 hrest n
    · intro hall
      rw [ih.2 fun n => hall (n + 1)]
      exact if_neg fun hid => hall 0 (congrArg some hid.symm)

theorem lastPlace?_eq_some_iff (id : String) (layout : List Char) (n : Nat) :
    lastPlace? id layout = some n ↔
      nameAt? layout n = some id ∧ ∀ m, n < m → nameAt? layout m ≠ some id := by
  induction layout generalizing n with
  | nil => simp [lastPlace?, nameAt?]
  | cons c cs ih =>
    rw [lastPlace?]
    cases hrest : lastPlace? id cs with
    | some i =>
      obtain ⟨hi, hlater⟩ := (ih i).1 hrest
      constructor
      · intro hn
        cases hn
        refine ⟨hi, fun m hm => ?_⟩
        obtain ⟨m, rfl⟩ : ∃ j, m = j + 1 := ⟨m - 1, by omega⟩
        exact hlater m (Nat.lt_of_succ_lt_succ hm)
      · rintro ⟨hn, hlast⟩
        cases n with
        | zero => exact absurd hi (hlast (i + 1) (Nat.succ_pos i))
        | succ n =>
          have hsame : lastPlace? id cs = some n :=
            (ih n).2 ⟨hn, fun m hm => hlast (m + 1) (Nat.succ_lt_succ hm)⟩
          exact congrArg (Option.map (· + 1)) (hrest.symm.trans hsame)
    | none =>
      have habsent := (lastPlace?_eq_none_iff id cs).1 hrest
      constructor
      · intro hn
        dsimp only at hn
        split at hn
        · next hid =>
          cases hn
          refine ⟨congrArg some hid.symm, fun m hm => ?_⟩
          obtain ⟨m, rfl⟩ : ∃ j, m = j + 1 := ⟨m - 1, by omega⟩
          exact habsent m
        · cases hn
      · rintro ⟨hn, -⟩
        cases n with
        | zero => exact if_pos (Option.some.inj hn).symm
        | succ n => exact absurd hn (habsent n)

def standardName (i : Nibble) : String :=
  String.singleton (standardLayout.getD i.toNat ' ')

theorem standardLayout_eq :
    standardLayout =
      ['1', '2', '3', '4', 'q', 'w', 'e', 'r', 'a', 's', 'd', 'f', 'z', 'x', 'c', 'v'] :=
  String.toList_ofList

theorem nameAt?_standard (i : Nibble) : nameAt? standardLayout i.toNat = some (standardName i) := by
  have hi : i.toNat < standardLayout.length := by
    rw [standardLayout_eq]
    exact i.isLt
  rw [nameAt?, standardName, List.getD_eq_getElem?_getD, List.getElem?_eq_getElem hi]
  rfl

theorem standardName_injective {i j : Nibble} (h : standardName i = standardName j) : i = j := by
  have hdistinct : ∀ a b : Fin 16,
      standardLayout.getD a ' ' = standardLayout.getD b ' ' → a = b := by
    rw [standardLayout_eq]
    decide
  exact BitVec.eq_of_toFin_eq (hdistinct i.toFin j.toFin (String.singleton_inj.1 h))

theorem standardName_ne_escape (i : Nibble) : standardName i ≠ "escape" := by
  intro h
  have hlength := congrArg String.length h
  rw [standardName, String.length_singleton] at hlength
  exact absurd hlength (by decide)

theorem lastPlace?_standardName (i : Nibble) :
    lastPlace? (standardName i) standardLayout = some i.toNat := by
  refine (lastPlace?_eq_some_iff ..).2 ⟨nameAt?_standard i, fun m hm hname => ?_⟩
  obtain hlt | hle := Nat.lt_or_ge m 16
  · have hj := nameAt?_standard (BitVec.ofNat 4 m)
    rw [BitVec.toNat_ofNat, Nat.mod_eq_of_lt hlt, hname] at hj
    have hsame := standardName_injective (Option.some.inj hj)
    rw [hsame, BitVec.toNat_ofNat, Nat.mod_eq_of_lt hlt] at hm
    exact Nat.lt_irrefl m hm
  · rw [nameAt?, standardLayout_eq, List.getElem?_eq_none (by simpa using hle)] at hname
    cases hname

theorem lastPlace?_standard {id : String} {n : Nat}
    (h : lastPlace? id standardLayout = some n) : ∃ i : Nibble, n = i.toNat ∧ id = standardName i := by
  have hname := ((lastPlace?_eq_some_iff ..).1 h).1
  have hlt : n < 16 := by
    refine Nat.lt_of_not_le fun hle => ?_
    rw [nameAt?, standardLayout_eq, List.getElem?_eq_none (by simpa using hle)] at hname
    cases hname
  have hi := nameAt?_standard (BitVec.ofNat 4 n)
  rw [BitVec.toNat_ofNat, Nat.mod_eq_of_lt hlt, hname] at hi
  refine ⟨BitVec.ofNat 4 n, ?_, Option.some.inj hi⟩
  rw [BitVec.toNat_ofNat, Nat.mod_eq_of_lt hlt]

end Keypad

namespace Event

def concerns (e : Event) (key : String) : Bool :=
  e = .keyDown key ∨ e = .keyUp key

def lastOn? (key : String) (events : List Event) : Option Event :=
  (events.filter (·.concerns key)).getLast?

theorem lastOn?_cons (key : String) (e : Event) (events : List Event) :
    lastOn? key (e :: events) = (lastOn? key events).or (if e.concerns key then some e else none) := by
  rw [lastOn?, lastOn?, List.filter_cons]
  split
  · rw [List.getLast?_cons]
    cases (events.filter (·.concerns key)).getLast? <;> rfl
  · rw [Option.or_none]

end Event

namespace Keypad

variable {k : Keypad}

theorem held_setHeld (i j : Nibble) (down : Bool) :
    (k.setHeld i.toNat down).held.get j = if j = i then down else k.held.get j := by
  rw [setHeld, Bank.get_set, BitVec.ofInt_natCast, BitVec.ofNat_toNat, BitVec.setWidth_eq]

theorem move_layout (name : KeyName) (down : Bool) : (k.move name down).layout = k.layout := by
  unfold move
  split <;> rfl

theorem apply_layout (e : Event) : (k.apply e).layout = k.layout := by
  cases e with
  | keyDown key => exact move_layout ..
  | keyUp key => exact move_layout ..
  | close => rfl
  | other => rfl

section Standard

variable (hk : k.layout = standardLayout) (i : Nibble)
include hk

theorem held_move (key : String) (down : Bool) :
    (k.move (some key) down).held.get i = if key = standardName i then down else k.held.get i := by
  have hcode : k.code? (some key) = lastPlace? key standardLayout := congrArg _ hk
  rw [move, hcode]
  cases hplace : lastPlace? key standardLayout with
  | none =>
    have hne : key ≠ standardName i := by
      rintro rfl
      rw [lastPlace?_standardName] at hplace
      cases hplace
    rw [if_neg hne]
  | some n =>
    obtain ⟨j, rfl, rfl⟩ := lastPlace?_standard hplace
    rw [held_setHeld]
    by_cases hij : i = j
    · rw [if_pos hij, if_pos (congrArg standardName hij.symm)]
    · rw [if_neg hij, if_neg fun h => hij (standardName_injective h).symm]

theorem held_taken (e : Event) :
    (if e.isQuit then k else k.apply e).held.get i =
      if e.concerns (standardName i) then decide (e = .keyDown (standardName i))
      else k.held.get i := by
  cases e with
  | keyDown key =>
    by_cases hquit : key = "escape"
    · have hne : key ≠ standardName i := fun h => standardName_ne_escape i (h.symm.trans hquit)
      simp [Event.isQuit, Event.concerns, hquit, (hquit ▸ hne : "escape" ≠ standardName i)]
    · have hmove := held_move hk i key true
      simp only [Event.isQuit, hquit, decide_false, Bool.false_eq_true, if_false, apply, press]
      rw [hmove]
      by_cases hkey : key = standardName i <;> simp [Event.concerns, hkey]
  | keyUp key =>
    have hmove := held_move hk i key false
    simp only [Event.isQuit, Bool.false_eq_true, if_false, apply, release]
    rw [hmove]
    by_cases hkey : key = standardName i <;> simp [Event.concerns, hkey]
  | close => simp [Event.isQuit, Event.concerns]
  | other => simp [Event.isQuit, Event.concerns, apply]

end Standard

theorem applyAll_cons (k : Keypad) (e : Event) (events : List Event) :
    k.applyAll (e :: events) = (if e.isQuit then k else k.apply e).applyAll events := rfl

theorem applyAll_append (k : Keypad) (events more : List Event) :
    k.applyAll (events ++ more) = (k.applyAll events).applyAll more :=
  List.foldl_append

theorem applyAll_of_unquit (k : Keypad) {events : List Event}
    (hevents : ∀ e ∈ events, e.isQuit = false) : k.applyAll events = events.foldl apply k := by
  induction events generalizing k with
  | nil => rfl
  | cons e events ih =>
    rw [List.forall_mem_cons] at hevents
    rw [applyAll_cons, hevents.1, ih _ hevents.2]
    rfl

theorem held_applyAll (hk : k.layout = standardLayout) (i : Nibble) (events : List Event) :
    (k.applyAll events).held.get i =
      match Event.lastOn? (standardName i) events with
      | some e => decide (e = .keyDown (standardName i))
      | none => k.held.get i := by
  induction events generalizing k with
  | nil => rfl
  | cons e events ih =>
    have hlayout : (if e.isQuit then k else k.apply e).layout = standardLayout := by
      split
      · exact hk
      · exact (apply_layout e).trans hk
    rw [applyAll_cons, ih hlayout, Event.lastOn?_cons, held_taken hk i e]
    cases Event.lastOn? (standardName i) events with
    | some later => rfl
    | none =>
      rw [Option.none_or]
      cases e.concerns (standardName i) <;> rfl

end Keypad

end ChipEight
