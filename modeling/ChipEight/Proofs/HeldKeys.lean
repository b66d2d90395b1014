import ChipEight.Proofs.Histories
import ChipEight.Proofs.KeyWaits

/-! Keypads with any layout: each key is as the last call about it has left it. -/

namespace ChipEight

open Actions

inductive KeyCall
  | press (name : KeyName)
  | release (name : KeyName)
  | set (code : Int) (down : Bool)

namespace Keypad

/-- A name stands for the last place in which the layout has it. -/
def LastPlace (layout : List Char) (name : KeyName) (n : Nat) : Prop :=
  ∃ id, name = some id ∧ nameAt? layout n = some id ∧ ∀ m, n < m → nameAt? layout m ≠ some id

def Unnamed (layout : List Char) (name : KeyName) : Prop :=
  ∀ c ∈ layout, name ≠ some (String.singleton c)

end Keypad

namespace KeyCall

def action : KeyCall → EStateM Fault Keypad (Option Nat)
  | press name => do
    let code := (← get).code? name
    modify (·.press name)
    return code
  | release name => do
    let code := (← get).code? name
    modify (·.release name)
    return code
  | set code down => do
    modify (·.setHeld code down)
    return none

def down : KeyCall → Bool
  | press _ => true
  | release _ => false
  | set _ down => down

def name? : KeyCall → Option KeyName
  | press name | release name => some name
  | set _ _ => none

def Targets (layout : List Char) (n : Int) : KeyCall → Prop
  | press name | release name => ∃ place : Nat, n = place ∧ Keypad.LastPlace layout name place
  | set code _ => n = code

def Concerns (layout : List Char) (i : Nat) (c : KeyCall) : Prop :=
  ∃ n, c.Targets layout n ∧ n % 16 = i

def Apart (layout : List Char) (c d : KeyCall) : Prop :=
  ∀ i, ¬ (c.Concerns layout i ∧ d.Concerns layout i)

/-- How a key stands that was up before: as the last call says that is about it. -/
inductive StandsBy (about : KeyCall → Prop) : List KeyCall → Bool → Prop
  | unmoved {calls : List KeyCall} (hnone : ∀ c ∈ calls, ¬ about c) : StandsBy about calls false
  | moved {earlier later : List KeyCall} {c : KeyCall} (hc : about c)
      (hlater : ∀ d ∈ later, ¬ about d) : StandsBy about (earlier ++ c :: later) c.down

end KeyCall

namespace Keypad

variable (k : Keypad)

theorem code?_eq_some_iff (name : KeyName) (n : Nat) :
    k.code? name = some n ↔ LastPlace k.layout name n := by
  cases name with
  | none => simp [code?, LastPlace]
  | some id => simp [code?, LastPlace, lastPlace?_eq_some_iff]

theorem code?_eq_none_iff (name : KeyName) : k.code? name = none ↔ Unnamed k.layout name := by
  cases name with
  | none => simp [code?, Unnamed]
  | some id =>
    rw [code?, lastPlace?_eq_none_iff]
    constructor
    · intro hall c hc hid
      obtain ⟨n, hn⟩ := List.mem_iff_getElem?.1 hc
      exact hall n (by rw [nameAt?, hn, Option.map_some, hid])
    · intro hall n hn
      obtain ⟨c, hc, hid⟩ := Option.map_eq_some_iff.1 hn
      exact hall c (List.mem_of_getElem? hc) (congrArg some hid.symm)

end Keypad

theorem Nibble.ofInt_eq_iff {n : Int} {i : Nibble} : BitVec.ofInt 4 n = i ↔ n % 16 = i.toNat := by
  rw [← BitVec.toNat_inj, BitVec.toNat_ofInt]
  omega

namespace KeyCall

variable {layout : List Char} {c d : KeyCall} {k : Keypad}

def code? (layout : List Char) : KeyCall → Option Int
  | press name | release name => ((Keypad.ofLayout layout).code? name).map Nat.cast
  | set code _ => some code

def sets? (layout : List Char) (i : Nibble) (c : KeyCall) : Option Bool :=
  if (c.code? layout).map (BitVec.ofInt 4) = some i then some c.down else none

theorem code?_eq_some_iff {n : Int} : c.code? layout = some n ↔ c.Targets layout n := by
  cases c with
  | press name | release name =>
    rw [code?, Option.map_eq_some_iff]
    refine exists_congr fun place => ?_
    rw [Keypad.code?_eq_some_iff, and_comm, eq_comm]
    rfl
  | set code down => exact Option.some_inj.trans eq_comm

theorem concerns_iff {i : Nibble} :
    (c.code? layout).map (BitVec.ofInt 4) = some i ↔ c.Concerns layout i.toNat := by
  rw [Option.map_eq_some_iff]
  exact exists_congr fun n => and_congr code?_eq_some_iff Nibble.ofInt_eq_iff

theorem sets?_eq_none_iff {i : Nibble} : c.sets? layout i = none ↔ ¬ c.Concerns layout i.toNat := by
  rw [← concerns_iff, sets?]
  split <;> simp_all

theorem sets?_eq_some_iff {i : Nibble} {down : Bool} :
    c.sets? layout i = some down ↔ c.Concerns layout i.toNat ∧ c.down = down := by
  rw [← concerns_iff, sets?]
  split <;> simp_all

def left (c : KeyCall) (k : Keypad) : Keypad :=
  match c.code? k.layout with
  | some code => k.setHeld code c.down
  | none => k

def answer (c : KeyCall) (k : Keypad) : Option Nat :=
  c.name?.bind k.code?

theorem action_apply (c : KeyCall) (k : Keypad) : c.action k = .ok (c.answer k) (c.left k) := by
  have hmove : ∀ (name : KeyName) (down : Bool), k.move name down =
      match ((Keypad.ofLayout k.layout).code? name).map (Nat.cast : Nat → Int) with
      | some code => k.setHeld code down
      | none => k := by
    intro name down
    have hcode : (Keypad.ofLayout k.layout).code? name = k.code? name := by cases name <;> rfl
    rw [hcode, Keypad.move]
    cases k.code? name <;> rfl
  cases c with
  | press name => exact congrArg (EStateM.Result.ok (k.code? name)) (hmove name true)
  | release name => exact congrArg (EStateM.Result.ok (k.code? name)) (hmove name false)
  | set code down => rfl

theorem leftBy_action (c : KeyCall) (k : Keypad) : leftBy c.action k = c.left k :=
  leftBy_of_ok (c.action_apply k)

@[simp] theorem left_layout (c : KeyCall) (k : Keypad) : (c.left k).layout = k.layout := by
  unfold left
  split <;> rfl

@[simp] theorem answer_left (c d : KeyCall) (k : Keypad) : c.answer (d.left k) = c.answer k := by
  have hcode : (d.left k).code? = k.code? := by
    funext name
    cases name with
    | none => rfl
    | some id => exact congrArg (Keypad.lastPlace? id) (d.left_layout k)
  rw [answer, hcode, answer]

theorem held_left (c : KeyCall) (k : Keypad) (i : Nibble) :
    (c.left k).held.get i = (c.sets? k.layout i).getD (k.held.get i) := by
  unfold left sets?
  cases c.code? k.layout with
  | none => rfl
  | some code =>
    show (k.held.set (BitVec.ofInt 4 code) c.down).get i = _
    rw [Bank.get_set]
    by_cases hi : i = BitVec.ofInt 4 code
    · simp [hi]
    · simp [hi, Ne.symm hi]

section Named

variable {name : KeyName} (hc : c.name? = some name)
include hc

theorem action_of_name : c.action k = .ok (k.code? name) (k.move name c.down) := by
  cases c with
  | press | release =>
    cases hc
    rfl
  | set => cases hc

theorem action_of_unnamed (hname : Keypad.Unnamed k.layout name) : c.action k = .ok none k := by
  rw [action_of_name hc, Keypad.move, (k.code?_eq_none_iff name).2 hname]

theorem action_of_lastPlace {n : Nat} (hname : Keypad.LastPlace k.layout name n) :
    c.action k = .ok (some n) (k.setHeld n c.down) := by
  rw [action_of_name hc, Keypad.move, (k.code?_eq_some_iff name n).2 hname]

end Named

theorem Apart.left_comm (h : Apart k.layout c d) : c.left (d.left k) = d.left (c.left k) := by
  have hlayout : (c.left (d.left k)).layout = (d.left (c.left k)).layout := by simp
  have hheld : (c.left (d.left k)).held = (d.left (c.left k)).held := by
    apply Bank.ext_get
    intro i
    simp only [held_left, left_layout]
    cases hc : c.sets? k.layout i with
    | none => rfl
    | some down =>
      have hd : d.sets? k.layout i = none :=
        sets?_eq_none_iff.2 fun hd => h i.toNat ⟨(sets?_eq_some_iff.1 hc).1, hd⟩
      rw [hd]
      rfl
  exact Keypad.mk.injEq .. |>.mpr ⟨hlayout, hheld⟩

theorem keeps_layout (layout : List Char) (c : KeyCall) :
    Keeps (fun k : Keypad => k.layout = layout) c.action := by
  rintro k rfl
  rw [leftBy_action]
  exact c.left_layout k

theorem layout_afterAll (layout : List Char) (calls : List KeyCall) :
    (afterAll action (Keypad.ofLayout layout) calls).layout = layout :=
  afterAll_keeps (keeps_layout layout) rfl calls

theorem held_afterAll (layout : List Char) (i : Nibble) (calls : List KeyCall) :
    (afterAll action (Keypad.ofLayout layout) calls).held.get i =
      (lastSet? (sets? layout i) calls).getD false := by
  have hview : ∀ (k : Keypad) (c : KeyCall), k.layout = layout →
      (leftBy c.action k).held.get i = (c.sets? layout i).getD (k.held.get i) := by
    rintro k c rfl
    rw [leftBy_action, held_left]
  have hstart : (Keypad.ofLayout layout).layout = layout := rfl
  have hafter := view_afterAll (·.held.get i) (keeps_layout layout) hview hstart calls
  exact hafter.trans (congrArg _ (Bank.get_fill false i))

theorem standsBy_lastSet? (layout : List Char) (i : Nibble) (calls : List KeyCall) :
    StandsBy (Concerns layout i.toNat) calls ((lastSet? (sets? layout i) calls).getD false) := by
  cases hlast : lastSet? (sets? layout i) calls with
  | none => exact .unmoved fun c hc => sets?_eq_none_iff.1 (lastSet?_eq_none_iff.1 hlast c hc)
  | some down =>
    obtain ⟨earlier, c, later, rfl, hc, hlater⟩ := lastSet?_eq_some hlast
    obtain ⟨hconcerns, rfl⟩ := sets?_eq_some_iff.1 hc
    exact .moved hconcerns fun d hd => sets?_eq_none_iff.1 (hlater d hd)

end KeyCall

namespace Keypad

theorem standard_code?_eq_some_iff (name : KeyName) (n : Nat) :
    standard.code? name = some n ↔ ∃ i : Nibble, name = some (standardName i) ∧ n = i.toNat := by
  cases name with
  | none => simp [code?]
  | some id =>
    constructor
    · intro hplace
      obtain ⟨i, rfl, rfl⟩ := lastPlace?_standard hplace
      exact ⟨i, rfl, rfl⟩
    · rintro ⟨i, hid, rfl⟩
      cases hid
      exact lastPlace?_standardName i

end Keypad

namespace KeyCall

variable {c d : KeyCall} {name name' : KeyName}

theorem Concerns.eq_standardName {i : Nat} (h : c.Concerns Keypad.standardLayout i)
    (hc : c.name? = some name) : ∃ j : Nibble, name = some (Keypad.standardName j) ∧ j.toNat = i := by
  have hplace : ∀ place, Keypad.LastPlace Keypad.standardLayout name place →
      ∃ j : Nibble, name = some (Keypad.standardName j) ∧ place = j.toNat := fun place hplace =>
    (Keypad.standard_code?_eq_some_iff name place).1
      ((Keypad.code?_eq_some_iff _ name place).2 hplace)
  obtain ⟨n, hn, hmod⟩ := h
  cases c with
  | press | release =>
    cases hc
    obtain ⟨place, rfl, hlast⟩ := hn
    obtain ⟨j, hname, rfl⟩ := hplace place hlast
    have hj : j.toNat < 16 := j.isLt
    exact ⟨j, hname, by omega⟩
  | set => cases hc

theorem apart_of_ne (hne : name ≠ name') (hc : c.name? = some name) (hd : d.name? = some name') :
    Apart Keypad.standardLayout c d := by
  rintro i ⟨hci, hdi⟩
  obtain ⟨j, rfl, hj⟩ := hci.eq_standardName hc
  obtain ⟨j', rfl, hj'⟩ := hdi.eq_standardName hd
  obtain rfl : j = j' := BitVec.eq_of_toNat_eq (hj.trans hj'.symm)
  exact hne rfl

theorem Apart.interchange {k : Keypad} (h : Apart k.layout c d) :
    (do
      let a ← c.action
      let b ← d.action
      return (a, b)) k =
    (do
      let b ← d.action
      let a ← c.action
      return (a, b)) k := by
  simp only [bind_apply, action_apply, proceed_ok, pure_apply, answer_left, h.left_comm]

end KeyCall

/-- What holds of a keypad after some calls: how its keys stand, and what comes of the next call. -/
structure Keypad.Follows (k : Keypad) (layout : List Char) (calls : List KeyCall) : Prop where
  length_eq : k.held.toList.length = 16
  stands : ∀ i < 16, ∃ down, k.held.toList[i]? = some down ∧
    KeyCall.StandsBy (KeyCall.Concerns layout i) calls down
  isHeld_eq : ∀ code : Int, k.held.toList[(code % 16).toNat]? = some (k.isHeld code)
  named : ∀ name n, LastPlace layout name n → ∀ c : KeyCall, c.name? = some name →
    c.action k = .ok (some n) (k.setHeld n c.down)
  unnamed : ∀ name, Unnamed layout name → ∀ c : KeyCall, c.name? = some name →
    c.action k = .ok none k

theorem Bank.getElem?_toList {α : Type} (b : Bank α) (i : Nibble) :
    b.toList[i.toNat]? = some (b.get i) := by
  rw [toList, Vector.getElem?_toList, Vector.getElem?_eq_getElem i.isLt]
  rfl

theorem KeyCall.follows_afterAll (layout : List Char) (calls : List KeyCall) :
    (afterAll action (Keypad.ofLayout layout) calls).Follows layout calls where
  length_eq := Vector.length_toList
  stands i hi := by
    have hget := Bank.getElem?_toList (afterAll action (Keypad.ofLayout layout) calls).held
      (BitVec.ofNat 4 i)
    have hstands := standsBy_lastSet? layout (BitVec.ofNat 4 i) calls
    rw [held_afterAll] at hget
    rw [BitVec.toNat_ofNat, Nat.mod_eq_of_lt hi] at hget hstands
    exact ⟨_, hget, hstands⟩
  isHeld_eq code := by
    have hcode : (code % 16).toNat = (BitVec.ofInt 4 code).toNat := by
      rw [BitVec.toNat_ofInt]
      rfl
    rw [hcode, Bank.getElem?_toList]
    rfl
  named name n hname c hc := action_of_lastPlace hc (by rwa [layout_afterAll])
  unnamed name hname c hc := action_of_unnamed hc (by rwa [layout_afterAll])

/-- With any layout, a key is as the last call about it has left it; the standard layout has one name for each key,
so that calls under different names may change places. -/
theorem keys_follow_calls :
    (∀ layout calls, (afterAll KeyCall.action (Keypad.ofLayout layout) calls).Follows layout calls) ∧
    (Function.Injective Keypad.standardName ∧ ∀ name n, Keypad.standard.code? name = some n ↔
      ∃ i : Nibble, name = some (Keypad.standardName i) ∧ n = i.toNat) ∧
    ∀ c d : KeyCall,
      (∀ name name', c.name? = some name → d.name? = some name' → name ≠ name' →
        KeyCall.Apart Keypad.standardLayout c d) ∧
      ∀ k : Keypad, KeyCall.Apart k.layout c d →
        (do
          let a ← c.action
          let b ← d.action
          return (a, b)) k =
        (do
          let b ← d.action
          let a ← c.action
          return (a, b)) k :=
  ⟨KeyCall.follows_afterAll,
    ⟨fun _ _ => Keypad.standardName_injective, Keypad.standard_code?_eq_some_iff⟩,
    fun _ _ => ⟨fun _ _ hc hd hne => KeyCall.apart_of_ne hne hc hd, fun _ => KeyCall.Apart.interchange⟩⟩

theorem doubled_key_pressed :
    let layout := ['a', 'b', 'a']
    let k := afterAll KeyCall.action (Keypad.ofLayout layout) [.set (-14) true, .release none]
    let down := KeyCall.press (some "w")
    let up := KeyCall.release (some "v")
    (Keypad.LastPlace layout (some "a") 2 ∧ Keypad.Unnamed layout (some "ab")) ∧
      (KeyCall.press (some "a")).action k = .ok (some 2) (k.setHeld 2 true) ∧
      (KeyCall.press (some "ab")).action k = .ok none k ∧
      (down.name? = some (some "w") ∧ up.name? = some (some "v") ∧ some "w" ≠ some "v") ∧
      KeyCall.Apart Keypad.standardLayout down up ∧
      (do
        let a ← down.action
        let b ← up.action
        return (a, b)) Keypad.standard =
      (do
        let b ← up.action
        let a ← down.action
        return (a, b)) Keypad.standard := by
  intro layout k down up
  obtain ⟨hfollows, -, hcommute⟩ := keys_follow_calls
  have hk := hfollows layout [.set (-14) true, .release none]
  have hlast : Keypad.LastPlace layout (some "a") 2 :=
    (Keypad.code?_eq_some_iff (Keypad.ofLayout layout) _ _).1 (by decide)
  have hunnamed : Keypad.Unnamed layout (some "ab") :=
    (Keypad.code?_eq_none_iff (Keypad.ofLayout layout) _).1 (by decide)
  have hne : some "w" ≠ some "v" := by decide
  obtain ⟨hapart, hinterchange⟩ := hcommute down up
  have hdown_up := hapart _ _ rfl rfl hne
  exact ⟨⟨hlast, hunnamed⟩, hk.named _ _ hlast _ rfl, hk.unnamed _ hunnamed _ rfl,
    ⟨rfl, rfl, hne⟩, hdown_up, hinterchange Keypad.standard hdown_up⟩

end ChipEight
