import Chiaki.Controller.Touches

/-!
# Merging controller states

`chiaki_controller_state_or` reads its two states from the same memory that it writes the result to. The touches are
merged slot by slot.
-/

namespace Chiaki

/-- `MAX`. -/
def maxByte (a b : UInt8) : UInt8 := if b < a then a else b

/-- `MAX_ABS`, of numbers that are promoted to `int`. -/
def maxAbs (a b : Int16) : Int16 := if b.toInt.natAbs < a.toInt.natAbs then a else b

namespace ControllerState

section Memory
variable {κ : Type} [DecidableEq κ]

/-- The touch for one slot of the result. -/
def orSlot (memory : κ → ControllerState) (out a b : κ) (i : Fin controllerTouchesMax) : κ → ControllerState :=
  if 0 ≤ ((memory a).touches i).id then
    if a = out then memory else Function.update memory out ((memory out).setSlot i ((memory a).touches i))
  else if 0 ≤ ((memory b).touches i).id then
    if b = out then memory else Function.update memory out ((memory out).setSlot i ((memory b).touches i))
  else Function.update memory out ((memory out).setSlot i ⟨0, 0, -1⟩)

/-- `chiaki_controller_state_or`, one statement after the other. -/
def or (memory : κ → ControllerState) (out a b : κ) : κ → ControllerState :=
  let write (memory : κ → ControllerState) (value : ControllerState) := Function.update memory out value
  let memory := write memory { memory out with buttons := (memory a).buttons ||| (memory b).buttons }
  let memory := write memory { memory out with l2State := maxByte (memory a).l2State (memory b).l2State }
  let memory := write memory { memory out with r2State := maxByte (memory a).r2State (memory b).r2State }
  let memory := write memory { memory out with leftX := maxAbs (memory a).leftX (memory b).leftX }
  let memory := write memory { memory out with leftY := maxAbs (memory a).leftY (memory b).leftY }
  let memory := write memory { memory out with rightX := maxAbs (memory a).rightX (memory b).rightX }
  let memory := write memory { memory out with rightY := maxAbs (memory a).rightY (memory b).rightY }
  let memory := write memory { memory out with touchIdNext := 0 }
  (List.finRange controllerTouchesMax).foldl (fun memory i => orSlot memory out a b i) memory

end Memory

/-- The touch for a slot, from the states as they were. -/
def mergeTouch (a b : ControllerState) (i : Fin controllerTouchesMax) : ControllerTouch :=
  if 0 ≤ (a.touches i).id then a.touches i else if 0 ≤ (b.touches i).id then b.touches i else ⟨0, 0, -1⟩

/-- The result from the states as they were. -/
def merge (a b : ControllerState) : ControllerState where
  buttons := a.buttons ||| b.buttons
  l2State := maxByte a.l2State b.l2State
  r2State := maxByte a.r2State b.r2State
  leftX := maxAbs a.leftX b.leftX
  leftY := maxAbs a.leftY b.leftY
  rightX := maxAbs a.rightX b.rightX
  rightY := maxAbs a.rightY b.rightY
  touchIdNext := 0
  touches := mergeTouch a b

/-- The touch of a slot is there, in some slot. -/
def Contains (state : ControllerState) (touch : ControllerTouch) : Prop := ∃ i, state.touches i = touch

/-- All touches of `a` are there, and those of `b` unless there is no slot left. -/
structure Merges (a b out : ControllerState) : Prop where
  distinct : out.Distinct
  first : ∀ i, 0 ≤ (a.touches i).id → out.Contains (a.touches i)
  second : ∀ i, 0 ≤ (b.touches i).id → out.Contains (b.touches i) ∨ ∀ j, 0 ≤ (out.touches j).id

/-- No identifier of `a` is one of `b` in another slot that `a` leaves free. Where both have a touch it is the same
one, or no slot is free. -/
structure Compatible (a b : ControllerState) : Prop where
  identifiers : ∀ i j, 0 ≤ (a.touches i).id → (a.touches j).id < 0 → 0 ≤ (b.touches j).id →
    (a.touches i).id ≠ (b.touches j).id
  slots : ∀ i, 0 ≤ (a.touches i).id → 0 ≤ (b.touches i).id → a.touches i = b.touches i ∨
    ∀ j, 0 ≤ (a.touches j).id ∨ 0 ≤ (b.touches j).id

/-! ## Aliases -/

section Alias
variable {κ : Type} [DecidableEq κ] (memory : κ → ControllerState) (out a b : κ)

theorem orSlot_eq (i : Fin controllerTouchesMax) :
    orSlot memory out a b i =
      Function.update memory out ((memory out).setSlot i (mergeTouch (memory a) (memory b) i)) := by
  have same (touch : ControllerTouch) (there : (memory out).touches i = touch) :
      memory = Function.update memory out ((memory out).setSlot i touch) := by
    rw [setSlot_self there, Function.update_eq_self]
  unfold orSlot mergeTouch
  split
  · split
    · rename_i shared
      exact same _ (by rw [shared])
    · rfl
  split
  · split
    · rename_i shared
      exact same _ (by rw [shared])
    · rfl
  · rfl

theorem mergeTouch_update {i j : Fin controllerTouchesMax} (other : j ≠ i) (touch : ControllerTouch) :
    mergeTouch (Function.update memory out ((memory out).setSlot i touch) a)
      (Function.update memory out ((memory out).setSlot i touch) b) j = mergeTouch (memory a) (memory b) j := by
  have kept (object : κ) : (Function.update memory out ((memory out).setSlot i touch) object).touches j =
      (memory object).touches j := by
    by_cases shared : object = out
    · rw [shared, Function.update_self, setSlot_other touch other]
    · rw [Function.update_of_ne shared]
  unfold mergeTouch
  rw [kept, kept]

theorem foldl_orSlot :
    (List.finRange controllerTouchesMax).foldl (fun memory i => orSlot memory out a b i) memory =
      Function.update memory out { memory out with touches := mergeTouch (memory a) (memory b) } := by
  have slots : List.finRange controllerTouchesMax = [0, 1] := rfl
  have both : Function.update (Function.update (memory out).touches 0 (mergeTouch (memory a) (memory b) 0)) 1
      (mergeTouch (memory a) (memory b) 1) = mergeTouch (memory a) (memory b) := by
    funext i
    fin_cases i <;> rfl
  rw [slots, List.foldl_cons, List.foldl_cons, List.foldl_nil, orSlot_eq, orSlot_eq,
    mergeTouch_update memory out a b (by decide), Function.update_self, Function.update_idem, setSlot, setSlot]
  dsimp only
  rw [both]

theorem or_eq : or memory out a b = Function.update memory out (merge (memory a) (memory b)) := by
  unfold or
  rw [foldl_orSlot]
  by_cases first : a = out
  · by_cases second : b = out
    · simp only [first, second, Function.update_self, Function.update_idem]
      rfl
    · simp only [first, Function.update_self, Function.update_of_ne second, Function.update_idem]
      rfl
  · by_cases second : b = out
    · simp only [second, Function.update_self, Function.update_of_ne first, Function.update_idem]
      rfl
    · simp only [Function.update_self, Function.update_of_ne first, Function.update_of_ne second, Function.update_idem]
      rfl

end Alias

/-! ## Touches -/

section Touches
variable {a b : ControllerState} {i j : Fin controllerTouchesMax}

theorem mergeTouch_first (active : 0 ≤ (a.touches i).id) : mergeTouch a b i = a.touches i := if_pos active

theorem mergeTouch_second (free : (a.touches i).id < 0) (active : 0 ≤ (b.touches i).id) :
    mergeTouch a b i = b.touches i := by
  rw [mergeTouch, if_neg (Int8.not_le.mpr free), if_pos active]

theorem mergeTouch_active : 0 ≤ (mergeTouch a b i).id ↔ 0 ≤ (a.touches i).id ∨ 0 ≤ (b.touches i).id := by
  unfold mergeTouch
  split
  · rename_i active
    exact ⟨fun _ => Or.inl active, fun _ => active⟩
  split
  · rename_i active
    exact ⟨fun _ => Or.inr active, fun _ => active⟩
  · rename_i first second
    constructor
    · intro active
      exact absurd active (by decide)
    · rintro (active | active)
      · exact absurd active first
      · exact absurd active second

theorem Compatible.distinct (compatible : Compatible a b) (distinctA : a.Distinct) (distinctB : b.Distinct) :
    (merge a b).Distinct := by
  intro i j active same
  have there : 0 ≤ (mergeTouch a b j).id := same ▸ active
  change (mergeTouch a b i).id = (mergeTouch a b j).id at same
  rcases Int8.lt_or_le (a.touches i).id 0 with freeI | activeI
  · have otherI := (mergeTouch_active.mp active).resolve_left (Int8.not_le.mpr freeI)
    rw [mergeTouch_second freeI otherI] at same
    rcases Int8.lt_or_le (a.touches j).id 0 with freeJ | activeJ
    · have otherJ := (mergeTouch_active.mp there).resolve_left (Int8.not_le.mpr freeJ)
      rw [mergeTouch_second freeJ otherJ] at same
      exact distinctB i j otherI same
    · rw [mergeTouch_first activeJ] at same
      exact absurd same.symm (compatible.identifiers j i activeJ freeI otherI)
  · rw [mergeTouch_first activeI] at same
    rcases Int8.lt_or_le (a.touches j).id 0 with freeJ | activeJ
    · have otherJ := (mergeTouch_active.mp there).resolve_left (Int8.not_le.mpr freeJ)
      rw [mergeTouch_second freeJ otherJ] at same
      exact absurd same (compatible.identifiers i j activeI freeJ otherJ)
    · rw [mergeTouch_first activeJ] at same
      exact distinctA i j activeI same

theorem eq_of_others {i j k : Fin controllerTouchesMax} (ij : i ≠ j) (kj : k ≠ j) : k = i := by
  revert i j k
  decide

theorem merge_merges_iff (distinctA : a.Distinct) (distinctB : b.Distinct) :
    Merges a b (merge a b) ↔ Compatible a b := by
  constructor
  · rintro ⟨distinct, -, second⟩
    constructor
    · intro i j activeI freeJ otherJ same
      have slot : i = j := by
        apply distinct i j
        · exact mergeTouch_active.mpr (Or.inl activeI)
        · change (mergeTouch a b i).id = (mergeTouch a b j).id
          rw [mergeTouch_first activeI, mergeTouch_second freeJ otherJ, same]
      rw [slot] at activeI
      exact absurd activeI (Int8.not_le.mpr freeJ)
    · intro i active other
      rcases second i other with ⟨k, contained⟩ | full
      · by_cases full : ∀ j, 0 ≤ (a.touches j).id ∨ 0 ≤ (b.touches j).id
        · exact Or.inr full
        · left
          push Not at full
          obtain ⟨j, freeA, freeB⟩ := full
          have differs : i ≠ j := by
            rintro rfl
            exact freeA active
          have found : k ≠ j := by
            rintro rfl
            change mergeTouch a b k = b.touches i at contained
            rw [← contained] at other
            exact (mergeTouch_active.mp other).elim freeA freeB
          rw [eq_of_others differs found] at contained
          exact (mergeTouch_first active).symm.trans contained
      · exact Or.inr fun j => mergeTouch_active.mp (full j)
  · intro compatible
    constructor
    · exact compatible.distinct distinctA distinctB
    · exact fun i active => ⟨i, mergeTouch_first active⟩
    · intro i other
      rcases Int8.lt_or_le (a.touches i).id 0 with free | active
      · exact Or.inl ⟨i, mergeTouch_second free other⟩
      · rcases compatible.slots i active other with same | full
        · exact Or.inl ⟨i, (mergeTouch_first active).trans same⟩
        · exact Or.inr fun j => mergeTouch_active.mpr (full j)

end Touches

/-- The merged state is as it should be exactly when the two states are compatible, wherever it is written. -/
theorem merges_iff {κ : Type} [DecidableEq κ] (memory : κ → ControllerState) (out a b : κ)
    (distinctA : (memory a).Distinct) (distinctB : (memory b).Distinct) :
    Merges (memory a) (memory b) (or memory out a b out) ↔ Compatible (memory a) (memory b) := by
  rw [or_eq, Function.update_self]
  exact merge_merges_iff distinctA distinctB

/-- A state with these touches. -/
def touching (first second : ControllerTouch) : ControllerState := { idle with touches := ![first, second] }

theorem merges_two : Merges (touching ⟨10, 20, 0⟩ ⟨0, 0, -1⟩) (touching ⟨0, 0, -1⟩ ⟨30, 40, 1⟩)
    (or (fun first => if first then touching ⟨10, 20, 0⟩ ⟨0, 0, -1⟩ else touching ⟨0, 0, -1⟩ ⟨30, 40, 1⟩) true true false
      true) := by
  apply (merges_iff (fun first => if first then touching ⟨10, 20, 0⟩ ⟨0, 0, -1⟩ else touching ⟨0, 0, -1⟩ ⟨30, 40, 1⟩)
    true true false (by decide) (by decide)).mpr
  constructor
  · decide
  · decide

/-- Two states with one touch each, both with the first identifier: the second one is dropped if it is in the same slot,
and otherwise both have the same identifier. -/
theorem not_merges : ¬ Merges (touching ⟨10, 20, 0⟩ ⟨0, 0, -1⟩) (touching ⟨30, 40, 0⟩ ⟨0, 0, -1⟩)
      (or (fun first => if first then touching ⟨10, 20, 0⟩ ⟨0, 0, -1⟩ else touching ⟨30, 40, 0⟩ ⟨0, 0, -1⟩) true true
        false true) ∧
    ¬ Merges (touching ⟨10, 20, 0⟩ ⟨0, 0, -1⟩) (touching ⟨0, 0, -1⟩ ⟨30, 40, 0⟩)
      (or (fun first => if first then touching ⟨10, 20, 0⟩ ⟨0, 0, -1⟩ else touching ⟨0, 0, -1⟩ ⟨30, 40, 0⟩) true true
        false true) := by
  constructor
  · rintro ⟨-, -, second⟩
    rcases second 0 (by decide) with contained | full
    · revert contained
      unfold Contains
      decide
    · exact absurd (full 1) (by decide)
  · rintro ⟨distinct, -, -⟩
    exact absurd (distinct 0 1 (by decide) (by decide)) (by decide)

end ControllerState

end Chiaki
