import Mathlib.Tactic
import Chiaki.Controller.State
import Chiaki.Lib.Machine

/-!
# The identifiers of touches

Identifiers come from a counter of seven bits. A touch that is held while the counter goes around shares its
identifier with a new one, and a position that is set for an identifier from 128 on goes to the touch with the
same low bits. These are the only two ways in which a call meets a touch it does not name.
-/

namespace Chiaki

inductive TouchCall where
  | start (x y : UInt16)
  | stop (id : UInt8)
  | setPos (id : UInt8) (x y : UInt16)
  deriving DecidableEq

def ControllerTouch.pos (touch : ControllerTouch) : UInt16 × UInt16 := (touch.x, touch.y)

namespace ControllerState

def apply (state : ControllerState) : TouchCall → ControllerState
  | .start x y => (state.startTouch x y).1
  | .stop id => state.stopTouch id
  | .setPos id x y => state.setTouchPos id x y

/-- The state after some calls on an idle one. -/
def after (calls : List TouchCall) : ControllerState := calls.foldl apply idle

def Holds (state : ControllerState) (id : UInt8) (i : Fin controllerTouchesMax) : Prop :=
  (state.touches i).id.toInt = id.toNat

instance (state : ControllerState) (id : UInt8) (i : Fin controllerTouchesMax) : Decidable (state.Holds id i) :=
  inferInstanceAs (Decidable (_ = _))

/-- The active touches have distinct identifiers. -/
def Distinct (state : ControllerState) : Prop :=
  ∀ i j, 0 ≤ (state.touches i).id → (state.touches i).id = (state.touches j).id → i = j

instance (state : ControllerState) : Decidable state.Distinct := by unfold Distinct; infer_instance

/-- Nothing but the slot that holds the identifier changes. -/
def ChangesOnly (state : ControllerState) (id : UInt8) (state' : ControllerState) : Prop :=
  state' = { state with touches := state'.touches } ∧
    ∀ i, ¬ state.Holds id i → state'.touches i = state.touches i

/-- The position that was last set through the identifier. -/
def lastPos (id : UInt8) : UInt16 × UInt16 → List TouchCall → UInt16 × UInt16
  | pos, [] => pos
  | pos, .setPos id' x y :: calls => lastPos id (if id' = id then (x, y) else pos) calls
  | pos, _ :: calls => lastPos id pos calls

/-- What identifiers are for, at every moment of a sequence of calls on an idle state. -/
structure Identified (calls : List TouchCall) : Prop where
  distinct : ∀ before, before <+: calls → (after before).Distinct
  stop : ∀ before id, before ++ [.stop id] <+: calls →
    (after before).ChangesOnly id ((after before).stopTouch id)
  setPos : ∀ before id x y, before ++ [.setPos id x y] <+: calls →
    (after before).ChangesOnly id ((after before).setTouchPos id x y)
  refers : ∀ before x y between (id : UInt8), before ++ .start x y :: between <+: calls →
    ((after before).startTouch x y).2.toInt = id.toNat → .stop id ∉ between →
    ∃ i, ((after before).touches i).id < 0 ∧
      (∀ j, (after (before ++ .start x y :: between)).Holds id j ↔ j = i) ∧
      ((after (before ++ .start x y :: between)).touches i).pos = lastPos id (x, y) between

/-- The call meets no touch that it does not name: the next identifier is free when a touch starts, and a
position for an identifier out of range is one that the touch it goes to has already. -/
def Fresh (state : ControllerState) : TouchCall → Prop
  | .start _ _ => (∃ i, (state.touches i).id < 0) → ∀ i, ¬ state.Holds state.touchIdNext i
  | .stop _ => True
  | .setPos id x y => 128 ≤ id.toNat → ∀ i, state.Holds (id &&& 0x7f) i →
      (state.touches i).x = x ∧ (state.touches i).y = y

instance (state : ControllerState) : (call : TouchCall) → Decidable (state.Fresh call)
  | .start _ _ => inferInstanceAs (Decidable (_ → _))
  | .stop _ => inferInstanceAs (Decidable True)
  | .setPos _ _ _ => inferInstanceAs (Decidable (_ → _))

/-! ## What one call does -/

section Calls

variable {state : ControllerState} {i : Fin controllerTouchesMax}

theorem startTouch_cases (state : ControllerState) (x y : UInt16) :
    (∃ i, (state.touches i).id < 0 ∧
      state.startTouch x y = ({ state.setSlot i ⟨x, y, state.touchIdNext.toInt8⟩ with
        touchIdNext := (state.touchIdNext + 1) &&& 0x7f }, state.touchIdNext.toInt8)) ∨
    ((∀ i, ¬ (state.touches i).id < 0) ∧ state.startTouch x y = (state, -1)) := by
  unfold startTouch
  cases found : state.findSlot (fun touch => touch.id < 0) with
  | some i => exact .inl ⟨i, of_decide_eq_true (findSlot_some found), rfl⟩
  | none => exact .inr ⟨fun i => of_decide_eq_false (findSlot_none found i), rfl⟩

theorem stopTouch_cases (state : ControllerState) (id : UInt8) :
    (∃ i, state.Holds id i ∧ state.stopTouch id = state.setSlot i { state.touches i with id := -1 }) ∨
    ((∀ i, ¬ state.Holds id i) ∧ state.stopTouch id = state) := by
  unfold stopTouch
  cases found : state.findSlot (fun touch => touch.id.toInt = id.toNat) with
  | some i => exact .inl ⟨i, of_decide_eq_true (findSlot_some found), rfl⟩
  | none => exact .inr ⟨fun i => of_decide_eq_false (findSlot_none found i), rfl⟩

theorem setTouchPos_cases (state : ControllerState) (id : UInt8) (x y : UInt16) :
    (∃ i, state.Holds (id &&& 0x7f) i ∧
      state.setTouchPos id x y = state.setSlot i { state.touches i with x := x, y := y }) ∨
    ((∀ i, ¬ state.Holds (id &&& 0x7f) i) ∧ state.setTouchPos id x y = state) := by
  unfold setTouchPos
  cases found : state.findSlot (fun touch => touch.id.toInt = (id &&& 0x7f).toNat) with
  | some i => exact .inl ⟨i, of_decide_eq_true (findSlot_some found), rfl⟩
  | none => exact .inr ⟨fun i => of_decide_eq_false (findSlot_none found i), rfl⟩

theorem toNat_masked (id : UInt8) : (id &&& 0x7f).toNat = id.toNat % 128 := by
  rw [UInt8.toNat_and]
  exact Nat.and_two_pow_sub_one_eq_mod id.toNat 7

theorem masked_eq_self {id : UInt8} (h : id.toNat < 128) : id &&& 0x7f = id := by
  apply UInt8.toNat_inj.mp
  rw [toNat_masked, Nat.mod_eq_of_lt h]

theorem toInt_toInt8 {n : UInt8} (h : n.toNat < 128) : n.toInt8.toInt = n.toNat := by
  have small : 2 * n.toBitVec.toNat < 2 ^ 8 := by
    change 2 * n.toNat < 2 ^ 8
    omega
  rw [← Int8.toInt_toBitVec, UInt8.toBitVec_toInt8, BitVec.toInt_eq_toNat_of_lt small]
  rfl

theorem Holds.lt {id : UInt8} (h : state.Holds id i) : id.toNat < 128 := by
  have := Int8.toInt_lt (state.touches i).id
  unfold Holds at h
  omega

theorem Holds.active {id : UInt8} (h : state.Holds id i) : 0 ≤ (state.touches i).id := by
  rw [Int8.le_iff_toInt_le, h]
  exact Int.natCast_nonneg id.toNat

theorem Holds.not_free {id : UInt8} (h : state.Holds id i) : ¬ (state.touches i).id < 0 :=
  Int8.not_lt.mpr h.active

theorem Holds.same {id id' : UInt8} (h : state.Holds id i) (h' : state.Holds id' i) : id = id' :=
  UInt8.toNat_inj.mp (Int.ofNat_inj.mp (h.symm.trans h'))

theorem Distinct.unique {id : UInt8} {j : Fin controllerTouchesMax} (distinct : state.Distinct)
    (hi : state.Holds id i) (hj : state.Holds id j) : i = j :=
  distinct i j hi.active (Int8.toInt.inj (hi.trans hj.symm))

theorem Distinct.setSlot {touch : ControllerTouch} (distinct : state.Distinct)
    (free : 0 ≤ touch.id → ∀ j, j ≠ i → (state.touches j).id ≠ touch.id) : (state.setSlot i touch).Distinct := by
  intro j k active same
  by_cases hj : j = i
  · by_cases hk : k = i
    · rw [hj, hk]
    · rw [hj, setSlot_same] at active same
      rw [setSlot_other touch hk] at same
      exact absurd same.symm (free active k hk)
  · rw [setSlot_other touch hj] at active same
    by_cases hk : k = i
    · rw [hk, setSlot_same] at same
      exact absurd same (free (same ▸ active) j hj)
    · rw [setSlot_other touch hk] at same
      exact distinct j k active same

/-- The next identifier is one of seven bits. -/
def Issued (state : ControllerState) : Prop := state.touchIdNext.toNat < 128

theorem Issued.apply (issued : state.Issued) (call : TouchCall) : (state.apply call).Issued := by
  cases call with
  | start x y =>
      obtain ⟨i, -, started⟩ | ⟨-, full⟩ := startTouch_cases state x y
      · change (state.startTouch x y).1.touchIdNext.toNat < 128
        rw [started, toNat_masked]
        exact Nat.mod_lt _ (by decide)
      · change (state.startTouch x y).1.touchIdNext.toNat < 128
        rw [full]
        exact issued
  | stop id =>
      obtain ⟨i, -, stopped⟩ | ⟨-, nothing⟩ := stopTouch_cases state id
      · change (state.stopTouch id).touchIdNext.toNat < 128
        rw [stopped]
        exact issued
      · change (state.stopTouch id).touchIdNext.toNat < 128
        rw [nothing]
        exact issued
  | setPos id x y =>
      obtain ⟨i, -, moved⟩ | ⟨-, nothing⟩ := setTouchPos_cases state id x y
      · change (state.setTouchPos id x y).touchIdNext.toNat < 128
        rw [moved]
        exact issued
      · change (state.setTouchPos id x y).touchIdNext.toNat < 128
        rw [nothing]
        exact issued

theorem Distinct.apply (distinct : state.Distinct) (issued : state.Issued) {call : TouchCall}
    (fresh : state.Fresh call) : (state.apply call).Distinct := by
  cases call with
  | start x y =>
      obtain ⟨i, free, started⟩ | ⟨-, full⟩ := startTouch_cases state x y
      · change (state.startTouch x y).1.Distinct
        rw [started]
        refine distinct.setSlot fun _ j _ same => fresh ⟨i, free⟩ j ?_
        unfold Holds
        rw [same]
        exact toInt_toInt8 issued
      · change (state.startTouch x y).1.Distinct
        rw [full]
        exact distinct
  | stop id =>
      obtain ⟨i, -, stopped⟩ | ⟨-, nothing⟩ := stopTouch_cases state id
      · change (state.stopTouch id).Distinct
        rw [stopped]
        exact distinct.setSlot fun active => absurd (show (0 : Int8) ≤ -1 from active) (by decide)
      · change (state.stopTouch id).Distinct
        rw [nothing]
        exact distinct
  | setPos id x y =>
      obtain ⟨i, -, moved⟩ | ⟨-, nothing⟩ := setTouchPos_cases state id x y
      · change (state.setTouchPos id x y).Distinct
        rw [moved]
        exact distinct.setSlot fun active j hj same => hj (distinct i j active same.symm).symm
      · change (state.setTouchPos id x y).Distinct
        rw [nothing]
        exact distinct

theorem changesOnly_refl (id : UInt8) : state.ChangesOnly id state := ⟨rfl, fun _ _ => rfl⟩

theorem Holds.changesOnly {id : UInt8} (h : state.Holds id i) (touch : ControllerTouch) :
    state.ChangesOnly id (state.setSlot i touch) := by
  refine ⟨rfl, fun j other => setSlot_other touch ?_⟩
  rintro rfl
  exact other h

theorem changesOnly_stopTouch (id : UInt8) : state.ChangesOnly id (state.stopTouch id) := by
  obtain ⟨i, holds, stopped⟩ | ⟨-, nothing⟩ := stopTouch_cases state id
  · rw [stopped]
    exact holds.changesOnly _
  · rw [nothing]
    exact changesOnly_refl id

theorem setSlot_self {touch : ControllerTouch} (h : state.touches i = touch) : state.setSlot i touch = state := by
  subst h
  simp [ControllerState.setSlot]

theorem changesOnly_setTouchPos {id : UInt8} {x y : UInt16} (fresh : state.Fresh (.setPos id x y)) :
    state.ChangesOnly id (state.setTouchPos id x y) := by
  obtain ⟨i, holds, moved⟩ | ⟨-, nothing⟩ := setTouchPos_cases state id x y
  · rw [moved]
    by_cases inRange : id.toNat < 128
    · rw [masked_eq_self inRange] at holds
      exact holds.changesOnly _
    · obtain ⟨rfl, rfl⟩ := fresh (Nat.le_of_not_lt inRange) i holds
      rw [setSlot_self rfl]
      exact changesOnly_refl id
  · rw [nothing]
    exact changesOnly_refl id

/-- A slot keeps its identifier until it is stopped, and its position until it is set. -/
theorem Holds.apply {id : UInt8} (h : state.Holds id i) (distinct : state.Distinct) {call : TouchCall}
    (fresh : state.Fresh call) (going : call ≠ .stop id) :
    (state.apply call).Holds id i ∧ ((state.apply call).touches i).pos = lastPos id (state.touches i).pos [call] := by
  cases call with
  | start x y =>
      change (state.startTouch x y).1.Holds id i ∧ ((state.startTouch x y).1.touches i).pos = (state.touches i).pos
      obtain ⟨k, free, started⟩ | ⟨-, full⟩ := startTouch_cases state x y
      · have other : i ≠ k := by
          rintro rfl
          exact h.not_free free
        have kept : (state.startTouch x y).1.touches i = state.touches i := by
          rw [started]
          exact setSlot_other _ other
        unfold Holds
        rw [kept]
        exact ⟨h, rfl⟩
      · rw [full]
        exact ⟨h, rfl⟩
  | stop id' =>
      change (state.stopTouch id').Holds id i ∧ ((state.stopTouch id').touches i).pos = (state.touches i).pos
      have kept : (state.stopTouch id').touches i = state.touches i := by
        refine (changesOnly_stopTouch id').2 i fun h' => going ?_
        rw [h.same h']
      unfold Holds
      rw [kept]
      exact ⟨h, rfl⟩
  | setPos id' x y =>
      change (state.setTouchPos id' x y).Holds id i ∧
        ((state.setTouchPos id' x y).touches i).pos = if id' = id then (x, y) else (state.touches i).pos
      by_cases named : id' = id
      · subst named
        obtain ⟨k, holds, moved⟩ | ⟨nobody, -⟩ := setTouchPos_cases state id' x y
        · rw [masked_eq_self h.lt] at holds
          obtain rfl := distinct.unique h holds
          rw [moved, if_pos rfl]
          unfold Holds
          rw [setSlot_same]
          exact ⟨h, rfl⟩
        · rw [masked_eq_self h.lt] at nobody
          exact absurd h (nobody i)
      · have kept : (state.setTouchPos id' x y).touches i = state.touches i :=
          (changesOnly_setTouchPos fresh).2 i fun h' => named (h'.same h)
        unfold Holds
        rw [kept, if_neg named]
        exact ⟨h, rfl⟩

/-! ## What goes wrong otherwise -/

theorem fresh_of_distinct {x y : UInt16} (issued : state.Issued) (next : (state.apply (.start x y)).Distinct) :
    state.Fresh (.start x y) := by
  rintro ⟨i, free⟩ j holds
  change (state.startTouch x y).1.Distinct at next
  obtain ⟨k, free, started⟩ | ⟨full, -⟩ := startTouch_cases state x y
  · have other : j ≠ k := by
      rintro rfl
      exact holds.not_free free
    rw [started] at next
    refine other (next j k ?_ ?_)
    · change 0 ≤ ((state.setSlot k _).touches j).id
      rw [setSlot_other _ other]
      exact holds.active
    · change ((state.setSlot k _).touches j).id = ((state.setSlot k _).touches k).id
      rw [setSlot_other _ other, setSlot_same]
      exact Int8.toInt.inj (holds.trans (toInt_toInt8 issued).symm)
  · exact full i free

theorem fresh_of_changesOnly {id : UInt8} {x y : UInt16} (distinct : state.Distinct)
    (only : state.ChangesOnly id (state.setTouchPos id x y)) : state.Fresh (.setPos id x y) := by
  intro outOfRange i holds
  have unnamed : ¬ state.Holds id i := fun h => absurd h.lt (Nat.not_lt.mpr outOfRange)
  have kept := only.2 i unnamed
  obtain ⟨k, found, moved⟩ | ⟨nobody, -⟩ := setTouchPos_cases state id x y
  · obtain rfl := distinct.unique holds found
    rw [moved, setSlot_same] at kept
    exact ⟨(congrArg ControllerTouch.x kept).symm, (congrArg ControllerTouch.y kept).symm⟩
  · exact absurd holds (nobody i)

/-! ## Sequences of calls -/

theorem lastPos_cons (id : UInt8) (pos : UInt16 × UInt16) (call : TouchCall) (calls : List TouchCall) :
    lastPos id pos (call :: calls) = lastPos id (lastPos id pos [call]) calls := by
  cases call <;> rfl

theorem invariant_calls {calls : List TouchCall} (distinct : state.Distinct) (issued : state.Issued)
    (fresh : Machine.Follows apply Fresh state calls) :
    (calls.foldl apply state).Distinct ∧ (calls.foldl apply state).Issued := by
  induction calls generalizing state with
  | nil => exact ⟨distinct, issued⟩
  | cons call calls ih => exact ih (distinct.apply issued fresh.1) (issued.apply call) fresh.2

theorem Holds.calls {id : UInt8} {calls : List TouchCall} (h : state.Holds id i) (distinct : state.Distinct)
    (issued : state.Issued) (fresh : Machine.Follows ControllerState.apply Fresh state calls) (going : .stop id ∉ calls) :
    (calls.foldl ControllerState.apply state).Holds id i ∧
      ((calls.foldl ControllerState.apply state).touches i).pos = lastPos id (state.touches i).pos calls := by
  induction calls generalizing state with
  | nil => exact ⟨h, rfl⟩
  | cons call calls ih =>
      obtain ⟨now, later⟩ := not_or.mp (List.mem_cons.not.mp going)
      obtain ⟨held, pos⟩ := h.apply distinct fresh.1 (Ne.symm now)
      rw [lastPos_cons, ← pos]
      exact ih held (distinct.apply issued fresh.1) (issued.apply call) fresh.2 later

end Calls

theorem distinct_idle : idle.Distinct := by decide

theorem issued_idle : idle.Issued := by
  unfold Issued
  decide

theorem after_append (before calls : List TouchCall) : after (before ++ calls) = calls.foldl apply (after before) :=
  List.foldl_append

/-- Identifiers do what they are for exactly as long as every call meets no touch that it does not name. -/
theorem identified_iff_fresh (calls : List TouchCall) :
    Identified calls ↔ Machine.Follows apply Fresh idle calls := by
  rw [Machine.follows_iff_prefix]
  constructor
  · intro identified before call isPrefix
    have earlier : before <+: calls := (List.prefix_append before [call]).trans isPrefix
    have issued : (after before).Issued := by
      clear isPrefix earlier
      induction before using List.reverseRecOn with
      | nil => exact issued_idle
      | append_singleton before call ih =>
          rw [after_append]
          exact ih.apply call
    cases call with
    | start x y =>
        have next := identified.distinct _ isPrefix
        rw [after_append] at next
        exact fresh_of_distinct issued next
    | stop id => trivial
    | setPos id x y =>
        exact fresh_of_changesOnly (identified.distinct before earlier) (identified.setPos before id x y isPrefix)
  · intro fresh
    have invariant : ∀ before, before <+: calls → (after before).Distinct ∧ (after before).Issued := by
      intro before isPrefix
      refine invariant_calls distinct_idle issued_idle (Machine.follows_iff_prefix.mpr fun before' call h => ?_)
      exact fresh before' call (h.trans isPrefix)
    refine ⟨fun before h => (invariant before h).1, fun _ id _ => changesOnly_stopTouch id,
      fun before id x y h => changesOnly_setTouchPos (fresh before _ h), ?_⟩
    intro before x y between id isPrefix returned going
    have fresh : Machine.Follows apply Fresh idle (before ++ .start x y :: between) :=
      Machine.follows_iff_prefix.mpr fun before' call h => fresh before' call (h.trans isPrefix)
    have later := (Machine.follows_append.mp fresh).2
    obtain ⟨distinct, issued⟩ := invariant before ((List.prefix_append before _).trans isPrefix)
    rw [after_append, List.foldl_cons]
    have next := distinct.apply issued later.1
    have issued' := issued.apply (.start x y)
    obtain ⟨i, free, started⟩ | ⟨-, full⟩ := startTouch_cases (after before) x y
    · rw [started] at returned
      have slot : ((after before).apply (.start x y)).touches i = ⟨x, y, (after before).touchIdNext.toInt8⟩ := by
        change ((after before).startTouch x y).1.touches i = _
        rw [started]
        exact setSlot_same _ _ _
      have held : ((after before).apply (.start x y)).Holds id i := by
        unfold Holds
        rw [slot]
        exact returned
      obtain ⟨kept, pos⟩ := held.calls next issued' later.2 going
      refine ⟨i, free, fun j => ⟨fun hj => ?_, fun hj => hj ▸ kept⟩, ?_⟩
      · exact (invariant_calls next issued' later.2).1.unique hj kept
      · rw [pos, slot]
        rfl
    · rw [full] at returned
      have : (-1 : Int8).toInt = -1 := by decide
      have positive := Int.natCast_nonneg id.toNat
      change (-1 : Int8).toInt = id.toNat at returned
      omega

/-- Turns of the second slot: a touch that starts and stops with the identifier after `n`. -/
def turns (n : Nat) : List TouchCall :=
  (List.range n).flatMap fun n => [.start 0 0, .stop (UInt8.ofNat (n + 1))]

/-- The first slot is held with the identifier 0. -/
def heldState (n : Nat) : ControllerState :=
  { idle with touchIdNext := UInt8.ofNat (n + 1) &&& 0x7f, touches := ![⟨10, 10, 0⟩, ⟨0, 0, -1⟩] }

theorem eq_of_slots {a b : ControllerState} (slots : ∀ i, a.touches i = b.touches i)
    (rest : a = { b with touches := a.touches }) : a = b := by
  rw [rest, funext slots]

theorem heldState_turn (n : Fin 127) :
    ((heldState n).apply (.start 0 0)).apply (.stop (UInt8.ofNat (n + 1))) = heldState (n + 1) := by
  apply eq_of_slots
  · revert n
    decide +kernel
  · revert n
    decide +kernel

theorem after_turns {n : Nat} (h : n ≤ 127) : after (.start 10 10 :: turns n) = heldState n := by
  induction n with
  | zero =>
      apply eq_of_slots
      · decide +kernel
      · decide +kernel
  | succ n ih =>
      have split : turns (n + 1) = turns n ++ [.start 0 0, .stop (UInt8.ofNat (n + 1))] := by
        simp [turns, List.range_succ]
      rw [split, ← List.cons_append, after_append, ih (by omega)]
      exact heldState_turn ⟨n, by omega⟩

/-- A touch is held while the counter goes around, and the next touch has its identifier. -/
theorem not_identified_held : ¬ Identified (.start 10 10 :: turns 127 ++ [.start 20 20]) := by
  intro identified
  have distinct := identified.distinct _ (List.prefix_refl _)
  rw [after_append, after_turns (Nat.le_refl 127)] at distinct
  revert distinct
  decide +kernel

end ControllerState

end Chiaki
