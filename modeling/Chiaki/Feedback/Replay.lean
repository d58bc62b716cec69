import Mathlib.Data.List.ReduceOption
import Chiaki.Feedback.History
import Chiaki.Lib.SlotDiff

/-!
# Replaying the feedback history

The console sees events only. What it knows is what the events say when they are taken one after the other, the
touches as a map from identifiers to positions.
-/

namespace Chiaki

open SlotDiff (Change)

/-! ## What an event says -/

inductive HistoryEvent where
  | button (i : Nat) (down : Bool)
  | analog (button : ControllerAnalogButton) (state : UInt8)
  | touch (change : Change UInt8 (UInt16 × UInt16))
  deriving DecidableEq

/-- The buttons whose events have a third byte. -/
def stateCodes : List (UInt8 × Nat) :=
  [(0x88, 0), (0x89, 1), (0x8a, 2), (0x8b, 3), (0x82, 4), (0x83, 5), (0x80, 6), (0x81, 7), (0x84, 8), (0x85, 9)]

/-- The buttons whose events have two bytes, and the second byte for a release. The one for a press has one
more bit. -/
def plainCodes : List (UInt8 × Nat) :=
  [(0x8f, 10), (0x90, 11), (0x8c, 12), (0x8d, 13), (0x91, 14), (0x8e, 15)]

def HistoryEvent.parse : Bytes → Option HistoryEvent
  | [kind, code] =>
      if kind ≠ 0x80 then none
      else ((plainCodes.lookup code).map (.button · false)).or
        ((plainCodes.lookup (code - 0x20)).map (.button · true))
  | [kind, code, state] =>
      if kind ≠ 0x80 then none
      else if code = 0x86 then some (.analog .l2 state)
      else if code = 0x87 then some (.analog .r2 state)
      else (stateCodes.lookup code).map (.button · (state ≠ 0))
  | [kind, id, b₂, b₃, b₄] =>
      if kind = 0xd0 then
        some (.touch (.down id (UInt16.ofNat (b₂.toNat * 16 + b₃.toNat / 16),
          UInt16.ofNat (b₃.toNat % 16 * 256 + b₄.toNat))))
      else if kind = 0xc0 then some (.touch (.up id))
      else none
  | _ => none

/-! ## What the console knows -/

structure Console where
  buttons : Nat → Bool
  l2State : UInt8
  r2State : UInt8
  touches : UInt8 → Option (UInt16 × UInt16)

namespace Console

def apply (console : Console) : HistoryEvent → Console
  | .button i down => { console with buttons := Function.update console.buttons i down }
  | .analog .l2 state => { console with l2State := state }
  | .analog .r2 state => { console with r2State := state }
  | .touch change => { console with touches := change.apply console.touches }

def receive (console : Console) (event : Bytes) : Console :=
  match HistoryEvent.parse event with
  | some event => console.apply event
  | none => console

def replay (console : Console) (history : List Bytes) : Console := history.foldl receive console

end Console

/-- The slot as an entry of the map, if a touch is active in it. -/
def ControllerTouch.entry (touch : ControllerTouch) : Option (UInt8 × UInt16 × UInt16) :=
  if 0 ≤ touch.id then some (touch.id.toUInt8, touch.x, touch.y) else none

namespace ControllerState

def slots (state : ControllerState) : SlotDiff.Slots UInt8 (UInt16 × UInt16) :=
  ((state.touches 0).entry, (state.touches 1).entry)

/-- What the console has to know. -/
def view (state : ControllerState) : Console where
  buttons := state.buttons.getLsbD
  l2State := state.l2State
  r2State := state.r2State
  touches := SlotDiff.toMap state.slots

/-- The active touches have distinct identifiers, and positions of 12 bits. -/
def WellTouched (state : ControllerState) : Prop :=
  (0 ≤ (state.touches 0).id → (state.touches 0).id ≠ (state.touches 1).id) ∧
    ∀ i, 0 ≤ (state.touches i).id → (state.touches i).x < 4096 ∧ (state.touches i).y < 4096

instance (state : ControllerState) : Decidable state.WellTouched := by unfold WellTouched; infer_instance

end ControllerState

namespace Iteration

/-- The events take the console from the one state to the other. -/
def Replays (iteration : Iteration) : Prop :=
  iteration.prev.view.replay iteration.history = iteration.now.view

/-- No active touch is replaced by another one in its slot or moves from the second slot to the first, and no
bit changes that is not one of the sixteen buttons. -/
def Separate (iteration : Iteration) : Prop :=
  (∀ i, 0 ≤ (iteration.prev.touches i).id → 0 ≤ (iteration.now.touches i).id →
    (iteration.prev.touches i).id = (iteration.now.touches i).id) ∧
  ¬ ((iteration.prev.touches 0).id < 0 ∧ 0 ≤ (iteration.prev.touches 1).id ∧
    (iteration.now.touches 0).id = (iteration.prev.touches 1).id ∧ (iteration.now.touches 1).id < 0) ∧
  iteration.prev.buttons.toNat / 2 ^ 16 = iteration.now.buttons.toNat / 2 ^ 16

instance (iteration : Iteration) : Decidable iteration.Separate := by unfold Separate; infer_instance

end Iteration

/-! ## Events and what they say -/

theorem parse_button : ∀ (i : Fin controllerButtonsCount) (down : Bool),
    (feedbackHistoryEventSetButton (2 ^ i.val) (if down then 0xff else 0)).toOption.bind HistoryEvent.parse =
      some (.button i down) := by decide

theorem parse_analog (button : ControllerAnalogButton) (state : UInt8) :
    (feedbackHistoryEventSetButton button.value state).toOption.bind HistoryEvent.parse =
      some (.analog button state) := by
  cases button with
  | l2 => rfl
  | r2 => rfl

theorem masked_toUInt8 {id : Int8} (h : 0 ≤ id) : id.toUInt8 &&& 0x7f = id.toUInt8 := by
  have small : 2 * id.toBitVec.toNat < 2 ^ 8 := BitVec.toInt_pos_iff.mp (Int8.le_iff_toInt_le.mp h)
  apply UInt8.toNat_inj.mp
  rw [UInt8.toNat_and]
  change id.toBitVec.toNat &&& (2 ^ 7 - 1) = id.toBitVec.toNat
  rw [Nat.and_two_pow_sub_one_eq_mod, Nat.mod_eq_of_lt]
  omega

theorem parse_touchpad_up (id : UInt8) (x y : UInt16) :
    HistoryEvent.parse (feedbackHistoryEventSetTouchpad false id x y) = some (.touch (.up (id &&& 0x7f))) := rfl

theorem parse_touchpad_down {id : UInt8} {x y : UInt16} (hx : x < 4096) (hy : y < 4096) :
    HistoryEvent.parse (feedbackHistoryEventSetTouchpad true id x y) =
      some (.touch (.down (id &&& 0x7f) (x, y))) := by
  have hx : x.toNat < 4096 := UInt16.lt_iff_toNat_lt.mp hx
  have hy : y.toNat < 4096 := UInt16.lt_iff_toNat_lt.mp hy
  have high : (x >>> 4).toUInt8.toNat = x.toNat / 16 := by
    rw [UInt16.toNat_toUInt8, UInt16.toNat_shiftRight]
    change (x.toNat >>> 4) % 256 = _
    rw [Nat.shiftRight_eq_div_pow]
    omega
  have low : y.toUInt8.toNat = y.toNat % 256 := UInt16.toNat_toUInt8 y
  have upper : ((x &&& 0xf) <<< 4).toUInt8.toNat = x.toNat % 16 * 16 := by
    rw [UInt16.toNat_toUInt8, UInt16.toNat_shiftLeft, UInt16.toNat_and]
    change ((x.toNat &&& (2 ^ 4 - 1)) <<< 4) % 2 ^ 16 % 256 = _
    rw [Nat.and_two_pow_sub_one_eq_mod, Nat.shiftLeft_eq]
    omega
  have lower : (y >>> 8).toUInt8.toNat = y.toNat / 256 := by
    rw [UInt16.toNat_toUInt8, UInt16.toNat_shiftRight]
    change (y.toNat >>> 8) % 256 = _
    rw [Nat.shiftRight_eq_div_pow]
    omega
  have shared : (((x &&& 0xf) <<< 4).toUInt8 ||| (y >>> 8).toUInt8).toNat = 16 * (x.toNat % 16) + y.toNat / 256 := by
    have fits : y.toNat / 256 < 2 ^ 4 := by omega
    rw [UInt8.toNat_or, upper, lower, Nat.mul_comm]
    exact (Nat.two_pow_add_eq_or_of_lt fits (x.toNat % 16)).symm
  have first : x.toNat / 16 * 16 + (16 * (x.toNat % 16) + y.toNat / 256) / 16 = x.toNat := by omega
  have second : (16 * (x.toNat % 16) + y.toNat / 256) % 16 * 256 + y.toNat % 256 = y.toNat := by omega
  simp only [feedbackHistoryEventSetTouchpad, HistoryEvent.parse, if_true, high, low, shared, first, second,
    UInt16.ofNat_toNat]

theorem parse_touchEvent {prev now : ControllerTouch} (fits : 0 ≤ now.id → now.x < 4096 ∧ now.y < 4096) :
    (touchEvent prev now).bind HistoryEvent.parse = (SlotDiff.diffSlot prev.entry now.entry).map .touch := by
  by_cases held : 0 ≤ prev.id
  · have entry : prev.entry = some (prev.id.toUInt8, prev.x, prev.y) := if_pos held
    by_cases active : 0 ≤ now.id
    · have entry' : now.entry = some (now.id.toUInt8, now.x, now.y) := if_pos active
      by_cases same : prev.id = now.id
      · by_cases still : prev.x = now.x ∧ prev.y = now.y
        · simp [touchEvent, entry, entry', SlotDiff.diffSlot, same, still]
        · obtain ⟨hx, hy⟩ := fits active
          have moved : prev.x ≠ now.x ∨ prev.y ≠ now.y := not_and_or.mp still
          simp [touchEvent, entry, entry', SlotDiff.diffSlot, same, still, moved, active,
            parse_touchpad_down hx hy, masked_toUInt8]
      · have differ : prev.id.toUInt8 ≠ now.id.toUInt8 := fun h => same (by simpa using congrArg UInt8.toInt8 h)
        simp [touchEvent, entry, entry', SlotDiff.diffSlot, same, differ, held, parse_touchpad_up, masked_toUInt8]
    · have entry' : now.entry = none := if_neg active
      have same : prev.id ≠ now.id := fun h => active (h ▸ held)
      simp [touchEvent, entry, entry', SlotDiff.diffSlot, same, held, parse_touchpad_up, masked_toUInt8]
  · have entry : prev.entry = none := if_neg held
    by_cases active : 0 ≤ now.id
    · have entry' : now.entry = some (now.id.toUInt8, now.x, now.y) := if_pos active
      have same : prev.id ≠ now.id := fun h => held (h ▸ active)
      obtain ⟨hx, hy⟩ := fits active
      simp [touchEvent, entry, entry', SlotDiff.diffSlot, same, held, active, parse_touchpad_down hx hy,
        masked_toUInt8]
    · have entry' : now.entry = none := if_neg active
      simp [touchEvent, entry, entry', SlotDiff.diffSlot, held, active]

/-! ## Replaying the parts -/

namespace Console

variable (console : Console)

theorem replay_append (history history' : List Bytes) :
    console.replay (history ++ history') = (console.replay history).replay history' := List.foldl_append

theorem replay_toList (event : Option Bytes) :
    console.replay event.toList = ((event.bind HistoryEvent.parse).map console.apply).getD console := by
  cases event with
  | none => rfl
  | some event =>
      change console.receive event = _
      rw [receive]
      cases h : HistoryEvent.parse event <;> simp [h]

theorem replay_button {prev now : BitVec 32} {i : Nat} (hi : i < controllerButtonsCount)
    (known : console.buttons i = prev.getLsbD i) :
    console.replay (buttonEvent prev now i).toList =
      { console with buttons := Function.update console.buttons i (now.getLsbD i) } := by
  rw [replay_toList, buttonEvent]
  by_cases same : prev.getLsbD i = now.getLsbD i
  · rw [if_pos same, ← same, ← known, Function.update_eq_self]
    rfl
  · rw [if_neg same, parse_button ⟨i, hi⟩]
    rfl

theorem replay_buttons {prev now : BitVec 32} (known : console.buttons = prev.getLsbD) {n : Nat}
    (hn : n ≤ controllerButtonsCount) :
    console.replay ((List.range n).filterMap (buttonEvent prev now)) =
      { console with buttons := fun i => if i < n then now.getLsbD i else prev.getLsbD i } := by
  induction n with
  | zero => simp [replay, ← known]
  | succ n ih =>
      have last : [n].filterMap (buttonEvent prev now) = (buttonEvent prev now n).toList := by
        cases h : buttonEvent prev now n <;> simp [h]
      rw [List.range_succ, List.filterMap_append, replay_append, ih (by omega), last, replay_button _ hn (by simp)]
      congr 1
      funext i
      by_cases same : i = n
      · simp [same]
      · have : i < n + 1 ↔ i < n := by omega
        simp [same, this]

theorem replay_l2 (prev now : UInt8) (known : console.l2State = prev) :
    console.replay (analogEvent .l2 prev now).toList = { console with l2State := now } := by
  rw [replay_toList, analogEvent]
  by_cases same : prev = now
  · rw [if_pos same, ← same, ← known]
    rfl
  · rw [if_neg same, parse_analog]
    rfl

theorem replay_r2 (prev now : UInt8) (known : console.r2State = prev) :
    console.replay (analogEvent .r2 prev now).toList = { console with r2State := now } := by
  rw [replay_toList, analogEvent]
  by_cases same : prev = now
  · rw [if_pos same, ← same, ← known]
    rfl
  · rw [if_neg same, parse_analog]
    rfl

theorem replay_touch {prev now : ControllerTouch} (fits : 0 ≤ now.id → now.x < 4096 ∧ now.y < 4096) :
    console.replay (touchEvent prev now).toList = { console with
      touches := (SlotDiff.diffSlot prev.entry now.entry).toList.foldl Change.apply console.touches } := by
  rw [replay_toList, parse_touchEvent fits]
  cases SlotDiff.diffSlot prev.entry now.entry <;> rfl

end Console

/-! ## Replaying the difference of two states -/

section Difference

variable {prev now : ControllerState}

theorem replay_sendHistory (hnow : now.WellTouched) :
    prev.view.replay (feedbackSenderSendHistory prev now) =
      { buttons := fun i => if i < controllerButtonsCount then now.buttons.getLsbD i else prev.buttons.getLsbD i
        l2State := now.l2State
        r2State := now.r2State
        touches := (SlotDiff.diff prev.slots now.slots).foldl Change.apply (SlotDiff.toMap prev.slots) } := by
  have touches : ((List.finRange controllerTouchesMax).filterMap fun i => touchEvent (prev.touches i) (now.touches i))
      = (touchEvent (prev.touches 0) (now.touches 0)).toList ++ (touchEvent (prev.touches 1) (now.touches 1)).toList := by
    cases first : touchEvent (prev.touches 0) (now.touches 0) <;>
      cases second : touchEvent (prev.touches 1) (now.touches 1) <;>
      simp [List.finRange_succ, first, second]
  rw [feedbackSenderSendHistory, touches, Console.replay_append, Console.replay_append, Console.replay_append,
    Console.replay_append, Console.replay_buttons prev.view rfl le_rfl, Console.replay_l2 _ prev.l2State,
    Console.replay_r2 _ prev.r2State, Console.replay_touch _ (hnow.2 0), Console.replay_touch _ (hnow.2 1),
    SlotDiff.diff, List.foldl_append]
  · rfl
  · rfl
  · rfl

theorem bits_iff : (fun i => if i < controllerButtonsCount then now.buttons.getLsbD i else prev.buttons.getLsbD i) =
    now.buttons.getLsbD ↔ prev.buttons.toNat / 2 ^ 16 = now.buttons.toNat / 2 ^ 16 := by
  constructor
  · intro same
    apply Nat.eq_of_testBit_eq
    intro i
    have := congrFun same (i + 16)
    rw [Nat.testBit_div_two_pow, Nat.testBit_div_two_pow, BitVec.testBit_toNat, BitVec.testBit_toNat]
    simpa [controllerButtonsCount] using this
  · intro same
    funext i
    by_cases hi : i < controllerButtonsCount
    · exact if_pos hi
    · have := congrArg (·.testBit (i - 16)) same
      simp only [Nat.testBit_div_two_pow] at this
      rw [if_neg hi]
      have back : i - 16 + 16 = i := Nat.sub_add_cancel (Nat.le_of_not_lt hi)
      rwa [back] at this

theorem distinct_slots {state : ControllerState} (h : state.WellTouched) : SlotDiff.Distinct state.slots := by
  by_cases first : 0 ≤ (state.touches 0).id
  · by_cases second : 0 ≤ (state.touches 1).id
    · have differ := h.1 first
      simp only [ControllerState.slots, ControllerTouch.entry, if_pos first, if_pos second]
      exact fun same => differ (by simpa using congrArg UInt8.toInt8 same)
    · simp only [ControllerState.slots, ControllerTouch.entry, if_pos first, if_neg second]
      trivial
  · simp only [ControllerState.slots, ControllerTouch.entry, if_neg first]
    trivial

theorem replaced_iff {touch touch' : ControllerTouch} :
    SlotDiff.Replaced touch.entry touch'.entry ↔ 0 ≤ touch.id ∧ 0 ≤ touch'.id ∧ touch.id ≠ touch'.id := by
  by_cases first : 0 ≤ touch.id
  · by_cases second : 0 ≤ touch'.id
    · simp only [ControllerTouch.entry, if_pos first, if_pos second]
      refine ⟨fun h => ⟨first, second, fun same => h (congrArg Int8.toUInt8 same)⟩, fun h same => h.2.2 ?_⟩
      simpa using congrArg UInt8.toInt8 same
    · simp [ControllerTouch.entry, first, second, SlotDiff.Replaced]
  · simp [ControllerTouch.entry, first, SlotDiff.Replaced]

theorem crossed_iff : SlotDiff.Crossed prev.slots now.slots ↔
    (prev.touches 0).id < 0 ∧ 0 ≤ (prev.touches 1).id ∧ (now.touches 0).id = (prev.touches 1).id ∧
      (now.touches 1).id < 0 := by
  simp only [ControllerState.slots, ControllerTouch.entry, ← Int8.not_le]
  by_cases h₁ : 0 ≤ (prev.touches 0).id
  · simp [h₁, SlotDiff.Crossed]
  by_cases h₂ : 0 ≤ (prev.touches 1).id
  · by_cases h₃ : 0 ≤ (now.touches 0).id
    · by_cases h₄ : 0 ≤ (now.touches 1).id
      · simp [h₁, h₂, h₃, h₄, SlotDiff.Crossed]
      · simp only [h₁, h₂, h₃, h₄, if_true, if_false, SlotDiff.Crossed, not_false_eq_true, true_and, and_true]
        refine ⟨fun same => ?_, fun same => by rw [same]⟩
        simpa using (congrArg UInt8.toInt8 same).symm
    · have differ : (now.touches 0).id ≠ (prev.touches 1).id := fun same => h₃ (same ▸ h₂)
      simp [h₁, h₂, h₃, differ, SlotDiff.Crossed]
  · simp [h₁, h₂, SlotDiff.Crossed]

/-- The difference of two states is replayed right exactly if the touches are kept apart. -/
theorem replay_iff (hprev : prev.WellTouched) (hnow : now.WellTouched) :
    prev.view.replay (feedbackSenderSendHistory prev now) = now.view ↔
      (∀ i, 0 ≤ (prev.touches i).id → 0 ≤ (now.touches i).id → (prev.touches i).id = (now.touches i).id) ∧
      ¬ ((prev.touches 0).id < 0 ∧ 0 ≤ (prev.touches 1).id ∧ (now.touches 0).id = (prev.touches 1).id ∧
        (now.touches 1).id < 0) ∧
      prev.buttons.toNat / 2 ^ 16 = now.buttons.toNat / 2 ^ 16 := by
  have touches := SlotDiff.apply_diff_iff (distinct_slots hprev) (distinct_slots hnow)
  have first : SlotDiff.Replaced prev.slots.1 now.slots.1 ↔ _ := replaced_iff
  have second : SlotDiff.Replaced prev.slots.2 now.slots.2 ↔ _ := replaced_iff
  rw [first, second, crossed_iff] at touches
  rw [replay_sendHistory hnow]
  unfold ControllerState.view
  rw [Console.mk.injEq, bits_iff, touches]
  constructor
  · rintro ⟨bits, -, -, kept₀, kept₁, straight⟩
    refine ⟨fun i held active => ?_, straight, bits⟩
    by_contra differ
    fin_cases i
    · exact kept₀ ⟨held, active, differ⟩
    · exact kept₁ ⟨held, active, differ⟩
  · rintro ⟨kept, straight, bits⟩
    exact ⟨bits, rfl, rfl, fun h => h.2.2 (kept 0 h.1 h.2.1), fun h => h.2.2 (kept 1 h.1 h.2.1), straight⟩

end Difference

/-! ## Runs of the sender -/

theorem equalsForFeedbackHistory_iff {a b : ControllerState} : equalsForFeedbackHistory a b = true ↔
    a.buttons = b.buttons ∧ a.l2State = b.l2State ∧ a.r2State = b.r2State ∧
      ∀ i, (a.touches i).id = (b.touches i).id ∧
        (0 ≤ (a.touches i).id → (a.touches i).x = (b.touches i).x ∧ (a.touches i).y = (b.touches i).y) := by
  simp [equalsForFeedbackHistory, and_assoc, imp_iff_not_or, Int8.not_le]

theorem sendHistory_of_equals {prev now : ControllerState} (h : equalsForFeedbackHistory now prev = true) :
    feedbackSenderSendHistory prev now = [] := by
  obtain ⟨buttons, l2, r2, touches⟩ := equalsForFeedbackHistory_iff.mp h
  have still : ∀ i, touchEvent (prev.touches i) (now.touches i) = none := by
    intro i
    obtain ⟨id, pos⟩ := touches i
    by_cases active : 0 ≤ (now.touches i).id
    · simp [touchEvent, ← id, pos active]
    · simp [touchEvent, ← id, active]
  have none : ∀ i ∈ List.range controllerButtonsCount, buttonEvent prev.buttons now.buttons i = none := by
    intro i _
    simp [buttonEvent, buttons]
  simp [feedbackSenderSendHistory, analogEvent, l2, r2, still, List.filterMap_eq_nil_iff.mpr none]

theorem equalsForFeedbackHistory_refl (state : ControllerState) : equalsForFeedbackHistory state state = true :=
  equalsForFeedbackHistory_iff.mpr ⟨rfl, rfl, rfl, fun _ => ⟨rfl, fun _ => ⟨rfl, rfl⟩⟩⟩

def FeedbackInput.WellTouched : FeedbackInput → Prop
  | .setControllerState state _ => state.WellTouched
  | _ => True

instance : (input : FeedbackInput) → Decidable input.WellTouched
  | .setControllerState state _ => inferInstanceAs (Decidable state.WellTouched)
  | .iteration => inferInstanceAs (Decidable True)
  | .stop => inferInstanceAs (Decidable True)

namespace FeedbackSender

/-- The iterations of the thread in a run of the sender. -/
def iterations (inputs : List FeedbackInput) : List Iteration := (Machine.runTotal step init inputs).2.reduceOption

/-- The last state the thread has processed. -/
def processed (inputs : List FeedbackInput) : ControllerState :=
  (Machine.runTotal step init inputs).1.controllerStatePrev

structure Settled (sender : FeedbackSender) : Prop where
  prev : sender.controllerStatePrev.WellTouched
  now : sender.controllerState.WellTouched
  unchanged : sender.controllerStateChanged = false → sender.controllerState = sender.controllerStatePrev

theorem settled_init : init.Settled := ⟨by decide, by decide, fun _ => rfl⟩

variable {sender : FeedbackSender}

theorem Settled.step (h : sender.Settled) {input : FeedbackInput} (well : input.WellTouched) :
    (sender.step input).1.Settled := by
  cases input with
  | setControllerState state motion =>
      change (sender.setControllerState state motion).Settled
      rw [setControllerState]
      split
      · exact h
      · exact ⟨h.prev, well, fun unchanged => by cases unchanged⟩
  | iteration =>
      change sender.iterate.1.Settled
      rw [iterate]
      split
      · exact h
      · exact ⟨h.now, h.now, fun _ => rfl⟩
  | stop => exact ⟨h.prev, h.now, h.unchanged⟩

/-- An iteration pushes the difference of its two states, also where it pushes nothing. -/
theorem Settled.iteration (h : sender.Settled) {input : FeedbackInput} {iteration : Iteration}
    (stepped : (sender.step input).2 = some iteration) :
    iteration = ⟨sender.controllerStatePrev, sender.controllerState,
      feedbackSenderSendHistory sender.controllerStatePrev sender.controllerState⟩ ∧
    (sender.step input).1.controllerStatePrev = sender.controllerState := by
  cases input with
  | setControllerState state motion => cases stepped
  | stop => cases stepped
  | iteration =>
      change sender.iterate.2 = some iteration at stepped
      change _ ∧ sender.iterate.1.controllerStatePrev = sender.controllerState
      cases stop : sender.shouldStop with
      | true => simp [iterate, stop] at stepped
      | false =>
          simp only [iterate, stop, Bool.false_eq_true, if_false, Option.some.injEq] at stepped ⊢
          refine ⟨?_, trivial⟩
          rw [← stepped]
          congr 1
          by_cases equal : equalsForFeedbackHistory sender.controllerState sender.controllerStatePrev = true
          · simp [equal, sendHistory_of_equals equal]
          · have changed : sender.controllerStateChanged = true := by
              by_contra unchanged
              apply equal
              rw [h.unchanged (Bool.eq_false_iff.mpr unchanged)]
              exact equalsForFeedbackHistory_refl _
            simp [equal, changed]

theorem step_prev {input : FeedbackInput} (stepped : (sender.step input).2 = none) :
    (sender.step input).1.controllerStatePrev = sender.controllerStatePrev := by
  cases input with
  | setControllerState state motion =>
      change (sender.setControllerState state motion).controllerStatePrev = _
      rw [setControllerState]
      split <;> rfl
  | stop => rfl
  | iteration =>
      change sender.iterate.2 = none at stepped
      change sender.iterate.1.controllerStatePrev = _
      cases stop : sender.shouldStop with
      | true => simp [iterate, stop]
      | false => simp [iterate, stop] at stepped

theorem Settled.run (h : sender.Settled) {inputs : List FeedbackInput} (well : ∀ input ∈ inputs, input.WellTouched) :
    let run := Machine.runTotal FeedbackSender.step sender inputs
    (∀ iteration ∈ run.2.reduceOption, iteration.Replays ↔ iteration.Separate) ∧
      ((∀ iteration ∈ run.2.reduceOption, iteration.Separate) →
        sender.controllerStatePrev.view.replay (run.2.reduceOption.flatMap (·.history)) =
          run.1.controllerStatePrev.view) := by
  induction inputs generalizing sender with
  | nil =>
      simp only [Machine.runTotal, List.reduceOption_nil]
      exact ⟨fun _ member => (List.not_mem_nil member).elim, fun _ => rfl⟩
  | cons input inputs ih =>
      obtain ⟨now, later⟩ := List.forall_mem_cons.mp well
      obtain ⟨rest, last⟩ := ih (h.step now) later
      cases stepped : (sender.step input).2 with
      | none =>
          simp only [Machine.runTotal, stepped, List.reduceOption_cons_of_none]
          rw [← step_prev stepped]
          exact ⟨rest, last⟩
      | some iteration =>
          obtain ⟨rfl, prev⟩ := h.iteration stepped
          simp only [Machine.runTotal, stepped, List.reduceOption_cons_of_some, List.forall_mem_cons,
            List.flatMap_cons, Console.replay_append]
          refine ⟨⟨replay_iff h.prev h.now, rest⟩, ?_⟩
          rintro ⟨separate, others⟩
          rw [(replay_iff h.prev h.now).mpr separate, ← prev]
          exact last others

/-- In every run, an iteration replays its states exactly if their touches are kept apart, and if all do, the
console knows the last state. -/
theorem history_replay (inputs : List FeedbackInput) (well : ∀ input ∈ inputs, input.WellTouched) :
    (∀ iteration ∈ iterations inputs, iteration.Replays ↔ iteration.Separate) ∧
      ((∀ iteration ∈ iterations inputs, iteration.Separate) →
        ControllerState.idle.view.replay ((iterations inputs).flatMap (·.history)) = (processed inputs).view) :=
  settled_init.run well

/-- A button and two touches that come and go. -/
def tapping : List FeedbackInput :=
  [.setControllerState { ControllerState.idle with buttons := 1, touches := ![⟨10, 20, 0⟩, ⟨0, 0, -1⟩] } false,
    .iteration,
    .setControllerState { ControllerState.idle with l2State := 7, touches := ![⟨30, 20, 0⟩, ⟨5, 6, 1⟩] } false,
    .iteration, .setControllerState .idle false, .iteration]

theorem history_replay_tapping :
    (iterations tapping).length = 3 ∧
      ControllerState.idle.view.replay ((iterations tapping).flatMap (·.history)) = (processed tapping).view :=
  ⟨by decide +kernel, (history_replay tapping (by decide +kernel)).2 (by decide +kernel)⟩

/-- A touch that takes the place of another one. -/
def replacing : List FeedbackInput :=
  [.setControllerState { ControllerState.idle with touches := ![⟨10, 10, 0⟩, ⟨0, 0, -1⟩] } false, .iteration,
    .setControllerState { ControllerState.idle with touches := ![⟨20, 20, 1⟩, ⟨0, 0, -1⟩] } false, .iteration]

/-- The press of the second touch is never sent. -/
theorem not_replays_replacing : (∀ input ∈ replacing, input.WellTouched) ∧
    ¬ ∀ iteration ∈ iterations replacing, iteration.Replays := by
  refine ⟨by decide +kernel, fun replays => ?_⟩
  have last := replays ((iterations replacing).get ⟨1, by decide +kernel⟩) (List.get_mem _ _)
  have touch := congrFun (congrArg Console.touches last) 1
  revert touch
  decide +kernel

end FeedbackSender

end Chiaki
