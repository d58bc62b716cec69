import Chiaki.Feedback.History
import Chiaki.Lib.Ring

/-!
# The ring of history events

Events are pushed to the front. A packet holds the newest of them, the newest first.
-/

namespace Chiaki
open Memory

def historyEventSizeMax : Nat := 5

/-- `ChiakiFeedbackHistoryEvent`: its buffer up to `len`. -/
structure FeedbackHistoryEvent where
  bytes : Bytes
  length_le : bytes.length ≤ historyEventSizeMax

/-- What `calloc` makes. -/
instance : Inhabited FeedbackHistoryEvent := ⟨⟨[], Nat.zero_le _⟩⟩

/-- `ChiakiFeedbackHistoryBuffer`. -/
structure FeedbackHistoryBuffer where
  events : List FeedbackHistoryEvent
  size : Nat
  begin : Nat
  len : Nat
  events_length : events.length = size

namespace FeedbackHistoryBuffer

/-- `chiaki_feedback_history_buffer_init`. -/
def init (size : Nat) : FeedbackHistoryBuffer where
  events := List.replicate size default
  size := size
  begin := 0
  len := 0
  events_length := List.length_replicate

/-- `chiaki_feedback_history_buffer_push`. -/
def push (buffer : FeedbackHistoryBuffer) (event : FeedbackHistoryEvent) : Checked FeedbackHistoryBuffer :=
  if buffer.size = 0 then .error .divisionByZero
  else
    let place := (buffer.begin + buffer.size - 1) % buffer.size
    pure { buffer with
      begin := place
      len := if buffer.len + 1 ≥ buffer.size then buffer.size else buffer.len + 1
      events := buffer.events.set place event
      events_length := by rw [List.length_set, buffer.events_length] }

/-- The loop of `chiaki_feedback_history_buffer_format` from event `i` on, `left` of them: the memory, and what was
written if there was room. -/
def formatFrom (buffer : FeedbackHistoryBuffer) (sizeMax : Nat) :
    (left i written : Nat) → Bytes → Checked (Bytes × Option Nat)
  | 0, _, written, buf => pure (buf, some written)
  | left + 1, i, written, buf => do
      let event ← inBounds buffer.events[(buffer.begin + i) % buffer.size]?
      if written + event.bytes.length > sizeMax then pure (buf, none)
      else do
        let buf ← inBounds (write buf written event.bytes)
        formatFrom buffer sizeMax left (i + 1) (written + event.bytes.length) buf

/-- `chiaki_feedback_history_buffer_format`: the memory at `buf`, `*buf_size` and the result. -/
def format (buffer : FeedbackHistoryBuffer) (buf : Bytes) (bufSize : Nat) : Checked (Bytes × Nat × ErrorCode) := do
  let r ← buffer.formatFrom bufSize buffer.len 0 0 buf
  match r.2 with
  | some written => pure (r.1, written, .success)
  | none => pure (r.1, bufSize, .bufTooSmall)

def pushAll (buffer : FeedbackHistoryBuffer) (events : List FeedbackHistoryEvent) : Checked FeedbackHistoryBuffer :=
  events.foldlM push buffer

end FeedbackHistoryBuffer

def feedbackHistoryBufferSize : Nat := 0x10
def historyPacketSizeMax : Nat := 0x300

/-- The bytes of events, one after the other. -/
def formatted (events : List FeedbackHistoryEvent) : Bytes := events.flatMap (·.bytes)

namespace FeedbackHistoryBuffer

/-! ## Pushing -/

/-- The ring holds these events, the newest first. -/
structure Holding (buffer : FeedbackHistoryBuffer) (recent : List FeedbackHistoryEvent) : Prop where
  len_eq : buffer.len = recent.length
  len_le : recent.length ≤ buffer.size
  holds : Ring.Holds buffer.events buffer.begin recent.length fun j => recent.getD j default

theorem holding_init (size : Nat) : Holding (init size) [] := ⟨rfl, Nat.zero_le _, Ring.holds_zero _ _ _⟩

theorem Holding.push {buffer : FeedbackHistoryBuffer} {recent : List FeedbackHistoryEvent} (h : Holding buffer recent)
    (positive : 0 < buffer.size) (event : FeedbackHistoryEvent) :
    ∃ buffer', buffer.push event = .ok buffer' ∧ buffer'.size = buffer.size ∧
      Holding buffer' ((event :: recent).take buffer.size) := by
  have length : ((event :: recent).take buffer.size).length = min (recent.length + 1) buffer.size := by
    rw [List.length_take, List.length_cons, Nat.min_comm]
  refine ⟨_, if_neg positive.ne', rfl, ?_, ?_, ?_⟩
  · rw [length]
    dsimp only
    rw [h.len_eq]
    split <;> omega
  · rw [length]
    exact Nat.min_le_right _ _
  · have front := h.holds.write_front (by rwa [buffer.events_length]) event
    rw [buffer.events_length] at front
    intro j bound
    rw [length] at bound
    dsimp only at front ⊢
    rw [front j bound]
    congr 1
    rw [List.getD_eq_getElem?_getD, List.getElem?_take_of_lt (by omega)]
    cases j with
    | zero => rfl
    | succ j => exact List.getD_eq_getElem?_getD

/-- After any pushes the ring holds the last of them, as many as it has room for. -/
theorem Holding.pushAll {buffer : FeedbackHistoryBuffer} {recent : List FeedbackHistoryEvent}
    (h : Holding buffer recent) (positive : 0 < buffer.size) (events : List FeedbackHistoryEvent) :
    ∃ buffer', buffer.pushAll events = .ok buffer' ∧ buffer'.size = buffer.size ∧
      Holding buffer' ((events.reverse ++ recent).take buffer.size) := by
  induction events generalizing buffer recent with
  | nil =>
      refine ⟨buffer, rfl, rfl, ?_⟩
      rw [List.reverse_nil, List.nil_append, List.take_of_length_le h.len_le]
      exact h
  | cons event events ih =>
      obtain ⟨pushed, push, size, holding⟩ := h.push positive event
      obtain ⟨buffer', rest, size', holding'⟩ := ih holding (size.symm ▸ positive)
      refine ⟨buffer', ?_, size'.trans size, ?_⟩
      · rw [FeedbackHistoryBuffer.pushAll, List.foldlM_cons, push, ok_bind]
        exact rest
      · rw [size, List.take_append, List.take_take] at holding'
        rw [List.reverse_cons, List.append_assoc, List.singleton_append, List.take_append]
        rwa [Nat.min_eq_left (Nat.sub_le _ _)] at holding'

/-! ## Formatting -/

theorem formatFrom_eq (buffer : FeedbackHistoryBuffer) {sizeMax : Nat} {events : List FeedbackHistoryEvent} {i : Nat}
    (there : ∀ k < events.length, buffer.events[(buffer.begin + (i + k)) % buffer.size]? = events[k]?)
    {written : Nat} {buf : Bytes} (inside : sizeMax ≤ buf.length) (before : written ≤ sizeMax) :
    (written + (formatted events).length ≤ sizeMax →
      buffer.formatFrom sizeMax events.length i written buf =
        .ok (buf.take written ++ formatted events ++ buf.drop (written + (formatted events).length),
          some (written + (formatted events).length))) ∧
    (sizeMax < written + (formatted events).length →
      ∃ buf', buffer.formatFrom sizeMax events.length i written buf = .ok (buf', none) ∧
        buf'.length = buf.length ∧ buf'.drop sizeMax = buf.drop sizeMax) := by
  induction events generalizing i written buf with
  | nil =>
      refine ⟨fun _ => ?_, fun beyond => absurd before (not_le.mpr beyond)⟩
      simp [formatted, formatFrom, pure, Except.pure]
  | cons event events ih =>
      have found : buffer.events[(buffer.begin + i) % buffer.size]? = some event := there 0 (Nat.succ_pos _)
      have next (k : Nat) (bound : k < events.length) :
          buffer.events[(buffer.begin + (i + 1 + k)) % buffer.size]? = events[k]? := by
        have later := there (k + 1) (Nat.succ_lt_succ bound)
        rwa [Nat.add_comm k 1, ← Nat.add_assoc i 1 k, Nat.add_comm 1 k, List.getElem?_cons_succ] at later
      have total : (formatted (event :: events)).length = event.bytes.length + (formatted events).length := by
        simp [formatted]
      rw [List.length_cons, formatFrom, found, inBounds_some, ok_bind, total]
      by_cases beyond : written + event.bytes.length > sizeMax
      · rw [if_pos beyond]
        exact ⟨fun fits => absurd beyond (by omega), fun _ => ⟨buf, rfl, rfl, rfl⟩⟩
      rw [if_neg beyond]
      obtain ⟨buf', stored⟩ := exists_write buf event.bytes written (by omega)
      have length := length_of_write stored
      obtain ⟨fits, overflows⟩ := ih next (inside.trans_eq length.symm) (Nat.le_of_not_lt beyond)
      rw [stored, inBounds_some, ok_bind, ← Nat.add_assoc]
      refine ⟨fun room => ?_, fun exceeds => ?_⟩
      · rw [fits room, take_of_write stored, drop_of_write stored (Nat.le_add_right _ _)]
        simp only [formatted, List.flatMap_cons, List.append_assoc]
      · obtain ⟨buf'', result, length', rest⟩ := overflows exceeds
        exact ⟨buf'', result, length'.trans length,
          rest.trans (drop_of_write stored (Nat.le_of_not_lt beyond))⟩

/-- The events are written one after the other if there is room for them all. Otherwise nothing is written behind
the buffer and its size stays. -/
def Formats (buffer : FeedbackHistoryBuffer) (events : List FeedbackHistoryEvent) : Prop :=
  ∀ buf bufSize, bufSize ≤ buf.length →
    ((formatted events).length ≤ bufSize →
      buffer.format buf bufSize =
        .ok (formatted events ++ buf.drop (formatted events).length, (formatted events).length, .success)) ∧
    (bufSize < (formatted events).length →
      ∃ buf', buffer.format buf bufSize = .ok (buf', bufSize, .bufTooSmall) ∧
        buf'.length = buf.length ∧ buf'.drop bufSize = buf.drop bufSize)

theorem Holding.formats {buffer : FeedbackHistoryBuffer} {recent : List FeedbackHistoryEvent}
    (h : Holding buffer recent) : buffer.Formats recent := by
  intro buf bufSize inside
  have there (k : Nat) (bound : k < recent.length) :
      buffer.events[(buffer.begin + (0 + k)) % buffer.size]? = recent[k]? := by
    have held := h.holds k bound
    rw [buffer.events_length] at held
    rw [Nat.zero_add, held, List.getElem?_eq_getElem bound]
    simp [bound]
  obtain ⟨fits, overflows⟩ := buffer.formatFrom_eq there inside (Nat.zero_le bufSize)
  rw [Nat.zero_add, ← h.len_eq] at fits overflows
  refine ⟨fun room => ?_, fun beyond => ?_⟩
  · rw [format, fits room, ok_bind]
    rfl
  · obtain ⟨buf', result, length, rest⟩ := overflows beyond
    refine ⟨buf', ?_, length, rest⟩
    rw [format, result, ok_bind]
    rfl

theorem length_formatted_le (events : List FeedbackHistoryEvent) :
    (formatted events).length ≤ historyEventSizeMax * events.length := by
  induction events with
  | nil => rfl
  | cons event events ih =>
      have size := event.length_le
      simp only [formatted, List.flatMap_cons, List.length_append, List.length_cons, Nat.mul_succ] at ih ⊢
      omega

theorem Holding.packet {buffer : FeedbackHistoryBuffer} {recent : List FeedbackHistoryEvent}
    (h : Holding buffer recent) (size : buffer.size = feedbackHistoryBufferSize) (buf : Bytes)
    (length : buf.length = historyPacketSizeMax) :
    buffer.format buf historyPacketSizeMax =
      .ok (formatted recent ++ buf.drop (formatted recent).length, (formatted recent).length, .success) := by
  have few : recent.length ≤ feedbackHistoryBufferSize := h.len_le.trans_eq size
  have room : (formatted recent).length ≤ historyPacketSizeMax :=
    (length_formatted_le recent).trans ((Nat.mul_le_mul_left _ few).trans (by decide))
  exact (h.formats buf historyPacketSizeMax length.ge).1 room

/-- After any pushes to a ring with room for an event, formatting writes the last of them, the newest first; the
packets of the feedback sender are never too small. -/
theorem format_pushAll (size : Nat) (positive : 0 < size) (events : List FeedbackHistoryEvent) :
    (∃ buffer, (init size).pushAll events = .ok buffer ∧ buffer.Formats (events.reverse.take size)) ∧
    ∃ buffer, (init feedbackHistoryBufferSize).pushAll events = .ok buffer ∧
      ∀ buf, buf.length = historyPacketSizeMax → ∃ buf' written,
        buffer.format buf historyPacketSizeMax = .ok (buf', written, .success) := by
  constructor
  · obtain ⟨buffer, pushed, -, holding⟩ := (holding_init size).pushAll positive events
    rw [List.append_nil] at holding
    exact ⟨buffer, pushed, holding.formats⟩
  · obtain ⟨buffer, pushed, same, holding⟩ :=
      (holding_init feedbackHistoryBufferSize).pushAll (show 0 < feedbackHistoryBufferSize by decide) events
    exact ⟨buffer, pushed, fun buf length => ⟨_, _, holding.packet same buf length⟩⟩

/-- Two of three events. -/
theorem format_pushAll_three :
    (∃ buffer, (init 2).pushAll [⟨[0x80, 0x8f], by decide⟩, ⟨[0x80, 0x88, 0xff], by decide⟩,
        ⟨[0xc0, 1, 0, 0, 0], by decide⟩] = .ok buffer ∧
      buffer.Formats [⟨[0xc0, 1, 0, 0, 0], by decide⟩, ⟨[0x80, 0x88, 0xff], by decide⟩]) ∧
    ∃ buffer, (init feedbackHistoryBufferSize).pushAll [⟨[0x80, 0x8f], by decide⟩, ⟨[0x80, 0x88, 0xff], by decide⟩,
        ⟨[0xc0, 1, 0, 0, 0], by decide⟩] = .ok buffer ∧
      ∀ buf, buf.length = historyPacketSizeMax → ∃ buf' written,
        buffer.format buf historyPacketSizeMax = .ok (buf', written, .success) :=
  format_pushAll 2 (by decide) _

/-- A ring without room for an event divides by its size. -/
theorem not_format_pushAll_zero :
    ¬ ∃ buffer, (init 0).pushAll [⟨[0x80, 0x8f], by decide⟩] = .ok buffer := by
  rintro ⟨buffer, pushed⟩
  cases pushed

/-! ## The events of the sender -/

theorem ok_of_ite {c : Prop} [Decidable c] {x y : Except ErrorCode Bytes} {P : Bytes → Prop}
    (hx : ∀ event, x = .ok event → P event) (hy : ∀ event, y = .ok event → P event) :
    ∀ event, (if c then x else y) = .ok event → P event := by
  split
  · exact hx
  · exact hy

theorem length_setButton_le (button : Nat) (state : UInt8) : ∀ event,
    feedbackHistoryEventSetButton button state = .ok event → event.length ≤ historyEventSizeMax := by
  unfold feedbackHistoryEventSetButton
  repeat' apply ok_of_ite
  all_goals intro event h
  all_goals cases h
  all_goals simp [historyEventSizeMax]

theorem length_sendHistory_le (prev now : ControllerState) {event : Bytes}
    (member : event ∈ feedbackSenderSendHistory prev now) : event.length ≤ historyEventSizeMax := by
  have made {button : Nat} {state : UInt8}
      (h : (feedbackHistoryEventSetButton button state).toOption = some event) : event.length ≤ historyEventSizeMax := by
    cases set : feedbackHistoryEventSetButton button state with
    | error err => simp [set, Except.toOption] at h
    | ok event' =>
        obtain rfl : event' = event := by simpa [set, Except.toOption] using h
        exact length_setButton_le button state _ set
  unfold feedbackSenderSendHistory at member
  simp only [List.mem_append, List.mem_filterMap, Option.mem_toList] at member
  rcases member with ((⟨i, -, button⟩ | l2) | r2) | ⟨i, -, touch⟩
  · unfold buttonEvent at button
    split at button
    · cases button
    · exact made button
  · unfold analogEvent at l2
    split at l2
    · cases l2
    · exact made l2
  · unfold analogEvent at r2
    split at r2
    · cases r2
    · exact made r2
  · unfold touchEvent at touch
    split at touch
    · obtain rfl := Option.some.inj touch
      exact Nat.le_refl historyEventSizeMax
    split at touch
    · obtain rfl := Option.some.inj touch
      exact Nat.le_refl historyEventSizeMax
    · cases touch

end FeedbackHistoryBuffer

end Chiaki
