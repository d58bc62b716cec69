import Chiaki.Lib.Machine
import Chiaki.Video.Steps

/-!
# The order of delivery

A frame gets a position when it is started: one further on for every index that its own lies ahead of
the frame before. Frames are delivered in the order of their positions.
-/

namespace Chiaki
open Serial Machine

/-! ## Deliveries of a run -/

/-- The positions of the current frame and of the last one delivered, and the packets whose units are in
the frame buffer. -/
structure VideoTrack where
  position : Option Nat := none
  last : Option Nat := none
  units : List TakionAVPacket := []

structure Delivery where
  position : Nat
  sample : VideoSample
  units : List TakionAVPacket

namespace VideoTrack

def startFrame (track : VideoTrack) (index : Nat) : Nat :=
  match track.position with
  | none => index
  | some position => position + ahead (2 ^ 16) position index

def next (track : VideoTrack) : VideoEvent → VideoTrack
  | .newFrame index => { track with position := some (track.startFrame index) }
  | .emptied => { track with units := [] }
  | .stored packet => { track with units := track.units ++ [packet] }
  | .sample _ => { track with last := track.position }
  | _ => track

def deliveries : VideoTrack → List VideoEvent → List Delivery
  | _, [] => []
  | track, .sample sample :: events =>
      ⟨track.position.getD 0, sample, track.units⟩ :: deliveries (track.next (.sample sample)) events
  | track, event :: events => deliveries (track.next event) events

end VideoTrack

def deliveries (events : List VideoEvent) : List Delivery := VideoTrack.deliveries {} events

def startedFrames (events : List VideoEvent) : List Nat :=
  events.filterMap fun
    | .newFrame index => some index
    | _ => none

/-- From each delivery to the next the index goes up. -/
def InSerialOrder (ds : List Delivery) : Prop :=
  (ds.map (·.sample.index)).IsChain fun a b => seqNum16Gt b a = true

/-- Nothing but units of the frame itself. -/
def OwnUnits (ds : List Delivery) : Prop :=
  ∀ d ∈ ds, ∀ packet ∈ d.units, packet.frameIndex % 2 ^ 16 = d.sample.index

structure InOrder (ds : List Delivery) : Prop where
  index_eq : ∀ d ∈ ds, d.position % 2 ^ 16 = d.sample.index
  increasing : ds.Pairwise fun a b => a.position < b.position

namespace VideoTrack

/-- What may happen when. -/
def Allowed (track : VideoTrack) : VideoEvent → Prop
  | .newFrame index => index < 2 ^ 16 ∧ ∀ p, track.position = some p → Before (2 ^ 16) p index
  | .sample sample => ∃ p, track.position = some p ∧ p % 2 ^ 16 = sample.index ∧
      ∀ l, track.last = some l → l < p
  | _ => True

/-- The units in the buffer are the frame's own when it is delivered. -/
def Owned (track : VideoTrack) : VideoEvent → Prop
  | .sample sample => ∀ packet ∈ track.units, packet.frameIndex % 2 ^ 16 = sample.index
  | _ => True

/-- Reports, and the header of a profile. -/
inductive Quiet : VideoEvent → Prop
  | header (header : Bytes) : Quiet (.header header)
  | corruptFrame (start last : Nat) : Quiet (.corruptFrame start last)
  | packetStats (received lost : Nat) : Quiet (.packetStats received lost)

theorem foldl_quiet {events : List VideoEvent} (h : ∀ event ∈ events, Quiet event) (track : VideoTrack) :
    events.foldl next track = track := by
  induction events with
  | nil => rfl
  | cons event events ih =>
      obtain ⟨now, later⟩ := List.forall_mem_cons.mp h
      cases now <;> exact ih later

theorem follows_quiet {events : List VideoEvent} (h : ∀ event ∈ events, Quiet event) (track : VideoTrack) :
    Follows next Allowed track events ∧ Follows next Owned track events := by
  induction events with
  | nil => exact ⟨trivial, trivial⟩
  | cons event events ih =>
      obtain ⟨now, later⟩ := List.forall_mem_cons.mp h
      cases now <;> exact ⟨⟨trivial, (ih later).1⟩, ⟨trivial, (ih later).2⟩⟩

/-! ## Reading a log -/

theorem deliveries_inOrder {track : VideoTrack} {events : List VideoEvent}
    (h : Follows next Allowed track events) :
    (∀ d ∈ track.deliveries events, d.position % 2 ^ 16 = d.sample.index) ∧
      (∀ d ∈ track.deliveries events, ∀ l, track.last = some l → l < d.position) ∧
      (track.deliveries events).Pairwise fun a b => a.position < b.position := by
  induction events generalizing track with
  | nil => simp [deliveries]
  | cons event events ih =>
      obtain ⟨now, later⟩ := h
      obtain ⟨index, low, increasing⟩ := ih later
      cases event with
      | sample sample =>
          obtain ⟨p, here, same, first⟩ := now
          have behind : ∀ d ∈ (track.next (.sample sample)).deliveries events, p < d.position :=
            fun d member => low d member p here
          simp only [deliveries, List.forall_mem_cons, here, Option.getD_some, List.pairwise_cons]
          refine ⟨⟨same, index⟩, ⟨first, fun d member l delivered => ?_⟩, behind, increasing⟩
          exact (first l delivered).trans (behind d member)
      | newFrame _ => exact ⟨index, low, increasing⟩
      | emptied => exact ⟨index, low, increasing⟩
      | stored _ => exact ⟨index, low, increasing⟩
      | header _ => exact ⟨index, low, increasing⟩
      | corruptFrame _ _ => exact ⟨index, low, increasing⟩
      | packetStats _ _ => exact ⟨index, low, increasing⟩

theorem deliveries_ownUnits {track : VideoTrack} {events : List VideoEvent} (h : Follows next Owned track events) :
    OwnUnits (track.deliveries events) := by
  induction events generalizing track with
  | nil => simp [deliveries, OwnUnits]
  | cons event events ih =>
      obtain ⟨now, later⟩ := h
      cases event with
      | sample sample => exact List.forall_mem_cons.mpr ⟨now, ih later⟩
      | newFrame _ => exact ih later
      | emptied => exact ih later
      | stored _ => exact ih later
      | header _ => exact ih later
      | corruptFrame _ _ => exact ih later
      | packetStats _ _ => exact ih later

theorem startFrame_mod (track : VideoTrack) (index : Nat) :
    track.startFrame index % 2 ^ 16 = index % 2 ^ 16 := by
  unfold startFrame
  split
  · rfl
  · exact add_ahead (by decide) _ index

theorem startedFrames_chain {track : VideoTrack} {events : List VideoEvent}
    (h : Follows next Allowed track events) :
    (∀ i ∈ (startedFrames events).head?,
      i < 2 ^ 16 ∧ ∀ p, track.position = some p → Before (2 ^ 16) p i) ∧
      (startedFrames events).IsChain fun a b => seqNum16Gt b a = true := by
  induction events generalizing track with
  | nil => simp [startedFrames]
  | cons event events ih =>
      obtain ⟨now, later⟩ := h
      obtain ⟨first, chain⟩ := ih later
      cases event with
      | newFrame index =>
          refine ⟨fun i head => ?_, List.isChain_cons.mpr ⟨fun i head => ?_, chain⟩⟩
          · obtain rfl : index = i := Option.some.inj head
            exact now
          · obtain ⟨bound, after⟩ := first i head
            have before := after _ rfl
            have same := track.startFrame_mod index
            rw [before_congr same rfl] at before
            exact (seqNumGt_iff (by decide) bound now.1).mpr before
      | sample _ => exact ⟨first, chain⟩
      | emptied => exact ⟨first, chain⟩
      | stored _ => exact ⟨first, chain⟩
      | header _ => exact ⟨first, chain⟩
      | corruptFrame _ _ => exact ⟨first, chain⟩
      | packetStats _ _ => exact ⟨first, chain⟩

end VideoTrack

theorem InOrder.serial {ds : List Delivery} (h : InOrder ds) :
    ds.IsChain fun a b => b.position < a.position + 2 ^ 15 → seqNum16Gt b.sample.index a.sample.index = true := by
  apply List.Pairwise.isChain
  apply h.increasing.imp_of_mem
  intro a b memberA memberB increasing near
  have indexA := h.index_eq a memberA
  have indexB := h.index_eq b memberB
  obtain ⟨d, later⟩ := Nat.exists_eq_add_of_lt increasing
  rw [← indexA, ← indexB]
  apply (seqNumGt_iff (by decide) (Nat.mod_lt _ (by decide)) (Nat.mod_lt _ (by decide))).mpr
  rw [before_congr (Nat.mod_mod _ _) (Nat.mod_mod _ _), later, Nat.add_assoc]
  exact (before_add_iff (by decide) _ (by omega)).mpr ⟨by omega, by omega⟩

/-! ## The steps -/

@[simp] theorem seqNum16_natCast (n : Nat) : seqNum16 n = n % 2 ^ 16 := by
  unfold seqNum16
  omega

namespace FrameProcessor

theorem Started.isEmpty {fp : FrameProcessor} {source fec size : Nat} (h : Started fp source fec size) :
    fp.isEmpty = true := by
  rw [FrameProcessor.isEmpty, h.slots_eq]
  simp

theorem SameBlocks.completes {fp fp' : FrameProcessor} (same : SameBlocks fp fp') {packet : TakionAVPacket}
    {outcome : AllocOutcome} (h : Completes fp packet outcome) : Completes fp' packet outcome := by
  unfold Completes
  rw [same.slotsSize, same.bufSize]
  exact h

end FrameProcessor

namespace VideoReceiver
variable {jerasure : Jerasure} {ndebug : Bool}

/-- The receiver is at the frame of this position, which is not due any more once it is delivered. -/
structure Tracked (receiver : VideoReceiver) (track : VideoTrack) : Prop where
  cur_eq : receiver.frameIndexCur = track.position.elim (-1 : Int) fun p => (p % 2 ^ 16 : Nat)
  last_le : ∀ l, track.last = some l → ∃ p, track.position = some p ∧ l ≤ p ∧
    (l = p → receiver.frameIndexPrev = receiver.frameIndexCur)

theorem Tracked.position {receiver : VideoReceiver} {track : VideoTrack} (h : Tracked receiver track)
    (going : 0 ≤ receiver.frameIndexCur) :
    ∃ p, track.position = some p ∧ receiver.frameIndexCur = (p % 2 ^ 16 : Nat) := by
  have cur := h.cur_eq
  cases here : track.position with
  | none =>
      rw [here, Option.elim_none] at cur
      omega
  | some p =>
      rw [here] at cur
      exact ⟨p, rfl, cur⟩

theorem Tracked.congr {receiver receiver' : VideoReceiver} {track track' : VideoTrack}
    (h : Tracked receiver track) (cur : receiver'.frameIndexCur = receiver.frameIndexCur)
    (prev : receiver'.frameIndexPrev = receiver.frameIndexPrev) (position : track'.position = track.position)
    (last : track'.last = track.last) : Tracked receiver' track' where
  cur_eq := by rw [cur, position, h.cur_eq]
  last_le := by
    rw [last, position, prev, cur]
    exact h.last_le

theorem Tracked.flush {receiver receiver' : VideoReceiver} {track : VideoTrack} {events : List VideoEvent}
    (h : Tracked receiver track) (going : 0 ≤ receiver.frameIndexCur)
    (due : receiver.frameIndexPrev ≠ receiver.frameIndexCur) (flushed : Flushed receiver receiver' events) :
    Follows VideoTrack.next VideoTrack.Allowed track events ∧
      Tracked receiver' (events.foldl VideoTrack.next track) := by
  obtain ⟨p, here, cur⟩ := h.position going
  have early : ∀ l, track.last = some l → l < p := by
    intro l delivered
    obtain ⟨p', here', below, done⟩ := h.last_le l delivered
    rw [here] at here'
    obtain rfl := Option.some.inj here'
    exact lt_of_le_of_ne below fun same => due (done same)
  have still : Tracked receiver' track := by
    refine ⟨by rw [flushed.cur, h.cur_eq], fun l delivered => ⟨p, here, (early l delivered).le, fun same => ?_⟩⟩
    exact absurd same (early l delivered).ne
  rcases flushed.events with rfl | ⟨start, last, rfl⟩ | ⟨sample, rfl, index, done⟩
  · exact ⟨trivial, still⟩
  · exact ⟨⟨trivial, trivial⟩, still⟩
  · refine ⟨⟨⟨p, here, ?_, early⟩, trivial⟩, still.cur_eq, fun l delivered => ⟨p, here, ?_, fun _ => ?_⟩⟩
    · rw [index, cur, seqNum16_natCast, Nat.mod_mod]
    · have delivered : track.position = some l := delivered
      rw [here] at delivered
      exact (Option.some.inj delivered).ge
    · rw [done, flushed.cur]

theorem reportGap_quiet (receiver : VideoReceiver) (frameIndex : Nat) :
    ∀ event ∈ receiver.reportGap frameIndex, VideoTrack.Quiet event := by
  unfold reportGap
  split
  · simp [VideoTrack.Quiet.corruptFrame]
  · simp

theorem Tracked.start {receiver receiver' : VideoReceiver} {track : VideoTrack} {events : List VideoEvent}
    {outcome : FrameProcessor.AllocOutcome} {packet : TakionAVPacket} {frameIndex : Nat}
    (h : Tracked receiver track) (bound : frameIndex < 2 ^ 16) (isNext : receiver.isNext frameIndex = true)
    (started : receiver.startFrame outcome packet frameIndex = .ok (receiver', events)) :
    Follows VideoTrack.next VideoTrack.Allowed track events ∧
      Tracked receiver' (events.foldl VideoTrack.next track) := by
  obtain ⟨⟨fp, err⟩, -, started⟩ := bind_eq_ok started
  obtain ⟨rfl, rfl⟩ := Prod.mk.inj (Except.ok.inj started)
  have after : ∀ p, track.position = some p → Before (2 ^ 16) p frameIndex := by
    intro p here
    have cur := h.cur_eq
    rw [here, Option.elim_some] at cur
    have next := isNext
    rw [VideoReceiver.isNext, cur, seqNum16_natCast, decide_eq_false (by omega), Bool.false_or,
      Nat.mod_mod] at next
    have before := (seqNumGt_iff (by decide) bound (Nat.mod_lt _ (by decide))).mp next
    rwa [before_congr (Nat.mod_mod p _) rfl] at before
  have moved : Tracked { receiver with frameIndexCur := frameIndex, frameProcessor := fp }
      (track.next (.newFrame frameIndex)) := by
    refine ⟨?_, fun l delivered => ⟨_, rfl, ?_⟩⟩
    · change (frameIndex : Int) = ((track.startFrame frameIndex % 2 ^ 16 : Nat) : Int)
      rw [track.startFrame_mod, Nat.mod_eq_of_lt bound]
    · obtain ⟨p, here, below, -⟩ := h.last_le l delivered
      have further := (after p here).1
      rw [VideoTrack.startFrame, here]
      dsimp only
      exact ⟨by omega, fun same => by omega⟩
  have quiet := reportGap_quiet receiver frameIndex
  rw [follows_append, List.foldl_append, VideoTrack.foldl_quiet quiet]
  split
  · exact ⟨⟨(VideoTrack.follows_quiet quiet track).1, ⟨bound, after⟩, trivial, trivial⟩,
      moved.congr rfl rfl rfl rfl⟩
  · exact ⟨⟨(VideoTrack.follows_quiet quiet track).1, ⟨bound, after⟩, trivial⟩, moved⟩

/-! ### Ownership -/

/-- The blocks of the frame buffer have their sizes, and the units in it are those of the current frame. -/
structure Owning (receiver : VideoReceiver) (track : VideoTrack) : Prop where
  allocated : receiver.frameProcessor.Allocated
  units_eq : ∀ packet ∈ track.units, ((packet.frameIndex % 2 ^ 16 : Nat) : Int) = receiver.frameIndexCur

theorem Owning.flush {receiver receiver' : VideoReceiver} {track : VideoTrack} {events : List VideoEvent}
    (h : Owning receiver track) (flushed : Flushed receiver receiver' events) :
    Follows VideoTrack.next VideoTrack.Owned track events ∧
      Owning receiver' (events.foldl VideoTrack.next track) := by
  have still : Owning receiver' track := by
    refine ⟨flushed.blocks.allocated h.allocated, ?_⟩
    rw [flushed.cur]
    exact h.units_eq
  rcases flushed.events with rfl | ⟨start, last, rfl⟩ | ⟨sample, rfl, index, -⟩
  · exact ⟨trivial, still⟩
  · exact ⟨⟨trivial, trivial⟩, still⟩
  · refine ⟨⟨fun packet member => ?_, trivial⟩, still.allocated, still.units_eq⟩
    rw [index, ← h.units_eq packet member, seqNum16_natCast, Nat.mod_mod]

theorem Owning.start {receiver receiver' : VideoReceiver} {track : VideoTrack} {events : List VideoEvent}
    {outcome : FrameProcessor.AllocOutcome} {packet : TakionAVPacket} {frameIndex : Nat}
    (h : Owning receiver track) (enough : ¬ packet.unitsInFrameTotal < packet.unitsInFrameFec)
    (completes : receiver.frameProcessor.Completes packet outcome)
    (started : receiver.startFrame outcome packet frameIndex = .ok (receiver', events)) :
    Follows VideoTrack.next VideoTrack.Owned track events ∧
      Owning receiver' (events.foldl VideoTrack.next track) := by
  obtain ⟨fp, size, done, -, -, blank⟩ := FrameProcessor.allocFrame_completes h.allocated enough completes
  rw [startFrame, done, ok_bind] at started
  obtain ⟨rfl, rfl⟩ := Prod.mk.inj (Except.ok.inj started)
  have quiet := reportGap_quiet receiver frameIndex
  rw [follows_append, List.foldl_append, VideoTrack.foldl_quiet quiet, if_pos blank.isEmpty]
  exact ⟨⟨(VideoTrack.follows_quiet quiet track).2, trivial, trivial, trivial⟩, blank.allocated, by simp [VideoTrack.next]⟩

/-! ### Packets -/

theorem flushLast_inv {answers : FlushAnswers} {receiver receiver' : VideoReceiver} {events : List VideoEvent}
    (h : receiver.flushLast jerasure ndebug answers = .ok (receiver', events)) :
    (receiver' = receiver ∧ events = []) ∨
    (0 ≤ receiver.frameIndexCur ∧ receiver.frameIndexPrev ≠ receiver.frameIndexCur ∧
      Flushed receiver receiver' events) := by
  unfold flushLast at h
  split at h
  · rename_i due
    exact .inr ⟨due.1, due.2, flushFrame_flushed h⟩
  · obtain ⟨rfl, rfl⟩ := Prod.mk.inj (Except.ok.inj h)
    exact .inl ⟨rfl, rfl⟩

theorem flushThis_inv {answers : FlushAnswers} {receiver receiver' : VideoReceiver} {packet : TakionAVPacket}
    {events : List VideoEvent} (h : receiver.flushThis jerasure ndebug answers packet = .ok (receiver', events)) :
    (receiver' = receiver ∧ events = []) ∨
    (receiver.frameIndexPrev ≠ receiver.frameIndexCur ∧ Flushed receiver receiver' events) := by
  unfold flushThis at h
  split at h
  · rename_i due
    exact .inr ⟨due.1.symm, flushFrame_flushed h⟩
  · obtain ⟨rfl, rfl⟩ := Prod.mk.inj (Except.ok.inj h)
    exact .inl ⟨rfl, rfl⟩

/-- The frame of a packet is the current one already, or it is started behind a flush. -/
theorem nextFrame_inv {answers : PacketAnswers} {receiver receiver' : VideoReceiver} {packet : TakionAVPacket}
    {frameIndex : Nat} {events : List VideoEvent}
    (h : receiver.nextFrame jerasure ndebug answers packet frameIndex = .ok (receiver', events)) :
    (receiver.isNext frameIndex = false ∧ receiver' = receiver ∧ events = []) ∨
    ∃ stats flushed between started, receiver.isNext frameIndex = true ∧
      (∀ event ∈ stats, VideoTrack.Quiet event) ∧
      receiver.flushLast jerasure ndebug answers.last = .ok (between, flushed) ∧
      between.startFrame answers.alloc packet frameIndex = .ok (receiver', started) ∧
      events = stats ++ flushed ++ started := by
  unfold nextFrame at h
  split at h
  · rename_i isNext
    obtain ⟨⟨between, flushed⟩, flush, h⟩ := bind_eq_ok h
    obtain ⟨⟨framed, started⟩, start, h⟩ := bind_eq_ok h
    obtain ⟨rfl, rfl⟩ := Prod.mk.inj (Except.ok.inj h)
    refine .inr ⟨_, flushed, between, started, isNext, ?_, flush, start, rfl⟩
    split
    · simp [VideoTrack.Quiet.packetStats]
    · simp
  · rename_i same
    obtain ⟨rfl, rfl⟩ := Prod.mk.inj (Except.ok.inj h)
    exact .inl ⟨by simpa using same, rfl, rfl⟩

theorem flushLast_cur {answers : FlushAnswers} {receiver receiver' : VideoReceiver} {events : List VideoEvent}
    (h : receiver.flushLast jerasure ndebug answers = .ok (receiver', events)) :
    receiver'.frameIndexCur = receiver.frameIndexCur := by
  rcases flushLast_inv h with ⟨rfl, -⟩ | ⟨-, -, flushed⟩
  · rfl
  · exact flushed.cur

theorem isNext_congr {receiver receiver' : VideoReceiver} (cur : receiver'.frameIndexCur = receiver.frameIndexCur)
    (frameIndex : Nat) : receiver'.isNext frameIndex = receiver.isNext frameIndex := by
  rw [isNext, isNext, cur]

theorem startFrame_cur {outcome : FrameProcessor.AllocOutcome} {receiver receiver' : VideoReceiver}
    {packet : TakionAVPacket} {frameIndex : Nat} {events : List VideoEvent}
    (h : receiver.startFrame outcome packet frameIndex = .ok (receiver', events)) :
    receiver'.frameIndexCur = frameIndex := by
  obtain ⟨⟨fp, err⟩, -, h⟩ := bind_eq_ok h
  obtain ⟨rfl, -⟩ := Prod.mk.inj (Except.ok.inj h)
  rfl

theorem nextFrame_cur {answers : PacketAnswers} {receiver receiver' : VideoReceiver} {packet : TakionAVPacket}
    {frameIndex : Nat} {events : List VideoEvent}
    (h : receiver.nextFrame jerasure ndebug answers packet frameIndex = .ok (receiver', events)) :
    0 ≤ receiver'.frameIndexCur := by
  rcases nextFrame_inv h with ⟨same, rfl, -⟩ | ⟨stats, flushed, between, started, -, -, -, start, -⟩
  · rw [isNext, Bool.or_eq_false_iff, decide_eq_false_iff_not] at same
    omega
  · rw [startFrame_cur start]
    omega

theorem putUnit_inv {receiver receiver' : VideoReceiver} {packet : TakionAVPacket} {events : List VideoEvent}
    (h : receiver.putUnit packet = .ok (receiver', events)) :
    (∃ fp, receiver' = { receiver with frameProcessor := fp } ∧ receiver.frameProcessor.SameBlocks fp) ∧
      (events = [] ∨ events = [.stored packet]) := by
  obtain ⟨⟨fp, err⟩, put, h⟩ := bind_eq_ok h
  obtain ⟨rfl, rfl⟩ := Prod.mk.inj (Except.ok.inj h)
  refine ⟨⟨fp, rfl, FrameProcessor.putUnit_same put⟩, ?_⟩
  split
  · exact .inr rfl
  · exact .inl rfl

theorem Tracked.nextFrame {answers : PacketAnswers} {receiver receiver' : VideoReceiver} {track : VideoTrack}
    {packet : TakionAVPacket} {frameIndex : Nat} {events : List VideoEvent} (h : Tracked receiver track)
    (bound : frameIndex < 2 ^ 16)
    (moved : receiver.nextFrame jerasure ndebug answers packet frameIndex = .ok (receiver', events)) :
    Follows VideoTrack.next VideoTrack.Allowed track events ∧
      Tracked receiver' (events.foldl VideoTrack.next track) := by
  rcases nextFrame_inv moved with ⟨-, rfl, rfl⟩ | ⟨stats, flushed, between, started, isNext, quiet, flush, start, rfl⟩
  · exact ⟨trivial, h⟩
  have flushing : Follows VideoTrack.next VideoTrack.Allowed track flushed ∧
      Tracked between (flushed.foldl VideoTrack.next track) := by
    rcases flushLast_inv flush with ⟨rfl, rfl⟩ | ⟨going, due, flushed⟩
    · exact ⟨trivial, h⟩
    · exact h.flush going due flushed
  rw [← isNext_congr (flushLast_cur flush)] at isNext
  have starting := flushing.2.start bound isNext start
  simp only [follows_append, List.foldl_append, VideoTrack.foldl_quiet quiet]
  exact ⟨⟨⟨(VideoTrack.follows_quiet quiet track).1, flushing.1⟩, starting.1⟩, starting.2⟩

theorem header_quiet {events : List VideoEvent} (h : events = [] ∨ ∃ header, events = [.header header]) :
    ∀ event ∈ events, VideoTrack.Quiet event := by
  rcases h with rfl | ⟨header, rfl⟩
  · simp
  · simp [VideoTrack.Quiet.header]

theorem Tracked.avPacket {answers : PacketAnswers} {receiver receiver' : VideoReceiver} {track : VideoTrack}
    {packet : TakionAVPacket} {events : List VideoEvent} (h : Tracked receiver track)
    (stepped : receiver.avPacket jerasure ndebug answers packet = .ok (receiver', events)) :
    Follows VideoTrack.next VideoTrack.Allowed track events ∧
      Tracked receiver' (events.foldl VideoTrack.next track) := by
  rcases avPacket_inv stepped with ⟨rfl, rfl⟩ | checked |
    ⟨profiled, header, framed, started, stored, put, flushed, -, checked, next, putUnit, flush, rfl⟩
  · exact ⟨trivial, h⟩
  · obtain ⟨⟨profile, bitstream, rfl⟩, headers, -⟩ := checkAdaptiveStreamIndex_inv checked
    have quiet := header_quiet headers
    rw [VideoTrack.foldl_quiet quiet]
    exact ⟨(VideoTrack.follows_quiet quiet track).1, h.congr rfl rfl rfl rfl⟩
  · obtain ⟨⟨profile, bitstream, rfl⟩, headers, -⟩ := checkAdaptiveStreamIndex_inv checked
    have quiet := header_quiet headers
    have entering : Tracked { receiver with profileCur := profile, bitstream := bitstream } track :=
      h.congr rfl rfl rfl rfl
    have starting := entering.nextFrame (Nat.mod_lt _ (by decide)) next
    obtain ⟨⟨fp, rfl, -⟩, puts⟩ := putUnit_inv putUnit
    have putting : Follows VideoTrack.next VideoTrack.Allowed (started.foldl VideoTrack.next track) put ∧
        Tracked { framed with frameProcessor := fp } (put.foldl VideoTrack.next (started.foldl VideoTrack.next track)) := by
      rcases puts with rfl | rfl
      · exact ⟨trivial, starting.2.congr rfl rfl rfl rfl⟩
      · exact ⟨⟨trivial, trivial⟩, starting.2.congr rfl rfl rfl rfl⟩
    have going : 0 ≤ framed.frameIndexCur := nextFrame_cur next
    have flushing : Follows VideoTrack.next VideoTrack.Allowed
          (put.foldl VideoTrack.next (started.foldl VideoTrack.next track)) flushed ∧
        Tracked receiver' (flushed.foldl VideoTrack.next
          (put.foldl VideoTrack.next (started.foldl VideoTrack.next track))) := by
      rcases flushThis_inv flush with ⟨rfl, rfl⟩ | ⟨due, flushed⟩
      · exact ⟨trivial, putting.2⟩
      · exact putting.2.flush going due flushed
    simp only [follows_append, List.foldl_append, VideoTrack.foldl_quiet quiet]
    exact ⟨⟨⟨⟨(VideoTrack.follows_quiet quiet track).1, starting.1⟩, putting.1⟩, flushing.1⟩, flushing.2⟩

theorem streamInfo_inv {receiver receiver' : VideoReceiver} {profiles : List Bytes} {events : List VideoEvent}
    (h : receiver.step jerasure ndebug (.streamInfo profiles) = .ok (receiver', events)) :
    ∃ profiles', receiver' = { receiver with profiles := profiles' } ∧ events = [] := by
  obtain ⟨informed, info, h⟩ := bind_eq_ok h
  obtain ⟨rfl, rfl⟩ := Prod.mk.inj (Except.ok.inj h)
  unfold streamInfo at info
  split at info
  · obtain rfl := Except.ok.inj info
    exact ⟨_, rfl, rfl⟩
  split at info
  · cases info
  · obtain rfl := Except.ok.inj info
    exact ⟨_, rfl, rfl⟩

theorem Tracked.step {receiver receiver' : VideoReceiver} {track : VideoTrack} {op : Op}
    {events : List VideoEvent} (h : Tracked receiver track)
    (stepped : receiver.step jerasure ndebug op = .ok (receiver', events)) :
    Follows VideoTrack.next VideoTrack.Allowed track events ∧
      Tracked receiver' (events.foldl VideoTrack.next track) := by
  cases op with
  | avPacket answers packet => exact h.avPacket stepped
  | streamInfo profiles =>
      obtain ⟨profiles', rfl, rfl⟩ := streamInfo_inv stepped
      exact ⟨trivial, h.congr rfl rfl rfl rfl⟩

/-! ### Regular packets -/

/-- `alloc_frame` completes for a packet that starts a frame, and no packet is opposite to the current one
on the circle of indices. -/
def Regular (receiver : VideoReceiver) : Op → Prop
  | .streamInfo _ => True
  | .avPacket answers packet =>
      receiver.isOld (packet.frameIndex % 2 ^ 16) = false → receiver.hasProfile packet →
        (receiver.isNext (packet.frameIndex % 2 ^ 16) = true →
          ¬ packet.unitsInFrameTotal < packet.unitsInFrameFec ∧
            receiver.frameProcessor.Completes packet answers.alloc) ∧
        (0 ≤ receiver.frameIndexCur →
          ahead (2 ^ 16) (seqNum16 receiver.frameIndexCur) packet.frameIndex ≠ 2 ^ 15)

theorem Owning.congr {receiver receiver' : VideoReceiver} {track : VideoTrack} (h : Owning receiver track)
    (cur : receiver'.frameIndexCur = receiver.frameIndexCur)
    (blocks : receiver.frameProcessor.SameBlocks receiver'.frameProcessor) : Owning receiver' track := by
  refine ⟨blocks.allocated h.allocated, ?_⟩
  rw [cur]
  exact h.units_eq

/-- A packet that is neither old nor next is of the current frame, when it is not opposite. -/
theorem frameIndex_eq {receiver : VideoReceiver} {track : VideoTrack} (h : Tracked receiver track)
    {frameIndex : Nat} (old : receiver.isOld (frameIndex % 2 ^ 16) = false)
    (next : receiver.isNext (frameIndex % 2 ^ 16) = false)
    (opposite : 0 ≤ receiver.frameIndexCur → ahead (2 ^ 16) (seqNum16 receiver.frameIndexCur) frameIndex ≠ 2 ^ 15) :
    receiver.frameIndexCur = (frameIndex % 2 ^ 16 : Nat) := by
  have going : 0 ≤ receiver.frameIndexCur := by
    rw [isNext, Bool.or_eq_false_iff, decide_eq_false_iff_not] at next
    omega
  obtain ⟨p, -, cur⟩ := h.position going
  have apart := opposite going
  rw [isNext, cur, seqNum16_natCast, Nat.mod_mod, decide_eq_false (by omega), Bool.false_or] at next
  rw [isOld, cur, seqNum16_natCast, Nat.mod_mod, decide_eq_true (by omega), Bool.true_and] at old
  rw [cur, seqNum16_natCast, Nat.mod_mod, ahead_mod_left] at apart
  have small {n : Nat} : n % 2 ^ 16 < 2 ^ 16 := Nat.mod_lt _ (by decide)
  rw [cur]
  by_contra differ
  rcases before_or_before (by decide) (fun same => differ (congrArg _ same)) (fun half => apart (by omega)) with
    before | before
  · have late := (@seqNumGt_iff 16 _ _ (by decide) small small).mpr
      ((before_congr (Nat.mod_mod p _) (Nat.mod_mod frameIndex _)).mpr before)
    exact absurd late (by rw [show seqNumGt 16 = seqNum16Gt from rfl, next]; decide)
  · have early := (@seqNumLt_iff 16 _ _ (by decide) small small).mpr
      ((before_congr (Nat.mod_mod frameIndex _) (Nat.mod_mod p _)).mpr before)
    exact absurd early (by rw [show seqNumLt 16 = seqNum16Lt from rfl, old]; decide)

theorem Owning.nextFrame {answers : PacketAnswers} {receiver receiver' : VideoReceiver} {track : VideoTrack}
    {packet : TakionAVPacket} {events : List VideoEvent} (h : Owning receiver track)
    (tracked : Tracked receiver track) (old : receiver.isOld (packet.frameIndex % 2 ^ 16) = false)
    (starts : receiver.isNext (packet.frameIndex % 2 ^ 16) = true →
      ¬ packet.unitsInFrameTotal < packet.unitsInFrameFec ∧
        receiver.frameProcessor.Completes packet answers.alloc)
    (opposite : 0 ≤ receiver.frameIndexCur →
      ahead (2 ^ 16) (seqNum16 receiver.frameIndexCur) packet.frameIndex ≠ 2 ^ 15)
    (moved : receiver.nextFrame jerasure ndebug answers packet (packet.frameIndex % 2 ^ 16) =
      .ok (receiver', events)) :
    (Follows VideoTrack.next VideoTrack.Owned track events ∧
      Owning receiver' (events.foldl VideoTrack.next track)) ∧
    receiver'.frameIndexCur = (packet.frameIndex % 2 ^ 16 : Nat) := by
  rcases nextFrame_inv moved with ⟨same, rfl, rfl⟩ |
    ⟨stats, flushed, between, started, isNext, quiet, flush, start, rfl⟩
  · exact ⟨⟨trivial, h⟩, frameIndex_eq tracked old same opposite⟩
  obtain ⟨enough, completes⟩ := starts isNext
  have flushing : (Follows VideoTrack.next VideoTrack.Owned track flushed ∧
      Owning between (flushed.foldl VideoTrack.next track)) ∧
      between.frameProcessor.Completes packet answers.alloc := by
    rcases flushLast_inv flush with ⟨rfl, rfl⟩ | ⟨-, -, flushed⟩
    · exact ⟨⟨trivial, h⟩, completes⟩
    · exact ⟨h.flush flushed, flushed.blocks.completes completes⟩
  have starting := flushing.1.2.start enough flushing.2 start
  simp only [follows_append, List.foldl_append, VideoTrack.foldl_quiet quiet]
  exact ⟨⟨⟨⟨(VideoTrack.follows_quiet quiet track).2, flushing.1.1⟩, starting.1⟩, starting.2⟩,
    startFrame_cur start⟩

theorem Owning.putUnit {receiver receiver' : VideoReceiver} {track : VideoTrack} {packet : TakionAVPacket}
    {events : List VideoEvent} (h : Owning receiver track)
    (current : receiver.frameIndexCur = (packet.frameIndex % 2 ^ 16 : Nat))
    (put : receiver.putUnit packet = .ok (receiver', events)) :
    Follows VideoTrack.next VideoTrack.Owned track events ∧
      Owning receiver' (events.foldl VideoTrack.next track) := by
  obtain ⟨⟨fp, rfl, blocks⟩, rfl | rfl⟩ := putUnit_inv put
  · exact ⟨trivial, h.congr rfl blocks⟩
  · refine ⟨⟨trivial, trivial⟩, blocks.allocated h.allocated, fun unit member => ?_⟩
    rcases List.mem_append.mp member with old | new
    · exact h.units_eq unit old
    · obtain rfl := List.mem_singleton.mp new
      exact current.symm

theorem Owning.avPacket {answers : PacketAnswers} {receiver receiver' : VideoReceiver} {track : VideoTrack}
    {packet : TakionAVPacket} {events : List VideoEvent} (h : Owning receiver track)
    (tracked : Tracked receiver track) (regular : receiver.Regular (.avPacket answers packet))
    (stepped : receiver.avPacket jerasure ndebug answers packet = .ok (receiver', events)) :
    Follows VideoTrack.next VideoTrack.Owned track events ∧
      Owning receiver' (events.foldl VideoTrack.next track) := by
  rcases avPacket_inv stepped with ⟨rfl, rfl⟩ | checked |
    ⟨profiled, header, framed, started, stored, put, flushed, old, checked, next, unit, flush, rfl⟩
  · exact ⟨trivial, h⟩
  · obtain ⟨⟨profile, bitstream, rfl⟩, headers, -⟩ := checkAdaptiveStreamIndex_inv checked
    have quiet := header_quiet headers
    rw [VideoTrack.foldl_quiet quiet]
    exact ⟨(VideoTrack.follows_quiet quiet track).2, h.congr rfl (.refl _)⟩
  · obtain ⟨⟨profile, bitstream, rfl⟩, headers, found⟩ := checkAdaptiveStreamIndex_inv checked
    have quiet := header_quiet headers
    obtain ⟨starts, opposite⟩ := regular old (found rfl)
    have entering : Owning { receiver with profileCur := profile, bitstream := bitstream } track :=
      h.congr rfl (.refl _)
    obtain ⟨starting, current⟩ := entering.nextFrame (tracked.congr rfl rfl rfl rfl) old starts opposite next
    have putting := starting.2.putUnit current unit
    have flushing : Follows VideoTrack.next VideoTrack.Owned
          (put.foldl VideoTrack.next (started.foldl VideoTrack.next track)) flushed ∧
        Owning receiver' (flushed.foldl VideoTrack.next
          (put.foldl VideoTrack.next (started.foldl VideoTrack.next track))) := by
      rcases flushThis_inv flush with ⟨rfl, rfl⟩ | ⟨-, flushed⟩
      · exact ⟨trivial, putting.2⟩
      · exact putting.2.flush flushed
    simp only [follows_append, List.foldl_append, VideoTrack.foldl_quiet quiet]
    exact ⟨⟨⟨⟨(VideoTrack.follows_quiet quiet track).2, starting.1⟩, putting.1⟩, flushing.1⟩, flushing.2⟩

theorem Owning.step {receiver receiver' : VideoReceiver} {track : VideoTrack} {op : Op}
    {events : List VideoEvent} (h : Owning receiver track) (tracked : Tracked receiver track)
    (regular : receiver.Regular op) (stepped : receiver.step jerasure ndebug op = .ok (receiver', events)) :
    Follows VideoTrack.next VideoTrack.Owned track events ∧
      Owning receiver' (events.foldl VideoTrack.next track) := by
  cases op with
  | avPacket answers packet => exact h.avPacket tracked regular stepped
  | streamInfo profiles =>
      obtain ⟨profiles', rfl, rfl⟩ := streamInfo_inv stepped
      exact ⟨trivial, h.congr rfl (.refl _)⟩

/-! ## Whole runs -/

/-- Deliveries go up in position, and so in serial order as long as less than half the circle lies between
them; every frame that is started is after the one before. When all packets are regular, a delivered frame
is made of its own units. -/
theorem delivers_inOrder {codec : Codec} {sps : Nat} {packetStats videoSampleCb : Bool} {ops : List Op}
    {receiver : VideoReceiver} {events : List (List VideoEvent)}
    (ran : run (step jerasure ndebug) (init codec sps packetStats videoSampleCb) ops = .ok (receiver, events)) :
    InOrder (deliveries events.flatten) ∧
    (deliveries events.flatten).IsChain (fun a b =>
      b.position < a.position + 2 ^ 15 → seqNum16Gt b.sample.index a.sample.index = true) ∧
    (startedFrames events.flatten).IsChain (fun a b => seqNum16Gt b a = true) ∧
    (Along (step jerasure ndebug) Regular (init codec sps packetStats videoSampleCb) ops →
      OwnUnits (deliveries events.flatten)) := by
  have tracked : Tracked (init codec sps packetStats videoSampleCb) {} := ⟨rfl, fun l delivered => by cases delivered⟩
  have owning : Owning (init codec sps packetStats videoSampleCb) {} :=
    ⟨FrameProcessor.init_allocated, by simp⟩
  have allowed := ((along_true _ ops).follows Tracked (fun s t i s' os h _ stepped => h.step stepped) tracked ran).1
  have order : InOrder (deliveries events.flatten) :=
    ⟨(VideoTrack.deliveries_inOrder allowed).1, (VideoTrack.deliveries_inOrder allowed).2.2⟩
  refine ⟨order, order.serial, (VideoTrack.startedFrames_chain allowed).2, fun regular => ?_⟩
  apply VideoTrack.deliveries_ownUnits
  refine (regular.follows (fun s t => Tracked s t ∧ Owning s t) ?_ ⟨tracked, owning⟩ ran).1
  intro s t i s' os h now stepped
  have owned := h.2.step h.1 now stepped
  exact ⟨owned.1, (h.1.step stepped).2, owned.2⟩

/-- A packet of the only profile. -/
def unitPacket (frameIndex unitIndex total fec : Nat) (data : Bytes) (dataSize_lt : data.length < 2 ^ 16) :
    TakionAVPacket :=
  { TakionAVPacket.ofVideoUnit unitIndex total fec data dataSize_lt with frameIndex := frameIndex }

/-- There is memory, and the callback accepts. -/
def willing : PacketAnswers where
  last := ⟨⟨true, true, true, true⟩, ⟨.unknown, 0⟩, true⟩
  alloc := ⟨true, true⟩
  this := ⟨⟨true, true, true, true⟩, ⟨.unknown, 0⟩, true⟩

theorem exists_of_results {α : Type} {x : Checked α} {P : α → Prop} [DecidablePred P]
    (h : (match x with
      | .ok a => decide (P a)
      | .error _ => false) = true) : ∃ a, x = .ok a ∧ P a := by
  cases x with
  | error e => cases h
  | ok a => exact ⟨a, rfl, of_decide_eq_true h⟩

theorem unit_short : ([0, 0, 5] : Bytes).length < 2 ^ 16 := by decide

def oneFrame : List Op := [.streamInfo [[]], .avPacket willing (unitPacket 1 0 2 1 [0, 0, 5] unit_short)]

theorem oneFrame_regular :
    Along (step FrameProcessor.noMatrix false) Regular (init .h264 0 true true) oneFrame := by
  refine ⟨trivial, fun receiver events informed => ⟨fun _ _ => ?_, fun _ _ _ => trivial⟩⟩
  obtain ⟨profiles, rfl, -⟩ := streamInfo_inv informed
  refine ⟨fun _ => ⟨by decide, 3, rfl, by decide, by decide, fun _ => rfl, fun _ => rfl⟩, fun going => ?_⟩
  exact absurd going (show ¬ (0 : Int) ≤ -1 by decide)

theorem delivers_one_frame :
    ∃ r, run (step FrameProcessor.noMatrix false) (init .h264 0 true true) oneFrame = .ok r ∧
      (deliveries r.2.flatten).length = 1 ∧ InOrder (deliveries r.2.flatten) ∧
        OwnUnits (deliveries r.2.flatten) := by
  obtain ⟨⟨receiver, events⟩, ran, one⟩ := exists_of_results
    (x := run (step FrameProcessor.noMatrix false) (init .h264 0 true true) oneFrame)
    (P := fun r => (deliveries r.2.flatten).length = 1) (by decide +kernel)
  have order := delivers_inOrder ran
  exact ⟨_, ran, one, order.1, order.2.2.2 oneFrame_regular⟩

/-- A frame that is lost between two others which are more than half the circle apart. -/
def lostFrame : List Op :=
  [.streamInfo [[]], .avPacket willing (unitPacket 1 0 2 1 [0, 0, 5] unit_short),
    .avPacket willing (unitPacket 20000 0 3 1 [0, 0, 5] unit_short),
    .avPacket willing (unitPacket 40000 0 2 1 [0, 0, 5] unit_short)]

theorem not_inSerialOrder_lost_frame :
    ∃ r, run (step FrameProcessor.noMatrix false) (init .h264 0 true true) lostFrame = .ok r ∧
      ¬ InSerialOrder (deliveries r.2.flatten) := by
  obtain ⟨r, ran, indices⟩ := exists_of_results
    (x := run (step FrameProcessor.noMatrix false) (init .h264 0 true true) lostFrame)
    (P := fun r => (deliveries r.2.flatten).map (·.sample.index) = [1, 40000]) (by decide +kernel)
  refine ⟨r, ran, ?_⟩
  rw [InSerialOrder, indices]
  decide

end VideoReceiver
end Chiaki
