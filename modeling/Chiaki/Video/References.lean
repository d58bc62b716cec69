import Chiaki.Bitstream.RoundTrip
import Chiaki.Video.Delivery

/-!
# The reference frames

The array of reference frames holds the last frames that the callback accepted. A frame is given to the
callback only if its reference is among them, as long as a reference that was rewritten is read back.
-/

namespace Chiaki
open Machine Serial

/-! ## The array -/

/-- Empty places, and behind them the last frames accepted, the newest first. -/
def Holds (frames : List Int) (accepted : List Nat) : Prop :=
  frames = List.replicate (16 - accepted.length) (-1) ++ (accepted.take 16).map Int.ofNat

theorem fillRefFrame_eq (frame : Int) {xs : List Int} (used : ∀ x ∈ xs, x ≠ -1) (empty i : Nat)
    (low : empty < i) (high : i ≤ empty + 1 + xs.length) :
    fillRefFrame (List.replicate (empty + 1) (-1) ++ xs) frame i = List.replicate empty (-1) ++ frame :: xs := by
  induction i with
  | zero => omega
  | succ i ih =>
      rw [fillRefFrame]
      by_cases last : i = empty
      · subst last
        rw [List.getElem?_append_left (by simp), List.getElem?_replicate_of_lt (by omega), if_pos rfl,
          List.set_append_left _ _ (by simp), List.replicate_succ', List.set_append_right _ _ (by simp)]
        simp
      · have there : i - (empty + 1) < xs.length := by omega
        rw [List.getElem?_append_right (by simp; omega), List.length_replicate, List.getElem?_eq_getElem there, if_neg]
        · exact ih (by omega) (by omega)
        · intro same
          exact used _ (List.getElem_mem there) (Option.some.inj same)

theorem ofNat_ne_negOne {accepted : List Nat} : ∀ x ∈ accepted.map Int.ofNat, x ≠ -1 := by
  intro x member
  obtain ⟨n, -, rfl⟩ := List.mem_map.mp member
  simp

theorem Holds.add {frames : List Int} {accepted : List Nat} (h : Holds frames accepted) (frame : Nat) :
    Holds (addRefFrame frames frame) (frame :: accepted) := by
  unfold Holds at h ⊢
  subst h
  unfold addRefFrame
  by_cases room : accepted.length < 16
  · obtain ⟨empty, empties⟩ : ∃ empty, 16 - accepted.length = empty + 1 := ⟨15 - accepted.length, by omega⟩
    have first : (List.replicate (empty + 1) (-1 : Int) ++ (accepted.take 16).map Int.ofNat)[0]? = some (-1) := by simp
    rw [empties, first, if_neg (by simp), List.take_of_length_le (by omega), List.length_cons,
      fillRefFrame_eq _ ofNat_ne_negOne _ _ (by omega) (by simp; omega), List.take_of_length_le (by simp; omega),
      show 16 - (accepted.length + 1) = empty by omega]
    rfl
  · have full : 16 - accepted.length = 0 := by omega
    have full' : 16 - (frame :: accepted).length = 0 := by simp; omega
    obtain ⟨newest, older, rfl⟩ := List.exists_cons_of_length_pos (show 0 < accepted.length by omega)
    rw [full, full', if_pos (by simp)]
    simp [List.map_take, List.take_take]

theorem Holds.used {frames : List Int} {accepted : List Nat} (h : Holds frames accepted) :
    frames.filter (· ≠ -1) = (accepted.take 16).map Int.ofNat := by
  rw [h, List.filter_append, List.filter_replicate, if_neg (by simp), List.nil_append]
  apply List.filter_eq_self.mpr
  intro x member
  exact decide_eq_true (ofNat_ne_negOne x member)

theorem Holds.have {frames : List Int} {accepted : List Nat} (h : Holds frames accepted) (frame : Nat) :
    haveRefFrame frames frame = true ↔ frame ∈ accepted.take 16 := by
  unfold haveRefFrame
  rw [decide_eq_true_iff, h, List.mem_append]
  constructor
  · rintro (empty | member)
    · have := List.eq_of_mem_replicate empty
      omega
    · obtain ⟨n, taken, same⟩ := List.mem_map.mp member
      obtain rfl : n = frame := Int.ofNat.inj same
      exact taken
  · intro member
    exact .inr (List.mem_map_of_mem member)

/-! ## Frames and their references -/

/-- The slice is in the bytes, whatever stands on the stack. -/
def Bitstream.Reads (ndebug : Bool) (bitstream : Bitstream) (frame : Bytes) (slice : BitstreamSlice) : Prop :=
  ∀ stack, bitstream.slice ndebug VideoReceiver.bufferAddress frame stack = .ok (true, slice)

def nextAccepted (accepted : List Nat) : VideoEvent → List Nat
  | .sample sample => if sample.accepted then sample.index :: accepted else accepted
  | _ => accepted

/-- The indices of the frames that were accepted, the newest first. -/
def acceptedFrames (events : List VideoEvent) : List Nat := events.foldl nextAccepted []

def lastAccepted (events : List VideoEvent) : List Nat := (acceptedFrames events).take 16

/-- The used part of the array is the last frames that were accepted. -/
def ReferencesKept (receiver : VideoReceiver) (events : List VideoEvent) : Prop :=
  receiver.referenceFrames.filter (· ≠ -1) = (lastAccepted events).map Int.ofNat

/-- The frame that a P slice refers to is one of these. -/
def ReferenceIn (ndebug : Bool) (accepted : List Nat) (sample : VideoSample) : Prop :=
  ∀ slice, sample.bitstream.Reads ndebug sample.frame slice → slice.sliceType = .p → slice.referenceFrame ≠ 0xff →
    seqNum16 ((sample.index : Int) - slice.referenceFrame - 1) ∈ accepted

/-- Every frame given to the callback refers to one of the last that were accepted before. -/
def ReferencesAccepted (ndebug : Bool) (events : List VideoEvent) : Prop :=
  ∀ before sample after, events = before ++ .sample sample :: after → ReferenceIn ndebug (lastAccepted before) sample

/-- What may be given to the callback after these frames. -/
def References (ndebug : Bool) (accepted : List Nat) : VideoEvent → Prop
  | .sample sample => ReferenceIn ndebug (accepted.take 16) sample
  | _ => True

theorem references_of_follows {ndebug : Bool} {events : List VideoEvent}
    (h : Follows nextAccepted (References ndebug) [] events) : ReferencesAccepted ndebug events := by
  rintro before sample after rfl
  exact (follows_append.mp h).2.1

theorem references_of_no_sample (ndebug : Bool) (accepted : List Nat) {event : VideoEvent}
    (other : ∀ sample, event ≠ .sample sample) :
    References ndebug accepted event ∧ nextAccepted accepted event = accepted := by
  cases event with
  | sample sample => exact absurd rfl (other sample)
  | _ => exact ⟨trivial, rfl⟩

/-- A slice that was found does not depend on the stack, or it is of a type that is never rewritten. -/
theorem sliceH265_cases {ndebug : Bool} {address : Nat} {bitstream : Bitstream} {data : Bytes}
    {stack slice : BitstreamSlice} (h : sliceH265 ndebug address data bitstream stack = .ok (true, slice)) :
    (∀ stack', sliceH265 ndebug address data bitstream stack' = .ok (true, slice)) ∨
      ∀ i, sliceSetReferenceFrameH265 ndebug address bitstream data i = .ok (data, false) := by
  obtain ⟨vlc, start, h⟩ := bind_eq_ok h
  obtain ⟨⟨vlc1, found⟩, skip, h⟩ := bind_eq_ok h
  dsimp only at h
  split at h
  · cases h
  rename_i there
  obtain ⟨⟨vlc2, nalUnitType⟩, header, h⟩ := bind_eq_ok h
  dsimp only at h
  split at h
  · cases h
  rename_i known
  by_cases one : nalUnitType = 1
  · subst one
    refine .inl fun stack' => ?_
    rw [sliceH265, start, ok_bind, skip, ok_bind]
    dsimp only
    rw [if_neg there, header, ok_bind]
    dsimp only
    rw [if_neg known]
    obtain ⟨rbsp, init, h⟩ := bind_eq_ok h
    obtain ⟨rbsp1, before, h⟩ := bind_eq_ok h
    obtain ⟨⟨rbsp2, sliceType⟩, code, h⟩ := bind_eq_ok h
    rw [init, ok_bind, before, ok_bind, code, ok_bind]
    exact h
  · refine .inr fun i => ?_
    rw [sliceSetReferenceFrameH265, start, ok_bind, skip, ok_bind]
    dsimp only
    rw [if_neg there, header, ok_bind]
    dsimp only
    rw [if_pos one]
    rfl

namespace VideoReceiver
variable {jerasure : Jerasure} {ndebug : Bool}

theorem findReference_eq_some {receiver : VideoReceiver} {left i j : Nat}
    (h : receiver.findReference left i = some j) :
    haveRefFrame receiver.referenceFrames (receiver.refFrameIndex j) = true := by
  induction left generalizing i with
  | zero => cases h
  | succ left ih =>
      rw [findReference] at h
      split at h
      · rename_i found
        obtain rfl := Option.some.inj h
        exact found
      · exact ih h

theorem findReference_congr {receiver receiver' : VideoReceiver} (cur : receiver'.frameIndexCur = receiver.frameIndexCur)
    (frames : receiver'.referenceFrames = receiver.referenceFrames) (left i : Nat) :
    receiver'.findReference left i = receiver.findReference left i := by
  induction left generalizing i with
  | zero => rfl
  | succ left ih => rw [findReference, findReference, refFrameIndex, refFrameIndex, cur, frames, ih]

theorem alternative_frameProcessor (receiver : VideoReceiver) (fp : FrameProcessor) (slice : BitstreamSlice) :
    { receiver with frameProcessor := fp }.alternative slice = receiver.alternative slice :=
  @findReference_congr receiver { receiver with frameProcessor := fp } rfl rfl _ _

/-- The reference of a frame that this flush would rewrite can be rewritten. -/
def Recoverable (jerasure : Jerasure) (ndebug : Bool) (receiver : VideoReceiver) (answers : FlushAnswers) : Prop :=
  ∀ fp result frame slice i, receiver.frameProcessor.flush jerasure ndebug answers.memory = .ok (fp, result, frame) →
    receiver.bitstream.codec ≠ .h264 → receiver.bitstream.Reads ndebug (frame.getD []) slice →
    receiver.decodable slice = false → receiver.alternative slice = some i →
    Rewritable receiver.bitstream.sps (frame.getD []) i

/-- What is left of a frame after the look at its slice refers to a frame that is there. -/
theorem checkReference_have {receiver : VideoReceiver} {stack : BitstreamSlice} {frame frame' : Bytes}
    {recovered : Bool} (h : receiver.checkReference ndebug stack frame = .ok (frame', true, recovered))
    (recoverable : ∀ slice i, receiver.bitstream.codec ≠ .h264 → receiver.bitstream.Reads ndebug frame slice →
      receiver.decodable slice = false → receiver.alternative slice = some i →
      Rewritable receiver.bitstream.sps frame i)
    {slice : BitstreamSlice} (reads : receiver.bitstream.Reads ndebug frame' slice) (p : slice.sliceType = .p)
    (some_ : slice.referenceFrame ≠ 0xff) :
    haveRefFrame receiver.referenceFrames (receiver.refFrameIndex slice.referenceFrame) = true := by
  obtain ⟨⟨parsed, slice'⟩, parse, h⟩ := bind_eq_ok h
  dsimp only at h
  split at h
  · rename_i parsed
    unfold recoverReference at h
    split at h
    · rename_i decodable
      obtain ⟨rfl, -⟩ := Prod.mk.inj (Except.ok.inj h)
      rw [reads stack] at parse
      obtain ⟨-, rfl⟩ := Prod.mk.inj (Except.ok.inj parse)
      rw [VideoReceiver.decodable, p] at decodable
      simpa [some_] using decodable
    · rename_i missing
      split at h
      · simp [pure, Except.pure] at h
      rename_i i found
      obtain ⟨⟨rewritten, done⟩, set, h⟩ := bind_eq_ok h
      obtain ⟨rfl, rest⟩ := Prod.mk.inj (Except.ok.inj h)
      obtain ⟨rfl, -⟩ := Prod.mk.inj rest
      unfold Bitstream.sliceSetReferenceFrame at set
      split at set
      · simp [pure, Except.pure] at set
      rename_i h265
      have codec : receiver.bitstream.codec ≠ .h264 := fun same => h265 same
      have asH265 (frame : Bytes) (stack : BitstreamSlice) : receiver.bitstream.slice ndebug bufferAddress frame stack =
          sliceH265 ndebug bufferAddress frame receiver.bitstream stack := by
        unfold Bitstream.slice
        split
        · exact absurd ‹_› codec
        · rfl
      rw [asH265, parsed] at parse
      rcases sliceH265_cases parse with same | refused
      · have rewritable := recoverable slice' i codec (fun stack => by rw [asH265, same]) (by simpa using missing) found
        have again := rewritable.roundTrip ndebug bufferAddress set stack
        rw [← asH265, reads stack] at again
        obtain ⟨-, rfl⟩ := Prod.mk.inj (Except.ok.inj again)
        exact findReference_eq_some found
      · rw [refused i] at set
        simp at set
  · rename_i unparsed
    obtain ⟨rfl, -⟩ := Prod.mk.inj (Except.ok.inj h)
    rw [reads stack] at parse
    obtain ⟨rfl, -⟩ := Prod.mk.inj (Except.ok.inj parse)
    exact absurd rfl unparsed

/-! ## The steps -/

/-- The array holds the frames accepted so far, and the current frame has an index or there is none. -/
structure Referring (receiver : VideoReceiver) (accepted : List Nat) : Prop where
  holds : Holds receiver.referenceFrames accepted
  cur_lt : receiver.frameIndexCur < 2 ^ 16

theorem Referring.congr {receiver receiver' : VideoReceiver} {accepted : List Nat} (h : Referring receiver accepted)
    (frames : receiver'.referenceFrames = receiver.referenceFrames)
    (cur : receiver'.frameIndexCur = receiver.frameIndexCur) : Referring receiver' accepted where
  holds := by
    rw [frames]
    exact h.holds
  cur_lt := by
    rw [cur]
    exact h.cur_lt

theorem giveSample_frames (receiver : VideoReceiver) (frame : Bytes) (recovered accepted : Bool) :
    (receiver.giveSample frame recovered accepted).1.referenceFrames =
      if accepted then addRefFrame receiver.referenceFrames receiver.frameIndexCur else receiver.referenceFrames := by
  cases accepted <;> rfl

theorem Referring.flush {answers : FlushAnswers} {receiver receiver' : VideoReceiver} {accepted : List Nat}
    {events : List VideoEvent} (h : Referring receiver accepted) (going : 0 ≤ receiver.frameIndexCur)
    (flushed : receiver.flushFrame jerasure ndebug answers = .ok (receiver', events)) :
    Referring receiver' (events.foldl nextAccepted accepted) ∧
      (Recoverable jerasure ndebug receiver answers → Follows nextAccepted (References ndebug) accepted events) := by
  obtain ⟨fp, result, frame, taken, ⟨-, nothing⟩ | ⟨-, lost, -, failed⟩ | ⟨-, assembled⟩⟩ := flushFrame_inv flushed
  · obtain ⟨rfl, rfl⟩ := nothing
    exact ⟨h.congr rfl rfl, fun _ => trivial⟩
  · obtain ⟨rfl, rfl⟩ := failed
    exact ⟨h.congr rfl rfl, fun _ => ⟨trivial, trivial⟩⟩
  obtain ⟨frame', succ, recovered, looked, finished⟩ := assembled
  rcases finishFrame_inv finished with ⟨-, rfl, lost, -, rfl⟩ | ⟨-, -, rfl, rfl⟩ | ⟨rfl, -, rfl, rfl⟩
  · exact ⟨h.congr rfl rfl, fun _ => trivial⟩
  · exact ⟨h.congr rfl rfl, fun _ => trivial⟩
  obtain ⟨cur, same⟩ := Int.eq_ofNat_of_zero_le going
  have bound := h.cur_lt
  have index : seqNum16 receiver.frameIndexCur = cur := by
    rw [same, seqNum16_natCast]
    omega
  constructor
  · refine ⟨?_, (giveSample_cur ..).trans_lt bound⟩
    rw [giveSample_frames]
    cases answers.accepted with
    | false => exact h.holds
    | true =>
        have added := h.holds.add cur
        rw [← same] at added
        simp only [List.foldl_cons, List.foldl_nil, nextAccepted, giveSample, if_true]
        rw [show (overwriteFrame { receiver with frameProcessor := fp } frame').frameIndexCur = receiver.frameIndexCur
          from rfl, index]
        exact added
  · refine fun recoverable => ⟨fun slice reads p some_ => ?_, trivial⟩
    have have_ := checkReference_have looked (fun slice i codec reads missing found =>
      recoverable fp result frame slice i taken codec reads missing
        (by rwa [alternative_frameProcessor] at found)) reads p some_
    have counted : seqNum16 ((seqNum16 receiver.frameIndexCur : Int) - slice.referenceFrame - 1) =
        receiver.refFrameIndex slice.referenceFrame := by
      rw [index, refFrameIndex, same]
    exact counted ▸ (h.holds.have _).mp have_

/-- The states in which a packet flushes a frame: the one before its own, or its own. -/
inductive Flushes (jerasure : Jerasure) (ndebug : Bool) (receiver : VideoReceiver) (answers : PacketAnswers)
    (packet : TakionAVPacket) : VideoReceiver → FlushAnswers → Prop
  | last {profiled : VideoReceiver} {header : List VideoEvent} :
      receiver.isOld (packet.frameIndex % 2 ^ 16) = false →
      receiver.checkAdaptiveStreamIndex ndebug packet = .ok (profiled, header, true) →
      profiled.isNext (packet.frameIndex % 2 ^ 16) = true →
      0 ≤ profiled.frameIndexCur ∧ profiled.frameIndexPrev ≠ profiled.frameIndexCur →
      Flushes jerasure ndebug receiver answers packet profiled answers.last
  | this {profiled framed stored : VideoReceiver} {header started put : List VideoEvent} :
      receiver.isOld (packet.frameIndex % 2 ^ 16) = false →
      receiver.checkAdaptiveStreamIndex ndebug packet = .ok (profiled, header, true) →
      profiled.nextFrame jerasure ndebug answers packet (packet.frameIndex % 2 ^ 16) = .ok (framed, started) →
      framed.putUnit packet = .ok (stored, put) →
      stored.frameIndexCur ≠ stored.frameIndexPrev ∧
        (stored.frameProcessor.flushPossible ∨ packet.unitIndex + 1 = packet.unitsInFrameTotal) →
      Flushes jerasure ndebug receiver answers packet stored answers.this

/-- Whatever is flushed in a step is recoverable. -/
def RecoverableOp (jerasure : Jerasure) (ndebug : Bool) (receiver : VideoReceiver) : Op → Prop
  | .streamInfo _ => True
  | .avPacket answers packet => ∀ flushing answers', Flushes jerasure ndebug receiver answers packet flushing answers' →
      Recoverable jerasure ndebug flushing answers'

theorem quiet_not_sample {events : List VideoEvent} (quiet : ∀ event ∈ events, VideoTrack.Quiet event)
    (sample : VideoSample) : .sample sample ∉ events := by
  intro member
  cases quiet _ member

theorem startFrame_inv {outcome : FrameProcessor.AllocOutcome} {receiver receiver' : VideoReceiver}
    {packet : TakionAVPacket} {frameIndex : Nat} {events : List VideoEvent}
    (h : receiver.startFrame outcome packet frameIndex = .ok (receiver', events)) :
    (∃ fp, receiver' = { receiver with frameIndexCur := frameIndex, frameProcessor := fp }) ∧
      ∀ sample, .sample sample ∉ events := by
  obtain ⟨⟨fp, err⟩, -, h⟩ := bind_eq_ok h
  obtain ⟨rfl, rfl⟩ := Prod.mk.inj (Except.ok.inj h)
  refine ⟨⟨fp, rfl⟩, fun sample member => ?_⟩
  have gap := quiet_not_sample (reportGap_quiet receiver frameIndex) sample
  simp only [List.mem_append, gap, List.mem_cons, reduceCtorEq, false_or] at member
  split at member <;> simp at member

section Log
variable {τ : Type*} {next : τ → VideoEvent → τ} {Q : τ → VideoEvent → Prop}

theorem follows_no_sample
    (others : ∀ t event, (∀ sample, event ≠ VideoEvent.sample sample) → Q t event ∧ next t event = t)
    {events : List VideoEvent} (none : ∀ sample, .sample sample ∉ events) (t : τ) :
    Follows next Q t events ∧ events.foldl next t = t := by
  induction events generalizing t with
  | nil => exact ⟨trivial, rfl⟩
  | cons event events ih =>
      obtain ⟨holds, same⟩ := others t event fun sample given => none sample (given ▸ List.mem_cons_self)
      obtain ⟨later, kept⟩ := ih (fun sample member => none sample (List.mem_cons_of_mem _ member)) t
      rw [Follows, List.foldl_cons, same]
      exact ⟨⟨holds, later⟩, kept⟩

/-- What the flushes of a packet and the start of its frame keep is kept by the packet. -/
theorem avPacket_follows (Inv : VideoReceiver → τ → Prop)
    (others : ∀ t event, (∀ sample, event ≠ VideoEvent.sample sample) → Q t event ∧ next t event = t)
    (congr : ∀ receiver t profile bitstream fp, Inv receiver t →
      Inv { receiver with profileCur := profile, bitstream := bitstream, frameProcessor := fp } t)
    {answers : PacketAnswers} {receiver receiver' : VideoReceiver} {packet : TakionAVPacket}
    (flushes : ∀ flushing answers' t flushed events, Inv flushing t →
      Flushes jerasure ndebug receiver answers packet flushing answers' → 0 ≤ flushing.frameIndexCur →
      flushing.frameIndexPrev ≠ flushing.frameIndexCur →
      flushing.flushFrame jerasure ndebug answers' = .ok (flushed, events) →
      Follows next Q t events ∧ Inv flushed (events.foldl next t))
    (starts : ∀ profiled header between events t fp, receiver.isOld (packet.frameIndex % 2 ^ 16) = false →
      receiver.checkAdaptiveStreamIndex ndebug packet = .ok (profiled, header, true) →
      profiled.isNext (packet.frameIndex % 2 ^ 16) = true →
      profiled.flushLast jerasure ndebug answers.last = .ok (between, events) → Inv between t →
      Inv { between with frameIndexCur := (packet.frameIndex % 2 ^ 16 : Nat), frameProcessor := fp } t)
    {t : τ} {events : List VideoEvent} (h : Inv receiver t)
    (stepped : receiver.avPacket jerasure ndebug answers packet = .ok (receiver', events)) :
    Follows next Q t events ∧ Inv receiver' (events.foldl next t) := by
  rcases avPacket_inv stepped with ⟨rfl, rfl⟩ | checked |
    ⟨profiled, header, framed, started, stored, put, flushed, old, checked, begun, putUnit, flush, rfl⟩
  · exact ⟨trivial, h⟩
  · obtain ⟨⟨profile, bitstream, rfl⟩, headers, -⟩ := checkAdaptiveStreamIndex_inv checked
    obtain ⟨follows, same⟩ := follows_no_sample others (quiet_not_sample (header_quiet headers)) t
    rw [same]
    exact ⟨follows, congr receiver t profile bitstream receiver.frameProcessor h⟩
  have entering : Inv profiled t := by
    obtain ⟨⟨profile, bitstream, rfl⟩, -, -⟩ := checkAdaptiveStreamIndex_inv checked
    exact congr receiver t profile bitstream receiver.frameProcessor h
  obtain ⟨onHeader, afterHeader⟩ :=
    follows_no_sample others (quiet_not_sample (header_quiet (checkAdaptiveStreamIndex_inv checked).2.1)) t
  have starting : Follows next Q t started ∧ Inv framed (started.foldl next t) := by
    rcases nextFrame_inv begun with ⟨-, rfl, rfl⟩ |
      ⟨stats, flushed, between, started, isNext, quiet, flush, start, rfl⟩
    · exact ⟨trivial, entering⟩
    obtain ⟨onStats, afterStats⟩ := follows_no_sample others (quiet_not_sample quiet) t
    obtain ⟨⟨fp, rfl⟩, none⟩ := startFrame_inv start
    have last : Follows next Q t flushed ∧ Inv between (flushed.foldl next t) := by
      unfold flushLast at flush
      split at flush
      · rename_i due
        exact flushes _ _ _ _ _ entering (.last old checked isNext due) due.1 due.2 flush
      · obtain ⟨rfl, rfl⟩ := Prod.mk.inj (Except.ok.inj flush)
        exact ⟨trivial, entering⟩
    obtain ⟨onStarted, afterStarted⟩ := follows_no_sample others none (flushed.foldl next t)
    simp only [List.foldl_append, afterStats, afterStarted, follows_append]
    exact ⟨⟨⟨onStats, last.1⟩, onStarted⟩, starts _ _ _ _ _ fp old checked isNext flush last.2⟩
  obtain ⟨⟨fp, rfl, -⟩, puts⟩ := putUnit_inv putUnit
  have noPut : ∀ sample, .sample sample ∉ put := by
    rcases puts with rfl | rfl <;> simp
  obtain ⟨onPut, afterPut⟩ := follows_no_sample others noPut (started.foldl next t)
  have putting : Inv { framed with frameProcessor := fp } (started.foldl next t) :=
    congr framed _ framed.profileCur framed.bitstream fp starting.2
  have last : Follows next Q (started.foldl next t) flushed ∧ Inv receiver' (flushed.foldl next (started.foldl next t)) := by
    unfold flushThis at flush
    split at flush
    · rename_i due
      have going : 0 ≤ framed.frameIndexCur := nextFrame_cur begun
      exact flushes _ _ _ _ _ putting (.this old checked begun putUnit due) going (Ne.symm due.1) flush
    · obtain ⟨rfl, rfl⟩ := Prod.mk.inj (Except.ok.inj flush)
      exact ⟨trivial, putting⟩
  simp only [List.foldl_append, afterHeader, afterPut, follows_append]
  exact ⟨⟨⟨⟨onHeader, starting.1⟩, onPut⟩, last.1⟩, last.2⟩

end Log

theorem Referring.start {receiver : VideoReceiver} {accepted : List Nat} (h : Referring receiver accepted)
    (index : Nat) (fp : FrameProcessor) :
    Referring { receiver with frameIndexCur := (index % 2 ^ 16 : Nat), frameProcessor := fp } accepted where
  holds := h.holds
  cur_lt := by
    have bound : index % 2 ^ 16 < 2 ^ 16 := Nat.mod_lt _ (by decide)
    dsimp only
    omega

theorem Referring.avPacket {answers : PacketAnswers} {receiver receiver' : VideoReceiver} {accepted : List Nat}
    {packet : TakionAVPacket} {events : List VideoEvent} (h : Referring receiver accepted)
    (stepped : receiver.avPacket jerasure ndebug answers packet = .ok (receiver', events)) :
    Referring receiver' (events.foldl nextAccepted accepted) ∧
      (RecoverableOp jerasure ndebug receiver (.avPacket answers packet) →
        Follows nextAccepted (References ndebug) accepted events) := by
  constructor
  · refine (avPacket_follows (Q := fun _ _ => True) Referring
      (fun accepted event other => ⟨trivial, (references_of_no_sample false accepted other).2⟩)
      (fun _ _ _ _ _ h => h.congr rfl rfl) ?_ (fun _ _ _ _ _ fp _ _ _ _ h => h.start _ fp) h stepped).2
    exact fun _ _ _ _ _ h _ going _ flushed => ⟨follows_true _ _, (h.flush going flushed).1⟩
  · intro recoverable
    refine (avPacket_follows Referring (fun accepted event => references_of_no_sample ndebug accepted)
      (fun _ _ _ _ _ h => h.congr rfl rfl) ?_ (fun _ _ _ _ _ fp _ _ _ _ h => h.start _ fp) h stepped).1
    intro flushing answers' accepted flushed events h flushes going due flush
    have done := h.flush going flush
    exact ⟨done.2 (recoverable _ _ flushes), done.1⟩

theorem Referring.step {receiver receiver' : VideoReceiver} {accepted : List Nat} {op : Op}
    {events : List VideoEvent} (h : Referring receiver accepted)
    (stepped : receiver.step jerasure ndebug op = .ok (receiver', events)) :
    Referring receiver' (events.foldl nextAccepted accepted) ∧
      (RecoverableOp jerasure ndebug receiver op → Follows nextAccepted (References ndebug) accepted events) := by
  cases op with
  | avPacket answers packet => exact h.avPacket stepped
  | streamInfo profiles =>
      obtain ⟨profiles', rfl, rfl⟩ := streamInfo_inv stepped
      exact ⟨h.congr rfl rfl, fun _ => trivial⟩

/-! ## Whole runs -/

/-- The array is always right. When every reference that is rewritten can be, the callback gets only frames
that refer to one of the last that it accepted. -/
theorem references_safe {codec : Codec} {sps : Nat} {packetStats videoSampleCb : Bool} {ops : List Op}
    {receiver : VideoReceiver} {events : List (List VideoEvent)}
    (ran : run (step jerasure ndebug) (init codec sps packetStats videoSampleCb) ops = .ok (receiver, events)) :
    ReferencesKept receiver events.flatten ∧
      (Along (step jerasure ndebug) (RecoverableOp jerasure ndebug) (init codec sps packetStats videoSampleCb) ops →
        ReferencesAccepted ndebug events.flatten) := by
  have start : Referring (init codec sps packetStats videoSampleCb) [] := ⟨rfl, show (-1 : Int) < 2 ^ 16 by decide⟩
  have kept := ((along_true _ ops).follows Referring
    (fun s t i s' os h _ stepped => ⟨follows_true t os, (h.step stepped).1⟩) start ran).2
  refine ⟨kept.holds.used, fun recoverable => references_of_follows ?_⟩
  exact (recoverable.follows Referring
    (fun s t i s' os h now stepped => ⟨(h.step stepped).2 now, (h.step stepped).1⟩) start ran).1

/-! ### Two frames -/

/-- A P slice with two negative pictures, both used, and more behind it. -/
def pSlice (rest : Bytes) : Bytes := [0, 0, 0, 1, 2, 1, 0xd7, 0x9f, 0xe8] ++ rest

/-- Frame 1 cannot be parsed and is accepted. Frame 3 refers to frame 2, which never comes. -/
def twoFrames (rest : Bytes) (short : (0 :: 0 :: pSlice rest).length < 2 ^ 16) : List Op :=
  [.streamInfo [[]], .avPacket willing (unitPacket 1 0 2 1 [0, 0, 5] unit_short),
    .avPacket willing (unitPacket 3 0 2 1 (0 :: 0 :: pSlice rest) short)]

def sampleAt (events : List VideoEvent) (n : Nat) : Option VideoSample :=
  match events[n]? with
  | some (.sample sample) => some sample
  | _ => none

theorem split_of_sampleAt {events : List VideoEvent} {n : Nat} {sample : VideoSample}
    (h : sampleAt events n = some sample) : events = events.take n ++ .sample sample :: events.drop (n + 1) := by
  unfold sampleAt at h
  split at h
  · rename_i found
    obtain rfl := Option.some.inj h
    obtain ⟨inside, there⟩ := List.getElem?_eq_some_iff.mp found
    rw [← there, List.getElem_cons_drop, List.take_append_drop]
  · cases h

/-- An emulation prevention byte behind the flag moves what is written: the slice still refers to frame 2. -/
theorem not_referencesAccepted_escaped :
    ∃ r, run (step FrameProcessor.noMatrix false) (init .h265 0 true true)
        (twoFrames [0, 0, 3, 0, 0xaa, 0xaa, 0xaa, 0xaa] (by decide)) = .ok r ∧
      ¬ ReferencesAccepted false r.2.flatten := by
  obtain ⟨r, ran, found, accepted⟩ := exists_of_results
    (x := run (step FrameProcessor.noMatrix false) (init .h265 0 true true)
      (twoFrames [0, 0, 3, 0, 0xaa, 0xaa, 0xaa, 0xaa] (by decide)))
    (P := fun r => (sampleAt r.2.flatten 11).map (fun s => (s.index, s.frame, s.bitstream.codec, s.bitstream.sps)) =
      some (3, [0, 0, 0, 1, 2, 1, 0xd7, 0x9f, 0xe8, 0x40, 0, 3, 0, 0xaa, 0xaa, 0xaa, 0xaa], .h265, 0) ∧
      lastAccepted (r.2.flatten.take 11) = [1]) (by decide +kernel)
  refine ⟨r, ran, fun safe => ?_⟩
  obtain ⟨⟨index, frame, lost, recovered, taken, ⟨codec, sps⟩⟩, there, same⟩ := Option.map_eq_some_iff.mp found
  obtain ⟨rfl, rfl, rfl, rfl⟩ : index = 3 ∧ frame = _ ∧ codec = .h265 ∧ sps = 0 := by simpa using same
  have reads : Bitstream.Reads false ⟨.h265, 0⟩
      [0, 0, 0, 1, 2, 1, 0xd7, 0x9f, 0xe8, 0x40, 0, 3, 0, 0xaa, 0xaa, 0xaa, 0xaa] ⟨.p, 0⟩ := by
    obtain ⟨_, parse, rfl⟩ := exists_of_results
      (x := sliceH265 false bufferAddress [0, 0, 0, 1, 2, 1, 0xd7, 0x9f, 0xe8, 0x40, 0, 3, 0, 0xaa, 0xaa, 0xaa, 0xaa]
        ⟨.h265, 0⟩ ⟨.unknown, 0⟩) (P := fun r => r = (true, ⟨.p, 0⟩)) (by decide +kernel)
    rcases sliceH265_cases parse with same | refused
    · exact same
    · obtain ⟨_, set, done⟩ := exists_of_results
        (x := sliceSetReferenceFrameH265 false bufferAddress ⟨.h265, 0⟩
          [0, 0, 0, 1, 2, 1, 0xd7, 0x9f, 0xe8, 0x40, 0, 3, 0, 0xaa, 0xaa, 0xaa, 0xaa] 0)
        (P := fun r => r.2 = true) (by decide +kernel)
      rw [refused 0] at set
      obtain rfl := Except.ok.inj set
      cases done
  have referred := safe _ _ _ (split_of_sampleAt there) _ reads rfl (by decide)
  rw [accepted] at referred
  exact absurd referred (show ¬ 2 ∈ [1] by decide)

/-! ### A run that is safe -/

theorem code_zero {b : Nat → Bool} {pos : Nat} (one : b pos = true) : BitString.Code 15 b pos 0 (pos + 1) :=
  ⟨0, by decide, by simp, one, rfl, rfl⟩

theorem rewritable_plain : Rewritable 0 (pSlice (List.replicate 12 0xaa)) 1 := by
  refine ⟨0, 2, [63], 65, ⟨by decide, by decide, ⟨by decide, by decide, by decide, by simp⟩, by decide, by decide,
    ⟨62, ⟨50, 53, 61, 0, ⟨0, 50, code_zero (by decide), .inl ⟨by decide, rfl⟩⟩,
        ⟨1, by decide, by decide, by decide, by decide, rfl⟩, by decide,
        ⟨1, by decide, by decide, by decide, by decide, rfl⟩, code_zero (by decide)⟩,
      ⟨0, code_zero (by decide)⟩, ⟨0, code_zero (by decide)⟩, trivial⟩, by decide, ?_⟩, rfl, fun _ => ?_⟩
  · intro k low high
    have bound : k < 17 := by omega
    interval_cases k <;> decide
  · intro k low high
    have bound : k < 17 := by omega
    interval_cases k <;> decide

/-- The frame this flush would rewrite, if there is one, is this one, with the reference 1. -/
def flushesOnly (jerasure : Jerasure) (ndebug : Bool) (good : Bytes) (receiver : VideoReceiver)
    (answers : FlushAnswers) : Bool :=
  match receiver.frameProcessor.flush jerasure ndebug answers.memory with
  | .error _ => true
  | .ok (_, _, frame) =>
      match receiver.bitstream.slice ndebug bufferAddress (frame.getD []) answers.stack with
      | .ok (true, slice) => receiver.decodable slice ||
          decide (frame.getD [] = good ∧ receiver.bitstream.sps = 0 ∧ receiver.alternative slice = some 1)
      | _ => true

theorem recoverable_of_flushesOnly {good : Bytes} (rewritable : Rewritable 0 good 1) {receiver : VideoReceiver}
    {answers : FlushAnswers} (h : flushesOnly jerasure ndebug good receiver answers = true) :
    Recoverable jerasure ndebug receiver answers := by
  intro fp result frame slice i taken _ reads missing found
  unfold flushesOnly at h
  simp only [taken, reads answers.stack, missing, Bool.false_or, decide_eq_true_eq] at h
  obtain ⟨rfl, sps, one⟩ := h
  rw [found] at one
  obtain rfl := Option.some.inj one
  rw [sps]
  exact rewritable

/-- The states in which a packet flushes, computed. -/
def flushStates (jerasure : Jerasure) (ndebug : Bool) (receiver : VideoReceiver) (answers : PacketAnswers)
    (packet : TakionAVPacket) : List (VideoReceiver × FlushAnswers) :=
  match receiver.checkAdaptiveStreamIndex ndebug packet with
  | .error _ => []
  | .ok (profiled, _) =>
      (profiled, answers.last) ::
        match profiled.nextFrame jerasure ndebug answers packet (packet.frameIndex % 2 ^ 16) with
        | .error _ => []
        | .ok (framed, _) =>
            match framed.putUnit packet with
            | .error _ => []
            | .ok (stored, _) => [(stored, answers.this)]

theorem Flushes.mem {receiver flushing : VideoReceiver} {answers : PacketAnswers} {answers' : FlushAnswers}
    {packet : TakionAVPacket} (h : Flushes jerasure ndebug receiver answers packet flushing answers') :
    (flushing, answers') ∈ flushStates jerasure ndebug receiver answers packet := by
  unfold flushStates
  cases h with
  | last old checked isNext due => simp [checked]
  | this old checked next put due =>
      simp only [checked, next, put]
      simp

/-- Only this frame is rewritten. -/
def RewritesOnly (jerasure : Jerasure) (ndebug : Bool) (good : Bytes) (receiver : VideoReceiver) : Op → Prop
  | .streamInfo _ => True
  | .avPacket answers packet => ∀ state ∈ flushStates jerasure ndebug receiver answers packet,
      flushesOnly jerasure ndebug good state.1 state.2 = true

instance {good : Bytes} (receiver : VideoReceiver) : (op : Op) → Decidable (RewritesOnly jerasure ndebug good receiver op)
  | .streamInfo _ => .isTrue trivial
  | .avPacket answers packet => inferInstanceAs (Decidable (∀ state ∈ flushStates jerasure ndebug receiver answers packet,
      flushesOnly jerasure ndebug good state.1 state.2 = true))

theorem recoverableOp_of_rewritesOnly {good : Bytes} (rewritable : Rewritable 0 good 1) {receiver : VideoReceiver}
    {op : Op} (h : RewritesOnly jerasure ndebug good receiver op) : RecoverableOp jerasure ndebug receiver op := by
  cases op with
  | streamInfo _ => trivial
  | avPacket answers packet =>
      intro flushing answers' flushes
      exact recoverable_of_flushesOnly rewritable (h _ flushes.mem)

theorem references_safe_rewritten :
    ∃ r, run (step FrameProcessor.noMatrix false) (init .h265 0 true true)
        (twoFrames (List.replicate 12 0xaa) (by decide)) = .ok r ∧ lastAccepted r.2.flatten = [3, 1] ∧
      ReferencesKept r.1 r.2.flatten ∧ ReferencesAccepted false r.2.flatten := by
  obtain ⟨⟨receiver, events⟩, ran, two⟩ := exists_of_results
    (x := run (step FrameProcessor.noMatrix false) (init .h265 0 true true)
      (twoFrames (List.replicate 12 0xaa) (by decide)))
    (P := fun r => lastAccepted r.2.flatten = [3, 1]) (by decide +kernel)
  have only : Along (step FrameProcessor.noMatrix false)
      (RewritesOnly FrameProcessor.noMatrix false (pSlice (List.replicate 12 0xaa))) (init .h265 0 true true)
      (twoFrames (List.replicate 12 0xaa) (by decide)) := by decide +kernel
  have safe := references_safe ran
  exact ⟨_, ran, two, safe.1, safe.2 (only.mono fun _ _ => recoverableOp_of_rewritesOnly rewritable_plain)⟩

end VideoReceiver
end Chiaki
