import Chiaki.SeqNum
import Chiaki.Bitstream.Slice
import Chiaki.Frame.Processor

/-!
# The video receiver

`videoreceiver.c`. What the surroundings decide (whether memory is there, what stands on the stack,
what the callback returns) is an argument; what they are told is a list of events.
-/

namespace Chiaki

/-- The conversion to `ChiakiSeqNum16`. -/
def seqNum16 (x : Int) : Nat := (x % 2 ^ 16).toNat

/-- A sum of `int32_t`. -/
def addInt32 (a b : Int) : Checked Int :=
  if -2 ^ 31 ≤ a + b ∧ a + b < 2 ^ 31 then pure (a + b) else .error .signedOverflow

/-- `chiaki_frame_processor_flush_possible`. -/
def FrameProcessor.flushPossible (fp : FrameProcessor) : Bool :=
  decide ((fp.unitsSourceReceived + fp.unitsFecReceived) % 2 ^ 32 ≥ fp.unitsSourceExpected)

/-- No unit is in the buffer. -/
def FrameProcessor.isEmpty (fp : FrameProcessor) : Bool := (fp.unitSlots.getD []).all (· = 0)

/-- A call of `video_sample_cb` for the frame with this index, what it returned, and the bitstream that the
slices are read with then. -/
structure VideoSample where
  index : Nat
  frame : Bytes
  framesLost : Int
  recovered : Bool
  accepted : Bool
  bitstream : Bitstream

inductive VideoEvent where
  | header (header : Bytes)
  | corruptFrame (start last : Nat)
  | packetStats (received lost : Nat)
  | newFrame (index : Nat)
  | emptied
  | stored (packet : TakionAVPacket)
  | sample (sample : VideoSample)

/-- The surroundings during one flush. -/
structure FlushAnswers where
  memory : FlushOutcome
  stack : BitstreamSlice
  accepted : Bool

/-- The surroundings during one packet, which can flush the frame before and its own. -/
structure PacketAnswers where
  last : FlushAnswers
  alloc : FrameProcessor.AllocOutcome
  this : FlushAnswers

/-- `ChiakiVideoReceiver`, with the two fields of other structures that it looks at: whether there are
packet statistics and a callback for samples. A profile is its header. -/
structure VideoReceiver where
  profiles : List Bytes
  profileCur : Int
  frameIndexCur : Int
  frameIndexPrev : Int
  frameIndexPrevComplete : Int
  frameProcessor : FrameProcessor
  packetStats : Bool
  framesLost : Int
  referenceFrames : List Int
  bitstream : Bitstream
  videoSampleCb : Bool

def videoProfilesMax : Nat := 8

/-! ## Reference frames -/

/-- The loop of `add_ref_frame` down from index `i - 1`. -/
def fillRefFrame (frames : List Int) (frame : Int) : (i : Nat) → List Int
  | 0 => frames
  | i + 1 => if frames[i]? = some (-1) then frames.set i frame else fillRefFrame frames frame i

/-- `add_ref_frame`. -/
def addRefFrame (frames : List Int) (frame : Int) : List Int :=
  if frames[0]? ≠ some (-1) then frame :: frames.take 15 else fillRefFrame frames frame 16

/-- `have_ref_frame`. -/
def haveRefFrame (frames : List Int) (frame : Int) : Bool := frame ∈ frames

namespace VideoReceiver

/-- `chiaki_video_receiver_init`. `sps` is what the memory of the bitstream holds. -/
def init (codec : Codec) (sps : Nat) (packetStats videoSampleCb : Bool) : VideoReceiver where
  profiles := []
  profileCur := -1
  frameIndexCur := -1
  frameIndexPrev := -1
  frameIndexPrevComplete := 0
  frameProcessor := .init
  packetStats := packetStats
  framesLost := 0
  referenceFrames := List.replicate 16 (-1)
  bitstream := { codec := codec, sps := sps }
  videoSampleCb := videoSampleCb

/-- `chiaki_video_receiver_stream_info`. -/
def streamInfo (receiver : VideoReceiver) (profiles : List Bytes) : Checked VideoReceiver :=
  if receiver.profiles.length > 0 then pure receiver
  else if profiles.length > videoProfilesMax then .error .outOfBounds
  else pure { receiver with profiles := profiles }

/-- The index `reference` frames before the one behind the current frame. -/
def refFrameIndex (receiver : VideoReceiver) (reference : Nat) : Nat :=
  seqNum16 (receiver.frameIndexCur - reference - 1)

/-- The loop over the alternatives from `i`, `left` of them. -/
def findReference (receiver : VideoReceiver) : (left i : Nat) → Option Nat
  | 0, _ => none
  | left + 1, i =>
      if haveRefFrame receiver.referenceFrames (receiver.refFrameIndex i) then some i
      else findReference receiver left (i + 1)

/-- Whether the slice can be decoded with the reference frames there are. -/
def decodable (receiver : VideoReceiver) (slice : BitstreamSlice) : Bool :=
  slice.sliceType ≠ .p || slice.referenceFrame = 0xff ||
    haveRefFrame receiver.referenceFrames (receiver.refFrameIndex slice.referenceFrame)

def alternative (receiver : VideoReceiver) (slice : BitstreamSlice) : Option Nat :=
  receiver.findReference (16 - (slice.referenceFrame + 1) % 2 ^ 32) ((slice.referenceFrame + 1) % 2 ^ 32)

section Flush
variable (jerasure : Jerasure) (ndebug : Bool)

/-- The block of a frame buffer is aligned. -/
def bufferAddress : Nat := 0

/-- A P slice whose reference is missing is given another: the frame, `succ` and `recovered`. -/
def recoverReference (receiver : VideoReceiver) (slice : BitstreamSlice) (frame : Bytes) :
    Checked (Bytes × Bool × Bool) :=
  if receiver.decodable slice then pure (frame, true, false)
  else
    match receiver.alternative slice with
    | none => pure (frame, false, false)
    | some i => do
        let (frame, recovered) ← receiver.bitstream.sliceSetReferenceFrame ndebug bufferAddress frame i
        pure (frame, recovered, recovered)

/-- The frame in the buffer, rewritten in place. -/
def overwriteFrame (receiver : VideoReceiver) (frame : Bytes) : VideoReceiver :=
  { receiver with
    frameProcessor :=
      { receiver.frameProcessor with
        frameBuf := receiver.frameProcessor.frameBuf.map fun buf => frame ++ buf.drop frame.length } }

/-- Hand the frame to the callback. -/
def giveSample (receiver : VideoReceiver) (frame : Bytes) (recovered accepted : Bool) : VideoReceiver × VideoEvent :=
  let receiver' := { receiver with framesLost := 0, frameIndexPrev := receiver.frameIndexCur }
  (if accepted then
    { receiver' with
      referenceFrames := addRefFrame receiver.referenceFrames receiver.frameIndexCur
      frameIndexPrevComplete := receiver.frameIndexCur }
    else receiver',
   .sample
    { index := seqNum16 receiver.frameIndexCur
      frame := frame
      framesLost := receiver.framesLost
      recovered := recovered
      accepted := accepted
      bitstream := receiver.bitstream })

/-- The end of a flush of a frame that was assembled. -/
def finishFrame (receiver : VideoReceiver) (frame : Bytes) (succ recovered accepted : Bool) :
    Checked (VideoReceiver × List VideoEvent) :=
  if !succ then do
    let framesLost ← addInt32 receiver.framesLost 1
    pure ({ receiver with framesLost := framesLost, frameIndexPrev := receiver.frameIndexCur }, [])
  else if receiver.videoSampleCb then
    let (receiver, event) := receiver.giveSample frame recovered accepted
    pure (receiver, [event])
  else
    pure ({ receiver with
      frameIndexPrev := receiver.frameIndexCur
      frameIndexPrevComplete := receiver.frameIndexCur }, [])

/-- The slice of a frame that was assembled is looked at. -/
def checkReference (receiver : VideoReceiver) (stack : BitstreamSlice) (frame : Bytes) :
    Checked (Bytes × Bool × Bool) := do
  let (parsed, slice) ← receiver.bitstream.slice ndebug bufferAddress frame stack
  if parsed then receiver.recoverReference ndebug slice frame else pure (frame, true, false)

def nextFrameExpected (receiver : VideoReceiver) : Nat := seqNum16 (receiver.frameIndexPrevComplete + 1)

/-- `chiaki_video_receiver_flush_frame`. -/
def flushFrame (answers : FlushAnswers) (receiver : VideoReceiver) :
    Checked (VideoReceiver × List VideoEvent) := do
  let (fp, result, frame) ← receiver.frameProcessor.flush jerasure ndebug answers.memory
  let receiver := { receiver with frameProcessor := fp }
  match result with
  | .failed => pure (receiver, [])
  | .fecFailed =>
      let framesLost ← addInt32 receiver.framesLost
        (receiver.frameIndexCur - receiver.nextFrameExpected + 1)
      pure ({ receiver with framesLost := framesLost, frameIndexPrev := receiver.frameIndexCur },
        [.corruptFrame receiver.nextFrameExpected (seqNum16 receiver.frameIndexCur)])
  | .success | .fecSuccess =>
      let (frame, succ, recovered) ← receiver.checkReference ndebug answers.stack (frame.getD [])
      (receiver.overwriteFrame frame).finishFrame frame succ recovered answers.accepted

end Flush

/-! ## Packets -/

section Packet
variable (jerasure : Jerasure) (ndebug : Bool)

/-- The profile of the packet is the current one or there is one of this index. -/
def hasProfile (receiver : VideoReceiver) (packet : TakionAVPacket) : Prop :=
  (0 ≤ receiver.profileCur ∧ receiver.profileCur = packet.adaptiveStreamIndex) ∨
    packet.adaptiveStreamIndex < receiver.profiles.length

/-- "check adaptive stream index": whether there is such a profile. -/
def checkAdaptiveStreamIndex (receiver : VideoReceiver) (packet : TakionAVPacket) :
    Checked (VideoReceiver × List VideoEvent × Bool) :=
  if 0 ≤ receiver.profileCur ∧ receiver.profileCur = packet.adaptiveStreamIndex then pure (receiver, [], true)
  else
    match receiver.profiles[packet.adaptiveStreamIndex]? with
    | none => pure (receiver, [], false)
    | some header => do
        let (bitstream, _) ← receiver.bitstream.header ndebug bufferAddress header
        pure ({ receiver with profileCur := packet.adaptiveStreamIndex, bitstream := bitstream },
          if receiver.videoSampleCb then [.header header] else [], true)

def isOld (receiver : VideoReceiver) (frameIndex : Nat) : Bool :=
  0 ≤ receiver.frameIndexCur && seqNum16Lt frameIndex (seqNum16 receiver.frameIndexCur)

def isNext (receiver : VideoReceiver) (frameIndex : Nat) : Bool :=
  receiver.frameIndexCur < 0 || seqNum16Gt frameIndex (seqNum16 receiver.frameIndexCur)

/-- "last frame not flushed yet?" -/
def flushLast (answers : FlushAnswers) (receiver : VideoReceiver) : Checked (VideoReceiver × List VideoEvent) :=
  if 0 ≤ receiver.frameIndexCur ∧ receiver.frameIndexPrev ≠ receiver.frameIndexCur then
    receiver.flushFrame jerasure ndebug answers
  else pure (receiver, [])

/-- The report of missing or corrupt frames before a new one. -/
def reportGap (receiver : VideoReceiver) (frameIndex : Nat) : List VideoEvent :=
  if seqNum16Gt frameIndex receiver.nextFrameExpected && !(frameIndex = 1 && receiver.frameIndexCur < 0) then
    [.corruptFrame receiver.nextFrameExpected (seqNum16 ((frameIndex : Int) - 1))]
  else []

/-- The frame of the packet becomes the current one, whatever `alloc_frame` returns. -/
def startFrame (outcome : FrameProcessor.AllocOutcome) (receiver : VideoReceiver) (packet : TakionAVPacket)
    (frameIndex : Nat) : Checked (VideoReceiver × List VideoEvent) := do
  let (fp, _) ← receiver.frameProcessor.allocFrame packet outcome
  pure ({ receiver with frameIndexCur := frameIndex, frameProcessor := fp },
    receiver.reportGap frameIndex ++ .newFrame frameIndex :: if fp.isEmpty then [.emptied] else [])

/-- "next frame?" -/
def nextFrame (answers : PacketAnswers) (receiver : VideoReceiver) (packet : TakionAVPacket) (frameIndex : Nat) :
    Checked (VideoReceiver × List VideoEvent) :=
  if receiver.isNext frameIndex then do
    let stats := receiver.frameProcessor.reportPacketStats
    let (receiver', flushed) ← receiver.flushLast jerasure ndebug answers.last
    let (receiver'', started) ← receiver'.startFrame answers.alloc packet frameIndex
    pure (receiver'', (if receiver.packetStats then [.packetStats stats.1 stats.2] else []) ++ flushed ++ started)
  else pure (receiver, [])

def putUnit (receiver : VideoReceiver) (packet : TakionAVPacket) : Checked (VideoReceiver × List VideoEvent) := do
  let (fp, err) ← receiver.frameProcessor.putUnit packet
  pure ({ receiver with frameProcessor := fp }, if err = .success then [.stored packet] else [])

/-- "if we already have enough for the whole frame, flush it already" -/
def flushThis (answers : FlushAnswers) (receiver : VideoReceiver) (packet : TakionAVPacket) :
    Checked (VideoReceiver × List VideoEvent) :=
  if receiver.frameIndexCur ≠ receiver.frameIndexPrev ∧
      (receiver.frameProcessor.flushPossible ∨ packet.unitIndex + 1 = packet.unitsInFrameTotal) then
    receiver.flushFrame jerasure ndebug answers
  else pure (receiver, [])

/-- `chiaki_video_receiver_av_packet`. -/
def avPacket (answers : PacketAnswers) (receiver : VideoReceiver) (packet : TakionAVPacket) :
    Checked (VideoReceiver × List VideoEvent) :=
  let frameIndex := packet.frameIndex % 2 ^ 16
  if receiver.isOld frameIndex then pure (receiver, [])
  else do
    let (receiver, header, found) ← receiver.checkAdaptiveStreamIndex ndebug packet
    if !found then pure (receiver, header)
    else do
      let (receiver, started) ← receiver.nextFrame jerasure ndebug answers packet frameIndex
      let (receiver, stored) ← receiver.putUnit packet
      let (receiver, flushed) ← receiver.flushThis jerasure ndebug answers.this packet
      pure (receiver, header ++ started ++ stored ++ flushed)

inductive Op where
  | streamInfo (profiles : List Bytes)
  | avPacket (answers : PacketAnswers) (packet : TakionAVPacket)

def step (receiver : VideoReceiver) : Op → Checked (VideoReceiver × List VideoEvent)
  | .streamInfo profiles => do
      let receiver ← receiver.streamInfo profiles
      pure (receiver, [])
  | .avPacket answers packet => receiver.avPacket jerasure ndebug answers packet

end Packet
end VideoReceiver
end Chiaki
