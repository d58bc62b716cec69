import Chiaki.Lib.Machine
import Chiaki.Lib.Ring
import Chiaki.GKCrypt.KeyStream

/-!
# The key stream buffer

A thread fills a ring with the stream, chunk by chunk and without the mutex, and requests are answered
from it. The stream itself is a function of the position.
-/

namespace Chiaki
open Machine

def keyBufChunkSize : Nat := 0x1000

/-- What the thread is at. -/
inductive KeyBufThread where
  | waiting
  | generating (keyPos bufOffset : Nat)
  | stopped
  deriving DecidableEq, Repr

structure KeyBuf where
  keyBuf : Bytes
  keyBufPopulated : Nat
  keyBufKeyPosMin : Nat
  keyBufStartOffset : Nat
  lastKeyPos : Nat
  keyBufThread : KeyBufThread
  deriving DecidableEq, Repr

def streamRange (stream : Nat → UInt8) (keyPos size : Nat) : Bytes :=
  (List.range size).map fun i => stream (keyPos + i)

/-- `chiaki_gkcrypt_gen_key_stream` of a stream. -/
def streamFrom (stream : Nat → UInt8) (ok : Bool) (keyPos size : Nat) : Checked (Except ErrorCode Bytes) := do
  assert (keyPos % gkcryptBlockSize = 0)
  assert (size % gkcryptBlockSize = 0)
  pure (if ok then .ok (streamRange stream keyPos size) else .error .unknown)

namespace GKCrypt

def streamByte (lib : CipherLib) (crypt : GKCrypt) (pos : Nat) : UInt8 :=
  (keyStream lib crypt (pos / gkcryptBlockSize * gkcryptBlockSize) gkcryptBlockSize).getD (pos % gkcryptBlockSize) 0

theorem keyStream_block (lib : CipherLib) (crypt : GKCrypt) {keyPos : Nat}
    (aligned : keyPos % gkcryptBlockSize = 0) :
    keyStream lib crypt keyPos gkcryptBlockSize = streamRange (streamByte lib crypt) keyPos gkcryptBlockSize := by
  have length : (keyStream lib crypt keyPos gkcryptBlockSize).length = 0x10 := by
    simp [keyStream, gkcryptBlockSize, lib.aes128_length]
  apply List.ext_getElem (by rw [length]; simp [streamRange, gkcryptBlockSize])
  intro i inside _
  rw [length] at inside
  simp only [gkcryptBlockSize] at aligned
  have block : (keyPos + i) / 0x10 * 0x10 = keyPos := by omega
  have byte : (keyPos + i) % 0x10 = i := by omega
  simp only [streamRange, List.getElem_map, List.getElem_range, streamByte, gkcryptBlockSize, block, byte]
  rw [List.getD_eq_getElem?_getD, List.getElem?_eq_getElem, Option.getD_some]

theorem keyStream_range (lib : CipherLib) (crypt : GKCrypt) {keyPos : Nat}
    (aligned : keyPos % gkcryptBlockSize = 0) (blocks : Nat) :
    keyStream lib crypt keyPos (blocks * gkcryptBlockSize) =
      streamRange (streamByte lib crypt) keyPos (blocks * gkcryptBlockSize) := by
  induction blocks with
  | zero => simp [keyStream, streamRange]
  | succ blocks ih =>
      have next : (keyPos + blocks * gkcryptBlockSize) % gkcryptBlockSize = 0 := by
        rw [Nat.add_mul_mod_self_right, aligned]
      rw [Nat.succ_mul, keyStream_split lib crypt aligned (Nat.mul_mod_left _ _), ih, keyStream_block lib crypt next]
      simp only [streamRange, List.range_add, List.map_append, List.map_map, Function.comp_def, Nat.add_assoc]

/-- As long as the counter is right, the stream depends on the position alone. -/
theorem genKeyStream_eq_streamFrom (lib : CipherLib) {crypt : GKCrypt} (ivLength : crypt.iv.length = 0x10)
    {keyPos size : Nat} (posAligned : keyPos % gkcryptBlockSize = 0) (aligned : size % gkcryptBlockSize = 0)
    (short : size < 2 ^ 31) (below : keyPos + size < 2 ^ 35) :
    crypt.genKeyStream lib true keyPos size = streamFrom (streamByte lib crypt) true keyPos size := by
  obtain ⟨blocks, rfl⟩ := Nat.dvd_of_mod_eq_zero aligned
  rw [Nat.mul_comm] at *
  rw [genKeyStream_below lib posAligned aligned ivLength short (.inr below), keyStream_range lib crypt posAligned]
  simp [streamFrom, posAligned, aligned]
  rfl

end GKCrypt

namespace KeyBuf

/-- The buffer as `chiaki_gkcrypt_init` leaves it, with what was in the memory it got. No block of memory
is larger than `PTRDIFF_MAX`. -/
def init (keyBufChunks : Nat) (memory : Nat → UInt8) : Except ErrorCode (Option KeyBuf) :=
  let keyBufSize := keyBufChunks * keyBufChunkSize % 2 ^ 64
  if keyBufSize = 0 then .ok none
  else if 2 ^ 63 ≤ keyBufSize then .error .memory
  else .ok (some ⟨(List.range keyBufSize).map memory, 0, 0, 0, 0, .waiting⟩)

def keyBufSize (s : KeyBuf) : Nat := s.keyBuf.length

/-- `gkcrypt_key_buf_should_generate`. -/
def shouldGenerate (s : KeyBuf) : Bool :=
  s.lastKeyPos > (s.keyBufKeyPosMin + s.keyBufPopulated / 2) % 2 ^ 64

/-- `key_buf_mutex_pred`. -/
def mutexPred (s : KeyBuf) : Bool :=
  s.keyBufPopulated < s.keyBufSize || s.shouldGenerate

/-- Where the buffer ends. -/
def keyPosEnd (s : KeyBuf) : Nat := (s.keyBufKeyPosMin + s.keyBufPopulated) % 2 ^ 64

/-- The answer from the buffer. -/
def cached (s : KeyBuf) (keyPos bufSize : Nat) : Checked Bytes :=
  let offsetInBuf := (keyPos - s.keyBufKeyPosMin + s.keyBufStartOffset) % 2 ^ 64 % s.keyBufSize
  let stop := (offsetInBuf + bufSize) % 2 ^ 64
  if stop > s.keyBufSize then do
    let excess := stop - s.keyBufSize
    let front ← inBounds (Memory.read s.keyBuf offsetInBuf (bufSize - excess))
    let back ← inBounds (Memory.read s.keyBuf 0 excess)
    pure (front ++ back)
  else inBounds (Memory.read s.keyBuf offsetInBuf bufSize)

/-- The request lies outside of what the buffer holds. -/
def missed (s : KeyBuf) (keyPos bufSize : Nat) : Bool :=
  keyPos < s.keyBufKeyPosMin || (keyPos + bufSize) % 2 ^ 64 ≥ s.keyPosEnd

/-- The position up to which the stream was asked for. -/
def request (s : KeyBuf) (keyPos bufSize : Nat) : KeyBuf :=
  if (keyPos + bufSize) % 2 ^ 64 > s.lastKeyPos then { s with lastKeyPos := (keyPos + bufSize) % 2 ^ 64 } else s

/-- `chiaki_gkcrypt_get_key_stream`. -/
def getKeyStream (stream : Nat → UInt8) (s : KeyBuf) (keyPos bufSize : Nat) (ok : Bool) :
    Checked (KeyBuf × Except ErrorCode Bytes) := do
  let requested := s.request keyPos bufSize
  if requested.missed keyPos bufSize then do
    let generated ← streamFrom stream ok keyPos bufSize
    pure (requested, generated)
  else do
    let copied ← requested.cached keyPos bufSize
    pure (requested, .ok copied)

/-- Make room for a chunk: skip ahead of a buffer that is behind the requests, drop the first chunk of a
full one. -/
def makeRoom (s : KeyBuf) : KeyBuf :=
  if s.lastKeyPos > s.keyPosEnd then
    { s with
      keyBufKeyPosMin := s.lastKeyPos / keyBufChunkSize * keyBufChunkSize
      keyBufStartOffset := 0
      keyBufPopulated := 0 }
  else if s.keyBufPopulated = s.keyBufSize then
    { s with
      keyBufStartOffset := (s.keyBufStartOffset + keyBufChunkSize) % 2 ^ 64 % s.keyBufSize
      keyBufKeyPosMin := (s.keyBufKeyPosMin + keyBufChunkSize) % 2 ^ 64
      keyBufPopulated := s.keyBufPopulated - keyBufChunkSize }
  else s

/-- `gkcrypt_generate_next_chunk` up to where it lets go of the mutex. -/
def generateNextChunk (s : KeyBuf) : Checked KeyBuf := do
  assert ((s.keyBufPopulated + keyBufChunkSize) % 2 ^ 64 ≤ s.keyBufSize)
  let bufOffset := (s.keyBufStartOffset + s.keyBufPopulated) % 2 ^ 64 % s.keyBufSize
  pure { s with keyBufThread := .generating s.keyPosEnd bufOffset }

/-- The loop of `gkcrypt_thread_func` from the wait to the unlocked generation; `ok` is what the wait
returned. -/
def wake (s : KeyBuf) (ok : Bool) : Checked KeyBuf :=
  match s.keyBufThread with
  | .waiting =>
      if !ok then pure { s with keyBufThread := .stopped }
      else if s.mutexPred then s.makeRoom.generateNextChunk
      else pure s
  | _ => pure s

/-- A byte that `chiaki_gkcrypt_gen_key_stream` leaves in the chunk while it is at work. -/
def scribble (s : KeyBuf) (i : Nat) (b : UInt8) : Checked KeyBuf :=
  match s.keyBufThread with
  | .generating _ bufOffset =>
      if i < keyBufChunkSize then do
        let keyBuf ← inBounds (Memory.write s.keyBuf (bufOffset + i) [b])
        pure { s with keyBuf := keyBuf }
      else pure s
  | _ => pure s

/-- The end of `gkcrypt_generate_next_chunk`. -/
def generated (stream : Nat → UInt8) (s : KeyBuf) (ok : Bool) : Checked KeyBuf :=
  match s.keyBufThread with
  | .generating keyPos bufOffset => do
      let r ← streamFrom stream ok keyPos keyBufChunkSize
      match r with
      | .error _ => pure { s with keyBufThread := .stopped }
      | .ok bytes => do
          let keyBuf ← inBounds (Memory.write s.keyBuf bufOffset bytes)
          pure { s with
            keyBuf := keyBuf
            keyBufPopulated := (s.keyBufPopulated + keyBufChunkSize) % 2 ^ 64
            keyBufThread := .waiting }
  | _ => pure s

inductive Op where
  | getKeyStream (keyPos bufSize : Nat) (ok : Bool)
  | wake (ok : Bool)
  | scribble (i : Nat) (b : UInt8)
  | generated (ok : Bool)

/-- A request and what it returned. -/
structure Served where
  keyPos : Nat
  bufSize : Nat
  result : Except ErrorCode Bytes

def step (stream : Nat → UInt8) (s : KeyBuf) : Op → Checked (KeyBuf × Option Served)
  | .getKeyStream keyPos bufSize ok => do
      let r ← s.getKeyStream stream keyPos bufSize ok
      pure (r.1, some ⟨keyPos, bufSize, r.2⟩)
  | .wake ok => do
      let s ← s.wake ok
      pure (s, none)
  | .scribble i b => do
      let s ← s.scribble i b
      pure (s, none)
  | .generated ok => do
      let s ← s.generated stream ok
      pure (s, none)

/-! ## The buffer agrees with the stream -/

/-- What the buffer is marked as holding is the stream. -/
structure Agrees (stream : Nat → UInt8) (s : KeyBuf) : Prop where
  populated : s.keyBufPopulated ≤ s.keyBufSize
  holds : ∀ j < s.keyBufPopulated,
    s.keyBuf[(s.keyBufStartOffset + j) % s.keyBufSize]? = some (stream (s.keyBufKeyPosMin + j))

/-- Chunks are whole, and the buffer ends where positions end at the latest. -/
structure Aligned (s : KeyBuf) : Prop where
  nonempty : 0 < s.keyBufSize
  bounded : s.keyBufSize < 2 ^ 63
  size : s.keyBufSize % keyBufChunkSize = 0
  start : s.keyBufStartOffset % keyBufChunkSize = 0
  start_lt : s.keyBufStartOffset < s.keyBufSize
  min : s.keyBufKeyPosMin % keyBufChunkSize = 0
  min_lt : s.keyBufKeyPosMin < 2 ^ 64
  populated : s.keyBufPopulated % keyBufChunkSize = 0
  window : s.keyBufKeyPosMin + s.keyBufPopulated ≤ 2 ^ 64
  last : s.lastKeyPos < 2 ^ 64
  behind : s.keyBufKeyPosMin = 0 ∨ s.keyBufKeyPosMin < s.lastKeyPos + keyBufChunkSize

/-- There is room for the next chunk. -/
structure Room (s : KeyBuf) : Prop where
  free : s.keyBufPopulated + keyBufChunkSize ≤ s.keyBufSize
  below : s.keyBufKeyPosMin + s.keyBufPopulated < 2 ^ 64

structure Valid (stream : Nat → UInt8) (s : KeyBuf) : Prop extends Agrees stream s where
  aligned : s.Aligned
  generating : ∀ keyPos bufOffset, s.keyBufThread = .generating keyPos bufOffset →
    keyPos = s.keyBufKeyPosMin + s.keyBufPopulated ∧
    bufOffset = (s.keyBufStartOffset + s.keyBufPopulated) % s.keyBufSize ∧ s.Room

section
variable {stream : Nat → UInt8} {s : KeyBuf}

theorem Agrees.ring (agrees : Agrees stream s) :
    Ring.Holds s.keyBuf s.keyBufStartOffset s.keyBufPopulated fun j => stream (s.keyBufKeyPosMin + j) :=
  agrees.holds

theorem init_valid {chunks : Nat} {memory : Nat → UInt8} (created : init chunks memory = .ok (some s)) :
    Valid stream s := by
  unfold init at created
  dsimp only at created
  split at created
  · simp at created
  · rename_i nonempty
    split at created
    · simp at created
    · rename_i bounded
      obtain rfl := Option.some.inj (Except.ok.inj created)
      have size : ((List.range (chunks * keyBufChunkSize % 2 ^ 64)).map memory).length =
        chunks * keyBufChunkSize % 2 ^ 64 := by simp
      simp only [keyBufChunkSize] at *
      constructor
      · exact ⟨Nat.zero_le _, by simp⟩
      · constructor <;> simp [keyBufSize, keyBufChunkSize] at * <;> omega
      · simp

theorem Aligned.offset (aligned : s.Aligned) :
    (s.keyBufStartOffset + s.keyBufPopulated) % s.keyBufSize + keyBufChunkSize ≤ s.keyBufSize := by
  have whole := Nat.mod_mod_of_dvd (s.keyBufStartOffset + s.keyBufPopulated) (Nat.dvd_of_mod_eq_zero aligned.size)
  have small := Nat.mod_lt (s.keyBufStartOffset + s.keyBufPopulated) aligned.nonempty
  have start := aligned.start
  have populated := aligned.populated
  have size := aligned.size
  simp only [keyBufChunkSize] at *
  omega

theorem Aligned.below (aligned : s.Aligned) (fits : s.keyBufPopulated ≤ s.keyBufSize)
    (reached : ¬ s.lastKeyPos > s.keyPosEnd) : s.keyBufKeyPosMin + s.keyBufPopulated < 2 ^ 64 := by
  by_contra full
  have stop : s.keyBufKeyPosMin + s.keyBufPopulated = 2 ^ 64 := by
    have window := aligned.window
    omega
  have untouched : s.lastKeyPos = 0 := by
    rw [keyPosEnd, stop] at reached
    omega
  have first : s.keyBufKeyPosMin = 0 := by
    have behind := aligned.behind
    have min := aligned.min
    simp only [keyBufChunkSize] at behind min
    omega
  have bounded := aligned.bounded
  omega

theorem Valid.makeRoom (valid : Valid stream s) (woken : s.mutexPred = true) :
    Agrees stream s.makeRoom ∧ s.makeRoom.Aligned ∧ s.makeRoom.Room := by
  obtain ⟨⟨fits, holds⟩, aligned, -⟩ := valid
  unfold KeyBuf.makeRoom
  split
  · refine ⟨⟨Nat.zero_le _, by simp⟩, ?_, ?_⟩
    · obtain ⟨nonempty, bounded, size, start, start_lt, min, min_lt, populated, window, last, behind⟩ := aligned
      constructor <;> simp only [keyBufSize, keyBufChunkSize] at * <;> omega
    · obtain ⟨nonempty, bounded, size, start, start_lt, min, min_lt, populated, window, last, behind⟩ := aligned
      constructor <;> simp only [keyBufSize, keyBufChunkSize] at * <;> omega
  · rename_i reached
    have below := aligned.below fits reached
    split
    · rename_i full
      have generate : s.shouldGenerate = true := by simpa [mutexPred, full] using woken
      simp only [shouldGenerate, gt_iff_lt, decide_eq_true_eq] at generate
      have place : (s.keyBufStartOffset + keyBufChunkSize) % 2 ^ 64 = s.keyBufStartOffset + keyBufChunkSize := by
        have start_lt := aligned.start_lt
        have bounded := aligned.bounded
        simp only [keyBufChunkSize]
        omega
      have next : (s.keyBufKeyPosMin + keyBufChunkSize) % 2 ^ 64 = s.keyBufKeyPosMin + keyBufChunkSize := by
        have nonempty := aligned.nonempty
        have size := aligned.size
        simp only [keyBufChunkSize] at size ⊢
        omega
      have chunk : keyBufChunkSize ≤ s.keyBufPopulated := by
        have nonempty := aligned.nonempty
        have size := aligned.size
        simp only [keyBufChunkSize] at size ⊢
        omega
      rw [place, next]
      refine ⟨⟨?_, ?_⟩, ?_, ?_⟩
      · simp only [keyBufSize] at fits ⊢
        omega
      · intro j bound
        have moved := Ring.Holds.drop holds chunk j bound
        rwa [Nat.add_assoc]
      · have whole := Nat.mod_mod_of_dvd (s.keyBufStartOffset + keyBufChunkSize) (Nat.dvd_of_mod_eq_zero aligned.size)
        have small := Nat.mod_lt (s.keyBufStartOffset + keyBufChunkSize) aligned.nonempty
        obtain ⟨nonempty, bounded, size, start, start_lt, min, min_lt, populated, window, last, behind⟩ := aligned
        constructor <;> simp only [keyBufSize, keyBufChunkSize] at * <;> omega
      · constructor <;> simp only [keyBufSize] at * <;> omega
    · rename_i notFull
      refine ⟨⟨fits, holds⟩, aligned, ?_, below⟩
      have size := aligned.size
      have populated := aligned.populated
      simp only [keyBufChunkSize] at size populated ⊢
      omega

theorem generateNextChunk_valid (agrees : Agrees stream s) (aligned : s.Aligned) (room : s.Room) :
    ∃ s', s.generateNextChunk = .ok s' ∧ Valid stream s' := by
  have bounded := aligned.bounded
  have start := aligned.start_lt
  have free := room.free
  have below := room.below
  have tight : (s.keyBufPopulated + keyBufChunkSize) % 2 ^ 64 ≤ s.keyBufSize :=
    (Nat.mod_le _ _).trans free
  have place : (s.keyBufStartOffset + s.keyBufPopulated) % 2 ^ 64 = s.keyBufStartOffset + s.keyBufPopulated := by
    omega
  rw [KeyBuf.generateNextChunk, decide_eq_true tight, assert_true, ok_bind, place, keyPosEnd, Nat.mod_eq_of_lt below]
  refine ⟨_, rfl, { agrees with }, { aligned with }, ?_⟩
  · rintro keyPos bufOffset same
    obtain ⟨rfl, rfl⟩ := KeyBufThread.generating.inj same
    exact ⟨rfl, rfl, ⟨free, below⟩⟩

theorem Valid.idle (valid : Valid stream s) {thread : KeyBufThread}
    (idle : ∀ keyPos bufOffset, thread ≠ .generating keyPos bufOffset) :
    Valid stream { s with keyBufThread := thread } :=
  ⟨{ valid.toAgrees with }, { valid.aligned with }, fun keyPos bufOffset same => absurd same (idle keyPos bufOffset)⟩

theorem Valid.wake (valid : Valid stream s) (ok : Bool) : ∃ s', s.wake ok = .ok s' ∧ Valid stream s' := by
  unfold KeyBuf.wake
  cases s.keyBufThread with
  | waiting =>
      cases ok with
      | false => exact ⟨_, rfl, valid.idle (by simp)⟩
      | true =>
          cases woken : s.mutexPred with
          | false => exact ⟨s, by simp; rfl, valid⟩
          | true =>
              obtain ⟨agrees, aligned, room⟩ := valid.makeRoom woken
              simpa [woken] using generateNextChunk_valid agrees aligned room
  | generating keyPos bufOffset => exact ⟨s, rfl, valid⟩
  | stopped => exact ⟨s, rfl, valid⟩

theorem Aligned.write (aligned : s.Aligned) {keyBuf : Bytes} (length : keyBuf.length = s.keyBuf.length) :
    Aligned { s with keyBuf := keyBuf } := by
  obtain ⟨nonempty, bounded, size, start, start_lt, min, min_lt, populated, window, last, behind⟩ := aligned
  constructor <;> simp only [keyBufSize, length] at * <;> assumption

theorem Aligned.extend (aligned : s.Aligned) (below : s.keyBufKeyPosMin + s.keyBufPopulated < 2 ^ 64)
    {thread : KeyBufThread} :
    Aligned { s with keyBufPopulated := s.keyBufPopulated + keyBufChunkSize, keyBufThread := thread } := by
  obtain ⟨nonempty, bounded, size, start, start_lt, min, min_lt, populated, window, last, behind⟩ := aligned
  refine ⟨nonempty, bounded, size, start, start_lt, min, min_lt, ?_, ?_, last, behind⟩
  · simp only [keyBufChunkSize] at populated ⊢
    omega
  · simp only [keyBufChunkSize] at min populated ⊢
    omega

theorem Valid.scribble (valid : Valid stream s) (i : Nat) (b : UInt8) :
    ∃ s', s.scribble i b = .ok s' ∧ Valid stream s' := by
  unfold KeyBuf.scribble
  cases thread : s.keyBufThread with
  | waiting => exact ⟨s, rfl, valid⟩
  | stopped => exact ⟨s, rfl, valid⟩
  | generating keyPos bufOffset =>
      obtain ⟨rfl, rfl, room⟩ := valid.generating _ _ thread
      have free := room.free
      have inside := valid.aligned.offset
      dsimp only
      split
      · rename_i within
        obtain ⟨keyBuf, written⟩ := Memory.exists_write s.keyBuf [b]
          ((s.keyBufStartOffset + s.keyBufPopulated) % s.keyBufSize + i)
          (by simp only [keyBufSize, keyBufChunkSize, List.length_singleton] at *; omega)
        have length : keyBuf.length = s.keyBuf.length := Memory.length_of_write written
        have kept := valid.ring.write_free written
          (by simp only [keyBufSize, keyBufChunkSize, List.length_singleton] at *; omega)
        refine ⟨{ s with keyBuf := keyBuf }, ?_, ⟨?_, kept⟩, valid.aligned.write length, ?_⟩
        · rw [written, inBounds_some, ← thread]
          rfl
        · have populated := valid.populated
          simp only [keyBufSize, length] at populated ⊢
          exact populated
        · intro keyPos bufOffset same
          obtain ⟨pos, offset, room⟩ := valid.generating keyPos bufOffset same
          simp only [keyBufSize, length] at offset ⊢
          exact ⟨pos, offset, by simpa only [keyBufSize, length] using room.free, room.below⟩
      · exact ⟨s, rfl, valid⟩

theorem Valid.generated (valid : Valid stream s) (ok : Bool) :
    ∃ s', s.generated stream ok = .ok s' ∧ Valid stream s' := by
  unfold KeyBuf.generated
  cases thread : s.keyBufThread with
  | waiting => exact ⟨s, rfl, valid⟩
  | stopped => exact ⟨s, rfl, valid⟩
  | generating keyPos bufOffset =>
      obtain ⟨rfl, rfl, room⟩ := valid.generating _ _ thread
      have free := room.free
      have inside := valid.aligned.offset
      have blocks : (s.keyBufKeyPosMin + s.keyBufPopulated) % gkcryptBlockSize = 0 := by
        have min := valid.aligned.min
        have populated := valid.aligned.populated
        simp only [keyBufChunkSize, gkcryptBlockSize] at *
        omega
      have chunk : keyBufChunkSize % gkcryptBlockSize = 0 := rfl
      have next : (s.keyBufPopulated + keyBufChunkSize) % 2 ^ 64 = s.keyBufPopulated + keyBufChunkSize := by
        have bounded := valid.aligned.bounded
        omega
      simp only [streamFrom, blocks, chunk, decide_true, assert_true, ok_bind]
      cases ok with
      | false => exact ⟨_, rfl, valid.idle (by simp)⟩
      | true =>
          have size : (streamRange stream (s.keyBufKeyPosMin + s.keyBufPopulated) keyBufChunkSize).length =
            keyBufChunkSize := by simp [streamRange]
          obtain ⟨keyBuf, written⟩ := Memory.exists_write s.keyBuf
            (streamRange stream (s.keyBufKeyPosMin + s.keyBufPopulated) keyBufChunkSize)
            ((s.keyBufStartOffset + s.keyBufPopulated) % s.keyBufSize) (by rwa [size])
          have length : keyBuf.length = s.keyBuf.length := Memory.length_of_write written
          have extended := valid.ring.write_next written (by rwa [size]) (by rwa [size]) fun i bound => by
            rw [size] at bound
            simp [streamRange, bound, Nat.add_assoc]
          rw [size] at extended
          refine ⟨{ s with
            keyBuf := keyBuf
            keyBufPopulated := s.keyBufPopulated + keyBufChunkSize
            keyBufThread := .waiting }, ?_, ⟨?_, extended⟩, ?_, by simp⟩
          · rw [if_pos rfl]
            simp only [pure_bind, written, inBounds_some, next]
            rfl
          · simp only [keyBufSize, length] at free ⊢
            exact free
          · exact (valid.aligned.write length).extend room.below

/-! ## Requests -/

theorem Valid.request (valid : Valid stream s) (keyPos bufSize : Nat) :
    Valid stream (s.request keyPos bufSize) := by
  unfold KeyBuf.request
  split
  · rename_i later
    refine ⟨{ valid.toAgrees with }, ?aligned, ?generating⟩
    case aligned =>
      obtain ⟨nonempty, bounded, size, start, start_lt, min, min_lt, populated, window, last, behind⟩ := valid.aligned
      refine ⟨nonempty, bounded, size, start, start_lt, min, min_lt, populated, window, ?_, ?_⟩
      · exact Nat.mod_lt _ (by decide)
      · dsimp only
        omega
    case generating =>
      intro keyPos bufOffset same
      obtain ⟨pos, offset, room⟩ := valid.generating keyPos bufOffset same
      exact ⟨pos, offset, { room with }⟩
  · exact valid

theorem cached_eq (s : KeyBuf) {keyPos bufSize offset : Nat}
    (start : (keyPos - s.keyBufKeyPosMin + s.keyBufStartOffset) % 2 ^ 64 % s.keyBufSize = offset)
    (fits : offset + bufSize < 2 ^ 64) : s.cached keyPos bufSize = inBounds (Ring.read s.keyBuf offset bufSize) := by
  have stop : (offset + bufSize) % 2 ^ 64 = offset + bufSize := Nat.mod_eq_of_lt fits
  unfold cached Ring.read
  rw [start]
  dsimp only
  rw [stop, keyBufSize]
  split
  · cases Memory.read s.keyBuf offset (bufSize - (offset + bufSize - s.keyBuf.length)) with
    | none => rfl
    | some front => cases Memory.read s.keyBuf 0 (offset + bufSize - s.keyBuf.length) <;> rfl
  · rfl

theorem Valid.cached (valid : Valid stream s) {keyPos bufSize : Nat} (fits : keyPos + bufSize < 2 ^ 64)
    (hit : s.missed keyPos bufSize = false) : s.cached keyPos bufSize = .ok (streamRange stream keyPos bufSize) := by
  simp only [missed, keyPosEnd, Bool.or_eq_false_iff, decide_eq_false_iff_not, Nat.mod_eq_of_lt fits] at hit
  obtain ⟨above, inside⟩ := hit
  have stop := Nat.mod_le (s.keyBufKeyPosMin + s.keyBufPopulated) (2 ^ 64)
  obtain ⟨k, rfl⟩ := Nat.exists_eq_add_of_le (Nat.le_of_not_lt above)
  have within : k + bufSize ≤ s.keyBufPopulated := by omega
  have populated := valid.populated
  have bounded := valid.aligned.bounded
  have start_lt := valid.aligned.start_lt
  have nonempty := valid.aligned.nonempty
  have small := Nat.mod_lt (s.keyBufStartOffset + k) nonempty
  have offset : (s.keyBufKeyPosMin + k - s.keyBufKeyPosMin + s.keyBufStartOffset) % 2 ^ 64 % s.keyBufSize =
      (s.keyBufStartOffset + k) % s.keyBufSize := by
    rw [Nat.add_sub_cancel_left, Nat.add_comm k, Nat.mod_eq_of_lt (show s.keyBufStartOffset + k < 2 ^ 64 by omega)]
  rw [cached_eq s offset (by omega), keyBufSize, valid.ring.read within populated (List.length_pos_iff.mp nonempty),
    inBounds_some]
  simp only [streamRange, Nat.add_assoc]

end

/-- A request for whole blocks. -/
def Op.Blocks : Op → Prop
  | .getKeyStream keyPos bufSize _ => keyPos % gkcryptBlockSize = 0 ∧ bufSize % gkcryptBlockSize = 0
  | _ => True

/-- A request that ends above the last position does not look as if it ended inside the buffer. -/
def Unwrapped (s : KeyBuf) : Op → Prop
  | .getKeyStream keyPos bufSize _ =>
      keyPos + bufSize < 2 ^ 64 ∨ keyPos < s.keyBufKeyPosMin ∨ s.keyPosEnd ≤ (keyPos + bufSize) % 2 ^ 64
  | _ => True

/-- A request that succeeds returns the stream. -/
def Served.Right (stream : Nat → UInt8) (served : Served) : Prop :=
  ∀ bytes, served.result = .ok bytes → bytes = streamRange stream served.keyPos served.bufSize

theorem Valid.getKeyStream {stream : Nat → UInt8} {s : KeyBuf} (valid : Valid stream s) {keyPos bufSize : Nat}
    (ok : Bool) (blocks : (Op.getKeyStream keyPos bufSize ok).Blocks)
    (unwrapped : s.Unwrapped (.getKeyStream keyPos bufSize ok)) :
    ∃ s' result, s.getKeyStream stream keyPos bufSize ok = .ok (s', result) ∧ Valid stream s' ∧
      Served.Right stream ⟨keyPos, bufSize, result⟩ := by
  have requested := valid.request keyPos bufSize
  unfold KeyBuf.getKeyStream
  dsimp only
  cases missed : (s.request keyPos bufSize).missed keyPos bufSize with
  | true =>
      simp only [streamFrom, blocks.1, blocks.2, decide_true, assert_true, ok_bind, if_true]
      refine ⟨_, _, rfl, requested, ?_⟩
      intro bytes same
      cases ok with
      | true => exact (Except.ok.inj same).symm
      | false => cases same
  | false =>
      have fits : keyPos + bufSize < 2 ^ 64 := by
        rcases unwrapped with fits | outside
        · exact fits
        · have same : (s.request keyPos bufSize).missed keyPos bufSize = s.missed keyPos bufSize := by
            unfold KeyBuf.request
            split <;> rfl
          rw [same] at missed
          simp only [KeyBuf.missed, Bool.or_eq_false_iff, decide_eq_false_iff_not] at missed
          omega
      rw [requested.cached fits missed]
      refine ⟨_, _, rfl, requested, ?_⟩
      intro bytes same
      exact (Except.ok.inj same).symm

theorem Valid.of_step {stream : Nat → UInt8} {s : KeyBuf} (valid : Valid stream s) {op : Op} (blocks : op.Blocks)
    (unwrapped : s.Unwrapped op) :
    ∃ s' served, step stream s op = .ok (s', served) ∧ Valid stream s' ∧ ∀ o ∈ served, o.Right stream := by
  cases op with
  | getKeyStream keyPos bufSize ok =>
      obtain ⟨s', result, computed, valid', right⟩ := valid.getKeyStream ok blocks unwrapped
      refine ⟨s', _, by rw [step, computed]; rfl, valid', ?_⟩
      rintro o ⟨⟩
      exact right
  | wake ok =>
      obtain ⟨s', computed, valid'⟩ := valid.wake ok
      exact ⟨s', none, by rw [step, computed]; rfl, valid', by simp⟩
  | scribble i b =>
      obtain ⟨s', computed, valid'⟩ := valid.scribble i b
      exact ⟨s', none, by rw [step, computed]; rfl, valid', by simp⟩
  | generated ok =>
      obtain ⟨s', computed, valid'⟩ := valid.generated ok
      exact ⟨s', none, by rw [step, computed]; rfl, valid', by simp⟩

/-- The run goes through, what the buffer holds is the stream, and so is every answer. -/
def Agree (stream : Nat → UInt8) (s : KeyBuf) (ops : List Op) : Prop :=
  ∃ t served, run (step stream) s ops = .ok (t, served) ∧ Agrees stream t ∧
    ∀ answer ∈ served, ∀ o ∈ answer, o.Right stream

/-- Requests and the thread in any order. -/
theorem agree_of_unwrapped (stream : Nat → UInt8) {keyBufChunks : Nat} {memory : Nat → UInt8} {s : KeyBuf}
    (created : init keyBufChunks memory = .ok (some s)) {ops : List Op} (blocks : ∀ op ∈ ops, op.Blocks)
    (unwrapped : Along (step stream) Unwrapped s ops) : Agree stream s ops := by
  obtain ⟨t, served, computed, valid, right⟩ := run_invariant (Valid stream)
    (fun answer : Option Served => ∀ o ∈ answer, o.Right stream)
    (fun s op valid allowed => valid.of_step allowed.2 allowed.1) (init_valid created)
    (unwrapped.restrict blocks)
  exact ⟨t, served, computed, valid.toAgrees, right⟩

/-- A request that is answered from the first chunk. -/
theorem agree_first_chunk :
    Agree UInt8.ofNat ⟨(List.range 0x1000).map fun _ => 0, 0, 0, 0, 0, .waiting⟩
      [.wake true, .generated true, .getKeyStream 0x10 0x20 true] :=
  agree_of_unwrapped UInt8.ofNat (show init 1 (fun _ => 0) = _ from rfl) (by simp [Op.Blocks, gkcryptBlockSize])
    ⟨trivial, fun _ _ _ => ⟨trivial, fun _ _ _ => ⟨.inl (by decide), fun _ _ _ => trivial⟩⟩⟩

theorem read_streamRange (stream : Nat → UInt8) {keyPos size offset len : Nat} (inside : offset + len ≤ size) :
    Memory.read (streamRange stream keyPos size) offset len = some (streamRange stream (keyPos + offset) len) := by
  rw [Memory.read_eq_some (by simpa [streamRange] using inside)]
  obtain ⟨rest, rfl⟩ := Nat.exists_eq_add_of_le inside
  simp [streamRange, Nat.add_assoc, List.range_add, Function.comp_def]

/-- One at the first chunk, and nowhere else. -/
def firstChunk (pos : Nat) : UInt8 := if pos < keyBufChunkSize then 1 else 0

/-- The buffer with its first chunk. -/
def filledOnce : KeyBuf := ⟨streamRange firstChunk 0 keyBufChunkSize, keyBufChunkSize, 0, 0, 0, .waiting⟩

theorem fill_once {stream : Nat → UInt8}
    (same : streamRange stream 0 keyBufChunkSize = streamRange firstChunk 0 keyBufChunkSize) {memory : Bytes}
    (length : memory.length = keyBufChunkSize) :
    run (step stream) ⟨memory, 0, 0, 0, 0, .waiting⟩ [.wake true, .generated true] =
      .ok (filledOnce, [none, none]) := by
  have woken : step stream ⟨memory, 0, 0, 0, 0, .waiting⟩ (.wake true) =
      .ok (⟨memory, 0, 0, 0, 0, .generating 0 0⟩, none) := by
    simp [step, wake, mutexPred, keyBufSize, length, makeRoom, keyPosEnd, generateNextChunk, keyBufChunkSize]
  have written : Memory.write memory 0 (streamRange firstChunk 0 keyBufChunkSize) =
      some (streamRange firstChunk 0 keyBufChunkSize) := by
    rw [Memory.write_eq_some (by simp [streamRange, length])]
    simp [streamRange, ← length]
  have generated : step stream ⟨memory, 0, 0, 0, 0, .generating 0 0⟩ (.generated true) =
      .ok (filledOnce, none) := by
    have chunk : streamFrom stream true 0 keyBufChunkSize = .ok (.ok (streamRange firstChunk 0 keyBufChunkSize)) := by
      rw [← same]
      rfl
    simp only [step, KeyBuf.generated, chunk, ok_bind, written, inBounds_some]
    rfl
  rw [run_cons_ok woken, run_cons_ok generated]
  rfl

/-- The last block of all is answered with the last block of the first chunk. -/
theorem getKeyStream_lastBlock (stream : Nat → UInt8) : filledOnce.getKeyStream stream (2 ^ 64 - 0x10) 0x10 true =
    .ok (filledOnce, .ok (streamRange firstChunk 0xff0 0x10)) := by
  have size : filledOnce.keyBufSize = 0x1000 := by simp [filledOnce, keyBufSize, streamRange, keyBufChunkSize]
  have copied : Memory.read filledOnce.keyBuf 0xff0 0x10 = some (streamRange firstChunk 0xff0 0x10) := by
    rw [filledOnce, read_streamRange firstChunk (by decide), Nat.zero_add]
  have cached : filledOnce.cached (2 ^ 64 - 0x10) 0x10 = .ok (streamRange firstChunk 0xff0 0x10) := by
    rw [cached_eq filledOnce (show _ = 0xff0 by rw [size]; rfl) (by decide), Ring.read,
      if_neg (by change ¬ 0xff0 + 0x10 > filledOnce.keyBufSize; omega), copied]
    rfl
  have unchanged : filledOnce.request (2 ^ 64 - 0x10) 0x10 = filledOnce := rfl
  have hit : filledOnce.missed (2 ^ 64 - 0x10) 0x10 = false := rfl
  simp only [KeyBuf.getKeyStream, unchanged, hit, cached, ok_bind]
  rfl

/-- The last block of all looks as if it ended at the front of the buffer. -/
theorem not_agree_lastBlock :
    ∃ s, init 1 (fun _ => 0) = .ok (some s) ∧
      ∃ ops : List Op, (∀ op ∈ ops, op.Blocks) ∧ ¬ Agree firstChunk s ops := by
  refine ⟨⟨(List.range 0x1000).map fun _ => 0, 0, 0, 0, 0, .waiting⟩, rfl,
    [.wake true, .generated true] ++ [.getKeyStream (2 ^ 64 - 0x10) 0x10 true], by simp [Op.Blocks, gkcryptBlockSize], ?_⟩
  rintro ⟨t, served, computed, -, right⟩
  have answered : step firstChunk filledOnce (.getKeyStream (2 ^ 64 - 0x10) 0x10 true) =
      .ok (filledOnce, some ⟨2 ^ 64 - 0x10, 0x10, .ok (streamRange firstChunk 0xff0 0x10)⟩) := by
    rw [step, getKeyStream_lastBlock]
    rfl
  have whole : run (step firstChunk) ⟨(List.range 0x1000).map fun _ => 0, 0, 0, 0, 0, .waiting⟩
      ([.wake true, .generated true] ++ [.getKeyStream (2 ^ 64 - 0x10) 0x10 true]) =
      .ok (filledOnce, [none, none, some ⟨2 ^ 64 - 0x10, 0x10, .ok (streamRange firstChunk 0xff0 0x10)⟩]) := by
    rw [run_append, fill_once rfl (by rw [List.length_map, List.length_range]; rfl)]
    simp only [run_cons_ok answered]
    rfl
  rw [whole] at computed
  obtain ⟨-, rfl⟩ := Prod.mk.inj (Except.ok.inj computed)
  have wrong := right (some ⟨2 ^ 64 - 0x10, 0x10, .ok (streamRange firstChunk 0xff0 0x10)⟩) (by simp) _ rfl _ rfl
  revert wrong
  decide

end KeyBuf
end Chiaki
