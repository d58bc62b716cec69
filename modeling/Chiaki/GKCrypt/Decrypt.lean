import Chiaki.GKCrypt.KeyBuf
import Chiaki.Lib.Masking

/-!
# Decryption

`chiaki_gkcrypt_decrypt`. The whole blocks around the range are requested, from the key stream buffer where there is
one, and the padding in front is skipped.
-/

namespace Chiaki
open Machine Masking

namespace KeyBuf

/-- `chiaki_gkcrypt_get_key_stream`, for a GKCrypt with a buffer or without. -/
def requestKeyStream (stream : Nat → UInt8) (ok : Bool) (keyBuf : Option KeyBuf) (keyPos bufSize : Nat) :
    Checked (Option KeyBuf × Except ErrorCode Bytes) :=
  match keyBuf with
  | none => do
      let generated ← streamFrom stream ok keyPos bufSize
      pure (none, generated)
  | some s => do
      let r ← s.getKeyStream stream keyPos bufSize ok
      pure (some r.1, r.2)

def paddingPre (keyPos : Nat) : Nat := keyPos % gkcryptBlockSize

/-- The blocks around the range. -/
def fullSize (keyPos bufSize : Nat) : Nat :=
  (paddingPre keyPos + bufSize + gkcryptBlockSize - 1) / gkcryptBlockSize * gkcryptBlockSize

/-- `chiaki_gkcrypt_decrypt`: what becomes of `buf`. `alloc` says whether `malloc` gives the memory. -/
def decrypt (stream : Nat → UInt8) (alloc ok : Bool) (keyBuf : Option KeyBuf) (keyPos : Nat) (buf : Bytes) :
    Checked (Option KeyBuf × Except ErrorCode Bytes) :=
  if !alloc then pure (keyBuf, .error .memory)
  else do
    let r ← requestKeyStream stream ok keyBuf (keyPos - paddingPre keyPos) (fullSize keyPos buf.length)
    match r.2 with
    | .error err => pure (r.1, .error err)
    | .ok keyStream => do
        let bytes ← inBounds (Memory.read keyStream (paddingPre keyPos) buf.length)
        pure (r.1, .ok (List.zipWith (· ^^^ ·) buf bytes))

/-- What other threads do to the buffer. -/
def others (stream : Nat → UInt8) (keyBuf : Option KeyBuf) (ops : List Op) : Checked (Option KeyBuf) :=
  match keyBuf with
  | none => pure none
  | some s => (run (step stream) s ops).map fun r => some r.1

/-- The pieces of a buffer one after the other, other threads in between. -/
def decryptPieces (stream : Nat → UInt8) : Option KeyBuf → (keyPos : Nat) → List (List Op × Bytes) →
    Checked (Option KeyBuf × Except ErrorCode Bytes)
  | keyBuf, _, [] => pure (keyBuf, .ok [])
  | keyBuf, keyPos, (ops, piece) :: rest => do
      let keyBuf ← others stream keyBuf ops
      let r ← decrypt stream true true keyBuf keyPos piece
      match r.2 with
      | .error err => pure (r.1, .error err)
      | .ok front => do
          let r ← decryptPieces stream r.1 ((keyPos + piece.length) % 2 ^ 64) rest
          match r.2 with
          | .error err => pure (r.1, .error err)
          | .ok back => pure (r.1, .ok (front ++ back))

/-- A key stream of 64-bit positions. -/
def wrapped (f : Nat → UInt8) (pos : Nat) : UInt8 := f (pos % 2 ^ 64)

def pieced (pieces : List (List Op × Bytes)) : Bytes := pieces.flatMap Prod.snd

/-- Piece by piece the result is that of the whole, each byte is combined with the stream at its own position, and a
second time restores the buffer. -/
def PositionIndependent (f : Nat → UInt8) (keyBuf : Option KeyBuf) (keyPos : Nat) (pieces : List (List Op × Bytes)) :
    Prop :=
  ∃ keyBuf' whole, decrypt (wrapped f) true true keyBuf keyPos (pieced pieces) = .ok (keyBuf', .ok whole) ∧
    whole.length = (pieced pieces).length ∧
    (∀ j b, (pieced pieces)[j]? = some b → whole[j]? = some (b ^^^ f ((keyPos + j) % 2 ^ 64))) ∧
    (∃ t, decryptPieces (wrapped f) keyBuf keyPos pieces = .ok (t, .ok whole)) ∧
    ∃ t, decrypt (wrapped f) true true keyBuf' keyPos whole = .ok (t, .ok (pieced pieces))

/-- The request of a range is not taken for one inside the buffer when it ends at the last position. -/
def Unmistaken (keyBuf : Option KeyBuf) (keyPos bufSize : Nat) : Prop :=
  ∀ s ∈ keyBuf, s.Unwrapped (.getKeyStream (keyPos - paddingPre keyPos) (fullSize keyPos bufSize) true)

/-- So it is with every piece, and with every request that other threads make. -/
def UnmistakenPieces (stream : Nat → UInt8) : Option KeyBuf → (keyPos : Nat) → List (List Op × Bytes) → Prop
  | _, _, [] => True
  | keyBuf, keyPos, (ops, piece) :: rest =>
      (∀ s ∈ keyBuf, (∀ op ∈ ops, op.Blocks) ∧ Along (step stream) Unwrapped s ops) ∧
        ∀ keyBuf', others stream keyBuf ops = .ok keyBuf' → Unmistaken keyBuf' keyPos piece.length ∧
          ∀ keyBuf'' result, decrypt stream true true keyBuf' keyPos piece = .ok (keyBuf'', result) →
            UnmistakenPieces stream keyBuf'' ((keyPos + piece.length) % 2 ^ 64) rest

/-! ## One call -/

section Range
variable (keyPos bufSize : Nat)

theorem paddingPre_le : paddingPre keyPos ≤ keyPos := Nat.mod_le _ _

theorem start_aligned : (keyPos - paddingPre keyPos) % gkcryptBlockSize = 0 := by
  rw [paddingPre, gkcryptBlockSize]
  omega

theorem fullSize_aligned : fullSize keyPos bufSize % gkcryptBlockSize = 0 := Nat.mul_mod_left _ _

theorem range_inside : paddingPre keyPos + bufSize ≤ fullSize keyPos bufSize := by
  rw [fullSize, paddingPre, gkcryptBlockSize]
  omega

end Range

/-- A buffer that holds what it says. -/
def ValidBuf (stream : Nat → UInt8) (keyBuf : Option KeyBuf) : Prop := ∀ s ∈ keyBuf, Valid stream s

variable {stream : Nat → UInt8} {keyBuf : Option KeyBuf}

theorem zipWith_streamRange (keyPos : Nat) (buf : Bytes) :
    List.zipWith (· ^^^ ·) buf (streamRange stream keyPos buf.length) = mask (· ^^^ ·) stream keyPos buf := by
  apply List.ext_getElem?
  intro j
  rw [getElem?_mask, List.getElem?_zipWith]
  by_cases inside : j < buf.length
  · simp [streamRange, inside]
  · rw [List.getElem?_eq_none (Nat.not_lt.mp inside)]
    rfl

theorem requestKeyStream_eq (valid : ValidBuf stream keyBuf) {keyPos bufSize : Nat}
    (unmistaken : Unmistaken keyBuf keyPos bufSize) :
    ∃ t, requestKeyStream stream true keyBuf (keyPos - paddingPre keyPos) (fullSize keyPos bufSize) =
        .ok (t, .ok (streamRange stream (keyPos - paddingPre keyPos) (fullSize keyPos bufSize))) ∧
      ValidBuf stream t := by
  have start := start_aligned keyPos
  have size := fullSize_aligned keyPos bufSize
  have generated : streamFrom stream true (keyPos - paddingPre keyPos) (fullSize keyPos bufSize) =
      .ok (.ok (streamRange stream (keyPos - paddingPre keyPos) (fullSize keyPos bufSize))) := by
    rw [streamFrom, decide_eq_true start, decide_eq_true size]
    rfl
  cases keyBuf with
  | none => exact ⟨none, by rw [requestKeyStream, generated]; rfl, by simp [ValidBuf]⟩
  | some s =>
      obtain ⟨s', result, answered, valid', right⟩ :=
        (valid s rfl).getKeyStream true ⟨start, size⟩ (unmistaken s rfl)
      have succeeds : ∃ bytes, result = .ok bytes := by
        unfold KeyBuf.getKeyStream at answered
        dsimp only at answered
        split at answered
        · rw [generated] at answered
          cases answered
          exact ⟨_, rfl⟩
        · obtain ⟨bytes, -, done⟩ := bind_eq_ok answered
          cases done
          exact ⟨_, rfl⟩
      obtain ⟨bytes, rfl⟩ := succeeds
      refine ⟨some s', ?_, by simpa [ValidBuf] using valid'⟩
      rw [requestKeyStream, answered, ok_bind, right bytes rfl]
      rfl

theorem decrypt_eq (valid : ValidBuf stream keyBuf) {keyPos : Nat} {buf : Bytes}
    (unmistaken : Unmistaken keyBuf keyPos buf.length) :
    ∃ t, decrypt stream true true keyBuf keyPos buf = .ok (t, .ok (mask (· ^^^ ·) stream keyPos buf)) ∧
      ValidBuf stream t := by
  obtain ⟨t, answered, valid'⟩ := requestKeyStream_eq valid unmistaken
  refine ⟨t, ?_, valid'⟩
  have position : keyPos - paddingPre keyPos + paddingPre keyPos = keyPos :=
    Nat.sub_add_cancel (paddingPre_le keyPos)
  rw [decrypt, if_neg (by decide), answered, ok_bind]
  dsimp only
  rw [read_streamRange stream (range_inside keyPos buf.length), inBounds_some, ok_bind, position, zipWith_streamRange]
  rfl

/-! ## The pieces -/

theorem wrapped_mod (f : Nat → UInt8) (pos j : Nat) : wrapped f (pos % 2 ^ 64 + j) = wrapped f (pos + j) := by
  rw [wrapped, wrapped, Nat.mod_add_mod]

theorem others_valid (valid : ValidBuf stream keyBuf) {ops : List Op}
    (allowed : ∀ s ∈ keyBuf, (∀ op ∈ ops, op.Blocks) ∧ Along (step stream) Unwrapped s ops) :
    ∃ t, others stream keyBuf ops = .ok t ∧ ValidBuf stream t := by
  cases keyBuf with
  | none => exact ⟨none, rfl, valid⟩
  | some s =>
      obtain ⟨blocks, unwrapped⟩ := allowed s rfl
      obtain ⟨t, served, ran, valid', -⟩ := run_invariant (Valid stream) (fun _ : Option Served => True)
        (fun s op valid allowed => by
          obtain ⟨s', served, stepped, valid', -⟩ := valid.of_step allowed.2 allowed.1
          exact ⟨s', served, stepped, valid', trivial⟩) (valid s rfl) (unwrapped.restrict blocks)
      refine ⟨some t, by rw [others, ran]; rfl, ?_⟩
      simpa [ValidBuf] using valid'

theorem decryptPieces_eq (f : Nat → UInt8) (valid : ValidBuf (wrapped f) keyBuf) {keyPos : Nat}
    {pieces : List (List Op × Bytes)} (unmistaken : UnmistakenPieces (wrapped f) keyBuf keyPos pieces) :
    ∃ t, decryptPieces (wrapped f) keyBuf keyPos pieces =
      .ok (t, .ok (mask (· ^^^ ·) (wrapped f) keyPos (pieced pieces))) := by
  induction pieces generalizing keyBuf keyPos with
  | nil => exact ⟨keyBuf, rfl⟩
  | cons p rest ih =>
      obtain ⟨ops, piece⟩ := p
      obtain ⟨allowed, next⟩ := unmistaken
      obtain ⟨keyBuf', ran, valid'⟩ := others_valid valid allowed
      obtain ⟨here, later⟩ := next keyBuf' ran
      obtain ⟨keyBuf'', front, valid''⟩ := decrypt_eq valid' here
      obtain ⟨t, back⟩ := ih valid'' (later keyBuf'' _ front)
      have position : mask (· ^^^ ·) (wrapped f) ((keyPos + piece.length) % 2 ^ 64) (pieced rest) =
          mask (· ^^^ ·) (wrapped f) (keyPos + piece.length) (pieced rest) :=
        mask_congr _ _ fun j _ => wrapped_mod f (keyPos + piece.length) j
      refine ⟨t, ?_⟩
      rw [decryptPieces, ran, ok_bind, front, ok_bind]
      dsimp only
      rw [back, ok_bind, position]
      simp only [pieced, List.flatMap_cons, mask_append]
      rfl

theorem unmistaken_request {s : KeyBuf} {keyPos bufSize keyPos' bufSize' : Nat}
    (unmistaken : Unmistaken (some s) keyPos bufSize) :
    Unmistaken (some (s.request keyPos' bufSize')) keyPos bufSize := by
  rintro _ ⟨⟩
  unfold KeyBuf.request
  split
  · exact unmistaken s rfl
  · exact unmistaken s rfl

theorem unmistaken_decrypt {keyBuf' : Option KeyBuf} {keyPos : Nat} {buf whole : Bytes}
    (unmistaken : Unmistaken keyBuf keyPos buf.length) (length : whole.length = buf.length)
    (done : decrypt stream true true keyBuf keyPos buf = .ok (keyBuf', .ok whole)) :
    Unmistaken keyBuf' keyPos whole.length := by
  rw [length]
  rw [decrypt, if_neg (by decide)] at done
  obtain ⟨r, requested, done⟩ := bind_eq_ok done
  have same : keyBuf' = r.1 := by
    revert done
    cases r.2 with
    | error err =>
        intro done
        cases done
    | ok keyStream =>
        intro done
        obtain ⟨bytes, -, done⟩ := bind_eq_ok done
        cases done
        rfl
  rw [same]
  cases keyBuf with
  | none =>
      obtain ⟨generated, -, requested⟩ := bind_eq_ok requested
      cases requested
      simp [Unmistaken]
  | some s =>
      obtain ⟨r', answered, requested⟩ := bind_eq_ok requested
      cases requested
      have kept : r'.1 = s.request (keyPos - paddingPre keyPos) (fullSize keyPos buf.length) := by
        unfold KeyBuf.getKeyStream at answered
        dsimp only at answered
        split at answered
        · obtain ⟨generated, -, answered⟩ := bind_eq_ok answered
          cases answered
          rfl
        · obtain ⟨copied, -, answered⟩ := bind_eq_ok answered
          cases answered
          rfl
      rw [kept]
      exact unmistaken_request unmistaken

theorem init_validBuf {chunks : Nat} {memory : Nat → UInt8} (created : init chunks memory = .ok keyBuf) :
    ValidBuf stream keyBuf := by
  cases keyBuf with
  | none => simp [ValidBuf]
  | some s => simpa [ValidBuf] using init_valid created

/-- In every state that is reached, and for every split. -/
theorem positionIndependent_of_unmistaken (f : Nat → UInt8) {chunks : Nat} {memory : Nat → UInt8}
    {fresh keyBuf : Option KeyBuf} (created : init chunks memory = .ok fresh) {before : List Op}
    (allowed : ∀ s ∈ fresh, (∀ op ∈ before, op.Blocks) ∧ Along (step (wrapped f)) Unwrapped s before)
    (reached : others (wrapped f) fresh before = .ok keyBuf) {keyPos : Nat} {pieces : List (List Op × Bytes)}
    (unmistaken : Unmistaken keyBuf keyPos (pieced pieces).length)
    (split : UnmistakenPieces (wrapped f) keyBuf keyPos pieces) : PositionIndependent f keyBuf keyPos pieces := by
  have valid : ValidBuf (wrapped f) keyBuf := by
    obtain ⟨t, ran, valid⟩ := others_valid (init_validBuf created) allowed
    rw [reached] at ran
    rwa [Except.ok.inj ran]
  obtain ⟨keyBuf', decrypted, valid'⟩ := decrypt_eq valid unmistaken
  have length := length_mask (· ^^^ ·) (wrapped f) keyPos (pieced pieces)
  have again := unmistaken_decrypt unmistaken length decrypted
  obtain ⟨t, restored, -⟩ := decrypt_eq valid' again
  refine ⟨keyBuf', _, decrypted, length, ?_, decryptPieces_eq f valid split, t, ?_⟩
  · intro j b here
    rw [getElem?_mask, here]
    rfl
  · rw [restored, mask_mask _ _ Masking.xor_undoes]

/-! ## Ranges that end in front of the last block -/

theorem unmistaken_below {keyPos bufSize : Nat} (below : keyPos + bufSize + gkcryptBlockSize ≤ 2 ^ 64) :
    Unmistaken keyBuf keyPos bufSize := by
  intro s _
  have stop : keyPos - paddingPre keyPos + fullSize keyPos bufSize < 2 ^ 64 := by
    rw [fullSize, paddingPre, gkcryptBlockSize] at *
    omega
  exact .inl stop

theorem unmistakenPieces_below {keyPos : Nat} {pieces : List (List Op × Bytes)} (alone : ∀ p ∈ pieces, p.1 = [])
    (below : keyPos + (pieced pieces).length + gkcryptBlockSize ≤ 2 ^ 64) :
    UnmistakenPieces stream keyBuf keyPos pieces := by
  induction pieces generalizing keyBuf keyPos with
  | nil => trivial
  | cons p rest ih =>
      obtain ⟨ops, piece⟩ := p
      obtain ⟨rfl, later⟩ := List.forall_mem_cons.mp alone
      rw [pieced, List.flatMap_cons, List.length_append, ← pieced] at below
      dsimp only at below
      refine ⟨fun s _ => ⟨by simp, trivial⟩, fun keyBuf' _ => ⟨unmistaken_below (by omega), fun keyBuf'' _ _ => ?_⟩⟩
      have small : keyPos + piece.length < 2 ^ 64 := by
        rw [gkcryptBlockSize] at below
        omega
      rw [Nat.mod_eq_of_lt small]
      exact ih later (by omega)

/-- A range across two blocks, in pieces of one, four and no bytes. -/
theorem positionIndependent_unaligned :
    PositionIndependent UInt8.ofNat (some ⟨(List.range 0x1000).map fun _ => 0, 0, 0, 0, 0, .waiting⟩) 0x1d
      [([], [1]), ([], [2, 3, 4, 5]), ([], [])] :=
  positionIndependent_of_unmistaken UInt8.ofNat
    (show init 1 (fun _ => 0) = .ok (some ⟨(List.range 0x1000).map fun _ => 0, 0, 0, 0, 0, .waiting⟩) from rfl)
    (show ∀ s ∈ some _, (∀ op ∈ ([] : List Op), op.Blocks) ∧ Along (step (wrapped UInt8.ofNat)) Unwrapped s []
      from fun s _ => ⟨by simp, trivial⟩)
    rfl (unmistaken_below (by decide)) (unmistakenPieces_below (by simp) (by decide))

/-- The last block of all is combined with the last block of the first chunk. -/
theorem not_positionIndependent_lastBlock : ∃ fresh before keyBuf, init 1 (fun _ => 0) = .ok fresh ∧
    others (wrapped firstChunk) fresh before = .ok keyBuf ∧
    ¬ PositionIndependent firstChunk keyBuf (2 ^ 64 - 0x10) [([], List.replicate 0x10 0)] := by
  have chunk : streamRange (wrapped firstChunk) 0 keyBufChunkSize = streamRange firstChunk 0 keyBufChunkSize := by
    unfold streamRange
    refine List.map_congr_left fun i inside => ?_
    have bound := List.mem_range.mp inside
    rw [keyBufChunkSize] at bound
    rw [wrapped, Nat.mod_eq_of_lt (by omega)]
  refine ⟨some ⟨(List.range 0x1000).map fun _ => 0, 0, 0, 0, 0, .waiting⟩, [.wake true, .generated true],
    some filledOnce, rfl, ?_, ?_⟩
  · rw [others, fill_once chunk (by rw [List.length_map, List.length_range]; rfl)]
    rfl
  · rintro ⟨keyBuf', whole, decrypted, -, bytes, -⟩
    have done : decrypt (wrapped firstChunk) true true (some filledOnce) (2 ^ 64 - 0x10) (List.replicate 0x10 0) =
        .ok (some filledOnce, .ok (List.replicate 0x10 1)) := by
      have aligned : 2 ^ 64 - 0x10 - paddingPre (2 ^ 64 - 0x10) = 2 ^ 64 - 0x10 := by decide
      have size : fullSize (2 ^ 64 - 0x10) (List.replicate 0x10 (0 : UInt8)).length = 0x10 := by decide
      rw [decrypt, if_neg (by decide), requestKeyStream, aligned, size, getKeyStream_lastBlock]
      rfl
    have single : pieced [([], List.replicate 0x10 0)] = List.replicate 0x10 0 := rfl
    rw [single, done] at decrypted
    obtain ⟨-, same⟩ := Prod.mk.inj (Except.ok.inj decrypted)
    obtain rfl := Except.ok.inj same
    have first := bytes 0 0 rfl
    revert first
    decide

end KeyBuf
end Chiaki
