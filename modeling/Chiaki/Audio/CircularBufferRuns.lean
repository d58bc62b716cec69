import Chiaki.Audio.CircularBuffer

/-!
# Every interleaving of the two threads

The accepted bytes are the popped ones, then what is left of the chunk being popped, then the full
chunks in order, then the front of the chunk being pushed; and every chunk is in one place.
-/

namespace Chiaki.CircularBuffer

/-! ## Parts of the buffer -/

def slice (buf : List UInt8) (offset len : Nat) : List UInt8 := (buf.drop offset).take len

@[simp] theorem slice_zero (buf : List UInt8) (offset : Nat) : slice buf offset 0 = [] := rfl

theorem slice_add (buf : List UInt8) (offset len len' : Nat) :
    slice buf offset (len + len') = slice buf offset len ++ slice buf (offset + len) len' := by
  rw [slice, slice, slice, List.take_add, List.drop_drop]

theorem slice_one {buf : List UInt8} {offset : Nat} {byte : UInt8} (h : buf[offset]? = some byte) :
    slice buf offset 1 = [byte] := by
  obtain ⟨inside, rfl⟩ := List.getElem?_eq_some_iff.mp h
  rw [slice, List.drop_eq_getElem_cons inside]
  rfl

theorem slice_set {buf : List UInt8} {i offset len : Nat} (byte : UInt8) (outside : i < offset ∨ offset + len ≤ i) :
    slice (buf.set i byte) offset len = slice buf offset len := by
  unfold slice
  rcases outside with before | behind
  · rw [List.drop_set_of_lt before]
  · rw [List.drop_set]
    split
    · rfl
    · rw [List.take_set_of_le (by omega)]

theorem take_slice (buf : List UInt8) (offset len : Nat) :
    buf.take offset ++ slice buf offset len = buf.take (offset + len) := by
  rw [slice, List.take_add]

/-! ## The chunks -/

theorem nodup_chunks (chunksCount : Nat) {chunkSize : Nat} (positive : 0 < chunkSize) :
    (chunks chunksCount chunkSize).Nodup :=
  List.nodup_range.map fun _ _ same => Nat.eq_of_mul_eq_mul_right positive same

theorem chunk_inside {chunksCount chunkSize chunk : Nat} (member : chunk ∈ chunks chunksCount chunkSize) :
    chunk + chunkSize ≤ chunksCount * chunkSize := by
  obtain ⟨i, bound, rfl⟩ := List.mem_map.mp member
  calc i * chunkSize + chunkSize = (i + 1) * chunkSize := (Nat.succ_mul i chunkSize).symm
    _ ≤ chunksCount * chunkSize := Nat.mul_le_mul_right _ (List.mem_range.mp bound)

theorem chunks_apart {chunksCount chunkSize chunk chunk' : Nat} (h : chunk ∈ chunks chunksCount chunkSize)
    (h' : chunk' ∈ chunks chunksCount chunkSize) (other : chunk ≠ chunk') :
    chunk + chunkSize ≤ chunk' ∨ chunk' + chunkSize ≤ chunk := by
  obtain ⟨i, -, rfl⟩ := List.mem_map.mp h
  obtain ⟨j, -, rfl⟩ := List.mem_map.mp h'
  rcases Nat.lt_or_gt_of_ne (fun same : i = j => other (by rw [same])) with before | behind
  · exact .inl (by rw [← Nat.succ_mul]; exact Nat.mul_le_mul_right _ before)
  · exact .inr (by rw [← Nat.succ_mul]; exact Nat.mul_le_mul_right _ behind)

/-! ## The invariant -/

def PopCall.done (call : PopCall) : Nat := call.copy.elim 0 Copy.done

section Invariant

variable {chunksCount : Nat}

/-- How far the running `Pop` is ahead of `popChunkSize`. -/
def ahead (s : Threads chunksCount) : Nat := s.popping.elim 0 PopCall.done

def popRest (chunkSize : Nat) (s : Threads chunksCount) : List UInt8 :=
  s.popChunk.elim [] fun chunk =>
    slice s.buffer (chunk + (chunkSize - s.popChunkSize) + ahead s) (s.popChunkSize - ahead s)

def pushFront (s : Threads chunksCount) : List UInt8 :=
  s.pushChunk.elim [] fun chunk => slice s.buffer chunk s.pushChunkSize

def inFlight (chunkSize : Nat) (s : Threads chunksCount) : List UInt8 :=
  popRest chunkSize s ++ s.fullQueue.items.flatMap (slice s.buffer · chunkSize) ++ pushFront s

/-- What a copy into the chunk being pushed has done. -/
structure Filling (chunkSize : Nat) (buffer : List UInt8) (pushChunkSize : Nat) (call : PushCall) (copy : Copy)
    (chunk : Nat) : Prop where
  done : copy.done ≤ copy.size
  source : call.pushed + copy.size ≤ call.buf.length
  room : pushChunkSize + copy.size ≤ chunkSize
  copied : slice buffer (chunk + pushChunkSize) copy.done = slice call.buf call.pushed copy.done

/-- What a copy from the chunk being popped has done. -/
structure Draining (popChunkSize : Nat) (call : PopCall) (copy : Copy) : Prop where
  done : copy.done ≤ copy.size
  left : copy.size ≤ popChunkSize
  room : call.popped + copy.size ≤ call.bufSize

structure Flowing (chunkSize : Nat) (s : Threads chunksCount) : Prop where
  memory : s.buffer.length = chunksCount * chunkSize
  placed : (places s).Perm (chunks chunksCount chunkSize)
  pushRoom : ∀ chunk, s.pushChunk = some chunk → s.pushChunkSize < chunkSize
  popLeft : ∀ chunk, s.popChunk = some chunk → 0 < s.popChunkSize ∧ s.popChunkSize ≤ chunkSize
  filling : ∀ call copy, s.pushing = some call → call.copy = some copy →
    ∃ chunk, s.pushChunk = some chunk ∧ Filling chunkSize s.buffer s.pushChunkSize call copy chunk
  written : ∀ call, s.popping = some call → call.buf.length = call.popped + call.done
  draining : ∀ call copy, s.popping = some call → call.copy = some copy →
    (∃ chunk, s.popChunk = some chunk) ∧ Draining s.popChunkSize call copy

/-- Between two states the threads have accepted `bytes` more. -/
structure Moves (chunkSize : Nat) (s s' : Threads chunksCount) (returned : List Returned) (bytes : List UInt8) : Prop where
  flowing : Flowing chunkSize s'
  accepted : accepted [returned] s' = accepted [] s ++ bytes
  popped : popped [returned] s' ++ inFlight chunkSize s' = popped [] s ++ inFlight chunkSize s ++ bytes

variable {chunkSize : Nat} {s : Threads chunksCount}

theorem Flowing.nodup (flowing : Flowing chunkSize s) (positive : 0 < chunkSize) : (places s).Nodup :=
  flowing.placed.nodup_iff.mpr (nodup_chunks chunksCount positive)

theorem Flowing.pushChunk_mem (flowing : Flowing chunkSize s) {chunk : Nat} (held : s.pushChunk = some chunk) :
    chunk ∈ chunks chunksCount chunkSize := by
  apply flowing.placed.mem_iff.mp
  simp [places, held]

theorem Flowing.popChunk_mem (flowing : Flowing chunkSize s) {chunk : Nat} (held : s.popChunk = some chunk) :
    chunk ∈ chunks chunksCount chunkSize := by
  apply flowing.placed.mem_iff.mp
  simp [places, held]

theorem Flowing.full_mem (flowing : Flowing chunkSize s) {chunk : Nat} (held : chunk ∈ s.fullQueue.items) :
    chunk ∈ chunks chunksCount chunkSize := by
  apply flowing.placed.mem_iff.mp
  simp [places, held]

theorem Flowing.room (flowing : Flowing chunkSize s) (held : s.pushChunk ≠ none ∨ s.popChunk ≠ none) :
    s.fullQueue.items.length < chunksCount ∧ s.freeQueue.items.length < chunksCount := by
  have total := flowing.placed.length_eq
  simp only [places, chunks, List.length_append, List.length_map, List.length_range] at total
  have one : 0 < s.pushChunk.toList.length + s.popChunk.toList.length := by
    rcases held with held | held
    · obtain ⟨chunk, hchunk⟩ := Option.ne_none_iff_exists'.mp held
      simp [hchunk]
    · obtain ⟨chunk, hchunk⟩ := Option.ne_none_iff_exists'.mp held
      simp [hchunk]
  omega

theorem Flowing.ahead_le (flowing : Flowing chunkSize s) : ahead s ≤ s.popChunkSize := by
  unfold ahead
  cases hcall : s.popping with
  | none => exact Nat.zero_le _
  | some call =>
      simp only [Option.elim_some, PopCall.done]
      cases hcopy : call.copy with
      | none => exact Nat.zero_le _
      | some copy =>
          obtain ⟨-, done, left, -⟩ := flowing.draining call copy hcall hcopy
          exact done.trans left

/-! ## The producer -/

theorem Flowing.inFlight_set (flowing : Flowing chunkSize s) (positive : 0 < chunkSize) {chunk k : Nat}
    (held : s.pushChunk = some chunk) (behind : s.pushChunkSize ≤ k) (inside : k < chunkSize) (byte : UInt8)
    (pushing : Option PushCall) :
    inFlight chunkSize { s with buffer := s.buffer.set (chunk + k) byte, pushing := pushing } = inFlight chunkSize s := by
  have nodup := flowing.nodup positive
  have frame : ∀ chunk' ∈ chunks chunksCount chunkSize, chunk' ≠ chunk → ∀ offset len, offset + len ≤ chunkSize →
      slice (s.buffer.set (chunk + k) byte) (chunk' + offset) len = slice s.buffer (chunk' + offset) len := by
    intro chunk' member other offset len within
    apply slice_set
    rcases chunks_apart member (flowing.pushChunk_mem held) other with before | after
    · right; omega
    · left; omega
  have rest : popRest chunkSize { s with buffer := s.buffer.set (chunk + k) byte, pushing := pushing } = popRest chunkSize s := by
    simp only [popRest, ahead]
    cases hpop : s.popChunk with
    | none => rfl
    | some chunk' =>
        obtain ⟨-, left⟩ := flowing.popLeft chunk' hpop
        have other : chunk' ≠ chunk := by
          rintro rfl
          simp only [places, held, hpop, List.nodup_append] at nodup
          exact nodup.2.2 chunk' (by simp) chunk' (by simp) rfl
        have within := flowing.ahead_le
        unfold ahead at within
        simp only [Option.elim_some]
        rw [Nat.add_assoc]
        exact frame chunk' (flowing.popChunk_mem hpop) other _ _ (by omega)
  have full : s.fullQueue.items.flatMap (slice (s.buffer.set (chunk + k) byte) · chunkSize)
      = s.fullQueue.items.flatMap (slice s.buffer · chunkSize) := by
    apply List.flatMap_congr
    intro chunk' member
    have other : chunk' ≠ chunk := by
      rintro rfl
      simp only [places, held, List.append_assoc] at nodup
      exact (List.nodup_append.mp nodup).2.2 _ member _ (by simp) rfl
    exact frame chunk' (flowing.full_mem member) other 0 chunkSize (by omega)
  have front : pushFront { s with buffer := s.buffer.set (chunk + k) byte, pushing := pushing } = pushFront s := by
    simp only [pushFront, held, Option.elim_some]
    exact slice_set byte (.inr (by omega))
  simp only [inFlight, rest, full, front]

theorem pushLoop_moves (flowing : Flowing chunkSize s) (positive : 0 < chunkSize) {call : PushCall}
    (running : s.pushing = some call) (between : call.copy = none) :
    Moves chunkSize s (pushLoop chunkSize s call).1 (pushLoop chunkSize s call).2 [] := by
  unfold pushLoop
  split
  case isFalse =>
    exact {
      flowing := { flowing with filling := by simp }
      accepted := by simp [accepted, Returned.accepted, running]
      popped := by simp [popped, Returned.given, inFlight, popRest, pushFront, ahead] }
  case isTrue more =>
    split
    next empty =>
      split
      next none_free =>
        exact {
          flowing := { flowing with filling := by simp }
          accepted := by simp [accepted, Returned.accepted, running]
          popped := by simp [popped, Returned.given, inFlight, popRest, pushFront, ahead] }
      next chunk freeQueue taken =>
        have free := CircularFifo.pop_eq_some taken
        exact {
          flowing := { flowing with
            placed := by
              refine List.Perm.trans ?_ flowing.placed
              rw [List.perm_iff_count]
              intro a
              simp only [places, free, empty, List.count_append, List.count_cons, Option.toList_some,
                Option.toList_none, List.count_nil]
              omega
            pushRoom := fun _ _ => positive
            filling := by
              intro call' copy running' copying
              rw [running] at running'
              obtain rfl := Option.some.inj running'
              simp [between] at copying }
          accepted := by simp [accepted]
          popped := by simp [popped, inFlight, popRest, pushFront, ahead, empty] }
    next chunk held =>
      exact {
        flowing := { flowing with
          filling := by
            intro call' copy running' copying
            obtain rfl := Option.some.inj running'
            obtain rfl := Option.some.inj copying
            have room := flowing.pushRoom chunk held
            exact ⟨chunk, held, Nat.zero_le _, by dsimp only; omega, by dsimp only; omega, rfl⟩ }
        accepted := by simp [accepted, running]
        popped := by simp [popped, inFlight, popRest, pushFront, ahead] }

theorem pushCopy_moves (flowing : Flowing chunkSize s) (positive : 0 < chunkSize) {call : PushCall} {copy : Copy}
    {chunk : Nat} (running : s.pushing = some call) (held : s.pushChunk = some chunk)
    (filling : Filling chunkSize s.buffer s.pushChunkSize call copy chunk) :
    ∃ s' bytes, pushCopy chunkSize s call copy chunk = .ok s' ∧ Moves chunkSize s s' [] bytes := by
  have inside := chunk_inside (flowing.pushChunk_mem held)
  obtain ⟨done, source, room, copied⟩ := filling
  unfold pushCopy
  split
  case isTrue more =>
    have byte := List.getElem?_eq_getElem (l := call.buf) (i := call.pushed + copy.done) (by omega)
    rw [byte]
    have memory := flowing.memory
    dsimp only
    rw [if_pos (by omega)]
    refine ⟨_, [], rfl, ?_⟩
    have same := flowing.inFlight_set positive held (k := s.pushChunkSize + copy.done) (Nat.le_add_right _ _)
      (by omega)
    rw [← Nat.add_assoc] at same
    exact {
      flowing := { flowing with
        memory := by rw [List.length_set, memory]
        filling := by
          intro call' copy' running' copying
          obtain rfl := Option.some.inj running'
          obtain rfl := Option.some.inj copying
          refine ⟨chunk, held, ⟨more, source, room, ?_⟩⟩
          dsimp only
          rw [slice_add _ _ copy.done 1, slice_add _ _ copy.done 1, slice_set _ (.inr le_rfl), copied, slice_one byte,
            slice_one (by rw [List.getElem?_set_self (by omega)])] }
      accepted := by simp [accepted, running]
      popped := by
        rw [same]
        simp [popped] }
  case isFalse finished =>
    have whole : copy.done = copy.size := by omega
    rw [whole] at copied
    dsimp only
    have fronts : pushFront s ++ slice call.buf call.pushed copy.size =
        slice s.buffer chunk (s.pushChunkSize + copy.size) := by
      rw [pushFront, held, Option.elim_some, slice_add, copied]
    split
    case isTrue filled =>
      obtain ⟨fullQueue, pushed, items⟩ := CircularFifo.push_of_room (flowing.room (.inl (by simp [held]))).1 chunk
      rw [pushed]
      refine ⟨_, slice call.buf call.pushed copy.size, rfl, ?_⟩
      exact {
        flowing := { flowing with
          placed := by
            refine List.Perm.trans ?_ flowing.placed
            rw [List.perm_iff_count]
            intro a
            simp only [places, items, held, List.count_append, Option.toList_some, Option.toList_none, List.count_nil]
            omega
          pushRoom := by simp
          filling := by
            intro call' copy' running' copying
            obtain rfl := Option.some.inj running'
            cases copying }
        accepted := by simp [accepted, running, ← take_slice]
        popped := by
          simp only [inFlight, items, List.flatMap_append, List.flatMap_singleton, List.append_assoc, fronts, filled]
          simp [popped, popRest, pushFront, ahead] }
    case isFalse partly =>
      refine ⟨_, slice call.buf call.pushed copy.size, rfl, ?_⟩
      exact {
        flowing := { flowing with
          pushRoom := fun _ _ => by dsimp only; omega
          filling := by
            intro call' copy' running' copying
            obtain rfl := Option.some.inj running'
            cases copying }
        accepted := by simp [accepted, running, ← take_slice]
        popped := by
          simp only [inFlight, List.append_assoc, fronts]
          simp [popped, popRest, pushFront, ahead, held] }

theorem producer_moves (flowing : Flowing chunkSize s) (positive : 0 < chunkSize) :
    ∃ s' returned bytes, producer chunkSize s = .ok (s', returned) ∧ Moves chunkSize s s' returned bytes := by
  unfold producer
  cases running : s.pushing with
  | none => exact ⟨s, [], [], rfl, flowing, by simp [accepted], by simp [popped]⟩
  | some call =>
      cases copying : call.copy with
      | none =>
          simp only [copying]
          exact ⟨_, _, [], rfl, pushLoop_moves flowing positive running copying⟩
      | some copy =>
          obtain ⟨chunk, held, filling⟩ := flowing.filling call copy running copying
          obtain ⟨s', bytes, hok, moves⟩ := pushCopy_moves flowing positive running held filling
          simp only [copying, held, hok]
          exact ⟨s', [], bytes, rfl, moves⟩

/-! ## The consumer -/

theorem popLoop_moves (flowing : Flowing chunkSize s) (positive : 0 < chunkSize) {call : PopCall}
    (running : s.popping = some call) (between : call.copy = none) :
    Moves chunkSize s (popLoop chunkSize s call).1 (popLoop chunkSize s call).2 [] := by
  have written := flowing.written call running
  simp only [PopCall.done, between, Option.elim_none, Nat.add_zero] at written
  have here : ahead s = 0 := by simp [ahead, running, PopCall.done, between]
  have back : Moves chunkSize s { s with popping := none } [.pop (call.buf.take call.popped)] [] := {
    flowing := { flowing with
      written := by simp
      draining := by simp }
    accepted := by simp [accepted, Returned.accepted]
    popped := by
      rw [← written, List.take_length]
      simp [popped, Returned.given, running, inFlight, popRest, pushFront, here]
      simp [ahead] }
  unfold popLoop
  split
  case isFalse => exact back
  case isTrue more =>
    split
    next empty =>
      split
      next => exact back
      next chunk fullQueue taken =>
        have full := CircularFifo.pop_eq_some taken
        exact {
          flowing := { flowing with
            placed := by
              refine List.Perm.trans ?_ flowing.placed
              rw [List.perm_iff_count]
              intro a
              simp only [places, full, empty, List.count_append, List.count_cons, Option.toList_some,
                Option.toList_none, List.count_nil]
              omega
            popLeft := fun _ _ => ⟨positive, le_rfl⟩
            draining := by
              intro call' copy running' copying
              rw [running] at running'
              obtain rfl := Option.some.inj running'
              simp [between] at copying }
          accepted := by simp [accepted]
          popped := by
            simp [popped, inFlight, popRest, pushFront, full, empty]
            simp [ahead, running, PopCall.done, between] }
    next chunk held =>
      exact {
        flowing := { flowing with
          written := by
            intro call' running'
            obtain rfl := Option.some.inj running'
            exact written
          draining := by
            intro call' copy running' copying
            obtain rfl := Option.some.inj running'
            obtain rfl := Option.some.inj copying
            exact ⟨⟨chunk, held⟩, Nat.zero_le _, by dsimp only; omega, by dsimp only; omega⟩ }
        accepted := by simp [accepted]
        popped := by
          simp [popped, running, inFlight, popRest, pushFront, here]
          simp [ahead, PopCall.done] }

theorem popCopy_moves (flowing : Flowing chunkSize s) {call : PopCall} {copy : Copy} {chunk : Nat}
    (running : s.popping = some call) (copying : call.copy = some copy) (held : s.popChunk = some chunk)
    (draining : Draining s.popChunkSize call copy) :
    ∃ s', popCopy chunkSize s call copy chunk = .ok s' ∧ Moves chunkSize s s' [] [] := by
  have inside := chunk_inside (flowing.popChunk_mem held)
  obtain ⟨some_, left'⟩ := flowing.popLeft chunk held
  obtain ⟨done, left, room⟩ := draining
  have written := flowing.written call running
  simp only [PopCall.done, copying, Option.elim_some] at written
  have here : ahead s = copy.done := by simp [ahead, running, PopCall.done, copying]
  have memory := flowing.memory
  unfold popCopy
  split
  case isTrue more =>
    have byte := List.getElem?_eq_getElem (l := s.buffer) (i := chunk + (chunkSize - s.popChunkSize) + copy.done) (by omega)
    rw [byte]
    dsimp only
    rw [if_pos (by omega)]
    refine ⟨_, rfl, ?_⟩
    exact {
      flowing := { flowing with
        written := by
          intro call' running'
          obtain rfl := Option.some.inj running'
          simp only [List.length_append, List.length_take, List.length_singleton, PopCall.done, Option.elim_some]
          omega
        draining := by
          intro call' copy' running' copying'
          obtain rfl := Option.some.inj running'
          obtain rfl := Option.some.inj copying'
          exact ⟨⟨chunk, held⟩, more, left, room⟩ }
      accepted := by simp [accepted]
      popped := by
        have next : popRest chunkSize s = s.buffer[chunk + (chunkSize - s.popChunkSize) + copy.done] ::
            slice s.buffer (chunk + (chunkSize - s.popChunkSize) + (copy.done + 1)) (s.popChunkSize - (copy.done + 1)) := by
          rw [popRest, held, Option.elim_some, here, show s.popChunkSize - copy.done = 1 + (s.popChunkSize - (copy.done + 1)) by omega,
            slice_add, slice_one byte]
          rfl
        rw [← written, List.take_length]
        simp only [inFlight, next]
        simp [popped, running, popRest, pushFront, ahead, PopCall.done, held] }
  case isFalse finished =>
    have whole : copy.done = copy.size := by omega
    have rest : popRest chunkSize s = slice s.buffer (chunk + (chunkSize - (s.popChunkSize - copy.size))) (s.popChunkSize - copy.size) := by
      rw [popRest, held, Option.elim_some, here, whole]
      congr 1
      omega
    dsimp only
    split
    case isTrue drained =>
      obtain ⟨freeQueue, pushed, items⟩ := CircularFifo.push_of_room (flowing.room (.inr (by simp [held]))).2 chunk
      rw [pushed]
      refine ⟨_, rfl, ?_⟩
      exact {
        flowing := { flowing with
          placed := by
            refine List.Perm.trans ?_ flowing.placed
            rw [List.perm_iff_count]
            intro a
            simp only [places, items, held, List.count_append, Option.toList_some, Option.toList_none, List.count_nil]
            omega
          popLeft := by simp
          written := by
            intro call' running'
            obtain rfl := Option.some.inj running'
            simp only [PopCall.done, Option.elim_none]
            omega
          draining := by
            intro call' copy' running' copying'
            obtain rfl := Option.some.inj running'
            cases copying' }
        accepted := by simp [accepted]
        popped := by
          simp only [inFlight, rest, drained]
          simp [popped, running, popRest, pushFront] }
    case isFalse partly =>
      refine ⟨_, rfl, ?_⟩
      exact {
        flowing := { flowing with
          popLeft := fun _ _ => ⟨by dsimp only; omega, by dsimp only; omega⟩
          written := by
            intro call' running'
            obtain rfl := Option.some.inj running'
            simp only [PopCall.done, Option.elim_none]
            omega
          draining := by
            intro call' copy' running' copying'
            obtain rfl := Option.some.inj running'
            cases copying' }
        accepted := by simp [accepted]
        popped := by
          simp only [inFlight, rest]
          simp [popped, running, popRest, pushFront, held, ahead, PopCall.done] }

theorem consumer_moves (flowing : Flowing chunkSize s) (positive : 0 < chunkSize) :
    ∃ s' returned, consumer chunkSize s = .ok (s', returned) ∧ Moves chunkSize s s' returned [] := by
  unfold consumer
  cases running : s.popping with
  | none => exact ⟨s, [], rfl, flowing, by simp [accepted], by simp [popped]⟩
  | some call =>
      cases copying : call.copy with
      | none =>
          simp only [copying]
          exact ⟨_, _, rfl, popLoop_moves flowing positive running copying⟩
      | some copy =>
          obtain ⟨⟨chunk, held⟩, draining⟩ := flowing.draining call copy running copying
          obtain ⟨s', hok, moves⟩ := popCopy_moves flowing running copying held draining
          simp only [copying, held, hok]
          exact ⟨s', [], rfl, moves⟩

/-! ## Runs -/

theorem step_moves (flowing : Flowing chunkSize s) (positive : 0 < chunkSize) (action : Action) :
    ∃ s' returned bytes, step chunkSize s action = .ok (s', returned) ∧ Moves chunkSize s s' returned bytes := by
  cases action with
  | push buf =>
      refine ⟨_, [], [], rfl, ?_⟩
      cases running : s.pushing with
      | some call => exact ⟨flowing, by simp [accepted], by simp [popped]⟩
      | none =>
          exact {
            flowing := { flowing with
              filling := by
                intro call copy running' copying
                obtain rfl := Option.some.inj running'
                cases copying }
            accepted := by simp [accepted, running]
            popped := by simp [popped, inFlight, popRest, pushFront, ahead] }
  | pop bufSize =>
      refine ⟨_, [], [], rfl, ?_⟩
      cases running : s.popping with
      | some call => exact ⟨flowing, by simp [accepted], by simp [popped]⟩
      | none =>
          exact {
            flowing := { flowing with
              written := by
                intro call running'
                obtain rfl := Option.some.inj running'
                rfl
              draining := by
                intro call copy running' copying
                obtain rfl := Option.some.inj running'
                cases copying }
            accepted := by simp [accepted]
            popped := by simp [popped, inFlight, popRest, pushFront, ahead, running, PopCall.done] }
  | producer => exact producer_moves flowing positive
  | consumer =>
      obtain ⟨s', returned, hok, moves⟩ := consumer_moves flowing positive
      exact ⟨s', returned, [], hok, moves⟩

theorem run_moves (flowing : Flowing chunkSize s) (positive : 0 < chunkSize) (actions : List Action) :
    ∃ t returned bytes, Machine.run (step chunkSize) s actions = .ok (t, returned) ∧ Flowing chunkSize t ∧
      accepted returned t = accepted [] s ++ bytes ∧
      popped returned t ++ inFlight chunkSize t = popped [] s ++ inFlight chunkSize s ++ bytes := by
  induction actions generalizing s with
  | nil => exact ⟨s, [], [], rfl, flowing, by simp, by simp⟩
  | cons action actions ih =>
      obtain ⟨s', now, bytes, stepped, moves⟩ := step_moves flowing positive action
      obtain ⟨t, later, bytes', ran, flowing', hAccepted, hPopped⟩ := ih moves.flowing
      refine ⟨t, now :: later, bytes ++ bytes', by rw [Machine.run_cons_ok stepped, ran]; rfl, flowing', ?_, ?_⟩
      · have first := moves.accepted
        simp only [accepted, List.flatten_cons, List.flatten_nil, List.append_nil, List.flatMap_append, List.flatMap_nil,
          List.nil_append] at first hAccepted ⊢
        rw [List.append_assoc, hAccepted, ← List.append_assoc, first, List.append_assoc]
      · have first := moves.popped
        simp only [popped, List.flatten_cons, List.flatten_nil, List.append_nil, List.flatMap_append, List.flatMap_nil,
          List.nil_append] at first hPopped ⊢
        rw [List.append_assoc, List.append_assoc, ← List.append_assoc _ _ (inFlight chunkSize t), hPopped, ← List.append_assoc, ← List.append_assoc, first,
          List.append_assoc]

end Invariant

/-! ## The constructor -/

theorem items_freed {chunksCount chunkSize : Nat} (count : Nat) (fits : count ≤ chunksCount) :
    (freed chunksCount chunkSize count).items = (List.range count).map fun i => (i + 1) * chunkSize := by
  induction count with
  | zero => rfl
  | succ count ih =>
      have before := ih (Nat.le_of_succ_le fits)
      have room : (freed chunksCount chunkSize count).items.length < chunksCount := by
        rw [before, List.length_map, List.length_range]
        exact fits
      obtain ⟨queue, pushed, items⟩ := CircularFifo.push_of_room room ((count + 1) * chunkSize)
      rw [freed] at pushed before items
      simp [freed, List.range_succ, List.foldl_append, pushed, items, before]

theorem start_flowing {chunksCount chunkSize : Nat} (some_ : 0 < chunksCount) (positive : 0 < chunkSize)
    {contents : List UInt8} (size : contents.length = chunksCount * chunkSize) :
    Flowing chunkSize (flushChunks chunksCount chunkSize contents) where
  memory := size
  placed := by
    obtain ⟨count, rfl⟩ := Nat.exists_eq_succ_of_ne_zero some_.ne'
    have freed := @items_freed (count + 1) chunkSize count (Nat.le_succ count)
    simp only [places, flushChunks, chunks, Nat.succ_sub_one, freed, List.range_succ_eq_map]
    simp [Function.comp_def, CircularFifo.empty]
  pushRoom := fun _ _ => positive
  popLeft := by simp [flushChunks]
  filling := by simp [flushChunks]
  written := by simp [flushChunks]
  draining := by simp [flushChunks]

theorem transfers (chunksCount chunkSize : Nat) (some_ : 0 < chunksCount) (positive : 0 < chunkSize)
    (contents : List UInt8) (size : contents.length = chunksCount * chunkSize) (actions : List Action) :
    ∃ s returned, Machine.run (step chunkSize) (flushChunks chunksCount chunkSize contents) actions =
        .ok (s, returned) ∧
      popped returned s <+: accepted returned s ∧
      (places s).Perm (chunks chunksCount chunkSize) ∧ (chunks chunksCount chunkSize).Nodup := by
  have flowing := start_flowing some_ positive size
  obtain ⟨s, returned, bytes, ran, flowing', hAccepted, hPopped⟩ := run_moves flowing positive actions
  refine ⟨s, returned, ran, ⟨inFlight chunkSize s, ?_⟩, flowing'.placed, nodup_chunks _ positive⟩
  rw [hAccepted, hPopped]
  simp [accepted, popped, flushChunks, inFlight, popRest, pushFront, CircularFifo.empty]

theorem transfers_two :
    ∃ s returned, Machine.run (step 1) (flushChunks 2 1 [0, 0])
        [.push [7, 8, 9], .pop 2, .producer, .producer, .consumer, .producer, .consumer, .consumer] = .ok (s, returned) ∧
      popped returned s <+: accepted returned s ∧ (places s).Perm (chunks 2 1) ∧ (chunks 2 1).Nodup :=
  transfers 2 1 (by decide) (by decide) [0, 0] rfl _

end Chiaki.CircularBuffer
