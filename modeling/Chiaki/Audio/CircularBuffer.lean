import Chiaki.Common
import Chiaki.Lib.Machine

/-!
# The ring buffer between decoder and audio output

`circular-buf.hpp` of the Android app: the bytes wait in chunks of one size, and the two threads pass
the chunks to each other through two queues.
-/

namespace Chiaki

/-- A queue between two threads that each take it in one step. -/
structure CircularFifo (Element : Type) (size : Nat) where
  items : List Element
  bounded : items.length ≤ size
  deriving DecidableEq

namespace CircularFifo

variable {Element : Type} {size : Nat}

def empty : CircularFifo Element size := ⟨[], Nat.zero_le _⟩

/-- `none` when the queue is full. -/
def push (queue : CircularFifo Element size) (item : Element) : Option (CircularFifo Element size) :=
  if room : queue.items.length < size then
    some ⟨queue.items ++ [item], by rw [List.length_append]; exact room⟩
  else none

/-- `none` when the queue is empty. -/
def pop : CircularFifo Element size → Option (Element × CircularFifo Element size)
  | ⟨[], _⟩ => none
  | ⟨item :: rest, bounded⟩ => some (item, ⟨rest, (Nat.le_succ _).trans bounded⟩)

theorem push_of_room {queue : CircularFifo Element size} (room : queue.items.length < size) (item : Element) :
    ∃ queue', queue.push item = some queue' ∧ queue'.items = queue.items ++ [item] := by
  simp [push, room]

theorem pop_eq_some {queue queue' : CircularFifo Element size} {item : Element}
    (h : queue.pop = some (item, queue')) : queue.items = item :: queue'.items := by
  obtain ⟨items, bounded⟩ := queue
  cases items with
  | nil => cases h
  | cons first rest =>
      obtain ⟨rfl, rfl⟩ := Prod.mk.inj (Option.some.inj h)
      rfl

end CircularFifo

/-- A chunk is named by its offset in `buffer`. -/
structure CircularBuffer (chunksCount : Nat) where
  fullQueue : CircularFifo Nat chunksCount
  freeQueue : CircularFifo Nat chunksCount
  buffer : List UInt8
  pushChunk : Option Nat
  /-- Written bytes from the start of the chunk. -/
  pushChunkSize : Nat
  popChunk : Option Nat
  /-- Remaining bytes until the end of the chunk. -/
  popChunkSize : Nat
  deriving DecidableEq

namespace CircularBuffer

/-- A `memcpy` that is under way, byte by byte. -/
structure Copy where
  size : Nat
  done : Nat
  deriving DecidableEq

structure PushCall where
  buf : List UInt8
  pushed : Nat
  copy : Option Copy
  deriving DecidableEq

structure PopCall where
  bufSize : Nat
  popped : Nat
  /-- What stands in the caller's buffer so far. -/
  buf : List UInt8
  copy : Option Copy
  deriving DecidableEq

/-- The buffer with the calls that its two threads are in. -/
structure Threads (chunksCount : Nat) extends CircularBuffer chunksCount where
  pushing : Option PushCall
  popping : Option PopCall
  deriving DecidableEq

/-- What the calls give back. -/
inductive Returned where
  | push (buf : List UInt8) (pushed : Nat)
  | pop (buf : List UInt8)
  deriving DecidableEq

/-- A thread either starts a call or takes the next step of the one it is in. A step takes one queue once
or copies one byte; what only its own thread sees changes along with it. -/
inductive Action where
  | push (buf : List UInt8)
  | pop (bufSize : Nat)
  | producer
  | consumer
  deriving DecidableEq

def chunks (chunksCount chunkSize : Nat) : List Nat := (List.range chunksCount).map (· * chunkSize)

/-- The loop of `flushChunks`. -/
def freed (chunksCount chunkSize count : Nat) : CircularFifo Nat chunksCount :=
  (List.range count).foldl (fun queue i => (queue.push ((i + 1) * chunkSize)).getD queue) .empty

/-- The constructor; `contents` is what the allocated memory holds. -/
def flushChunks (chunksCount chunkSize : Nat) (contents : List UInt8) : Threads chunksCount where
  fullQueue := .empty
  freeQueue := freed chunksCount chunkSize (chunksCount - 1)
  buffer := contents
  pushChunk := some 0
  pushChunkSize := 0
  popChunk := none
  popChunkSize := 0
  pushing := none
  popping := none

section Steps

variable {chunksCount : Nat}

/-- One turn of the loop in `Push` up to the `memcpy`. -/
def pushLoop (chunkSize : Nat) (s : Threads chunksCount) (call : PushCall) :
    Threads chunksCount × List Returned :=
  if call.pushed < call.buf.length then
    match s.pushChunk with
    | none =>
        match s.freeQueue.pop with
        | none => ({ s with pushing := none }, [.push call.buf call.pushed])
        | some (chunk, freeQueue) =>
            ({ s with freeQueue := freeQueue, pushChunk := some chunk, pushChunkSize := 0 }, [])
    | some _ =>
        let toPush := min (call.buf.length - call.pushed) (chunkSize - s.pushChunkSize)
        ({ s with pushing := some { call with copy := some ⟨toPush, 0⟩ } }, [])
  else ({ s with pushing := none }, [.push call.buf call.pushed])

/-- The `memcpy` in `Push` and what follows it in the loop. -/
def pushCopy (chunkSize : Nat) (s : Threads chunksCount) (call : PushCall) (copy : Copy) (chunk : Nat) :
    Checked (Threads chunksCount) :=
  if copy.done < copy.size then
    match call.buf[call.pushed + copy.done]? with
    | none => .error .outOfBounds
    | some byte =>
        if chunk + s.pushChunkSize + copy.done < s.buffer.length then
          .ok { s with
            buffer := s.buffer.set (chunk + s.pushChunkSize + copy.done) byte
            pushing := some { call with copy := some ⟨copy.size, copy.done + 1⟩ } }
        else .error .outOfBounds
  else
    let call := { call with pushed := call.pushed + copy.size, copy := none }
    let pushChunkSize := s.pushChunkSize + copy.size
    if pushChunkSize = chunkSize then
      match s.fullQueue.push chunk with
      | none => .error .assertion
      | some fullQueue =>
          .ok { s with fullQueue := fullQueue, pushChunk := none, pushChunkSize := pushChunkSize, pushing := some call }
    else .ok { s with pushChunkSize := pushChunkSize, pushing := some call }

def producer (chunkSize : Nat) (s : Threads chunksCount) : Checked (Threads chunksCount × List Returned) :=
  match s.pushing with
  | none => .ok (s, [])
  | some call =>
      match call.copy with
      | none => .ok (pushLoop chunkSize s call)
      | some copy =>
          match s.pushChunk with
          | none => .error .nullPointer
          | some chunk => (pushCopy chunkSize s call copy chunk).map (·, [])

/-- One turn of the loop in `Pop` up to the `memcpy`. -/
def popLoop (chunkSize : Nat) (s : Threads chunksCount) (call : PopCall) :
    Threads chunksCount × List Returned :=
  if call.popped < call.bufSize then
    match s.popChunk with
    | none =>
        match s.fullQueue.pop with
        | none => ({ s with popping := none }, [.pop (call.buf.take call.popped)])
        | some (chunk, fullQueue) =>
            ({ s with fullQueue := fullQueue, popChunk := some chunk, popChunkSize := chunkSize }, [])
    | some _ =>
        let toPop := min (call.bufSize - call.popped) s.popChunkSize
        ({ s with popping := some { call with copy := some ⟨toPop, 0⟩ } }, [])
  else ({ s with popping := none }, [.pop (call.buf.take call.popped)])

/-- The `memcpy` in `Pop` and what follows it in the loop. -/
def popCopy (chunkSize : Nat) (s : Threads chunksCount) (call : PopCall) (copy : Copy) (chunk : Nat) :
    Checked (Threads chunksCount) :=
  if copy.done < copy.size then
    match s.buffer[chunk + (chunkSize - s.popChunkSize) + copy.done]? with
    | none => .error .outOfBounds
    | some byte =>
        if call.popped + copy.done < call.bufSize then
          .ok { s with popping := some { call with
            buf := call.buf.take (call.popped + copy.done) ++ [byte]
            copy := some ⟨copy.size, copy.done + 1⟩ } }
        else .error .outOfBounds
  else
    let call := { call with popped := call.popped + copy.size, copy := none }
    let popChunkSize := s.popChunkSize - copy.size
    if popChunkSize = 0 then
      match s.freeQueue.push chunk with
      | none => .error .assertion
      | some freeQueue =>
          .ok { s with freeQueue := freeQueue, popChunk := none, popChunkSize := popChunkSize, popping := some call }
    else .ok { s with popChunkSize := popChunkSize, popping := some call }

def consumer (chunkSize : Nat) (s : Threads chunksCount) : Checked (Threads chunksCount × List Returned) :=
  match s.popping with
  | none => .ok (s, [])
  | some call =>
      match call.copy with
      | none => .ok (popLoop chunkSize s call)
      | some copy =>
          match s.popChunk with
          | none => .error .nullPointer
          | some chunk => (popCopy chunkSize s call copy chunk).map (·, [])

/-- A thread that is in a call starts no other. -/
def step (chunkSize : Nat) (s : Threads chunksCount) : Action → Checked (Threads chunksCount × List Returned)
  | .push buf =>
      .ok (match s.pushing with
        | none => { s with pushing := some ⟨buf, 0, none⟩ }
        | some _ => s, [])
  | .pop bufSize =>
      .ok (match s.popping with
        | none => { s with popping := some ⟨bufSize, 0, [], none⟩ }
        | some _ => s, [])
  | .producer => producer chunkSize s
  | .consumer => consumer chunkSize s

def Returned.accepted : Returned → List UInt8
  | .push buf pushed => buf.take pushed
  | .pop _ => []

def Returned.given : Returned → List UInt8
  | .push _ _ => []
  | .pop buf => buf

/-- The bytes that `Push` has accepted so far, a call that still runs included. -/
def accepted (returned : List (List Returned)) (s : Threads chunksCount) : List UInt8 :=
  returned.flatten.flatMap Returned.accepted ++ s.pushing.elim [] fun call => call.buf.take call.pushed

/-- The bytes that `Pop` has written so far, a call that still runs included. -/
def popped (returned : List (List Returned)) (s : Threads chunksCount) : List UInt8 :=
  returned.flatten.flatMap Returned.given ++ s.popping.elim [] PopCall.buf

/-- Every place a chunk can be in. -/
def places (s : Threads chunksCount) : List Nat :=
  s.fullQueue.items ++ s.freeQueue.items ++ s.pushChunk.toList ++ s.popChunk.toList

end Steps

end CircularBuffer

end Chiaki
