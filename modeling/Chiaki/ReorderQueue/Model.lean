import Chiaki.Common
import Chiaki.SeqNum

/-!
# The reorder queue

`reorderqueue.c`. Sequence numbers are the `uint64_t` values the code passes around; the three
function pointers of the queue say how they are compared and added. Calls of `drop_cb` are returned
as a list of (number, element) pairs, in the order they are made.
-/

namespace Chiaki

inductive DropStrategy where
  | begin
  | end_
  deriving DecidableEq, Repr

structure ReorderQueueEntry (α : Type) where
  user : α
  set : Bool

/-- The function pointers `seq_num_gt`, `seq_num_lt` and `seq_num_add`. -/
structure SeqNumFns where
  gt : Nat → Nat → Bool
  lt : Nat → Nat → Bool
  add : Nat → Nat → Nat

/-- The 16-bit sum is computed in promoted `int` and does not wrap at 65536. -/
def seqNumFns16 : SeqNumFns where
  gt a b := seqNum16Gt (a % 2 ^ 16) (b % 2 ^ 16)
  lt a b := seqNum16Lt (a % 2 ^ 16) (b % 2 ^ 16)
  add a b := a % 2 ^ 16 + b % 2 ^ 16

def seqNumFns32 : SeqNumFns where
  gt a b := seqNum32Gt (a % 2 ^ 32) (b % 2 ^ 32)
  lt a b := seqNum32Lt (a % 2 ^ 32) (b % 2 ^ 32)
  add a b := (a % 2 ^ 32 + b % 2 ^ 32) % 2 ^ 32

structure ReorderQueue (α : Type) where
  sizeExp : Nat
  queue : Vector (ReorderQueueEntry α) (2 ^ sizeExp)
  begin : Nat
  count : Nat
  fns : SeqNumFns
  dropStrategy : DropStrategy
  /-- Whether `drop_cb` is set. -/
  dropCb : Bool

namespace ReorderQueue
variable {α : Type}

def gt (q : ReorderQueue α) (a b : Nat) : Bool := q.fns.gt a b
def lt (q : ReorderQueue α) (a b : Nat) : Bool := q.fns.lt a b
def ge (q : ReorderQueue α) (a b : Nat) : Bool := a == b || q.gt a b
def add (q : ReorderQueue α) (a b : Nat) : Nat := q.fns.add a b

def size (q : ReorderQueue α) : Nat := 2 ^ q.sizeExp

/-- `idx(seq_num)`: the mask keeps the index inside the array. -/
def idx (q : ReorderQueue α) (seqNum : Nat) : Fin (2 ^ q.sizeExp) :=
  ⟨seqNum &&& (2 ^ q.sizeExp - 1), by
    rw [Nat.and_two_pow_sub_one_eq_mod]
    exact Nat.mod_lt _ (Nat.two_pow_pos _)⟩

def entry (q : ReorderQueue α) (seqNum : Nat) : ReorderQueueEntry α := q.queue[q.idx seqNum]

def setEntry (q : ReorderQueue α) (seqNum : Nat) (e : ReorderQueueEntry α) : ReorderQueue α :=
  { q with queue := q.queue.set (q.idx seqNum).val e (q.idx seqNum).isLt }

@[simp] theorem size_setEntry (q : ReorderQueue α) (m : Nat) (e : ReorderQueueEntry α) :
    (q.setEntry m e).size = q.size := rfl

@[simp] theorem count_setEntry (q : ReorderQueue α) (m : Nat) (e : ReorderQueueEntry α) :
    (q.setEntry m e).count = q.count := rfl

/-- The calls of `drop_cb` for one element: one if the callback is set. -/
def callDropCb (q : ReorderQueue α) (seqNum : Nat) (user : α) : List (Nat × α) :=
  if q.dropCb then [(seqNum, user)] else []

/-- `chiaki_reorder_queue_init`. `1 << size_exp` is an `int`: from 31 on the shift overflows and no
array is allocated. -/
def init [Inhabited α] (sizeExp seqNumStart : Nat) (fns : SeqNumFns) : Option (ReorderQueue α) :=
  if sizeExp < 31 then
    some {
      sizeExp := sizeExp
      queue := Vector.replicate (2 ^ sizeExp) ⟨default, false⟩
      begin := seqNumStart
      count := 0
      fns := fns
      dropStrategy := .end_
      dropCb := false }
  else none

def init16 [Inhabited α] (sizeExp seqNumStart : Nat) : Option (ReorderQueue α) :=
  init sizeExp seqNumStart seqNumFns16

def init32 [Inhabited α] (sizeExp seqNumStart : Nat) : Option (ReorderQueue α) :=
  init sizeExp seqNumStart seqNumFns32

def setDropStrategy (q : ReorderQueue α) (strategy : DropStrategy) : ReorderQueue α :=
  { q with dropStrategy := strategy }

def setDropCb (q : ReorderQueue α) : ReorderQueue α := { q with dropCb := true }

/-- The loop of `chiaki_reorder_queue_fini` over the indices from `i`, `left` of them to come. -/
def finiFrom (q : ReorderQueue α) : (left i : Nat) → List (Nat × α)
  | 0, _ => []
  | left + 1, i =>
      let seqNum := q.add q.begin i
      let e := q.entry seqNum
      (if e.set then q.callDropCb seqNum e.user else []) ++ finiFrom q left (i + 1)

def fini (q : ReorderQueue α) : List (Nat × α) := q.finiFrom q.count 0

/-- `queue->begin = add(queue->begin, 1); queue->count--;` -/
def advance (q : ReorderQueue α) : ReorderQueue α :=
  { q with begin := q.add q.begin 1, count := q.count - 1 }

@[simp] theorem size_advance (q : ReorderQueue α) : q.advance.size = q.size := rfl

@[simp] theorem count_advance (q : ReorderQueue α) : q.advance.count = q.count - 1 := rfl

/-- "drop first until empty or enough space": each turn removes one slot, so `fuel` slots are enough.
`endNum` is the end computed before the loop and is not updated by it. -/
def dropFirst (endNum newEnd : Nat) : (fuel totalEnd : Nat) → ReorderQueue α →
    ReorderQueue α × List (Nat × α)
  | 0, _, q => (q, [])
  | fuel + 1, totalEnd, q =>
      if q.count > 0 && q.lt totalEnd newEnd then
        let e := q.entry q.begin
        let dropped := if e.set then q.callDropCb q.begin e.user else []
        let q := q.advance
        let rest := dropFirst endNum newEnd fuel (q.add endNum (q.size - q.count)) q
        (rest.1, dropped ++ rest.2)
      else (q, [])

/-- The body of "move end until new_end": count one more slot and clear its entry. -/
def appendSlot (q : ReorderQueue α) (endNum : Nat) : ReorderQueue α :=
  { q with count := q.count + 1 }.setEntry endNum { q.entry endNum with set := false }

@[simp] theorem size_appendSlot (q : ReorderQueue α) (m : Nat) :
    (q.appendSlot m).size = q.size := rfl

@[simp] theorem count_appendSlot (q : ReorderQueue α) (m : Nat) :
    (q.appendSlot m).count = q.count + 1 := rfl

/-- "move end until new_end". The assertion in the body bounds the number of turns. -/
def moveEnd (newEnd : Nat) : (fuel endNum : Nat) → ReorderQueue α → Checked (ReorderQueue α)
  | 0, _, _ => .error .assertion
  | fuel + 1, endNum, q =>
      if q.lt endNum newEnd then
        let q := q.appendSlot endNum
        if q.count ≤ q.size then moveEnd newEnd fuel (q.add q.begin q.count) q
        else .error .assertion
      else .ok q

/-- "empty, just shift to the seq_num" -/
def shiftIfEmpty (q : ReorderQueue α) (seqNum : Nat) : ReorderQueue α :=
  if q.count = 0 then { q with begin := seqNum } else q

@[simp] theorem size_shiftIfEmpty (q : ReorderQueue α) (m : Nat) :
    (q.shiftIfEmpty m).size = q.size := by
  unfold shiftIfEmpty
  split <;> rfl

/-- The tail of `push` after room has been made: extend to `new_end`, then store. -/
def extendAndStore (q : ReorderQueue α) (seqNum newEnd : Nat) (user : α) :
    Checked (ReorderQueue α) :=
  (moveEnd newEnd (q.size + 1 - q.count) (q.add q.begin q.count) q).map
    fun q => q.setEntry seqNum ⟨user, true⟩

def push (q : ReorderQueue α) (seqNum : Nat) (user : α) :
    Checked (ReorderQueue α × List (Nat × α)) :=
  if ¬ q.count ≤ q.size then .error .assertion
  else
    let endNum := q.add q.begin q.count
    if q.ge seqNum q.begin && q.lt seqNum endNum then
      let e := q.entry seqNum
      if e.set then .ok (q, q.callDropCb seqNum user)  -- received twice
      else .ok (q.setEntry seqNum ⟨user, true⟩, [])
    else if q.lt seqNum q.begin then .ok (q, q.callDropCb seqNum user)
    else if ¬ q.ge seqNum endNum then .error .assertion
    else
      let totalEnd := q.add endNum (q.size - q.count)
      let newEnd := q.add seqNum 1
      if q.lt totalEnd newEnd then
        if q.dropStrategy = .end_ then .ok (q, q.callDropCb seqNum user)
        else
          let r := dropFirst endNum newEnd q.count totalEnd q
          ((r.1.shiftIfEmpty seqNum).extendAndStore seqNum newEnd user).map fun q => (q, r.2)
      else (q.extendAndStore seqNum newEnd user).map fun q => (q, [])

/-- The pulled (number, element), if any. -/
def pull (q : ReorderQueue α) : Checked (ReorderQueue α × Option (Nat × α)) :=
  if ¬ q.count ≤ q.size then .error .assertion
  else if q.count = 0 then .ok (q, none)
  else
    let e := q.entry q.begin
    if !e.set then .ok (q, none)
    else .ok (q.advance, some (q.begin, e.user))

def peek (q : ReorderQueue α) (index : Nat) : Option (Nat × α) :=
  if index ≥ q.count then none
  else
    let seqNumVal := q.add q.begin index
    let e := q.entry seqNumVal
    if !e.set then none else some (seqNumVal, e.user)

/-- "reduce count if necessary": the loop at the end of `drop`, entered with the entry just dropped. -/
def reduceCount : (fuel : Nat) → ReorderQueueEntry α → ReorderQueue α → ReorderQueue α
  | 0, _, q => q
  | fuel + 1, e, q =>
      if !e.set then
        let q := { q with count := q.count - 1 }
        if q.count = 0 then q
        else reduceCount fuel (q.entry (q.add q.begin (q.count - 1))) q
      else q

/-- `chiaki_reorder_queue_drop`. The entry's `set` flag is left as it is. -/
def drop (q : ReorderQueue α) (index : Nat) : ReorderQueue α × List (Nat × α) :=
  if index ≥ q.count then (q, [])
  else
    let seqNum := q.add q.begin index
    let e := q.entry seqNum
    if !e.set then (q, [])
    else
      let dropped := q.callDropCb seqNum e.user
      if index = q.count - 1 then (reduceCount q.count e q, dropped) else (q, dropped)

end ReorderQueue
end Chiaki
