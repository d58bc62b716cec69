import Chiaki.Lib.Account
import Chiaki.ReorderQueue.Conservation
import Chiaki.Takion.Thread

/-!
# Who owns a datagram

A buffer is in a slot for postponed packets or in an entry of the data queue, or it has been freed. A buffer is lost
when a data message is too short or finds no memory, when there is no place to postpone it, and when it is still
postponed at the end.
-/

namespace Chiaki
open Machine Serial SlotWindow ReorderQueue

namespace ReorderQueue

variable {α : Type} {sizeExp m : Nat} {q q' : ReorderQueue α} {w : Window α} {user : α} {dropped : List (Nat × α)}

/-! ## The stored elements -/

theorem filterMap_slots (slots : List (Option α)) :
    (List.range slots.length).filterMap (fun i => (slots[i]?).join) = slots.filterMap id := by
  induction slots with
  | nil => rfl
  | cons slot slots ih =>
      rw [List.length_cons, List.range_succ_eq_map, List.filterMap_cons, List.filterMap_map, List.filterMap_cons]
      have rest : (fun i => ((slot :: slots)[i]?).join) ∘ Nat.succ = fun i => (slots[i]?).join := rfl
      rw [rest, ih]
      rfl

theorem map_snd_numbered (num : Nat → Nat) (slots : List (Option α)) :
    (numbered num slots).map Prod.snd = slots.filterMap id := by
  induction slots generalizing num with
  | nil => rfl
  | cons slot slots ih => cases slot <;> simp [numbered, ih]

theorem stored_eq {s : Spec α} (h : Sim32 sizeExp q s) : q.stored = s.window.slots.filterMap id := by
  rw [stored, h.rep.count_eq, ← filterMap_slots]
  congr 1
  funext i
  rw [h.peek_eq_slotAt, Spec.slotAt]
  cases (s.window.slots[i]?).join <;> rfl

theorem stored_eq_contents {s : Spec α} (h : Sim32 sizeExp q s) :
    q.stored = (s.window.contents (2 ^ 32)).map Prod.snd := by
  rw [stored_eq h, Window.contents, map_snd_numbered]

theorem fini_stored {s : Spec α} (h : Sim32 sizeExp q s) : q.fini.map Prod.snd = q.stored := by
  rw [h.fini_eq_contents, stored_eq_contents h]

/-- A queue that refuses what does not fit, and hands it back. -/
def Refusing (sizeExp : Nat) (q : ReorderQueue α) : Prop := ∃ w, Sim32 sizeExp q ⟨.refuseNew, w⟩

theorem Refusing.push (refusing : Refusing sizeExp q) (wide : 0 < sizeExp) (hm : m < 2 ^ 32)
    (pushed : q.push m user = .ok (q', dropped)) :
    Refusing sizeExp q' ∧ (q'.stored ++ dropped.map Prod.snd).Perm (user :: q.stored) := by
  obtain ⟨w, h⟩ := refusing
  by_cases opposite : 2 * ahead (2 ^ 32) q.begin m = 2 ^ 32
  · have two : 1 < q.size := by
      rw [h.size_eq]
      exact Nat.one_lt_two_pow wide.ne'
    rw [h.push_opposite user opposite (h.refuses rfl) two] at pushed
    by_cases empty : q.count = 0
    · rw [if_pos empty] at pushed
      cases pushed
    · rw [if_neg empty] at pushed
      obtain ⟨rfl, rfl⟩ := Prod.mk.inj (Except.ok.inj pushed)
      exact ⟨⟨w, h⟩, List.perm_append_singleton user q.stored⟩
  · have reachable : PushOk (2 ^ 32) q (.push m user) := ⟨hm, opposite⟩
    obtain ⟨q'', done, h'⟩ := h.push reachable
    rw [done] at pushed
    obtain ⟨rfl, rfl⟩ := Prod.mk.inj (Except.ok.inj pushed)
    refine ⟨⟨_, h'⟩, ?_⟩
    have conserved := (h.step_conserves (.push m user) reachable).map Prod.snd
    rw [stored_eq_contents h', stored_eq_contents h]
    refine (List.perm_append_comm).trans ?_
    simpa [Spec.step, Out.handed, Op.pushed, repeats] using conserved

end ReorderQueue

namespace Takion

variable {lib : CryptoLib} {takion takion' : Takion} {handled : Handled}

/-- The buffers in the entries of the data queue. -/
def queued (takion : Takion) : List Nat := takion.dataQueue.stored.map (·.packet.id)

/-- The data queue of a connection after its handshake. -/
def Refuses (takion : Takion) : Prop := Refusing takionReorderQueueSizeExp takion.dataQueue

theorem flushDataQueue_owned (refuses : takion.Refuses) (flushed : takion.flushDataQueue = .ok (takion', handled)) :
    takion'.Refuses ∧ takion'.postponedPackets = takion.postponedPackets ∧
      (takion'.queued ++ handled.freed).Perm takion.queued := by
  obtain ⟨w, h⟩ := refuses
  obtain ⟨q, pulling, h'⟩ := pullAll_eq takion.dataQueue.count h (by rw [h.rep.count_eq])
  rw [flushDataQueue, pulling, ok_bind] at flushed
  obtain ⟨rfl, rfl⟩ := Prod.mk.inj (Except.ok.inj flushed)
  refine ⟨⟨_, h'⟩, rfl, List.perm_append_comm.trans (.of_eq ?_)⟩
  have split := Window.drain_slots w.base w.slots
  change _ ++ q.stored.map _ = takion.dataQueue.stored.map _
  rw [stored_eq h', stored_eq h]
  conv_rhs => rw [split, List.filterMap_append, List.map_append]
  simp [seen, Function.comp_def]

/-- A message that is accepted and whose buffer is lost: data without its header, or without memory for the entry. -/
def LosesMessage (takion : Takion) (alloc : Bool) (data : Bytes) : Bool :=
  match parseMessage takion.keyState takion.tagLocal (data.drop 1) with
  | .ok (_, .ok msg) => msg.chunkType == TakionChunkType.data.value && (decide (msg.payload.length < 9) || !alloc)
  | _ => false

/-- There is no slot to postpone a packet. -/
def NoSlot (takion : Takion) (alloc : Bool) : Bool :=
  match takion.postponedPackets with
  | none => !alloc
  | some packets => decide (packets.length ≥ takionPostponePacketsSize)

/-- A datagram that passes its check and is lost. -/
def Loses (lib : CryptoLib) (takion : Takion) (o : ReceiveOutcome) (buf : HeapBlock) : Bool :=
  match takion.handlePacketMac lib o.gmac buf.data, byteAt buf.data 0 with
  | .ok (checked, data, .ok ()), .ok first =>
      match TakionPacketType.ofByte first with
      | some .control => checked.LosesMessage o.alloc data
      | some .video | some .audio => checked.enableCrypt && checked.gkcryptRemote.isNone && checked.NoSlot o.alloc
      | _ => false
  | _, _ => false

/-- Where the buffer of a datagram went: to a new slot, to the data queue, or out. -/
def Owned (takion takion' : Takion) (id : Nat) (freed : List Nat) (loses : Bool) : Prop :=
  ∃ added, TakionThread.postponed takion' = TakionThread.postponed takion ++ added ∧
    (added.map HeapBlock.id ++ takion'.queued ++ freed ++ (if loses then [id] else [])).Perm (id :: takion.queued)

theorem Owned.free {id : Nat} (queue : takion'.dataQueue = takion.dataQueue)
    (slots : takion'.postponedPackets = takion.postponedPackets) : Owned takion takion' id [id] false := by
  refine ⟨[], by rw [TakionThread.postponed, slots, List.append_nil]; rfl, ?_⟩
  rw [queued, queued, queue]
  simp

theorem Owned.of_same {before : Takion} {id : Nat} {freed : List Nat} {loses : Bool}
    (owned : Owned takion takion' id freed loses) (queue : takion.dataQueue = before.dataQueue)
    (slots : takion.postponedPackets = before.postponedPackets) : Owned before takion' id freed loses := by
  obtain ⟨added, more, account⟩ := owned
  rw [TakionThread.postponed, TakionThread.postponed, slots] at more
  rw [queued, queued, queue] at account
  exact ⟨added, more, account⟩

theorem handlePacketMessageData_owned {alloc : Bool} {packet : HeapBlock} {typeB : UInt8} {payload : Bytes}
    (refuses : takion.Refuses)
    (done : takion.handlePacketMessageData alloc packet typeB payload = .ok (takion', handled)) :
    takion'.Refuses ∧ Owned takion takion' packet.id handled.freed (decide (payload.length < 9) || !alloc) := by
  unfold handlePacketMessageData at done
  split at done
  · rename_i short
    obtain ⟨rfl, rfl⟩ := Prod.mk.inj (Except.ok.inj done)
    refine ⟨refuses, [], (List.append_nil _).symm, ?_⟩
    simp [short]
  · rename_i long
    cases alloc with
    | false =>
        obtain ⟨rfl, rfl⟩ := Prod.mk.inj (Except.ok.inj done)
        refine ⟨refuses, [], (List.append_nil _).symm, ?_⟩
        simp
    | true =>
        obtain ⟨channel, -, done⟩ := bind_eq_ok done
        obtain ⟨seqNum, read, done⟩ := bind_eq_ok done
        obtain ⟨⟨q, dropped⟩, pushed, done⟩ := bind_eq_ok done
        obtain ⟨⟨flushed, handled'⟩, flushing, done⟩ := bind_eq_ok done
        obtain ⟨rfl, rfl⟩ := Prod.mk.inj (Except.ok.inj done)
        have number : seqNum < 2 ^ 32 := by
          rw [read32_eq (by omega)] at read
          obtain rfl := Except.ok.inj read
          exact DataPacket.seqNum_lt ⟨packet, typeB, payload, true⟩
        obtain ⟨refuses', now⟩ := refuses.push (by decide) number pushed
        obtain ⟨refuses'', same, later⟩ := @flushDataQueue_owned { takion with dataQueue := q } _ _ refuses' flushing
        refine ⟨refuses'', [], by rw [TakionThread.postponed, same, List.append_nil]; rfl, ?_⟩
        replace now := now.map (·.packet.id)
        rw [List.perm_iff_count] at now later ⊢
        intro id
        have nowId := now id
        have laterId := later id
        simp only [List.map_append, List.map_map, List.map_cons, List.count_append, List.count_cons] at nowId
        simp only [List.count_append, queued] at laterId
        simp only [List.map_nil, List.nil_append, List.count_append, List.count_cons, queued, long, Bool.not_true,
          decide_false, Bool.or_self, Bool.false_eq_true, if_false, List.append_nil, Function.comp_def] at nowId ⊢
        omega

theorem handlePacketMessageDataAck_frame {lock : Bool} {payload : Bytes} {events : List TakionEvent}
    (done : takion.handlePacketMessageDataAck lock payload = .ok (takion', events)) :
    takion'.dataQueue = takion.dataQueue ∧ takion'.postponedPackets = takion.postponedPackets := by
  obtain ⟨cumulative, -, done⟩ := bind_eq_ok done
  cases cumulative with
  | none =>
      obtain ⟨rfl, rfl⟩ := Prod.mk.inj (Except.ok.inj done)
      exact ⟨rfl, rfl⟩
  | some cumulative =>
      dsimp only at done
      split at done
      · obtain ⟨rfl, rfl⟩ := Prod.mk.inj (Except.ok.inj done)
        exact ⟨rfl, rfl⟩
      · obtain ⟨acked, -, done⟩ := bind_eq_ok done
        obtain ⟨events', -, done⟩ := bind_eq_ok done
        obtain ⟨rfl, rfl⟩ := Prod.mk.inj (Except.ok.inj done)
        exact ⟨rfl, rfl⟩

theorem handlePacketMac_frame {gmacOk : Bool} {buf data : Bytes} {result : Except ErrorCode Unit}
    (done : takion.handlePacketMac lib gmacOk buf = .ok (takion', data, result)) :
    takion'.dataQueue = takion.dataQueue ∧ takion'.postponedPackets = takion.postponedPackets := by
  unfold handlePacketMac at done
  split at done
  · obtain ⟨rfl, -⟩ := Prod.mk.inj (Except.ok.inj done)
    exact ⟨rfl, rfl⟩
  · obtain ⟨keyPos, -, done⟩ := bind_eq_ok done
    cases keyPos with
    | error err =>
        obtain ⟨rfl, -⟩ := Prod.mk.inj (Except.ok.inj done)
        exact ⟨rfl, rfl⟩
    | ok keyPos =>
        obtain ⟨r, -, done⟩ := bind_eq_ok done
        dsimp only at done
        split at done
        · obtain ⟨rfl, -⟩ := Prod.mk.inj (Except.ok.inj done)
          exact ⟨rfl, rfl⟩
        · split at done
          · obtain ⟨rfl, -⟩ := Prod.mk.inj (Except.ok.inj done)
            exact ⟨rfl, rfl⟩
          · obtain ⟨rfl, -⟩ := Prod.mk.inj (Except.ok.inj done)
            exact ⟨rfl, rfl⟩

theorem handlePacketMessage_owned {o : ReceiveOutcome} {buf : HeapBlock} (refuses : takion.Refuses)
    (done : takion.handlePacketMessage o buf = .ok (takion', handled)) :
    takion'.Refuses ∧ Owned takion takion' buf.id handled.freed (takion.LosesMessage o.alloc buf.data) := by
  obtain ⟨⟨keyState, parsed⟩, parsing, done⟩ := bind_eq_ok done
  unfold LosesMessage
  rw [parsing]
  cases parsed with
  | error err =>
      obtain ⟨rfl, rfl⟩ := Prod.mk.inj (Except.ok.inj done)
      exact ⟨refuses, .free rfl rfl⟩
  | ok msg =>
      dsimp only at done ⊢
      split at done
      · rename_i isData
        rw [isData, beq_self_eq_true, Bool.true_and]
        exact @handlePacketMessageData_owned { takion with keyState := keyState } _ _ _ _ _ _ refuses done
      · rename_i other
        rw [beq_false_of_ne other, Bool.false_and]
        split at done
        · obtain ⟨⟨acked, events⟩, acking, done⟩ := bind_eq_ok done
          obtain ⟨rfl, rfl⟩ := Prod.mk.inj (Except.ok.inj done)
          obtain ⟨queue, slots⟩ := handlePacketMessageDataAck_frame acking
          exact ⟨by rwa [Refuses, queue], .free queue slots⟩
        · obtain ⟨rfl, rfl⟩ := Prod.mk.inj (Except.ok.inj done)
          exact ⟨refuses, .free rfl rfl⟩

theorem postponePacket_owned (takion : Takion) (alloc : Bool) (buf : HeapBlock) :
    Owned takion (takion.postponePacket alloc buf) buf.id [] (takion.NoSlot alloc) := by
  unfold postponePacket NoSlot Owned TakionThread.postponed
  cases slots : takion.postponedPackets with
  | none =>
      cases alloc with
      | false => exact ⟨[], by simp [slots], by simp⟩
      | true => exact ⟨[buf], by simp, by simp [queued]⟩
  | some packets =>
      dsimp only
      split
      · rename_i full
        exact ⟨[], by simp [slots], by simp [full]⟩
      · rename_i room
        exact ⟨[buf], by simp, by simp [queued, room]⟩

theorem postponeOrParse_owned {alloc : Bool} {buf : HeapBlock} (refuses : takion.Refuses)
    (done : (if takion.enableCrypt && takion.gkcryptRemote.isNone then
        pure (takion.postponePacket alloc buf, {})
      else do
        let av ← takion.handlePacketAv buf.data
        pure (av.1, { events := av.2, freed := [buf.id] }) : Checked (Takion × Handled)) = .ok (takion', handled)) :
    takion'.Refuses ∧ Owned takion takion' buf.id handled.freed
      (takion.enableCrypt && takion.gkcryptRemote.isNone && takion.NoSlot alloc) := by
  split at done
  · rename_i early
    obtain ⟨rfl, rfl⟩ := Prod.mk.inj (Except.ok.inj done)
    rw [early, Bool.true_and]
    refine ⟨?_, postponePacket_owned takion alloc buf⟩
    unfold postponePacket
    split
    · split
      · exact refuses
      · exact refuses
    · split
      · exact refuses
      · exact refuses
  · rename_i ready
    obtain ⟨⟨after, events⟩, parsing, done⟩ := bind_eq_ok done
    obtain ⟨rfl, rfl⟩ := Prod.mk.inj (Except.ok.inj done)
    rw [Bool.eq_false_iff.mpr ready, Bool.false_and]
    obtain ⟨⟨keyState, result⟩, -, parsing⟩ := bind_eq_ok parsing
    cases result with
    | error err =>
        obtain ⟨rfl, rfl⟩ := Prod.mk.inj (Except.ok.inj parsing)
        exact ⟨refuses, .free rfl rfl⟩
    | ok packet =>
        obtain ⟨rfl, rfl⟩ := Prod.mk.inj (Except.ok.inj parsing)
        exact ⟨refuses, .free rfl rfl⟩

theorem handlePacket_owned {o : ReceiveOutcome} {buf : HeapBlock} (refuses : takion.Refuses)
    (done : takion.handlePacket lib o buf = .ok (takion', handled)) :
    takion'.Refuses ∧ Owned takion takion' buf.id handled.freed (takion.Loses lib o buf) := by
  obtain ⟨-, -, done⟩ := bind_eq_ok done
  obtain ⟨first, read, done⟩ := bind_eq_ok done
  obtain ⟨⟨checked, data, result⟩, check, done⟩ := bind_eq_ok done
  obtain ⟨queue, slots⟩ := handlePacketMac_frame check
  have refuses' : checked.Refuses := by rwa [Refuses, queue]
  unfold Loses
  rw [check, read]
  cases result with
  | error err =>
      obtain ⟨rfl, rfl⟩ := Prod.mk.inj (Except.ok.inj done)
      exact ⟨refuses', .free queue slots⟩
  | ok _ =>
      dsimp only at done ⊢
      -- both matches are on the type of the packet
      generalize TakionPacketType.ofByte first = type at done ⊢
      have neither (returned : pure (checked, ({ freed := [buf.id] } : Handled)) = (Except.ok (takion', handled) : Checked _)) :
          takion'.Refuses ∧ Owned takion takion' buf.id handled.freed false := by
        obtain ⟨rfl, rfl⟩ := Prod.mk.inj (Except.ok.inj returned)
        exact ⟨refuses', .free queue slots⟩
      cases type with
      | none => exact neither done
      | some type =>
          cases type with
          | control =>
              obtain ⟨refuses'', owned⟩ := @handlePacketMessage_owned checked _ _ o { buf with data := data } refuses' done
              exact ⟨refuses'', owned.of_same queue slots⟩
          | video =>
              obtain ⟨refuses'', owned⟩ := @postponeOrParse_owned checked _ _ _ { buf with data := data } refuses' done
              exact ⟨refuses'', owned.of_same queue slots⟩
          | audio =>
              obtain ⟨refuses'', owned⟩ := @postponeOrParse_owned checked _ _ _ { buf with data := data } refuses' done
              exact ⟨refuses'', owned.of_same queue slots⟩
          | _ => exact neither done

theorem recheck_keeps {gmacOk : Nat → Bool} {cryptAvailable available : Bool} {scan : Scan}
    (done : takion.recheck lib gmacOk cryptAvailable = .ok (takion', available, scan)) :
    takion' = takion ∧ scan.freed = [] := by
  unfold recheck at done
  split at done
  · by_cases empty : ∀ i < takion.dataQueue.count, takion.dataQueue.peek i = none
    · rw [recheckFrom_none lib gmacOk empty, ok_bind] at done
      cases done
      exact ⟨rfl, rfl⟩
    · push Not at empty
      obtain ⟨j, inside, some⟩ := empty
      rw [recheckFrom_some lib gmacOk (by omega) (Nat.zero_le j) inside some] at done
      cases done
  · cases done
    exact ⟨rfl, rfl⟩

theorem handlePacketMessage_of_loses {o : ReceiveOutcome} {buf : HeapBlock}
    (loses : takion.LosesMessage o.alloc buf.data = true) : ∃ r, takion.handlePacketMessage o buf = .ok r := by
  unfold LosesMessage at loses
  split at loses
  · rename_i keyState msg parsed
    obtain ⟨isData, unusable⟩ := Bool.and_eq_true_iff.mp loses
    unfold handlePacketMessage
    rw [parsed, ok_bind]
    dsimp only
    rw [if_pos (beq_iff_eq.mp isData), handlePacketMessageData]
    split
    · exact ⟨_, rfl⟩
    · rename_i long
      rw [decide_eq_false long, Bool.false_or] at unusable
      rw [if_pos unusable]
      exact ⟨_, rfl⟩
  · cases loses

theorem handlePacket_of_loses {o : ReceiveOutcome} {buf : HeapBlock} (loses : takion.Loses lib o buf = true) :
    ∃ r, takion.handlePacket lib o buf = .ok r := by
  unfold Loses at loses
  split at loses
  · rename_i checked data first check read
    have received : 0 < buf.data.length := by
      cases there : buf.data with
      | nil =>
          rw [there] at read
          cases read
      | cons byte bytes => exact Nat.succ_pos _
    unfold handlePacket
    rw [decide_eq_true received, assert_true, ok_bind, read, ok_bind, check, ok_bind]
    dsimp only
    generalize TakionPacketType.ofByte first = type at loses ⊢
    cases type with
    | none => cases loses
    | some type =>
        cases type with
        | control => exact handlePacketMessage_of_loses loses
        | video =>
            simp only [Bool.and_eq_true] at loses
            simp only [loses.1.1, loses.1.2, Bool.and_self, if_true]
            exact ⟨_, rfl⟩
        | audio =>
            simp only [Bool.and_eq_true] at loses
            simp only [loses.1.1, loses.1.2, Bool.and_self, if_true]
            exact ⟨_, rfl⟩
        | _ => cases loses
  · cases loses

end Takion

namespace TakionThread

variable {lib : CryptoLib}

/-- The buffers in slots that are still to be looked at, and in the data queue. -/
def held (thread : TakionThread) : List Nat :=
  match thread.point with
  | .ended => []
  | .flushing i => ((postponed thread.takion).drop i).map HeapBlock.id ++ thread.takion.queued
  | _ => (postponed thread.takion).map HeapBlock.id ++ thread.takion.queued

/-- The buffers that nobody has a pointer to after a step. -/
def lost (lib : CryptoLib) (thread : TakionThread) (op : TakionThreadOp) : List Nat :=
  match op, thread.point with
  | .flushNext o, .flushing i =>
      match (postponed thread.takion)[i]? with
      | some packet => if thread.takion.Loses lib o packet then [packet.id] else []
      | none => []
  | .datagram o buf, .receive => if thread.takion.Loses lib o buf then [buf.id] else []
  | .leave, .receive => (postponed thread.takion).map HeapBlock.id
  | _, _ => []

/-- At every moment a buffer that came is held in one place, or it was freed once; at the end all are freed. -/
structure OwnsAll (lib : CryptoLib) (takion : Takion) (ops : List TakionThreadOp) : Prop where
  owned : ∀ done, done <+: ops → ∀ thread outs, run (step lib) (start takion) done = .ok (thread, outs) →
    (thread.held ++ outs.flatMap TakionThreadOut.freed).Perm (outs.flatMap TakionThreadOut.given)
  ended : ∀ done, done <+: ops → ∀ thread outs, run (step lib) (start takion) done = .ok (thread, outs) →
    thread.point = .ended → (outs.flatMap TakionThreadOut.freed).Perm (outs.flatMap TakionThreadOut.given)

/-- A step that loses nothing of what it may lose. -/
def Keeps (lib : CryptoLib) (thread : TakionThread) (op : TakionThreadOp) : Prop := lost lib thread op = []

instance (lib : CryptoLib) (thread : TakionThread) (op : TakionThreadOp) : Decidable (Keeps lib thread op) :=
  inferInstanceAs (Decidable (_ = _))

/-! ## One step -/

/-- The account of one step. -/
def Accounted (lib : CryptoLib) (thread : TakionThread) (op : TakionThreadOp) (thread' : TakionThread)
    (out : TakionThreadOut) : Prop :=
  thread'.takion.Refuses ∧ (thread'.held ++ out.freed ++ lost lib thread op).Perm (out.given ++ thread.held)

section
variable {takion : Takion} {cryptAvailable : Bool} {thread' : TakionThread} {out : TakionThreadOut}
  (refuses : takion.Refuses)
include refuses

theorem recheck_accounted {gmacOk : Nat → Bool}
    (stepped : step lib ⟨takion, cryptAvailable, .recheck⟩ (.recheck gmacOk) = .ok (thread', out)) :
    Accounted lib ⟨takion, cryptAvailable, .recheck⟩ (.recheck gmacOk) thread' out := by
  obtain ⟨⟨takion', available, scan⟩, scanned, finished⟩ := bind_eq_ok stepped
  obtain ⟨same, nothing⟩ := Takion.recheck_keeps scanned
  cases finished
  cases same
  exact ⟨refuses, by simp [held, lost, nothing]⟩

theorem flush_accounted (stepped : step lib ⟨takion, cryptAvailable, .flush⟩ .flush = .ok (thread', out)) :
    Accounted lib ⟨takion, cryptAvailable, .flush⟩ .flush thread' out := by
  unfold step at stepped
  dsimp only at stepped
  split at stepped
  · cases stepped
    exact ⟨refuses, by simp [held, lost]⟩
  · cases stepped
    exact ⟨refuses, by simp [held, lost]⟩

theorem flushNext_accounted {i : Nat} {o : ReceiveOutcome}
    (stepped : step lib ⟨takion, cryptAvailable, .flushing i⟩ (.flushNext o) = .ok (thread', out)) :
    Accounted lib ⟨takion, cryptAvailable, .flushing i⟩ (.flushNext o) thread' out := by
  unfold step at stepped
  dsimp only at stepped
  split at stepped
  · rename_i packet there
    obtain ⟨⟨takion', handled⟩, handling, finished⟩ := bind_eq_ok stepped
    cases finished
    obtain ⟨refuses', added, more, account⟩ := Takion.handlePacket_owned refuses handling
    refine ⟨refuses', ?_⟩
    obtain ⟨inside, rfl⟩ := List.getElem?_eq_some_iff.mp there
    have slots : (postponed takion).drop i = (postponed takion)[i] :: (postponed takion).drop (i + 1) :=
      List.drop_eq_getElem_cons inside
    simp only [held, lost, there, slots, more, List.drop_append_of_le_length (show i + 1 ≤ _ from inside)]
    rw [List.perm_iff_count] at account ⊢
    intro id
    have accountId := account id
    simp only [List.map_append, List.map_cons, List.count_append, List.count_cons, List.nil_append,
      List.cons_append] at accountId ⊢
    omega
  · rename_i done
    cases stepped
    refine ⟨refuses, ?_⟩
    have slots : (postponed takion).drop i = [] := List.drop_eq_nil_of_le (List.getElem?_eq_none_iff.mp done)
    simp only [held, lost, done, slots]
    simp [postponed, Takion.queued]

theorem datagram_accounted {o : ReceiveOutcome} {buf : HeapBlock}
    (stepped : step lib ⟨takion, cryptAvailable, .receive⟩ (.datagram o buf) = .ok (thread', out)) :
    Accounted lib ⟨takion, cryptAvailable, .receive⟩ (.datagram o buf) thread' out := by
  obtain ⟨⟨takion', handled⟩, handling, finished⟩ := bind_eq_ok stepped
  cases finished
  obtain ⟨refuses', added, more, account⟩ := Takion.handlePacket_owned refuses handling
  refine ⟨refuses', ?_⟩
  simp only [held, lost, more]
  rw [List.perm_iff_count] at account ⊢
  intro id
  have accountId := account id
  simp only [List.map_append, List.count_append, List.count_cons, List.nil_append, List.cons_append] at accountId ⊢
  omega

/-- At the end the data queue frees what it holds, and what is postponed is left. -/
theorem leave_accounted (stepped : step lib ⟨takion, cryptAvailable, .receive⟩ .leave = .ok (thread', out)) :
    Accounted lib ⟨takion, cryptAvailable, .receive⟩ .leave thread' out := by
  cases stepped
  refine ⟨refuses, ?_⟩
  obtain ⟨w, valid⟩ := refuses
  have users := congrArg (List.map fun entry => entry.packet.id) (fini_stored valid)
  rw [List.map_map] at users
  simp only [held, lost, Takion.queued]
  rw [← users, List.nil_append]
  exact List.perm_append_comm

end

theorem idle_accounted {thread thread' : TakionThread} {op : TakionThreadOp} {out : TakionThreadOut}
    (refuses : thread.takion.Refuses) (nothing : lost lib thread op = [])
    (stepped : (.ok (thread, {}) : Checked (TakionThread × TakionThreadOut)) = .ok (thread', out)) :
    Accounted lib thread op thread' out := by
  cases stepped
  exact ⟨refuses, by simp [nothing]⟩

theorem step_accounts (lib : CryptoLib) : Accounts (step lib) held TakionThreadOut.given TakionThreadOut.freed
    (lost lib) (fun thread => thread.takion.Refuses) := by
  rintro ⟨takion, cryptAvailable, point⟩ op thread' out refuses stepped
  cases op with
  | setCrypt gkcryptLocal gkcryptRemote =>
      cases stepped
      refine ⟨refuses, ?_⟩
      cases point <;> simp [held, lost, postponed, Takion.queued, Takion.setCrypt]
  | sending f =>
      cases stepped
      refine ⟨refuses, ?_⟩
      cases point <;> simp [held, lost, postponed, Takion.queued]
  | recheck gmacOk =>
      cases point with
      | recheck => exact recheck_accounted refuses stepped
      | _ => exact idle_accounted refuses rfl stepped
  | flush =>
      cases point with
      | flush => exact flush_accounted refuses stepped
      | _ => exact idle_accounted refuses rfl stepped
  | flushNext o =>
      cases point with
      | flushing i => exact flushNext_accounted refuses stepped
      | _ => exact idle_accounted refuses rfl stepped
  | datagram o buf =>
      cases point with
      | receive => exact datagram_accounted refuses stepped
      | _ => exact idle_accounted refuses rfl stepped
  | noRealloc =>
      cases point with
      | receive =>
          cases stepped
          exact ⟨refuses, by simp [held, lost]⟩
      | _ => exact idle_accounted refuses rfl stepped
  | leave =>
      cases point with
      | receive => exact leave_accounted refuses stepped
      | _ => exact idle_accounted refuses rfl stepped

theorem step_of_lost {thread : TakionThread} {op : TakionThreadOp} (something : lost lib thread op ≠ []) :
    ∃ r, step lib thread op = .ok r := by
  obtain ⟨takion, cryptAvailable, point⟩ := thread
  unfold lost at something
  split at something
  · rename_i o i point
    dsimp only at point
    subst point
    split at something
    · rename_i packet there
      have loses : takion.Loses lib o packet = true := by
        by_contra keeps
        exact something (if_neg keeps)
      obtain ⟨r, handled⟩ := Takion.handlePacket_of_loses loses
      unfold step
      dsimp only at there ⊢
      rw [there]
      dsimp only
      rw [handled]
      exact ⟨_, rfl⟩
    · exact absurd rfl something
  · rename_i o buf point
    dsimp only at point
    subst point
    have loses : takion.Loses lib o buf = true := by
      by_contra keeps
      exact something (if_neg keeps)
    obtain ⟨r, handled⟩ := Takion.handlePacket_of_loses loses
    unfold step
    dsimp only
    rw [handled]
    exact ⟨_, rfl⟩
  · rename_i point
    dsimp only at point
    subst point
    exact ⟨_, rfl⟩
  · exact absurd rfl something

/-! ## Runs -/

/-- Every buffer that was ever given to `takion_handle_packet` has one owner or was freed once, and all are freed at
the end, in exactly the runs in which no step loses one. -/
theorem ownsAll_iff (lib : CryptoLib) {takion : Takion} {initial : Nat} (initial_lt : initial < 2 ^ 32)
    (fresh : initDataQueue initial = some takion.dataQueue) (nothing : takion.postponedPackets = none)
    (ops : List TakionThreadOp) :
    OwnsAll lib takion ops ↔ Along (step lib) (Keeps lib) (start takion) ops := by
  obtain ⟨q, init, queue⟩ := Option.map_eq_some_iff.mp fresh
  have valid : Sim32 takionReorderQueueSizeExp takion.dataQueue ⟨.refuseNew, ⟨initial, []⟩⟩ :=
    queue ▸ init32_sim init initial_lt
  have empty : (start takion).held = [] := by
    simp [held, start, postponed, nothing, Takion.queued, stored_eq valid]
  have balance := (step_accounts lib).balanced_iff (fun _ _ => step_of_lost)
    (show (start takion).takion.Refuses from ⟨_, valid⟩) ops
  rw [Machine.Balanced, empty] at balance
  simp only [List.append_nil] at balance
  refine Iff.trans ⟨OwnsAll.owned, fun owned => ⟨owned, ?_⟩⟩ balance
  intro done isPrefix thread outs ran finished
  have account := owned done isPrefix thread outs ran
  rwa [held, finished] at account

/-- An audio packet is postponed, and freed when the keys are there. -/
theorem ownsAll_postponed : OwnsAll default { zeroReceiver with gkcryptRemote := none }
    [.recheck fun _ => true, .flush, .datagram ⟨true, true, true⟩ ⟨0, [3]⟩,
      .setCrypt (.ofKeys default (List.replicate 0x10 0) (List.replicate 0x10 0))
        (.ofKeys default (List.replicate 0x10 0) (List.replicate 0x10 0)),
      .recheck fun _ => true, .flush, .flushNext ⟨true, true, true⟩, .flushNext ⟨true, true, true⟩, .leave] := by
  apply (ownsAll_iff default (show 0 < 2 ^ 32 by decide) rfl rfl _).mpr
  decide +kernel

/-- A data message of eight bytes. -/
theorem not_ownsAll_short : ¬ OwnsAll default { zeroReceiver with gkcryptRemote := none }
    [.recheck fun _ => true, .flush, .datagram ⟨true, true, true⟩
      ⟨0, 0 :: writeMessageHeader 0 0 TakionChunkType.data.value 1 8 ++ [0, 0, 0, 0, 0, 0, 0, 0]⟩] := by
  rintro ⟨owned, -⟩
  have account := owned _ List.prefix_rfl _ _ rfl
  exact absurd account.length_eq (by decide +kernel)

end TakionThread
end Chiaki
