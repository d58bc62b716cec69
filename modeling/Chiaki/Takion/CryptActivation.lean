import Chiaki.Takion.DataDelivery

/-!
# When crypt becomes available

The scan of the data queue at the start of a turn of `takion_thread_func`.
-/

namespace Chiaki
open Machine SlotWindow ReorderQueue

namespace ReorderQueue
variable {α : Type}

/-- `chiaki_reorder_queue_peek` without a place for the number, which it writes before it returns. -/
def peekWithoutSeqNum (q : ReorderQueue α) (index : Nat) : Checked (Option (Nat × α)) :=
  match q.peek index with
  | none => pure none
  | some _ => .error .nullPointer

/-- The element at an index, changed in place. -/
def setUser (q : ReorderQueue α) (index : Nat) (user : α) : ReorderQueue α :=
  q.setEntry (q.add q.begin index) { q.entry (q.add q.begin index) with user := user }

/-- The elements a queue stores. -/
def stored (q : ReorderQueue α) : List α := (List.range q.count).filterMap fun i => (q.peek i).map (·.2)

theorem stored_eq_nil_iff (q : ReorderQueue α) : q.stored = [] ↔ ∀ i < q.count, q.peek i = none := by
  simp [stored]

end ReorderQueue

/-- What a scan examined, with the verdicts, and the blocks that were freed. -/
structure Scan where
  examined : List (TakionDataPacketEntry × Bool) := []
  freed : List Nat := []

namespace Scan

def kept (scan : Scan) : List TakionDataPacketEntry := (scan.examined.filter (·.2)).map (·.1)

def failed (scan : Scan) : List TakionDataPacketEntry := (scan.examined.filter (!·.2)).map (·.1)

end Scan

namespace Takion

/-- The loop over the indices from `i`. A turn never makes the queue longer, so `fuel` turns are enough. -/
def recheckFrom (lib : CryptoLib) (gmacOk : Nat → Bool) : (fuel i : Nat) → Takion → Checked (Takion × Scan)
  | 0, _, takion => pure (takion, {})
  | fuel + 1, i, takion =>
      if ¬ i < takion.dataQueue.count then pure (takion, {})
      else do
        let peeked ← takion.dataQueue.peekWithoutSeqNum i
        match peeked with
        | none => recheckFrom lib gmacOk fuel (i + 1) takion
        | some (_, entry) =>
            if entry.packet.data.length = 0 then recheckFrom lib gmacOk fuel (i + 1) takion
            else do
              let r ← takion.handlePacketMac lib (gmacOk i) entry.packet.data
              let queue := r.1.dataQueue.setUser i { entry with packet := { entry.packet with data := r.2.1 } }
              match r.2.2 with
              | .ok () => do
                  let rest ← recheckFrom lib gmacOk fuel (i + 1) { r.1 with dataQueue := queue }
                  pure (rest.1, { rest.2 with examined := (entry, true) :: rest.2.examined })
              | .error _ => do
                  let dropped := queue.drop i
                  let rest ← recheckFrom lib gmacOk fuel (i + 1) { r.1 with dataQueue := dropped.1 }
                  pure (rest.1, { examined := (entry, false) :: rest.2.examined,
                                  freed := dropped.2.map (·.2.packet.id) ++ rest.2.freed })

/-- The start of a turn of `takion_thread_func`; `cryptAvailable` is its variable. -/
def recheck (lib : CryptoLib) (gmacOk : Nat → Bool) (takion : Takion) (cryptAvailable : Bool) :
    Checked (Takion × Bool × Scan) :=
  if takion.enableCrypt && !cryptAvailable && takion.gkcryptRemote.isSome then do
    let r ← recheckFrom lib gmacOk takion.dataQueue.count 0 takion
    pure (r.1, true, r.2)
  else pure (takion, cryptAvailable, {})

/-- Packets that come in later and stay in reach. -/
def Later (takion : Takion) (packets : List DataPacket) (outs : List Handled) : Prop :=
  Along receiveData DataInReach takion packets ∧ ∃ takion', run receiveData takion packets = .ok (takion', outs)

/-- Every stored packet is examined once. Those that verify stay and can be delivered, and the others are freed
once and are not delivered. -/
structure Rechecks (before after : Takion) (scan : Scan) : Prop where
  once : scan.examined.map (·.1) = before.dataQueue.stored
  stay : after.dataQueue.stored.map (·.packet.id) = scan.kept.map (·.packet.id)
  freed : scan.freed = scan.failed.map (·.packet.id)
  freed_once : scan.freed.Nodup
  delivered : ∀ entry ∈ scan.kept, ∃ packets outs, Later after packets outs ∧ ∃ p ∈ pulled outs,
    p.2.packet.id = entry.packet.id
  only : ∀ packets outs, Later after packets outs → ∀ p ∈ pulled outs,
    p.2 ∈ after.dataQueue.stored ∨ p.2 ∈ packets.map DataPacket.entry

/-- The scan ends, and does what it is there for. -/
def RecheckCorrect (lib : CryptoLib) (gmacOk : Nat → Bool) (takion : Takion) : Prop :=
  ∃ takion' scan, takion.recheck lib gmacOk false = .ok (takion', true, scan) ∧ Rechecks takion takion' scan

/-! ## The scan of an empty queue, and of any other -/

section
variable (lib : CryptoLib) (gmacOk : Nat → Bool) {takion : Takion}

theorem recheckFrom_none (none : ∀ i < takion.dataQueue.count, takion.dataQueue.peek i = none) (fuel i : Nat) :
    recheckFrom lib gmacOk fuel i takion = .ok (takion, {}) := by
  induction fuel generalizing i with
  | zero => rfl
  | succ fuel ih =>
      unfold recheckFrom
      split
      · rfl
      · rename_i inside
        rw [peekWithoutSeqNum, none i (not_not.mp inside)]
        exact ih (i + 1)

theorem recheckFrom_some {fuel i j : Nat} (turns : takion.dataQueue.count ≤ i + fuel) (from_i : i ≤ j)
    (inside : j < takion.dataQueue.count) (some : takion.dataQueue.peek j ≠ none) :
    recheckFrom lib gmacOk fuel i takion = .error .nullPointer := by
  induction fuel generalizing i with
  | zero => omega
  | succ fuel ih =>
      unfold recheckFrom
      rw [if_neg (by omega), peekWithoutSeqNum]
      cases here : takion.dataQueue.peek i with
      | some p => rfl
      | none =>
          have further : i ≠ j := fun same => some (same ▸ here)
          exact ih (by omega) (by omega)

end

theorem packet_of_arrivals {a : Arrival} {base : Nat} {packets : List DataPacket} {outs : List Handled}
    (member : a ∈ arrivals base packets outs) : a.packet ∈ packets := by
  fun_induction arrivals base packets outs with
  | case1 base p packets handled outs ih =>
      rcases List.mem_cons.mp member with rfl | member
      · exact List.mem_cons_self
      · exact List.mem_cons_of_mem _ (ih member)
  | case2 => simp at member

theorem rechecks_none {takion : Takion} {w : Window TakionDataPacketEntry}
    (valid : Sim32 takionReorderQueueSizeExp takion.dataQueue ⟨.refuseNew, w⟩) (none : takion.dataQueue.stored = []) :
    Rechecks takion takion {} := by
  constructor
  · exact none.symm
  · rw [none]
    rfl
  · rfl
  · exact List.nodup_nil
  · intro entry member
    cases member
  · rintro packets outs ⟨reach, takion', done⟩ p member
    have empty (d : Nat) (e : TakionDataPacketEntry) : w.slots[d]? ≠ some (some e) := by
      intro slot
      have inside := (List.getElem?_eq_some_iff.mp slot).1
      have shown := (stored_eq_nil_iff takion.dataQueue).mp none d (by rwa [valid.rep.count_eq])
      rw [peek_eq valid.rep, slot] at shown
      cases shown
    have drained : Drained w.base [] [] takion.dataQueue := by
      refine ⟨w, valid, ⟨rfl, rfl, by simp, fun d e slot => absurd slot (empty d e), by simp⟩, ?_⟩
      intro x rest slots
      exact empty 0 x (by rw [slots]; rfl)
    obtain ⟨_, outs', done', -, ⟨_, -, delivery, -⟩, -⟩ := receiveData_run drained reach
    rw [done] at done'
    obtain ⟨-, rfl⟩ := Prod.mk.inj (Except.ok.inj done')
    obtain ⟨k, there⟩ := List.mem_iff_getElem?.mp member
    obtain ⟨a, arrived, -, -, entry⟩ := delivery.delivered k p there
    exact .inr (entry ▸ List.mem_map_of_mem (packet_of_arrivals arrived))

/-- The scan does what it is there for if there is nothing to examine, and otherwise it writes through `NULL`. -/
theorem recheckCorrect_iff (lib : CryptoLib) (gmacOk : Nat → Bool) {takion : Takion}
    {w : Window TakionDataPacketEntry} (valid : Sim32 takionReorderQueueSizeExp takion.dataQueue ⟨.refuseNew, w⟩)
    (enabled : takion.enableCrypt) (available : takion.gkcryptRemote.isSome) :
    RecheckCorrect lib gmacOk takion ↔ takion.dataQueue.stored = [] := by
  have triggered : (takion.enableCrypt && !false && takion.gkcryptRemote.isSome) = true := by
    rw [enabled, available]
    rfl
  unfold RecheckCorrect recheck
  rw [if_pos triggered]
  constructor
  · rintro ⟨takion', scan, done, -⟩
    by_contra found
    rw [stored_eq_nil_iff] at found
    push Not at found
    obtain ⟨j, inside, some⟩ := found
    rw [recheckFrom_some lib gmacOk (by omega) (Nat.zero_le j) inside some] at done
    cases done
  · intro none
    refine ⟨takion, {}, ?_, rechecks_none valid none⟩
    rw [recheckFrom_none lib gmacOk ((stored_eq_nil_iff _).mp none)]
    rfl

/-- Before the first packet has come there is nothing to examine. -/
theorem recheckCorrect_iff_fresh :
    RecheckCorrect default (fun _ => true) zeroReceiver ↔ zeroReceiver.dataQueue.stored = [] :=
  recheckCorrect_iff default (fun _ => true) (w := ⟨0, []⟩) (init32_sim rfl (by decide)) rfl rfl

/-- A packet that came in before its predecessor, while there were no keys yet. -/
theorem not_recheckCorrect_gap :
    ∃ takion handled, receiveData { zeroReceiver with gkcryptRemote := none }
        ⟨⟨0, 0 :: writeMessageHeader 0 0 TakionChunkType.data.value 1 9 ++ [0, 0, 0, 1, 0, 0, 0, 0, 0]⟩, 1, [0, 0, 0, 1, 0, 0, 0, 0, 0],
          true⟩ = .ok (takion, handled) ∧
      ¬ RecheckCorrect default (fun _ => true) { takion with gkcryptRemote := zeroReceiver.gkcryptRemote } := by
  refine ⟨_, _, rfl, ?_⟩
  rintro ⟨takion', scan, done, -⟩
  have failed : Except.error Fault.nullPointer = Except.ok (takion', true, scan) := done
  cases failed

end Takion
end Chiaki
