import Chiaki.Takion.DataDelivery

/-!
# Acknowledging a packet again

An acknowledgement is sent for what a call pulled. A packet that was pulled before pulls nothing.
-/

namespace Chiaki
open Machine Serial SlotWindow ReorderQueue

/-- An acknowledgement is for its number and all those before it. -/
def Covers (ack number : Nat) : Prop := ahead (2 ^ 32) number ack < 2 ^ 31

namespace Takion

def Reacknowledged (takion : Takion) (p : DataPacket) : Prop :=
  ∃ takion' handled, takion.receiveData p = .ok (takion', handled) ∧ ∃ ack ∈ handled.acks, Covers ack p.seqNum

/-- Every packet of a run whose number has been pulled before is acknowledged again. -/
def Reacknowledges (takion : Takion) (packets : List DataPacket) : Prop :=
  ∀ done p, done ++ [p] <+: packets → ∀ t outs, run receiveData takion done = .ok (t, outs) →
    9 ≤ p.payload.length → p.seqNum ∈ (pulled outs).map Prod.fst → t.Reacknowledged p

variable {initial : Nat} {past : List Arrival} {out more : List (Nat × TakionDataPacketEntry)}
  {q q' : ReorderQueue TakionDataPacketEntry}

theorem Drained.begin_eq (h : Drained initial past out q) : q.begin = (initial + out.length) % 2 ^ 32 := by
  obtain ⟨w, sim, delivery, -⟩ := h
  rw [sim.begin_eq, delivery.base]

theorem Drained.first (h : Drained initial past (out ++ more) q) (some_more : more ≠ []) :
    ∃ a ∈ past, a.Accepted ∧ a.position = initial + out.length := by
  obtain ⟨w, -, delivery, -⟩ := h
  cases more with
  | nil => exact absurd rfl some_more
  | cons p rest =>
      obtain ⟨a, member, accepted, place, -⟩ := delivery.delivered out.length p (by simp)
      exact ⟨a, member, accepted, place⟩

theorem Drained.nothing_more (before : Drained initial past out q) (after : Drained initial past (out ++ more) q') :
    more = [] := by
  by_contra some_more
  obtain ⟨a, member, accepted, place⟩ := after.first some_more
  exact before.next_free member accepted place

theorem Drained.more_iff {a : Arrival} (before : Drained initial past out q)
    (after : Drained initial (past ++ [a]) (out ++ more) q') (base : a.base = initial + out.length) :
    more ≠ [] ↔ a.packet.alloc ∧ a.distance = 0 := by
  constructor
  · intro some_more
    obtain ⟨b, member, accepted, place⟩ := after.first some_more
    rcases List.mem_append.mp member with early | new
    · exact absurd place (before.next_free early accepted)
    · obtain rfl := List.mem_singleton.mp new
      rw [Arrival.position, base] at place
      exact ⟨accepted.1, by omega⟩
  · rintro ⟨memory, here⟩ rfl
    have accepted : a.Accepted := ⟨memory, by rw [here]; decide⟩
    apply after.next_free (List.mem_append_right _ List.mem_cons_self) accepted
    rw [List.append_nil, Arrival.position, here, base, Nat.add_zero]

theorem Drained.covers {number : Nat} (after : Drained initial past (out ++ more) q) (few : more.length < 2 ^ 31)
    (first : number % 2 ^ 32 = (initial + out.length) % 2 ^ 32) {p : Nat × TakionDataPacketEntry}
    (last : more.getLast? = some p) : Covers (p.1 % 2 ^ 32) number := by
  obtain ⟨w, -, delivery, -⟩ := after
  obtain ⟨rest, rfl⟩ := List.getLast?_eq_some_iff.mp last
  have numbers := congrArg (·[out.length + rest.length]?) delivery.numbers
  have place : out ++ (rest ++ [p]) = out ++ rest ++ [p] := (List.append_assoc _ _ _).symm
  simp only [place, List.map_append, List.map_cons, List.map_nil] at numbers
  rw [List.getElem?_append_right (by simp), List.getElem?_map, List.getElem?_range' (by simp)] at numbers
  simp only [List.length_append, List.length_map, Nat.sub_self, List.getElem?_cons_zero, Option.map_some,
    Option.some.injEq] at numbers
  rw [List.length_append, List.length_singleton] at few
  have same : p.1 % 2 ^ 32 % 2 ^ 32 = (number + rest.length) % 2 ^ 32 := by
    rw [numbers]
    omega
  rw [Covers, ahead_congr rfl same, ahead_add_right (by decide) _ (by omega)]
  omega

/-! ## One call -/

/-- What a call does to a queue from which everything was pulled. -/
structure Answers (initial : Nat) (out : List (Nat × TakionDataPacketEntry)) (takion : Takion) (p : DataPacket)
    (takion' : Takion) (handled : Handled) : Prop where
  drained : ∃ past, Drained initial past (out ++ handled.pulled) takion'.dataQueue
  acks : (∃ ack ∈ handled.acks, Covers ack p.seqNum) ↔
    9 ≤ p.payload.length ∧ p.alloc ∧ p.seqNum = takion.dataQueue.begin

theorem Answers.idle {takion takion' : Takion} {p : DataPacket} {handled : Handled}
    (drained : Drained initial past out takion'.dataQueue) (nothing : handled.pulled = []) (no_ack : handled.acks = [])
    (other : ¬ (9 ≤ p.payload.length ∧ p.alloc ∧ p.seqNum = takion.dataQueue.begin)) :
    Answers initial out takion p takion' handled where
  drained := ⟨past, by rwa [nothing, List.append_nil]⟩
  acks := by simp [no_ack, other]

theorem HandsOut.no_acks {cb : Bool} {handled : Handled} (hands : HandsOut cb handled)
    (nothing : handled.pulled = []) : handled.acks = [] := by
  rw [hands.acks, nothing]
  rfl

section Receive
variable {takion : Takion} (drained : Drained initial past out takion.dataQueue) {p : DataPacket}
include drained

theorem receiveData_answers_near (reach : takion.DataInReach p) :
    ∃ takion' handled, takion.receiveData p = .ok (takion', handled) ∧
      Answers initial out takion p takion' handled := by
  obtain ⟨q, handled, received, drained', hands, few⟩ := receiveData_eq drained reach
  have next : p.seqNum = takion.dataQueue.begin ↔ (⟨initial + out.length, p⟩ : Arrival).distance = 0 := by
    rw [drained.begin_eq, Arrival.distance, ahead_eq_zero_iff (by decide), Nat.mod_eq_of_lt p.seqNum_lt, eq_comm]
  have pulls := drained.more_iff drained' rfl
  refine ⟨_, handled, received, ⟨_, drained'⟩, ?_⟩
  rw [next, hands.acks]
  constructor
  · rintro ⟨ack, member, -⟩
    have some_more : handled.pulled ≠ [] := by
      intro nothing
      simp [nothing] at member
    exact ⟨reach.1, pulls.mp some_more⟩
  · rintro ⟨-, accepted⟩
    have found := List.getLast?_eq_some_getLast (pulls.mpr accepted)
    generalize handled.pulled.getLast _ = last at found
    have first : p.seqNum % 2 ^ 32 = (initial + out.length) % 2 ^ 32 := by
      rw [next.mpr accepted.2, drained.begin_eq, Nat.mod_mod]
    refine ⟨last.1 % 2 ^ 32, by rw [found]; exact List.mem_singleton_self _, drained'.covers ?_ first found⟩
    exact few.trans_lt (by decide)

/-- A number opposite to the next one stops the program while the queue is empty, and else changes nothing. -/
theorem receiveData_answers_opposite (header : 9 ≤ p.payload.length) (memory : p.alloc = true)
    (opposite : 2 * ahead (2 ^ 32) takion.dataQueue.begin p.seqNum = 2 ^ 32) :
    takion.receiveData p = .error .assertion ∨
      ∃ takion' handled, takion.receiveData p = .ok (takion', handled) ∧
        Answers initial out takion p takion' handled := by
  have other : ¬ (9 ≤ p.payload.length ∧ p.alloc ∧ p.seqNum = takion.dataQueue.begin) := by
    rintro ⟨-, -, next⟩
    rw [next, ahead_self (by decide)] at opposite
    omega
  obtain ⟨w, sim, delivery, head⟩ := drained
  have pushed := sim.push_opposite p.entry opposite (sim.refuses rfl) (by rw [sim.size_eq]; decide)
  have read : read32 p.payload 0 = .ok p.seqNum := read32_eq (by omega)
  have read' : read16 p.payload 4 = .ok (ntoh ((p.payload.drop 4).take 2)) := read16_eq (by omega)
  rw [receiveData, handlePacketMessageData, if_neg (by omega), memory]
  simp only [Bool.not_true, Bool.false_eq_true, if_false, read, read', ok_bind]
  rw [← DataPacket.entry, pushed]
  by_cases empty : takion.dataQueue.count = 0
  · rw [if_pos empty]
    exact .inl rfl
  · rw [if_neg empty, ok_bind]
    obtain ⟨q, handled, flushed, drained', hands, -⟩ := flushDataQueue_eq sim delivery
    have nothing := Drained.nothing_more ⟨w, sim, delivery, head⟩ drained'
    rw [flushed, ok_bind]
    rw [nothing, List.append_nil] at drained'
    exact .inr ⟨_, _, rfl, .idle drained' nothing (hands.no_acks nothing) other⟩

theorem receiveData_answers (p : DataPacket) :
    (takion.receiveData p = .error .assertion ∧ p.seqNum ≠ takion.dataQueue.begin) ∨
      ∃ takion' handled, takion.receiveData p = .ok (takion', handled) ∧
        Answers initial out takion p takion' handled := by
  by_cases reach : takion.DataInReach p
  · exact .inr (receiveData_answers_near drained reach)
  by_cases short : p.payload.length < 9
  · refine .inr ⟨takion, {}, ?_, .idle drained rfl rfl fun next => by omega⟩
    rw [receiveData, handlePacketMessageData, if_pos short]
    rfl
  have header : 9 ≤ p.payload.length := Nat.not_lt.mp short
  cases memory : p.alloc with
  | false =>
      refine .inr ⟨takion, {}, ?_, .idle drained rfl rfl fun next => by simp [memory] at next⟩
      rw [receiveData, handlePacketMessageData, if_neg short, memory]
      rfl
  | true =>
      have begin_lt : takion.dataQueue.begin < 2 ^ 32 := by
        rw [drained.begin_eq]
        exact Nat.mod_lt _ (by decide)
      have number_lt := p.seqNum_lt
      have opposite : 2 * ahead (2 ^ 32) takion.dataQueue.begin p.seqNum = 2 ^ 32 := by
        have far := not_and.mp reach header
        rw [not_or, ahead_of_lt (by decide) begin_lt number_lt, ahead_of_lt (by decide) number_lt begin_lt] at far
        rw [ahead_of_lt (by decide) begin_lt number_lt]
        split_ifs at far ⊢ <;> omega
      rcases receiveData_answers_opposite drained header memory opposite with failed | answered
      · refine .inl ⟨failed, fun next => ?_⟩
        rw [next, ahead_self (by decide)] at opposite
        omega
      · exact .inr answered

end Receive

/-! ## Runs -/

theorem drained_run {takion t : Takion} {packets : List DataPacket} {outs : List Handled}
    (drained : Drained initial past out takion.dataQueue) (ran : run receiveData takion packets = .ok (t, outs)) :
    ∃ past, Drained initial past (out ++ pulled outs) t.dataQueue := by
  induction packets generalizing takion past out outs with
  | nil =>
      obtain ⟨rfl, rfl⟩ := Prod.mk.inj (Except.ok.inj ran)
      exact ⟨past, by simpa [pulled] using drained⟩
  | cons p packets ih =>
      obtain ⟨takion', handled, rest, received, later, rfl⟩ := run_cons_inv ran
      rcases receiveData_answers drained p with ⟨failed, -⟩ | ⟨_, _, received', answers⟩
      · cases failed.symm.trans received
      · obtain ⟨rfl, rfl⟩ := Prod.mk.inj (Except.ok.inj (received'.symm.trans received))
        obtain ⟨past', drained'⟩ := answers.drained
        obtain ⟨past'', drained''⟩ := ih drained' later
        exact ⟨past'', by rwa [List.append_assoc] at drained''⟩

theorem Drained.of_fresh {takion : Takion} (initial_lt : initial < 2 ^ 32)
    (fresh : initDataQueue initial = some takion.dataQueue) : Drained initial [] [] takion.dataQueue := by
  obtain ⟨q, init, fresh⟩ := Option.map_eq_some_iff.mp fresh
  rw [← fresh]
  exact ⟨⟨initial, []⟩, init32_sim init initial_lt, .init initial, by simp⟩

/-- A packet that was pulled is the next one again only after all numbers have been pulled. -/
theorem round_of_next {takion t : Takion} (initial_lt : initial < 2 ^ 32)
    (fresh : initDataQueue initial = some takion.dataQueue) {done : List DataPacket} {outs : List Handled}
    (ran : run receiveData takion done = .ok (t, outs)) {number : Nat}
    (again : number ∈ (pulled outs).map Prod.fst) (next : number = t.dataQueue.begin) :
    2 ^ 32 ≤ (pulled outs).length := by
  obtain ⟨past, drained⟩ := drained_run (.of_fresh initial_lt fresh) ran
  rw [List.nil_append] at drained
  rw [next, drained.begin_eq] at again
  obtain ⟨w, -, delivery, -⟩ := drained
  rw [delivery.numbers] at again
  obtain ⟨position, member, same⟩ := List.mem_map.mp again
  obtain ⟨low, high⟩ := List.mem_range'_1.mp member
  omega

/-- A packet that was pulled before is acknowledged again exactly if it is the next one again. -/
theorem reacknowledges_iff {takion : Takion} (initial_lt : initial < 2 ^ 32)
    (fresh : initDataQueue initial = some takion.dataQueue) (packets : List DataPacket) :
    Reacknowledges takion packets ↔ ∀ done p, done ++ [p] <+: packets →
      ∀ t outs, run receiveData takion done = .ok (t, outs) → 9 ≤ p.payload.length →
        p.seqNum ∈ (pulled outs).map Prod.fst → p.alloc ∧ p.seqNum = t.dataQueue.begin := by
  have here {done : List DataPacket} {t : Takion} {outs : List Handled} (p : DataPacket)
      (ran : run receiveData takion done = .ok (t, outs)) (header : 9 ≤ p.payload.length) :
      t.Reacknowledged p ↔ p.alloc ∧ p.seqNum = t.dataQueue.begin := by
    obtain ⟨past, drained⟩ := drained_run (.of_fresh initial_lt fresh) ran
    rcases receiveData_answers drained p with ⟨failed, other⟩ | ⟨takion', handled, received, answers⟩
    · constructor
      · rintro ⟨_, _, received, -⟩
        cases failed.symm.trans received
      · rintro ⟨-, next⟩
        exact absurd next other
    · constructor
      · rintro ⟨_, _, received', acked⟩
        obtain ⟨rfl, rfl⟩ := Prod.mk.inj (Except.ok.inj (received.symm.trans received'))
        exact (answers.acks.mp acked).2
      · intro next
        exact ⟨takion', handled, received, answers.acks.mpr ⟨header, next⟩⟩
  constructor
  · intro all done p before t outs ran header again
    exact (here p ran header).mp (all done p before t outs ran header again)
  · intro all done p before t outs ran header again
    exact (here p ran header).mpr (all done p before t outs ran header again)

/-- The packets 1 and 0, each for the first time. -/
def swappedPackets : List DataPacket :=
  [⟨⟨0, []⟩, 1, [0, 0, 0, 1, 0, 0, 0, 0, 9], true⟩, ⟨⟨1, []⟩, 1, [0, 0, 0, 0, 0, 0, 0, 0, 0], true⟩]

theorem reacknowledges_swapped : Reacknowledges zeroReceiver swappedPackets := by
  rw [@reacknowledges_iff 0 zeroReceiver (by decide) rfl]
  intro done p before t outs ran _ again
  have none : pulled outs = [] := by
    match done, before with
    | [], _ =>
        obtain ⟨-, rfl⟩ := Prod.mk.inj (Except.ok.inj ran)
        rfl
    | [first], before =>
        obtain ⟨rfl, -⟩ : first = swappedPackets[0] ∧ _ := List.cons_prefix_cons.mp before
        have outputs : (run receiveData zeroReceiver [swappedPackets[0]]).map (fun r => (pulled r.2).length) =
          .ok 0 := by decide +kernel
        rw [ran] at outputs
        exact List.length_eq_zero_iff.mp (Except.ok.inj outputs)
    | _ :: _ :: _, before => exact absurd before.length_le (by simp [swappedPackets])
  simp [none] at again

/-- A packet that comes twice. -/
def repeatedPacket : DataPacket := ⟨⟨0, []⟩, 1, [0, 0, 0, 0, 0, 0, 0, 0, 0], true⟩

theorem not_reacknowledges : ¬ Reacknowledges zeroReceiver [repeatedPacket, repeatedPacket] := by
  intro all
  have once : (run receiveData zeroReceiver [repeatedPacket]).map (fun r => (pulled r.2).map Prod.fst) =
      .ok [0] := by decide +kernel
  have twice : (run receiveData zeroReceiver [repeatedPacket, repeatedPacket]).map
      (fun r => r.2.map Handled.acks) = .ok [[0], []] := by decide +kernel
  cases first : zeroReceiver.receiveData repeatedPacket with
  | error fault =>
      rw [run_cons_error first] at once
      cases once
  | ok r =>
      obtain ⟨t, handled⟩ := r
      rw [run_cons_ok first] at once twice
      have again : (pulled [handled]).map Prod.fst = [0] := Except.ok.inj once
      obtain ⟨t', handled', received, ack, member, -⟩ := all [repeatedPacket] repeatedPacket List.prefix_rfl t [handled]
        (by rw [run_cons_ok first]; rfl) (by decide) (by rw [again]; decide)
      rw [run_cons_ok received] at twice
      have acks : [handled.acks, handled'.acks] = [[0], []] := Except.ok.inj twice
      obtain ⟨-, none⟩ : handled.acks = [0] ∧ handled'.acks = [] := by simpa using acks
      simp [none] at member

end Takion
end Chiaki
