import Chiaki.ReorderQueue.Runs
import Chiaki.Takion.Receive

/-!
# Delivery of data

The data queue hands out one position after the other. A packet has the position its number stands for
when it arrives.
-/

namespace Chiaki
open Machine Serial SlotWindow ReorderQueue

/-- The arguments of a call of `takion_handle_packet_message_data`, and whether there is memory for the entry. -/
structure DataPacket where
  packet : HeapBlock
  typeB : UInt8
  payload : Bytes
  alloc : Bool

namespace DataPacket

def seqNum (p : DataPacket) : Nat := ntoh (p.payload.take 4)

def entry (p : DataPacket) : TakionDataPacketEntry :=
  ⟨p.typeB, p.packet, p.payload, ntoh ((p.payload.drop 4).take 2)⟩

theorem seqNum_lt (p : DataPacket) : p.seqNum < 2 ^ 32 := by
  have size := List.length_take_le 4 p.payload
  exact (ntoh_lt _).trans_le (Nat.pow_le_pow_right (by decide) (by omega))

end DataPacket

/-- A packet that arrives when `base` is the next position. -/
structure Arrival where
  base : Nat
  packet : DataPacket

namespace Arrival

def distance (a : Arrival) : Nat := ahead (2 ^ 32) a.base a.packet.seqNum

def position (a : Arrival) : Nat := a.base + a.distance

/-- There is memory and room for it. -/
def Accepted (a : Arrival) : Prop := a.packet.alloc ∧ a.distance < 2 ^ takionReorderQueueSizeExp

theorem position_mod (a : Arrival) : a.position % 2 ^ 32 = a.packet.seqNum := by
  rw [position, distance, add_ahead (by decide), Nat.mod_eq_of_lt a.packet.seqNum_lt]

end Arrival

namespace Takion

def receiveData (takion : Takion) (p : DataPacket) : Checked (Takion × Handled) :=
  takion.handlePacketMessageData p.alloc p.packet p.typeB p.payload

/-- A payload with its header, and a number within less than half the circle of the next one. -/
def DataInReach (takion : Takion) (p : DataPacket) : Prop :=
  9 ≤ p.payload.length ∧ (ahead (2 ^ 32) takion.dataQueue.begin p.seqNum < 2 ^ 31 ∨
    ahead (2 ^ 32) p.seqNum takion.dataQueue.begin < 2 ^ 31)

instance (takion : Takion) (p : DataPacket) : Decidable (DataInReach takion p) :=
  inferInstanceAs (Decidable (_ ∧ (_ ∨ _)))

/-- The packets of a run, each with the position that was next when it arrived. -/
def arrivals (base : Nat) : List DataPacket → List Handled → List Arrival
  | p :: ps, out :: outs => ⟨base, p⟩ :: arrivals (base + out.pulled.length) ps outs
  | _, _ => []

def pulled (outs : List Handled) : List (Nat × TakionDataPacketEntry) := outs.flatMap Handled.pulled

/-! ## One call -/

/-- What was pulled and what waits, over the positions: everything that was accepted. -/
structure Delivery (initial : Nat) (past : List Arrival) (out : List (Nat × TakionDataPacketEntry))
    (w : Window TakionDataPacketEntry) : Prop where
  base : w.base = initial + out.length
  numbers : out.map Prod.fst = (List.range' initial out.length).map (· % 2 ^ 32)
  delivered : ∀ k p, out[k]? = some p →
    ∃ a ∈ past, a.Accepted ∧ a.position = initial + k ∧ a.packet.entry = p.2
  waiting : ∀ d e, w.slots[d]? = some (some e) →
    ∃ a ∈ past, a.Accepted ∧ a.position = w.base + d ∧ a.packet.entry = e
  kept : ∀ a ∈ past, a.Accepted → a.position < w.base ∨
    ∃ d e, a.position = w.base + d ∧ w.slots[d]? = some (some e)

theorem Delivery.init (initial : Nat) : Delivery initial [] [] ⟨initial, []⟩ := by
  constructor <;> simp

variable {initial : Nat} {past : List Arrival} {out : List (Nat × TakionDataPacketEntry)}
  {w : Window TakionDataPacketEntry}

theorem Delivery.keep (h : Delivery initial past out w) {a : Arrival}
    (already : a.Accepted → ∃ d e, a.position = w.base + d ∧ w.slots[d]? = some (some e)) :
    Delivery initial (past ++ [a]) out w := by
  obtain ⟨base, numbers, delivered, waiting, kept⟩ := h
  have more {P : Arrival → Prop} (found : ∃ b ∈ past, P b) : ∃ b ∈ past ++ [a], P b := by
    obtain ⟨b, member, property⟩ := found
    exact ⟨b, List.mem_append_left _ member, property⟩
  refine ⟨base, numbers, fun k p there => more (delivered k p there), fun d e there => more (waiting d e there), ?_⟩
  intro b member accepted
  rcases List.mem_append.mp member with early | new
  · exact kept b early accepted
  · obtain rfl := List.mem_singleton.mp new
    exact .inr (already accepted)

theorem Delivery.place (h : Delivery initial past out w) {a : Arrival} (here : a.base = w.base)
    (accepted : a.Accepted) : Delivery initial (past ++ [a]) out (w.place a.distance a.packet.entry) := by
  obtain ⟨base, numbers, delivered, waiting, kept⟩ := h
  have self : a ∈ past ++ [a] := List.mem_append_right _ List.mem_cons_self
  refine ⟨base, numbers, fun k p there => ?_, fun d e there => ?_, fun b member accepted' => ?_⟩
  · obtain ⟨b, member, property⟩ := delivered k p there
    exact ⟨b, List.mem_append_left _ member, property⟩
  · by_cases same : d = a.distance
    · subst same
      rw [Window.place_slot_self] at there
      refine ⟨a, self, accepted, by rw [Arrival.position, here]; rfl, by simpa using there⟩
    · rcases Window.place_slot there with same' | old
      · exact absurd same' same
      · obtain ⟨b, member, property⟩ := waiting d e old
        exact ⟨b, List.mem_append_left _ member, property⟩
  · rcases List.mem_append.mp member with early | new
    · rcases kept b early accepted' with before | ⟨d, e, there, slot⟩
      · exact .inl before
      · by_cases same : d = a.distance
        · exact .inr ⟨a.distance, a.packet.entry, by rw [there, same]; rfl, Window.place_slot_self _ _ _⟩
        · exact .inr ⟨d, e, there, Window.place_slot_ne _ same slot⟩
    · obtain rfl := List.mem_singleton.mp new
      exact .inr ⟨b.distance, b.packet.entry, by rw [Arrival.position, here]; rfl, Window.place_slot_self _ _ _⟩

theorem Delivery.push (h : Delivery initial past out w) {a : Arrival} (here : a.base = w.base)
    (memory : a.packet.alloc) : Delivery initial (past ++ [a]) out
      (w.push (2 ^ 32) (2 ^ takionReorderQueueSizeExp) .refuseNew a.packet.seqNum a.packet.entry).1 := by
  have distance : ahead (2 ^ 32) w.base a.packet.seqNum = a.distance := by rw [Arrival.distance, here]
  unfold Window.push
  rw [Window.lookup, distance]
  dsimp only
  split
  · rename_i behind
    refine h.keep fun accepted => ?_
    have near := accepted.2
    rw [takionReorderQueueSizeExp] at near
    omega
  · split
    · rename_i taken
      obtain ⟨e, slot⟩ := Option.isSome_iff_exists.mp taken
      rw [Option.join_eq_some_iff] at slot
      exact h.keep fun _ => ⟨a.distance, e, by rw [Arrival.position, here], slot⟩
    · split
      · rename_i near
        exact h.place here ⟨memory, near⟩
      · rename_i far
        exact h.keep fun accepted => absurd accepted.2 far

/-- A drained position as it is seen outside. -/
def seen (p : Nat × TakionDataPacketEntry) : Nat × TakionDataPacketEntry := (p.1 % 2 ^ 32, p.2)

theorem Delivery.drain (h : Delivery initial past out w) :
    Delivery initial past (out ++ (Window.drain w.base w.slots).2.map seen) (Window.drain w.base w.slots).1 := by
  obtain ⟨base, numbers, delivered, waiting, kept⟩ := h
  have base' := Window.drain_base w.base w.slots
  have slots := Window.drain_slots w.base w.slots
  have positions := Window.drain_positions w.base w.slots
  generalize Window.drain w.base w.slots = r at base' slots positions
  obtain ⟨w', taken⟩ := r
  dsimp only at base' slots positions ⊢
  constructor
  · rw [base', base, List.length_append, List.length_map, Nat.add_assoc]
  · rw [List.map_append, numbers, List.length_append, List.length_map, ← List.range'_append_1, List.map_append,
      ← base, ← positions, List.map_map, List.map_map]
    rfl
  · intro k p there
    rcases Nat.lt_or_ge k out.length with early | late
    · rw [List.getElem?_append_left early] at there
      exact delivered k p there
    · rw [List.getElem?_append_right late, List.getElem?_map] at there
      obtain ⟨p, found, rfl⟩ := Option.map_eq_some_iff.mp there
      obtain ⟨inside, -⟩ := List.getElem?_eq_some_iff.mp found
      obtain ⟨a, member, accepted, place, entry⟩ := waiting (k - out.length) p.2 (by
        rw [slots, List.getElem?_append_left (by simpa using inside), List.getElem?_map, found]
        rfl)
      exact ⟨a, member, accepted, by omega, entry⟩
  · intro d e there
    obtain ⟨a, member, accepted, place, entry⟩ := waiting (taken.length + d) e (by
      rw [slots, List.getElem?_append_right (by simp)]
      simpa using there)
    exact ⟨a, member, accepted, by rw [place, base', Nat.add_assoc], entry⟩
  · intro a member accepted
    rcases kept a member accepted with before | ⟨d, e, place, slot⟩
    · exact .inl (by omega)
    · by_cases out : d < taken.length
      · exact .inl (by omega)
      · refine .inr ⟨d - taken.length, e, by omega, ?_⟩
        rw [slots, List.getElem?_append_right (by simp; omega)] at slot
        simpa using slot

theorem pullAll_eq (fuel : Nat) {q : ReorderQueue TakionDataPacketEntry} {sizeExp : Nat} {policy : Policy}
    (sim : Sim32 sizeExp q ⟨policy, w⟩) (enough : w.slots.length ≤ fuel) :
    ∃ q', pullAll fuel q = .ok (q', (Window.drain w.base w.slots).2.map seen) ∧
      Sim32 sizeExp q' ⟨policy, (Window.drain w.base w.slots).1⟩ := by
  obtain ⟨base, slots⟩ := w
  dsimp only at enough ⊢
  induction fuel generalizing q base slots with
  | zero =>
      obtain rfl := List.length_eq_zero_iff.mp (Nat.le_zero.mp enough)
      exact ⟨q, rfl, sim⟩
  | succ fuel ih =>
      obtain ⟨q', taken, sim'⟩ := sim.pull
      unfold pullAll
      rw [taken, ok_bind]
      match slots with
      | some x :: rest =>
          obtain ⟨q'', drained, sim''⟩ := ih (base + 1) rest sim' (Nat.le_of_succ_le_succ enough)
          refine ⟨q'', ?_, sim''⟩
          simp only [Window.pull, Option.map_some, drained, ok_bind]
          rfl
      | none :: rest => exact ⟨q', rfl, sim'⟩
      | [] => exact ⟨q', rfl, sim'⟩

/-- The queue after a call: everything that can be pulled was. -/
def Drained (initial : Nat) (past : List Arrival) (out : List (Nat × TakionDataPacketEntry))
    (q : ReorderQueue TakionDataPacketEntry) : Prop :=
  ∃ w, Sim32 takionReorderQueueSizeExp q ⟨.refuseNew, w⟩ ∧ Delivery initial past out w ∧
    ∀ x rest, w.slots ≠ some x :: rest

theorem Drained.next_free {q : ReorderQueue TakionDataPacketEntry} (h : Drained initial past out q)
    {a : Arrival} (member : a ∈ past) (accepted : a.Accepted) : a.position ≠ initial + out.length := by
  obtain ⟨w, -, delivery, head⟩ := h
  intro next
  rw [← delivery.base] at next
  rcases delivery.kept a member accepted with early | ⟨d, e, place, slot⟩
  · omega
  · obtain rfl : d = 0 := by omega
    cases slots : w.slots with
    | nil => simp [slots] at slot
    | cons first rest =>
        rw [slots, List.getElem?_cons_zero] at slot
        exact head e rest (by rw [slots, Option.some.inj slot])

/-- What a call hands out follows from what it pulled. -/
structure HandsOut (cb : Bool) (handled : Handled) : Prop where
  events : handled.events = if cb then handled.pulled.filterMap (·.2.event) else []
  acks : handled.acks = (handled.pulled.getLast?.map fun p => p.1 % 2 ^ 32).toList

theorem flushDataQueue_eq {takion : Takion} (sim : Sim32 takionReorderQueueSizeExp takion.dataQueue ⟨.refuseNew, w⟩)
    (delivery : Delivery initial past out w) :
    ∃ q handled, takion.flushDataQueue = .ok ({ takion with dataQueue := q }, handled) ∧
      Drained initial past (out ++ handled.pulled) q ∧ HandsOut takion.cb handled ∧
      handled.pulled.length ≤ 2 ^ takionReorderQueueSizeExp := by
  obtain ⟨q, pulling, sim'⟩ := pullAll_eq takion.dataQueue.count sim (by rw [sim.rep.count_eq])
  have few : ((Window.drain w.base w.slots).2.map seen).length ≤ 2 ^ takionReorderQueueSizeExp := by
    have fits := sim.rep.fits
    rw [sim.size_eq, Window.drain_slots w.base w.slots, List.length_append, List.length_map] at fits
    rw [List.length_map]
    exact (Nat.le_add_right _ _).trans fits
  rw [flushDataQueue, pulling, ok_bind]
  exact ⟨q, _, rfl, ⟨_, sim', delivery.drain, Window.drain_head w.base w.slots⟩, ⟨rfl, rfl⟩, few⟩

theorem receiveData_eq {takion : Takion} (drained : Drained initial past out takion.dataQueue) {p : DataPacket}
    (reach : takion.DataInReach p) :
    ∃ q handled, takion.receiveData p = .ok ({ takion with dataQueue := q }, handled) ∧
      Drained initial (past ++ [⟨initial + out.length, p⟩]) (out ++ handled.pulled) q ∧
      HandsOut takion.cb handled ∧ handled.pulled.length ≤ 2 ^ takionReorderQueueSizeExp := by
  obtain ⟨w, sim, delivery, head⟩ := drained
  obtain ⟨header, near⟩ := reach
  rw [receiveData, handlePacketMessageData, if_neg (by omega)]
  cases memory : p.alloc with
  | false =>
      refine ⟨takion.dataQueue, {}, rfl, ⟨w, sim, ?_, head⟩, ?_, Nat.zero_le _⟩
      · rw [List.append_nil]
        exact delivery.keep fun accepted => by simp [Arrival.Accepted, memory] at accepted
      · constructor
        · cases takion.cb <;> rfl
        · rfl
  | true =>
      have reachable : PushOk (2 ^ 32) takion.dataQueue (.push p.seqNum p.entry) := by
        refine ⟨p.seqNum_lt, ?_⟩
        have begin_lt := sim.begin_lt
        have number_lt := p.seqNum_lt
        rw [ahead_of_lt (by decide) begin_lt number_lt] at near ⊢
        rw [ahead_of_lt (by decide) number_lt begin_lt] at near
        split_ifs at near ⊢ <;> omega
      obtain ⟨q, pushed, sim'⟩ := sim.push reachable
      have delivery' := delivery.push (a := ⟨initial + out.length, p⟩) delivery.base.symm memory
      obtain ⟨q', handled, flushed, drained, hands, few⟩ :=
        @flushDataQueue_eq _ _ _ _ { takion with dataQueue := q } sim' delivery'
      have read : read32 p.payload 0 = .ok p.seqNum := read32_eq (by omega)
      have read' : read16 p.payload 4 = .ok (ntoh ((p.payload.drop 4).take 2)) := read16_eq (by omega)
      let dropped := (w.push (2 ^ 32) (2 ^ takionReorderQueueSizeExp) .refuseNew p.seqNum p.entry).2
      refine ⟨q', { handled with freed := dropped.map (·.2.packet.id) ++ handled.freed }, ?_, drained,
        ⟨hands.events, hands.acks⟩, few⟩
      simp only [Bool.not_true, Bool.false_eq_true, if_false, read, read', ok_bind]
      rw [← DataPacket.entry, pushed, ok_bind, flushed]
      rfl

/-! ## Runs -/

theorem receiveData_run {takion : Takion} {packets : List DataPacket}
    (drained : Drained initial past out takion.dataQueue) (reach : Along receiveData DataInReach takion packets) :
    ∃ takion' outs, run receiveData takion packets = .ok (takion', outs) ∧ outs.length = packets.length ∧
      Drained initial (past ++ arrivals (initial + out.length) packets outs) (out ++ pulled outs) takion'.dataQueue ∧
      ∀ handled ∈ outs, HandsOut takion.cb handled := by
  induction packets generalizing takion past out with
  | nil => exact ⟨takion, [], rfl, rfl, by simpa [arrivals, pulled] using drained, by simp⟩
  | cons p packets ih =>
      obtain ⟨q, handled, received, drained', hands, -⟩ := receiveData_eq drained reach.1
      obtain ⟨takion', outs, done, length, drained'', rest⟩ := ih drained' (reach.2 _ _ received)
      refine ⟨takion', handled :: outs, by rw [run_cons_ok received, done]; rfl, by simp [length], ?_, ?_⟩
      · rw [List.length_append, ← Nat.add_assoc, List.append_assoc, List.append_assoc] at drained''
        exact drained''
      · intro other member
        rcases List.mem_cons.mp member with rfl | member
        · exact hands
        · exact rest other member

/-- What was pulled is the packets in the order of their positions from the initial one on, each from an arrival
of its own, up to the first position for which nothing was accepted. The callback got the events of these, and an
acknowledgement is for the last of them. -/
structure InOrder (cb : Bool) (initial : Nat) (packets : List DataPacket) (outs : List Handled) : Prop where
  consecutive : (pulled outs).map Prod.fst = (List.range' initial (pulled outs).length).map (· % 2 ^ 32)
  once : ∃ source : Fin (pulled outs).length → Nat, Function.Injective source ∧
    ∀ k, ∃ a, (arrivals initial packets outs)[source k]? = some a ∧
      ((pulled outs)[k]) = (a.packet.seqNum, a.packet.entry)
  complete : ∀ a ∈ arrivals initial packets outs, a.Accepted → a.position ≠ initial + (pulled outs).length
  events : outs.flatMap Handled.events = if cb then (pulled outs).filterMap (·.2.event) else []
  acks : ∀ handled, outs.getLast? = some handled → ∀ n ∈ handled.acks,
    (pulled outs).getLast?.map Prod.fst = some n

theorem events_of_handsOut {cb : Bool} {outs : List Handled} (hands : ∀ handled ∈ outs, HandsOut cb handled) :
    outs.flatMap Handled.events = if cb then (pulled outs).filterMap (·.2.event) else [] := by
  induction outs with
  | nil => cases cb <;> rfl
  | cons handled outs ih =>
      obtain ⟨now, later⟩ := List.forall_mem_cons.mp hands
      rw [List.flatMap_cons, ih later, now.events]
      cases cb with
      | false => rfl
      | true =>
          simp only [if_true, pulled, List.flatMap_cons, List.filterMap_append]

theorem Delivery.once (h : Delivery initial past out w) : ∃ source : Fin out.length → Nat,
    Function.Injective source ∧ ∀ k, ∃ a, past[source k]? = some a ∧ out[k] = (a.packet.seqNum, a.packet.entry) := by
  have found (k : Fin out.length) : ∃ (i : Nat) (a : Arrival), past[i]? = some a ∧ a.position = initial + k ∧
      a.packet.entry = out[k].2 := by
    obtain ⟨a, member, -, place, entry⟩ := h.delivered k out[k] (List.getElem?_eq_getElem k.isLt)
    obtain ⟨i, there⟩ := List.mem_iff_getElem?.mp member
    exact ⟨i, a, there, place, entry⟩
  choose source arrival there place entry using found
  refine ⟨source, fun k k' same => ?_, fun k => ⟨arrival k, there k, Prod.ext ?_ (entry k).symm⟩⟩
  · have samePlace : arrival k = arrival k' := by
      have first := there k
      rw [same, there k'] at first
      exact (Option.some.inj first).symm
    have left := place k
    have right := place k'
    rw [samePlace] at left
    exact Fin.ext (by omega)
  · have number := congrArg (·[k.val]?) h.numbers
    simp at number
    rw [← (arrival k).position_mod, place k]
    exact number

theorem acks_of_handsOut {cb : Bool} {outs : List Handled} (hands : ∀ handled ∈ outs, HandsOut cb handled)
    (numbers : (pulled outs).map Prod.fst = (List.range' initial (pulled outs).length).map (· % 2 ^ 32))
    {handled : Handled} (last : outs.getLast? = some handled) {n : Nat} (acked : n ∈ handled.acks) :
    (pulled outs).getLast?.map Prod.fst = some n := by
  obtain ⟨before, rfl⟩ := List.getLast?_eq_some_iff.mp last
  have split : pulled (before ++ [handled]) = pulled before ++ handled.pulled := by simp [pulled]
  rw [(hands handled (by simp)).acks, Option.mem_toList, Option.map_eq_some_iff] at acked
  obtain ⟨p, final, rfl⟩ := acked
  have final' : (pulled (before ++ [handled])).getLast? = some p := by
    rw [split, List.getLast?_append, final]
    rfl
  have number : p.1 ∈ (pulled (before ++ [handled])).map Prod.fst :=
    List.mem_map_of_mem (List.mem_of_getLast? final')
  rw [numbers] at number
  obtain ⟨position, -, same⟩ := List.mem_map.mp number
  rw [final', Option.map_some, ← same, Nat.mod_mod]

/-- The data queue hands out every packet once and in order, whatever is lost, duplicated or reordered. -/
theorem data_inOrder {takion : Takion} (initial_lt : initial < 2 ^ 32)
    (fresh : initDataQueue initial = some takion.dataQueue) {packets : List DataPacket}
    (reach : Along receiveData DataInReach takion packets) :
    ∃ takion' outs, run receiveData takion packets = .ok (takion', outs) ∧ outs.length = packets.length ∧
      ∀ n, InOrder takion.cb initial (packets.take n) (outs.take n) := by
  have drained : Drained initial [] [] takion.dataQueue := by
    obtain ⟨q, init, fresh⟩ := Option.map_eq_some_iff.mp fresh
    rw [← fresh]
    exact ⟨⟨initial, []⟩, init32_sim init initial_lt, .init initial, by simp⟩
  obtain ⟨takion', outs, done, length, -, -⟩ := receiveData_run drained reach
  refine ⟨takion', outs, done, length, fun n => ?_⟩
  have reach' : Along receiveData DataInReach takion (packets.take n) := by
    rw [← List.take_append_drop n packets] at reach
    exact reach.append
  obtain ⟨_, outs', done', -, drained', hands⟩ := receiveData_run drained reach'
  obtain ⟨_, before⟩ := run_take done n
  rw [before] at done'
  obtain ⟨-, rfl⟩ := Prod.mk.inj (Except.ok.inj done')
  rw [List.nil_append, List.nil_append, List.length_nil, Nat.add_zero] at drained'
  have next (a : Arrival) (member : a ∈ arrivals initial (packets.take n) (outs.take n)) (accepted : a.Accepted) :=
    drained'.next_free member accepted
  obtain ⟨w, -, delivery, -⟩ := drained'
  refine ⟨delivery.numbers, delivery.once, next, events_of_handsOut hands, ?_⟩
  intro handled last n acked
  exact acks_of_handsOut hands delivery.numbers last acked

/-- Two packets that change places. -/
theorem data_inOrder_swapped :
    ∃ takion' outs, run receiveData zeroReceiver
        [⟨⟨0, []⟩, 1, [0, 0, 0, 1, 0, 0, 0, 0, 9], true⟩, ⟨⟨1, []⟩, 1, [0, 0, 0, 0, 0, 0, 0, 0, 0], true⟩] =
          .ok (takion', outs) ∧ outs.length = 2 ∧
      ∀ n, InOrder false 0 (List.take n
        [⟨⟨0, []⟩, 1, [0, 0, 0, 1, 0, 0, 0, 0, 9], true⟩, ⟨⟨1, []⟩, 1, [0, 0, 0, 0, 0, 0, 0, 0, 0], true⟩])
        (outs.take n) :=
  data_inOrder (by decide) rfl (by decide)

end Takion
end Chiaki
