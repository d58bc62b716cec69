import Chiaki.Rudp.Removal

/-!
# Giving up a packet

`takion_send_buffer_resend` and `rudp_send_buffer_resend`, the whole pass. A packet is given up by acknowledging its
number, which takes every packet before it along; the numbers go to a single variable.
-/

namespace Chiaki
open Memory

namespace SendBufferKind

def resendTimeoutMs : SendBufferKind → Nat
  | .takion => takionDataResendTimeoutMs
  | .rudp => rudpDataResendTimeoutMs

def resendTriesMax : SendBufferKind → Nat
  | .takion => takionDataResendTriesMax
  | .rudp => rudpDataResendTriesMax

theorem covers_self (kind : SendBufferKind) (packet : SendBufferPacket) : kind.covers packet.seqNum packet = true := by
  cases kind with
  | takion => simp [covers, SendBuffer.covers, SendBuffer.coversNumber]
  | rudp => simp [covers, rudpCovers]

theorem covers_congr (kind : SendBufferKind) (a : Nat) {packet packet' : SendBufferPacket}
    (same : packet'.seqNum = packet.seqNum) : kind.covers a packet' = kind.covers a packet := by
  cases kind with
  | takion => rw [covers, SendBuffer.covers, SendBuffer.covers, same]
  | rudp => rw [covers, rudpCovers, rudpCovers, same]

end SendBufferKind

namespace SendBufferPacket

/-- `now - packet->last_send_ms`, of unsigned numbers, is past the timeout. -/
def due (kind : SendBufferKind) (now : Nat) (packet : SendBufferPacket) : Bool :=
  (now + 2 ^ 64 - packet.lastSendMs) % 2 ^ 64 > kind.resendTimeoutMs

def exhausted (kind : SendBufferKind) (packet : SendBufferPacket) : Bool :=
  packet.tries ≥ kind.resendTriesMax

/-- The packet is to be given up. -/
def expired (kind : SendBufferKind) (now : Nat) (packet : SendBufferPacket) : Bool :=
  packet.due kind now && packet.exhausted kind

/-- The packet once it was sent again. -/
def retried (now : Nat) (packet : SendBufferPacket) : SendBufferPacket :=
  { packet with lastSendMs := now, tries := packet.tries + 1 }

@[simp] theorem seqNum_retried (now : Nat) (packet : SendBufferPacket) :
    (packet.retried now).seqNum = packet.seqNum := rfl

theorem due_retried (kind : SendBufferKind) (now : Nat) (packet : SendBufferPacket) :
    (packet.retried now).due kind now = false := by
  cases kind with
  | takion => simp [due, retried]
  | rudp => simp [due, retried]

end SendBufferPacket

/-- A pass with what it has sent so far. -/
structure ResendPass where
  buffer : SendBuffer
  sent : List HeapBlock
  deriving DecidableEq, Repr

namespace ResendPass

/-- The loop from index `i` on; `none` when the fuel does not suffice. After giving up, `i -= 1` and the `i++` of the
loop cancel. -/
def loop (kind : SendBufferKind) (now : Nat) : (fuel i : Nat) → ResendPass → Checked (Option ResendPass)
  | 0, _, _ => pure none
  | fuel + 1, i, pass =>
      if i < pass.buffer.packetsCount then do
        let packet ← inBounds pass.buffer.packets[i]?
        if packet.due kind now then
          if packet.exhausted kind then do
            -- `ack_seq_nums` is one variable
            let acked ← SendBuffer.ackOf kind pass.buffer packet.seqNum (some [0])
            loop kind now fuel i { pass with buffer := acked.buffer }
          else
            loop kind now fuel (i + 1)
              ⟨{ pass.buffer with packets := pass.buffer.packets.set i (packet.retried now) },
                pass.sent ++ [packet.buf]⟩
        else loop kind now fuel (i + 1) pass
      else pure (some pass)

end ResendPass

/-- `takion_send_buffer_resend`. -/
def takionSendBufferResend (now fuel : Nat) (buffer : SendBuffer) : Checked (Option ResendPass) :=
  ResendPass.loop .takion now fuel 0 ⟨buffer, []⟩

/-- `rudp_send_buffer_resend`. -/
def rudpSendBufferResend (now fuel : Nat) (buffer : SendBuffer) : Checked (Option ResendPass) :=
  ResendPass.loop .rudp now fuel 0 ⟨buffer, []⟩

/-! ## What a pass should do -/

/-- What may happen to a packet in one pass. -/
inductive Fate where
  | stays
  | resent
  | givenUp
  deriving DecidableEq

namespace Fate

def after (now : Nat) (packet : SendBufferPacket) : Fate → Option SendBufferPacket
  | .stays => some packet
  | .resent => some (packet.retried now)
  | .givenUp => none

def sends (packet : SendBufferPacket) : Fate → List HeapBlock
  | .resent => [packet.buf]
  | _ => []

end Fate

/-- The pass ends, and every packet has one fate in it; given up are only packets whose own tries are used up. -/
def GivesUpOnly (kind : SendBufferKind) (now : Nat) (buffer : SendBuffer) : Prop :=
  ∃ fuel pass, ResendPass.loop kind now fuel 0 ⟨buffer, []⟩ = .ok (some pass) ∧
    ∃ fates : List (SendBufferPacket × Fate), fates.map Prod.fst = buffer.live ∧
      (∀ f ∈ fates, f.2 = .givenUp → f.1.tries ≥ kind.resendTriesMax) ∧
      pass.buffer.live = fates.filterMap (fun f => f.2.after now f.1) ∧
      pass.sent = fates.flatMap fun f => f.2.sends f.1

/-- How two packets may stand in the buffer, one before the other: giving up one of them does not cover the other. -/
def Apart (kind : SendBufferKind) (now : Nat) (q p : SendBufferPacket) : Prop :=
  (q.expired kind now → ¬ kind.covers q.seqNum p) ∧
    (p.expired kind now → kind.covers p.seqNum q → q.expired kind now)

instance (kind : SendBufferKind) (now : Nat) (q p : SendBufferPacket) : Decidable (Apart kind now q p) :=
  inferInstanceAs (Decidable (_ ∧ _))

/-- No packet that is given up covers one that is still there. -/
def LoneGiveUps (kind : SendBufferKind) (now : Nat) (buffer : SendBuffer) : Prop :=
  buffer.live.Pairwise (Apart kind now)

instance (kind : SendBufferKind) (now : Nat) (buffer : SendBuffer) : Decidable (LoneGiveUps kind now buffer) :=
  inferInstanceAs (Decidable (List.Pairwise _ _))

namespace ResendPass

variable {kind : SendBufferKind} {now : Nat}

/-- What the code does to a packet that is not taken along. -/
def fate (kind : SendBufferKind) (now : Nat) (packet : SendBufferPacket) : Fate :=
  if packet.due kind now then if packet.exhausted kind then .givenUp else .resent else .stays

theorem tries_of_givenUp {packet : SendBufferPacket} (givenUp : fate kind now packet = .givenUp) :
    packet.tries ≥ kind.resendTriesMax := by
  unfold fate at givenUp
  split at givenUp
  · split at givenUp
    · exact of_decide_eq_true ‹_›
    · cases givenUp
  · cases givenUp

/-- The packets up to `i`, which have been looked at, and those still to come. -/
structure At (kind : SendBufferKind) (now : Nat) (buffer : SendBuffer) (i : Nat) (passed rest : List SendBufferPacket) :
    Prop where
  inside : buffer.packetsCount ≤ buffer.packets.length
  live_eq : buffer.live = passed ++ rest
  index : passed.length = i
  fresh : ∀ q ∈ passed, q.expired kind now = false

section At
variable {buffer : SendBuffer} {i : Nat} {passed rest : List SendBufferPacket} {packet : SendBufferPacket}

theorem At.count (at_ : At kind now buffer i passed rest) : buffer.packetsCount = i + rest.length := by
  have length := congrArg List.length at_.live_eq
  rw [SendBuffer.live, List.length_take, List.length_append, at_.index, min_eq_left at_.inside] at length
  exact length

theorem At.cell (at_ : At kind now buffer i passed (packet :: rest)) : buffer.packets[i]? = some packet := by
  have count := at_.count
  rw [List.length_cons] at count
  have here : buffer.live[i]? = some packet := by
    rw [at_.live_eq, ← at_.index, List.getElem?_append_right le_rfl, Nat.sub_self]
    rfl
  rwa [SendBuffer.live, List.getElem?_take_of_lt (by omega)] at here

theorem At.keep (at_ : At kind now buffer i passed (packet :: rest)) (keeps : packet.expired kind now = false) :
    At kind now buffer (i + 1) (passed ++ [packet]) rest where
  inside := at_.inside
  live_eq := by rw [at_.live_eq, List.append_assoc, List.singleton_append]
  index := by rw [List.length_append, at_.index, List.length_singleton]
  fresh q member := by
    rcases List.mem_append.mp member with old | new
    · exact at_.fresh q old
    · rwa [List.mem_singleton.mp new]

theorem expired_retried (packet : SendBufferPacket) : (packet.retried now).expired kind now = false := by
  rw [SendBufferPacket.expired, SendBufferPacket.due_retried, Bool.false_and]

theorem At.retry (at_ : At kind now buffer i passed (packet :: rest)) :
    At kind now { buffer with packets := buffer.packets.set i (packet.retried now) } (i + 1)
      (passed ++ [packet.retried now]) rest where
  inside := by
    rw [List.length_set]
    exact at_.inside
  live_eq := by
    have live := at_.live_eq
    rw [SendBuffer.live] at live
    rw [SendBuffer.live, List.take_set, live, ← at_.index, List.set_append_right _ _ le_rfl, Nat.sub_self,
      List.set_cons_zero, List.append_assoc, List.singleton_append]
  index := by rw [List.length_append, at_.index, List.length_singleton]
  fresh q member := by
    rcases List.mem_append.mp member with old | new
    · exact at_.fresh q old
    · rw [List.mem_singleton.mp new]
      exact expired_retried packet

/-- Nothing but the packet itself is covered by its number. -/
def Alone (kind : SendBufferKind) (packet : SendBufferPacket) (others : List SendBufferPacket) : Prop :=
  ∀ q ∈ others, ¬ kind.covers packet.seqNum q

theorem filter_alone (alone : Alone kind packet (passed ++ rest)) :
    (passed ++ packet :: rest).filter (kind.covers packet.seqNum) = [packet] ∧
      (passed ++ packet :: rest).filter (!kind.covers packet.seqNum ·) = passed ++ rest := by
  obtain ⟨front, back⟩ := List.forall_mem_append.mp alone
  have keep (l : List SendBufferPacket) (other : ∀ q ∈ l, ¬ kind.covers packet.seqNum q) :
      l.filter (!kind.covers packet.seqNum ·) = l :=
    List.filter_eq_self.mpr fun q member => by simpa using other q member
  constructor
  · rw [List.filter_append, List.filter_eq_nil_iff.mpr front, List.filter_cons_of_pos (kind.covers_self packet),
      List.filter_eq_nil_iff.mpr back, List.nil_append]
  · rw [List.filter_append, keep passed front, List.filter_cons_of_neg (by simp [kind.covers_self]), keep rest back]

theorem At.giveUp (at_ : At kind now buffer i passed (packet :: rest)) (alone : Alone kind packet (passed ++ rest)) :
    ∃ acked, SendBuffer.ackOf kind buffer packet.seqNum (some [0]) = .ok acked ∧
      At kind now acked.buffer i passed rest := by
  obtain ⟨removed, kept⟩ := filter_alone alone
  rw [← at_.live_eq] at removed kept
  have fits : (buffer.live.filter (kind.covers packet.seqNum)).length ≤ [0].length := by
    rw [removed]
    exact le_rfl
  obtain ⟨buffer', done, live, -, inside⟩ := SendBuffer.ackOf_eq kind packet.seqNum at_.inside fits
  exact ⟨_, done, inside, live.trans kept, at_.index, at_.fresh⟩

theorem At.overrun (at_ : At kind now buffer i passed (packet :: rest))
    (together : ¬ Alone kind packet (passed ++ rest)) :
    SendBuffer.ackOf kind buffer packet.seqNum (some [0]) = .error .outOfBounds := by
  simp only [Alone, not_forall, not_not] at together
  obtain ⟨q, member, covered⟩ := together
  apply SendBuffer.ackOf_overrun kind packet.seqNum at_.inside
  have count : 0 < (passed.filter (kind.covers packet.seqNum)).length + (rest.filter (kind.covers packet.seqNum)).length := by
    rw [← List.length_append, ← List.filter_append]
    exact List.length_pos_of_mem (List.mem_filter.mpr ⟨member, covered⟩)
  change 1 < _
  rw [at_.live_eq, List.filter_append, List.length_append, List.filter_cons_of_pos (kind.covers_self packet),
    List.length_cons]
  omega

/-! ## The condition along the pass -/

theorem apart_congr {q q' p : SendBufferPacket} (number : q'.seqNum = q.seqNum)
    (expired : q'.expired kind now = q.expired kind now) : Apart kind now q' p ↔ Apart kind now q p := by
  rw [Apart, Apart, number, expired, kind.covers_congr p.seqNum number]

theorem pairwise_replace {packet' : SendBufferPacket} (number : packet'.seqNum = packet.seqNum)
    (keeps : packet.expired kind now = false) (keeps' : packet'.expired kind now = false)
    (fresh : ∀ q ∈ passed, q.expired kind now = false) :
    (passed ++ packet' :: rest).Pairwise (Apart kind now) ↔ (passed ++ packet :: rest).Pairwise (Apart kind now) := by
  have ahead (p : SendBufferPacket) : Apart kind now packet' p ↔ Apart kind now packet p :=
    apart_congr number (keeps'.trans keeps.symm)
  have behind (p : SendBufferPacket) (keeps : p.expired kind now = false) : ∀ q ∈ passed, Apart kind now q p := by
    intro q member
    simp [Apart, fresh q member, keeps]
  simp only [List.pairwise_append, List.pairwise_cons, List.mem_cons, forall_eq_or_imp, ahead]
  refine and_congr_right fun _ => and_congr_right fun _ => forall₂_congr fun q member => ?_
  exact and_congr_left fun _ => iff_of_true (behind _ keeps' q member) (behind _ keeps q member)

theorem pairwise_giveUp (expired : packet.expired kind now = true) (fresh : ∀ q ∈ passed, q.expired kind now = false) :
    (passed ++ packet :: rest).Pairwise (Apart kind now) ↔
      Alone kind packet (passed ++ rest) ∧ (passed ++ rest).Pairwise (Apart kind now) := by
  have front (q : SendBufferPacket) (member : q ∈ passed) :
      Apart kind now q packet ↔ ¬ kind.covers packet.seqNum q := by
    simp [Apart, fresh q member, expired]
  have back (q : SendBufferPacket) : Apart kind now packet q ↔ ¬ kind.covers packet.seqNum q := by
    simp [Apart, expired]
  simp only [Alone, List.forall_mem_append, List.pairwise_append, List.pairwise_cons, List.mem_cons,
    forall_eq_or_imp, back]
  constructor
  · rintro ⟨among, ⟨behind, later⟩, across⟩
    exact ⟨⟨fun q member => (front q member).mp (across q member).1, behind⟩, among, later,
      fun q member => (across q member).2⟩
  · rintro ⟨⟨before, behind⟩, among, later, across⟩
    exact ⟨among, ⟨behind, later⟩, fun q member => ⟨(front q member).mpr (before q member), across q member⟩⟩

end At

/-! ## The pass -/

theorem filterMap_cons_toList {α β : Type} (f : α → Option β) (a : α) (l : List α) :
    (a :: l).filterMap f = (f a).toList ++ l.filterMap f := by
  cases h : f a with
  | none => rw [List.filterMap_cons_none h, Option.toList_none, List.nil_append]
  | some b => rw [List.filterMap_cons_some h, Option.toList_some, List.singleton_append]

/-- The packets that are still to come when the pass meets its condition. -/
theorem loop_eq (pass : ResendPass) {i : Nat} {passed rest : List SendBufferPacket}
    (at_ : At kind now pass.buffer i passed rest) (apart : (passed ++ rest).Pairwise (Apart kind now)) :
    ∃ pass', loop kind now (rest.length + 1) i pass = .ok (some pass') ∧
      pass'.buffer.live = passed ++ rest.filterMap (fun p => (fate kind now p).after now p) ∧
      pass'.sent = pass.sent ++ rest.flatMap fun p => (fate kind now p).sends p := by
  induction rest generalizing pass i passed with
  | nil =>
      have count := at_.count
      refine ⟨pass, ?_, at_.live_eq, by simp⟩
      rw [loop, if_neg (by simp [count])]
      rfl
  | cons packet rest ih =>
      have count := at_.count
      rw [List.length_cons] at count
      rw [List.length_cons, loop, if_pos (by omega), at_.cell, inBounds_some, ok_bind]
      cases due : packet.due kind now with
      | false =>
          have keeps : packet.expired kind now = false := by rw [SendBufferPacket.expired, due, Bool.false_and]
          have what : fate kind now packet = .stays := by simp [fate, due]
          rw [List.append_cons] at apart
          obtain ⟨pass', ended, live, sent⟩ := ih pass (at_.keep keeps) apart
          rw [if_neg Bool.false_ne_true]
          refine ⟨pass', ended, ?_, ?_⟩
          · rw [live, List.append_assoc, filterMap_cons_toList, what]
            rfl
          · rw [sent, List.flatMap_cons, what]
            rfl
      | true =>
          rw [if_pos rfl]
          cases exhausted : packet.exhausted kind with
          | false =>
              have keeps : packet.expired kind now = false := by
                rw [SendBufferPacket.expired, exhausted, Bool.and_false]
              have what : fate kind now packet = .resent := by simp [fate, due, exhausted]
              rw [← pairwise_replace (packet.seqNum_retried now) keeps (expired_retried packet) at_.fresh,
                List.append_cons] at apart
              obtain ⟨pass', ended, live, sent⟩ := ih ⟨_, pass.sent ++ [packet.buf]⟩ at_.retry apart
              rw [if_neg Bool.false_ne_true]
              refine ⟨pass', ended, ?_, ?_⟩
              · rw [live, List.append_assoc, filterMap_cons_toList, what]
                rfl
              · rw [sent, List.flatMap_cons, what, List.append_assoc]
                rfl
          | true =>
              have expired : packet.expired kind now = true := by rw [SendBufferPacket.expired, due, exhausted]; rfl
              have what : fate kind now packet = .givenUp := by simp [fate, due, exhausted]
              obtain ⟨alone, apart⟩ := (pairwise_giveUp expired at_.fresh).mp apart
              obtain ⟨acked, done, at'⟩ := at_.giveUp alone
              obtain ⟨pass', ended, live, sent⟩ := ih ⟨acked.buffer, pass.sent⟩ at' apart
              refine ⟨pass', ?_, ?_, ?_⟩
              · rw [if_pos rfl, done, ok_bind]
                exact ended
              · rw [live, filterMap_cons_toList, what]
                rfl
              · rw [sent, List.flatMap_cons, what]
                rfl

theorem apart_of_loop (pass : ResendPass) {fuel i : Nat} {pass' : ResendPass} {passed rest : List SendBufferPacket}
    (at_ : At kind now pass.buffer i passed rest) (ended : loop kind now fuel i pass = .ok (some pass')) :
    (passed ++ rest).Pairwise (Apart kind now) := by
  induction fuel generalizing pass i passed rest with
  | zero => cases ended
  | succ fuel ih =>
      have count := at_.count
      rw [loop] at ended
      cases rest with
      | nil =>
          rw [List.append_nil]
          refine List.pairwise_of_forall_mem_list fun q member p member' => ?_
          simp [Apart, at_.fresh q member, at_.fresh p member']
      | cons packet rest =>
          rw [List.length_cons] at count
          rw [if_pos (by omega), at_.cell, inBounds_some, ok_bind] at ended
          cases due : packet.due kind now with
          | false =>
              have keeps : packet.expired kind now = false := by rw [SendBufferPacket.expired, due, Bool.false_and]
              rw [due, if_neg Bool.false_ne_true] at ended
              rw [List.append_cons]
              exact ih pass (at_.keep keeps) ended
          | true =>
              rw [due, if_pos rfl] at ended
              cases exhausted : packet.exhausted kind with
              | false =>
                  have keeps : packet.expired kind now = false := by
                    rw [SendBufferPacket.expired, exhausted, Bool.and_false]
                  rw [exhausted, if_neg Bool.false_ne_true] at ended
                  rw [← pairwise_replace (packet.seqNum_retried now) keeps (expired_retried packet) at_.fresh,
                    List.append_cons]
                  exact ih _ at_.retry ended
              | true =>
                  have expired : packet.expired kind now = true := by
                    rw [SendBufferPacket.expired, due, exhausted]
                    rfl
                  rw [exhausted, if_pos rfl] at ended
                  rw [pairwise_giveUp expired at_.fresh]
                  by_cases alone : Alone kind packet (passed ++ rest)
                  · obtain ⟨acked, done, at'⟩ := at_.giveUp alone
                    rw [done, ok_bind] at ended
                    exact ⟨alone, ih _ at' ended⟩
                  · rw [at_.overrun alone] at ended
                    cases ended

/-- As long as nothing is given up the loop is the one that the threads interleave with. -/
theorem loop_eq_scanFrom (pass : ResendPass) {left i : Nat} {buffer : SendBuffer} {sent : List HeapBlock}
    (count : pass.buffer.packetsCount = i + left)
    (scanned : SendBuffer.scanFrom kind.resendTimeoutMs kind.resendTriesMax now left i pass.buffer pass.sent =
      .ok (buffer, sent, none)) : loop kind now (left + 1) i pass = .ok (some ⟨buffer, sent⟩) := by
  induction left generalizing pass i with
  | zero =>
      obtain ⟨rfl, rfl⟩ : pass.buffer = buffer ∧ pass.sent = sent := by
        simpa [SendBuffer.scanFrom, pure, Except.pure] using scanned
      rw [loop, if_neg (by omega)]
      rfl
  | succ left ih =>
      rw [SendBuffer.scanFrom] at scanned
      rw [loop, if_pos (by omega)]
      cases here : pass.buffer.packets[i]? with
      | none =>
          rw [here] at scanned
          cases scanned
      | some packet =>
          rw [here, inBounds_some, ok_bind] at scanned
          rw [inBounds_some, ok_bind]
          cases due : packet.due kind now with
          | false =>
              rw [if_neg (of_decide_eq_false due)] at scanned
              exact ih pass (by omega) scanned
          | true =>
              rw [if_pos (of_decide_eq_true due)] at scanned
              cases exhausted : packet.exhausted kind with
              | false =>
                  rw [if_neg (of_decide_eq_false exhausted)] at scanned
                  exact ih _ (by dsimp only; omega) scanned
              | true =>
                  rw [if_pos (of_decide_eq_true exhausted)] at scanned
                  cases scanned

end ResendPass

/-- A pass gives up nothing else exactly if no packet to give up covers another one. -/
theorem givesUpOnly_iff (kind : SendBufferKind) (now : Nat) (buffer : SendBuffer)
    (inside : buffer.packetsCount ≤ buffer.packets.length) :
    GivesUpOnly kind now buffer ↔ LoneGiveUps kind now buffer := by
  have start : ResendPass.At kind now buffer 0 [] buffer.live := ⟨inside, rfl, rfl, by simp⟩
  constructor
  · rintro ⟨fuel, pass, ended, -⟩
    exact ResendPass.apart_of_loop ⟨buffer, []⟩ start ended
  · intro lone
    obtain ⟨pass, ended, live, sent⟩ := ResendPass.loop_eq ⟨buffer, []⟩ start lone
    refine ⟨_, pass, ended, buffer.live.map fun p => (p, ResendPass.fate kind now p), ?_, ?_, ?_, ?_⟩
    · rw [List.map_map]
      exact List.map_id _
    · intro f member givenUp
      obtain ⟨p, -, rfl⟩ := List.mem_map.mp member
      exact ResendPass.tries_of_givenUp givenUp
    · rw [live, List.nil_append, List.filterMap_map, Function.comp_def]
    · rw [sent, List.flatMap_map]
      rfl

/-- The older of two packets is given up, the newer one has tries left. -/
def oldestFirst : SendBuffer where
  packets := [⟨4, 10, 0, ⟨1, []⟩⟩, ⟨5, 3, 0, ⟨2, []⟩⟩]
  packetsCount := 2

theorem givesUpOnly_oldestFirst : GivesUpOnly .takion 1000 oldestFirst :=
  (givesUpOnly_iff .takion 1000 oldestFirst (by decide)).mpr (by decide)

/-- Number 5 was pushed before number 4 and is given up. -/
def pushedLate : SendBuffer where
  packets := [⟨5, 10, 0, ⟨1, []⟩⟩, ⟨4, 0, 900, ⟨2, []⟩⟩]
  packetsCount := 2

theorem not_givesUpOnly : ¬ GivesUpOnly .takion 1000 pushedLate := by
  rintro ⟨fuel, pass, ended, -⟩
  have fails (fuel : Nat) : ResendPass.loop .takion 1000 (fuel + 1) 0 ⟨pushedLate, []⟩ = .error .outOfBounds := by
    have acked : SendBuffer.ackOf .takion pushedLate 5 (some [0]) = .error .outOfBounds := by decide
    exact (congrArg (fun r => r >>= fun acked : Acked =>
      ResendPass.loop .takion 1000 fuel 0 ⟨acked.buffer, []⟩) acked : _)
  cases fuel with
  | zero => cases ended
  | succ fuel =>
      rw [fails fuel] at ended
      cases ended

end Chiaki
