import Chiaki.Takion.SendStep

/-!
# The big message in fragments

`stream_connection_send_big` of `streamconnection.c`, from the encoded message on. The first fragment has a header
that is longer by one byte. The last one carries a flag.
-/

namespace Chiaki
open Memory Machine

/-! ## A message as a whole -/

/-- What the steps of a call of `chiaki_takion_send_message_data` meet. -/
structure SendMessageOutcome where
  reserve : SendOutcome
  number : SendOutcome
  authenticate : SendOutcome
  send : SendOutcome
  push : SendOutcome

/-- A call that has returned, and the number it was given. -/
structure SentMessage where
  args : SendMessageArgs
  err : ErrorCode
  seqNum : Option Nat

/-- `chiaki_takion_send_message_data` and `chiaki_takion_send_message_data_cont`, with no other thread in between. -/
def TakionLocal.sendMessage (lib : CryptoLib) (o : SendMessageOutcome) (id : Nat) (takion : TakionLocal)
    (args : SendMessageArgs) : Checked (TakionLocal × SentMessage) := do
  let r ← SendSystem.advance lib takion id ⟨args, .start⟩ o.reserve
  let r ← SendSystem.advance lib r.1 id ⟨args, r.2⟩ o.number
  let r ← SendSystem.advance lib r.1 id ⟨args, r.2⟩ o.authenticate
  let r ← SendSystem.advance lib r.1 id ⟨args, r.2⟩ o.send
  let r ← SendSystem.advance lib r.1 id ⟨args, r.2⟩ o.push
  match r.2 with
  | .returned err seqNum => pure (r.1, ⟨args, err, seqNum⟩)
  | _ => .error .endless

/-- Messages are sent one after the other. -/
def sendStep (lib : CryptoLib) (o : Nat → SendMessageOutcome) (s : TakionLocal × Nat) (args : SendMessageArgs) :
    Checked ((TakionLocal × Nat) × SentMessage) := do
  let r ← s.1.sendMessage lib (o s.2) s.2 args
  pure ((r.1, s.2 + 1), r.2)

/-! ## The loop -/

structure BigSend where
  takion : TakionLocal
  first : Bool
  bufPos : Nat
  totalSize : Nat
  err : ErrorCode
  sent : List SentMessage

section Big
variable (lib : CryptoLib) (o : Nat → SendMessageOutcome)

/-- Send `size` bytes from `buf_pos` on. -/
def BigSend.fragment (message : Bytes) (chunkFlags : UInt8) (size : Nat) (s : BigSend) : Checked BigSend := do
  let buf ← field message s.bufPos size
  let args := if s.first then sendMessageData chunkFlags 1 buf else sendMessageDataCont chunkFlags 1 buf
  let r ← sendStep lib o (s.takion, s.sent.length) args
  pure { s with takion := r.1.1, err := r.2.err, sent := s.sent ++ [r.2] }

/-- The loop of `stream_connection_send_big`. -/
def BigSend.loop (mtu : Nat) (message : Bytes) : (fuel : Nat) → BigSend → Checked BigSend
  | 0, _ => .error .endless
  | fuel + 1, s =>
      if mtu < s.totalSize + 26 ∨ (mtu < s.totalSize + 25 ∧ !s.first) then do
        let bufSize := if s.first then sub32 mtu 26 else sub32 mtu 25
        let s ← s.fragment lib o message 0 bufSize
        loop mtu message fuel
          { s with first := false, bufPos := s.bufPos + bufSize, totalSize := s.totalSize - bufSize }
      else pure s

/-- `stream_connection_send_big`: what was sent, and the result. -/
def streamConnectionSendBig (takion : TakionLocal) (mtuIn mtuOut : Nat) (message : Bytes) :
    Checked (TakionLocal × List SentMessage × ErrorCode) := do
  let mtu := sub32 (if mtuIn < mtuOut then mtuIn else mtuOut) 50
  let s ← BigSend.loop lib o mtu message (message.length + 1) ⟨takion, true, 0, message.length, .success, []⟩
  let s ← if s.totalSize > 0 then s.fragment lib o message 1 s.totalSize else pure s
  pure (s.takion, s.sent, s.err)

end Big

/-! ## What is to be shown -/

/-- The size of the packet: its type, the header, the header of the data and the data. -/
def SendMessageArgs.packetSize (args : SendMessageArgs) : Nat :=
  1 + takionMessageHeaderSize + (8 + args.marker.length + args.buf.length)

/-- The numbers are given out one after the other. -/
def Consecutive (start : Nat) (numbers : List Nat) : Prop :=
  Follows (fun next _ => (next + 1) % 2 ^ 32) (fun next number => number = next) start numbers

/-- The fragments of a message for an MTU. -/
structure Fragmented (message : Bytes) (mtu : Nat) (fragments : List SendMessageArgs) : Prop where
  joined : fragments.flatMap (·.buf) = message
  framing : ∃ first rest, fragments = first :: rest ∧ first.packetSize = 26 + first.buf.length ∧
    ∀ fragment ∈ rest, fragment.packetSize = 25 + fragment.buf.length
  sizes : ∀ fragment ∈ fragments, fragment.packetSize ≤ mtu
  last : ∃ front last, fragments = front ++ [last] ∧ last.chunkFlags = 1 ∧ ∀ fragment ∈ front, fragment.chunkFlags = 0

/-- What was sent from a number on, and the result. -/
structure BigSent (message : Bytes) (mtu start : Nat) (sent : List SentMessage) (err : ErrorCode) : Prop where
  fragmented : Fragmented message mtu (sent.map (·.args))
  numbers : Consecutive start (sent.filterMap (·.seqNum))
  success : err = .success → ∀ fragment ∈ sent, fragment.err = .success

/-! ## When it holds -/

/-- Nothing is left for the last fragment. -/
def LeavesNothing (mtu length : Nat) : Prop := mtu - 26 < length ∧ mtu - 25 ∣ length - (mtu - 26)

/-- Messages are all taken if the last one is. -/
def TakesAll (lib : CryptoLib) (o : Nat → SendMessageOutcome) (takion : TakionLocal)
    (fragments : List SendMessageArgs) : Prop :=
  ∀ r front last, run (sendStep lib o) (takion, 0) fragments = .ok r → r.2 = front ++ [last] →
    last.err = .success → ∀ fragment ∈ front, fragment.err = .success

theorem SendMessageArgs.packetSize_eq (args : SendMessageArgs) (tagRemote keyPos seqNum : Nat) :
    (args.head tagRemote keyPos ++ args.message seqNum).length = args.packetSize := by
  simp only [head, message, packetSize, List.length_append, List.length_cons, length_writeMessageHeader, length_htonl,
    length_htons]
  omega

/-! ## A message is numbered -/

namespace SendPhase

def rank : SendPhase → Nat
  | .start => 0
  | .reserved _ _ => 1
  | .numbered _ _ _ => 2
  | .authenticated _ _ => 3
  | .sent _ _ => 4
  | .returned _ _ => 5

/-- A call that started at this number has taken it or not. -/
def Took (start : Nat) (takion : TakionLocal) (phase : SendPhase) : Prop :=
  (phase.seqNum = none ∧ takion.seqNumLocal = start) ∨
    (phase.seqNum = some start ∧ takion.seqNumLocal = (start + 1) % 2 ^ 32)

end SendPhase

namespace SendSystem
variable {takion takion' : TakionLocal} {id start : Nat} {o : SendOutcome} {phase phase' : SendPhase}

theorem Advance.rank (h : Advance takion id o phase takion' phase') : min 5 (phase.rank + 1) ≤ phase'.rank := by
  cases h <;> simp [SendPhase.rank]

theorem Advance.took (h : Advance takion id o phase takion' phase') (took : SendPhase.Took start takion phase) :
    SendPhase.Took start takion' phase' := by
  cases h with
  | reserve _ =>
      rcases took with ⟨-, same⟩ | ⟨numbered, -⟩
      · exact .inl ⟨rfl, same⟩
      · cases numbered
  | refuse _ =>
      rcases took with ⟨-, same⟩ | ⟨numbered, -⟩
      · exact .inl ⟨rfl, same⟩
      · cases numbered
  | number =>
      rcases took with ⟨-, same⟩ | ⟨numbered, -⟩
      · exact .inr ⟨congrArg some same, congrArg (fun n => (n + 1) % 2 ^ 32) same⟩
      · cases numbered
  | unnumbered =>
      rcases took with ⟨-, same⟩ | ⟨numbered, -⟩
      · exact .inl ⟨rfl, same⟩
      · cases numbered
  | _ => exact took

theorem sendMessage_ok (lib : CryptoLib) (o : SendMessageOutcome) (id : Nat) (takion : TakionLocal)
    (args : SendMessageArgs) : ∃ takion' err number, takion.sendMessage lib o id args = .ok (takion', ⟨args, err, number⟩) ∧
      ((number = none ∧ takion'.seqNumLocal = takion.seqNumLocal) ∨
        (number = some takion.seqNumLocal ∧ takion'.seqNumLocal = (takion.seqNumLocal + 1) % 2 ^ 32)) := by
  have start : SendPhase.Took takion.seqNumLocal takion .start := .inl ⟨rfl, rfl⟩
  obtain ⟨takion1, phase1, step1, case1⟩ := advance_cases lib takion id ⟨args, .start⟩ o.reserve
  obtain ⟨takion2, phase2, step2, case2⟩ := advance_cases lib takion1 id ⟨args, phase1⟩ o.number
  obtain ⟨takion3, phase3, step3, case3⟩ := advance_cases lib takion2 id ⟨args, phase2⟩ o.authenticate
  obtain ⟨takion4, phase4, step4, case4⟩ := advance_cases lib takion3 id ⟨args, phase3⟩ o.send
  obtain ⟨takion5, phase5, step5, case5⟩ := advance_cases lib takion4 id ⟨args, phase4⟩ o.push
  have took := case5.took (case4.took (case3.took (case2.took (case1.took start))))
  have last : 5 ≤ phase5.rank := by
    have rank1 := case1.rank
    have rank2 := case2.rank
    have rank3 := case3.rank
    have rank4 := case4.rank
    have rank5 := case5.rank
    simp only at rank1 rank2 rank3 rank4 rank5
    omega
  cases phase5 with
  | returned err number =>
      refine ⟨takion5, err, number, ?_, took⟩
      rw [TakionLocal.sendMessage, step1, ok_bind, step2, ok_bind, step3, ok_bind, step4, ok_bind, step5, ok_bind]
      rfl
  | _ => simp [SendPhase.rank] at last

end SendSystem

/-! ## Messages one after the other -/

theorem run_sendStep (lib : CryptoLib) (o : Nat → SendMessageOutcome) (takion : TakionLocal) (count : Nat)
    (fragments : List SendMessageArgs) :
    ∃ takion' sent, run (sendStep lib o) (takion, count) fragments = .ok ((takion', count + fragments.length), sent) ∧
      sent.map (·.args) = fragments ∧ Consecutive takion.seqNumLocal (sent.filterMap (·.seqNum)) := by
  induction fragments generalizing takion count with
  | nil => exact ⟨takion, [], rfl, rfl, trivial⟩
  | cons args fragments ih =>
      obtain ⟨takion1, err, number, sends, numbering⟩ := SendSystem.sendMessage_ok lib (o count) count takion args
      obtain ⟨takion', sent, later, same, numbers⟩ := ih takion1 (count + 1)
      have step : sendStep lib o (takion, count) args = .ok ((takion1, count + 1), ⟨args, err, number⟩) := by
        rw [sendStep, sends, ok_bind]
        rfl
      refine ⟨takion', ⟨args, err, number⟩ :: sent, ?_, by rw [List.map_cons, same], ?_⟩
      · rw [run_cons_ok step, later, List.length_cons, Nat.add_right_comm count 1, Nat.add_assoc]
        rfl
      · rcases numbering with ⟨rfl, kept⟩ | ⟨rfl, next⟩
        · rwa [List.filterMap_cons_none rfl, ← kept]
        · change Consecutive takion.seqNumLocal (takion.seqNumLocal :: sent.filterMap (·.seqNum))
          rw [next] at numbers
          exact ⟨rfl, numbers⟩

theorem run_sendStep_count {lib : CryptoLib} {o : Nat → SendMessageOutcome} {takion : TakionLocal} {count : Nat}
    {fragments : List SendMessageArgs} {r : (TakionLocal × Nat) × List SentMessage}
    (h : run (sendStep lib o) (takion, count) fragments = .ok r) : r.1.2 = count + r.2.length := by
  obtain ⟨takion', sent, ran, same, -⟩ := run_sendStep lib o takion count fragments
  obtain rfl := Except.ok.inj (h.symm.trans ran)
  dsimp only
  rw [← same, List.length_map]

/-! ## The fragments of a message -/

/-- `count` fragments that are as long as there is room for. -/
def fullFragments (capacity : Nat) : (count : Nat) → Bytes → List SendMessageArgs
  | 0, _ => []
  | count + 1, rest => sendMessageDataCont 0 1 (rest.take capacity) :: fullFragments capacity count (rest.drop capacity)

/-- What is left behind the full fragments, if there is anything, is marked as the end. -/
def endFragment (rest : Bytes) : List SendMessageArgs := if rest = [] then [] else [sendMessageDataCont 1 1 rest]

def bigFragments (mtu : Nat) (message : Bytes) : List SendMessageArgs :=
  if message.length + 26 ≤ mtu then [sendMessageData 1 1 message]
  else
    let rest := message.drop (mtu - 26)
    let count := rest.length / (mtu - 25)
    sendMessageData 0 1 (message.take (mtu - 26)) ::
      (fullFragments (mtu - 25) count rest ++ endFragment (rest.drop (count * (mtu - 25))))

/-- The state after messages that were sent. -/
def BigSend.after (s : BigSend) (bufPos totalSize : Nat) (r : (TakionLocal × Nat) × List SentMessage) : BigSend where
  takion := r.1.1
  first := false
  bufPos := bufPos
  totalSize := totalSize
  err := r.2.foldl (fun _ sent => sent.err) s.err
  sent := s.sent ++ r.2

section Loop
variable {lib : CryptoLib} {o : Nat → SendMessageOutcome} {mtu : Nat} {message : Bytes}

theorem fragment_eq {s : BigSend} {size : Nat} (inside : s.bufPos + size ≤ message.length) (chunkFlags : UInt8) :
    ∃ takion' sent, sendStep lib o (s.takion, s.sent.length)
        (if s.first then sendMessageData chunkFlags 1 ((message.drop s.bufPos).take size)
          else sendMessageDataCont chunkFlags 1 ((message.drop s.bufPos).take size)) =
          .ok ((takion', s.sent.length + 1), sent) ∧
      s.fragment lib o message chunkFlags size =
        .ok { s with takion := takion', err := sent.err, sent := s.sent ++ [sent] } := by
  have taken : s.fragment lib o message chunkFlags size = (do
      let r ← sendStep lib o (s.takion, s.sent.length)
        (if s.first then sendMessageData chunkFlags 1 ((message.drop s.bufPos).take size)
          else sendMessageDataCont chunkFlags 1 ((message.drop s.bufPos).take size))
      pure { s with takion := r.1.1, err := r.2.err, sent := s.sent ++ [r.2] }) := by
    rw [BigSend.fragment, field_eq inside, ok_bind]
  generalize (if s.first then sendMessageData chunkFlags 1 ((message.drop s.bufPos).take size)
    else sendMessageDataCont chunkFlags 1 ((message.drop s.bufPos).take size)) = args at taken ⊢
  obtain ⟨takion', err, number, sends, -⟩ := SendSystem.sendMessage_ok lib (o s.sent.length) s.sent.length s.takion args
  have step : sendStep lib o (s.takion, s.sent.length) args = .ok ((takion', s.sent.length + 1), ⟨args, err, number⟩) := by
    rw [sendStep, sends, ok_bind]
    rfl
  refine ⟨takion', _, step, ?_⟩
  rw [taken, step, ok_bind]
  rfl

theorem loop_eq (small : mtu < 2 ^ 32) (room : 26 ≤ mtu) {count : Nat} {s : BigSend} (going : s.first = false)
    (size : s.totalSize = message.length - s.bufPos) (before : s.bufPos ≤ message.length)
    (full : s.totalSize / (mtu - 25) = count) {fuel : Nat} (enough : count < fuel) :
    ∃ r, run (sendStep lib o) (s.takion, s.sent.length)
        (fullFragments (mtu - 25) count (message.drop s.bufPos)) = .ok r ∧
      s.loop lib o mtu message fuel =
        .ok (s.after (s.bufPos + count * (mtu - 25)) (s.totalSize - count * (mtu - 25)) r) := by
  have positive : 0 < mtu - 25 := by omega
  induction count generalizing s fuel with
  | zero =>
      obtain ⟨fuel, rfl⟩ := Nat.exists_eq_succ_of_ne_zero (Nat.ne_zero_of_lt enough)
      have rest : s.totalSize < mtu - 25 := (Nat.div_eq_zero_iff_lt positive).mp full
      have stops : ¬ (mtu < s.totalSize + 26 ∨ (mtu < s.totalSize + 25 ∧ !s.first)) := by
        rintro (more | ⟨more, -⟩) <;> omega
      refine ⟨_, rfl, ?_⟩
      rw [BigSend.loop, if_neg stops, BigSend.after, Nat.zero_mul, Nat.add_zero, Nat.sub_zero, List.append_nil, ← going]
      rfl
  | succ count ih =>
      obtain ⟨fuel, rfl⟩ := Nat.exists_eq_succ_of_ne_zero (Nat.ne_zero_of_lt enough)
      have long : mtu - 25 ≤ s.totalSize := by
        by_contra short
        rw [Nat.div_eq_of_lt (not_le.mp short)] at full
        cases full
      have goes : mtu < s.totalSize + 26 ∨ (mtu < s.totalSize + 25 ∧ !s.first) := .inl (by omega)
      obtain ⟨takion', sent, sends, fragment⟩ := @fragment_eq lib o message s (mtu - 25) (by omega) 0
      rw [going, if_neg (by decide)] at sends
      have fewer : (s.totalSize - (mtu - 25)) / (mtu - 25) = count := by
        rw [Nat.div_eq_sub_div positive long] at full
        exact Nat.succ.inj full
      obtain ⟨r, later, loop⟩ := @ih
        { s with takion := takion', err := sent.err, sent := s.sent ++ [sent], first := false,
                 bufPos := s.bufPos + (mtu - 25), totalSize := s.totalSize - (mtu - 25) } rfl
        (by dsimp only; omega) (by dsimp only; omega) fewer fuel (by omega)
      rw [List.length_append, List.length_singleton] at later
      refine ⟨(r.1, sent :: r.2), ?_, ?_⟩
      · rw [fullFragments, run_cons_ok sends, List.drop_drop, later]
        rfl
      · rw [BigSend.loop, if_pos goes, going]
        dsimp only
        rw [if_neg (by decide), @sub32_eq mtu 25 small (by omega), fragment, ok_bind, loop, BigSend.after, BigSend.after]
        simp only [List.append_assoc, List.singleton_append, List.foldl_cons, Nat.succ_mul]
        congr 2 <;> omega

/-- The loop and what follows it send the fragments of the message, and return the result of the last one. -/
theorem streamConnectionSendBig_eq {takion : TakionLocal} {mtuIn mtuOut : Nat} (smallIn : mtuIn < 2 ^ 32)
    (smallOut : mtuOut < 2 ^ 32) (size : min mtuIn mtuOut = mtu + 50) (room : 26 < mtu) (some_ : message ≠ []) :
    ∃ r, run (sendStep lib o) (takion, 0) (bigFragments mtu message) = .ok r ∧
      streamConnectionSendBig lib o takion mtuIn mtuOut message =
        .ok (r.1.1, r.2, r.2.foldl (fun _ sent => sent.err) .success) := by
  have least : sub32 (if mtuIn < mtuOut then mtuIn else mtuOut) 50 = mtu := by
    unfold sub32
    split <;> omega
  have small : mtu < 2 ^ 32 := by omega
  have positive : 0 < message.length := List.length_pos_iff.mpr some_
  unfold streamConnectionSendBig
  rw [least]
  dsimp only
  by_cases single : message.length + 26 ≤ mtu
  · have stops : ¬ (mtu < message.length + 26 ∨ (mtu < message.length + 25 ∧ (!true) = true)) := by
      rintro (more | ⟨-, going⟩)
      · omega
      · cases going
    obtain ⟨takion', sent, sends, fragment⟩ := @fragment_eq lib o message ⟨takion, true, 0, message.length, .success, []⟩
      message.length (Nat.zero_add _).le 1
    rw [if_pos rfl, List.drop_zero, List.take_length] at sends
    dsimp only [List.length_nil, List.nil_append] at sends fragment
    refine ⟨((takion', 1), [sent]), ?_, ?_⟩
    · rw [bigFragments, if_pos single, run_cons_ok sends]
      rfl
    · rw [BigSend.loop, if_neg stops]
      dsimp only [pure, Except.pure]
      rw [ok_bind, if_pos positive, fragment]
      rfl
  · have goes : mtu < message.length + 26 ∨ (mtu < message.length + 25 ∧ (!true) = true) := .inl (not_le.mp single)
    obtain ⟨takion', sent, sends, fragment⟩ := @fragment_eq lib o message ⟨takion, true, 0, message.length, .success, []⟩
      (mtu - 26) (by dsimp only; omega) 0
    rw [if_pos rfl, List.drop_zero] at sends
    dsimp only [List.length_nil, List.nil_append] at sends fragment
    have rest : (message.drop (mtu - 26)).length = message.length - (mtu - 26) := List.length_drop
    obtain ⟨count, counted⟩ : ∃ count, (message.length - (mtu - 26)) / (mtu - 25) = count := ⟨_, rfl⟩
    have fewer : count < message.length := counted ▸ (Nat.div_le_self _ _).trans_lt (by omega)
    have inside : count * (mtu - 25) ≤ message.length - (mtu - 26) := counted ▸ Nat.div_mul_le_self _ _
    obtain ⟨r, later, loop⟩ := @loop_eq lib o mtu message small room.le count
      ⟨takion', false, mtu - 26, message.length - (mtu - 26), sent.err, [sent]⟩ rfl rfl (by dsimp only; omega) counted
      message.length fewer
    dsimp only [BigSend.after, List.length_singleton] at later loop
    have reached := run_sendStep_count later
    rw [BigSend.loop, if_pos goes]
    dsimp only
    rw [if_pos rfl, sub32_eq small room.le, fragment, ok_bind]
    dsimp only [List.nil_append]
    rw [Nat.zero_add, loop, ok_bind, bigFragments, if_neg single]
    dsimp only
    rw [rest, counted, run_cons_ok sends, run_append, later, List.drop_drop]
    dsimp only
    by_cases left : message.length - (mtu - 26) - count * (mtu - 25) > 0
    · have more : message.drop (mtu - 26 + count * (mtu - 25)) ≠ [] := by
        rw [Ne, List.drop_eq_nil_iff]
        omega
      obtain ⟨takion'', final, sendsLast, fragmentLast⟩ := @fragment_eq lib o message
        ⟨r.1.1, false, mtu - 26 + count * (mtu - 25), message.length - (mtu - 26) - count * (mtu - 25),
          r.2.foldl (fun _ sent => sent.err) sent.err, [sent] ++ r.2⟩
        (message.length - (mtu - 26) - count * (mtu - 25)) (by dsimp only; omega) 1
      dsimp only at sendsLast fragmentLast
      rw [if_neg Bool.false_ne_true, List.take_of_length_le (by rw [List.length_drop]; omega), List.length_append,
        List.length_singleton, ← reached] at sendsLast
      rw [endFragment, if_neg more, run_cons_ok sendsLast, run_nil, if_pos left, fragmentLast]
      refine ⟨_, rfl, ?_⟩
      rw [ok_bind, List.foldl_cons, List.foldl_append]
      rfl
    · have none : message.drop (mtu - 26 + count * (mtu - 25)) = [] := by
        rw [List.drop_eq_nil_iff]
        omega
      rw [endFragment, if_pos none, run_nil, if_neg left]
      refine ⟨_, rfl, ?_⟩
      dsimp only
      rw [List.append_nil]
      rfl

end Loop

/-! ## The fragments are right -/

section Fragments
variable {capacity mtu : Nat} {rest message : Bytes}

theorem fullFragments_joined (count : Nat) :
    (fullFragments capacity count rest).flatMap (·.buf) = rest.take (count * capacity) := by
  induction count generalizing rest with
  | zero => simp [fullFragments]
  | succ count ih =>
      rw [fullFragments, List.flatMap_cons, ih, Nat.succ_mul, Nat.add_comm, List.take_add]
      rfl

theorem mem_fullFragments {count : Nat} {fragment : SendMessageArgs}
    (member : fragment ∈ fullFragments capacity count rest) :
    fragment.chunkFlags = 0 ∧ fragment.marker = [] ∧ fragment.buf.length ≤ capacity := by
  induction count generalizing rest with
  | zero => cases member
  | succ count ih =>
      rcases List.mem_cons.mp member with rfl | later
      · exact ⟨rfl, rfl, List.length_take_le _ _⟩
      · exact ih later

theorem endFragment_joined : (endFragment rest).flatMap (·.buf) = rest := by
  unfold endFragment
  split
  · rename_i none
    rw [none]
    rfl
  · exact List.append_nil rest

theorem mem_endFragment {fragment : SendMessageArgs} (member : fragment ∈ endFragment rest) :
    fragment = sendMessageDataCont 1 1 rest := by
  unfold endFragment at member
  split at member
  · cases member
  · exact List.mem_singleton.mp member

theorem packetSize_first (chunkFlags : UInt8) (buf : Bytes) :
    (sendMessageData chunkFlags 1 buf).packetSize = 26 + buf.length := by
  rw [SendMessageArgs.packetSize, sendMessageData, takionMessageHeaderSize]
  dsimp only [List.length_singleton]
  omega

theorem packetSize_cont {fragment : SendMessageArgs} (none : fragment.marker = []) :
    fragment.packetSize = 25 + fragment.buf.length := by
  rw [SendMessageArgs.packetSize, none, takionMessageHeaderSize, List.length_nil]
  omega

theorem bigFragments_joined : (bigFragments mtu message).flatMap (·.buf) = message := by
  unfold bigFragments
  split
  · exact List.append_nil message
  · dsimp only
    rw [List.flatMap_cons, List.flatMap_append, fullFragments_joined, endFragment_joined, List.take_append_drop]
    exact List.take_append_drop _ _

theorem bigFragments_framing (room : 26 < mtu) : ∃ first rest, bigFragments mtu message = first :: rest ∧
    first.packetSize = 26 + first.buf.length ∧
    (∀ fragment ∈ rest, fragment.packetSize = 25 + fragment.buf.length) ∧
    ∀ fragment ∈ first :: rest, fragment.packetSize ≤ mtu := by
  unfold bigFragments
  split
  · rename_i single
    refine ⟨_, [], rfl, packetSize_first _ _, by simp, ?_⟩
    rw [List.forall_mem_singleton, packetSize_first]
    omega
  · rename_i long
    dsimp only
    have positive : 0 < mtu - 25 := by omega
    have left := Nat.mod_lt (message.drop (mtu - 26)).length positive
    have rest (fragment : SendMessageArgs) (member : fragment ∈ fullFragments (mtu - 25)
        ((message.drop (mtu - 26)).length / (mtu - 25)) (message.drop (mtu - 26)) ++
        endFragment ((message.drop (mtu - 26)).drop ((message.drop (mtu - 26)).length / (mtu - 25) * (mtu - 25)))) :
        fragment.marker = [] ∧ fragment.buf.length ≤ mtu - 25 := by
      rcases List.mem_append.mp member with full | last
      · exact (mem_fullFragments full).2
      · obtain rfl := mem_endFragment last
        refine ⟨rfl, ?_⟩
        change (List.drop _ _).length ≤ _
        rw [List.length_drop, ← Nat.mod_eq_sub_div_mul]
        exact left.le
    refine ⟨_, _, rfl, packetSize_first _ _, fun fragment member => packetSize_cont (rest fragment member).1, ?_⟩
    intro fragment member
    rcases List.mem_cons.mp member with rfl | later
    · rw [packetSize_first, List.length_take]
      omega
    · have size := (rest fragment later).2
      rw [packetSize_cont (rest fragment later).1]
      omega

theorem bigFragments_last (room : 26 < mtu) :
    (∃ front last, bigFragments mtu message = front ++ [last] ∧ last.chunkFlags = 1 ∧
      ∀ fragment ∈ front, fragment.chunkFlags = 0) ↔ ¬ LeavesNothing mtu message.length := by
  unfold bigFragments LeavesNothing
  split
  · rename_i single
    exact iff_of_true ⟨[], _, rfl, rfl, by simp⟩ fun nothing => absurd nothing.1 (by omega)
  · rename_i long
    dsimp only
    have positive : 0 < mtu - 25 := by omega
    have size : (message.drop (mtu - 26)).length = message.length - (mtu - 26) := List.length_drop
    generalize message.drop (mtu - 26) = rest at *
    rw [← size]
    have full (fragment : SendMessageArgs) (member : fragment ∈ sendMessageData 0 1 (message.take (mtu - 26)) ::
        fullFragments (mtu - 25) (rest.length / (mtu - 25)) rest) : fragment.chunkFlags = 0 := by
      rcases List.mem_cons.mp member with rfl | later
      · rfl
      · exact (mem_fullFragments later).1
    rw [← List.cons_append]
    by_cases nothing : mtu - 25 ∣ rest.length
    · have none : rest.drop (rest.length / (mtu - 25) * (mtu - 25)) = [] := by
        rw [List.drop_eq_nil_iff, Nat.div_mul_cancel nothing]
      rw [none, endFragment, if_pos rfl, List.append_nil]
      refine iff_of_false ?_ fun something => something ⟨by omega, nothing⟩
      rintro ⟨front, last, same, marked, -⟩
      have unmarked := full last (same ▸ List.mem_append_right front (List.mem_singleton_self last))
      rw [unmarked] at marked
      cases marked
    · have some_ : rest.drop (rest.length / (mtu - 25) * (mtu - 25)) ≠ [] := by
        rw [Ne, List.drop_eq_nil_iff]
        intro short
        exact nothing ⟨rest.length / (mtu - 25), Nat.mul_comm _ _ ▸ le_antisymm short (Nat.div_mul_le_self _ _)⟩
      rw [endFragment, if_neg some_]
      exact iff_of_true ⟨_, _, rfl, rfl, full⟩ fun leaves => nothing leaves.2

end Fragments

/-! ## Big messages -/

/-- The result of the last one is the result of all exactly if they are all taken when the last one is. -/
theorem takesAll_iff {lib : CryptoLib} {o : Nat → SendMessageOutcome} {takion : TakionLocal}
    {fragments : List SendMessageArgs} {r : (TakionLocal × Nat) × List SentMessage}
    (ran : run (sendStep lib o) (takion, 0) fragments = .ok r) (nonempty : r.2 ≠ []) :
    (r.2.foldl (fun _ sent => sent.err) .success = .success → ∀ fragment ∈ r.2, fragment.err = .success) ↔
      TakesAll lib o takion fragments := by
  obtain ⟨front, last, split⟩ := (List.eq_nil_or_concat' r.2).resolve_left nonempty
  constructor
  · intro all r' front' last' ran' split' taken fragment member
    obtain rfl := Except.ok.inj (ran'.symm.trans ran)
    rw [split', List.foldl_append] at all
    exact all taken fragment (List.mem_append_left [last'] member)
  · intro all
    rw [split, List.foldl_append]
    intro taken fragment member
    rcases List.mem_append.mp member with before | at_
    · exact all r front last ran split taken fragment before
    · rw [List.mem_singleton.mp at_]
      exact taken

/-- A big message is sent as it should be exactly if something is left for the last fragment, and no fragment fails
before a last one that is taken. -/
theorem bigSent_iff (lib : CryptoLib) (o : Nat → SendMessageOutcome) (takion : TakionLocal) {mtuIn mtuOut : Nat}
    (leastIn : 526 ≤ mtuIn) (smallIn : mtuIn < 2 ^ 32) (leastOut : 526 ≤ mtuOut) (smallOut : mtuOut < 2 ^ 32)
    {message : Bytes} (some_ : message ≠ []) :
    ∃ takion' sent err, streamConnectionSendBig lib o takion mtuIn mtuOut message = .ok (takion', sent, err) ∧
      (BigSent message (min mtuIn mtuOut - 50) takion.seqNumLocal sent err ↔
        ¬ LeavesNothing (min mtuIn mtuOut - 50) message.length ∧
          TakesAll lib o takion (bigFragments (min mtuIn mtuOut - 50) message)) := by
  have room : 26 < min mtuIn mtuOut - 50 := by omega
  obtain ⟨takion', sent, ran, same, numbers⟩ :=
    run_sendStep lib o takion 0 (bigFragments (min mtuIn mtuOut - 50) message)
  obtain ⟨r, ran', sends⟩ := @streamConnectionSendBig_eq lib o (min mtuIn mtuOut - 50) message takion mtuIn mtuOut
    smallIn smallOut (by omega) room some_
  obtain rfl := Except.ok.inj (ran'.symm.trans ran)
  refine ⟨_, _, _, sends, ?_⟩
  obtain ⟨first, rest, split, firstSize, restSize, sizes⟩ := @bigFragments_framing _ message room
  have results : (sent.foldl (fun _ sent => sent.err) .success = .success → ∀ fragment ∈ sent, fragment.err = .success) ↔
      TakesAll lib o takion (bigFragments (min mtuIn mtuOut - 50) message) := by
    have nonempty : sent ≠ [] := by
      rintro rfl
      rw [split] at same
      cases same
    exact takesAll_iff ran nonempty
  rw [← results, ← bigFragments_last room, ← same]
  constructor
  · exact fun big => ⟨big.fragmented.last, big.success⟩
  · rintro ⟨last, success⟩
    refine ⟨⟨?_, ⟨first, rest, same.trans split, firstSize, restSize⟩, ?_, last⟩, numbers, success⟩
    · rw [same]
      exact bigFragments_joined
    · rw [same, split]
      exact sizes

/-- All goes well. -/
def goodSend : SendMessageOutcome where
  reserve := ⟨true, true, true, 0⟩
  number := ⟨true, true, true, 0⟩
  authenticate := ⟨true, true, true, 0⟩
  send := ⟨true, true, true, 0⟩
  push := ⟨true, true, true, 0⟩

def plainTakion : TakionLocal := ⟨0x1234, none, 0, 1, ⟨[], 0⟩⟩

def sevens (size : Nat) : Bytes := List.replicate size 7

theorem bigSent_of_500 : ∃ takion' sent err, streamConnectionSendBig default (fun _ => goodSend) plainTakion 1454 526
    (sevens 500) = .ok (takion', sent, err) ∧
    (BigSent (sevens 500) 476 1 sent err ↔
      ¬ LeavesNothing 476 (sevens 500).length ∧
        TakesAll default (fun _ => goodSend) plainTakion (bigFragments 476 (sevens 500))) :=
  bigSent_iff default (fun _ => goodSend) plainTakion (by decide) (by decide) (by decide) (by decide)
    (List.cons_ne_nil _ _)

/-- 450 bytes and 451 bytes: no fragment is marked as the last one. -/
theorem not_bigSent_of_901 : ∃ takion' sent err, streamConnectionSendBig default (fun _ => goodSend) plainTakion 526 526
    (sevens 901) = .ok (takion', sent, err) ∧ ¬ BigSent (sevens 901) 476 1 sent err := by
  obtain ⟨takion', sent, ran, same, -⟩ :=
    run_sendStep default (fun _ => goodSend) plainTakion 0 (bigFragments 476 (sevens 901))
  obtain ⟨r, ran', sends⟩ := @streamConnectionSendBig_eq default (fun _ => goodSend) 476 (sevens 901) plainTakion
    526 526 (by decide) (by decide) (by decide) (by decide) (List.cons_ne_nil _ _)
  obtain rfl := Except.ok.inj (ran'.symm.trans ran)
  refine ⟨_, _, _, sends, fun big => ?_⟩
  have marked := big.fragmented.last
  rw [same, bigFragments_last (by decide), sevens, List.length_replicate] at marked
  exact marked ⟨by decide, by decide⟩

end Chiaki
