import Chiaki.Takion.SendInvariant

/-!
# Packets that nobody resends

A number is taken before the packet is sent, and whether the send buffer takes the packet is not looked at.
-/

namespace Chiaki
open Machine

namespace SendSystem

/-! ## The numbers that were given out -/

def numbers (s : SendSystem) : List Nat := s.calls.filterMap (·.phase.seqNum)

/-- Each number from the first on went to one call, and the next one follows. -/
structure Numbered (first : Nat) (s : SendSystem) : Prop where
  shared : s.numbers.Perm ((List.range s.numbers.length).map fun p => (first + p) % 2 ^ 32)
  next : s.takion.seqNumLocal = (first + s.numbers.length) % 2 ^ 32

theorem filterMap_cons_toList {α β : Type} (f : α → Option β) (a : α) (l : List α) :
    (a :: l).filterMap f = (f a).toList ++ l.filterMap f := by
  cases here : f a <;> simp [here]

theorem filterMap_set_perm {α β : Type} (f : α → Option β) {l : List α} {i : Nat} {a : α} (a' : α)
    (here : l[i]? = some a) :
    ((l.set i a').filterMap f ++ (f a).toList).Perm (l.filterMap f ++ (f a').toList) := by
  induction l generalizing i with
  | nil => simp at here
  | cons b l ih =>
      cases i with
      | zero =>
          obtain rfl : b = a := by simpa using here
          rw [List.set_cons_zero, filterMap_cons_toList, filterMap_cons_toList, List.append_assoc (f b).toList]
          exact List.perm_append_comm.trans (List.perm_append_comm.append_left _)
      | succ i =>
          rw [List.set_cons_succ, filterMap_cons_toList, filterMap_cons_toList, List.append_assoc,
            List.append_assoc]
          exact (ih (by simpa using here)).append_left _

theorem Advance.seqNum_cases {takion takion' : TakionLocal} {id : Nat} {o : SendOutcome}
    {phase phase' : SendPhase} (h : Advance takion id o phase takion' phase') :
    phase'.seqNum = phase.seqNum ∧ takion'.seqNumLocal = takion.seqNumLocal ∨
      phase.seqNum = none ∧ phase'.seqNum = some takion.seqNumLocal ∧
        takion'.seqNumLocal = (takion.seqNumLocal + 1) % 2 ^ 32 := by
  cases h <;> simp [SendPhase.seqNum]

theorem Effect.numbers_cases {s s' : SendSystem} {op : Op} (effect : Effect s op s') :
    s'.numbers.Perm s.numbers ∧ s'.takion.seqNumLocal = s.takion.seqNumLocal ∨
      s'.numbers.Perm (s.numbers ++ [s.takion.seqNumLocal]) ∧
        s'.takion.seqNumLocal = (s.takion.seqNumLocal + 1) % 2 ^ 32 := by
  cases effect with
  | quiet quiet =>
      refine .inl ⟨?_, quiet.seqNumLocal⟩
      rw [numbers, numbers, quiet.calls]
  | call => exact .inl ⟨by simp [numbers, SendPhase.seqNum], rfl⟩
  | @advance i o call takion' phase' here advanced =>
      have swapped := filterMap_set_perm (fun call : SendCall => call.phase.seqNum)
        { call with phase := phase' } here
      dsimp only at swapped
      rcases advanced.seqNum_cases with ⟨same, next⟩ | ⟨fresh, given, next⟩
      · rw [same] at swapped
        exact .inl ⟨(List.perm_append_right_iff _).mp swapped, next⟩
      · rw [fresh, given, Option.toList_none, List.append_nil] at swapped
        exact .inr ⟨swapped, next⟩
  | _ => exact .inl ⟨List.Perm.refl _, rfl⟩

theorem Numbered.effect {first : Nat} {s s' : SendSystem} {op : Op} (h : Numbered first s)
    (effect : Effect s op s') : Numbered first s' := by
  rcases effect.numbers_cases with ⟨same, next⟩ | ⟨more, next⟩
  · have length := same.length_eq
    constructor
    · rw [length]
      exact same.trans h.shared
    · rw [next, length]
      exact h.next
  · have length := more.length_eq
    rw [List.length_append, List.length_singleton] at length
    constructor
    · rw [length, List.range_succ, List.map_append, List.map_singleton, ← h.next]
      exact more.trans (h.shared.append_right _)
    · rw [next, length, h.next, Nat.mod_add_mod, Nat.add_assoc]

/-! ## What a caller is promised -/

/-- A call that succeeded has a packet that is resent until it is acknowledged or given up, and a call that
failed has taken no number. -/
structure Reliable (first : Nat) (s : SendSystem) : Prop extends Numbered first s where
  kept : ∀ (i : Nat) (call : SendCall) (number : Option Nat), s.calls[i]? = some call →
    call.phase = .returned .success number →
    ∃ n, number = some n ∧ ((i, n) ∈ s.buffered ∨ i ∈ s.acknowledged ∨ i ∈ s.givenUp)
  unnumbered : ∀ (i : Nat) (call : SendCall) (err : ErrorCode) (number : Option Nat),
    s.calls[i]? = some call → call.phase = .returned err number → err ≠ .success → number = none

/-- The run goes out of no bounds and keeps the promise in every state. -/
def StaysReliable (lib : CryptoLib) (first : Nat) (s : SendSystem) (ops : List Op) : Prop :=
  ∀ done, done <+: ops → ∃ t os, run (step lib) s done = .ok (t, os) ∧ Reliable first t

/-- A numbered packet gets on the wire and into the buffer, unless it is acknowledged by then; and who gives
up a packet gives up no other. -/
def Dependable (s : SendSystem) : Op → Prop
  | .advance i o => ∀ call, s.calls[i]? = some call →
      match call.phase with
      | .numbered _ _ _ => o.lock = true
      | .authenticated _ _ => o.ok = true
      | .sent _ n => i ∈ s.acknowledged ∨ o.lock = true ∧ s.takion.sendBuffer.Takes n
      | _ => True
  | .ackGivenUp lock => ∀ now i n, s.resend = .acking now i n →
      (s.acked lock n).length ≤ 1 ∧ ∀ packet ∈ s.acked lock n,
        packet.tries ≥ takionDataResendTriesMax ∨ packet.buf.id ∈ s.acknowledged
  | _ => True

/-- What else holds in such a run. -/
structure Dependent (first : Nat) (s : SendSystem) : Prop extends WellFormed s, Reliable first s where
  control : ∀ (i : Nat) (call : SendCall) (packet : Bytes), s.calls[i]? = some call →
    (∃ keyPos, call.phase = .reserved packet keyPos) ∨ (∃ keyPos n, call.phase = .numbered packet keyPos n) →
    ControlPacket packet
  gaveUp : ∀ i ∈ s.givenUp, i ∉ s.buffered.map Prod.fst ∧
    ∃ call err number, s.calls[i]? = some call ∧ call.phase = .returned err number

theorem init_dependent (tagRemote : Nat) {first : Nat} (small : first < 2 ^ 32)
    (gkcryptLocal : Option GKCrypt) : Dependent first (init tagRemote first gkcryptLocal) where
  toWellFormed := init_wellFormed tagRemote first gkcryptLocal
  shared := by simp [numbers, init]
  next := (Nat.mod_eq_of_lt small).symm
  kept := by simp [init]
  unnumbered := by simp [init]
  control := by simp [init]
  gaveUp := by simp [init]

theorem Dependable.fits {s : SendSystem} {op : Op} (h : Dependable s op) : s.Fits op := by
  cases op with
  | ackGivenUp lock => exact fun now i n acking => (h now i n acking).1
  | _ => trivial

/-- A call after a step is a call from before, a new one, or the one that took the step. -/
theorem Effect.call_cases {s s' : SendSystem} {op : Op} (effect : Effect s op s') {i : Nat}
    {call' : SendCall} (here' : s'.calls[i]? = some call') :
    s.calls[i]? = some call' ∨ call'.phase = .start ∨
      ∃ o call takion', op = .advance i o ∧ s.calls[i]? = some call ∧
        Advance s.takion i o call.phase takion' call'.phase ∧ s'.takion = takion' := by
  cases effect with
  | quiet quiet => exact .inl (by rwa [quiet.calls] at here')
  | @call args =>
      dsimp only at here'
      by_cases old : i < s.calls.length
      · exact .inl (by rwa [List.getElem?_append_left old] at here')
      · rw [List.getElem?_append_right (Nat.le_of_not_lt old)] at here'
        obtain rfl := List.mem_singleton.mp (List.mem_of_getElem? here')
        exact .inr (.inl rfl)
  | @advance j o call takion' phase' here advanced =>
      by_cases same : j = i
      · subst same
        obtain ⟨inside, -⟩ := List.getElem?_eq_some_iff.mp here
        obtain rfl := Option.some.inj ((List.getElem?_set_self inside).symm.trans here')
        exact .inr (.inr ⟨o, call, takion', rfl, here, advanced, rfl⟩)
      · exact .inl (by rwa [List.getElem?_set_ne same] at here')
  | _ => exact .inl here'

theorem kept_or_acked {s : SendSystem} {lock : Bool} {seqNum i n : Nat} {buffer' : SendBuffer}
    (live : buffer'.live = s.kept lock seqNum) (here : (i, n) ∈ s.buffered) :
    (i, n) ∈ (s.withBuffer buffer').buffered ∨ ∃ packet ∈ s.acked lock seqNum, packet.buf.id = i := by
  obtain ⟨packet, there, same⟩ := List.mem_map.mp here
  obtain ⟨rfl, rfl⟩ := Prod.mk.inj same
  have left (member : packet ∈ s.kept lock seqNum) :
      (packet.buf.id, packet.seqNum) ∈ (s.withBuffer buffer').buffered :=
    List.mem_map_of_mem (by rwa [← live] at member)
  cases lock with
  | false => exact .inl (left there)
  | true =>
      cases covered : SendBuffer.covers seqNum packet with
      | false => exact .inl (left (List.mem_filter.mpr ⟨there, by simp [covered]⟩))
      | true => exact .inr ⟨packet, List.mem_filter.mpr ⟨there, covered⟩, rfl⟩

section Step
variable {first : Nat} {s s' : SendSystem} {op : Op} (h : Dependent first s) (dependable : Dependable s op)
  (effect : Effect s op s')
include h dependable effect

/-- A packet leaves the buffer only when it is acknowledged or given up itself. -/
theorem Dependent.still_kept {i n : Nat}
    (kept : (i, n) ∈ s.buffered ∨ i ∈ s.acknowledged ∨ i ∈ s.givenUp) :
    (i, n) ∈ s'.buffered ∨ i ∈ s'.acknowledged ∨ i ∈ s'.givenUp := by
  cases effect with
  | quiet quiet => rwa [quiet.buffered, quiet.acknowledged, quiet.givenUp]
  | call => exact kept
  | @advance j o call takion' phase' here advanced =>
      rcases kept with here | out
      · left
        generalize call.phase = phase at advanced
        cases advanced with
        | @push packet m buffer' _ _ live =>
            change (i, n) ∈ buffer'.live.map _
            rw [live, List.map_append]
            exact List.mem_append_left _ here
        | _ => exact here
      · exact .inr out
  | @dataAck payload lock cumulative buffer' parsed live =>
      rcases kept with here | acknowledged | gaveUp
      · rcases kept_or_acked live here with still | ⟨packet, acked, rfl⟩
        · exact .inl still
        · right
          left
          by_cases known : packet.buf.id ∈ s.acknowledged
          · exact List.mem_append_left _ known
          · exact List.mem_append_right _ (List.mem_filter.mpr ⟨h.acked_covered acked, by simpa using known⟩)
      · exact .inr (.inl (List.mem_append_left _ acknowledged))
      · exact .inr (.inr gaveUp)
  | @giveUp lock now j m buffer' acking live =>
      rcases kept with here | acknowledged | gaveUp
      · rcases kept_or_acked live here with still | ⟨packet, acked, rfl⟩
        · exact .inl still
        · rcases (dependable now j m acking).2 packet acked with tries | acknowledged
          · have own : packet ∈ (s.acked lock m).filter (·.tries ≥ takionDataResendTriesMax) :=
              List.mem_filter.mpr ⟨acked, by simpa using tries⟩
            exact .inr (.inr (List.mem_append_right _ (List.mem_map_of_mem own)))
          · exact .inr (.inl acknowledged)
      · exact .inr (.inl acknowledged)
      · exact .inr (.inr (List.mem_append_left _ gaveUp))

theorem Dependent.kept_effect {i : Nat} {call' : SendCall} {number : Option Nat}
    (here' : s'.calls[i]? = some call') (returned : call'.phase = .returned .success number) :
    ∃ n, number = some n ∧ ((i, n) ∈ s'.buffered ∨ i ∈ s'.acknowledged ∨ i ∈ s'.givenUp) := by
  rcases effect.call_cases here' with here | started | ⟨o, call, takion', rfl, here, advanced, takion⟩
  · obtain ⟨n, rfl, kept⟩ := h.kept i call' number here returned
    exact ⟨n, rfl, h.still_kept dependable effect kept⟩
  · rw [started] at returned
    cases returned
  · have allowed := dependable call here
    rw [returned] at advanced
    generalize phases : call.phase = phase at advanced allowed
    cases advanced with
    | refuse bad => exact absurd rfl bad
    | unauthenticated bad failed => exact absurd rfl bad
    | @push packet n buffer' locked takes live =>
        refine ⟨n, rfl, .inl ?_⟩
        rw [buffered, takion]
        dsimp only
        rw [live, List.map_append]
        exact List.mem_append_right _ (List.mem_singleton.mpr rfl)
    | @unpushed packet n failed =>
        rcases allowed with acknowledged | pushes
        · exact ⟨n, rfl, .inr (.inl (effect.acknowledged_mono i acknowledged))⟩
        · exact absurd pushes failed
    | stay =>
        obtain ⟨n, rfl, kept⟩ := h.kept i call number here phases
        exact ⟨n, rfl, h.still_kept dependable effect kept⟩

theorem Dependent.unnumbered_effect {i : Nat} {call' : SendCall} {err : ErrorCode} {number : Option Nat}
    (here' : s'.calls[i]? = some call') (returned : call'.phase = .returned err number)
    (failed : err ≠ .success) : number = none := by
  rcases effect.call_cases here' with here | started | ⟨o, call, takion', rfl, here, advanced, takion⟩
  · exact h.unnumbered i call' err number here returned failed
  · rw [started] at returned
    cases returned
  · have allowed := dependable call here
    rw [returned] at advanced
    generalize phases : call.phase = phase at advanced allowed
    cases advanced with
    | refuse => rfl
    | unnumbered => rfl
    | @unauthenticated packet keyPos n crypt err bad unlocked =>
        have control := h.control i call packet here (.inr ⟨keyPos, n, phases⟩)
        rw [unlocked control] at allowed
        cases allowed
    | unsent unsent =>
        rw [unsent] at allowed
        cases allowed
    | push => exact absurd rfl failed
    | unpushed => exact absurd rfl failed
    | stay => exact h.unnumbered i call err number here phases failed

end Step

section Keep
variable {first : Nat} {s s' : SendSystem} {op : Op} (h : Dependent first s) (effect : Effect s op s')
include h effect

theorem Dependent.control_effect {i : Nat} {call' : SendCall} {packet : Bytes}
    (here' : s'.calls[i]? = some call')
    (waiting : (∃ keyPos, call'.phase = .reserved packet keyPos) ∨
      ∃ keyPos n, call'.phase = .numbered packet keyPos n) : ControlPacket packet := by
  rcases effect.call_cases here' with here | started | ⟨o, call, takion', rfl, here, advanced, takion⟩
  · exact h.control i call' packet here waiting
  · simp [started] at waiting
  · generalize phases' : call'.phase = phase' at advanced waiting
    generalize phases : call.phase = phase at advanced
    cases advanced with
    | reserve control =>
        obtain rfl : _ = packet := by simpa using waiting
        exact control
    | @number before more keyPos =>
        obtain rfl : _ = packet := by simpa using waiting
        exact (h.control i call before here (.inl ⟨keyPos, phases⟩)).append more
    | _ => simp at waiting

theorem Dependent.gaveUp_effect {i : Nat} (member : i ∈ s'.givenUp) : i ∉ s'.buffered.map Prod.fst ∧
    ∃ call err number, s'.calls[i]? = some call ∧ call.phase = .returned err number := by
  have continues := effect.continues
  have stays : i ∈ s.givenUp → i ∉ s'.buffered.map Prod.fst ∧
      ∃ call err number, s'.calls[i]? = some call ∧ call.phase = .returned err number := by
    intro old
    obtain ⟨out, call, err, number, here, returned⟩ := h.gaveUp i old
    obtain ⟨call', here', -, still⟩ := continues i call here
    exact ⟨effect.stays_out here returned out, call', err, number, here', still err number returned⟩
  cases effect with
  | quiet quiet => exact stays (by rwa [quiet.givenUp] at member)
  | @giveUp lock now j m buffer' acking live =>
      rcases List.mem_append.mp member with old | new
      · exact stays old
      · obtain ⟨packet, own, rfl⟩ := List.mem_map.mp new
        have acked : packet.buf.id ∈ (s.acked lock m).map (·.buf.id) :=
          List.mem_map_of_mem (List.mem_filter.mp own).1
        refine ⟨h.gone live acked, ?_⟩
        obtain ⟨e, there, same⟩ := List.mem_map.mp (mem_buffered_of_acked acked)
        obtain ⟨call, here, returned⟩ := h.returned e there
        rw [same] at here
        exact ⟨call, _, _, here, returned⟩
  | _ => exact stays member

end Keep

theorem Dependent.effect {first : Nat} {s s' : SendSystem} {op : Op} (h : Dependent first s)
    (dependable : Dependable s op) (shaped : Shaped s') (effect : Effect s op s') : Dependent first s' where
  toWellFormed := h.toWellFormed.effect shaped effect
  toNumbered := h.toNumbered.effect effect
  kept _ _ _ here returned := h.kept_effect dependable effect here returned
  unnumbered _ _ _ _ here returned failed := h.unnumbered_effect dependable effect here returned failed
  control _ _ _ here waiting := h.control_effect effect here waiting
  gaveUp _ member := h.gaveUp_effect effect member

/-! ## And what every such run meets -/

section Converse
variable {lib : CryptoLib} {first : Nat} {s s' : SendSystem} {o' : Unit} (h : Dependent first s)
  (reliable : Reliable first s')
include h reliable

theorem Dependent.dependable_advance {i : Nat} {o : SendOutcome}
    (stepped : step lib s (.advance i o) = .ok (s', o')) : Dependable s (.advance i o) := by
  intro call here
  obtain ⟨takion', phase', advances, advanced⟩ := advance_cases lib s.takion i call o
  simp only [step, here, advances, ok_bind] at stepped
  obtain ⟨rfl, -⟩ := Prod.mk.inj (Except.ok.inj stepped)
  obtain ⟨inside, -⟩ := List.getElem?_eq_some_iff.mp here
  have here' : (s.calls.set i { call with phase := phase' })[i]? = some { call with phase := phase' } :=
    List.getElem?_set_self inside
  have kept := reliable.kept i { call with phase := phase' }
  have unnumbered := reliable.unnumbered i { call with phase := phase' }
  generalize phases : call.phase = phase at advanced
  cases advanced with
  | authenticate locked => exact locked
  | unauthenticated bad => cases unnumbered _ _ here' rfl bad
  | send taken => exact taken
  | unsent => cases unnumbered _ _ here' rfl (by decide)
  | push locked takes => exact .inr ⟨locked, takes⟩
  | @unpushed packet n failed =>
      obtain ⟨n', -, there | acknowledged | gaveUp⟩ := kept _ here' rfl
      · obtain ⟨call', here', returned⟩ := h.returned (i, n') there
        obtain rfl := Option.some.inj (here.symm.trans here')
        rw [phases] at returned
        cases returned
      · exact .inl acknowledged
      · obtain ⟨-, call', err, number, here', returned⟩ := h.gaveUp i gaveUp
        obtain rfl := Option.some.inj (here.symm.trans here')
        rw [phases] at returned
        cases returned
  | _ => trivial

theorem Dependent.dependable_giveUp {lock : Bool} (stepped : step lib s (.ackGivenUp lock) = .ok (s', o')) :
    Dependable s (.ackGivenUp lock) := by
  intro now i n acking
  have fits : (s.acked lock n).length ≤ 1 := by
    by_contra full
    simp only [step, acking, h.toShaped.ackBuffer_overrun (Nat.lt_of_not_le full)] at stepped
    cases stepped
  refine ⟨fits, fun packet acked => ?_⟩
  obtain ⟨buffer', done, live, -⟩ := h.toShaped.ackBuffer fits
  simp only [step, acking, done, ok_bind] at stepped
  obtain ⟨rfl, -⟩ := Prod.mk.inj (Except.ok.inj stepped)
  have member : packet.buf.id ∈ (s.acked lock n).map (·.buf.id) := List.mem_map_of_mem acked
  obtain ⟨e, there, same⟩ := List.mem_map.mp (mem_buffered_of_acked member)
  obtain ⟨call, here, returned⟩ := h.returned e there
  rw [same] at here
  obtain ⟨n', -, still | acknowledged | gaveUp⟩ := reliable.kept packet.buf.id call _ here returned
  · exact absurd (List.mem_map_of_mem still) (h.gone live member)
  · exact .inr acknowledged
  · left
    rcases List.mem_append.mp gaveUp with old | new
    · exact absurd (mem_buffered_of_acked member) (h.gaveUp _ old).1
    · obtain ⟨other, own, same⟩ := List.mem_map.mp new
      obtain ⟨acked', tries⟩ := List.mem_filter.mp own
      obtain rfl := List.inj_on_of_nodup_map (h.acked_nodup lock n) acked' acked same
      simpa using tries

end Converse

theorem Dependent.dependable {lib : CryptoLib} {first : Nat} {s s' : SendSystem} {op : Op} {o : Unit}
    (h : Dependent first s) (stepped : step lib s op = .ok (s', o)) (reliable : Reliable first s') :
    Dependable s op := by
  cases op with
  | advance i o => exact h.dependable_advance reliable stepped
  | ackGivenUp lock => exact h.dependable_giveUp reliable stepped
  | _ => trivial

theorem StaysReliable.tail {lib : CryptoLib} {first : Nat} {s s' : SendSystem} {op : Op} {o : Unit}
    {ops : List Op} (h : StaysReliable lib first s (op :: ops)) (stepped : step lib s op = .ok (s', o)) :
    StaysReliable lib first s' ops := by
  intro done inside
  obtain ⟨t, os, hrun, reliable⟩ := h (op :: done) (List.cons_prefix_cons.mpr ⟨rfl, inside⟩)
  obtain ⟨s'', o', os', stepped', rest, -⟩ := run_cons_inv hrun
  obtain ⟨rfl, -⟩ := Prod.mk.inj (Except.ok.inj (stepped.symm.trans stepped'))
  exact ⟨t, os', rest, reliable⟩

theorem Dependent.staysReliable_iff {lib : CryptoLib} {first : Nat} {s : SendSystem} {ops : List Op}
    (h : Dependent first s) : StaysReliable lib first s ops ↔ Along (step lib) Dependable s ops := by
  constructor
  · intro stays
    induction ops generalizing s with
    | nil => trivial
    | cons op ops ih =>
        obtain ⟨t, os, hrun, reliable⟩ := stays [op] ⟨ops, rfl⟩
        obtain ⟨s', o, os', stepped, rest, -⟩ := run_cons_inv hrun
        obtain ⟨rfl, -⟩ := Prod.mk.inj (Except.ok.inj rest)
        have dependable := h.dependable stepped reliable
        refine ⟨dependable, fun s'' o' stepped' => ?_⟩
        obtain ⟨shaped, effect⟩ := h.toShaped.step_inv lib stepped'
        exact ih (h.effect dependable shaped effect) (stays.tail stepped')
  · rintro dependable done ⟨left, rfl⟩
    have along := dependable.append
    obtain ⟨t, os, hrun, reached, -⟩ := run_invariant (Dependent first) (fun _ => True)
      (fun s op h dependable => by
        obtain ⟨s', stepped, shaped, effect⟩ := h.toShaped.step_ok lib op dependable.fits
        exact ⟨s', (), stepped, h.effect dependable shaped effect, trivial⟩) h along
    exact ⟨t, os, hrun, reached.toReliable⟩

/-- Numbers of senders are never lost in exactly the runs in which every step can be depended on. -/
theorem staysReliable_iff_dependable (lib : CryptoLib) (tagRemote : Nat) {first : Nat} (small : first < 2 ^ 32)
    (gkcryptLocal : Option GKCrypt) (ops : List Op) :
    StaysReliable lib first (init tagRemote first gkcryptLocal) ops ↔
      Along (step lib) Dependable (init tagRemote first gkcryptLocal) ops :=
  (init_dependent tagRemote small gkcryptLocal).staysReliable_iff

/-- A packet is sent, pushed and acknowledged. -/
theorem staysReliable_one_packet : StaysReliable default 7 (init 0 7 none)
    [.call (sendMessageData 1 1 []), .advance 0 ⟨true, true, true, 0⟩, .advance 0 ⟨true, true, true, 0⟩,
      .advance 0 ⟨true, true, true, 0⟩, .advance 0 ⟨true, true, true, 0⟩, .advance 0 ⟨true, true, true, 0⟩,
      .dataAck (htonl 7 ++ htonl 0 ++ htons 0 ++ htons 0) true] := by
  apply (staysReliable_iff_dependable default 0 (by decide) none _).mpr
  refine (along_cons rfl _).mpr ⟨trivial, ?_⟩
  refine (along_cons rfl _).mpr ⟨fun call here => ?_, ?_⟩
  · obtain rfl := Option.some.inj here
    trivial
  refine (along_cons rfl _).mpr ⟨fun call here => ?_, ?_⟩
  · obtain rfl := Option.some.inj here
    trivial
  refine (along_cons rfl _).mpr ⟨fun call here => ?_, ?_⟩
  · obtain rfl := Option.some.inj here
    rfl
  refine (along_cons rfl _).mpr ⟨fun call here => ?_, ?_⟩
  · obtain rfl := Option.some.inj here
    rfl
  refine (along_cons rfl _).mpr ⟨fun call here => ?_, ?_⟩
  · obtain rfl := Option.some.inj here
    exact .inr ⟨rfl, by decide, by decide⟩
  exact ⟨trivial, fun _ _ _ => trivial⟩

/-- The socket does not take the packet that was given number 7. -/
def lostNumber : List Op :=
  [.call (sendMessageData 1 1 []), .advance 0 ⟨true, true, true, 0⟩, .advance 0 ⟨true, true, true, 0⟩,
    .advance 0 ⟨true, true, true, 0⟩, .advance 0 ⟨true, false, true, 0⟩]

theorem not_staysReliable_lostNumber : ¬ StaysReliable default 7 (init 0 7 none) lostNumber := by
  intro stays
  obtain ⟨t, os, final, reliable⟩ := stays lostNumber (List.prefix_refl _)
  have ran : (run (step default) (init 0 7 none) lostNumber).map (fun r => r.1.calls.map (·.phase)) =
      .ok [.returned .network (some 7)] := by decide
  simp only [final, Except.map, Except.ok.injEq] at ran
  obtain ⟨call, calls, phase⟩ := List.map_eq_singleton_iff.mp ran
  have here : t.calls[0]? = some call := by rw [calls]; rfl
  cases reliable.unnumbered 0 call .network (some 7) here phase (by decide)

end SendSystem
end Chiaki
