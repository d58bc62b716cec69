import Chiaki.Takion.SendStep

/-!
# What holds of the senders in every state

Every packet in the send buffer is that of a call that has returned success, under the number the call was
given; and only packets that were on the wire are acknowledged.
-/

namespace Chiaki
open Machine

namespace SendSystem

theorem mem_covered {s : SendSystem} {cumulative i : Nat} : i ∈ s.covered cumulative ↔
    ∃ call, s.calls[i]? = some call ∧ call.phase.onWire = true ∧
      ∃ n, call.phase.seqNum = some n ∧ SendBuffer.coversNumber cumulative n = true := by
  unfold covered
  rw [List.mem_filter, List.mem_range]
  constructor
  · rintro ⟨inside, covered⟩
    rw [List.getElem?_eq_getElem inside] at covered ⊢
    obtain ⟨wire, number⟩ := Bool.and_eq_true_iff.mp covered
    obtain ⟨n, here, covers⟩ := (Option.any_eq_true _ _).mp number
    exact ⟨_, rfl, wire, n, here, covers⟩
  · rintro ⟨call, here, wire, n, number, covers⟩
    obtain ⟨inside, -⟩ := List.getElem?_eq_some_iff.mp here
    refine ⟨inside, ?_⟩
    rw [here]
    simpa only [wire, number, Bool.true_and, Option.any_some] using covers

structure WellFormed (s : SendSystem) : Prop extends Shaped s where
  nodup : (s.buffered.map Prod.fst).Nodup
  returned : ∀ e ∈ s.buffered, ∃ call, s.calls[e.1]? = some call ∧
    call.phase = .returned .success (some e.2)
  wire : ∀ i ∈ s.acknowledged, ∃ call, s.calls[i]? = some call ∧ call.phase.onWire = true
  reported : ∀ e ∈ s.events, e.2 ∈ s.acknowledged

theorem init_wellFormed (tagRemote seqNumLocal : Nat) (gkcryptLocal : Option GKCrypt) :
    (init tagRemote seqNumLocal gkcryptLocal).WellFormed where
  size := List.length_replicate
  count := Nat.zero_le _
  index := by simp [init]
  nodup := List.nodup_nil
  returned := by simp [buffered, init, SendBuffer.live_init]
  wire := by simp [init]
  reported := by simp [init]

/-- Calls only go on: what is on the wire stays there, and a call returns once. -/
def Continues (s s' : SendSystem) : Prop :=
  ∀ (i : Nat) (call : SendCall), s.calls[i]? = some call → ∃ call' : SendCall, s'.calls[i]? = some call' ∧
    (call.phase.onWire = true → call'.phase.onWire = true) ∧
    ∀ err n, call.phase = .returned err n → call'.phase = .returned err n

theorem Continues.of_eq {s s' : SendSystem} (same : s'.calls = s.calls) : Continues s s' := by
  intro i call here
  exact ⟨call, by rw [same]; exact here, id, fun _ _ => id⟩

theorem Advance.continues {takion takion' : TakionLocal} {id : Nat} {o : SendOutcome}
    {phase phase' : SendPhase} (h : Advance takion id o phase takion' phase') :
    (phase.onWire = true → phase'.onWire = true) ∧
      ∀ err n, phase = .returned err n → phase' = .returned err n := by
  cases h <;> simp [SendPhase.onWire]

theorem Effect.continues {s s' : SendSystem} {op : Op} (effect : Effect s op s') : Continues s s' := by
  cases effect with
  | quiet quiet => exact .of_eq quiet.calls
  | call =>
      intro i call here
      obtain ⟨inside, -⟩ := List.getElem?_eq_some_iff.mp here
      exact ⟨call, by dsimp only; rw [List.getElem?_append_left inside, here], id, fun _ _ => id⟩
  | @advance i o call takion' phase' here advanced =>
      intro j other there
      obtain ⟨inside, -⟩ := List.getElem?_eq_some_iff.mp here
      by_cases same : i = j
      · subst same
        obtain rfl := Option.some.inj (here.symm.trans there)
        exact ⟨_, List.getElem?_set_self inside, advanced.continues⟩
      · exact ⟨other, by dsimp only; rw [List.getElem?_set_ne same, there], id, fun _ _ => id⟩
  | dataAck => exact .of_eq rfl
  | giveUp => exact .of_eq rfl

theorem buffered_kept {s : SendSystem} {lock : Bool} {seqNum : Nat} {buffer' : SendBuffer}
    (live : buffer'.live = s.kept lock seqNum) : (s.withBuffer buffer').buffered.Sublist s.buffered := by
  change (buffer'.live.map _).Sublist _
  rw [live]
  exact (s.kept_sublist lock seqNum).map _

/-- The buffer loses packets, or gets the packet of a call that is about to return. -/
theorem Effect.buffered_cases {s s' : SendSystem} {op : Op} (effect : Effect s op s') :
    s'.buffered.Sublist s.buffered ∨
      ∃ i call packet n, s.calls[i]? = some call ∧ call.phase = .sent packet n ∧
        s'.calls[i]? = some { call with phase := .returned .success (some n) } ∧
        s'.buffered = s.buffered ++ [(i, n)] := by
  cases effect with
  | quiet quiet =>
      left
      rw [quiet.buffered]
  | call => exact .inl (List.Sublist.refl _)
  | @advance i o call takion' phase' here advanced =>
      obtain ⟨inside, -⟩ := List.getElem?_eq_some_iff.mp here
      generalize phases : call.phase = phase at advanced
      cases advanced with
      | @push packet n buffer' _ _ live =>
          refine .inr ⟨i, call, packet, n, here, phases, List.getElem?_set_self inside, ?_⟩
          change buffer'.live.map _ = _
          rw [live, List.map_append]
          rfl
      | _ => exact .inl (List.Sublist.refl _)
  | dataAck _ live => exact .inl (buffered_kept live)
  | giveUp _ live => exact .inl (buffered_kept live)

theorem Effect.acknowledged_mono {s s' : SendSystem} {op : Op} (effect : Effect s op s') :
    ∀ i ∈ s.acknowledged, i ∈ s'.acknowledged := by
  intro i member
  cases effect with
  | quiet quiet => rwa [quiet.acknowledged]
  | dataAck => exact List.mem_append_left _ member
  | _ => exact member

theorem Effect.stays_out {s s' : SendSystem} {op : Op} (effect : Effect s op s') {i : Nat} {call : SendCall}
    (here : s.calls[i]? = some call) {err : ErrorCode} {number : Option Nat}
    (returned : call.phase = .returned err number) (out : i ∉ s.buffered.map Prod.fst) :
    i ∉ s'.buffered.map Prod.fst := by
  rcases effect.buffered_cases with fewer | ⟨j, other, packet, n, there, phase, -, buffered⟩
  · intro member
    exact out ((fewer.map _).subset member)
  · rw [buffered, List.map_append, List.mem_append, not_or]
    refine ⟨out, ?_⟩
    rw [List.map_singleton, List.mem_singleton]
    rintro rfl
    obtain rfl := Option.some.inj (here.symm.trans there)
    rw [phase] at returned
    cases returned

theorem mem_buffered {s : SendSystem} {i : Nat} :
    i ∈ s.buffered.map Prod.fst ↔ ∃ packet ∈ s.takion.sendBuffer.live, packet.buf.id = i := by
  simp [buffered]

theorem mem_buffered_of_acked {s : SendSystem} {lock : Bool} {seqNum i : Nat}
    (member : i ∈ (s.acked lock seqNum).map (·.buf.id)) : i ∈ s.buffered.map Prod.fst := by
  obtain ⟨packet, there, rfl⟩ := List.mem_map.mp member
  exact mem_buffered.mpr ⟨packet, (s.acked_sublist lock seqNum).subset there, rfl⟩

section Step
variable {s s' : SendSystem} (h : WellFormed s)
include h

theorem WellFormed.mem_covered_iff {cumulative i n : Nat} (member : (i, n) ∈ s.buffered) :
    i ∈ s.covered cumulative ↔ SendBuffer.coversNumber cumulative n = true := by
  obtain ⟨call, here, phase⟩ := h.returned (i, n) member
  rw [mem_covered]
  constructor
  · rintro ⟨call', here', -, n', number, covers⟩
    obtain rfl := Option.some.inj (here.symm.trans here')
    rw [phase] at number
    obtain rfl := Option.some.inj number
    exact covers
  · intro covers
    exact ⟨call, here, by rw [phase]; rfl, n, by rw [phase]; rfl, covers⟩

theorem WellFormed.acked_covered {lock : Bool} {cumulative : Nat} {packet : SendBufferPacket}
    (member : packet ∈ s.acked lock cumulative) : packet.buf.id ∈ s.covered cumulative := by
  have there := (s.acked_sublist lock cumulative).subset member
  apply (h.mem_covered_iff (List.mem_map_of_mem there)).mpr
  cases lock with
  | false => simp [acked] at member
  | true => exact (List.mem_filter.mp member).2

theorem WellFormed.acked_nodup (lock : Bool) (seqNum : Nat) :
    ((s.acked lock seqNum).map (·.buf.id)).Nodup := by
  have all := h.nodup
  rw [buffered, List.map_map] at all
  exact all.sublist ((s.acked_sublist lock seqNum).map _)

theorem WellFormed.gone {lock : Bool} {seqNum : Nat} {buffer' : SendBuffer}
    (live : buffer'.live = s.kept lock seqNum) {i : Nat} (member : i ∈ (s.acked lock seqNum).map (·.buf.id)) :
    i ∉ (s.withBuffer buffer').buffered.map Prod.fst := by
  obtain ⟨packet, acked, rfl⟩ := List.mem_map.mp member
  have covered := h.acked_covered acked
  rw [mem_buffered]
  rintro ⟨other, kept, same⟩
  change other ∈ buffer'.live at kept
  rw [live] at kept
  have there := (s.kept_sublist lock seqNum).subset kept
  have covers := (h.mem_covered_iff (List.mem_map_of_mem there)).mp (same ▸ covered)
  cases lock with
  | false => simp [SendSystem.acked] at acked
  | true =>
      have uncovered := (List.mem_filter.mp kept).2
      rw [SendBuffer.covers, covers] at uncovered
      cases uncovered

theorem WellFormed.effect {op : Op} (shaped : Shaped s') (effect : Effect s op s') : WellFormed s' := by
  have continues := effect.continues
  have still : ∀ e ∈ s.buffered, ∃ call, s'.calls[e.1]? = some call ∧
      call.phase = .returned .success (some e.2) := by
    intro e member
    obtain ⟨call, here, phase⟩ := h.returned e member
    obtain ⟨call', here', -, same⟩ := continues e.1 call here
    exact ⟨call', here', same _ _ phase⟩
  have wires : ∀ i ∈ s.acknowledged, ∃ call, s'.calls[i]? = some call ∧ call.phase.onWire = true := by
    intro i member
    obtain ⟨call, here, wire⟩ := h.wire i member
    obtain ⟨call', here', same, -⟩ := continues i call here
    exact ⟨call', here', same wire⟩
  have buffer : (s'.buffered.map Prod.fst).Nodup ∧ ∀ e ∈ s'.buffered, ∃ call, s'.calls[e.1]? = some call ∧
      call.phase = .returned .success (some e.2) := by
    rcases effect.buffered_cases with fewer | ⟨i, call, packet, n, here, phase, here', buffered⟩
    · exact ⟨h.nodup.sublist (fewer.map _), fun e member => still e (fewer.subset member)⟩
    · have unbuffered : i ∉ s.buffered.map Prod.fst := by
        intro member
        obtain ⟨e, there, rfl⟩ := List.mem_map.mp member
        obtain ⟨other, found, returned⟩ := h.returned e there
        obtain rfl := Option.some.inj (here.symm.trans found)
        rw [phase] at returned
        cases returned
      rw [buffered]
      constructor
      · rw [List.map_append]
        exact List.Nodup.append h.nodup (List.nodup_singleton i) (by simpa using unbuffered)
      · intro e member
        rcases List.mem_append.mp member with old | new
        · exact still e old
        · obtain rfl := List.mem_singleton.mp new
          exact ⟨_, here', rfl⟩
  suffices acked : (∀ i ∈ s'.acknowledged, ∃ call, s'.calls[i]? = some call ∧ call.phase.onWire = true) ∧
      ∀ e ∈ s'.events, e.2 ∈ s'.acknowledged from ⟨shaped, buffer.1, buffer.2, acked.1, acked.2⟩
  clear buffer still
  cases effect with
  | quiet quiet =>
      rw [quiet.acknowledged, quiet.events]
      exact ⟨wires, h.reported⟩
  | dataAck parsed live =>
      constructor
      · intro i member
        rcases List.mem_append.mp member with old | new
        · exact wires i old
        · obtain ⟨call, here, wire, -⟩ := mem_covered.mp (List.mem_filter.mp new).1
          exact ⟨call, here, wire⟩
      · intro e member
        rcases List.mem_append.mp member with old | new
        · exact List.mem_append_left _ (h.reported e old)
        · obtain ⟨packet, acked, rfl⟩ := List.mem_map.mp new
          by_cases known : packet.buf.id ∈ s.acknowledged
          · exact List.mem_append_left _ known
          · exact List.mem_append_right _ (List.mem_filter.mpr ⟨h.acked_covered acked, by simpa using known⟩)
  | _ => exact ⟨wires, h.reported⟩

end Step

theorem WellFormed.of_step {lib : CryptoLib} {s s' : SendSystem} {op : Op} {o : Unit} (h : WellFormed s)
    (stepped : step lib s op = .ok (s', o)) : WellFormed s' := by
  obtain ⟨shaped, effect⟩ := h.toShaped.step_inv lib stepped
  exact h.effect shaped effect

end SendSystem
end Chiaki
