import Chiaki.Takion.SendInvariant

/-!
# Acknowledgements that are lost

Between the socket and the send buffer a packet is in nobody's list. An acknowledgement that comes in
between is forgotten.
-/

namespace Chiaki
open Machine

namespace SendSystem

def ReportedOnce (s : SendSystem) : Prop :=
  ∀ i ∈ s.acknowledged, (s.events.map Prod.snd).count i = 1 ∧ i ∉ s.buffered.map Prod.fst

/-- In every state of the run what was acknowledged is reported once and gone, and is not sent again. -/
def LosesNoAck (lib : CryptoLib) (s : SendSystem) (ops : List Op) : Prop :=
  ∀ done more, done ++ more <+: ops → ∀ t os, run (step lib) s done = .ok (t, os) →
    ReportedOnce t ∧ ∀ u os', run (step lib) t more = .ok (u, os') →
      ∀ i ∈ t.acknowledged, u.resent.count i = t.resent.count i

/-- Every packet that an acknowledgement is the first to cover is in the buffer. -/
def Findable (s : SendSystem) : Op → Prop
  | .dataAck payload lock => ∀ cumulative, parseDataAck payload = .ok (some cumulative) →
      ∀ i ∈ s.covered cumulative, i ∉ s.acknowledged → lock = true ∧ i ∈ s.buffered.map Prod.fst
  | _ => True

theorem WellFormed.count_events_zero {s : SendSystem} (h : WellFormed s) {i : Nat}
    (unacknowledged : i ∉ s.acknowledged) : (s.events.map Prod.snd).count i = 0 := by
  apply List.count_eq_zero_of_not_mem
  intro member
  obtain ⟨e, there, rfl⟩ := List.mem_map.mp member
  exact unacknowledged (h.reported e there)

theorem events_append (s : SendSystem) (acked : List SendBufferPacket) :
    (s.events ++ acked.map fun packet => (packet.seqNum, packet.buf.id)).map Prod.snd =
      s.events.map Prod.snd ++ acked.map (·.buf.id) := by
  rw [List.map_append, List.map_map]
  rfl

theorem Effect.resent {s s' : SendSystem} {op : Op} (effect : Effect s op s') {i : Nat}
    (absent : i ∉ s.buffered.map Prod.fst) : s'.resent.count i = s.resent.count i := by
  cases effect with
  | quiet quiet => exact quiet.resent i absent
  | _ => rfl

/-! ## A run that loses none -/

structure Settled (s : SendSystem) : Prop extends WellFormed s where
  once : ReportedOnce s
  finished : ∀ i ∈ s.acknowledged, ∃ call err n, s.calls[i]? = some call ∧ call.phase = .returned err n

theorem init_settled (tagRemote seqNumLocal : Nat) (gkcryptLocal : Option GKCrypt) :
    (init tagRemote seqNumLocal gkcryptLocal).Settled where
  toWellFormed := init_wellFormed tagRemote seqNumLocal gkcryptLocal
  once := by simp [ReportedOnce, init]
  finished := by simp [init]

section Settled
variable {s s' : SendSystem} (h : Settled s)
include h

theorem Settled.effect {op : Op} (findable : Findable s op) (shaped : Shaped s') (effect : Effect s op s') :
    Settled s' := by
  have wellFormed := h.toWellFormed.effect shaped effect
  have finished : ∀ i ∈ s.acknowledged, ∃ call err n, s'.calls[i]? = some call ∧
      call.phase = .returned err n := by
    intro i member
    obtain ⟨call, err, n, here, phase⟩ := h.finished i member
    obtain ⟨call', here', -, still⟩ := effect.continues i call here
    exact ⟨call', err, n, here', still err n phase⟩
  have absent : ∀ i ∈ s.acknowledged, i ∉ s'.buffered.map Prod.fst := by
    intro i member
    obtain ⟨call, err, n, here, phase⟩ := h.finished i member
    exact effect.stays_out here phase (h.once i member).2
  suffices settled : ReportedOnce s' ∧ ∀ i ∈ s'.acknowledged, ∃ call err n, s'.calls[i]? = some call ∧
      call.phase = .returned err n from ⟨wellFormed, settled.1, settled.2⟩
  cases effect with
  | quiet quiet =>
      rw [ReportedOnce, quiet.acknowledged, quiet.events]
      exact ⟨fun i member => ⟨(h.once i member).1, absent i member⟩, finished⟩
  | @dataAck payload lock cumulative buffer' parsed live =>
      have found := findable cumulative parsed
      constructor
      · intro i member
        rw [events_append, List.count_append]
        rcases List.mem_append.mp member with old | new
        · refine ⟨?_, absent i old⟩
          obtain ⟨once, gone⟩ := h.once i old
          rw [once, List.count_eq_zero_of_not_mem fun acked => gone (mem_buffered_of_acked acked)]
        · obtain ⟨covered, fresh⟩ := List.mem_filter.mp new
          have fresh : i ∉ s.acknowledged := by simpa using fresh
          obtain ⟨rfl, there⟩ := found i covered fresh
          obtain ⟨packet, inside, rfl⟩ := mem_buffered.mp there
          have covers := (h.mem_covered_iff (List.mem_map_of_mem inside)).mp covered
          have acked : packet.buf.id ∈ (s.acked true cumulative).map (·.buf.id) :=
            List.mem_map_of_mem (List.mem_filter.mpr ⟨inside, covers⟩)
          refine ⟨?_, h.gone live acked⟩
          rw [h.count_events_zero fresh, List.count_eq_one_of_mem (h.acked_nodup true cumulative) acked]
      · intro i member
        rcases List.mem_append.mp member with old | new
        · exact finished i old
        · obtain ⟨covered, fresh⟩ := List.mem_filter.mp new
          obtain ⟨-, there⟩ := found i covered (by simpa using fresh)
          obtain ⟨e, inside, rfl⟩ := List.mem_map.mp there
          obtain ⟨call, here, phase⟩ := h.returned e inside
          exact ⟨call, _, _, here, phase⟩
  | _ => exact ⟨fun i member => ⟨(h.once i member).1, absent i member⟩, finished⟩

end Settled

theorem Settled.of_step {lib : CryptoLib} {s s' : SendSystem} {op : Op} {o : Unit} (h : Settled s)
    (findable : Findable s op) (stepped : step lib s op = .ok (s', o)) : Settled s' := by
  obtain ⟨shaped, effect⟩ := h.toShaped.step_inv lib stepped
  exact h.effect findable shaped effect

theorem Settled.resent_run {lib : CryptoLib} {s t : SendSystem} {ops : List Op} {os : List Unit}
    (h : Settled s) (findable : Along (step lib) Findable s ops) (hrun : run (step lib) s ops = .ok (t, os)) :
    ∀ i ∈ s.acknowledged, t.resent.count i = s.resent.count i := by
  induction ops generalizing s os with
  | nil =>
      obtain ⟨rfl, -⟩ := Prod.mk.inj (Except.ok.inj hrun)
      exact fun _ _ => rfl
  | cons op ops ih =>
      intro i acknowledged
      obtain ⟨s', o, os', stepped, rest, -⟩ := run_cons_inv hrun
      obtain ⟨-, effect⟩ := h.toShaped.step_inv lib stepped
      have later := ih (h.of_step findable.1 stepped) (findable.2 s' o stepped) rest i
        (effect.acknowledged_mono i acknowledged)
      rw [later, effect.resent (h.once i acknowledged).2]

/-! ## And what every such run meets -/

theorem Settled.findable {lib : CryptoLib} {s : SendSystem} {op : Op} (h : Settled s)
    (once : ∀ s' o, step lib s op = .ok (s', o) → ReportedOnce s') : Findable s op := by
  cases op with
  | dataAck payload lock =>
      intro cumulative parsed i covered fresh
      obtain ⟨buffer', done, -, -⟩ := h.toShaped.handleDataAck lock parsed
      have new : i ∈ s.acknowledged ++ (s.covered cumulative).filter (· ∉ s.acknowledged) :=
        List.mem_append_right _ (List.mem_filter.mpr ⟨covered, by simpa using fresh⟩)
      obtain ⟨reported, -⟩ := once _ () (by rw [step, done, ok_bind]; rfl) i new
      rw [events_append, List.count_append, h.count_events_zero fresh, Nat.zero_add] at reported
      have acked : i ∈ (s.acked lock cumulative).map (·.buf.id) := by
        rw [← List.count_pos_iff, reported]
        exact Nat.one_pos
      refine ⟨?_, mem_buffered_of_acked acked⟩
      cases lock with
      | true => rfl
      | false => simp [SendSystem.acked] at acked
  | _ => trivial

theorem LosesNoAck.tail {lib : CryptoLib} {s s' : SendSystem} {op : Op} {o : Unit} {ops : List Op}
    (h : LosesNoAck lib s (op :: ops)) (stepped : step lib s op = .ok (s', o)) : LosesNoAck lib s' ops := by
  intro done more inside t os hrun
  refine h (op :: done) more (List.cons_prefix_cons.mpr ⟨rfl, inside⟩) t (o :: os) ?_
  rw [run_cons_ok stepped, hrun]
  rfl

theorem Settled.losesNoAck_iff {lib : CryptoLib} {s : SendSystem} {ops : List Op} (h : Settled s) :
    LosesNoAck lib s ops ↔ Along (step lib) Findable s ops := by
  constructor
  · intro loses
    induction ops generalizing s with
    | nil => trivial
    | cons op ops ih =>
        have findable : Findable s op := by
          refine @Settled.findable lib s op h fun s' o stepped => ?_
          exact (loses [op] [] ⟨ops, rfl⟩ s' [o] (by rw [run_cons_ok stepped]; rfl)).1
        exact ⟨findable, fun s' o stepped => ih (h.of_step findable stepped) (loses.tail stepped)⟩
  · rintro findable done more ⟨left, rfl⟩ t os hrun
    rw [List.append_assoc] at findable
    have settled : Settled t :=
      findable.append.preserves Settled (fun _ _ _ _ h findable stepped => h.of_step findable stepped) h hrun
    exact ⟨settled.once, fun u os' again => settled.resent_run (findable.rest hrun).append again⟩

theorem losesNoAck_iff_findable (lib : CryptoLib) (tagRemote seqNumLocal : Nat)
    (gkcryptLocal : Option GKCrypt) (ops : List Op) :
    LosesNoAck lib (init tagRemote seqNumLocal gkcryptLocal) ops ↔
      Along (step lib) Findable (init tagRemote seqNumLocal gkcryptLocal) ops :=
  (init_settled tagRemote seqNumLocal gkcryptLocal).losesNoAck_iff

/-- A packet with number 7 is on the wire and acknowledged before its sender gets to push it. -/
def earlyAck : List Op :=
  [.call (sendMessageData 1 1 []), .advance 0 ⟨true, true, true, 0⟩, .advance 0 ⟨true, true, true, 0⟩,
    .advance 0 ⟨true, true, true, 0⟩, .advance 0 ⟨true, true, true, 0⟩,
    .dataAck (htonl 7 ++ htonl 0 ++ htons 0 ++ htons 0) true, .advance 0 ⟨true, true, true, 0⟩]

theorem not_losesNoAck_early : ¬ LosesNoAck default (init 0 7 none) earlyAck := by
  intro loses
  have ran : (run (step default) (init 0 7 none) earlyAck).map
      (fun r => (r.1.acknowledged, r.1.events, r.1.buffered)) = .ok ([0], [], [(0, 7)]) := by decide
  cases final : run (step default) (init 0 7 none) earlyAck with
  | error e => simp [final, Except.map] at ran
  | ok r =>
      simp only [final, Except.map, Except.ok.injEq, Prod.mk.injEq] at ran
      obtain ⟨acknowledged, events, -⟩ := ran
      obtain ⟨once, -⟩ := (loses earlyAck [] (by rw [List.append_nil]) r.1 r.2 final).1 0 (by simp [acknowledged])
      simp [events] at once

end SendSystem
end Chiaki
