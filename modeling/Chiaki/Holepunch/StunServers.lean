import Chiaki.Common
import Chiaki.Lib.Machine

/-!
# The order of the STUN servers

`STUN_SERVERS` is shuffled in place, by `stun_get_external_address` behind its first server and by
`stun_port_allocation_test` as a whole. A round of a loop draws one random number.
-/

namespace Chiaki
open Machine

structure StunServer where
  host : Bytes
  port : Nat
  deriving DecidableEq

/-- `STUN_SERVERS`. -/
def stunServers : List StunServer := [
  ⟨text "stun.moonlight-stream.org", 3478⟩,
  ⟨text "stun.l.google.com", 19302⟩,
  ⟨text "stun.l.google.com", 19305⟩,
  ⟨text "stun1.l.google.com", 19302⟩,
  ⟨text "stun1.l.google.com", 19305⟩,
  ⟨text "stun2.l.google.com", 19302⟩,
  ⟨text "stun2.l.google.com", 19305⟩,
  ⟨text "stun3.l.google.com", 19302⟩,
  ⟨text "stun3.l.google.com", 19305⟩,
  ⟨text "stun4.l.google.com", 19302⟩,
  ⟨text "stun4.l.google.com", 19305⟩]

/-- Exchange two servers. -/
def swapServers (servers : List StunServer) (i j : Nat) : Checked (List StunServer) := do
  let temp ← inBounds servers[i]?
  let server ← inBounds servers[j]?
  pure ((servers.set i server).set j temp)

/-- The loop of `stun_get_external_address`, from `i` on. -/
def shuffleOthers (random : Nat → UInt32) : (i : Nat) → List StunServer → Checked (List StunServer)
  | i + 2, servers => do
      let servers ← swapServers servers (i + 2) (1 + (random (i + 2)).toNat % (i + 1))
      shuffleOthers random (i + 1) servers
  | _, servers => pure servers

/-- The loop of `stun_port_allocation_test`, from `i` on. -/
def shuffleAll (random : Nat → UInt32) : (i : Nat) → List StunServer → Checked (List StunServer)
  | i + 1, servers => do
      let servers ← swapServers servers (i + 1) ((random (i + 1)).toNat % (i + 1))
      shuffleAll random i servers
  | 0, servers => pure servers

/-- The shuffles, with the random number for each value of `i`. -/
inductive StunShuffle where
  | externalAddress (random : Nat → UInt32)
  | portAllocation (random : Nat → UInt32)

def StunShuffle.shuffle (servers : List StunServer) : StunShuffle → Checked (List StunServer)
  | .externalAddress random => shuffleOthers random (servers.length - 1) servers
  | .portAllocation random => shuffleAll random servers.length servers

def StunShuffle.step (servers : List StunServer) (shuffle : StunShuffle) : Checked (List StunServer × Unit) := do
  let servers ← shuffle.shuffle servers
  pure (servers, ())

/-- Every sequence of calls stays in the array and leaves the servers as they were but for their order. The shuffle of
`stun_get_external_address` keeps the first one. -/
structure ShufflesServers (servers : List StunServer) (shuffles : List StunShuffle) : Prop where
  permutes : ∃ servers' outs, run StunShuffle.step servers shuffles = .ok (servers', outs) ∧ servers'.Perm servers
  keepsFirst : ∀ before random, before ++ [.externalAddress random] <+: shuffles → ∀ here outs there,
    run StunShuffle.step servers before = .ok (here, outs) →
    (StunShuffle.externalAddress random).shuffle here = .ok there → there.head? = here.head?

section Swaps
variable {servers : List StunServer} {i j : Nat}

theorem swapServers_ok (first : i < servers.length) (second : j < servers.length) :
    ∃ servers', swapServers servers i j = .ok servers' ∧ servers'.Perm servers ∧
      (0 < i → 0 < j → servers'.head? = servers.head?) := by
  refine ⟨(servers.set i servers[j]).set j servers[i], ?_, List.set_set_perm first second, fun posI posJ => ?_⟩
  · rw [swapServers, List.getElem?_eq_getElem first, List.getElem?_eq_getElem second]
    rfl
  · rw [List.head?_eq_getElem?, List.head?_eq_getElem?, List.getElem?_set_ne posJ.ne', List.getElem?_set_ne posI.ne']

theorem swapServers_outside (outside : servers.length ≤ i) : swapServers servers i j = .error .outOfBounds := by
  rw [swapServers, List.getElem?_eq_none outside]
  rfl

theorem shuffleOthers_ok (random : Nat → UInt32) (inside : i < servers.length ∨ i = 0) :
    ∃ servers', shuffleOthers random i servers = .ok servers' ∧ servers'.Perm servers ∧
      servers'.head? = servers.head? := by
  fun_induction shuffleOthers random i servers with
  | case1 i servers ih =>
      have index : (random (i + 2)).toNat % (i + 1) < i + 1 := Nat.mod_lt _ (Nat.succ_pos i)
      have bound : i + 2 < servers.length := inside.resolve_right (Nat.succ_ne_zero _)
      obtain ⟨swapped, ran, perm, head⟩ :=
        @swapServers_ok servers (i + 2) (1 + (random (i + 2)).toNat % (i + 1)) bound (by omega)
      obtain ⟨servers', later, perm', head'⟩ := ih swapped (Or.inl (by rw [perm.length_eq]; omega))
      refine ⟨servers', ?_, perm'.trans perm, head'.trans (head (by omega) (by omega))⟩
      rw [ran, ok_bind, later]
  | case2 i servers last => exact ⟨servers, rfl, List.Perm.refl servers, rfl⟩

theorem shuffleAll_outside (random : Nat → UInt32) (some_ : servers ≠ []) :
    shuffleAll random servers.length servers = .error .outOfBounds := by
  obtain ⟨n, length⟩ := Nat.exists_eq_succ_of_ne_zero (List.length_pos_iff.mpr some_).ne'
  rw [length, shuffleAll, swapServers_outside (by omega)]
  rfl

end Swaps

theorem externalAddress_ok (servers : List StunServer) (random : Nat → UInt32) :
    ∃ servers', (StunShuffle.externalAddress random).shuffle servers = .ok servers' ∧ servers'.Perm servers ∧
      servers'.head? = servers.head? := by
  apply shuffleOthers_ok random
  omega

theorem shuffle_of_empty (shuffle : StunShuffle) : shuffle.shuffle [] = .ok [] := by cases shuffle <;> rfl

theorem StunShuffle.step_ok {servers servers' : List StunServer} {shuffle : StunShuffle}
    (shuffled : shuffle.shuffle servers = .ok servers') : StunShuffle.step servers shuffle = .ok (servers', ()) := by
  rw [StunShuffle.step, shuffled]
  rfl

theorem externalAddress_of_run {servers servers' : List StunServer} {shuffles : List StunShuffle} {outs : List Unit}
    (some_ : servers ≠ []) (ran : run StunShuffle.step servers shuffles = .ok (servers', outs)) :
    ∀ shuffle ∈ shuffles, ∃ random, shuffle = .externalAddress random := by
  induction shuffles generalizing servers outs with
  | nil => simp
  | cons shuffle shuffles ih =>
      obtain ⟨next, out, outs', stepped, later, -⟩ := run_cons_inv ran
      obtain ⟨shuffled, shuffled_eq, same⟩ := bind_eq_ok stepped
      cases shuffle with
      | externalAddress random =>
          obtain ⟨after, shuffled_eq', perm, -⟩ := externalAddress_ok servers random
          obtain rfl := Except.ok.inj (shuffled_eq.symm.trans shuffled_eq')
          obtain ⟨rfl, -⟩ := Prod.mk.inj (Except.ok.inj same)
          have still : shuffled ≠ [] := fun empty => some_ (List.perm_nil.mp (empty ▸ perm.symm))
          exact List.forall_mem_cons.mpr ⟨⟨random, rfl⟩, ih still later⟩
      | portAllocation random =>
          rw [StunShuffle.shuffle, shuffleAll_outside random some_] at shuffled_eq
          cases shuffled_eq

/-- The array is shuffled as it should be exactly in the runs without a port allocation test. -/
theorem shufflesServers_iff (servers : List StunServer) (shuffles : List StunShuffle) :
    ShufflesServers servers shuffles ↔
      servers = [] ∨ ∀ shuffle ∈ shuffles, ∃ random, shuffle = .externalAddress random := by
  constructor
  · rintro ⟨⟨servers', outs, ran, -⟩, -⟩
    by_cases empty : servers = []
    · exact Or.inl empty
    · exact Or.inr (externalAddress_of_run empty ran)
  · intro fine
    constructor
    · have allowed : ∀ shuffle ∈ shuffles, servers = [] ∨ ∃ random, shuffle = .externalAddress random :=
        fun shuffle member => fine.imp_right fun external => external shuffle member
      obtain ⟨servers', outs, ran, perm, -⟩ := run_invariant (List.Perm · servers) (fun _ => True)
        (fun here shuffle perm now => by
          rcases now.2 with empty | ⟨random, rfl⟩
          · obtain rfl : here = [] := List.perm_nil.mp (empty ▸ perm)
            exact ⟨[], (), StunShuffle.step_ok (shuffle_of_empty shuffle), perm, trivial⟩
          · obtain ⟨there, shuffled, perm', -⟩ := externalAddress_ok here random
            exact ⟨there, (), StunShuffle.step_ok shuffled, perm'.trans perm, trivial⟩)
        (List.Perm.refl servers) ((along_true servers shuffles).restrict allowed)
      exact ⟨servers', outs, ran, perm⟩
    · intro before random _ here outs there _ shuffled
      obtain ⟨there', shuffled', -, head⟩ := externalAddress_ok here random
      obtain rfl := Except.ok.inj (shuffled.symm.trans shuffled')
      exact head

/-- The first port allocation test exchanges a server with what stands behind the last one. -/
theorem not_shufflesServers : ¬ ShufflesServers stunServers [.portAllocation fun _ => 0] := by
  rintro ⟨⟨servers', outs, ran, -⟩, -⟩
  cases ran

end Chiaki
