import Chiaki.ReorderQueue.Refinement
import Chiaki.Lib.Machine

/-!
# Runs of the reorder queue

A run is a list of calls on one queue with a drop callback. The abstract machine `Spec` makes the same
calls on a window of slots, in which positions are unbounded and numbers are positions modulo `n`. At
32 bits the queue and the abstract machine agree on every output.
-/

namespace Chiaki
open Serial SlotWindow Machine

def DropStrategy.policy : DropStrategy → Policy
  | .begin => .evictOld
  | .end_ => .refuseNew

namespace ReorderQueue
variable {α : Type}

inductive Op (α : Type) where
  | push (seqNum : Nat) (user : α)
  | pull
  | peek (index : Nat)
  | drop (index : Nat)
  | setDropStrategy (strategy : DropStrategy)

/-- What one call gives to its caller and to `drop_cb`. -/
structure Out (α : Type) where
  pulled : Option (Nat × α) := none
  peeked : Option (Nat × α) := none
  dropped : List (Nat × α) := []

/-- Every (number, element) pair the call reports. -/
def Out.shown (o : Out α) : List (Nat × α) := o.pulled.toList ++ o.peeked.toList ++ o.dropped

def step (q : ReorderQueue α) : Op α → Checked (ReorderQueue α × Out α)
  | .push seqNum user => (q.push seqNum user).map fun r => (r.1, { dropped := r.2 })
  | .pull => q.pull.map fun r => (r.1, { pulled := r.2 })
  | .peek index => .ok (q, { peeked := q.peek index })
  | .drop index => .ok ((q.drop index).1, { dropped := (q.drop index).2 })
  | .setDropStrategy strategy => .ok (q.setDropStrategy strategy, {})

structure Spec (α : Type) where
  policy : Policy
  window : Window α

/-- The number and element in the slot at `index`. -/
def Spec.slotAt (n : Nat) (s : Spec α) (index : Nat) : Option (Nat × α) :=
  (s.window.slots[index]?).join.map fun x => ((s.window.base + index) % n, x)

/-- `drop` is specified as the code behaves: the element is reported and stays. -/
def Spec.step (n size : Nat) (s : Spec α) : Op α → Spec α × Out α
  | .push number user =>
      let r := s.window.push n size s.policy number user
      ({ s with window := r.1 }, { dropped := r.2 })
  | .pull =>
      let r := s.window.pull
      ({ s with window := r.1 }, { pulled := r.2.map fun p => (p.1 % n, p.2) })
  | .peek index => (s, { peeked := s.slotAt n index })
  | .drop index => (s, { dropped := (s.slotAt n index).toList })
  | .setDropStrategy strategy => ({ s with policy := strategy.policy }, {})

theorem Spec.shown_lt {n size : Nat} (positive : 0 < n) (room : 0 < size) (s : Spec α) (op : Op α)
    (number : ∀ m user, op = .push m user → m < n) :
    ∀ p ∈ (s.step n size op).2.shown, p.1 < n := by
  have slot (index : Nat) : ∀ p ∈ (s.slotAt n index).toList, p.1 < n := by
    intro p member
    obtain ⟨x, -, rfl⟩ := Option.map_eq_some_iff.mp (Option.mem_toList.mp member)
    exact Nat.mod_lt _ positive
  cases op with
  | push m user =>
      exact Window.push_numbers_lt positive room s.policy s.window (number m user rfl) user
  | pull =>
      intro p member
      simp only [Spec.step, Out.shown, Option.toList_none, List.append_nil] at member
      obtain ⟨x, -, rfl⟩ := Option.map_eq_some_iff.mp (Option.mem_toList.mp member)
      exact Nat.mod_lt _ positive
  | peek index => simpa [Spec.step, Out.shown] using slot index
  | drop index => simpa [Spec.step, Out.shown] using slot index
  | setDropStrategy strategy => simp [Spec.step, Out.shown]

/-- A pushed number is one of the width, and its distance from `begin` is not half the circle. -/
def PushOk (n : Nat) (q : ReorderQueue α) : Op α → Prop
  | .push seqNum _ => seqNum < n ∧ 2 * ahead n q.begin seqNum ≠ n
  | _ => True

structure Sim (n sizeExp : Nat) (q : ReorderQueue α) (s : Spec α) : Prop where
  rep : Represents n q s.window
  begin_lt : q.begin < n
  sizeExp_eq : q.sizeExp = sizeExp
  policy_eq : q.dropStrategy.policy = s.policy
  dropCb : q.dropCb = true

namespace Sim
variable {n sizeExp : Nat} {q q' : ReorderQueue α} {s : Spec α} (h : Sim n sizeExp q s)
include h

theorem size_eq : q.size = 2 ^ sizeExp := by rw [size, h.sizeExp_eq]

theorem begin_eq : q.begin = s.window.base % n := by
  rw [← h.rep.begin_mod, Nat.mod_eq_of_lt h.begin_lt]

theorem ahead_begin (m : Nat) : ahead n q.begin m = ahead n s.window.base m :=
  ahead_congr h.rep.begin_mod rfl

theorem emitted_eq (dropped : List (Nat × α)) : q.emitted dropped = dropped := by
  rw [emitted, if_pos h.dropCb]

theorem of_same {w : Window α} (same : SameSettings q q') (rep : Represents n q' w)
    (begin_lt : q'.begin < n) : Sim n sizeExp q' { s with window := w } :=
  ⟨rep, begin_lt, same.sizeExp.trans h.sizeExp_eq, by
    rw [same.dropStrategy]
    exact h.policy_eq, same.dropCb.trans h.dropCb⟩

theorem setDropStrategy (strategy : DropStrategy) :
    Sim n sizeExp (q.setDropStrategy strategy) { s with policy := strategy.policy } :=
  ⟨h.rep.setDropStrategy strategy, h.begin_lt, h.sizeExp_eq, rfl, h.dropCb⟩

end Sim

theorem init_sim [Inhabited α] {bits sizeExp start : Nat} {fns : SeqNumFns} {q : ReorderQueue α}
    (laws : SeqNumLaws fns (2 ^ bits)) (narrow : sizeExp + 1 < bits)
    (hinit : init sizeExp start fns = some q) (hstart : start < 2 ^ bits) :
    Sim (2 ^ bits) sizeExp q.setDropCb ⟨.refuseNew, ⟨start, []⟩⟩ ∧ q.setDropCb.fns = fns := by
  obtain ⟨hrep, hbegin, hexp, hfns, hstrategy⟩ := init_represents laws narrow hinit
  exact ⟨⟨hrep.setDropCb, hbegin.trans_lt hstart, hexp, congrArg _ hstrategy, rfl⟩, hfns⟩

/-! ## The 32-bit queue -/

structure Sim32 (sizeExp : Nat) (q : ReorderQueue α) (s : Spec α) : Prop
    extends Sim (2 ^ 32) sizeExp q s where
  fns : q.fns = seqNumFns32

namespace Sim32
variable {sizeExp : Nat} {q : ReorderQueue α} {s : Spec α} (h : Sim32 sizeExp q s)
include h

theorem add_lt (a b : Nat) : q.add a b < 2 ^ 32 := by
  rw [add, h.fns]
  exact Nat.mod_lt _ (by omega)

theorem add_begin (i : Nat) : q.add q.begin i = (s.window.base + i) % 2 ^ 32 := by
  rw [← h.rep.add_begin, Nat.mod_eq_of_lt (h.add_lt _ _)]

theorem rawBegin_eq (i : Nat) : q.rawBegin i = (s.window.base + i) % 2 ^ 32 := by
  rw [← h.rep.rawBegin_mod]
  cases i with
  | zero => exact (Nat.mod_eq_of_lt h.begin_lt).symm
  | succ i => exact (Nat.mod_eq_of_lt (h.add_lt _ _)).symm

/-- Sums wrap at 32 bits, so the number after the last slot is recognised by plain equality. -/
theorem comparable {m : Nat} {user : α} (hok : PushOk (2 ^ 32) q (.push m user)) :
    Comparable (2 ^ 32) q s.window m where
  number := hok.1
  begin_lt := h.begin_lt
  not_opposite := by
    rw [← h.ahead_begin]
    exact hok.2
  at_end hend := by
    rw [h.add_begin, h.rep.count_eq, ← hend, add_ahead h.rep.pos, Nat.mod_eq_of_lt hok.1]

theorem of_same {q' : ReorderQueue α} {w : Window α} (same : SameSettings q q')
    (rep : Represents (2 ^ 32) q' w) (begin_lt : q'.begin < 2 ^ 32) :
    Sim32 sizeExp q' { s with window := w } :=
  ⟨h.toSim.of_same same rep begin_lt, same.fns.trans h.fns⟩

theorem push {m : Nat} {user : α} (hok : PushOk (2 ^ 32) q (.push m user)) :
    ∃ q', q.push m user =
        .ok (q', (s.window.push (2 ^ 32) (2 ^ sizeExp) s.policy m user).2) ∧
      Sim32 sizeExp q'
        { s with window := (s.window.push (2 ^ 32) (2 ^ sizeExp) s.policy m user).1 } := by
  have hc := h.comparable hok
  have hopp := hc.not_opposite
  rw [← h.size_eq]
  by_cases hbefore : 2 ^ 32 < 2 * ahead (2 ^ 32) s.window.base m
  · rw [push_before h.rep hc user hbefore, h.emitted_eq, Window.push_before user hbefore.le]
    exact ⟨q, rfl, h⟩
  have hhalf : 2 * ahead (2 ^ 32) s.window.base m < 2 ^ 32 := by omega
  cases hpresent : (s.window.lookup (2 ^ 32) m).isSome with
  | true =>
      rw [push_present h.rep hc user hhalf hpresent, h.emitted_eq, Window.push_present user hpresent]
      exact ⟨q, rfl, h⟩
  | false =>
      by_cases hfits : ahead (2 ^ 32) s.window.base m < q.size
      · obtain ⟨q', hpush, hrep, hbegin, hsame⟩ := push_fits h.rep hc user hhalf hpresent hfits
        rw [Window.push_fits user hhalf hpresent hfits]
        exact ⟨q', hpush, h.of_same hsame hrep (hbegin ▸ h.begin_lt)⟩
      have hfar : q.size ≤ ahead (2 ^ 32) s.window.base m := Nat.not_lt.mp hfits
      have hpolicy := h.policy_eq
      cases hstrategy : q.dropStrategy with
      | end_ =>
          rw [hstrategy, DropStrategy.policy] at hpolicy
          rw [push_refused h.rep hc user hhalf hfar hstrategy, h.emitted_eq, ← hpolicy,
            Window.push_refuseNew user hfar, hpolicy]
          exact ⟨q, rfl, h⟩
      | begin =>
          rw [hstrategy, DropStrategy.policy] at hpolicy
          obtain ⟨q', hpush, hrep, hbegin, hsame⟩ := push_evicts h.rep hc user hhalf hfar hstrategy
          have hlt : q'.begin < 2 ^ 32 := by
            rw [hbegin]
            split
            · exact hok.1
            · rw [h.rawBegin_eq]
              exact Nat.mod_lt _ (by omega)
          have hsim := h.of_same hsame hrep hlt
          refine ⟨q', ?_, ?_⟩
          · rw [hpush, h.emitted_eq, ← hpolicy,
              Window.push_evictOld user h.rep.pos q.size_pos hhalf h.rep.fits hfar,
              funext h.rawBegin_eq]
          · rwa [hpolicy] at hsim

theorem refuses (policy : s.policy = .refuseNew) : q.dropStrategy = .end_ := by
  have same := h.policy_eq
  rw [policy] at same
  cases strategy : q.dropStrategy with
  | end_ => rfl
  | begin =>
      rw [strategy] at same
      cases same

theorem quarter : 4 * q.size ≤ 2 ^ 32 := by
  have half := h.rep.half
  rw [size, ← Nat.pow_succ'] at half
  have narrow : q.sizeExp + 1 < 32 := (Nat.pow_lt_pow_iff_right (by decide)).mp half
  have small : 2 ^ q.sizeExp ≤ 2 ^ 30 := Nat.pow_le_pow_right (by decide) (by omega)
  rw [size]
  omega

/-- A queue that refuses what does not fit refuses a number opposite to `begin`, unless the assertion stops it. -/
theorem push_opposite {m : Nat} (user : α) (opposite : 2 * ahead (2 ^ 32) q.begin m = 2 ^ 32)
    (refuses : q.dropStrategy = .end_) (wide : 1 < q.size) :
    q.push m user = if q.count = 0 then .error .assertion else .ok (q, [(m, user)]) := by
  rw [h.ahead_begin] at opposite
  have single : q.size ≠ 1 := by omega
  rw [ReorderQueue.push_opposite h.rep opposite h.quarter, if_neg single, if_pos refuses, callDropCb, h.dropCb]
  rfl

theorem pull :
    ∃ q', q.pull = .ok (q', s.window.pull.2.map fun p => (p.1 % 2 ^ 32, p.2)) ∧
      Sim32 sizeExp q' { s with window := s.window.pull.1 } := by
  unfold Window.pull
  split
  · rename_i x rest hslots
    refine ⟨q.advance, ?_, h.of_same ⟨rfl, rfl, rfl, rfl⟩ (h.rep.advance hslots) (h.add_lt _ _)⟩
    rw [pull_some h.rep hslots, h.begin_eq]
    rfl
  · rename_i hslots
    exact ⟨q, pull_none h.rep fun x rest heq => hslots x rest heq, h⟩

theorem step (op : Op α) (hok : PushOk (2 ^ 32) q op) :
    ∃ q', q.step op = .ok (q', (s.step (2 ^ 32) (2 ^ sizeExp) op).2) ∧
      Sim32 sizeExp q' (s.step (2 ^ 32) (2 ^ sizeExp) op).1 := by
  cases op with
  | push m user =>
      obtain ⟨q', hpush, hsim⟩ := h.push hok
      exact ⟨q', by rw [ReorderQueue.step, hpush]; rfl, hsim⟩
  | pull =>
      obtain ⟨q', hpull, hsim⟩ := h.pull
      exact ⟨q', by rw [ReorderQueue.step, hpull]; rfl, hsim⟩
  | peek index =>
      refine ⟨q, ?_, h⟩
      rw [ReorderQueue.step, peek_eq h.rep, h.add_begin]
      rfl
  | drop index =>
      refine ⟨q, ?_, h⟩
      rw [ReorderQueue.step, drop_eq h.rep, h.add_begin, h.emitted_eq]
      rfl
  | setDropStrategy strategy =>
      exact ⟨_, rfl, h.toSim.setDropStrategy strategy, h.fns⟩

end Sim32

theorem init32_sim [Inhabited α] {sizeExp start : Nat} {q : ReorderQueue α}
    (hinit : init32 sizeExp start = some q) (hstart : start < 2 ^ 32) :
    Sim32 sizeExp q.setDropCb ⟨.refuseNew, ⟨start, []⟩⟩ := by
  have hexp : sizeExp < 31 := by
    by_contra hbig
    simp [init32, init, hbig] at hinit
  obtain ⟨hsim, hfns⟩ := init_sim seqNumFns32_laws (by omega) hinit hstart
  exact ⟨hsim, hfns⟩

end ReorderQueue
end Chiaki
