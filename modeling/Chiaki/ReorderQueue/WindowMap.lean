import Chiaki.ReorderQueue.Runs

/-!
# The 32-bit queue is a window map

The queue answers every call as the window does, shows exactly the elements of the window map, and
its pulls go through the unbounded positions in increasing order.
-/

namespace Chiaki
open Serial SlotWindow Machine

namespace ReorderQueue
variable {α : Type}

def Spec.takes (s : Spec α) : Op α → Option (Nat × α)
  | .pull => s.window.pull.2
  | _ => none

/-- The unbounded positions that the successful pulls of a run take out. -/
def pulledPositions (n size : Nat) : Spec α → List (Op α) → List Nat
  | _, [] => []
  | s, op :: ops => ((s.takes op).map (·.1)).toList ++ pulledPositions n size (s.step n size op).1 ops

def pulledNumbers (os : List (Out α)) : List Nat := os.filterMap fun o => o.pulled.map (·.1)

namespace Spec
variable {n size : Nat}

theorem pulled_step (s : Spec α) (op : Op α) :
    (s.step n size op).2.pulled = (s.takes op).map fun p => (p.1 % n, p.2) := by
  cases op <;> rfl

theorem base_of_takes (size : Nat) {s : Spec α} {op : Op α} {p : Nat × α} (taken : s.takes op = some p) :
    p.1 = s.window.base ∧ (s.step n size op).1.window.base = s.window.base + 1 := by
  cases op with
  | pull =>
      obtain ⟨here, next, -⟩ := Window.pull_of_some taken
      exact ⟨here, next⟩
  | _ => simp [takes] at taken

theorem base_le_step (positive : 0 < n) (fits : 0 < size) (s : Spec α) (op : Op α) :
    s.window.base ≤ (s.step n size op).1.window.base := by
  cases op with
  | push m user => exact Window.base_le_push positive fits s.policy s.window m user
  | pull => exact Window.base_le_pull s.window
  | _ => exact le_rfl

theorem le_pulledPositions (positive : 0 < n) (fits : 0 < size) (s : Spec α) (ops : List (Op α)) :
    ∀ p ∈ pulledPositions n size s ops, s.window.base ≤ p := by
  induction ops generalizing s with
  | nil => simp [pulledPositions]
  | cons op ops ih =>
      intro p member
      rcases List.mem_append.mp member with here | later
      · obtain ⟨q, taken, rfl⟩ : ∃ q, s.takes op = some q ∧ q.1 = p := by simpa using here
        exact (base_of_takes (n := n) size taken).1.ge
      · exact (s.base_le_step positive fits op).trans (ih _ p later)

theorem pulledPositions_increasing (positive : 0 < n) (fits : 0 < size) (s : Spec α)
    (ops : List (Op α)) : (pulledPositions n size s ops).Pairwise (· < ·) := by
  induction ops generalizing s with
  | nil => simp [pulledPositions]
  | cons op ops ih =>
      rw [pulledPositions]
      cases taken : s.takes op with
      | none => exact ih _
      | some q =>
          refine List.pairwise_cons.mpr ⟨?_, ih _⟩
          intro p member
          have later := le_pulledPositions positive fits _ ops p member
          obtain ⟨here, next⟩ := base_of_takes (n := n) size taken
          change q.1 < p
          omega

theorem pulledNumbers_eq (s : Spec α) (ops : List (Op α)) :
    pulledNumbers (runTotal (Spec.step n size) s ops).2 =
      (pulledPositions n size s ops).map (· % n) := by
  induction ops generalizing s with
  | nil => rfl
  | cons op ops ih =>
      have rest := ih (s.step n size op).1
      simp only [pulledNumbers] at rest
      rw [pulledPositions, runTotal, pulledNumbers, List.filterMap_cons, pulled_step, rest]
      cases s.takes op <;> rfl

theorem pulledPositions_refuseNew (s : Spec α) (ops : List (Op α)) (policy : s.policy = .refuseNew)
    (kept : ∀ op ∈ ops, op ≠ .setDropStrategy .begin) :
    ∃ count, pulledPositions n size s ops = List.range' s.window.base count := by
  induction ops generalizing s with
  | nil => exact ⟨0, rfl⟩
  | cons op ops ih =>
      have policy' : (s.step n size op).1.policy = .refuseNew := by
        cases op with
        | setDropStrategy strategy =>
            cases strategy with
            | begin => exact absurd rfl (kept _ List.mem_cons_self)
            | end_ => rfl
        | _ => exact policy
      obtain ⟨count, rest⟩ := ih _ policy' fun op member => kept op (List.mem_cons_of_mem _ member)
      rw [pulledPositions, rest]
      cases taken : s.takes op with
      | some q =>
          obtain ⟨here, next⟩ := base_of_takes (n := n) size taken
          refine ⟨count + 1, ?_⟩
          rw [next, List.range'_succ, ← here]
          rfl
      | none =>
          have same : (s.step n size op).1.window.base = s.window.base := by
            cases op with
            | push m user =>
                rw [Spec.step, policy]
                exact Window.push_refuseNew_base s.window m user
            | pull => exact congrArg Window.base (Window.pull_of_none taken)
            | _ => rfl
          exact ⟨count, by rw [same]; rfl⟩

end Spec
/-- What the queue shows is the window map: a number is found at its distance from `begin`, and no two
live numbers share a number or an array slot. -/
structure ShowsMap (sizeExp : Nat) (q : ReorderQueue α) (w : Window α) : Prop where
  lookup : ∀ m, m < 2 ^ 32 →
    q.peek (ahead (2 ^ 32) q.begin m) = (w.lookup (2 ^ 32) m).map fun x => (m, x)
  inside : ∀ i p, q.peek i = some p → i < 2 ^ sizeExp ∧ ahead (2 ^ 32) q.begin p.1 = i
  apart : ∀ i j p p', q.peek i = some p → q.peek j = some p' → i ≠ j →
    p.1 ≠ p'.1 ∧ q.idx p.1 ≠ q.idx p'.1

namespace Sim32
variable {sizeExp : Nat} {q : ReorderQueue α} {s : Spec α} (h : Sim32 sizeExp q s)
include h

theorem live {i : Nat} {p : Nat × α} (shown : q.peek i = some p) :
    i < q.size ∧ p.1 % 2 ^ 32 = (s.window.base + i) % 2 ^ 32 := by
  rw [peek_eq h.rep, Option.map_eq_some_iff] at shown
  obtain ⟨x, slot, rfl⟩ := shown
  have slot' : s.window.slots[i]? = some (some x) := by simpa [Option.join_eq_some_iff] using slot
  have bound := (List.getElem?_eq_some_iff.mp slot').1
  exact ⟨bound.trans_le h.rep.fits, h.rep.add_begin i⟩

theorem showsMap : ShowsMap sizeExp q s.window where
  lookup m number := by
    rw [peek_eq h.rep, ahead_congr h.rep.begin_mod rfl, h.add_begin, add_ahead h.rep.pos,
      Nat.mod_eq_of_lt number]
    rfl
  inside i p shown := by
    obtain ⟨bound, number⟩ := h.live shown
    have half := h.rep.half
    refine ⟨h.size_eq ▸ bound, ?_⟩
    rw [ahead_congr h.rep.begin_mod number, ahead_add_right h.rep.pos _ (by omega)]
  apart i j p p' shown shown' different := by
    obtain ⟨bound, number⟩ := h.live shown
    obtain ⟨bound', number'⟩ := h.live shown'
    have slots : q.idx p.1 ≠ q.idx p'.1 := by
      rw [idx_congr h.rep.dvd number, idx_congr h.rep.dvd number']
      exact fun same => different (idx_injective bound bound' same)
    exact ⟨fun same => slots (by rw [same]), slots⟩

end Sim32

theorem refines_window_map [Inhabited α] {sizeExp start : Nat} {q : ReorderQueue α}
    (hinit : init32 sizeExp start = some q) (hstart : start < 2 ^ 32) (strategy : DropStrategy)
    {ops : List (Op α)}
    (hok : Along step (PushOk (2 ^ 32)) (q.setDropCb.setDropStrategy strategy) ops) :
    let spec := runTotal (Spec.step (2 ^ 32) (2 ^ sizeExp)) ⟨strategy.policy, ⟨start, []⟩⟩ ops
    let positions := pulledPositions (2 ^ 32) (2 ^ sizeExp) ⟨strategy.policy, ⟨start, []⟩⟩ ops
    ∃ t, run step (q.setDropCb.setDropStrategy strategy) ops = .ok (t, spec.2) ∧
      ShowsMap sizeExp t spec.1.window ∧
      pulledNumbers spec.2 = positions.map (· % 2 ^ 32) ∧
      positions.Pairwise (fun a b =>
        a < b ∧ (b - a < 2 ^ 31 → seqNum32Lt (a % 2 ^ 32) (b % 2 ^ 32) = true)) ∧
      (strategy = .end_ → (∀ op ∈ ops, op ≠ .setDropStrategy .begin) →
        ∃ count, positions = List.range' start count) := by
  intro spec positions
  have fresh : Sim32 sizeExp (q.setDropCb.setDropStrategy strategy) ⟨strategy.policy, ⟨start, []⟩⟩ :=
    ⟨(init32_sim hinit hstart).toSim.setDropStrategy strategy, (init32_sim hinit hstart).fns⟩
  obtain ⟨t, hrun, ht⟩ := run_simulation (fun _ _ op h hop => h.step op hop) fresh hok
  have increasing := Spec.pulledPositions_increasing (Nat.two_pow_pos 32) (Nat.two_pow_pos sizeExp)
    ⟨strategy.policy, ⟨start, []⟩⟩ ops
  refine ⟨t, hrun, ht.showsMap, Spec.pulledNumbers_eq _ _, increasing.imp ?_, ?_⟩
  · intro a b before
    refine ⟨before, fun close => ?_⟩
    rw [seqNum32Lt, seqNumLt_iff (by omega) (Nat.mod_lt _ (by omega)) (Nat.mod_lt _ (by omega)),
      before_congr (Nat.mod_mod _ _) (Nat.mod_mod _ _)]
    obtain ⟨d, rfl⟩ := Nat.exists_eq_add_of_lt before
    rw [Nat.add_assoc, before_add_iff (by omega) _ (by omega)]
    omega
  · rintro rfl kept
    exact Spec.pulledPositions_refuseNew _ ops rfl kept

theorem refines_window_map_wrapping :
    ∃ q : ReorderQueue Nat, init32 1 (2 ^ 32 - 1) = some q ∧
      ∃ t os, run step (q.setDropCb.setDropStrategy .end_)
          [.push 0 8, .push (2 ^ 32 - 1) 7, .pull, .pull] = .ok (t, os) ∧
        pulledNumbers os = [2 ^ 32 - 1, 0] := by
  obtain ⟨q, hinit⟩ : ∃ q : ReorderQueue Nat, init32 1 (2 ^ 32 - 1) = some q := ⟨_, rfl⟩
  have hok : Along step (PushOk (2 ^ 32)) (q.setDropCb.setDropStrategy .end_)
      [.push 0 8, .push (2 ^ 32 - 1) 7, .pull, .pull] := by
    obtain rfl := Option.some.inj hinit
    repeat rw [along_cons rfl]
    exact ⟨⟨by decide, by decide⟩, ⟨by decide, by decide⟩, trivial, trivial, trivial⟩
  obtain ⟨t, hrun, -, numbers, -⟩ := refines_window_map hinit (by decide) .end_ hok
  exact ⟨q, hinit, t, _, hrun, numbers.trans rfl⟩

/-- With one slot and the strategy that drops first, `begin` can jump twice by almost half the circle
between two pulls, and the second number pulled is serially before the first. -/
theorem pulled_not_increasing :
    ∃ q : ReorderQueue Nat, init32 0 0 = some q ∧
      let ops := [.push 0 7, .pull, .push (2 ^ 31 - 1) 8, .push (3 * 2 ^ 30) 9, .pull]
      Along step (PushOk (2 ^ 32)) (q.setDropCb.setDropStrategy .begin) ops ∧
      ∃ t os, run step (q.setDropCb.setDropStrategy .begin) ops = .ok (t, os) ∧
        pulledNumbers os = [0, 3 * 2 ^ 30] ∧ seqNum32Lt 0 (3 * 2 ^ 30) = false := by
  refine ⟨_, rfl, ?_, ?_⟩
  · repeat rw [along_cons rfl]
    exact ⟨⟨by decide, by decide⟩, trivial, ⟨by decide, by decide⟩, ⟨by decide, by decide⟩, trivial,
      trivial⟩
  · exact ⟨_, _, rfl, rfl, by decide⟩

end ReorderQueue
end Chiaki
