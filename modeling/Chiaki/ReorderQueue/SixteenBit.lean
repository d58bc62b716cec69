import Chiaki.ReorderQueue.Runs

/-!
# The 16-bit queue and the wrap

The 16-bit sum is taken in `int`, so the number after 65535 is 65536 in the queue and 0 everywhere
else. As long as no stored element and no `begin` lies past the wrap, the two agree. `StaysBelow` is the
condition on a call under which that remains so, and a run behaves like the window exactly when all its
calls meet it.
-/

namespace Chiaki
open Serial SlotWindow Machine

namespace ReorderQueue
variable {α : Type}

/-- A push past the wrap is not stored behind it: it is out of the window, not the number right after
a full window, and an eviction for it moves `begin` past the wrap as well. A pull does not take 65535. -/
def StaysBelow (q : ReorderQueue α) : Op α → Prop
  | .push m _ =>
      let d := ahead (2 ^ 16) q.begin m
      2 * d < 2 ^ 16 → m < q.begin →
        q.size ≤ d ∧ d ≠ q.count ∧
          (q.dropStrategy = .begin → q.count ≤ d + 1 - q.size ∨ 2 ^ 16 < q.begin + (d + 1 - q.size))
  | .pull => q.begin + 1 = 2 ^ 16 → q.peek 0 = none
  | _ => True

structure Sim16 (sizeExp : Nat) (q : ReorderQueue α) (s : Spec α) : Prop
    extends Sim (2 ^ 16) sizeExp q s where
  fns : q.fns = seqNumFns16
  below : ∀ i x, s.window.slots[i]? = some (some x) → q.begin + i < 2 ^ 16

namespace Sim16
variable {sizeExp : Nat} {q : ReorderQueue α} {s : Spec α} (h : Sim16 sizeExp q s)
include h

theorem add_begin {i : Nat} (small : i < 2 ^ 16) : q.add q.begin i = q.begin + i := by
  rw [add, h.fns]
  change q.begin % 2 ^ 16 + i % 2 ^ 16 = _
  rw [Nat.mod_eq_of_lt h.begin_lt, Nat.mod_eq_of_lt small]

theorem begin_add_ahead {m : Nat} (number : m < 2 ^ 16) :
    q.begin + ahead (2 ^ 16) s.window.base m = if m < q.begin then m + 2 ^ 16 else m := by
  rw [← h.ahead_begin, ahead_of_lt (by omega) h.begin_lt number]
  have := h.begin_lt
  split <;> split <;> omega

theorem rawBegin_eq (r : Nat) (positive : 0 < r) : q.rawBegin r = (q.begin + r - 1) % 2 ^ 16 + 1 := by
  have bound := h.begin_lt
  induction r with
  | zero => omega
  | succ r ih =>
      have sum : q.rawBegin (r + 1) = q.rawBegin r % 2 ^ 16 + 1 := by
        rw [rawBegin, add, h.fns]
        rfl
      rw [sum]
      cases r with
      | zero => rfl
      | succ r =>
          rw [ih (by omega)]
          omega

theorem rawBegin_of_le {r : Nat} (low : q.begin + r ≤ 2 ^ 16) : q.rawBegin r = q.begin + r := by
  cases r with
  | zero => rfl
  | succ r =>
      rw [h.rawBegin_eq _ (by omega)]
      omega

theorem shown {i : Nat} {x : α} (slot : s.window.slots[i]? = some (some x)) :
    q.add q.begin i = (s.window.base + i) % 2 ^ 16 := by
  have low := h.below i x slot
  rw [← h.rep.add_begin, h.add_begin (by omega), Nat.mod_eq_of_lt low]

theorem peek_eq_slotAt (index : Nat) : q.peek index = s.slotAt (2 ^ 16) index := by
  rw [peek_eq h.rep, Spec.slotAt]
  cases slot : (s.window.slots[index]?).join with
  | none => rfl
  | some x => rw [Option.map_some, h.shown (by simpa [Option.join_eq_some_iff] using slot), Option.map_some]

theorem comparable {m : Nat} {user : α} (hok : PushOk (2 ^ 16) q (.push m user))
    (low : ahead (2 ^ 16) s.window.base m = s.window.slots.length → q.begin ≤ m) :
    Comparable (2 ^ 16) q s.window m where
  number := hok.1
  begin_lt := h.begin_lt
  not_opposite := h.ahead_begin m ▸ hok.2
  at_end hend := by
    have sum := h.begin_add_ahead hok.1
    have fits := h.rep.fits
    have half := h.rep.half
    rw [if_neg (Nat.not_lt.mpr (low hend)), hend] at sum
    rw [h.add_begin (by rw [h.rep.count_eq]; omega), h.rep.count_eq, sum]

theorem of_same {q' : ReorderQueue α} {w : Window α} (same : SameSettings q q')
    (rep : Represents (2 ^ 16) q' w) (begin_lt : q'.begin < 2 ^ 16)
    (below : ∀ i x, w.slots[i]? = some (some x) → q'.begin + i < 2 ^ 16) :
    Sim16 sizeExp q' { s with window := w } :=
  ⟨h.toSim.of_same same rep begin_lt, same.fns.trans h.fns, below⟩

/-- Eviction hands out the window's numbers: no stored element among them lies past the wrap. -/
theorem evicted_eq (r : Nat) :
    numbered q.rawBegin (s.window.slots.take r) =
      numbered (fun j => (s.window.base + j) % 2 ^ 16) (s.window.slots.take r) := by
  apply numbered_congr
  intro j x slot
  have stored : s.window.slots[j]? = some (some x) := by
    rw [List.getElem?_take] at slot
    split at slot
    · exact slot
    · simp at slot
  have low := h.below j x stored
  rw [h.rawBegin_of_le low.le, ← h.add_begin (by omega), h.shown stored]

theorem push_stays {m : Nat} {user : α} (hok : PushOk (2 ^ 16) q (.push m user))
    (stays : StaysBelow q (.push m user)) :
    ∃ q', q.push m user = .ok (q', (s.window.push (2 ^ 16) (2 ^ sizeExp) s.policy m user).2) ∧
      Sim16 sizeExp q'
        { s with window := (s.window.push (2 ^ 16) (2 ^ sizeExp) s.policy m user).1 } := by
  have number := hok.1
  have sum := h.begin_add_ahead number
  have bound := h.begin_lt
  have count := h.rep.count_eq
  have positive := q.size_pos
  have opposite := hok.2
  simp only [StaysBelow] at stays
  rw [h.ahead_begin] at stays opposite
  rw [← h.size_eq]
  obtain ⟨d, distance⟩ : ∃ d, ahead (2 ^ 16) s.window.base m = d := ⟨_, rfl⟩
  by_cases before : 2 ^ 16 < 2 * d
  · have hc := h.comparable hok fun atEnd => by
      have fits := h.rep.fits
      have half := h.rep.half
      omega
    rw [push_before h.rep hc user (distance ▸ before), h.emitted_eq,
      Window.push_before user (distance ▸ before.le)]
    exact ⟨q, rfl, h⟩
  have ahead_half : 2 * ahead (2 ^ 16) s.window.base m < 2 ^ 16 := by omega
  have hc := h.comparable hok fun atEnd => by
    by_contra wraps
    exact (stays ahead_half (by omega)).2.1 (by omega)
  cases present : (s.window.lookup (2 ^ 16) m).isSome with
  | true =>
      rw [push_present h.rep hc user ahead_half present, h.emitted_eq,
        Window.push_present user present]
      exact ⟨q, rfl, h⟩
  | false =>
      rcases lt_or_ge d q.size with fits | far
      · obtain ⟨q', hpush, rep, hbegin, same⟩ :=
          push_fits h.rep hc user ahead_half present (distance ▸ fits)
        rw [Window.push_fits user ahead_half present (distance ▸ fits)]
        refine ⟨q', hpush, h.of_same same rep (hbegin ▸ bound) ?_⟩
        intro i x slot
        rw [hbegin]
        rcases Window.place_slot slot with rfl | old
        · by_cases wraps : m < q.begin
          · have := (stays ahead_half wraps).1
            omega
          · rw [if_neg wraps] at sum
            omega
        · exact h.below i x old
      have policy := h.policy_eq
      cases strategy : q.dropStrategy with
      | end_ =>
          rw [strategy, DropStrategy.policy] at policy
          rw [push_refused h.rep hc user ahead_half (distance ▸ far) strategy, h.emitted_eq, ← policy,
            Window.push_refuseNew user (distance ▸ far), policy]
          exact ⟨q, rfl, h⟩
      | begin =>
          rw [strategy, DropStrategy.policy] at policy
          obtain ⟨q', hpush, rep, hbegin, same⟩ :=
            push_evicts h.rep hc user ahead_half (distance ▸ far) strategy
          have room : m < q.begin → q.count ≤ d + 1 - q.size ∨ 2 ^ 16 < q.begin + (d + 1 - q.size) :=
            fun wraps => distance ▸ (stays ahead_half wraps).2.2 strategy
          have low : q'.begin < 2 ^ 16 ∧ ∀ i x,
              (s.window.push (2 ^ 16) q.size .evictOld m user).1.slots[i]? = some (some x) →
                q'.begin + i < 2 ^ 16 := by
            rw [Window.push_evictOld user h.rep.pos positive ahead_half h.rep.fits (distance ▸ far),
              hbegin, distance, ← count]
            rw [distance] at sum
            split
            · -- the window restarts at the number
              refine ⟨number, fun i x slot => ?_⟩
              rcases Window.place_slot slot with rfl | old
              · exact number
              · simp at old
            · rename_i kept
              by_cases wraps : m < q.begin
              · rw [if_pos wraps] at sum
                have passed := (room wraps).resolve_left kept
                rw [h.rawBegin_eq _ (by omega)]
                refine ⟨by omega, fun i x slot => ?_⟩
                rcases Window.place_slot slot with rfl | old
                · omega
                · rw [List.getElem?_drop] at old
                  have := h.below _ x old
                  omega
              · rw [if_neg wraps] at sum
                rw [h.rawBegin_of_le (by omega)]
                refine ⟨by omega, fun i x slot => ?_⟩
                rcases Window.place_slot slot with rfl | old
                · omega
                · rw [List.getElem?_drop] at old
                  have := h.below _ x old
                  omega
          have sim := h.of_same same rep low.1 low.2
          refine ⟨q', ?_, ?_⟩
          · rw [hpush, h.emitted_eq, ← policy, h.evicted_eq,
              Window.push_evictOld user h.rep.pos positive ahead_half h.rep.fits (distance ▸ far)]
          · rwa [policy] at sim

end Sim16

/-- What the queue holds and shows are 16-bit numbers. -/
def InRange (q : ReorderQueue α) : Prop :=
  q.begin < 2 ^ 16 ∧ ∀ i p, q.peek i = some p → p.1 < 2 ^ 16

namespace Sim16
variable {sizeExp : Nat} {q : ReorderQueue α} {s : Spec α} (h : Sim16 sizeExp q s)
include h

theorem inRange : InRange q := by
  refine ⟨h.begin_lt, fun i p shown => ?_⟩
  rw [h.peek_eq_slotAt, Spec.slotAt, Option.map_eq_some_iff] at shown
  obtain ⟨x, -, rfl⟩ := shown
  exact Nat.mod_lt _ (by omega)

omit h in
/-- A stored element whose number would be 65536 or more is shown with that number. -/
theorem not_inRange_of_slot {q' : ReorderQueue α} {w : Window α} {i : Nat} {x : α}
    (rep : Represents (2 ^ 16) q' w) (fns : q'.fns = seqNumFns16) (small : i < 2 ^ 16)
    (slot : w.slots[i]? = some (some x)) (high : 2 ^ 16 ≤ q'.begin + i) : ¬ InRange q' := by
  rintro ⟨bound, shown⟩
  have number := shown i _ (by rw [peek_eq rep, slot]; rfl)
  have sum : q'.add q'.begin i = q'.begin + i := by
    rw [add, fns]
    change q'.begin % 2 ^ 16 + i % 2 ^ 16 = _
    rw [Nat.mod_eq_of_lt bound, Nat.mod_eq_of_lt small]
  simp only [sum] at number
  omega

theorem push_leaves {m : Nat} {user : α} (hok : PushOk (2 ^ 16) q (.push m user))
    (leaves : ¬ StaysBelow q (.push m user)) :
    q.push m user = .error .assertion ∨
      ∃ q' dropped, q.push m user = .ok (q', dropped) ∧ ¬ InRange q' := by
  have number := hok.1
  have sum := h.begin_add_ahead number
  have bound := h.begin_lt
  have count := h.rep.count_eq
  have fits := h.rep.fits
  have half := h.rep.half
  have positive := q.size_pos
  simp only [StaysBelow, h.ahead_begin, Classical.not_imp] at leaves
  obtain ⟨ahead_half, wraps, bad⟩ := leaves
  rw [if_pos wraps] at sum
  by_cases atEnd : ahead (2 ^ 16) s.window.base m = s.window.slots.length
  · left
    apply push_end_mismatch h.rep user ahead_half atEnd
    rw [h.add_begin (by omega)]
    omega
  right
  have hc := h.comparable hok fun same => absurd same atEnd
  by_cases inside : ahead (2 ^ 16) s.window.base m < q.size
  · have absent : (s.window.lookup (2 ^ 16) m).isSome = false := by
      cases present : s.window.lookup (2 ^ 16) m with
      | none => rfl
      | some x =>
          have low := h.below _ x (Option.join_eq_some_iff.mp present)
          omega
    obtain ⟨q', hpush, rep, hbegin, same⟩ := push_fits h.rep hc user ahead_half absent inside
    refine ⟨q', [], hpush, not_inRange_of_slot rep (same.fns.trans h.fns) (by omega)
      (Window.place_slot_self _ _ user) (by omega)⟩
  · have strategy : q.dropStrategy = .begin := by
      by_contra other
      exact bad ⟨by omega, by omega, fun h => absurd h other⟩
    have kept : ¬ (q.count ≤ ahead (2 ^ 16) s.window.base m + 1 - q.size ∨
        2 ^ 16 < q.begin + (ahead (2 ^ 16) s.window.base m + 1 - q.size)) :=
      fun room => bad ⟨by omega, by omega, fun _ => room⟩
    obtain ⟨q', hpush, rep, hbegin, same⟩ :=
      push_evicts h.rep hc user ahead_half (by omega) strategy
    rw [Window.push_evictOld user h.rep.pos positive ahead_half fits (by omega),
      if_neg (by omega)] at rep
    rw [if_neg (by omega), h.rawBegin_of_le (by omega)] at hbegin
    refine ⟨q', _, hpush, not_inRange_of_slot rep (same.fns.trans h.fns) (by omega)
      (Window.place_slot_self _ _ user) (by omega)⟩

theorem pull_stays (stays : StaysBelow q .pull) :
    ∃ q', q.pull = .ok (q', s.window.pull.2.map fun p => (p.1 % 2 ^ 16, p.2)) ∧
      Sim16 sizeExp q' { s with window := s.window.pull.1 } := by
  unfold Window.pull
  split
  · rename_i x rest slots
    have first : q.peek 0 ≠ none := by
      rw [peek_eq h.rep, slots]
      simp
    have next : q.advance.begin = q.begin + 1 := h.add_begin (by omega)
    have bound := h.begin_lt
    have room : q.begin + 1 ≠ 2 ^ 16 := fun last => first (stays last)
    refine ⟨q.advance, ?_, h.of_same ⟨rfl, rfl, rfl, rfl⟩ (h.rep.advance slots) (by omega) ?_⟩
    · rw [pull_some h.rep slots, h.begin_eq]
      rfl
    · intro i y slot
      have low := h.below (i + 1) y (by rw [slots]; exact slot)
      omega
  · rename_i slots
    exact ⟨q, pull_none h.rep fun x rest heq => slots x rest heq, h⟩

theorem pull_leaves (leaves : ¬ StaysBelow q .pull) :
    ∃ q' pulled, q.pull = .ok (q', pulled) ∧ ¬ InRange q' := by
  simp only [StaysBelow, Classical.not_imp] at leaves
  obtain ⟨last, shown⟩ := leaves
  rw [peek_eq h.rep, Option.map_eq_none_iff] at shown
  cases slots : s.window.slots with
  | nil => simp [slots] at shown
  | cons slot rest =>
      cases slot with
      | none => simp [slots] at shown
      | some x =>
          refine ⟨q.advance, _, pull_some h.rep slots, fun range => ?_⟩
          have next : q.advance.begin = q.begin + 1 := h.add_begin (by omega)
          have := range.1
          omega

theorem step_stays (op : Op α) (hok : PushOk (2 ^ 16) q op) (stays : StaysBelow q op) :
    ∃ q', q.step op = .ok (q', (s.step (2 ^ 16) (2 ^ sizeExp) op).2) ∧
      Sim16 sizeExp q' (s.step (2 ^ 16) (2 ^ sizeExp) op).1 := by
  cases op with
  | push m user =>
      obtain ⟨q', hpush, sim⟩ := h.push_stays hok stays
      exact ⟨q', by rw [ReorderQueue.step, hpush]; rfl, sim⟩
  | pull =>
      obtain ⟨q', hpull, sim⟩ := h.pull_stays stays
      exact ⟨q', by rw [ReorderQueue.step, hpull]; rfl, sim⟩
  | peek index =>
      refine ⟨q, ?_, h⟩
      rw [ReorderQueue.step, h.peek_eq_slotAt]
      rfl
  | drop index =>
      refine ⟨q, ?_, h⟩
      rw [ReorderQueue.step, drop_eq h.rep, ← peek_eq h.rep, h.peek_eq_slotAt, h.emitted_eq]
      rfl
  | setDropStrategy strategy =>
      exact ⟨_, rfl, h.toSim.setDropStrategy strategy, h.fns, h.below⟩

theorem step_leaves (op : Op α) (hok : PushOk (2 ^ 16) q op) (leaves : ¬ StaysBelow q op)
    {q' : ReorderQueue α} {o : Out α} (hstep : q.step op = .ok (q', o)) : ¬ InRange q' := by
  cases op with
  | push m user =>
      rcases h.push_leaves hok leaves with failed | ⟨q'', dropped, hpush, range⟩
      · simp [ReorderQueue.step, failed, Except.map] at hstep
      · rw [ReorderQueue.step, hpush] at hstep
        obtain ⟨rfl, -⟩ := Prod.mk.inj (Except.ok.inj hstep)
        exact range
  | pull =>
      obtain ⟨q'', pulled, hpull, range⟩ := h.pull_leaves leaves
      rw [ReorderQueue.step, hpull] at hstep
      obtain ⟨rfl, -⟩ := Prod.mk.inj (Except.ok.inj hstep)
      exact range
  | _ => exact absurd trivial leaves

theorem push_duplicate {i : Nat} {p : Nat × α} (shown : q.peek i = some p) (user : α) :
    q.push p.1 user = .ok (q, [(p.1, user)]) := by
  rw [peek_eq h.rep, Option.map_eq_some_iff] at shown
  obtain ⟨x, slot, rfl⟩ := shown
  have slot' := Option.join_eq_some_iff.mp slot
  have low := h.below i x slot'
  have inside := (List.getElem?_eq_some_iff.mp slot').1
  have fits := h.rep.fits
  have half := h.rep.half
  have sum : q.add q.begin i = q.begin + i := h.add_begin (by omega)
  have distance : ahead (2 ^ 16) s.window.base (q.begin + i) = i := by
    rw [← h.ahead_begin, ahead_add_right (by omega) _ (by omega)]
  have hok : PushOk (2 ^ 16) q (.push (q.begin + i) user) :=
    ⟨low, by rw [h.ahead_begin, distance]; omega⟩
  have hc := h.comparable hok fun _ => Nat.le_add_right _ _
  simp only [sum]
  rw [push_present h.rep hc user (by rw [distance]; omega)
    (by rw [Window.lookup, distance, slot]; rfl), h.emitted_eq]

end Sim16

/-- At every point of the run no assertion has failed, every answer was the window's, all numbers are
16-bit numbers, and a stored number is recognised. -/
def BehavesAsWindow (sizeExp : Nat) (q : ReorderQueue α) (s : Spec α) (ops : List (Op α)) : Prop :=
  ∀ done, done <+: ops → ∃ t,
    run step q done = .ok (t, (runTotal (Spec.step (2 ^ 16) (2 ^ sizeExp)) s done).2) ∧
    InRange t ∧
    (∀ o ∈ (runTotal (Spec.step (2 ^ 16) (2 ^ sizeExp)) s done).2, ∀ p ∈ o.shown, p.1 < 2 ^ 16) ∧
    (∀ i p user, t.peek i = some p → t.push p.1 user = .ok (t, [(p.1, user)]))

theorem staysBelow_of_behaves {sizeExp : Nat} {q : ReorderQueue α} {s : Spec α}
    (h : Sim16 sizeExp q s) {ops : List (Op α)} (hok : Along step (PushOk (2 ^ 16)) q ops)
    (behaves : BehavesAsWindow sizeExp q s ops) : Along step StaysBelow q ops := by
  induction ops generalizing q s with
  | nil => trivial
  | cons op ops ih =>
      have stays : StaysBelow q op := by
        by_contra leaves
        obtain ⟨t, hrun, range, -⟩ := behaves [op] (by simp)
        obtain ⟨q', o, os, hstep, hrest, -⟩ := run_cons_inv hrun
        obtain ⟨rfl, -⟩ := Prod.mk.inj (Except.ok.inj hrest)
        exact h.step_leaves op hok.1 leaves hstep range
      obtain ⟨q', hstep, sim⟩ := h.step_stays op hok.1 stays
      rw [along_cons hstep] at hok ⊢
      refine ⟨stays, ih sim hok.2 ?_⟩
      intro done prefix_
      obtain ⟨t, hrun, range, numbers, duplicates⟩ := behaves (op :: done) (by simpa using prefix_)
      obtain ⟨q'', o, os, hstep', hrest, same⟩ := run_cons_inv hrun
      rw [hstep] at hstep'
      obtain ⟨rfl, rfl⟩ := Prod.mk.inj (Except.ok.inj hstep')
      obtain rfl : os = _ := (List.cons.inj same).2.symm
      exact ⟨t, hrest, range, fun o member => numbers o (List.mem_cons_of_mem _ member), duplicates⟩

theorem behavesAsWindow_iff [Inhabited α] {sizeExp start : Nat} {q : ReorderQueue α}
    (hsize : sizeExp < 15) (hinit : init16 sizeExp start = some q) (hstart : start < 2 ^ 16)
    {ops : List (Op α)} (hok : Along step (PushOk (2 ^ 16)) q.setDropCb ops) :
    BehavesAsWindow sizeExp q.setDropCb ⟨.refuseNew, ⟨start, []⟩⟩ ops ↔
      Along step StaysBelow q.setDropCb ops := by
  have fresh : Sim16 sizeExp q.setDropCb ⟨.refuseNew, ⟨start, []⟩⟩ := by
    obtain ⟨sim, fns⟩ := init_sim seqNumFns16_laws (by omega) hinit hstart
    exact ⟨sim, fns, by simp⟩
  constructor
  · exact staysBelow_of_behaves fresh hok
  · rintro stays done ⟨rest, rfl⟩
    have both : Along step (fun q op => PushOk (2 ^ 16) q op ∧ StaysBelow q op) q.setDropCb done :=
      hok.append.and stays.append
    obtain ⟨t, hrun, sim⟩ := run_simulation (fun _ _ op h hop => h.step_stays op hop.1 hop.2) fresh both
    obtain ⟨t', os, hrun', -, numbers⟩ := run_invariant (fun q => ∃ s, Sim16 sizeExp q s)
      (fun o => ∀ p ∈ o.shown, p.1 < 2 ^ 16) (fun q op ⟨s, h⟩ hop => by
        obtain ⟨q', hstep, sim⟩ := h.step_stays op hop.1 hop.2
        refine ⟨q', _, hstep, ⟨_, sim⟩, s.shown_lt (by omega) (Nat.two_pow_pos _) op ?_⟩
        rintro m user rfl
        exact hop.1.1) ⟨_, fresh⟩ both
    rw [hrun] at hrun'
    obtain ⟨rfl, rfl⟩ := Prod.mk.inj (Except.ok.inj hrun')
    exact ⟨t, hrun, sim.inRange, numbers, fun i p user shown => sim.push_duplicate shown user⟩

/-- 65535 and 0 arrive one after the other: the end of the queue is then 65536, which 0 is not. -/
theorem not_behavesAsWindow_at_wrap :
    ∃ q : ReorderQueue Nat, init16 2 65535 = some q ∧
      Along step (PushOk (2 ^ 16)) q.setDropCb [.push 65535 7, .push 0 8] ∧
      ¬ BehavesAsWindow 2 q.setDropCb ⟨.refuseNew, ⟨65535, []⟩⟩ [.push 65535 7, .push 0 8] := by
  refine ⟨_, rfl, ?_, ?_⟩
  · rw [along_cons rfl]
    exact ⟨⟨by decide, by decide⟩, ⟨by decide, by decide⟩, fun _ _ _ => trivial⟩
  · intro behaves
    obtain ⟨t, hrun, -⟩ := behaves _ List.prefix_rfl
    have failed : (.error .assertion : Checked (ReorderQueue Nat × List (Out Nat))) = .ok _ := hrun
    cases failed

theorem behavesAsWindow_from_42 :
    ∃ q : ReorderQueue Nat, init16 2 42 = some q ∧
      BehavesAsWindow 2 q.setDropCb ⟨.refuseNew, ⟨42, []⟩⟩ [.push 43 8, .push 42 7, .pull] := by
  have hinit : (init16 2 42 : Option (ReorderQueue Nat)) = some _ := rfl
  refine ⟨_, rfl, (behavesAsWindow_iff (by decide) hinit (by decide) ?_).mpr ?_⟩
  · rw [along_cons rfl, along_cons rfl, along_cons rfl]
    exact ⟨⟨by decide, by decide⟩, ⟨by decide, by decide⟩, trivial, trivial⟩
  · rw [along_cons rfl, along_cons rfl, along_cons rfl]
    exact ⟨fun _ wraps => absurd wraps (by decide), fun _ wraps => absurd wraps (by decide),
      fun last => absurd last (by decide), trivial⟩

end ReorderQueue
end Chiaki
