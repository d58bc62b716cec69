import Chiaki.ReorderQueue.Runs

/-!
# The assertions of the queue

The numbers pushed come from the network. The only one that can fail an assertion of the 32-bit queue is opposite to
`begin`, and only while the queue is empty.
-/

namespace Chiaki
open Serial SlotWindow Machine

namespace ReorderQueue
variable {α : Type} {q q' : ReorderQueue α}

structure Sound (q : ReorderQueue α) : Prop where
  fns : q.fns = seqNumFns32
  begin_lt : q.begin < 2 ^ 32
  sizeExp_lt : q.sizeExp < 31
  count_le : q.count ≤ q.size

/-- The slots as they lie in the array. -/
def window (q : ReorderQueue α) : Window α :=
  ⟨q.begin, (List.range q.count).map fun i => (q.entry (q.begin + i)).slot⟩

namespace Sound
variable (sound : Sound q)
include sound

theorem quarter : 4 * q.size ≤ 2 ^ 32 := by
  have small : 2 ^ q.sizeExp ≤ 2 ^ 30 := Nat.pow_le_pow_right (by decide) (Nat.le_of_lt_succ sound.sizeExp_lt)
  rw [size]
  omega

theorem represents : Represents (2 ^ 32) q q.window where
  laws := sound.fns ▸ seqNumFns32_laws
  dvd := Nat.pow_dvd_pow 2 (by have := sound.sizeExp_lt; omega)
  half := by
    have := sound.quarter
    have := q.size_pos
    omega
  begin_mod := rfl
  count_eq := by simp [window]
  fits := by simpa [window] using sound.count_le
  slot_eq i slot there := by
    simp only [window, List.getElem?_map, Option.map_eq_some_iff] at there
    obtain ⟨j, at_, rfl⟩ := there
    obtain ⟨inside, rfl⟩ := List.getElem?_eq_some_iff.mp at_
    simp [window]

theorem comparable {m : Nat} (number : m < 2 ^ 32) (near : 2 * ahead (2 ^ 32) q.begin m ≠ 2 ^ 32) :
    Comparable (2 ^ 32) q q.window m where
  number := number
  begin_lt := sound.begin_lt
  not_opposite := near
  at_end last := by
    rw [add, sound.fns]
    change m = (q.begin % 2 ^ 32 + q.count % 2 ^ 32) % 2 ^ 32
    rw [sound.represents.count_eq, ← last, ← Nat.add_mod]
    exact (Nat.mod_eq_of_lt number).symm.trans (sound.represents.number_eq m)

theorem of_same {w : Window α} (same : SameSettings q q') (rep : Represents (2 ^ 32) q' w)
    (begin_lt : q'.begin < 2 ^ 32) : Sound q' :=
  ⟨same.fns.trans sound.fns, begin_lt, same.sizeExp ▸ sound.sizeExp_lt, count_le_size rep⟩

theorem add_lt (a b : Nat) : q.add a b < 2 ^ 32 := by
  rw [add, sound.fns]
  exact Nat.mod_lt _ (by decide)

theorem rawBegin_lt (i : Nat) : q.rawBegin i < 2 ^ 32 := by
  cases i with
  | zero => exact sound.begin_lt
  | succ i => exact sound.add_lt _ _

theorem push_near {m : Nat} (number : m < 2 ^ 32) (near : 2 * ahead (2 ^ 32) q.begin m ≠ 2 ^ 32) (user : α) :
    ∃ q' dropped, q.push m user = .ok (q', dropped) ∧ Sound q' := by
  have rep := sound.represents
  have hc := sound.comparable number near
  by_cases before : 2 ^ 32 < 2 * ahead (2 ^ 32) q.begin m
  · exact ⟨q, _, push_before rep hc user before, sound⟩
  have half : 2 * ahead (2 ^ 32) q.begin m < 2 ^ 32 := by omega
  cases present : (q.window.lookup (2 ^ 32) m).isSome with
  | true => exact ⟨q, _, push_present rep hc user half present, sound⟩
  | false =>
      by_cases fits : ahead (2 ^ 32) q.begin m < q.size
      · obtain ⟨q', pushed, rep', start, same⟩ := push_fits rep hc user half present fits
        exact ⟨q', _, pushed, sound.of_same same rep' (start ▸ sound.begin_lt)⟩
      have far : q.size ≤ ahead (2 ^ 32) q.begin m := Nat.not_lt.mp fits
      cases strategy : q.dropStrategy with
      | end_ => exact ⟨q, _, push_refused rep hc user half far strategy, sound⟩
      | begin =>
          obtain ⟨q', pushed, rep', start, same⟩ := push_evicts rep hc user half far strategy
          refine ⟨q', _, pushed, sound.of_same same rep' ?_⟩
          rw [start]
          split
          · exact number
          · exact sound.rawBegin_lt _

theorem push_opposite {m : Nat} (number : m < 2 ^ 32) (opposite : 2 * ahead (2 ^ 32) q.begin m = 2 ^ 32)
    (stored : q.count ≠ 0) (user : α) : ∃ q' dropped, q.push m user = .ok (q', dropped) ∧ Sound q' := by
  have pushed := ReorderQueue.push_opposite sound.represents opposite sound.quarter user
  rw [if_neg stored] at pushed
  by_cases one : q.size = 1
  · rw [if_pos one] at pushed
    exact ⟨_, _, pushed, sound.fns, sound.begin_lt, sound.sizeExp_lt, sound.count_le⟩
  rw [if_neg one] at pushed
  cases strategy : q.dropStrategy with
  | end_ =>
      rw [if_pos strategy] at pushed
      exact ⟨q, _, pushed, sound⟩
  | begin =>
      rw [if_neg (by simp [strategy])] at pushed
      have empty : (q.seek q.count).count = 0 := Nat.sub_self _
      have rep : Represents (2 ^ 32) ((q.seek q.count).shiftIfEmpty m) ⟨m, []⟩ := by
        have rep := sound.represents
        rw [shiftIfEmpty, if_pos empty]
        exact ⟨rep.laws, rep.dvd, rep.half, rfl, empty, Nat.zero_le _, by simp⟩
      obtain ⟨q', stored, rep', start, same⟩ :=
        extendAndStore_eq (m := m) rep (q.add m 1) 0 user (by simpa using q.size_pos) rfl
          (sound.represents.laws.add_mod m 1) le_rfl
      rw [stored] at pushed
      have kept : SameSettings q q' :=
        (SameSettings.seek q q.count).trans ((SameSettings.shiftIfEmpty _ m).trans same)
      refine ⟨q', _, pushed, sound.of_same kept rep' ?_⟩
      rw [start, shiftIfEmpty, if_pos empty]
      exact number

theorem pull : ∃ q' pulled, q.pull = .ok (q', pulled) ∧ Sound q' := by
  have rep := sound.represents
  unfold ReorderQueue.pull
  rw [if_neg (not_not.mpr sound.count_le)]
  by_cases empty : q.count = 0
  · exact ⟨q, none, if_pos empty, sound⟩
  rw [if_neg empty]
  cases here : (q.entry q.begin).set with
  | false => exact ⟨q, none, by simp [here], sound⟩
  | true =>
      refine ⟨q.advance, some (q.begin, (q.entry q.begin).user), by simp [here], sound.fns, sound.add_lt _ _,
        sound.sizeExp_lt, ?_⟩
      exact (Nat.sub_le _ _).trans sound.count_le

theorem drop (index : Nat) : Sound (q.drop index).1 := by
  rw [drop_eq sound.represents]
  exact sound

end Sound

/-- A number of 32 bits that is not opposite to `begin` while the queue is empty. -/
def PushesApart (q : ReorderQueue α) : Op α → Prop
  | .push seqNum _ => q.count = 0 → 2 * ahead (2 ^ 32) q.begin seqNum ≠ 2 ^ 32
  | _ => True

def Op.Number : Op α → Prop
  | .push seqNum _ => seqNum < 2 ^ 32
  | _ => True

theorem step_sound (sound : Sound q) (op : Op α) (number : op.Number) (apart : PushesApart q op) :
    ∃ q' o, q.step op = .ok (q', o) ∧ Sound q' := by
  cases op with
  | push m user =>
      have pushed : ∃ q' dropped, q.push m user = .ok (q', dropped) ∧ Sound q' := by
        by_cases opposite : 2 * ahead (2 ^ 32) q.begin m = 2 ^ 32
        · exact sound.push_opposite number opposite (fun empty => apart empty opposite) user
        · exact sound.push_near number opposite user
      obtain ⟨q', dropped, pushed, sound'⟩ := pushed
      exact ⟨q', _, by rw [step, pushed]; rfl, sound'⟩
  | pull =>
      obtain ⟨q', pulled, done, sound'⟩ := sound.pull
      exact ⟨q', _, by rw [step, done]; rfl, sound'⟩
  | peek index => exact ⟨q, _, rfl, sound⟩
  | drop index => exact ⟨_, _, rfl, sound.drop index⟩
  | setDropStrategy strategy =>
      exact ⟨_, _, rfl, sound.fns, sound.begin_lt, sound.sizeExp_lt, sound.count_le⟩

theorem step_asserts (sound : Sound q) (op : Op α) (opposite : ¬ PushesApart q op) :
    q.step op = .error .assertion := by
  cases op with
  | push m user =>
      simp only [PushesApart, Classical.not_imp, not_not] at opposite
      have pushed := push_opposite sound.represents opposite.2 sound.quarter user
      rw [if_pos opposite.1] at pushed
      rw [step, pushed]
      rfl
  | _ => exact absurd trivial opposite

/-- No call of the run fails an assertion, and `count` stays within the array. -/
def KeepsAssertions (q : ReorderQueue α) (ops : List (Op α)) : Prop :=
  ∀ done, done <+: ops → ∃ t os, run step q done = .ok (t, os) ∧ t.count ≤ t.size

theorem run_sound (sound : Sound q) {ops : List (Op α)} (numbers : ∀ op ∈ ops, op.Number) :
    KeepsAssertions q ops ↔ Along step PushesApart q ops := by
  induction ops generalizing q with
  | nil =>
      refine ⟨fun _ => trivial, fun _ done isPrefix => ?_⟩
      obtain rfl := List.prefix_nil.mp isPrefix
      exact ⟨q, [], rfl, sound.count_le⟩
  | cons op ops ih =>
      obtain ⟨number, numbers⟩ := List.forall_mem_cons.mp numbers
      by_cases apart : PushesApart q op
      · obtain ⟨q', o, stepped, sound'⟩ := step_sound sound op number apart
        rw [along_cons stepped, ← ih sound' numbers]
        constructor
        · refine fun keeps => ⟨apart, fun done isPrefix => ?_⟩
          obtain ⟨t, os, ran, fits⟩ := keeps (op :: done) ((List.prefix_cons_inj op).mpr isPrefix)
          obtain ⟨q'', o', os', stepped', rest, -⟩ := run_cons_inv ran
          rw [stepped] at stepped'
          obtain ⟨rfl, rfl⟩ := Prod.mk.inj (Except.ok.inj stepped')
          exact ⟨t, os', rest, fits⟩
        · rintro ⟨-, keeps⟩ done isPrefix
          cases done with
          | nil => exact ⟨q, [], rfl, sound.count_le⟩
          | cons op' done =>
              obtain ⟨rfl, shorter⟩ := List.cons_prefix_cons.mp isPrefix
              obtain ⟨t, os, rest, fits⟩ := keeps done shorter
              exact ⟨t, o :: os, by rw [run_cons_ok stepped, rest]; rfl, fits⟩
      · refine ⟨fun keeps => ?_, fun along => absurd along.1 apart⟩
        obtain ⟨t, os, ran, -⟩ := keeps [op] (by simp)
        rw [run_cons_error (step_asserts sound op apart)] at ran
        cases ran

theorem init32_sound [Inhabited α] {sizeExp start : Nat} (fresh : init32 sizeExp start = some q)
    (number : start < 2 ^ 32) : Sound q := by
  unfold init32 init at fresh
  split at fresh
  · obtain rfl := Option.some.inj fresh
    exact ⟨rfl, number, ‹_›, Nat.zero_le _⟩
  · cases fresh

/-- A queue with a callback or without. -/
theorem keepsAssertions_iff [Inhabited α] {sizeExp start : Nat} (fresh : init32 sizeExp start = some q)
    (number : start < 2 ^ 32) (calls : q' = q ∨ q' = q.setDropCb) {ops : List (Op α)}
    (numbers : ∀ op ∈ ops, op.Number) : KeepsAssertions q' ops ↔ Along step PushesApart q' ops := by
  have sound := init32_sound fresh number
  apply run_sound _ numbers
  rcases calls with rfl | rfl
  · exact sound
  · exact ⟨sound.fns, sound.begin_lt, sound.sizeExp_lt, sound.count_le⟩

theorem keepsAssertions_opposite : ∃ q : ReorderQueue Nat, init32 4 0 = some q ∧
    (KeepsAssertions q.setDropCb [.push 1 7, .push (2 ^ 31) 8] ↔
      Along step PushesApart q.setDropCb [.push 1 7, .push (2 ^ 31) 8]) := by
  have fresh : (init32 4 0 : Option (ReorderQueue Nat)) = some _ := rfl
  exact ⟨_, fresh, keepsAssertions_iff fresh (by decide) (.inr rfl) (by simp [Op.Number])⟩

/-- The first data message has the number opposite to the next one expected. -/
theorem not_keepsAssertions : ∃ q : ReorderQueue Nat, init32 4 0 = some q ∧
    ¬ KeepsAssertions q.setDropCb [.push (2 ^ 31) 7] := by
  refine ⟨_, rfl, fun keeps => ?_⟩
  obtain ⟨t, os, ran, -⟩ := keeps _ List.prefix_rfl
  have failed : (.error .assertion : Checked (ReorderQueue Nat × List (Out Nat))) = .ok _ := ran
  cases failed

end ReorderQueue
end Chiaki
