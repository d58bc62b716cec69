import Chiaki.ReorderQueue.Runs

/-!
# Who owns a pushed element

Every element is handed back once: by `pull`, by `drop_cb`, or by `fini`. The one call that breaks the
account is `drop`, which reports a stored element and leaves it in its slot.
-/

namespace Chiaki
open Serial SlotWindow Machine

namespace ReorderQueue
variable {α : Type}

def Op.pushed : Op α → List (Nat × α)
  | .push seqNum user => [(seqNum, user)]
  | _ => []

def pushed (ops : List (Op α)) : List (Nat × α) := ops.flatMap Op.pushed

/-- What a call takes out of the hands of the queue. -/
def Out.handed (o : Out α) : List (Nat × α) := o.pulled.toList ++ o.dropped

def handedOut (os : List (Out α)) : List (Nat × α) := os.flatMap Out.handed

/-- At every point of the run the elements handed out are among those pushed, no more often, a peek
shows only an element that is still owed, `fini` hands out exactly the rest, and `count` stays within
the array. -/
def Conserves (q : ReorderQueue α) (ops : List (Op α)) : Prop :=
  ∀ done, done <+: ops → ∃ t os, run step q done = .ok (t, os) ∧
    (handedOut os).Subperm (pushed done) ∧
    (∀ index p, t.peek index = some p → (handedOut os ++ [p]).Subperm (pushed done)) ∧
    (handedOut os ++ t.fini).Perm (pushed done) ∧
    t.count ≤ 2 ^ t.sizeExp

/-- A call that is not a `drop` of a stored element. -/
def DropsNothing (q : ReorderQueue α) : Op α → Prop
  | .drop index => q.peek index = none
  | _ => True

/-- The element a `drop` hands out while keeping it. -/
def repeats (q : ReorderQueue α) : Op α → List (Nat × α)
  | .drop index => (q.peek index).toList
  | _ => []

theorem repeats_eq_nil_iff (q : ReorderQueue α) (op : Op α) :
    q.repeats op = [] ↔ q.DropsNothing op := by
  cases op with
  | drop index => simp [repeats, DropsNothing]
  | push _ _ => simp [repeats, DropsNothing]
  | pull => simp [repeats, DropsNothing]
  | peek _ => simp [repeats, DropsNothing]
  | setDropStrategy _ => simp [repeats, DropsNothing]

namespace Sim32
variable {sizeExp : Nat} {q : ReorderQueue α} {s : Spec α} (h : Sim32 sizeExp q s)
include h

theorem peek_eq_slotAt (index : Nat) : q.peek index = s.slotAt (2 ^ 32) index := by
  rw [peek_eq h.rep, h.add_begin]
  rfl

theorem fini_eq_contents : q.fini = s.window.contents (2 ^ 32) := by
  rw [fini_eq h.rep, h.emitted_eq, funext h.add_begin]
  rfl

theorem peek_mem {index : Nat} {p : Nat × α} (hpeek : q.peek index = some p) :
    p ∈ s.window.contents (2 ^ 32) := by
  rw [h.peek_eq_slotAt, Spec.slotAt, Option.map_eq_some_iff] at hpeek
  obtain ⟨x, hslot, rfl⟩ := hpeek
  exact mem_numbered.mpr ⟨index, by simpa [Option.join_eq_some_iff] using hslot, rfl⟩

theorem step_conserves (op : Op α) (hok : PushOk (2 ^ 32) q op) :
    ((s.step (2 ^ 32) (2 ^ sizeExp) op).2.handed ++
        (s.step (2 ^ 32) (2 ^ sizeExp) op).1.window.contents (2 ^ 32)).Perm
      (op.pushed ++ q.repeats op ++ s.window.contents (2 ^ 32)) := by
  cases op with
  | push m user =>
      exact Window.push_conserves h.rep.pos (Nat.two_pow_pos _) s.policy
        (h.rep.fits.trans_eq h.size_eq) hok.1 user
  | pull =>
      cases taken : s.window.pull.2 with
      | none =>
          simp only [Spec.step, taken, Window.pull_of_none taken]
          exact .refl _
      | some p =>
          simp only [Spec.step, taken, Window.contents_pull (n := 2 ^ 32) taken]
          exact .refl _
  | peek index => exact .refl _
  | drop index =>
      simp only [Spec.step, Out.handed, Op.pushed, repeats, h.peek_eq_slotAt]
      exact .refl _
  | setDropStrategy strategy => exact .refl _

end Sim32

theorem run_conserves {sizeExp : Nat} {q : ReorderQueue α} {s : Spec α} (h : Sim32 sizeExp q s)
    {ops : List (Op α)} (hok : Along step (PushOk (2 ^ 32)) q ops) :
    ∃ t os s' extra, run step q ops = .ok (t, os) ∧ Sim32 sizeExp t s' ∧
      (handedOut os ++ s'.window.contents (2 ^ 32)).Perm
        (pushed ops ++ extra ++ s.window.contents (2 ^ 32)) ∧
      (extra = [] ↔ Along step DropsNothing q ops) := by
  induction ops generalizing q s with
  | nil => exact ⟨q, [], s, [], rfl, h, .refl _, by simp [Along]⟩
  | cons op ops ih =>
      obtain ⟨q', hstep, hsim⟩ := h.step op hok.1
      obtain ⟨t, os, s', extra, hrun, ht, hperm, hextra⟩ := ih hsim (hok.2 q' _ hstep)
      have hone := h.step_conserves op hok.1
      refine ⟨t, _ :: os, s', q.repeats op ++ extra, by rw [run_cons_ok hstep, hrun]; rfl, ht, ?_, ?_⟩
      · have hall := (hperm.append_left
          (s.step (2 ^ 32) (2 ^ sizeExp) op).2.handed)
        have hrest := hone.append_left (pushed ops ++ extra)
        classical
        rw [List.perm_iff_count] at hall hrest ⊢
        intro p
        have h1 := hall p
        have h2 := hrest p
        simp only [handedOut, pushed, List.flatMap_cons, List.count_append] at h1 h2 ⊢
        omega
      · rw [List.append_eq_nil_iff, hextra, repeats_eq_nil_iff, along_cons hstep]

/-- With a callback set, a queue conserves its elements in exactly the runs in which `drop` never
meets a stored element. -/
theorem conserves_iff_dropsNothing [Inhabited α] {sizeExp start : Nat} {q : ReorderQueue α}
    (hinit : init32 sizeExp start = some q) (hstart : start < 2 ^ 32) {ops : List (Op α)}
    (hok : Along step (PushOk (2 ^ 32)) q.setDropCb ops) :
    Conserves q.setDropCb ops ↔ Along step DropsNothing q.setDropCb ops := by
  have hsim := init32_sim hinit hstart
  constructor
  · intro hcons
    obtain ⟨t, os, s', extra, hrun, ht, hperm, hextra⟩ := run_conserves hsim hok
    obtain ⟨t', os', hrun', -, -, hfini, -⟩ := hcons ops List.prefix_rfl
    rw [hrun] at hrun'
    obtain ⟨rfl, rfl⟩ := Prod.mk.inj (Except.ok.inj hrun')
    -- an element kept by `drop` would be handed out a second time
    have hlen := (hfini.symm.trans (ht.fini_eq_contents ▸ hperm)).length_eq
    refine hextra.mp (List.eq_nil_of_length_eq_zero ?_)
    simp only [List.length_append] at hlen
    omega
  · rintro hdrops done ⟨rest, rfl⟩
    obtain ⟨t, os, s', extra, hrun, ht, hperm, hextra⟩ := run_conserves hsim hok.append
    obtain rfl := hextra.mpr hdrops.append
    replace hperm : (handedOut os ++ s'.window.contents (2 ^ 32)).Perm (pushed done) := by
      simpa [Window.contents] using hperm
    refine ⟨t, os, hrun, ?_, ?_, ?_, ?_⟩
    · exact (List.sublist_append_left _ _).subperm.trans hperm.subperm
    · intro index p hpeek
      have hmem := List.singleton_sublist.mpr (ht.peek_mem hpeek)
      exact (hmem.append_left _).subperm.trans hperm.subperm
    · rw [ht.fini_eq_contents]
      exact hperm
    · exact count_le_size ht.rep

/-- 42 is pushed, dropped and then pulled: its element is handed out twice. -/
theorem not_conserves_drop_then_pull :
    ∃ q : ReorderQueue Nat, init32 2 42 = some q ∧
      Along step (PushOk (2 ^ 32)) q.setDropCb [.push 42 7, .drop 0, .pull] ∧
      ¬ Conserves q.setDropCb [.push 42 7, .drop 0, .pull] := by
  refine ⟨_, rfl, ?_, ?_⟩
  · rw [along_cons rfl, along_cons rfl, along_cons rfl]
    exact ⟨⟨by decide, by decide⟩, trivial, trivial, trivial⟩
  · intro hcons
    obtain ⟨t, os, hrun, hsub, -⟩ := hcons _ List.prefix_rfl
    have hos : os = [{}, { dropped := [(42, 7)] }, { pulled := some (42, 7) }] :=
      (Prod.mk.inj (Except.ok.inj hrun)).2.symm
    subst hos
    exact absurd hsub.length_le (by decide)

/-- The same run without the `drop` conserves its element. -/
theorem conserves_push_pull :
    ∃ q : ReorderQueue Nat, init32 2 42 = some q ∧
      Conserves q.setDropCb [.push 42 7, .peek 0, .pull] := by
  have hinit : (init32 2 42 : Option (ReorderQueue Nat)) = some _ := rfl
  refine ⟨_, rfl, (conserves_iff_dropsNothing hinit (by decide) ?_).mpr ?_⟩
  · rw [along_cons rfl, along_cons rfl, along_cons rfl]
    exact ⟨⟨by decide, by decide⟩, trivial, trivial, trivial⟩
  · rw [along_cons rfl, along_cons rfl, along_cons rfl]
    exact ⟨trivial, trivial, trivial, trivial⟩

end ReorderQueue
end Chiaki
