import Chiaki.Lib.Machine

/-!
# Where runs fail, and how long they last

A run fails at the first input that the machine does not take. Where inputs of some kind use up a rank that no other
input gives back, a run has only so many of them.
-/

namespace Machine

variable {σ ι ο ε : Type*} {step : σ → ι → Except ε (σ × ο)}

theorem run_error_iff {s : σ} {is : List ι} {e : ε} :
    run step s is = .error e ↔
      ∃ before i after t os, is = before ++ i :: after ∧ run step s before = .ok (t, os) ∧ step t i = .error e := by
  induction is generalizing s with
  | nil => simp [run]
  | cons i is ih =>
      cases stepped : step s i with
      | error f =>
          rw [run_cons_error stepped]
          constructor
          · intro failed
            exact ⟨[], i, is, s, [], rfl, rfl, stepped.trans (congrArg _ (Except.error.inj failed))⟩
          · rintro ⟨before, j, after, t, os, split, done, failed⟩
            cases before with
            | nil =>
                cases split
                cases done
                cases stepped.symm.trans failed
                rfl
            | cons j' before =>
                cases split
                rw [run_cons_error stepped] at done
                cases done
      | ok r =>
          obtain ⟨s', o⟩ := r
          rw [run_cons_ok stepped]
          constructor
          · intro failed
            cases rest : run step s' is with
            | ok r =>
                rw [rest] at failed
                cases failed
            | error f =>
                rw [rest] at failed
                obtain ⟨before, j, after, t, os, rfl, done, last⟩ :=
                  ih.mp (rest.trans (congrArg _ (Except.error.inj failed)))
                exact ⟨i :: before, j, after, t, o :: os, rfl, by rw [run_cons_ok stepped, done]; rfl, last⟩
          · rintro ⟨before, j, after, t, os, split, done, failed⟩
            cases before with
            | nil =>
                cases split
                cases done
                cases stepped.symm.trans failed
            | cons j' before =>
                cases split
                obtain ⟨s'', o', os', stepped', done', -⟩ := run_cons_inv done
                obtain ⟨rfl, -⟩ := Prod.mk.inj (Except.ok.inj (stepped.symm.trans stepped'))
                rw [ih.mpr ⟨before, j, after, t, os', rfl, done', failed⟩]
                rfl

/-- How many inputs of a run count, each in the state it is taken in. -/
def counted (step : σ → ι → Except ε (σ × ο)) (counts : σ → ι → Bool) : σ → List ι → Nat
  | _, [] => 0
  | s, i :: is =>
      (if counts s i then 1 else 0) +
        match step s i with
        | .ok (s', _) => counted step counts s' is
        | .error _ => 0

theorem counted_le_rank {counts : σ → ι → Bool} (Inv : σ → Prop) (rank : σ → Nat)
    (hstep : ∀ s i s' o, Inv s → step s i = .ok (s', o) →
      Inv s' ∧ rank s' + (if counts s i then 1 else 0) ≤ rank s) {s t : σ} {is : List ι} {os : List ο} (hs : Inv s)
    (done : run step s is = .ok (t, os)) : rank t + counted step counts s is ≤ rank s := by
  induction is generalizing s os with
  | nil =>
      cases done
      exact Nat.le_refl _
  | cons i is ih =>
      obtain ⟨s', o, os', stepped, rest, -⟩ := run_cons_inv done
      obtain ⟨kept, spent⟩ := hstep s i s' o hs stepped
      have later := ih kept rest
      simp only [counted, stepped]
      omega

end Machine
