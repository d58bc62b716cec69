import Chiaki.Lib.Machine

/-!
# Accounts of what a machine holds

A step takes items in, gives items away and may lose some. As long as nothing is lost, everything that was ever
taken in is held or was given away, each item as often as it came.
-/

namespace Machine

variable {σ ι ο ε κ : Type*} {step : σ → ι → Except ε (σ × ο)} {held : σ → List κ} {taken given : ο → List κ}
  {lost : σ → ι → List κ}

/-- The account of one step. -/
def Accounts (step : σ → ι → Except ε (σ × ο)) (held : σ → List κ) (taken given : ο → List κ)
    (lost : σ → ι → List κ) (Inv : σ → Prop) : Prop :=
  ∀ s i s' o, Inv s → step s i = .ok (s', o) →
    Inv s' ∧ (held s' ++ given o ++ lost s i).Perm (taken o ++ held s)

/-- At every moment of the run, everything that came is held or was given away. -/
def Balanced (step : σ → ι → Except ε (σ × ο)) (held : σ → List κ) (taken given : ο → List κ) (s : σ)
    (is : List ι) : Prop :=
  ∀ done, done <+: is → ∀ t os, run step s done = .ok (t, os) →
    (held t ++ os.flatMap given).Perm (os.flatMap taken ++ held s)

theorem Accounts.run {Inv : σ → Prop} (accounts : Accounts step held taken given lost Inv) {s t : σ} {is : List ι}
    {os : List ο} (hs : Inv s) (keeps : Along step (fun s i => lost s i = []) s is)
    (ran : run step s is = .ok (t, os)) : (held t ++ os.flatMap given).Perm (os.flatMap taken ++ held s) := by
  induction is generalizing s os with
  | nil =>
      obtain ⟨rfl, rfl⟩ := Prod.mk.inj (Except.ok.inj ran)
      simp
  | cons i is ih =>
      obtain ⟨s', o, os', stepped, rest, rfl⟩ := run_cons_inv ran
      obtain ⟨hs', now⟩ := accounts s i s' o hs stepped
      have later := ih hs' (keeps.2 s' o stepped) rest
      rw [keeps.1, List.append_nil] at now
      classical
      rw [List.perm_iff_count] at now later ⊢
      intro k
      have nowk := now k
      have laterk := later k
      simp only [List.flatMap_cons, List.count_append] at nowk laterk ⊢
      omega

theorem Accounts.balanced_iff {Inv : σ → Prop} (accounts : Accounts step held taken given lost Inv)
    (loses : ∀ s i, lost s i ≠ [] → ∃ r, step s i = .ok r) {s : σ} (hs : Inv s) (is : List ι) :
    Balanced step held taken given s is ↔ Along step (fun s i => lost s i = []) s is := by
  constructor
  · intro balanced
    induction is generalizing s with
    | nil => trivial
    | cons i is ih =>
        have one : ∀ s' o, step s i = .ok (s', o) → (held s' ++ given o).Perm (taken o ++ held s) := by
          intro s' o stepped
          have alone := balanced [i] (List.prefix_append [i] is) s' [o] (by rw [run_cons_ok stepped]; rfl)
          simpa using alone
        refine ⟨?_, fun s' o stepped => ih (accounts s i s' o hs stepped).1 ?_⟩
        · by_contra something
          obtain ⟨⟨s', o⟩, stepped⟩ := loses s i something
          -- what is lost is missing from the balance
          have whole := (accounts s i s' o hs stepped).2.length_eq
          have short := (one s' o stepped).length_eq
          have size := List.length_pos_iff.mpr something
          simp only [List.length_append] at whole short
          omega
        · intro done isPrefix t os ran
          have longer := balanced (i :: done) ((List.prefix_cons_inj i).mpr isPrefix) t (o :: os)
            (by rw [run_cons_ok stepped, ran]; rfl)
          have now := one s' o stepped
          classical
          rw [List.perm_iff_count] at longer now ⊢
          intro k
          have longerk := longer k
          have nowk := now k
          simp only [List.flatMap_cons, List.count_append] at longerk nowk ⊢
          omega
  · rintro keeps done ⟨later, rfl⟩ t os ran
    exact accounts.run hs keeps.append ran

theorem run_inOrder
    (inOrder : ∀ s i s' o, step s i = .ok (s', o) → held s ++ taken o = given o ++ held s') {s t : σ} {is : List ι}
    {os : List ο} (ran : run step s is = .ok (t, os)) :
    held s ++ os.flatMap taken = os.flatMap given ++ held t := by
  induction is generalizing s os with
  | nil =>
      obtain ⟨rfl, rfl⟩ := Prod.mk.inj (Except.ok.inj ran)
      simp
  | cons i is ih =>
      obtain ⟨s', o, os', stepped, rest, rfl⟩ := run_cons_inv ran
      rw [List.flatMap_cons, List.flatMap_cons, ← List.append_assoc, inOrder s i s' o stepped, List.append_assoc,
        ih rest, List.append_assoc]

end Machine
