import Mathlib.Tactic

/-!
# Loops that may fail

A loop over an index, as a fold in `Except`, and what holds of a result if there is one.
-/

namespace Loop
universe u
variable {ε : Type*}

/-- The result has the property, if there is a result. -/
def Ensures {α : Type*} (P : α → Prop) (x : Except ε α) : Prop := ∀ a, x = .ok a → P a

section Ensures
variable {α β : Type u} {P : β → Prop}

theorem Ensures.ok {b : β} (h : P b) : Ensures P (.ok b : Except ε β) := by
  intro a same
  cases same
  exact h

theorem Ensures.error (e : ε) : Ensures P (.error e) := nofun

theorem Ensures.bind {x : Except ε α} {f : α → Except ε β} (h : ∀ a, x = .ok a → Ensures P (f a)) :
    Ensures P (x >>= f) := by
  cases x with
  | error e => exact .error e
  | ok a => exact h a rfl

end Ensures

section Fold
variable {σ α : Type*}

theorem foldlM_cons_ok {f : σ → α → Except ε σ} {s s' : σ} {a : α} (h : f s a = .ok s') (as : List α) :
    (a :: as).foldlM f s = as.foldlM f s' := by
  rw [List.foldlM_cons, h]
  rfl

theorem foldlM_ok {f : σ → α → Except ε σ} (Inv : σ → Prop) {as : List α} {s : σ} (hs : Inv s)
    (hstep : ∀ a ∈ as, ∀ s, Inv s → ∃ s', f s a = .ok s' ∧ Inv s') :
    ∃ s', as.foldlM f s = .ok s' ∧ Inv s' := by
  induction as generalizing s with
  | nil => exact ⟨s, rfl, hs⟩
  | cons a as ih =>
      obtain ⟨now, later⟩ := List.forall_mem_cons.mp hstep
      obtain ⟨s', first, hs'⟩ := now s hs
      rw [foldlM_cons_ok first]
      exact ih hs' later

theorem foldlM_range_ok {f : σ → Nat → Except ε σ} (Inv : Nat → σ → Prop) {n : Nat} {s : σ} (hs : Inv 0 s)
    (hstep : ∀ i < n, ∀ s, Inv i s → ∃ s', f s i = .ok s' ∧ Inv (i + 1) s') :
    ∃ s', (List.range n).foldlM f s = .ok s' ∧ Inv n s' := by
  induction n with
  | zero => exact ⟨s, rfl, hs⟩
  | succ n ih =>
      obtain ⟨s', front, hs'⟩ := ih fun i below => hstep i (Nat.lt_succ_of_lt below)
      obtain ⟨s'', last, hs''⟩ := hstep n (Nat.lt_succ_self n) s' hs'
      refine ⟨s'', ?_, hs''⟩
      rw [List.range_succ, List.foldlM_append, front]
      exact (foldlM_cons_ok last []).trans rfl

theorem Ensures.foldlM {f : σ → α → Except ε σ} {Inv : σ → Prop} {as : List α} {s : σ} (hs : Inv s)
    (hstep : ∀ a ∈ as, ∀ s, Inv s → Ensures Inv (f s a)) : Ensures Inv (as.foldlM f s) := by
  induction as generalizing s with
  | nil => exact .ok hs
  | cons a as ih =>
      obtain ⟨now, later⟩ := List.forall_mem_cons.mp hstep
      rw [List.foldlM_cons]
      exact .bind fun s' first => ih (now s hs s' first) later

end Fold

end Loop
