import Mathlib.Tactic

/-!
# Orbits of a partial function

From an element on, a partial function is applied as often as it can be. An orbit that comes to an end meets no element
twice, so that it is no longer than the set it stays in.
-/

namespace Orbit

variable {α : Type*} {next : α → Option α} {a b : α}

/-- The element behind `n` steps. -/
def after (next : α → Option α) : (n : Nat) → α → Option α
  | 0, a => some a
  | n + 1, a => (next a).bind (after next n)

theorem after_add (m n : Nat) (a : α) : after next (m + n) a = (after next m a).bind (after next n) := by
  induction m generalizing a with
  | zero => rw [Nat.zero_add, after, Option.bind_some]
  | succ m ih =>
      rw [Nat.add_right_comm, after, after, Option.bind_assoc]
      exact Option.bind_congr fun x _ => ih x

theorem after_succ (n : Nat) (a : α) : after next (n + 1) a = (after next n a).bind next := by
  rw [after_add]
  congr 1
  funext x
  rw [after]
  cases next x <;> rfl

theorem exists_after_of_le {m n : Nat} (le : m ≤ n) (reach : after next n a = some b) : ∃ x, after next m a = some x := by
  obtain ⟨more, rfl⟩ := Nat.exists_eq_add_of_le le
  rw [after_add] at reach
  obtain ⟨x, here, -⟩ := Option.bind_eq_some_iff.mp reach
  exact ⟨x, here⟩

theorem after_ne_of_ends {i j n : Nat} (reach : after next n a = some b) (ends : next b = none) (less : i < j)
    (le : j ≤ n) : after next i a ≠ after next j a := by
  intro same
  have shorter : after next (i + (n - j)) a = some b := by
    rw [after_add, same, ← after_add, Nat.add_sub_cancel' le, reach]
  obtain ⟨x, further⟩ := exists_after_of_le (show i + (n - j) + 1 ≤ n by omega) reach
  rw [after_succ, shorter, Option.bind_some, ends] at further
  cases further

theorem lt_card_of_ends {n : Nat} {s : Finset α} (inside : ∀ k ≤ n, ∀ x, after next k a = some x → x ∈ s)
    (reach : after next n a = some b) (ends : next b = none) : n < s.card := by
  have steps : (Finset.range (n + 1)).card ≤ s.card := by
    apply Finset.card_le_card_of_injOn fun k => (after next k a).getD b
    · intro k member
      have le := Nat.lt_succ_iff.mp (Finset.mem_range.mp member)
      obtain ⟨x, here⟩ := exists_after_of_le le reach
      simpa [here] using inside k le x here
    · intro i memberI j memberJ same
      have leI := Nat.lt_succ_iff.mp (Finset.mem_range.mp (Finset.mem_coe.mp memberI))
      have leJ := Nat.lt_succ_iff.mp (Finset.mem_range.mp (Finset.mem_coe.mp memberJ))
      obtain ⟨x, hereI⟩ := exists_after_of_le leI reach
      obtain ⟨y, hereJ⟩ := exists_after_of_le leJ reach
      simp only [hereI, hereJ, Option.getD_some] at same
      rcases lt_trichotomy i j with less | rfl | less
      · exact absurd (by rw [hereI, hereJ, same]) (after_ne_of_ends reach ends less leJ)
      · rfl
      · exact absurd (by rw [hereI, hereJ, same]) (after_ne_of_ends reach ends less leI)
  rwa [Finset.card_range] at steps

end Orbit
