import Mathlib.Tactic

/-!
# Bump allocation

Intervals `(start, length)` that are laid out one behind the other.
-/

namespace Bump

def Laid : (cur : Nat) → List (Nat × Nat) → Prop
  | _, [] => True
  | cur, (start, length) :: rest => start = cur ∧ Laid (cur + length) rest

/-- Every interval but the last one reaches the next block. -/
def Spread (block : Nat) : (cur : Nat) → List Nat → Prop
  | _, [] => True
  | _, [_] => True
  | cur, length :: rest => block ≤ cur % block + length ∧ Spread block (cur + length) rest

theorem Laid.le {cur : Nat} {intervals : List (Nat × Nat)} (laid : Laid cur intervals) :
    ∀ i ∈ intervals, cur ≤ i.1 := by
  induction intervals generalizing cur with
  | nil => simp
  | cons i rest ih =>
      obtain ⟨start, length⟩ := i
      obtain ⟨rfl, later⟩ := laid
      intro j member
      rcases List.mem_cons.mp member with rfl | member
      · exact le_rfl
      · exact (Nat.le_add_right start length).trans (ih later j member)

theorem Laid.stop_le {cur : Nat} {intervals : List (Nat × Nat)} (laid : Laid cur intervals) :
    ∀ i ∈ intervals, i.1 + i.2 ≤ cur + (intervals.map (·.2)).sum := by
  induction intervals generalizing cur with
  | nil => simp
  | cons i rest ih =>
      obtain ⟨start, length⟩ := i
      obtain ⟨rfl, later⟩ := laid
      intro j member
      rw [List.map_cons, List.sum_cons, ← Nat.add_assoc]
      rcases List.mem_cons.mp member with rfl | member
      · exact Nat.le_add_right _ _
      · exact ih later j member

theorem Laid.pairwise {cur : Nat} {intervals : List (Nat × Nat)} (laid : Laid cur intervals) :
    intervals.Pairwise fun i j => i.1 + i.2 ≤ j.1 := by
  induction intervals generalizing cur with
  | nil => exact List.Pairwise.nil
  | cons i rest ih =>
      obtain ⟨start, length⟩ := i
      obtain ⟨rfl, later⟩ := laid
      exact List.pairwise_cons.mpr ⟨later.le, ih later⟩

theorem Laid.append {cur stop : Nat} {intervals later : List (Nat × Nat)} (laid : Laid cur intervals)
    (behind : cur + (intervals.map (·.2)).sum = stop) (next : Laid stop later) : Laid cur (intervals ++ later) := by
  induction intervals generalizing cur with
  | nil =>
      obtain rfl : cur = stop := by simpa using behind
      exact next
  | cons i rest ih =>
      obtain ⟨start, length⟩ := i
      obtain ⟨rfl, inner⟩ := laid
      refine ⟨rfl, ih inner ?_⟩
      rw [← behind, List.map_cons, List.sum_cons]
      omega

theorem Laid.spread_iff {block cur : Nat} {intervals : List (Nat × Nat)} (positive : 0 < block)
    (laid : Laid cur intervals) :
    (intervals.map (·.1)).Pairwise (fun p q => p / block ≠ q / block) ↔
      Spread block cur (intervals.map (·.2)) := by
  induction intervals generalizing cur with
  | nil => simp [Spread]
  | cons i rest ih =>
      obtain ⟨start, length⟩ := i
      obtain ⟨rfl, later⟩ := laid
      cases rest with
      | nil => simp [Spread]
      | cons j rest =>
          have next : j.1 = start + length := later.1
          have apart : start / block ≠ (start + length) / block ↔ block ≤ start % block + length := by
            have small := Nat.mod_lt start positive
            have shifted : (start + length) / block = start / block + (start % block + length) / block := by
              conv_lhs => rw [← Nat.div_add_mod start block, Nat.add_assoc, Nat.mul_add_div positive]
            rw [shifted]
            constructor
            · intro different
              by_contra short
              exact different (by rw [Nat.div_eq_of_lt (Nat.lt_of_not_le short), Nat.add_zero])
            · intro reaches
              have some := Nat.div_pos reaches positive
              omega
          rw [List.map_cons, List.pairwise_cons, ih later]
          constructor
          · rintro ⟨first, spread⟩
            exact ⟨apart.mp (next ▸ first j.1 (by simp)), spread⟩
          · rintro ⟨reaches, spread⟩
            refine ⟨?_, spread⟩
            intro q member
            obtain ⟨k, inside, rfl⟩ := List.mem_map.mp member
            have above := Nat.div_le_div_right (later.le k inside) (c := block)
            have below := Nat.div_le_div_right (Nat.le_add_right start length) (c := block)
            have different := apart.mpr reaches
            dsimp only at below ⊢
            omega

end Bump
