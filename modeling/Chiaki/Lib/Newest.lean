import Chiaki.Lib.Machine
import Chiaki.Lib.Serial

/-!
# Passing on what is newest

A filter that passes a number on only when it is greater than every number before. It lets through all numbers
between the first and the greatest exactly when no input jumps over one of them.
-/

namespace Newest
open Machine

/-- The greatest number so far. -/
def after (newest : Nat) (ms : List Nat) : Nat := ms.foldl max newest

def pass (newest : Nat) : List Nat → List Nat
  | [] => []
  | m :: ms => if newest < m then m :: pass m ms else pass newest ms

/-- No input jumps over a number. -/
abbrev Gapless : Nat → List Nat → Prop := Follows max fun newest m => m ≤ newest + 1

/-- Every input is closer than `h` to the greatest number before it. -/
abbrev Near (h : Nat) : Nat → List Nat → Prop := Follows max fun newest m => m < newest + h ∧ newest < m + h

variable {p : Nat} {ms : List Nat}

@[simp] theorem after_nil (p : Nat) : after p [] = p := rfl
@[simp] theorem after_cons (p m : Nat) (ms : List Nat) : after p (m :: ms) = after (max p m) ms := rfl

theorem after_append (p : Nat) (ms ms' : List Nat) : after p (ms ++ ms') = after (after p ms) ms' :=
  List.foldl_append

theorem le_after (p : Nat) (ms : List Nat) : p ≤ after p ms := by
  induction ms generalizing p with
  | nil => exact Nat.le_refl p
  | cons m ms ih => exact Nat.le_trans (Nat.le_max_left p m) (ih _)

theorem le_after_of_mem {m : Nat} (member : m ∈ ms) : m ≤ after p ms := by
  induction ms generalizing p with
  | nil => cases member
  | cons m' ms ih =>
      rcases List.mem_cons.mp member with rfl | member
      · exact Nat.le_trans (Nat.le_max_right p m) (le_after _ ms)
      · exact ih member

theorem after_le {q : Nat} (hp : p ≤ q) (hms : ∀ m ∈ ms, m ≤ q) : after p ms ≤ q := by
  induction ms generalizing p with
  | nil => exact hp
  | cons m ms ih =>
      obtain ⟨hm, hms⟩ := List.forall_mem_cons.mp hms
      exact ih (Nat.max_le.mpr ⟨hp, hm⟩) hms

theorem pass_append (p : Nat) (ms ms' : List Nat) :
    pass p (ms ++ ms') = pass p ms ++ pass (after p ms) ms' := by
  induction ms generalizing p with
  | nil => rfl
  | cons m ms ih =>
      rw [List.cons_append, pass, pass, after_cons]
      split
      · rename_i newer
        rw [ih, Nat.max_eq_right (Nat.le_of_lt newer), List.cons_append]
      · rename_i older
        rw [ih, Nat.max_eq_left (Nat.le_of_not_lt older)]

/-- Everything up to the greatest number is passed on exactly when nothing is jumped over. -/
theorem pass_eq_iff : pass p ms = List.range' (p + 1) (after p ms - p) ↔ Gapless p ms := by
  induction ms generalizing p with
  | nil => simp [pass, Follows]
  | cons m ms ih =>
      rw [pass, after_cons]
      by_cases newer : p < m
      · have grows := le_after m ms
        have length : after m ms - p = (after m ms - (p + 1)) + 1 := by omega
        rw [if_pos newer, Nat.max_eq_right (Nat.le_of_lt newer), length, List.range'_succ, List.cons.injEq]
        constructor
        · rintro ⟨rfl, rest⟩
          refine ⟨Nat.le_refl _, ?_⟩
          rw [Nat.max_eq_right (Nat.le_succ p)]
          exact ih.mp rest
        · rintro ⟨next, rest⟩
          obtain rfl : m = p + 1 := Nat.le_antisymm next newer
          rw [Nat.max_eq_right (Nat.le_succ p)] at rest
          exact ⟨rfl, ih.mpr rest⟩
      · have older := Nat.le_of_not_lt newer
        rw [if_neg newer, Nat.max_eq_left older, ih]
        constructor
        · intro rest
          refine ⟨Nat.le_succ_of_le older, ?_⟩
          rwa [Nat.max_eq_left older]
        · rintro ⟨-, rest⟩
          rwa [Nat.max_eq_left older] at rest

theorem gapless_old (old : ∀ m ∈ ms, m ≤ p) : Gapless p ms := by
  induction ms with
  | nil => trivial
  | cons m ms ih =>
      obtain ⟨hm, hms⟩ := List.forall_mem_cons.mp old
      refine ⟨Nat.le_succ_of_le hm, ?_⟩
      rw [Nat.max_eq_left hm]
      exact ih hms

/-- A block of consecutive numbers jumps over nothing when its first one does not. -/
theorem gapless_range' {start count : Nat} (some_ : 0 < count) :
    Gapless p (List.range' start count) ↔ start ≤ p + 1 := by
  induction count generalizing p start with
  | zero => exact absurd some_ (Nat.lt_irrefl 0)
  | succ count ih =>
      rw [List.range'_succ]
      constructor
      · exact And.left
      · intro next
        refine ⟨next, ?_⟩
        cases count with
        | zero => trivial
        | succ count => exact (ih (Nat.succ_pos count)).mpr (Nat.succ_le_succ (Nat.le_max_right p start))

theorem eq_of_map_mod {n : Nat} {ms' : List Nat} (steps : (p :: ms).IsChain fun a b => a < b ∧ b < a + n)
    (steps' : (p :: ms').IsChain fun a b => a < b ∧ b < a + n) (same : ms.map (· % n) = ms'.map (· % n)) :
    ms = ms' := by
  induction ms generalizing p ms' with
  | nil => exact (List.map_eq_nil_iff.mp same.symm).symm
  | cons m ms ih =>
      cases ms' with
      | nil => simp at same
      | cons m' ms' =>
          obtain ⟨step, steps⟩ := List.isChain_cons_cons.mp steps
          obtain ⟨step', steps'⟩ := List.isChain_cons_cons.mp steps'
          obtain ⟨head, tail⟩ := List.cons.inj same
          -- both heads lie among the `n - 1` numbers after `p`
          have close : |(m' : Int) - m| < n := by
            rw [abs_lt]
            omega
          have heads : m = m' := Nat.ModEq.eq_of_abs_lt head close
          subst heads
          rw [ih steps steps' tail]

theorem range'_steps {n : Nat} (hn : 1 < n) (p count : Nat) :
    (p :: List.range' (p + 1) count).IsChain fun a b => a < b ∧ b < a + n := by
  induction count generalizing p with
  | zero => exact List.isChain_singleton p
  | succ count ih => exact List.isChain_cons_cons.mpr ⟨⟨Nat.lt_succ_self p, Nat.add_lt_add_left hn p⟩, ih (p + 1)⟩

theorem Near.pass_steps {h : Nat} (near : Near h p ms) :
    (p :: pass p ms).IsChain fun a b => a < b ∧ b < a + h := by
  induction ms generalizing p with
  | nil => exact List.isChain_singleton p
  | cons m ms ih =>
      obtain ⟨now, later⟩ := near
      rw [pass]
      split
      · rename_i newer
        rw [Nat.max_eq_right (Nat.le_of_lt newer)] at later
        exact List.isChain_cons_cons.mpr ⟨⟨newer, now.1⟩, ih later⟩
      · rename_i older
        rw [Nat.max_eq_left (Nat.le_of_not_lt older)] at later
        exact ih later

theorem near_of_window {h : Nat} (low high : Nat) (width : high < low + h) (hp : p ≤ high) (hp' : low ≤ p)
    (window : ∀ m ∈ ms, low ≤ m ∧ m ≤ high) : Near h p ms := by
  induction ms generalizing p with
  | nil => trivial
  | cons m ms ih =>
      obtain ⟨hm, hms⟩ := List.forall_mem_cons.mp window
      refine ⟨⟨by omega, by omega⟩, ih (by omega) (by omega) hms⟩

/-- For numbers that are near, the serial order of the remainders is the order of the numbers. -/
theorem before_iff_lt {n a b : Nat} (hn : 0 < n) (forward : 2 * (b - a) < n) (back : 2 * (a - b) < n) :
    Serial.Before n (a % n) (b % n) ↔ a < b := by
  rw [Serial.before_congr (Nat.mod_mod a n) (Nat.mod_mod b n)]
  rcases Nat.lt_trichotomy a b with less | rfl | more
  · obtain ⟨d, rfl⟩ := Nat.exists_eq_add_of_lt less
    rw [Nat.add_assoc] at forward ⊢
    rw [Nat.add_sub_cancel_left] at forward
    rw [Serial.before_add_iff hn a (by omega)]
    omega
  · simp [Serial.not_before_self hn]
  · obtain ⟨d, rfl⟩ := Nat.exists_eq_add_of_lt more
    rw [Nat.add_assoc] at back ⊢
    rw [Nat.add_sub_cancel_left] at back
    have after : Serial.Before n b (b + (d + 1)) := (Serial.before_add_iff hn b (by omega)).mpr ⟨by omega, by omega⟩
    constructor
    · intro before
      exact absurd before (Serial.Before.asymm hn after)
    · intro less
      omega

end Newest
