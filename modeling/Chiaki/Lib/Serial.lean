import Mathlib.Tactic

/-!
# Serial numbers

Positions are counted without bound; what travels is a position modulo `n`. `ahead n a b` is how
far `b` lies ahead of `a` on the circle of `n` numbers, and `Before n` is the serial order it
induces: less than half the circle ahead. Nothing here depends on the program.
-/

namespace Serial

def ahead (n a b : Nat) : Nat := (b + (n - a % n)) % n

def Before (n a b : Nat) : Prop := 0 < ahead n a b ∧ 2 * ahead n a b < n

instance (n a b : Nat) : Decidable (Before n a b) := inferInstanceAs (Decidable (_ ∧ _))

variable {n : Nat}

theorem ahead_lt (hn : 0 < n) (a b : Nat) : ahead n a b < n := Nat.mod_lt _ hn

theorem add_ahead (hn : 0 < n) (a b : Nat) : (a + ahead n a b) % n = b % n := by
  have ha : a % n < n := Nat.mod_lt a hn
  have hsplit : a = n * (a / n) + a % n := (Nat.div_add_mod a n).symm
  calc (a + ahead n a b) % n
      = (a + (b + (n - a % n))) % n := by rw [ahead, Nat.add_mod_mod]
    _ = (n * (a / n) + (b + n)) % n := by congr 1; omega
    _ = b % n := by rw [Nat.mul_add_mod, Nat.add_mod_right]

theorem ahead_eq_iff (hn : 0 < n) {a b d : Nat} :
    ahead n a b = d ↔ d < n ∧ (a + d) % n = b % n := by
  constructor
  · rintro rfl
    exact ⟨ahead_lt hn a b, add_ahead hn a b⟩
  · rintro ⟨hd, h⟩
    have same : (a + ahead n a b) % n = (a + d) % n := (add_ahead hn a b).trans h.symm
    have cancel : ahead n a b % n = d % n := Nat.ModEq.add_left_cancel' a same
    rwa [Nat.mod_eq_of_lt (ahead_lt hn a b), Nat.mod_eq_of_lt hd] at cancel

theorem ahead_self (hn : 0 < n) (a : Nat) : ahead n a a = 0 :=
  (ahead_eq_iff hn).mpr ⟨hn, rfl⟩

theorem ahead_eq_zero_iff (hn : 0 < n) {a b : Nat} : ahead n a b = 0 ↔ a % n = b % n := by
  rw [ahead_eq_iff hn]
  simp [hn]

theorem ahead_mod_left (a b : Nat) : ahead n (a % n) b = ahead n a b := by
  simp [ahead]

theorem ahead_mod_right (a b : Nat) : ahead n a (b % n) = ahead n a b := by
  simp [ahead, Nat.mod_add_mod]

theorem ahead_congr {a a' b b' : Nat} (ha : a % n = a' % n) (hb : b % n = b' % n) :
    ahead n a b = ahead n a' b' := by
  rw [← ahead_mod_left a, ← ahead_mod_right, ha, hb, ahead_mod_left, ahead_mod_right]

theorem ahead_add_right (hn : 0 < n) (a : Nat) {d : Nat} (hd : d < n) : ahead n a (a + d) = d :=
  (ahead_eq_iff hn).mpr ⟨hd, rfl⟩

/-- Moving the origin forward by `k` shortens a distance of at least `k`. -/
theorem ahead_add_left (hn : 0 < n) {a b k : Nat} (hk : k ≤ ahead n a b) :
    ahead n (a + k) b = ahead n a b - k := by
  rw [ahead_eq_iff hn]
  have hlt := ahead_lt hn a b
  refine ⟨by omega, ?_⟩
  rw [show a + k + (ahead n a b - k) = a + ahead n a b by omega, add_ahead hn]

theorem ahead_of_lt (hn : 0 < n) {a b : Nat} (ha : a < n) (hb : b < n) :
    ahead n a b = if a ≤ b then b - a else n + b - a := by
  rw [ahead_eq_iff hn]
  split
  · rename_i h
    exact ⟨by omega, by rw [show a + (b - a) = b by omega]⟩
  · rename_i h
    exact ⟨by omega, by rw [show a + (n + b - a) = b + n by omega, Nat.add_mod_right]⟩

theorem ahead_swap (hn : 0 < n) {a b : Nat} (h : ahead n a b ≠ 0) :
    ahead n b a = n - ahead n a b := by
  have hlt := ahead_lt hn a b
  rw [ahead_eq_iff hn]
  refine ⟨by omega, ?_⟩
  calc (b + (n - ahead n a b)) % n
      = (a + ahead n a b + (n - ahead n a b)) % n := by
        rw [Nat.add_mod b, Nat.add_mod (a + ahead n a b), add_ahead hn]
    _ = a % n := by
        rw [show a + ahead n a b + (n - ahead n a b) = a + n by omega, Nat.add_mod_right]

theorem before_congr {a a' b b' : Nat} (ha : a % n = a' % n) (hb : b % n = b' % n) :
    Before n a b ↔ Before n a' b' := by
  unfold Before
  rw [ahead_congr ha hb]

theorem not_before_self (hn : 0 < n) (a : Nat) : ¬ Before n a a := by
  simp [Before, ahead_self hn]

/-- A number that lies `d` positions on is after the origin exactly when `d` is under half. -/
theorem before_add_iff (hn : 0 < n) (a : Nat) {d : Nat} (hd : d < n) :
    Before n a (a + d) ↔ 0 < d ∧ 2 * d < n := by
  rw [Before, ahead_add_right hn a hd]

theorem before_add_add (hn : 0 < n) (base : Nat) {i j : Nat} (hi : i < n) (hj : j < n) :
    Before n (base + i) (base + j) ↔
      (i < j ∧ 2 * (j - i) < n) ∨ (j < i ∧ n < 2 * (i - j)) := by
  have hgap : ahead n (base + i) (base + j) = if i ≤ j then j - i else n + j - i := by
    rw [ahead_eq_iff hn]
    split
    · rename_i h
      exact ⟨by omega, by rw [show base + i + (j - i) = base + j by omega]⟩
    · rename_i h
      refine ⟨by omega, ?_⟩
      rw [show base + i + (n + j - i) = base + j + n by omega, Nat.add_mod_right]
  rw [Before, hgap]
  split <;> omega

theorem Before.asymm (hn : 0 < n) {a b : Nat} (h : Before n a b) : ¬ Before n b a := by
  intro h'
  have hswap := ahead_swap hn (a := a) (b := b) (by have := h.1; omega)
  have h1 := h.2
  have h2 := h'.2
  omega

/-- Two distinct numbers are ordered one way or the other unless they are opposite. -/
theorem before_or_before (hn : 0 < n) {a b : Nat} (hne : a % n ≠ b % n)
    (hopp : 2 * ahead n a b ≠ n) : Before n a b ∨ Before n b a := by
  have h0 : ahead n a b ≠ 0 := fun h => hne ((ahead_eq_zero_iff hn).mp h)
  have hlt := ahead_lt hn a b
  have hswap := ahead_swap hn h0
  by_cases hhalf : 2 * ahead n a b < n
  · exact .inl ⟨by omega, hhalf⟩
  · exact .inr ⟨by omega, by omega⟩

theorem not_before_iff (hn : 0 < n) {a b : Nat} :
    (¬ Before n a b ∧ ¬ Before n b a) ↔ a % n = b % n ∨ 2 * ahead n a b = n := by
  constructor
  · intro neither
    by_contra other
    rw [not_or] at other
    cases before_or_before hn other.1 other.2 with
    | inl before => exact neither.1 before
    | inr before => exact neither.2 before
  · intro same
    cases same with
    | inl same =>
        have zero : ahead n a b = 0 := (ahead_eq_zero_iff hn).mpr same
        have zero' : ahead n b a = 0 := (ahead_eq_zero_iff hn).mpr same.symm
        simp [Before, zero, zero']
    | inr opposite =>
        have back : ahead n b a = n - ahead n a b := ahead_swap hn (by omega)
        unfold Before
        omega

/-- Inside of half the circle the order is that of the distances from its first number. -/
theorem before_iff_of_window (hn : 0 < n) {base a b : Nat} (ha : 2 * ahead n base a ≤ n) (hb : 2 * ahead n base b < n) :
    Before n a b ↔ ahead n base a < ahead n base b := by
  rw [before_congr (add_ahead hn base a).symm (add_ahead hn base b).symm,
    before_add_add hn base (ahead_lt hn base a) (ahead_lt hn base b)]
  omega

theorem Before.trans_of_window (hn : 0 < n) {base a b c : Nat} (ha : 2 * ahead n base a < n)
    (hb : 2 * ahead n base b < n) (hc : 2 * ahead n base c < n) (first : Before n a b) (second : Before n b c) :
    Before n a c := by
  rw [before_iff_of_window hn ha.le hb] at first
  rw [before_iff_of_window hn hb.le hc] at second
  rw [before_iff_of_window hn ha.le hc]
  exact first.trans second

end Serial
