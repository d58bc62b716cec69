import Chiaki.Lib.Serial

/-!
# Sequence numbers

`CHIAKI_DEFINE_SEQNUM` of `seqnum.h`, at both widths. Arguments are numbers below `2 ^ bits`, as
the parameter type `ChiakiSeqNum##bits` makes them; the difference is taken in a wider signed type.
-/

namespace Chiaki
open Serial

def seqNumLt (bits : Nat) (a b : Nat) : Bool :=
  if a = b then false
  else
    let d : Int := (b : Int) - (a : Int)
    (decide (a < b) && decide (d < 2 ^ (bits - 1))) || (decide (a > b) && decide (-d > 2 ^ (bits - 1)))

def seqNumGt (bits : Nat) (a b : Nat) : Bool :=
  if a = b then false
  else
    let d : Int := (b : Int) - (a : Int)
    (decide (a < b) && decide (d > 2 ^ (bits - 1))) || (decide (a > b) && decide (-d < 2 ^ (bits - 1)))

def seqNum16Lt : Nat → Nat → Bool := seqNumLt 16
def seqNum16Gt : Nat → Nat → Bool := seqNumGt 16
def seqNum32Lt : Nat → Nat → Bool := seqNumLt 32
def seqNum32Gt : Nat → Nat → Bool := seqNumGt 32

private theorem two_pow_eq_double {bits : Nat} (hbits : 0 < bits) :
    (2 : Nat) ^ bits = 2 * 2 ^ (bits - 1) := by
  rw [← Nat.pow_succ', Nat.succ_eq_add_one, Nat.sub_add_cancel hbits]

theorem seqNumLt_iff {bits a b : Nat} (hbits : 0 < bits) (ha : a < 2 ^ bits) (hb : b < 2 ^ bits) :
    seqNumLt bits a b = true ↔ Before (2 ^ bits) a b := by
  have half := two_pow_eq_double hbits
  have cast : ((2 ^ (bits - 1) : Nat) : Int) = 2 ^ (bits - 1) := by norm_cast
  rw [Before, ahead_of_lt (Nat.two_pow_pos bits) ha hb]
  unfold seqNumLt
  rw [← cast]
  generalize 2 ^ (bits - 1) = h at *
  by_cases hab : a = b
  · simp [hab]
  · rw [if_neg hab]
    simp only [Bool.or_eq_true, Bool.and_eq_true, decide_eq_true_eq]
    split <;> omega

theorem seqNumGt_eq_lt (bits a b : Nat) : seqNumGt bits a b = seqNumLt bits b a := by
  unfold seqNumGt seqNumLt
  by_cases same : a = b
  · simp [same]
  · rw [if_neg same, if_neg (Ne.symm same)]
    simp only [neg_sub, Bool.or_comm]

theorem seqNumGt_iff {bits a b : Nat} (hbits : 0 < bits) (ha : a < 2 ^ bits) (hb : b < 2 ^ bits) :
    seqNumGt bits a b = true ↔ Before (2 ^ bits) b a := by
  rw [seqNumGt_eq_lt]
  exact seqNumLt_iff hbits hb ha

theorem seqNumLt_mod_iff {bits : Nat} (hbits : 0 < bits) (a b : Nat) :
    seqNumLt bits (a % 2 ^ bits) (b % 2 ^ bits) = true ↔ Before (2 ^ bits) a b := by
  have pos := Nat.two_pow_pos bits
  rw [seqNumLt_iff hbits (Nat.mod_lt a pos) (Nat.mod_lt b pos)]
  exact before_congr (Nat.mod_mod a _) (Nat.mod_mod b _)

theorem seqNumGt_mod_iff {bits : Nat} (hbits : 0 < bits) (a b : Nat) :
    seqNumGt bits (a % 2 ^ bits) (b % 2 ^ bits) = true ↔ Before (2 ^ bits) b a := by
  rw [seqNumGt_eq_lt]
  exact seqNumLt_mod_iff hbits b a

/-- The laws of RFC 1982. A number of the window that starts at `base` is less than `2 ^ (bits - 1)` ahead of it. -/
structure SerialNumberLaws (bits : Nat) (lt gt : Nat → Nat → Bool) : Prop where
  swap : ∀ a < 2 ^ bits, ∀ b < 2 ^ bits, gt a b = lt b a
  notBoth : ∀ a < 2 ^ bits, ∀ b < 2 ^ bits, ¬ (lt a b = true ∧ gt a b = true)
  addGreater : ∀ a < 2 ^ bits, ∀ k, 0 < k → k < 2 ^ (bits - 1) →
    gt ((a + k) % 2 ^ bits) a = true ∧ lt a ((a + k) % 2 ^ bits) = true
  neither : ∀ a < 2 ^ bits, ∀ b < 2 ^ bits,
    (lt a b = false ∧ gt a b = false) ↔ a = b ∨ ahead (2 ^ bits) a b = 2 ^ (bits - 1)
  trans : ∀ base < 2 ^ bits, ∀ a < 2 ^ bits, ∀ b < 2 ^ bits, ∀ c < 2 ^ bits,
    ahead (2 ^ bits) base a < 2 ^ (bits - 1) → ahead (2 ^ bits) base b < 2 ^ (bits - 1) →
    ahead (2 ^ bits) base c < 2 ^ (bits - 1) → lt a b = true → lt b c = true → lt a c = true

theorem serialNumberLaws_of_pos {bits : Nat} (hbits : 0 < bits) :
    SerialNumberLaws bits (seqNumLt bits) (seqNumGt bits) := by
  have pos : 0 < 2 ^ bits := Nat.two_pow_pos bits
  have half := two_pow_eq_double hbits
  constructor
  case swap =>
    intro a ha b hb
    exact seqNumGt_eq_lt bits a b
  case notBoth =>
    intro a ha b hb both
    rw [seqNumLt_iff hbits ha hb, seqNumGt_iff hbits ha hb] at both
    exact Before.asymm pos both.1 both.2
  case addGreater =>
    intro a ha k positive small
    have inside : (a + k) % 2 ^ bits < 2 ^ bits := Nat.mod_lt _ pos
    have before : Before (2 ^ bits) a ((a + k) % 2 ^ bits) := by
      rw [before_congr rfl (Nat.mod_mod _ _), before_add_iff pos a (by omega)]
      omega
    rw [seqNumGt_iff hbits inside ha, seqNumLt_iff hbits ha inside]
    exact ⟨before, before⟩
  case neither =>
    intro a ha b hb
    rw [← Bool.not_eq_true, ← Bool.not_eq_true, seqNumLt_iff hbits ha hb, seqNumGt_iff hbits ha hb,
      not_before_iff pos, Nat.mod_eq_of_lt ha, Nat.mod_eq_of_lt hb]
    omega
  case trans =>
    intro base hbase a ha b hb c hc windowA windowB windowC first second
    rw [seqNumLt_iff hbits ha hb] at first
    rw [seqNumLt_iff hbits hb hc] at second
    rw [seqNumLt_iff hbits ha hc]
    exact @Before.trans_of_window _ pos base a b c (by omega) (by omega) (by omega) first second

/-- The laws hold at both widths. -/
theorem serialNumberLaws :
    SerialNumberLaws 16 seqNum16Lt seqNum16Gt ∧ SerialNumberLaws 32 seqNum32Lt seqNum32Gt := by
  constructor
  · exact serialNumberLaws_of_pos (by decide)
  · exact serialNumberLaws_of_pos (by decide)

end Chiaki
