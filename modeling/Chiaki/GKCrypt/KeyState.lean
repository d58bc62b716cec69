import Chiaki.Lib.Machine
import Chiaki.SeqNum

/-!
# Key positions

A packet carries the lower half of its key position. The upper half is taken from the position that was
committed last.
-/

namespace Chiaki
open Machine

/-- `ChiakiKeyState`. -/
structure KeyState where
  prev : Nat
  prev_lt : prev < 2 ^ 64

namespace KeyState

/-- `chiaki_key_state_init`. -/
def init : KeyState := ⟨0, by decide⟩

/-- The upper half that belongs to a lower half, by the half that was committed last. -/
def highFor (state : KeyState) (low : Nat) : Nat :=
  let prevLow := state.prev % 2 ^ 32
  let high := state.prev / 2 ^ 32
  if seqNum32Gt low prevLow && low < prevLow then (high + 1) % 2 ^ 32
  else if seqNum32Lt low prevLow && low > prevLow && high ≠ 0 then high - 1
  else high

theorem highFor_lt (state : KeyState) (low : Nat) : state.highFor low < 2 ^ 32 := by
  have bound := state.prev_lt
  unfold highFor
  dsimp only
  split
  · exact Nat.mod_lt _ (by decide)
  · split <;> omega

/-- `chiaki_key_state_commit`. -/
def commit (_ : KeyState) (prev : Nat) : KeyState := ⟨prev % 2 ^ 64, Nat.mod_lt _ (by decide)⟩

/-- `chiaki_key_state_request_pos` without `commit`. -/
def requestPos (state : KeyState) (low : Nat) : Nat :=
  state.highFor (low % 2 ^ 32) * 2 ^ 32 + low % 2 ^ 32

/-- `chiaki_key_state_request_pos` with `commit`. -/
def requestCommit (state : KeyState) (low : Nat) : KeyState × Nat :=
  (state.commit (state.requestPos low), state.requestPos low)

theorem requestPos_lt (state : KeyState) (low : Nat) : state.requestPos low < 2 ^ 64 := by
  have high := state.highFor_lt (low % 2 ^ 32)
  have bound := Nat.mod_lt low (show 2 ^ 32 > 0 by decide)
  unfold requestPos
  omega

/-- `chiaki_key_state_request_pos`. -/
def request (state : KeyState) (low : Nat) (commit : Bool) : KeyState × Nat :=
  if commit then state.requestCommit low else (state, state.requestPos low)

/-! ## Positions close to the committed one -/

/-- Less than half the range of a lower half apart. -/
def Near (a b : Nat) : Prop := a < b + 2 ^ 31 ∧ b < a + 2 ^ 31

theorem seqNum32Gt_below {a b : Nat} (below : a < b) : seqNum32Gt a b = true ↔ a + 2 ^ 31 < b := by
  unfold seqNum32Gt seqNumGt
  rw [if_neg (by omega)]
  simp only [Bool.or_eq_true, Bool.and_eq_true, decide_eq_true_eq]
  omega

theorem seqNum32Lt_above {a b : Nat} (above : b < a) : seqNum32Lt a b = true ↔ b + 2 ^ 31 < a := by
  unfold seqNum32Lt seqNumLt
  rw [if_neg (by omega)]
  simp only [Bool.or_eq_true, Bool.and_eq_true, decide_eq_true_eq]
  omega

/-- The upper half moves only where the lower half jumps over more than half its range. -/
theorem highFor_eq (state : KeyState) (low : Nat) :
    state.highFor low =
      if low + 2 ^ 31 < state.prev % 2 ^ 32 then (state.prev / 2 ^ 32 + 1) % 2 ^ 32
      else if state.prev % 2 ^ 32 + 2 ^ 31 < low then state.prev / 2 ^ 32 - 1
      else state.prev / 2 ^ 32 := by
  unfold highFor
  generalize state.prev % 2 ^ 32 = prevLow
  simp only [Bool.and_eq_true, decide_eq_true_eq]
  rcases Nat.lt_trichotomy low prevLow with below | rfl | above
  · have notAbove : ¬ low > prevLow := by omega
    simp only [seqNum32Gt_below below, below, notAbove, and_true, and_false, false_and, if_false]
    rw [if_neg (show ¬ prevLow + 2 ^ 31 < low by omega)]
  · simp
  · have notBelow : ¬ low < prevLow := by omega
    simp only [seqNum32Lt_above above, above, notBelow, and_true, and_false, if_false]
    rw [if_neg (show ¬ low + 2 ^ 31 < prevLow by omega)]
    by_cases far : prevLow + 2 ^ 31 < low
    · rw [if_pos far]
      split
      · rfl
      · omega
    · rw [if_neg far, if_neg (by tauto)]

theorem requestPos_eq {state : KeyState} {pos : Nat} (small : pos < 2 ^ 64) (near : Near state.prev pos) :
    state.requestPos (pos % 2 ^ 32) = pos := by
  have bound := state.prev_lt
  obtain ⟨below, above⟩ := near
  rw [requestPos, Nat.mod_mod, highFor_eq]
  split
  · omega
  · split <;> omega

/-! ## Runs -/

/-- A packet with its true position; only the lower half travels. `commits` is the argument of
`chiaki_key_state_request_pos`, and a packet that is found authentic is committed after it. -/
structure Arrival where
  pos : Nat
  commits : Bool
  authentic : Bool

def step (state : KeyState) (packet : Arrival) : Except Empty (KeyState × Nat) :=
  let r := state.request (packet.pos % 2 ^ 32) packet.commits
  .ok (if packet.authentic then r.1.commit r.2 else r.1, r.2)

def InReach (state : KeyState) (packet : Arrival) : Prop :=
  packet.pos < 2 ^ 64 ∧ Near state.prev packet.pos

instance (state : KeyState) (packet : Arrival) : Decidable (InReach state packet) :=
  inferInstanceAs (Decidable (_ ∧ _ ∧ _))

/-- The position a run leaves committed. -/
def lastCommitted (prev : Nat) (packets : List Arrival) : Nat :=
  packets.foldl (fun prev packet => if packet.commits || packet.authentic then packet.pos else prev) prev

theorem step_eq {state : KeyState} {packet : Arrival} (small : packet.pos < 2 ^ 64)
    (near : Near state.prev packet.pos) :
    ∃ state', step state packet = .ok (state', packet.pos) ∧
      state'.prev = lastCommitted state.prev [packet] := by
  obtain ⟨pos, commits, authentic⟩ := packet
  dsimp only at small near
  have commit (state : KeyState) : (state.commit pos).prev = pos := Nat.mod_eq_of_lt small
  simp only [step, request, requestCommit, requestPos_eq small near]
  cases commits <;> cases authentic <;> simp [lastCommitted, commit]

/-- Every packet gets its true position, whatever is lost, reordered or not committed. -/
theorem run_eq {state : KeyState} {packets : List Arrival}
    (near : Along step InReach state packets) :
    ∃ state', run step state packets = .ok (state', packets.map (·.pos)) ∧
      state'.prev = lastCommitted state.prev packets := by
  induction packets generalizing state with
  | nil => exact ⟨state, rfl, rfl⟩
  | cons packet packets ih =>
      obtain ⟨state', stepped, prev⟩ := step_eq near.1.1 near.1.2
      obtain ⟨t, rest, last⟩ := ih (near.2 state' packet.pos stepped)
      refine ⟨t, ?_, ?_⟩
      · rw [run_cons_ok stepped, rest]
        rfl
      · rw [last, prev]
        rfl

theorem reconstructs {state : KeyState} {packets : List Arrival}
    (near : Along step InReach state packets) :
    (∀ low, (state.request low false).1 = state) ∧
      ∃ state', run step state packets = .ok (state', packets.map (·.pos)) ∧
        state'.prev = lastCommitted state.prev packets :=
  ⟨fun _ => rfl, run_eq near⟩

/-- Over the end of the lower half and back. -/
theorem reconstructs_carry :
    ∃ state', run step ⟨2 ^ 32 - 8, by decide⟩
        [⟨2 ^ 32 + 4, false, true⟩, ⟨2 ^ 32 - 4, false, false⟩, ⟨2 ^ 32 - 2, true, false⟩] =
        .ok (state', [2 ^ 32 + 4, 2 ^ 32 - 4, 2 ^ 32 - 2]) ∧ state'.prev = 2 ^ 32 - 2 := by
  exact (@reconstructs _ [⟨2 ^ 32 + 4, false, true⟩, ⟨2 ^ 32 - 4, false, false⟩,
    ⟨2 ^ 32 - 2, true, false⟩] (by decide)).2

end KeyState
end Chiaki
