import Mathlib.Algebra.Order.ToIntervalMod
import Mathlib.Logic.Function.Iterate
import Chiaki.Holepunch.ConnectionRequest
import Chiaki.Holepunch.PortAllocation

/-!
# Predicted ports

The loop of `send_offer` over the candidates behind the external port. The ports from 1025 on form a cycle, and the loop
follows it unless a step ends at 1024.
-/

namespace Chiaki.Holepunch

def uint16Max : Int := 65535

/-- The next value of `port_check`, before it is stored. -/
def nextPortCheck (allocationIncrement tmp : Int) : Int :=
  let portCheck := tmp + allocationIncrement
  if portCheck < 1024 ∧ 1024 < tmp then uint16Max - (1024 - portCheck)
  else if portCheck < 1 then portCheck + uint16Max
  else if uint16Max < portCheck then portCheck - uint16Max + 1024
  else portCheck

/-- What the loop makes of the candidates, from `port_check` on. -/
def predictCandidates (candidateStun : Candidate) (allocationIncrement : Int) : List Candidate → Int → List Candidate
  | [], _ => []
  | candidate :: candidates, tmp =>
      let portCheck := nextPortCheck allocationIncrement tmp
      { candidate with
        type := .stun
        addrMapped := memcpy candidate.addrMapped (text "0.0.0.0" ++ [0])
        portMapped := 0
        addr := candidateStun.addr
        port := UInt16.ofInt portCheck } :: predictCandidates candidateStun allocationIncrement candidates portCheck

/-- No port is a well-known one, and each is the number that was computed. -/
def PredictsPorts (candidateStun : Candidate) (allocationIncrement : Int) (candidates : List Candidate) : Prop :=
  ∀ i candidate, (predictCandidates candidateStun allocationIncrement candidates candidateStun.port.toNat)[i]? =
      some candidate →
    1025 ≤ candidate.port.toNat ∧
      (candidate.port.toNat : Int) = (nextPortCheck allocationIncrement)^[i + 1] candidateStun.port.toNat

theorem wellKnown_pos : (0 : Int) < 65535 - 1024 := by decide

/-- The port that stands for `n` among those that are not well-known. -/
noncomputable def wrapPort (n : Int) : Int := toIcoMod wellKnown_pos 1025 n

theorem wrapPort_eq_iff {n port : Int} : wrapPort n = port ↔ (1025 ≤ port ∧ port ≤ 65535) ∧ ∃ turns, n = port + turns * 64511 := by
  rw [wrapPort, toIcoMod_eq_iff, Set.mem_Ico]
  simp only [smul_eq_mul]
  constructor
  · rintro ⟨⟨low, high⟩, turns, rfl⟩
    exact ⟨⟨low, by omega⟩, turns, rfl⟩
  · rintro ⟨⟨low, high⟩, turns, rfl⟩
    exact ⟨⟨low, by omega⟩, turns, rfl⟩

theorem wrapPort_mem (n : Int) : 1025 ≤ wrapPort n ∧ wrapPort n ≤ 65535 := (wrapPort_eq_iff.mp rfl).1

theorem wrapPort_of_mem {port : Int} (low : 1025 ≤ port) (high : port ≤ 65535) : wrapPort port = port :=
  wrapPort_eq_iff.mpr ⟨⟨low, high⟩, 0, by omega⟩

section Steps
variable {increment n : Int} (bounded : |increment| ≤ 64511)
include bounded

theorem nextPortCheck_wrapPort (free : wrapPort n + increment ≠ 1024) :
    nextPortCheck increment (wrapPort n) = wrapPort (n + increment) := by
  obtain ⟨⟨low, high⟩, turns, here⟩ := @wrapPort_eq_iff n (wrapPort n) |>.mp rfl
  obtain ⟨down, up⟩ := abs_le.mp bounded
  generalize wrapPort n = port at low high here free ⊢
  symm
  rw [wrapPort_eq_iff]
  unfold nextPortCheck uint16Max
  dsimp only
  split
  · exact ⟨by omega, turns - 1, by omega⟩
  split
  · omega
  split
  · exact ⟨by omega, turns + 1, by omega⟩
  · exact ⟨by omega, turns, by omega⟩

/-- Only a step down can end at 1024, and then it would have to go around. -/
theorem wrapPort_add_eq_iff : wrapPort n + increment = 1024 ↔ increment < 0 ∧ (n + increment) % 64511 = 1024 := by
  obtain ⟨⟨low, high⟩, turns, here⟩ := @wrapPort_eq_iff n (wrapPort n) |>.mp rfl
  obtain ⟨down, up⟩ := abs_le.mp bounded
  generalize wrapPort n = port at low high here ⊢
  omega

end Steps

theorem nextPortCheck_wellKnown {increment tmp : Int} (here : tmp + increment = 1024) : nextPortCheck increment tmp = 1024 := by
  unfold nextPortCheck uint16Max
  dsimp only
  rw [here, if_neg (by omega), if_neg (by decide), if_neg (by decide)]

section Runs
variable {increment port : Int} (bounded : |increment| ≤ 64511) (low : 1025 ≤ port) (high : port ≤ 65535)
include bounded low high

theorem iterate_nextPortCheck {k : Nat} (free : ∀ i < k, wrapPort (port + i * increment) + increment ≠ 1024) :
    (nextPortCheck increment)^[k] port = wrapPort (port + k * increment) := by
  induction k with
  | zero => simpa using (wrapPort_of_mem low high).symm
  | succ k ih =>
      have before := ih fun i bound => free i (Nat.lt_succ_of_lt bound)
      rw [Function.iterate_succ_apply', before, nextPortCheck_wrapPort bounded (free k (Nat.lt_succ_self k))]
      congr 1
      push_cast
      ring

/-- All ports of a run are in the cycle exactly when no step ends at 1024. -/
theorem iterate_mem_iff (count : Nat) :
    (∀ k < count, 1025 ≤ (nextPortCheck increment)^[k + 1] port ∧ (nextPortCheck increment)^[k + 1] port ≤ 65535) ↔
      ∀ k < count, wrapPort (port + k * increment) + increment ≠ 1024 := by
  constructor
  · intro inside k
    induction k using Nat.strong_induction_on with
    | _ k ih =>
        intro bound here
        have before := iterate_nextPortCheck bounded low high fun i less => ih i less (less.trans bound)
        have wellKnown := (inside k bound).1
        rw [Function.iterate_succ_apply', before, nextPortCheck_wellKnown here] at wellKnown
        exact absurd wellKnown (by decide)
  · intro free k bound
    rw [iterate_nextPortCheck bounded low high fun i less => free i (by omega)]
    exact wrapPort_mem _

end Runs

theorem predictCandidates_port {stun : Candidate} {increment portCheck : Int} {candidates : List Candidate} {i : Nat} :
    ((predictCandidates stun increment candidates portCheck)[i]?).map Candidate.port =
      (candidates[i]?).map fun _ => UInt16.ofInt ((nextPortCheck increment)^[i + 1] portCheck) := by
  induction candidates generalizing portCheck i with
  | nil => rfl
  | cons candidate candidates ih =>
      cases i with
      | zero => rfl
      | succ i =>
          rw [predictCandidates, List.getElem?_cons_succ, List.getElem?_cons_succ, ih, ← Function.iterate_succ_apply]

/-- The ports are predicted as they should be exactly when the increment is positive, or no multiple of it leads to 1024
in the cycle. -/
theorem predictsPorts_iff (candidateStun : Candidate) (allocationIncrement : Int) (candidates : List Candidate)
    (eight : candidates.length = 8) (external : 1024 < candidateStun.port.toNat) (nonzero : allocationIncrement ≠ 0)
    (bounded : |allocationIncrement| ≤ 64511) :
    PredictsPorts candidateStun allocationIncrement candidates ↔
      (0 < allocationIncrement ∨ ∀ k : Nat, 1 ≤ k → k ≤ 8 →
        (candidateStun.port.toNat + k * allocationIncrement) % 64511 ≠ 1024) := by
  have high := candidateStun.port.toNat_lt
  have inside : PredictsPorts candidateStun allocationIncrement candidates ↔
      ∀ k < 8, 1025 ≤ (nextPortCheck allocationIncrement)^[k + 1] (candidateStun.port.toNat : Int) ∧
        (nextPortCheck allocationIncrement)^[k + 1] (candidateStun.port.toNat : Int) ≤ 65535 := by
    constructor
    · intro predicts k bound
      rw [← eight] at bound
      have port := @predictCandidates_port candidateStun allocationIncrement candidateStun.port.toNat candidates k
      rw [List.getElem?_eq_getElem bound, Option.map_some, Option.map_eq_some_iff] at port
      obtain ⟨candidate, found, same⟩ := port
      obtain ⟨wellKnown, stored⟩ := predicts k candidate found
      rw [← stored]
      exact ⟨by omega, by have := candidate.port.toNat_lt; omega⟩
    · intro inside i candidate found
      have port := @predictCandidates_port candidateStun allocationIncrement candidateStun.port.toNat candidates i
      rw [found, Option.map_some] at port
      obtain ⟨_, there, same⟩ := Option.map_eq_some_iff.mp port.symm
      obtain ⟨bound, -⟩ := List.getElem?_eq_some_iff.mp there
      obtain ⟨wellKnown, short⟩ := inside i (eight ▸ bound)
      have stored := toNat_ofInt_eq_iff.mpr ⟨by omega, short⟩
      rw [same] at stored
      exact ⟨by omega, stored⟩
  rw [inside, iterate_mem_iff bounded (by omega) (by omega)]
  constructor
  · intro free
    rcases lt_or_gt_of_ne nonzero with down | up
    · right
      intro k one bound there
      obtain ⟨i, rfl⟩ := Nat.exists_eq_add_of_le' one
      apply free i (by omega)
      rw [wrapPort_add_eq_iff bounded]
      exact ⟨down, by rw [← there]; push_cast; ring_nf⟩
    · exact Or.inl up
  · rintro (up | never) k bound there
    · have down := ((wrapPort_add_eq_iff bounded).mp there).1
      omega
    · have turn := ((wrapPort_add_eq_iff bounded).mp there).2
      apply never (k + 1) (by omega) (by omega)
      rw [← turn]
      push_cast
      ring_nf

/-- A candidate that the loop writes over, and the one with the external port. -/
def candidateOf (port : UInt16) : Candidate := ⟨.static, .replicate _ 0, .replicate _ 0, port, 0⟩

theorem predictsPorts_down : PredictsPorts (candidateOf 5000) (-3) (List.replicate 8 (candidateOf 0)) :=
  (predictsPorts_iff (candidateOf 5000) (-3) (List.replicate 8 (candidateOf 0)) (by decide) (by decide) (by decide)
    (by decide)).mpr (Or.inr fun k one bound => by interval_cases k <;> decide)

/-- From 1030 in steps of two the third prediction is 1024. -/
theorem not_predictsPorts_1030 : ¬ PredictsPorts (candidateOf 1030) (-2) (List.replicate 8 (candidateOf 0)) := by
  intro predicts
  have third := predicts 2 _ rfl
  exact absurd third.1 (by decide)

end Chiaki.Holepunch
