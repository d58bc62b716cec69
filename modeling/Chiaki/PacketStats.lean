import Chiaki.Common
import Chiaki.SeqNum

/-!
# Packet statistics

`packetstats.c`. What was lost is the distance from the highest number at the last reset to the highest one since
then, less what was received.
-/

namespace Chiaki
open Serial

/-- `ChiakiPacketStats`, without its mutex. The counts have 64 bits, the numbers 16. -/
structure PacketStats where
  genReceived : Nat
  genLost : Nat
  seqMin : Nat
  seqMax : Nat
  seqReceived : Nat
  deriving DecidableEq

inductive PacketPush where
  | generation (received lost : Nat)
  | seq (seqNum : UInt16)

namespace PacketStats

def init : PacketStats := ⟨0, 0, 0, 0, 0⟩

/-- `reset_stats`. -/
def resetStats (stats : PacketStats) : PacketStats :=
  { genReceived := 0, genLost := 0, seqMin := stats.seqMax, seqMax := stats.seqMax, seqReceived := 0 }

/-- `chiaki_packet_stats_push_generation`. -/
def pushGeneration (stats : PacketStats) (received lost : Nat) : PacketStats :=
  { stats with
    genReceived := (stats.genReceived + received) % 2 ^ 64
    genLost := (stats.genLost + lost) % 2 ^ 64 }

/-- `chiaki_packet_stats_push_seq`. -/
def pushSeq (stats : PacketStats) (seqNum : Nat) : PacketStats :=
  { stats with
    seqReceived := (stats.seqReceived + 1) % 2 ^ 64
    seqMax := if seqNum16Gt seqNum stats.seqMax then seqNum else stats.seqMax }

def push (stats : PacketStats) : PacketPush → PacketStats
  | .generation received lost => stats.pushGeneration received lost
  | .seq seqNum => stats.pushSeq seqNum.toNat

/-- The difference of two `int`, as a `uint64_t`. -/
def seqDiff (stats : PacketStats) : Nat := (2 ^ 64 + stats.seqMax - stats.seqMin) % 2 ^ 64

def seqLost (stats : PacketStats) : Nat :=
  if stats.seqReceived > stats.seqDiff then stats.seqDiff else stats.seqDiff - stats.seqReceived

/-- `chiaki_packet_stats_get`: what is received and what is lost. -/
def get (stats : PacketStats) (reset : Bool) : PacketStats × Nat × Nat :=
  (if reset then stats.resetStats else stats, (stats.genReceived + stats.seqReceived) % 2 ^ 64,
    (stats.genLost + stats.seqLost) % 2 ^ 64)

end PacketStats

/-! ## What is counted -/

def generationsReceived : List PacketPush → Nat
  | [] => 0
  | .generation received _ :: pushes => received + generationsReceived pushes
  | .seq _ :: pushes => generationsReceived pushes

def generationsLost : List PacketPush → Nat
  | [] => 0
  | .generation _ lost :: pushes => lost + generationsLost pushes
  | .seq _ :: pushes => generationsLost pushes

def seqNums : List PacketPush → List UInt16
  | [] => []
  | .generation _ _ :: pushes => seqNums pushes
  | .seq seqNum :: pushes => seqNum :: seqNums pushes

/-- The serially highest number. -/
def highest (first : Nat) (seqNums : List UInt16) : Nat :=
  seqNums.foldl (fun high seqNum => if Before (2 ^ 16) high seqNum.toNat then seqNum.toNat else high) first

/-- How far the highest number lies ahead of the first one. -/
def span (first : Nat) (pushes : List PacketPush) : Nat :=
  ahead (2 ^ 16) first (highest first (seqNums pushes))

/-- What the statistics should say. -/
def Reports (first : Nat) (pushes : List PacketPush) (received lost : Nat) : Prop :=
  received = generationsReceived pushes + (seqNums pushes).length ∧
    lost = generationsLost pushes + (span first pushes - (seqNums pushes).length)

namespace PacketStats

theorem highest_lt {first : Nat} (typed : first < 2 ^ 16) (seqNums : List UInt16) :
    highest first seqNums < 2 ^ 16 := by
  induction seqNums generalizing first with
  | nil => exact typed
  | cons seqNum seqNums ih =>
      rw [highest, List.foldl_cons, ← highest]
      split
      · exact ih seqNum.toNat_lt
      · exact ih typed

theorem push_all {stats : PacketStats} (typed : stats.seqMax < 2 ^ 16) (pushes : List PacketPush) :
    (pushes.foldl push stats).genReceived % 2 ^ 64 = (stats.genReceived + generationsReceived pushes) % 2 ^ 64 ∧
      (pushes.foldl push stats).genLost % 2 ^ 64 = (stats.genLost + generationsLost pushes) % 2 ^ 64 ∧
      (pushes.foldl push stats).seqMin = stats.seqMin ∧
      (pushes.foldl push stats).seqMax = highest stats.seqMax (seqNums pushes) ∧
      (pushes.foldl push stats).seqReceived % 2 ^ 64 = (stats.seqReceived + (seqNums pushes).length) % 2 ^ 64 := by
  induction pushes generalizing stats with
  | nil => exact ⟨rfl, rfl, rfl, rfl, rfl⟩
  | cons now later ih =>
      cases now with
      | generation r l =>
          obtain ⟨received, lost, min, max, count⟩ := @ih (stats.push (.generation r l)) typed
          rw [List.foldl_cons, received, lost, min, max, count]
          simp only [push, pushGeneration, generationsReceived, generationsLost, seqNums, Nat.mod_add_mod, Nat.add_assoc,
            and_self]
      | seq seqNum =>
          have order : seqNum16Gt seqNum.toNat stats.seqMax = true ↔ Before (2 ^ 16) stats.seqMax seqNum.toNat :=
            seqNumGt_iff (by decide) seqNum.toNat_lt typed
          have typed' : (stats.push (.seq seqNum)).seqMax < 2 ^ 16 := by
            rw [push, pushSeq]
            dsimp only
            split
            · exact seqNum.toNat_lt
            · exact typed
          obtain ⟨received, lost, min, max, count⟩ := ih typed'
          rw [List.foldl_cons, received, lost, min, max, count]
          simp only [push, pushSeq, generationsReceived, generationsLost, seqNums, highest, List.foldl_cons, order,
            List.length_cons, Nat.mod_add_mod, Nat.add_assoc, Nat.add_comm 1, and_self]

/-- The counts stay below their bound. -/
structure Bounded (stats : PacketStats) : Prop where
  genReceived : stats.genReceived < 2 ^ 64
  genLost : stats.genLost < 2 ^ 64
  seqReceived : stats.seqReceived < 2 ^ 64

theorem Bounded.push_all {stats : PacketStats} (bounded : stats.Bounded) (pushes : List PacketPush) :
    (pushes.foldl push stats).Bounded := by
  induction pushes generalizing stats with
  | nil => exact bounded
  | cons now later ih =>
      apply ih
      cases now with
      | generation r l => exact ⟨Nat.mod_lt _ (by decide), Nat.mod_lt _ (by decide), bounded.seqReceived⟩
      | seq seqNum => exact ⟨bounded.genReceived, bounded.genLost, Nat.mod_lt _ (by decide)⟩

theorem push_reset {stats : PacketStats} (typed : stats.seqMax < 2 ^ 16) (pushes : List PacketPush) :
    pushes.foldl push stats.resetStats =
      { genReceived := generationsReceived pushes % 2 ^ 64
        genLost := generationsLost pushes % 2 ^ 64
        seqMin := stats.seqMax
        seqMax := highest stats.seqMax (seqNums pushes)
        seqReceived := (seqNums pushes).length % 2 ^ 64 } := by
  have bounded : stats.resetStats.Bounded := ⟨by simp [resetStats], by simp [resetStats], by simp [resetStats]⟩
  obtain ⟨received, lost, min, max, count⟩ := @push_all stats.resetStats typed pushes
  obtain ⟨small, small', small''⟩ := bounded.push_all pushes
  rw [Nat.mod_eq_of_lt small] at received
  rw [Nat.mod_eq_of_lt small'] at lost
  rw [Nat.mod_eq_of_lt small''] at count
  generalize pushes.foldl push stats.resetStats = pushed at *
  cases pushed
  simp_all [resetStats]

/-- The difference is the distance as long as the numbers have not wrapped. -/
theorem seqDiff_eq {stats : PacketStats} (low : stats.seqMin < 2 ^ 16) (high : stats.seqMax < 2 ^ 16) :
    stats.seqDiff = ahead (2 ^ 16) stats.seqMin stats.seqMax +
      if stats.seqMin + ahead (2 ^ 16) stats.seqMin stats.seqMax < 2 ^ 16 then 0 else 2 ^ 64 - 2 ^ 16 := by
  rw [seqDiff, ahead_of_lt (by decide) low high]
  generalize stats.seqMin = a at low ⊢
  generalize stats.seqMax = b at high ⊢
  split <;> split <;> omega

theorem seqDiff_push {stats : PacketStats} (typed : stats.seqMax < 2 ^ 16) (pushes : List PacketPush) :
    (pushes.foldl push stats.resetStats).seqDiff = span stats.seqMax pushes +
      if stats.seqMax + span stats.seqMax pushes < 2 ^ 16 then 0 else 2 ^ 64 - 2 ^ 16 := by
  have fields := push_reset typed pushes
  rw [fields, seqDiff_eq typed (highest_lt typed _)]
  rfl

/-- The report is right exactly if no count overflows, the numbers have not wrapped, and no more packets came than
the numbers say. After a wrap it is right for a single count, near the overflow. -/
theorem reports_iff {stats : PacketStats} (typed : stats.seqMax < 2 ^ 16) (pushes : List PacketPush) (reset : Bool) :
    Reports stats.seqMax pushes ((pushes.foldl push stats.resetStats).get reset).2.1
        ((pushes.foldl push stats.resetStats).get reset).2.2 ↔
      generationsReceived pushes + (seqNums pushes).length < 2 ^ 64 ∧
      generationsLost pushes + (span stats.seqMax pushes - (seqNums pushes).length) < 2 ^ 64 ∧
      if stats.seqMax + span stats.seqMax pushes < 2 ^ 16 then
        (seqNums pushes).length ≤ span stats.seqMax pushes ∨ span stats.seqMax pushes = 0
      else (seqNums pushes).length = span stats.seqMax pushes + (2 ^ 64 - 2 ^ 16) := by
  have diff := seqDiff_push typed pushes
  have short : span stats.seqMax pushes < 2 ^ 16 := ahead_lt (by decide) _ _
  have fields := push_reset typed pushes
  generalize pushes.foldl push stats.resetStats = pushed at diff fields ⊢
  obtain ⟨received, lost, min, max, count⟩ := pushed
  obtain ⟨rfl, rfl, -, -, rfl⟩ := PacketStats.mk.inj fields
  simp only [Reports, get, seqLost, diff]
  generalize span stats.seqMax pushes = d at *
  generalize (seqNums pushes).length = n at *
  generalize generationsReceived pushes = r at *
  generalize generationsLost pushes = l at *
  generalize stats.seqMax = m at *
  by_cases wrapped : m + d < 2 ^ 16
  · simp only [wrapped, if_true]
    split <;> omega
  · simp only [wrapped, if_false]
    split <;> omega

theorem reports_two :
    Reports 0 [.seq 1, .generation 4 2, .seq 3]
      ((([.seq 1, .generation 4 2, .seq 3] : List PacketPush).foldl push init.resetStats).get false).2.1
      ((([.seq 1, .generation 4 2, .seq 3] : List PacketPush).foldl push init.resetStats).get false).2.2 :=
  (@reports_iff init (by decide) _ false).mpr (by decide +kernel)

/-- A number after the wrap, and a number that came twice. -/
theorem not_reports : ¬ Reports 0xFFFF [.seq 0] ((([.seq 0] : List PacketPush).foldl push
      (PacketStats.mk 0 0 0 0xFFFF 0).resetStats).get true).2.1
      ((([.seq 0] : List PacketPush).foldl push (PacketStats.mk 0 0 0 0xFFFF 0).resetStats).get true).2.2 ∧
    ¬ Reports 0 [.seq 1, .seq 1] ((([.seq 1, .seq 1] : List PacketPush).foldl push init.resetStats).get true).2.1
      ((([.seq 1, .seq 1] : List PacketPush).foldl push init.resetStats).get true).2.2 := by
  unfold Reports
  decide +kernel

end PacketStats
end Chiaki
