import Mathlib.Data.List.GetD
import Mathlib.Data.List.TakeWhile
import Chiaki.Holepunch.SessionMessageParse

/-!
# Session messages of any content

Which JSON values are read as a session message, and which offers are answered, inside the memory that is there.
-/

namespace Chiaki.Holepunch
open Memory

/-- What is stored in a candidate is a string. -/
def Candidate.Terminated (c : Candidate) : Prop := 0 ∈ c.addr ∧ 0 ∈ c.addrMapped

/-- The candidates before the first one with a field that is missing or of another type. -/
def readCandidates : List Json.Value → List CandidateFields
  | [] => []
  | json :: rest =>
      match candidateFields json with
      | none => []
      | some fields => fields :: readCandidates rest

section Stages
variable {charSigned : Bool} {conn : Json.Value}

theorem length_readCandidates_le (elements : List Json.Value) : (readCandidates elements).length ≤ elements.length := by
  induction elements with
  | nil => exact le_rfl
  | cons json rest ih =>
      rw [readCandidates]
      cases candidateFields json with
      | none => exact Nat.zero_le _
      | some fields => exact Nat.succ_le_succ ih

theorem parseCandidates_eq (elements : List Json.Value) {done old : List Candidate} (room : elements.length ≤ old.length) :
    parseCandidates done.length elements (done ++ old) =
      .ok (done ++ (readCandidates elements).map CandidateFields.candidate ++ old.drop (readCandidates elements).length,
        decide ((readCandidates elements).length = elements.length)) := by
  induction elements generalizing done old with
  | nil => simp [parseCandidates, readCandidates, pure, Except.pure]
  | cons json rest ih =>
      rw [parseCandidates, readCandidates]
      cases candidateFields json with
      | none => simp [pure, Except.pure]
      | some fields =>
          cases old with
          | nil => simp at room
          | cons first old =>
              have later := @ih (done ++ [fields.candidate]) old (Nat.le_of_succ_le_succ room)
              rw [List.length_append, List.length_singleton] at later
              dsimp only
              rw [if_pos (by simp), List.set_append_right _ _ le_rfl, Nat.sub_self, List.set_cons_zero, List.append_cons, later]
              simp

end Stages

end Chiaki.Holepunch
