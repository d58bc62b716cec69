import Chiaki.Holepunch.SerializedValue

/-!
# Candidates that cannot be read

A candidate whose text is cut, or that has control characters in its addresses, makes a text that no JSON reader accepts.
-/

namespace Chiaki.Holepunch

/-! ## The parts of a candidate -/

/-- Up to the last member. -/
def candidateFront (c : Candidate) : Bytes := 0x7b :: Json.listFront (((candidateMembers c).take 4).map Json.memberText)

def mappedPortName : Bytes := Json.quoted (text "mappedPort") ++ [0x3a]

theorem candidateJson_parts (c : Candidate) :
    candidateJson c = candidateFront c ++ (mappedPortName ++ (Json.natText c.portMapped.toNat ++ [0x7d])) := by
  have split_ : candidateMembers c = (candidateMembers c).take 4 ++ [(text "mappedPort", Json.intText c.portMapped.toNat)] := rfl
  rw [candidateJson, split_, Json.objectText, List.map_append, List.map_singleton, Json.listText_append _ _ (List.cons_ne_nil _ _), candidateFront,
    Json.intText_natCast]
  simp [Json.listText, Json.memberText, mappedPortName]

section Cut
variable {c : Candidate}

theorem candidateText_parts (quotable : c.Quotable) : candidateTextOf c = Json.escape (candidateFront c) ++
    (Json.escape mappedPortName ++ (Json.natText c.portMapped.toNat ++ [0x7d])) := by
  have digits := Json.escape_plain (quotable_intText c.portMapped.toNat)
  rw [Json.intText_natCast] at digits
  have brace : Json.escape [0x7d] = [0x7d] := rfl
  rw [candidateTextOf_eq quotable.1 quotable.2]
  change Json.escape (candidateJson c) = _
  rw [candidateJson_parts, Json.escape_append, Json.escape_append, Json.escape_append, digits, brace]

theorem mappedPortName_cuts : (Json.escape mappedPortName).length = 15 ∧
    (∀ k < 11, (Json.escape mappedPortName).take (k + 2) = Json.escape (0x22 :: (text "mappedPort").take k)) ∧
    (Json.escape mappedPortName).take 13 = Json.escape (0x22 :: text "mappedPort") ++ [0x5c] ∧
    (Json.escape mappedPortName).take 14 = Json.escape (Json.quoted (text "mappedPort")) := by
  decide +kernel

theorem length_mappedPortName : (Json.escape mappedPortName).length = 15 := mappedPortName_cuts.1

theorem candidateText_cut (terminated : c.Terminated) (quotable : c.Quotable) (long : candidateStrLen < (candidateTextOf c).length) :
    ∃ j, 10 ≤ j ∧ j < 15 + (Json.natText c.portMapped.toNat).length ∧ (candidateTextOf c).take (candidateStrLen - 1) =
      Json.escape (candidateFront c) ++ (Json.escape mappedPortName ++ Json.natText c.portMapped.toNat).take j := by
  obtain ⟨name, addr, addrMapped, port, -⟩ := candidate_lengths terminated
  have total := length_candidateTextOf c
  have same : signedDecimal (c.portMapped.toNat : Int) = Json.natText c.portMapped.toNat := Json.intText_natCast _
  rw [Candidate.size, same] at total
  have parts := candidateText_parts quotable
  have lengths := congrArg List.length parts
  rw [List.length_append, List.length_append, List.length_append, length_mappedPortName, List.length_singleton] at lengths
  rw [candidateStrLen_eq] at long ⊢
  refine ⟨171 - (Json.escape (candidateFront c)).length, by omega, by omega, ?_⟩
  rw [parts, List.take_append, List.take_of_length_le (by omega), ← List.append_assoc,
    List.take_append_of_le_length (by rw [List.length_append, length_mappedPortName]; omega)]

/-! ## A text that is cut -/

variable {strict : Bool} {accountId : UInt64} {req : ConnectionRequest} {jsonText : Bytes}

theorem name_refused {j : Nat} (low : 10 ≤ j) (high : j ≤ 15)
    (decoded : Json.decodeString ((Json.escape mappedPortName).take j ++ Json.escape (closeMessage accountId req)) = some jsonText) :
    Json.MembersRefused strict jsonText := by
  have name : Json.PlainString strict (text "mappedPort") := plain_name "mappedPort" (by decide)
  obtain ⟨-, inside, cut₁₃, cut₁₄⟩ := mappedPortName_cuts
  obtain ⟨more, close⟩ : ∃ more, closeMessage accountId req = 0x2c :: 0x22 :: 0x64 :: more := ⟨_, rfl⟩
  rw [close] at decoded
  by_cases inName : j ≤ 12
  · -- the name goes on up to the next quote
    obtain ⟨k, rfl⟩ : ∃ k, j = k + 2 := ⟨j - 2, by omega⟩
    rw [inside k (by omega), ← Json.escape_append, Json.decodeString_escape] at decoded
    obtain rfl := Option.some.inj decoded
    have key : Json.PlainString strict ((text "mappedPort").take k ++ [0x2c]) := by
      intro c member
      rcases List.mem_append.mp member with inName | comma
      · exact name c (List.mem_of_mem_take inName)
      · obtain rfl := List.mem_singleton.mp comma
        exact ⟨by decide, by decide, fun _ => rfl⟩
    have shape : 0x22 :: (text "mappedPort").take k ++ 0x2c :: 0x22 :: 0x64 :: more =
        Json.quoted ((text "mappedPort").take k ++ [0x2c]) ++ 0x64 :: more := by simp [Json.quoted]
    rw [shape]
    exact Json.membersRefused_other key rfl (by decide) more
  · rcases (by omega : j = 13 ∨ j = 14 ∨ j = 15) with rfl | rfl | rfl
    · -- a backslash before the comma
      have unknown (rest : Bytes) : Json.decodeString (0x5c :: 0x2c :: rest) = none := by
        rw [Json.decodeString.eq_def]
        rfl
      rw [cut₁₃, List.append_assoc, Json.decodeString_escape_append, List.singleton_append, Json.escape_cons] at decoded
      rw [show ((if (0x2c : UInt8) = 0x22 ∨ (0x2c : UInt8) = 0x5c then [0x5c, 0x2c] else [0x2c]) ++
        Json.escape (0x22 :: 0x64 :: more)) = 0x2c :: Json.escape (0x22 :: 0x64 :: more) from rfl, unknown] at decoded
      cases decoded
    · rw [cut₁₄, ← Json.escape_append, Json.decodeString_escape] at decoded
      obtain rfl := Option.some.inj decoded
      exact Json.membersRefused_other name rfl (by decide) _
    · rw [List.take_of_length_le length_mappedPortName.le, ← Json.escape_append, Json.decodeString_escape] at decoded
      obtain rfl := Option.some.inj decoded
      rw [mappedPortName, List.append_assoc, List.singleton_append]
      exact Json.membersRefused_value name (Json.refused_comma strict _)

theorem number_refused (quotable : c.Quotable) (printable : strict = true → c.Printable) {k : Nat} (some_ : 0 < k) :
    Json.ElementsRefused strict (candidateFront c ++ mappedPortName ++ (Json.natText c.portMapped.toNat).take k ++
      closeMessage accountId req) := by
  obtain ⟨v, reads⟩ := Json.reads_digits strict c.portMapped.toNat some_
  have members : List.Forall₂ (Json.ReadsMember strict)
      ((candidateMembers c).take 4 ++ (text "mappedPort", (Json.natText c.portMapped.toNat).take k) :: requestMembersBehind accountId req)
      ((candidateValues c).take 4 ++ (text "mappedPort", v) :: (requestValues accountId req).drop 5) :=
    List.rel_append (List.forall₂_take 4 (candidateMembers_read quotable printable))
      (.cons ⟨rfl, plain_name "mappedPort" (by decide), reads⟩ (requestMembersBehind_read accountId req))
  have distinct := @names_nodup ["type", "addr", "mappedAddr", "port", "mappedPort", "defaultRouteMacAddr", "localPeerAddr",
    "localHashedId"] (by decide)
  have object := Json.reads_object members (by simp) distinct
  rw [Json.objectText_parts] at object
  have whole : candidateFront c ++ mappedPortName ++ (Json.natText c.portMapped.toNat).take k ++ closeMessage accountId req =
      Json.openObject ((candidateMembers c).take 4) (text "mappedPort") ++ (Json.natText c.portMapped.toNat).take k ++
        Json.closeObject (requestMembersBehind accountId req) ++ 0x7d :: [] := by
    simp [candidateFront, mappedPortName, Json.openObject, closeMessage, Json.closeObject, Json.listBack]
  rw [whole]
  exact Json.elementsRefused_end object []

theorem cut_refused (terminated : c.Terminated) (quotable : c.Quotable) (printable : strict = true → c.Printable)
    (long : candidateStrLen < (candidateTextOf c).length)
    (decoded : Json.decodeString ((candidateTextOf c).take (candidateStrLen - 1) ++ Json.escape (closeMessage accountId req)) =
      some jsonText) : Json.ElementsRefused strict jsonText := by
  obtain ⟨j, low, high, cut⟩ := candidateText_cut terminated quotable long
  by_cases inName : j ≤ 15
  · rw [cut, List.append_assoc, Json.decodeString_escape_append, List.take_append_of_le_length (by rw [length_mappedPortName]; omega)] at decoded
    obtain ⟨behind, read, rfl⟩ := Option.map_eq_some_iff.mp decoded
    rw [candidateFront, List.cons_append]
    apply Json.elementsRefused_first
    apply Json.refused_object
    · apply Json.membersRefused_behind
      · exact fun m member => Json.exists_reads (candidateMembers_read quotable printable) m (List.mem_of_mem_take member)
      · exact name_refused low inName read
    · exact fun same => absurd (Option.some.inj same) (by decide)
  · obtain ⟨k, rfl⟩ : ∃ k, j = 15 + k := ⟨j - 15, by omega⟩
    have digits : Json.escape ((Json.natText c.portMapped.toNat).take k) = (Json.natText c.portMapped.toNat).take k := by
      apply Json.escape_plain
      intro d member
      have quotableDigits := quotable_intText c.portMapped.toNat
      rw [Json.intText_natCast] at quotableDigits
      exact quotableDigits d (List.mem_of_mem_take member)
    rw [cut, List.take_append, List.take_of_length_le (by rw [length_mappedPortName]; omega), length_mappedPortName,
      Nat.add_sub_cancel_left, ← digits, ← Json.escape_append, ← Json.escape_append, ← Json.escape_append,
      Json.decodeString_escape] at decoded
    obtain rfl := Option.some.inj decoded
    rw [← List.append_assoc (candidateFront c)]
    exact number_refused quotable printable (by omega)

/-! ## Control characters -/

theorem address_refused {name s : Bytes} (plain : Json.PlainString true name) (quotable : Quotable s) (control : ¬ Printable s)
    (rest : Bytes) : Json.MembersRefused true (Json.memberText (name, Json.quoted s) ++ rest) := by
  have found : ∃ d ∈ s, Json.isControl d = true := by
    by_contra none_
    apply control
    intro d member
    by_contra here
    exact none_ ⟨d, member, by simpa using here⟩
  have shape : Json.memberText (name, Json.quoted s) ++ rest = Json.quoted name ++ 0x3a :: 0x22 :: (s ++ (0x22 :: rest)) := by
    simp [Json.memberText, Json.quoted]
  rw [shape]
  exact Json.membersRefused_value plain (Json.refused_control quotable found _)

theorem front_refused (quotable : c.Quotable) (control : ¬ c.Printable) (rest : Bytes) :
    Json.ElementsRefused true (candidateFront c ++ rest) := by
  have shape : candidateFront c ++ rest = 0x7b :: (Json.memberText (text "type", Json.quoted c.type.name) ++ 0x2c ::
      (Json.memberText (text "addr", Json.quoted (cStr c.addr.toList)) ++ 0x2c ::
      (Json.memberText (text "mappedAddr", Json.quoted (cStr c.addrMapped.toList)) ++ 0x2c ::
      (Json.memberText (text "port", Json.intText c.port.toNat) ++ 0x2c :: rest)))) := by
    simp [candidateFront, candidateMembers, Json.listFront]
  rw [shape]
  apply Json.elementsRefused_first
  apply Json.refused_object
  · apply Json.membersRefused_later (plain_name "type" (by decide)) (Json.reads_string (typeName_visible _).plain)
    by_cases first : Printable (cStr c.addr.toList)
    · apply Json.membersRefused_later (plain_name "addr" (by decide)) (Json.reads_string (plain_address quotable.1 fun _ => first))
      exact address_refused (plain_name "mappedAddr" (by decide)) quotable.2 (fun second => control ⟨first, second⟩) _
    · exact address_refused (plain_name "addr" (by decide)) quotable.1 first _
  · exact fun same => absurd (Option.some.inj same) (by decide)

/-! ## The candidates -/

theorem begins_candidate {cs : List Candidate} (some_ : cs ≠ []) {behind : Bytes}
    (decoded : Json.decodeString (candidatesWritten cs ++ behind) = some jsonText) : ∃ rest, jsonText = 0x7b :: rest := by
  obtain ⟨c, cs, rfl⟩ := List.exists_cons_of_ne_nil some_
  obtain ⟨more, text⟩ : ∃ more, candidateTextOf c = 0x7b :: more := ⟨_, rfl⟩
  obtain ⟨more, written⟩ : ∃ more, candidatesWritten (c :: cs) = 0x7b :: more := by
    rw [candidatesWritten_cons, candidateStrLen_eq]
    split
    · rw [text]
      exact ⟨_, rfl⟩
    · rw [text]
      exact ⟨_, rfl⟩
  rw [written, List.cons_append, Json.decodeString_cons (by decide)] at decoded
  obtain ⟨rest, -, rfl⟩ := Option.map_eq_some_iff.mp decoded
  exact ⟨rest, rfl⟩

theorem candidates_refused (cs : List Candidate) (terminated : ∀ c ∈ cs, c.Terminated) (quotable : ∀ c ∈ cs, c.Quotable)
    (bad : ∃ c ∈ cs, candidateStrLen < (candidateTextOf c).length ∨ strict = true ∧ ¬ c.Printable)
    (decoded : Json.decodeString (candidatesWritten cs ++ Json.escape (closeMessage accountId req)) = some jsonText) :
    Json.ElementsRefused strict jsonText := by
  induction cs generalizing jsonText with
  | nil =>
      obtain ⟨c, member, -⟩ := bad
      cases member
  | cons c cs ih =>
      obtain ⟨terminatedFirst, terminated⟩ := List.forall_mem_cons.mp terminated
      obtain ⟨quotableFirst, quotable⟩ := List.forall_mem_cons.mp quotable
      rw [candidatesWritten_cons] at decoded
      by_cases printable : strict = true → c.Printable
      · split at decoded
        · rename_i long
          exact cut_refused terminatedFirst quotableFirst printable long decoded
        · rename_i short
          have more : ∃ c ∈ cs, candidateStrLen < (candidateTextOf c).length ∨ strict = true ∧ ¬ c.Printable := by
            obtain ⟨d, member, reason⟩ := bad
            rcases List.mem_cons.mp member with rfl | later
            · rcases reason with long | ⟨isStrict, control⟩
              · exact absurd long short
              · exact absurd (printable isStrict) control
            · exact ⟨d, later, reason⟩
          have some_ : cs ≠ [] := by
            rintro rfl
            obtain ⟨d, member, -⟩ := more
            cases member
          have text : candidateTextOf c = Json.escape (candidateJson c) := candidateTextOf_eq quotableFirst.1 quotableFirst.2
          rw [if_neg some_, text, List.append_assoc, Json.decodeString_escape_append, List.cons_append,
            Json.decodeString_cons (by decide)] at decoded
          obtain ⟨behind, decodedBehind, rfl⟩ := Option.map_eq_some_iff.mp decoded
          obtain ⟨later, read, rfl⟩ := Option.map_eq_some_iff.mp decodedBehind
          exact Json.elementsRefused_later (candidate_reads quotableFirst printable) (ih terminated quotable more read)
      · obtain ⟨isStrict, control⟩ := Classical.not_imp.mp printable
        obtain rfl := isStrict
        split at decoded
        · rename_i long
          obtain ⟨j, -, -, cut⟩ := candidateText_cut terminatedFirst quotableFirst long
          rw [cut, List.append_assoc, Json.decodeString_escape_append] at decoded
          obtain ⟨behind, -, rfl⟩ := Option.map_eq_some_iff.mp decoded
          exact front_refused quotableFirst control _
        · rw [candidateText_parts quotableFirst, List.append_assoc, List.append_assoc, Json.decodeString_escape_append] at decoded
          obtain ⟨behind, -, rfl⟩ := Option.map_eq_some_iff.mp decoded
          exact front_refused quotableFirst control _

end Cut

end Chiaki.Holepunch
