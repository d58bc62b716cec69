import Chiaki.Holepunch.SerializedCut

/-!
# Session messages there and back

When what `session_message_serialize` writes is read by `session_message_parse` as the message it was written for.
-/

namespace Chiaki.Holepunch

/-! ## The round trip -/

/-- A candidate as it is compared: only the strings of its addresses count. -/
def Candidate.content (c : Candidate) : CandidateType × Bytes × Bytes × UInt16 × UInt16 :=
  (c.type, cStr c.addr.toList, cStr c.addrMapped.toList, c.port, c.portMapped)

/-- What is sent of a connection request. -/
structure SameRequest (req req' : ConnectionRequest) : Prop where
  sid : req'.sid = req.sid
  peerSid : req'.peerSid = req.peerSid
  skey : req'.skey = req.skey
  natType : req'.natType = req.natType
  localHashedId : req'.localHashedId = req.localHashedId
  candidates : req'.candidates.map Candidate.content = req.candidates.map Candidate.content

structure SameMessage (msg msg' : FullSessionMessage) : Prop where
  action : msg'.action = msg.action
  reqId : msg'.reqId = msg.reqId
  error : msg'.error = msg.error
  connRequest : ∃ req req', msg.connRequest = some req ∧ msg'.connRequest = some req' ∧ SameRequest req req'

/-- The message is written inside the buffers, and what is written is read as the same message. The length that is returned is
that of the text. -/
def SerializesBack (strict charSigned : Bool) (accountId : UInt64) (msg : FullSessionMessage) : Prop :=
  ∃ (out body jsonText : Bytes) (json : Json.Value) (parsed : ParsedMessage) (msg' : FullSessionMessage),
    sessionMessageSerialize accountId msg = .ok (out, body.length) ∧ bufString out = .ok body ∧
    Json.decodeString body = some jsonText ∧ Json.parse strict jsonText = some json ∧
    sessionMessageParse charSigned (fun _ => true) json = .ok parsed ∧ parsed.result = .ok msg' ∧ SameMessage msg msg'

/-- A message with a known action, and with addresses that are strings without quotes and backslashes. -/
structure Sendable (msg : FullSessionMessage) (req : ConnectionRequest) : Prop where
  request : msg.connRequest = some req
  known : msg.action ≠ .unknown
  terminated : ∀ c ∈ req.candidates, c.Terminated
  quotable : ∀ c ∈ req.candidates, c.Quotable

theorem stored_content {c : Candidate} (terminated : c.Terminated) : c.stored.content = c.content := by
  have addr := cStr_strncpy (zero_not_mem_cStr c.addr.toList) (length_cStr_lt terminated.1)
  have addrMapped := cStr_strncpy (zero_not_mem_cStr c.addrMapped.toList) (length_cStr_lt terminated.2)
  rw [Candidate.content, Candidate.stored, addr, addrMapped]
  rfl

section RoundTrip
variable {strict charSigned : Bool} {accountId : UInt64} {msg : FullSessionMessage} {req : ConnectionRequest}

theorem zero_not_mem_candidatesTextOf {cs : List Candidate} (each : ∀ c ∈ cs, (candidateTextOf c).length ≤ candidateStrLen) :
    0 ∉ candidatesTextOf cs := by
  rw [← candidatesWritten_eq each]
  exact List.not_mem_cons_of_ne_of_not_mem (by decide) (zero_not_mem_candidatesWritten cs)

theorem SizesFit.few (fits : SizesFit accountId msg req) : req.candidates.length < 2 ^ 31 := by
  have whole := fits.whole
  rw [messageSize, requestSize] at whole
  omega

theorem SizesFit.short (fits : SizesFit accountId msg req) :
    (messageTextOf accountId msg req (candidatesTextOf req.candidates)).length < 2 ^ 31 := by
  rw [length_messageTextOf, length_candidatesTextOf, sum_sizes]
  exact fits.whole

theorem serializesBack_of_fits (sendable : Sendable msg req) (fits : SizesFit accountId msg req)
    (printable : strict = true → ∀ c ∈ req.candidates, c.Printable) : SerializesBack strict charSigned accountId msg := by
  obtain ⟨request, known, terminated, quotable⟩ := sendable
  have each : ∀ c ∈ req.candidates, (candidateTextOf c).length ≤ candidateStrLen := by
    intro c member
    rw [length_candidateTextOf]
    exact fits.each c member
  obtain ⟨buf, ran, read⟩ := candidatesText_eq fits.few terminated ((room_iff _).mpr fits.all)
  rw [candidatesWritten_eq each] at read
  obtain ⟨out, written, serialized, whole, -⟩ := @sessionMessageSerialize_eq accountId msg req buf _ _ request ran read
    (zero_not_mem_candidatesTextOf each) (Nat.lt_succ_self _)
  obtain ⟨body, rfl⟩ := whole fits.short
  obtain ⟨stored, live, parsed⟩ := @sessionMessageParse_value charSigned accountId msg req known
  refine ⟨out, _, _, _, _, _, serialized, body, ?_, (message_reads quotable printable).parse, parsed, rfl, rfl, rfl, rfl, req, _, request,
    rfl, rfl, rfl, rfl, rfl, rfl, ?_⟩
  · rw [messageTextOf_eq, candidatesTextOf_eq quotable, ← Json.escape_append, ← Json.escape_append]
    exact Json.decodeString_escape _
  · rw [List.map_map]
    exact List.map_congr_left fun c member => stored_content (terminated c member)

theorem candidates_of_serialized (request : msg.connRequest = some req) {out : Bytes} {written : Int}
    (serialized : sessionMessageSerialize accountId msg = .ok (out, written)) : ∃ r, candidatesText req.candidates = .ok r := by
  rw [sessionMessageSerialize, request, deref_some, ok_bind] at serialized
  obtain ⟨conn, ran, -⟩ := bind_eq_ok serialized
  obtain ⟨peer, -, ran⟩ := bind_eq_ok ran
  obtain ⟨candidates, listed, -⟩ := bind_eq_ok ran
  exact ⟨candidates, listed⟩

theorem messageText_refused {jsonText : Bytes} (refused : Json.ElementsRefused strict jsonText)
    (begins : ∃ rest, jsonText = 0x7b :: rest) : Json.parse strict (openMessage msg req ++ 0x5b :: jsonText) = none := by
  obtain ⟨rest, rfl⟩ := begins
  have array : Json.Refused strict (0x5b :: 0x7b :: rest) :=
    Json.refused_array refused fun same => absurd (Option.some.inj same) (by decide)
  have request := Json.refused_openObject (Json.exists_reads (requestMembers_read 0 req)) (plain_name "candidate" (by decide)) array
  have message := Json.refused_openObject (Json.exists_reads (messageMembers_read 0 msg req)) (plain_name "connRequest" (by decide)) request
  rw [openMessage, List.append_assoc]
  exact message.parse

theorem fits_of_serializesBack (sendable : Sendable msg req) (back : SerializesBack strict charSigned accountId msg) :
    SizesFit accountId msg req ∧ (strict = true → ∀ c ∈ req.candidates, c.Printable) := by
  obtain ⟨request, -, terminated, quotable⟩ := sendable
  obtain ⟨out, body, jsonText, json, -, -, serialized, string, decoded, read, -⟩ := back
  obtain ⟨listed, ran⟩ := candidates_of_serialized request serialized
  obtain ⟨few, room⟩ := candidatesText_room terminated ran
  obtain ⟨buf, ran, readBack⟩ := candidatesText_eq few terminated room
  have noZero : (0 : UInt8) ∉ 0x5b :: candidatesWritten req.candidates :=
    List.not_mem_cons_of_ne_of_not_mem (by decide) (zero_not_mem_candidatesWritten _)
  have shorter : (0x5b :: candidatesWritten req.candidates).length < (candidatesTextOf req.candidates).length + 1 := by
    have bound := length_candidatesWritten_le req.candidates
    rw [List.length_cons, length_candidatesTextOf]
    omega
  obtain ⟨out', written, serialized', whole, exceeds⟩ := @sessionMessageSerialize_eq accountId msg req buf _ _ request ran readBack
    noZero shorter
  obtain ⟨rfl, same⟩ := Prod.mk.inj (Except.ok.inj (serialized.symm.trans serialized'))
  have small : (messageTextOf accountId msg req (0x5b :: candidatesWritten req.candidates)).length < 2 ^ 31 := by
    by_contra long
    have negative := exceeds (not_lt.mp long)
    omega
  obtain rfl : body = _ := Except.ok.inj (string.symm.trans (whole small).1)
  have good : ∀ c ∈ req.candidates, ¬ (candidateStrLen < (candidateTextOf c).length ∨ strict = true ∧ ¬ c.Printable) := by
    by_contra some_
    have bad : ∃ c ∈ req.candidates, candidateStrLen < (candidateTextOf c).length ∨ strict = true ∧ ¬ c.Printable := by
      by_contra none_
      exact some_ fun c member reason => none_ ⟨c, member, reason⟩
    have nonempty : req.candidates ≠ [] := by
      obtain ⟨c, member, -⟩ := bad
      exact List.ne_nil_of_mem member
    rw [messageTextOf_eq, List.append_assoc, Json.decodeString_escape_append, List.cons_append,
      Json.decodeString_cons (by decide)] at decoded
    obtain ⟨behind, decodedBehind, rfl⟩ := Option.map_eq_some_iff.mp decoded
    obtain ⟨later, decodedLater, rfl⟩ := Option.map_eq_some_iff.mp decodedBehind
    have refused := candidates_refused req.candidates terminated quotable bad decodedLater
    rw [messageText_refused refused (begins_candidate nonempty decodedLater)] at read
    cases read
  have each : ∀ c ∈ req.candidates, (candidateTextOf c).length ≤ candidateStrLen :=
    fun c member => not_lt.mp fun long => good c member (.inl long)
  rw [candidatesWritten_eq each, length_messageTextOf, length_candidatesTextOf, sum_sizes] at small
  simp only [length_candidateTextOf] at each
  refine ⟨⟨each, (room_iff _).mp room, small⟩, fun isStrict c member => ?_⟩
  by_contra control
  exact good c member (.inr ⟨isStrict, control⟩)

/-- The message comes back exactly if the texts of its candidates fit, and no control characters are in the way. -/
theorem serializesBack_iff (sendable : Sendable msg req) : SerializesBack strict charSigned accountId msg ↔
    SizesFit accountId msg req ∧ (strict = true → ∀ c ∈ req.candidates, c.Printable) := by
  constructor
  · exact fits_of_serializesBack sendable
  · rintro ⟨fits, printable⟩
    exact serializesBack_of_fits sendable fits printable

end RoundTrip

def candidateAt (type : CandidateType) (addr addrMapped : String) (port portMapped : UInt16) : Candidate :=
  ⟨type, strncpy (text addr), strncpy (text addrMapped), port, portMapped⟩

def requestOf (candidates : List Candidate) : ConnectionRequest := { emptyRequest with sid := 0x80000001, candidates := candidates }

def offerOf (candidates : List Candidate) : FullSessionMessage := ⟨.offer, 3, 0, some (requestOf candidates)⟩

theorem serializesBack_local : SerializesBack true true 42 (offerOf [candidateAt .«local» "192.168.1.7" "0.0.0.0" 9303 9303]) :=
  (@serializesBack_iff true true 42 _ (requestOf [candidateAt .«local» "192.168.1.7" "0.0.0.0" 9303 9303]) ⟨rfl, by decide,
    by simp only [Candidate.Terminated]; decide +kernel, by simp only [Candidate.Quotable, Quotable]; decide +kernel⟩).mpr
    ⟨⟨by decide +kernel, by decide +kernel, by decide +kernel⟩, fun _ => by simp only [Candidate.Printable, Printable]; decide +kernel⟩

/-- Addresses of 36 and of 45 characters. -/
def longCandidate : Candidate :=
  candidateAt .derived "2001:0db8:1111:2222:3333:4444:5555:6" "2001:0db8:1111:2222:3333:4444:192.168.111.222" 12345 54321

theorem not_serializesBack : Sendable (offerOf [longCandidate]) (requestOf [longCandidate]) ∧
    sessionMessageSerialize 42 (offerOf [longCandidate]) = .error .outOfBounds ∧
    ¬ SerializesBack false true 42 (offerOf [longCandidate]) := by
  have failed : sessionMessageSerialize 42 (offerOf [longCandidate]) = .error .outOfBounds := by decide +kernel
  refine ⟨⟨rfl, by decide, by simp only [Candidate.Terminated]; decide +kernel,
    by simp only [Candidate.Quotable, Quotable]; decide +kernel⟩, failed, ?_⟩
  rintro ⟨out, body, jsonText, json, parsed, msg', serialized, -⟩
  rw [failed] at serialized
  cases serialized

end Chiaki.Holepunch
