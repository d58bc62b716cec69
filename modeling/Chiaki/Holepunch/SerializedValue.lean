import Chiaki.Holepunch.SerializedJson

/-!
# The value of a session message

What `session_message_parse` makes of the JSON value that a message is serialized as.
-/

namespace Chiaki.Holepunch
open Memory

section Arrays
variable {n : Nat} {s : Bytes}

theorem memcpy_toList (array data : Vector UInt8 n) : memcpy array data.toList = data := by
  apply Vector.ext
  intro i bound
  rw [memcpy, Vector.getElem_ofFn]
  simp [bound]

theorem toList_strncpy (short : s.length ≤ n) : (strncpy s : Vector UInt8 n).toList = s ++ List.replicate (n - s.length) 0 := by
  apply List.ext_getElem
  · rw [Vector.length_toList, List.length_append, List.length_replicate]
    omega
  · intro i bound bound'
    have inArray : i < n := by rwa [Vector.length_toList] at bound
    rw [Vector.getElem_toList]
    change (Vector.ofFn fun i : Fin n => s.getD i (Vector.replicate n 0)[i])[i] = _
    rw [Vector.getElem_ofFn]
    by_cases inside : i < s.length
    · rw [List.getElem_append_left inside]
      simp [inside]
    · rw [List.getElem_append_right (not_lt.mp inside), List.getElem_replicate]
      simp [inside]

theorem cStr_strncpy (string : 0 ∉ s) (short : s.length < n) : cStr (strncpy s : Vector UInt8 n).toList = s := by
  obtain ⟨more, room⟩ := Nat.exists_eq_add_of_lt short
  have left : n - s.length = more + 1 := by omega
  rw [toList_strncpy short.le, left, List.replicate_succ]
  exact cStr_append_zero string _

theorem cStr_self (string : 0 ∉ s) : cStr s = s := by
  have whole := cStr_append string []
  rw [List.append_nil] at whole
  exact whole.trans (List.append_nil _)

end Arrays

section Fields
variable {json : Json.Value} {key : String}

theorem jsonString_get {s : Bytes} (got : json.get (text key) = some (.string s)) : jsonString json key = some (cStr s) := by
  rw [jsonString, got]

theorem jsonInt_get {n : Int} (got : json.get (text key) = some (.int n)) (low : -2 ^ 31 ≤ n) (high : n < 2 ^ 31) :
    jsonInt json key = some n := by
  rw [jsonInt, got]
  dsimp only
  rw [min_eq_left (by omega), max_eq_right low]

end Fields

/-- A candidate as it comes back, with zeros behind its addresses. -/
def Candidate.stored (c : Candidate) : Candidate :=
  { c with addr := strncpy (cStr c.addr.toList), addrMapped := strncpy (cStr c.addrMapped.toList) }

theorem candidateFields_value (c : Candidate) : candidateFields (candidateValue c) =
    some ⟨c.type, cStr c.addr.toList, cStr c.addrMapped.toList, c.port.toNat, c.portMapped.toNat⟩ := by
  have port := c.port.toNat_lt
  have portMapped := c.portMapped.toNat_lt
  have type : candidateTypeOf (cStr c.type.name) = c.type := by cases c.type <;> decide
  have read₁ : jsonString (candidateValue c) "type" = some (cStr c.type.name) := jsonString_get rfl
  have read₂ : jsonString (candidateValue c) "addr" = some (cStr (cStr c.addr.toList)) := jsonString_get rfl
  have read₃ : jsonString (candidateValue c) "mappedAddr" = some (cStr (cStr c.addrMapped.toList)) := jsonString_get rfl
  have read₄ : jsonInt (candidateValue c) "port" = some (c.port.toNat : Int) := jsonInt_get rfl (by omega) (by omega)
  have read₅ : jsonInt (candidateValue c) "mappedPort" = some (c.portMapped.toNat : Int) := jsonInt_get rfl (by omega) (by omega)
  rw [candidateFields, read₁, read₂, read₃, read₄, read₅, cStr_self (zero_not_mem_cStr _),
    cStr_self (zero_not_mem_cStr _)]
  simp only [Option.bind_eq_bind, Option.bind_some, type]
  rfl

theorem ofInt_toNat16 (n : UInt16) : UInt16.ofInt n.toNat = n := by
  rw [← UInt16.toNat_inj, UInt16.ofInt, UInt16.toNat_ofNat']
  have small := n.toNat_lt
  omega

theorem ofInt_toNat8 (n : UInt8) : UInt8.ofInt n.toNat = n := by
  rw [← UInt8.toNat_inj, UInt8.ofInt, UInt8.toNat_ofNat']
  have small := n.toNat_lt
  omega

theorem ofInt_toInt32 (n : UInt32) : UInt32.ofInt n.toInt32.toInt = n := by
  have signed : n.toInt32.toInt = (n.toNat : Int).bmod (2 ^ 32) := BitVec.toInt_eq_toNat_bmod n.toBitVec
  have same : (n.toNat : Int).bmod (2 ^ 32) % 2 ^ 32 = (n.toNat : Int) % 2 ^ 32 := Int.bmod_emod
  have small := n.toNat_lt
  rw [← UInt32.toNat_inj, UInt32.ofInt, UInt32.toNat_ofNat', signed, same]
  omega

theorem readCandidates_values (cs : List Candidate) :
    (readCandidates (cs.map candidateValue)).map CandidateFields.candidate = cs.map Candidate.stored ∧
      (readCandidates (cs.map candidateValue)).length = cs.length := by
  induction cs with
  | nil => exact ⟨rfl, rfl⟩
  | cons c cs ih =>
      obtain ⟨candidates, length⟩ := ih
      have first : CandidateFields.candidate ⟨c.type, cStr c.addr.toList, cStr c.addrMapped.toList, c.port.toNat, c.portMapped.toNat⟩ =
          c.stored := by
        rw [CandidateFields.candidate, ofInt_toNat16, ofInt_toNat16]
        rfl
      rw [List.map_cons, readCandidates, candidateFields_value]
      dsimp only
      rw [List.map_cons, List.map_cons, first, candidates, List.length_cons, length, List.length_cons]
      exact ⟨rfl, rfl⟩

/-! ## The message -/

section Values
variable {charSigned : Bool} {accountId : UInt64} {msg : FullSessionMessage} {req : ConnectionRequest}

theorem messageFields_value (known : msg.action ≠ .unknown) : messageFields (messageValue accountId msg req) =
    some (⟨msg.action, msg.reqId, msg.error, none⟩, requestValues accountId req) := by
  have reqId := msg.reqId.toNat_lt
  have error := msg.error.toNat_lt
  have action : actionOf (cStr msg.action.name) = msg.action := by
    cases known_ : msg.action with
    | unknown => exact absurd known_ known
    | _ => decide
  have read₁ : jsonString (messageValue accountId msg req) "action" = some (cStr msg.action.name) := jsonString_get rfl
  have read₂ : jsonInt (messageValue accountId msg req) "reqId" = some (msg.reqId.toNat : Int) := jsonInt_get rfl (by omega) (by omega)
  have read₃ : jsonInt (messageValue accountId msg req) "error" = some (msg.error.toNat : Int) := jsonInt_get rfl (by omega) (by omega)
  have read₄ : jsonObject (messageValue accountId msg req) "connRequest" = some (requestValues accountId req) := rfl
  rw [messageFields, read₁, read₂, read₃, read₄]
  simp only [Option.bind_eq_bind, Option.bind_some, action, ofInt_toNat16]
  rfl

theorem keyFields_value : keyFields (.object (requestValues accountId req)) =
    some (req.sid.toInt32.toInt, req.peerSid.toInt32.toInt, base64Text req.skey.toList) := by
  have read₁ : jsonInt (.object (requestValues accountId req)) "sid" = some req.sid.toInt32.toInt :=
    jsonInt_get rfl req.sid.toInt32.le_toInt req.sid.toInt32.toInt_lt
  have read₂ : jsonInt (.object (requestValues accountId req)) "peerSid" = some req.peerSid.toInt32.toInt :=
    jsonInt_get rfl req.peerSid.toInt32.le_toInt req.peerSid.toInt32.toInt_lt
  have read₃ : jsonString (.object (requestValues accountId req)) "skey" = some (cStr (base64Text req.skey.toList)) := jsonString_get rfl
  rw [keyFields, read₁, read₂, read₃, cStr_self (zero_not_mem_base64Text _)]
  rfl

theorem idFields_value : idFields (.object (requestValues accountId req)) =
    some ((req.natType.toNat : Int), (Vector.replicate 6 0 : Vector UInt8 6), hashedIdText req.localHashedId) := by
  have natType := req.natType.toNat_lt
  have read₁ : jsonInt (.object (requestValues accountId req)) "natType" = some (req.natType.toNat : Int) :=
    jsonInt_get rfl (by omega) (by omega)
  have read₂ : jsonString (.object (requestValues accountId req)) "defaultRouteMacAddr" = some (cStr []) := jsonString_get rfl
  have read₃ : jsonString (.object (requestValues accountId req)) "localHashedId" = some (cStr (hashedIdText req.localHashedId)) :=
    jsonString_get rfl
  rw [idFields, read₁, read₂, read₃, cStr_self (zero_not_mem_hashedIdText _)]
  rfl

theorem parseKey_value : parseKey charSigned (.object (requestValues accountId req)) emptyRequest =
    .ok (.ok { emptyRequest with sid := req.sid, peerSid := req.peerSid, skey := req.skey }) := by
  have size : (base64Text req.skey.toList).length = 24 := by rw [length_base64Text, Vector.length_toList]
  have decoded := @chiakiBase64Decode_base64Text charSigned 24 req.skey.toList emptyRequest.skey.toList
    (by rw [Vector.length_toList, Vector.length_toList]) (by rw [Vector.length_toList]; decide)
  rw [List.drop_eq_nil_of_le (by rw [Vector.length_toList, Vector.length_toList]), List.append_nil] at decoded
  rw [parseKey, keyFields_value]
  dsimp only
  rw [size, decoded, ok_bind]
  dsimp only
  rw [if_neg (by simp), memcpy_toList, ofInt_toInt32, ofInt_toInt32]
  rfl

theorem parseId_value (r : ConnectionRequest) (empty : r.localHashedId = Vector.replicate 20 0) :
    parseId charSigned (.object (requestValues accountId req)) r = .ok (.ok { r with
      natType := req.natType, defaultRouteMacAddr := Vector.replicate 6 0, localHashedId := req.localHashedId }) := by
  have decoded : ∃ len, chiakiBase64Decode charSigned (hashedIdText req.localHashedId) r.localHashedId.toList 20 =
      .ok ⟨.success, req.localHashedId.toList, len⟩ := by
    rw [hashedIdText, empty]
    split
    · rename_i zero
      rw [zero]
      exact ⟨0, rfl⟩
    · have ran := @chiakiBase64Decode_base64Text charSigned 20 req.localHashedId.toList (Vector.replicate 20 0).toList
        (by rw [Vector.length_toList, Vector.length_toList]) (by rw [Vector.length_toList])
      rw [List.drop_eq_nil_of_le (by rw [Vector.length_toList, Vector.length_toList]), List.append_nil] at ran
      exact ⟨_, ran⟩
  obtain ⟨len, decoded⟩ := decoded
  rw [parseId, idFields_value]
  dsimp only
  rw [decoded, ok_bind]
  dsimp only
  rw [if_neg (by simp), memcpy_toList, ofInt_toNat8]
  rfl

theorem sessionMessageParse_value (known : msg.action ≠ .unknown) :
    ∃ stored live, sessionMessageParse charSigned (fun _ => true) (messageValue accountId msg req) = .ok ⟨.ok { msg with
      connRequest := some { req with defaultRouteMacAddr := Vector.replicate 6 0, candidates := req.candidates.map Candidate.stored } },
      stored, live⟩ := by
  obtain ⟨candidates, length⟩ := readCandidates_values req.candidates
  have array : jsonArray (.object (requestValues accountId req)) "candidate" = some (req.candidates.map candidateValue) := rfl
  have read := @parseCandidates_eq (req.candidates.map candidateValue) [] (List.replicate req.candidates.length emptyCandidate)
    (by rw [List.length_map, List.length_replicate])
  rw [candidates, length, List.length_map, decide_eq_true rfl, List.drop_replicate, Nat.sub_self, List.replicate_zero, List.append_nil,
    List.nil_append, List.length_nil, List.nil_append] at read
  have some_ : requestValues accountId req ≠ [] := List.cons_ne_nil _ _
  refine ⟨req.candidates.map Candidate.stored, [.message, .connRequest, .candidates], ?_⟩
  rw [sessionMessageParse, if_pos rfl, messageFields_value known]
  dsimp only
  rw [if_neg some_, if_pos rfl, parseRequest, parseKey_value, ok_bind]
  dsimp only
  rw [parseId_value _ rfl, ok_bind]
  dsimp only
  rw [parseArray, array]
  dsimp only
  rw [if_pos rfl, List.length_map, read, ok_bind]
  dsimp only
  rw [if_pos rfl]
  rfl

end Values

end Chiaki.Holepunch
