import Chiaki.Base64.Outcome
import Chiaki.Holepunch.ConnectionRequest
import Chiaki.Holepunch.Notifications
import Chiaki.Lib.Json
import Chiaki.Printf
import Chiaki.Regist.Hex

/-!
# What is read from a session message

`session_message_parse`, with what it allocates and frees, and `chiaki_holepunch_session_punch_hole` up to its own offer.
The JSON value comes from a parser outside this program.
-/

namespace Chiaki.Holepunch
open Memory

/-- `SessionMessage`, with all that `session_message_parse` sets. -/
structure FullSessionMessage where
  action : SessionMessageAction
  reqId : UInt16
  error : UInt16
  connRequest : Option ConnectionRequest

/-! ## Values in a JSON object -/

def jsonString (json : Json.Value) (key : String) : Option Bytes :=
  match json.get (text key) with
  | some (.string bytes) => some (cStr bytes)
  | _ => none

/-- `json_object_get_int` of an integer. -/
def jsonInt (json : Json.Value) (key : String) : Option Int :=
  match json.get (text key) with
  | some (.int n) => some (max (-2 ^ 31) (min n (2 ^ 31 - 1)))
  | _ => none

def jsonArray (json : Json.Value) (key : String) : Option (List Json.Value) :=
  match json.get (text key) with
  | some (.array elements) => some elements
  | _ => none

def jsonObject (json : Json.Value) (key : String) : Option (List (Bytes × Json.Value)) :=
  match json.get (text key) with
  | some (.object members) => some members
  | _ => none

def actionOf (action : Bytes) : SessionMessageAction :=
  if action = text "OFFER" then .offer
  else if action = text "ACCEPT" then .accept
  else if action = text "TERMINATE" then .terminate
  else if action = text "RESULT" then .result
  else .unknown

def candidateTypeOf (type : Bytes) : CandidateType :=
  if type = text "LOCAL" then .«local»
  else if type = text "STUN" then .stun
  else if type = text "DERIVED" then .derived
  else .static

/-- `strncpy` to an array, which is filled with zeros. -/
def strncpy {n : Nat} (s : Bytes) : Vector UInt8 n := memcpy (Vector.replicate n 0) s

/-- The action, the request id and the error, and the members of the connection request. -/
def messageFields (json : Json.Value) : Option (FullSessionMessage × List (Bytes × Json.Value)) := do
  let action ← jsonString json "action"
  let reqId ← jsonInt json "reqId"
  let error ← jsonInt json "error"
  let conn ← jsonObject json "connRequest"
  pure (⟨actionOf action, .ofInt reqId, .ofInt error, none⟩, conn)

structure CandidateFields where
  type : CandidateType
  addr : Bytes
  mappedAddr : Bytes
  port : Int
  mappedPort : Int

def candidateFields (json : Json.Value) : Option CandidateFields := do
  let type ← jsonString json "type"
  let addr ← jsonString json "addr"
  let mappedAddr ← jsonString json "mappedAddr"
  let port ← jsonInt json "port"
  let mappedPort ← jsonInt json "mappedPort"
  pure ⟨candidateTypeOf type, addr, mappedAddr, port, mappedPort⟩

def CandidateFields.candidate (fields : CandidateFields) : Candidate :=
  ⟨fields.type, strncpy fields.addr, strncpy fields.mappedAddr, .ofInt fields.port, .ofInt fields.mappedPort⟩

/-- `strtoul` with the base 16, and where it ends. -/
def strtoul16 (s : Bytes) : Nat × Bytes :=
  let t := s.dropWhile fun c => c = 0x20 || (0x09 ≤ c && c ≤ 0x0d)
  let (negative, t) := match t with
    | 0x2d :: t => (true, t)
    | 0x2b :: t => (false, t)
    | t => (false, t)
  let t := match t with
    | 0x30 :: x :: d :: t => if (x = 0x78 ∨ x = 0x58) ∧ (nibbleValue d).isSome then d :: t else 0x30 :: x :: d :: t
    | t => t
  let digits := (t.map nibbleValue).takeWhile (·.isSome)
  if digits.isEmpty then (0, s)
  else
    let n := digits.foldl (fun n d => n * 16 + (d.getD 0).toNat) 0
    (if 2 ^ 64 ≤ n then 2 ^ 64 - 1 else if negative then (2 ^ 64 - n) % 2 ^ 64 else n, t.drop digits.length)

/-- The bytes between the colons of a MAC address, `left` of them. -/
def macBytes : (left : Nat) → Bytes → Option Bytes
  | 0, _ => some []
  | 1, s => some [UInt8.ofNat (strtoul16 s).1]
  | left + 1, s =>
      match strtoul16 s with
      | (n, 0x3a :: rest) => (macBytes left rest).map (UInt8.ofNat n :: ·)
      | _ => none

/-- A text of another length is no MAC address, and ignored. -/
def parseMac (array : Vector UInt8 6) (mac : Bytes) : Option (Vector UInt8 6) :=
  if mac.length = 17 then (macBytes 6 mac).map (memcpy array) else some array

/-- The fields up to the key. -/
def keyFields (conn : Json.Value) : Option (Int × Int × Bytes) := do
  let sid ← jsonInt conn "sid"
  let peerSid ← jsonInt conn "peerSid"
  let skey ← jsonString conn "skey"
  pure (sid, peerSid, skey)

/-- The fields from the key up to the hashed id. -/
def idFields (conn : Json.Value) : Option (Int × Vector UInt8 6 × Bytes) := do
  let natType ← jsonInt conn "natType"
  let mac ← jsonString conn "defaultRouteMacAddr"
  let mac ← parseMac (Vector.replicate 6 0) mac
  let localHashedId ← jsonString conn "localHashedId"
  pure (natType, mac, localHashedId)

/-! ## The allocations -/

inductive Block where
  | message
  | connRequest
  | candidates
  deriving DecidableEq

def access (live : List Block) (block : Block) : Checked Unit := if block ∈ live then .ok () else .error .outOfBounds

def freeBlock (live : List Block) (block : Block) : Checked (List Block) :=
  if block ∈ live then .ok (live.erase block) else .error .outOfBounds

/-- `session_message_free`. The flags tell which pointers are not `NULL`. -/
def sessionMessageFree (live : List Block) (connRequest candidates : Bool) : Checked (List Block) := do
  access live .message
  let live ← if connRequest then do
      access live .connRequest
      let live ← if candidates then freeBlock live .candidates else pure live
      freeBlock live .connRequest
    else pure live
  freeBlock live .message

/-! ## The connection request -/

/-- `calloc`. -/
def emptyRequest : ConnectionRequest where
  sid := 0
  peerSid := 0
  skey := Vector.replicate 16 0
  natType := 0
  candidates := []
  defaultRouteMacAddr := Vector.replicate 6 0
  localHashedId := Vector.replicate 20 0

def emptyCandidate : Candidate := ⟨.static, Vector.replicate _ 0, Vector.replicate _ 0, 0, 0⟩

/-- `skey_len` is the length of the text, not of the field. -/
def parseKey (charSigned : Bool) (conn : Json.Value) (req : ConnectionRequest) :
    Checked (Except ErrorCode ConnectionRequest) :=
  match keyFields conn with
  | none => pure (.error .unknown)
  | some (sid, peerSid, skey) => do
      let decoded ← chiakiBase64Decode charSigned skey req.skey.toList skey.length
      if decoded.err ≠ .success then pure (.error decoded.err)
      else pure (.ok { req with sid := .ofInt sid, peerSid := .ofInt peerSid, skey := memcpy req.skey decoded.out })

def parseId (charSigned : Bool) (conn : Json.Value) (req : ConnectionRequest) :
    Checked (Except ErrorCode ConnectionRequest) :=
  match idFields conn with
  | none => pure (.error .unknown)
  | some (natType, mac, localHashedId) => do
      let decoded ← chiakiBase64Decode charSigned localHashedId req.localHashedId.toList req.localHashedId.size
      if decoded.err ≠ .success then pure (.error decoded.err)
      else pure (.ok { req with natType := .ofInt natType, defaultRouteMacAddr := mac,
                                localHashedId := memcpy req.localHashedId decoded.out })

/-- The loop over the candidates: the array, and if each was one. -/
def parseCandidates : (i : Nat) → List Json.Value → List Candidate → Checked (List Candidate × Bool)
  | _, [], array => pure (array, true)
  | i, json :: rest, array =>
      match candidateFields json with
      | none => pure (array, false)
      | some fields =>
          if i < array.length then parseCandidates (i + 1) rest (array.set i fields.candidate)
          else .error .outOfBounds

/-- What `session_message_parse` returns, the array of candidates at the end, and what is still allocated. -/
structure ParsedMessage where
  result : Except ErrorCode FullSessionMessage
  stored : List Candidate
  live : List Block

/-- `cleanup`, with an error. -/
def parseFailed (err : ErrorCode) (stored : List Candidate) (live : List Block) (connRequest candidates : Bool) :
    Checked ParsedMessage := do
  let live ← sessionMessageFree live connRequest candidates
  pure ⟨.error err, stored, live⟩

/-- From the array of candidates on. -/
def parseArray (calloc : Block → Bool) (msg : FullSessionMessage) (conn : Json.Value) (req : ConnectionRequest) :
    Checked ParsedMessage :=
  match jsonArray conn "candidate" with
  | none => parseFailed .unknown [] [.message, .connRequest] true false
  | some elements =>
      if calloc .candidates then do
        let (array, complete) ← parseCandidates 0 elements (List.replicate elements.length emptyCandidate)
        if complete then
          pure ⟨.ok { msg with connRequest := some { req with candidates := array } }, array,
            [.message, .connRequest, .candidates]⟩
        else parseFailed .unknown array [.message, .connRequest, .candidates] true true
      else do
        -- `free(msg->conn_request)`, and the pointer to it stays
        let live ← freeBlock [.message, .connRequest] .connRequest
        parseFailed .memory [] live true false

def parseRequest (charSigned : Bool) (calloc : Block → Bool) (msg : FullSessionMessage) (conn : Json.Value) :
    Checked ParsedMessage := do
  match ← parseKey charSigned conn emptyRequest with
  | .error err => parseFailed err [] [.message, .connRequest] true false
  | .ok req =>
      match ← parseId charSigned conn req with
      | .error err => parseFailed err [] [.message, .connRequest] true false
      | .ok req => parseArray calloc msg conn req

/-- `session_message_parse`. `calloc` tells which allocations succeed. -/
def sessionMessageParse (charSigned : Bool) (calloc : Block → Bool) (json : Json.Value) : Checked ParsedMessage :=
  if calloc .message then
    match messageFields json with
    | none => parseFailed .unknown [] [.message] false false
    | some (msg, conn) =>
        if conn = [] then pure ⟨.ok msg, [], [.message]⟩
        else if calloc .connRequest then parseRequest charSigned calloc msg (.object conn)
        else parseFailed .memory [] [.message] false false
  else pure ⟨.error .memory, [], []⟩

/-! ## The offer of the console -/

/-- The fields of the session that an offer changes. -/
structure PunchingSession where
  hashedIdConsole : Vector UInt8 20
  sidConsole : UInt16
  ctrlOfferReceived : Bool
  dataOfferReceived : Bool
  mainShouldStop : Bool
  localReqId : Nat

/-- What `http_send_session_message` returns for the acknowledgement, and if the array for the own candidates is allocated. -/
structure PunchingSurroundings where
  ctrl : Bool
  sent : ErrorCode
  calloc : Bool

/-- The arguments of `send_offer`. -/
structure SendOffer where
  reqId : Nat
  localConsoleCandidate : Candidate
  candidatesReceived : List Candidate

/-- `chiaki_holepunch_session_punch_hole` from the offer of the console up to `send_offer`. -/
def punchHole (env : PunchingSurroundings) (s : PunchingSession) (consoleOfferMsg : FullSessionMessage) :
    Checked (PunchingSession × Except ErrorCode SendOffer) := do
  let consoleReq ← deref consoleOfferMsg.connRequest
  let s := { s with
    hashedIdConsole := consoleReq.localHashedId
    sidConsole := consoleReq.sid.toUInt16
    ctrlOfferReceived := s.ctrlOfferReceived || env.ctrl
    dataOfferReceived := s.dataOfferReceived || !env.ctrl }
  -- not initialised where there is no local candidate
  let consoleCandidateLocal := consoleReq.candidates.find? (·.type = .«local»)
  if env.sent ≠ .success then pure (s, .error env.sent)
  else if s.mainShouldStop then pure ({ s with mainShouldStop := false }, .error .canceled)
  else
    let ourOfferReqId := s.localReqId
    let s := { s with localReqId := s.localReqId + 1 }
    if env.calloc then do
      let candidate ← inBounds consoleCandidateLocal
      pure (s, .ok ⟨ourOfferReqId, candidate, consoleReq.candidates⟩)
    else pure (s, .error .memory)

end Chiaki.Holepunch
