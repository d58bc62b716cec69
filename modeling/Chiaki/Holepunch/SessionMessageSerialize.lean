import Chiaki.Holepunch.SessionMessageParse

/-!
# Session messages as text

`session_message_serialize`, with the memory of its buffers. All allocations succeed.
-/

namespace Chiaki.Holepunch
open Memory

/-! ## The formats -/

def sessionMessageEnvelopeFmt : List Directive := [
  .lit "\x7b\"channel\":\"remote_play:1\",\"payload\":\"ver=1.0, type=text, body=", .str,
  .lit "\",\"to\":[\x7b\"accountId\":\"", .long,
  .lit "\",\"deviceUniqueId\":\"", .str,
  .lit "\",\"platform\":\"", .str, .lit "\"\x7d]\x7d"]

def sessionMessageFmt : List Directive := [
  .lit "\x7b\\\"action\\\":\\\"", .str,
  .lit "\\\",\\\"reqId\\\":", .int,
  .lit ",\\\"error\\\":", .int,
  .lit ",\\\"connRequest\\\":", .str, .lit "\x7d"]

def sessionConnrequestFmt : List Directive := [
  .lit "\x7b\\\"sid\\\":", .int,
  .lit ",\\\"peerSid\\\":", .int,
  .lit ",\\\"skey\\\":\\\"", .str,
  .lit "\\\",\\\"natType\\\":", .int,
  .lit ",\\\"candidate\\\":", .str,
  .lit ",\\\"defaultRouteMacAddr\\\":\\\"", .str,
  .lit "\\\",\\\"localPeerAddr\\\":", .str,
  .lit ",\\\"localHashedId\\\":\\\"", .str, .lit "\\\"\x7d"]

def sessionConnrequestCandidateFmt : List Directive := [
  .lit "\x7b\\\"type\\\":\\\"", .str,
  .lit "\\\",\\\"addr\\\":\\\"", .str,
  .lit "\\\",\\\"mappedAddr\\\":\\\"", .str,
  .lit "\\\",\\\"port\\\":", .int,
  .lit ",\\\"mappedPort\\\":", .int, .lit "\x7d"]

def sessionLocalpeeraddrFmt : List Directive := [
  .lit "\x7b\\\"accountId\\\":\\\"", .long,
  .lit "\\\",\\\"platform\\\":\\\"", .str, .lit "\\\"\x7d"]

/-! ## The candidates -/

def CandidateType.name : CandidateType → Bytes
  | .«local» => text "LOCAL"
  | .static => text "STATIC"
  | .stun => text "STUN"
  | .derived => text "DERIVED"

def candidateStrLen : Nat := formatSize sessionConnrequestCandidateFmt * 2

/-- The text of a candidate, before it is written anywhere. -/
def candidateString (c : Candidate) : Checked Bytes := do
  let addr ← bufString c.addr.toList
  let addrMapped ← bufString c.addrMapped.toList
  pure (sprintf sessionConnrequestCandidateFmt
    [.str c.type.name, .str addr, .str addrMapped, .int c.port.toNat, .int c.portMapped.toNat])

/-- The loop over the candidates: `candidates_json` and `candidates_len`. -/
def serializeCandidates (numCandidates : Nat) : (i : Nat) → List Candidate → (candidatesJson : Bytes) → (candidatesLen : Nat) →
    Checked (Bytes × Nat)
  | _, [], candidatesJson, candidatesLen => pure (candidatesJson, candidatesLen)
  | i, c :: rest, candidatesJson, candidatesLen => do
      let string ← candidateString c
      let (candidateStr, written) ← snprintf (List.replicate candidateStrLen 0) 0 candidateStrLen string
      let candidateLen := (written % 2 ^ 64).toNat
      let candidateStr ← bufString candidateStr
      let (candidatesJson, _) ← snprintf candidatesJson candidatesLen candidateLen candidateStr
      let candidatesJson ← setField candidatesJson (candidatesLen + candidateLen - 1) [0x7d]
      -- the next `i` has to be an `int`
      if i + 1 = 2 ^ 31 then .error .signedOverflow
      else if i < numCandidates - 1 then do
        let candidatesJson ← setField candidatesJson (candidatesLen + candidateLen) [0x2c]
        serializeCandidates numCandidates (i + 1) rest candidatesJson (candidatesLen + candidateLen + 1)
      else serializeCandidates numCandidates (i + 1) rest candidatesJson (candidatesLen + candidateLen)

/-- `candidates_json` and `candidates_len`, with the brackets and the terminator. -/
def candidatesText (candidates : List Candidate) : Checked (Bytes × Nat) := do
  let candidatesJson ← setField (List.replicate (candidateStrLen * candidates.length + 3) 0) 0 [0x5b]
  let (candidatesJson, candidatesLen) ← serializeCandidates candidates.length 0 candidates candidatesJson 1
  let candidatesJson ← setField candidatesJson candidatesLen [0x5d]
  let candidatesJson ← setField candidatesJson (candidatesLen + 1) [0]
  pure (candidatesJson, candidatesLen + 2)

/-! ## The message -/

def SessionMessageAction.name : SessionMessageAction → Bytes
  | .offer => text "OFFER"
  | .accept => text "ACCEPT"
  | .terminate => text "TERMINATE"
  | .result => text "RESULT"
  | .unknown => text "UNKNOWN"

/-- `localhashedid_str`. -/
def hashedIdBuffer (localHashedId : Vector UInt8 20) : Checked Bytes :=
  if localHashedId = Vector.replicate 20 0 then pure (List.replicate 29 0)
  else do
    let (_, buf) ← chiakiBase64Encode localHashedId.toList (List.replicate 29 0) 29
    pure buf

/-- `connreq_json` and `connreq_len`. -/
def connRequestText (accountId : UInt64) (req : ConnectionRequest) : Checked (Bytes × Int) := do
  let (localpeeraddrJson, written) ← snprintf (List.replicate 128 0) 0 128
    (sprintf sessionLocalpeeraddrFmt [.int accountId.toInt64.toInt, .str (text "REMOTE_PLAY")])
  let localpeeraddrLen := (written % 2 ^ 64).toNat
  let (candidatesJson, candidatesLen) ← candidatesText req.candidates
  let localhashedidStr ← hashedIdBuffer req.localHashedId
  let (_, skeyStr) ← chiakiBase64Encode req.skey.toList (List.replicate 25 0) 25
  let connreqJsonLen := formatSize sessionConnrequestFmt * 2 + localpeeraddrLen + candidatesLen
  let skey ← bufString skeyStr
  let candidates ← bufString candidatesJson
  let localpeeraddr ← bufString localpeeraddrJson
  let localhashedid ← bufString localhashedidStr
  snprintf (List.replicate connreqJsonLen 0) 0 connreqJsonLen (sprintf sessionConnrequestFmt
    [.int req.sid.toInt32.toInt, .int req.peerSid.toInt32.toInt, .str skey, .int req.natType.toNat, .str candidates, .str [],
      .str localpeeraddr, .str localhashedid])

/-- `session_message_serialize`: the memory that `*out` points to, and `msg_len`. -/
def sessionMessageSerialize (accountId : UInt64) (message : FullSessionMessage) : Checked (Bytes × Int) := do
  let req ← deref message.connRequest
  let (connreqJson, connreqLen) ← connRequestText accountId req
  let serializedMsgLen := (formatSize sessionMessageEnvelopeFmt * 2 + connreqLen).toNat
  let connreq ← bufString connreqJson
  snprintf (List.replicate serializedMsgLen 0) 0 serializedMsgLen (sprintf sessionMessageFmt
    [.str message.action.name, .int message.reqId.toNat, .int message.error.toNat, .str connreq])

end Chiaki.Holepunch
