import Chiaki.Base64.Decode
import Chiaki.Holepunch.SessionMessageParse
import Chiaki.Printf
import Chiaki.Regist.FormatHex
import Chiaki.Regist.Response

/-!
# The request for a session

The text that `session_thread_request_session` sends, and what it makes of the answer.
-/

namespace Chiaki

/-- `ChiakiQuitReason`. -/
inductive QuitReason where
  | none | stopped
  | sessionRequestUnknown | sessionRequestConnectionRefused | sessionRequestRpInUse | sessionRequestRpCrash
  | sessionRequestRpVersionMismatch
  | ctrlUnknown | ctrlConnectFailed | ctrlConnectionRefused
  | streamConnectionUnknown | streamConnectionRemoteDisconnected | streamConnectionRemoteShutdown
  | psnRegistFailed
  deriving DecidableEq, Repr

/-! ## Versions -/

/-- `chiaki_target_is_unknown`. -/
def Target.isUnknown (target : Target) : Bool := target = .ps5Unknown || target = .ps4Unknown

/-- `chiaki_rp_version_string`. -/
def rpVersionString : Target → Option Bytes
  | .ps4_8 => some (text "8.0")
  | .ps4_9 => some (text "9.0")
  | .ps4_10 => some (text "10.0")
  | .ps5_1 => some (text "1.0")
  | _ => none

/-- `chiaki_rp_version_parse`. -/
def rpVersionParse (rpVersion : Bytes) (isPs5 : Bool) : Target :=
  if isPs5 then
    if rpVersion = text "1.0" then .ps5_1 else .ps5Unknown
  else if rpVersion = text "8.0" then .ps4_8
  else if rpVersion = text "9.0" then .ps4_9
  else if rpVersion = text "10.0" then .ps4_10
  else .ps4Unknown

theorem rpVersionString_eq_none_iff (target : Target) : rpVersionString target = none ↔ target.isUnknown = true := by
  cases target <;> decide

/-! ## The request -/

def sessionPort : Nat := 9295
def rpcryptKeySize : Nat := 0x10

/-- `session_request_fmt`. -/
def sessionRequestFmt : List Directive :=
  [.lit "GET ", .str, .lit " HTTP/1.1\r\nHost: ", .str, .lit ":", .int,
    .lit "\r\nUser-Agent: remoteplay Windows\r\nConnection: close\r\nContent-Length: 0\r\nRP-Registkey: ", .str,
    .lit "\r\nRp-Version: ", .str, .lit "\r\n\r\n"]

def sessionRequestPath (target : Target) : Bytes :=
  if target = .ps4_8 ∨ target = .ps4_9 then text "/sce/rp/session"
  else if target.isPs5 then text "/sie/ps5/rp/sess/init"
  else text "/sie/ps4/rp/sess/init"

/-- The request as it is put into `send_buf`, or the result of the function. -/
def sessionRequest (target : Target) (hostname : Bytes) (port : Nat) (registKey : Bytes) :
    Checked (Except ErrorCode Bytes) := do
  let (registKeyHex, err) ← formatHex (List.replicate (rpcryptKeySize * 2 + 1) 0) (registKey.takeWhile (· ≠ 0))
  if err ≠ .success then pure (.error .unknown)
  else
    match rpVersionString target with
    | none => pure (.error .invalidData)
    | some rpVersion => do
        let request := sprintf sessionRequestFmt
          [.str (sessionRequestPath target), .str hostname, .int port, .str (cStr registKeyHex), .str rpVersion]
        let (sendBuf, requestLen) ← snprintf (List.replicate 512 0) 0 512 request
        if requestLen < 0 ∨ 512 ≤ requestLen then pure (.error .unknown)
        else pure (.ok (sendBuf.take requestLen.toNat))

/-- Writing the request never leaves a buffer. -/
theorem sessionRequest_ok (target : Target) (hostname : Bytes) (port : Nat) (registKey : Bytes) :
    ∃ r, sessionRequest target hostname port registKey = .ok r := by
  have hex : ∃ r, formatHex (List.replicate (rpcryptKeySize * 2 + 1) 0) (registKey.takeWhile (· ≠ 0)) = .ok r := by
    by_cases room : 2 * (registKey.takeWhile (· ≠ 0)).length + 1 ≤ rpcryptKeySize * 2 + 1
    · exact ⟨_, formatHex_eq (by rw [List.length_replicate]; exact room)⟩
    · rw [formatHex, if_pos (by rw [List.length_replicate]; omega)]
      exact ⟨_, rfl⟩
  have fits (s : Bytes) : ∃ r, snprintf (List.replicate 512 0) 0 512 s = .ok r := by
    have inside : 0 + (s.take (512 - 1) ++ [0]).length ≤ (List.replicate 512 (0 : UInt8)).length := by
      rw [List.length_append, List.length_take, List.length_replicate, List.length_singleton]
      omega
    obtain ⟨buf, set, -⟩ := setField_ok inside
    rw [snprintf, if_neg (by decide), set, ok_bind]
    exact ⟨_, rfl⟩
  obtain ⟨⟨registKeyHex, err⟩, hex⟩ := hex
  rw [sessionRequest, hex, ok_bind]
  dsimp only
  split
  · exact ⟨_, rfl⟩
  · split
    · exact ⟨_, rfl⟩
    · obtain ⟨⟨sendBuf, requestLen⟩, written⟩ := fits (sprintf sessionRequestFmt
        [.str (sessionRequestPath target), .str hostname, .int port, .str (cStr registKeyHex), .str ‹_›])
      rw [written, ok_bind]
      dsimp only
      split <;> exact ⟨_, rfl⟩

/-! ## The answer -/

def rpApplicationReasonInUse : Nat := 0x80108b10
def rpApplicationReasonCrash : Nat := 0x80108b15
def rpApplicationReasonRpVersion : Nat := 0x80108b11
def rpApplicationReasonUnknown : Nat := 0x80108bff

/-- `ChiakiHttpResponse`. The last header comes first. -/
structure HttpResponse where
  code : Int
  headers : List (Bytes × Bytes)

structure SessionResponse where
  errorCode : Nat := 0
  nonce : Option Bytes := none
  rpVersion : Option Bytes := none
  success : Bool := false

def lowerCase (c : UInt8) : UInt8 := if 0x41 ≤ c ∧ c ≤ 0x5a then c + 0x20 else c

/-- `strcasecmp(a, b) == 0`. -/
def sameIgnoringCase (a b : Bytes) : Bool := a.map lowerCase = b.map lowerCase

def sessionHeader (response : SessionResponse) (header : Bytes × Bytes) : SessionResponse :=
  if header.1 = text "RP-Nonce" then { response with nonce := some header.2 }
  else if sameIgnoringCase header.1 (text "RP-Version") then { response with rpVersion := some header.2 }
  else if header.1 = text "RP-Application-Reason" then
    { response with errorCode := (Holepunch.strtoul16 header.2).1 % 2 ^ 32 }
  else response

/-- `parse_session_response`. -/
def parseSessionResponse (http : HttpResponse) : SessionResponse :=
  let response := http.headers.foldl sessionHeader {}
  { response with success := http.code = 200 && response.nonce.isSome }

/-- What an answer comes to: the result, and what is written to `quit_reason`, `*target_out` and `nonce`. -/
structure SessionAnswer where
  err : ErrorCode
  quitReason : Option QuitReason := none
  target : Option Target := none
  nonce : Option Bytes := none

/-- The console speaks another version. -/
def versionMismatch (rpVersion : Bytes) (ps5 : Bool) : SessionAnswer :=
  let target := rpVersionParse rpVersion ps5
  if !target.isUnknown then { err := .versionMismatch, target := some target }
  -- "This is probably nonsense"
  else if rpVersion = text "5.0" then { err := .versionMismatch, target := some .ps4_9 }
  else { err := .versionMismatch, quitReason := some .sessionRequestRpVersionMismatch, target := some target }

/-- The reason that the console gives. -/
def applicationReason (errorCode : Nat) : SessionAnswer :=
  if errorCode = rpApplicationReasonInUse then { err := .unknown, quitReason := some .sessionRequestRpInUse }
  else if errorCode = rpApplicationReasonCrash then { err := .unknown, quitReason := some .sessionRequestRpCrash }
  else if errorCode = rpApplicationReasonRpVersion then
    { err := .versionMismatch, quitReason := some .sessionRequestRpVersionMismatch }
  else { err := .unknown, quitReason := some .sessionRequestUnknown }

/-- `rpVersion` is the version in the request, `targetOut` is whether there is a `target_out`. -/
def sessionAnswer (charSigned : Bool) (rpVersion : Bytes) (ps5 targetOut : Bool) (nonce : Bytes)
    (http : HttpResponse) : Checked SessionAnswer := do
  let response := parseSessionResponse http
  if response.success then do
    let encoded ← deref response.nonce
    let decoded ← chiakiBase64Decode charSigned encoded nonce rpcryptKeySize
    if decoded.err ≠ .success ∨ decoded.outSize ≠ rpcryptKeySize then
      pure { err := .unknown, quitReason := some .sessionRequestUnknown, nonce := some decoded.out }
    else pure { err := .success, nonce := some decoded.out }
  else
    match response.rpVersion with
    | some serverVersion =>
        if (response.errorCode = rpApplicationReasonRpVersion ∨ response.errorCode = rpApplicationReasonUnknown) ∧
            targetOut ∧ rpVersion ≠ serverVersion then
          pure (versionMismatch serverVersion ps5)
        else pure (applicationReason response.errorCode)
    | none => pure (applicationReason response.errorCode)

/-- What an answer can come to. -/
inductive SessionAnswer.Sound (answer : SessionAnswer) : Prop
  | accepted (err : answer.err = .success) (reason : answer.quitReason = none) (target : answer.target = none)
  | renegotiated (target : Target) (err : answer.err = .versionMismatch) (reason : answer.quitReason = none)
      (told : answer.target = some target) (known : target.isUnknown = false)
  | mismatched (err : answer.err = .versionMismatch)
      (reason : answer.quitReason = some .sessionRequestRpVersionMismatch)
      (told : ∀ target, answer.target = some target → target.isUnknown = true)
  | refused (reason : QuitReason) (err : answer.err = .unknown) (told : answer.quitReason = some reason)
      (target : answer.target = none)
      (request : reason = .sessionRequestUnknown ∨ reason = .sessionRequestRpInUse ∨ reason = .sessionRequestRpCrash)

theorem versionMismatch_sound (rpVersion : Bytes) (ps5 : Bool) : (versionMismatch rpVersion ps5).Sound := by
  unfold versionMismatch
  dsimp only
  split
  case isTrue known => exact .renegotiated _ rfl rfl rfl (by simpa using known)
  case isFalse unknown =>
    split
    · exact .renegotiated .ps4_9 rfl rfl rfl rfl
    · refine .mismatched rfl rfl fun target told => ?_
      cases told
      simpa using unknown

theorem applicationReason_sound (errorCode : Nat) : (applicationReason errorCode).Sound := by
  unfold applicationReason
  split
  · exact .refused _ rfl rfl rfl (by simp)
  · split
    · exact .refused _ rfl rfl rfl (by simp)
    · split
      · exact .mismatched rfl rfl fun target told => by cases told
      · exact .refused _ rfl rfl rfl (by simp)

theorem sessionAnswer_sound {charSigned ps5 targetOut : Bool} {rpVersion nonce : Bytes} {http : HttpResponse}
    {answer : SessionAnswer} (done : sessionAnswer charSigned rpVersion ps5 targetOut nonce http = .ok answer) :
    answer.Sound := by
  unfold sessionAnswer at done
  dsimp only at done
  split at done
  · obtain ⟨encoded, -, done⟩ := bind_eq_ok done
    obtain ⟨decoded, -, done⟩ := bind_eq_ok done
    split at done
    · cases done
      exact .refused _ rfl rfl rfl (.inl rfl)
    · cases done
      exact .accepted rfl rfl rfl
  · split at done
    · split at done
      · cases done
        exact versionMismatch_sound _ _
      · cases done
        exact applicationReason_sound _
    · cases done
      exact applicationReason_sound _

end Chiaki
