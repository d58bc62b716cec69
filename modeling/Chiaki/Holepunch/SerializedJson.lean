import Chiaki.Holepunch.SerializedText
import Chiaki.Lib.JsonRefused

/-!
# Session messages as JSON

What the text of a message stands for once the escaping is removed.
-/

namespace Chiaki.Holepunch

/-! ## Members -/

def candidateMembers (c : Candidate) : List (Bytes × Bytes) := [
  (text "type", Json.quoted c.type.name), (text "addr", Json.quoted (cStr c.addr.toList)),
  (text "mappedAddr", Json.quoted (cStr c.addrMapped.toList)), (text "port", Json.intText c.port.toNat),
  (text "mappedPort", Json.intText c.portMapped.toNat)]

def requestMembers (req : ConnectionRequest) : List (Bytes × Bytes) := [
  (text "sid", Json.intText req.sid.toInt32.toInt), (text "peerSid", Json.intText req.peerSid.toInt32.toInt),
  (text "skey", Json.quoted (base64Text req.skey.toList)), (text "natType", Json.intText req.natType.toNat)]

def peerMembers (accountId : UInt64) : List (Bytes × Bytes) := [
  (text "accountId", Json.quoted (Json.intText accountId.toInt64.toInt)), (text "platform", Json.quoted (text "REMOTE_PLAY"))]

def requestMembersBehind (accountId : UInt64) (req : ConnectionRequest) : List (Bytes × Bytes) := [
  (text "defaultRouteMacAddr", Json.quoted []), (text "localPeerAddr", Json.objectText (peerMembers accountId)),
  (text "localHashedId", Json.quoted (hashedIdText req.localHashedId))]

def messageMembers (msg : FullSessionMessage) : List (Bytes × Bytes) := [
  (text "action", Json.quoted msg.action.name), (text "reqId", Json.intText msg.reqId.toNat),
  (text "error", Json.intText msg.error.toNat)]

/-- The text up to the candidates. -/
def openMessage (msg : FullSessionMessage) (req : ConnectionRequest) : Bytes :=
  Json.openObject (messageMembers msg) (text "connRequest") ++ Json.openObject (requestMembers req) (text "candidate")

/-- The text behind the candidates. -/
def closeMessage (accountId : UInt64) (req : ConnectionRequest) : Bytes :=
  Json.closeObject (requestMembersBehind accountId req) ++ Json.closeObject []

/-! ## Escaping -/

/-- Without quotes and backslashes. -/
def Quotable (s : Bytes) : Prop := ∀ c ∈ s, c ≠ 0x22 ∧ c ≠ 0x5c

/-- And without control characters. -/
def Visible (s : Bytes) : Prop := ∀ c ∈ s, c ≠ 0x22 ∧ c ≠ 0x5c ∧ Json.isControl c = false

theorem Visible.quotable {s : Bytes} (visible : Visible s) : Quotable s := by
  intro c member
  obtain ⟨notQuote, notEscape, -⟩ := visible c member
  exact ⟨notQuote, notEscape⟩

/-- All names of members, and a value that is always the same. -/
def memberNames : List String := ["type", "addr", "mappedAddr", "port", "mappedPort", "sid", "peerSid", "skey", "natType", "candidate",
  "defaultRouteMacAddr", "localPeerAddr", "localHashedId", "accountId", "platform", "action", "reqId", "error", "connRequest",
  "REMOTE_PLAY"]

/-- The types of candidates and the actions. -/
def valueNames : List String :=
  ["LOCAL", "STATIC", "STUN", "DERIVED", "OFFER", "ACCEPT", "TERMINATE", "RESULT", "UNKNOWN"]

theorem memberNames_visible : ∀ s ∈ memberNames, Visible (text s) := by
  simp only [Visible]
  decide +kernel

theorem valueNames_visible : ∀ s ∈ valueNames, Visible (text s) := by
  simp only [Visible]
  decide +kernel

theorem memberNames_distinct : (memberNames.map text).Nodup := by
  decide +kernel

theorem names_nodup {names : List String} (chosen : names.Sublist memberNames) : (names.map text).Nodup :=
  (chosen.map text).nodup memberNames_distinct

theorem quotable_name (s : String) (member : s ∈ memberNames) : Quotable (text s) := (memberNames_visible s member).quotable

theorem typeName_visible (type : CandidateType) : Visible type.name := by
  cases type with
  | «local» => exact valueNames_visible "LOCAL" (by decide)
  | static => exact valueNames_visible "STATIC" (by decide)
  | stun => exact valueNames_visible "STUN" (by decide)
  | derived => exact valueNames_visible "DERIVED" (by decide)

theorem actionName_visible (action : SessionMessageAction) : Visible action.name := by
  cases action with
  | offer => exact valueNames_visible "OFFER" (by decide)
  | accept => exact valueNames_visible "ACCEPT" (by decide)
  | terminate => exact valueNames_visible "TERMINATE" (by decide)
  | result => exact valueNames_visible "RESULT" (by decide)
  | unknown => exact valueNames_visible "UNKNOWN" (by decide)

theorem quotable_intText (n : Int) : Quotable (Json.intText n) := by
  have other : ∀ c, Json.isNumberChar c = true → c ≠ 0x22 ∧ c ≠ 0x5c := by
    intro c numeral
    constructor
    · rintro rfl
      cases numeral
    · rintro rfl
      cases numeral
  exact fun c member => other c (Json.intText_chars n c member)

theorem base64Text_visible (input : Bytes) : Visible (base64Text input) := by
  have chars : ∀ c ∈ 0x3d :: base64Chars, c ≠ 0x22 ∧ c ≠ 0x5c ∧ Json.isControl c = false := by decide +kernel
  intro c member
  rcases base64Text_chars input c member with char | rfl
  · exact chars c (List.mem_cons_of_mem _ char)
  · exact chars _ List.mem_cons_self

theorem hashedIdText_visible (localHashedId : Vector UInt8 20) : Visible (hashedIdText localHashedId) := by
  rw [hashedIdText]
  split
  · exact List.forall_mem_nil _
  · exact base64Text_visible _

theorem escape_quoted {s : Bytes} (quotable : Quotable s) : Json.escape (Json.quoted s) = 0x5c :: 0x22 :: (s ++ [0x5c, 0x22]) := by
  rw [Json.quoted, Json.escape_append, Json.escape_cons, Json.escape_plain quotable]
  rfl

theorem escape_memberText {key : Bytes} (quotable : Quotable key) (t : Bytes) :
    Json.escape (Json.memberText (key, t)) = 0x5c :: 0x22 :: (key ++ 0x5c :: 0x22 :: 0x3a :: Json.escape t) := by
  rw [Json.memberText, Json.escape_append, escape_quoted quotable, Json.escape_cons]
  simp

theorem candidateTextOf_eq {c : Candidate} (addr : Quotable (cStr c.addr.toList)) (addrMapped : Quotable (cStr c.addrMapped.toList)) :
    candidateTextOf c = Json.escape (Json.objectText (candidateMembers c)) := by
  have int (n : Int) := Json.escape_plain (quotable_intText n)
  simp only [Json.objectText, candidateMembers, List.map_cons, List.map_nil, Json.listText, Json.escape_cons, Json.escape_append,
    escape_memberText (quotable_name "type" (by decide)), escape_memberText (quotable_name "addr" (by decide)),
    escape_memberText (quotable_name "mappedAddr" (by decide)), escape_memberText (quotable_name "port" (by decide)),
    escape_memberText (quotable_name "mappedPort" (by decide)), escape_quoted (typeName_visible _).quotable, escape_quoted addr,
    escape_quoted addrMapped, int]
  simp only [candidateTextOf, sessionConnrequestCandidateFmt, sprintf]
  simp only [List.append_assoc, List.cons_append, List.nil_append]
  rfl

theorem localpeeraddrText_eq (accountId : UInt64) :
    localpeeraddrText accountId = Json.escape (Json.objectText (peerMembers accountId)) := by
  simp only [Json.objectText, peerMembers, List.map_cons, List.map_nil, Json.listText, Json.escape_cons, Json.escape_append,
    escape_memberText (quotable_name "accountId" (by decide)), escape_memberText (quotable_name "platform" (by decide)),
    escape_quoted (quotable_name "REMOTE_PLAY" (by decide)), escape_quoted (quotable_intText _)]
  simp only [localpeeraddrText, sessionLocalpeeraddrFmt, sprintf]
  simp only [List.append_assoc, List.cons_append, List.nil_append]
  rfl

theorem connTextOf_eq (accountId : UInt64) (req : ConnectionRequest) (candidates : Bytes) : connTextOf accountId req candidates =
    Json.escape (Json.openObject (requestMembers req) (text "candidate")) ++ candidates ++
      Json.escape (Json.closeObject (requestMembersBehind accountId req)) := by
  have int (n : Int) := Json.escape_plain (quotable_intText n)
  have peer := localpeeraddrText_eq accountId
  simp only [Json.openObject, Json.closeObject, Json.listFront, Json.listBack, requestMembers, requestMembersBehind, List.map_cons,
    List.map_nil, List.flatMap_cons, List.flatMap_nil, Json.escape_cons, Json.escape_append,
    escape_memberText (quotable_name "sid" (by decide)), escape_memberText (quotable_name "peerSid" (by decide)),
    escape_memberText (quotable_name "skey" (by decide)), escape_memberText (quotable_name "natType" (by decide)),
    escape_quoted (quotable_name "candidate" (by decide)), escape_memberText (quotable_name "defaultRouteMacAddr" (by decide)),
    escape_memberText (quotable_name "localPeerAddr" (by decide)), escape_memberText (quotable_name "localHashedId" (by decide)),
    escape_quoted (base64Text_visible _).quotable, escape_quoted (hashedIdText_visible _).quotable,
    escape_quoted (show Quotable [] from List.forall_mem_nil _), int, ← peer]
  simp only [connTextOf, sessionConnrequestFmt, sprintf]
  generalize localpeeraddrText accountId = peer
  generalize hashedIdText req.localHashedId = hashedId
  generalize base64Text req.skey.toList = skey
  simp only [List.append_assoc, List.cons_append, List.nil_append]
  rfl

theorem messageTextOf_eq (accountId : UInt64) (msg : FullSessionMessage) (req : ConnectionRequest) (candidates : Bytes) :
    messageTextOf accountId msg req candidates =
      Json.escape (openMessage msg req) ++ candidates ++ Json.escape (closeMessage accountId req) := by
  have int (n : Int) := Json.escape_plain (quotable_intText n)
  have conn := connTextOf_eq accountId req candidates
  rw [openMessage, closeMessage, Json.escape_append, Json.escape_append]
  generalize Json.escape (Json.openObject (requestMembers req) (text "candidate")) = front at conn ⊢
  generalize Json.escape (Json.closeObject (requestMembersBehind accountId req)) = back at conn ⊢
  simp only [Json.openObject, Json.closeObject, Json.listFront, Json.listBack, messageMembers, List.map_cons, List.map_nil,
    List.flatMap_cons, List.flatMap_nil, Json.escape_cons, Json.escape_append, escape_memberText (quotable_name "action" (by decide)),
    escape_memberText (quotable_name "reqId" (by decide)), escape_memberText (quotable_name "error" (by decide)),
    escape_quoted (quotable_name "connRequest" (by decide)), escape_quoted (actionName_visible _).quotable, int]
  simp only [messageTextOf, sessionMessageFmt, sprintf, conn]
  simp only [List.append_assoc, List.cons_append, List.nil_append]
  rfl

/-- The addresses stand in a JSON string as they are. -/
def Candidate.Quotable (c : Candidate) : Prop :=
  Holepunch.Quotable (cStr c.addr.toList) ∧ Holepunch.Quotable (cStr c.addrMapped.toList)

def candidateJson (c : Candidate) : Bytes := Json.objectText (candidateMembers c)

theorem candidatesTextOf_eq {cs : List Candidate} (quotable : ∀ c ∈ cs, c.Quotable) :
    candidatesTextOf cs = Json.escape (Json.arrayText (cs.map candidateJson)) := by
  have behind : commaJoined (cs.map candidateTextOf) ++ [0x5d] = Json.escape (Json.listText 0x5d (cs.map candidateJson)) := by
    induction cs with
    | nil => rfl
    | cons c cs ih =>
        obtain ⟨⟨addr, addrMapped⟩, later⟩ := List.forall_mem_cons.mp quotable
        have first : candidateTextOf c = Json.escape (candidateJson c) := candidateTextOf_eq addr addrMapped
        cases cs with
        | nil =>
            rw [List.map_singleton, List.map_singleton, Json.listText, Json.escape_append, ← first]
            rfl
        | cons d cs =>
            have listed : Json.listText 0x5d ((c :: d :: cs).map candidateJson) =
                candidateJson c ++ 0x2c :: Json.listText 0x5d ((d :: cs).map candidateJson) := rfl
            rw [joined_cons_cons, List.append_assoc, List.cons_append, ih later, listed, Json.escape_append, Json.escape_cons, ← first]
            rfl
  rw [Json.arrayText, Json.escape_cons, ← behind, candidatesTextOf]
  rfl

/-! ## Values -/

def candidateValues (c : Candidate) : List (Bytes × Json.Value) := [
  (text "type", .string c.type.name), (text "addr", .string (cStr c.addr.toList)),
  (text "mappedAddr", .string (cStr c.addrMapped.toList)), (text "port", .int c.port.toNat),
  (text "mappedPort", .int c.portMapped.toNat)]

def candidateValue (c : Candidate) : Json.Value := .object (candidateValues c)

def requestValues (accountId : UInt64) (req : ConnectionRequest) : List (Bytes × Json.Value) := [
  (text "sid", .int req.sid.toInt32.toInt), (text "peerSid", .int req.peerSid.toInt32.toInt),
  (text "skey", .string (base64Text req.skey.toList)), (text "natType", .int req.natType.toNat),
  (text "candidate", .array (req.candidates.map candidateValue)),
  (text "defaultRouteMacAddr", .string []),
  (text "localPeerAddr", .object [
    (text "accountId", .string (Json.intText accountId.toInt64.toInt)), (text "platform", .string (text "REMOTE_PLAY"))]),
  (text "localHashedId", .string (hashedIdText req.localHashedId))]

def messageValues (accountId : UInt64) (msg : FullSessionMessage) (req : ConnectionRequest) : List (Bytes × Json.Value) := [
  (text "action", .string msg.action.name), (text "reqId", .int msg.reqId.toNat), (text "error", .int msg.error.toNat),
  (text "connRequest", .object (requestValues accountId req))]

def messageValue (accountId : UInt64) (msg : FullSessionMessage) (req : ConnectionRequest) : Json.Value :=
  .object (messageValues accountId msg req)

/-- Without control characters. -/
def Printable (s : Bytes) : Prop := ∀ c ∈ s, Json.isControl c = false

def Candidate.Printable (c : Candidate) : Prop :=
  Holepunch.Printable (cStr c.addr.toList) ∧ Holepunch.Printable (cStr c.addrMapped.toList)

section Reads
variable {strict : Bool}

theorem Visible.plain {s : Bytes} (visible : Visible s) : Json.PlainString strict s := by
  intro c member
  obtain ⟨notQuote, notEscape, notControl⟩ := visible c member
  exact ⟨notQuote, notEscape, fun _ => notControl⟩

theorem intText_visible (n : Int) : Visible (Json.intText n) := by
  intro c member
  obtain ⟨notQuote, notEscape⟩ := quotable_intText n c member
  exact ⟨notQuote, notEscape, Json.not_control_of_numberChar (Json.intText_chars n c member)⟩

theorem plain_address {s : Bytes} (quotable : Quotable s) (printable : strict = true → Printable s) : Json.PlainString strict s := by
  intro c member
  obtain ⟨notQuote, notEscape⟩ := quotable c member
  exact ⟨notQuote, notEscape, fun isStrict => printable isStrict c member⟩

theorem plain_name (s : String) (member : s ∈ memberNames) : Json.PlainString strict (text s) := (memberNames_visible s member).plain

theorem candidateMembers_read {c : Candidate} (quotable : c.Quotable) (printable : strict = true → c.Printable) :
    List.Forall₂ (Json.ReadsMember strict) (candidateMembers c) (candidateValues c) := by
  have addr := plain_address quotable.1 fun isStrict => (printable isStrict).1
  have addrMapped := plain_address quotable.2 fun isStrict => (printable isStrict).2
  exact .cons ⟨rfl, plain_name "type" (by decide), Json.reads_string (typeName_visible _).plain⟩
    (.cons ⟨rfl, plain_name "addr" (by decide), Json.reads_string addr⟩
    (.cons ⟨rfl, plain_name "mappedAddr" (by decide), Json.reads_string addrMapped⟩
    (.cons ⟨rfl, plain_name "port" (by decide), Json.reads_int strict c.port.toNat⟩
    (.cons ⟨rfl, plain_name "mappedPort" (by decide), Json.reads_int strict c.portMapped.toNat⟩ .nil))))

theorem candidate_reads {c : Candidate} (quotable : c.Quotable) (printable : strict = true → c.Printable) :
    Json.Reads strict (candidateJson c) (candidateValue c) := by
  apply Json.reads_object (candidateMembers_read quotable printable) (List.cons_ne_nil _ _)
  exact @names_nodup ["type", "addr", "mappedAddr", "port", "mappedPort"] (by decide)

theorem requestMembers_read (accountId : UInt64) (req : ConnectionRequest) :
    List.Forall₂ (Json.ReadsMember strict) (requestMembers req) ((requestValues accountId req).take 4) :=
  .cons ⟨rfl, plain_name "sid" (by decide), Json.reads_int strict req.sid.toInt32.toInt⟩
    (.cons ⟨rfl, plain_name "peerSid" (by decide), Json.reads_int strict req.peerSid.toInt32.toInt⟩
    (.cons ⟨rfl, plain_name "skey" (by decide), Json.reads_string (base64Text_visible _).plain⟩
    (.cons ⟨rfl, plain_name "natType" (by decide), Json.reads_int strict req.natType.toNat⟩ .nil)))

theorem requestMembersBehind_read (accountId : UInt64) (req : ConnectionRequest) :
    List.Forall₂ (Json.ReadsMember strict) (requestMembersBehind accountId req) ((requestValues accountId req).drop 5) := by
  have peer : Json.Reads strict (Json.objectText (peerMembers accountId)) (.object [
      (text "accountId", .string (Json.intText accountId.toInt64.toInt)), (text "platform", .string (text "REMOTE_PLAY"))]) := by
    apply Json.reads_object
    · exact .cons ⟨rfl, plain_name "accountId" (by decide), Json.reads_string (intText_visible _).plain⟩
        (.cons ⟨rfl, plain_name "platform" (by decide), Json.reads_string (plain_name "REMOTE_PLAY" (by decide))⟩ .nil)
    · exact List.cons_ne_nil _ _
    · exact @names_nodup ["accountId", "platform"] (by decide)
  exact .cons ⟨rfl, plain_name "defaultRouteMacAddr" (by decide), Json.reads_string nofun⟩
    (.cons ⟨rfl, plain_name "localPeerAddr" (by decide), peer⟩
    (.cons ⟨rfl, plain_name "localHashedId" (by decide), Json.reads_string (hashedIdText_visible _).plain⟩ .nil))

theorem messageMembers_read (accountId : UInt64) (msg : FullSessionMessage) (req : ConnectionRequest) :
    List.Forall₂ (Json.ReadsMember strict) (messageMembers msg) ((messageValues accountId msg req).take 3) := by
  exact .cons ⟨rfl, plain_name "action" (by decide), Json.reads_string (actionName_visible _).plain⟩
    (.cons ⟨rfl, plain_name "reqId" (by decide), Json.reads_int strict msg.reqId.toNat⟩
    (.cons ⟨rfl, plain_name "error" (by decide), Json.reads_int strict msg.error.toNat⟩ .nil))

theorem message_reads {accountId : UInt64} {msg : FullSessionMessage} {req : ConnectionRequest}
    (quotable : ∀ c ∈ req.candidates, c.Quotable) (printable : strict = true → ∀ c ∈ req.candidates, c.Printable) :
    Json.Reads strict (openMessage msg req ++ Json.arrayText (req.candidates.map candidateJson) ++ closeMessage accountId req)
      (messageValue accountId msg req) := by
  have candidates : Json.Reads strict (Json.arrayText (req.candidates.map candidateJson)) (.array (req.candidates.map candidateValue)) := by
    apply Json.reads_array
    rw [List.forall₂_map_left_iff, List.forall₂_map_right_iff, List.forall₂_same]
    exact fun c member => candidate_reads (quotable c member) fun isStrict => printable isStrict c member
  have request : Json.Reads strict (Json.objectText (requestMembers req ++
      (text "candidate", Json.arrayText (req.candidates.map candidateJson)) :: requestMembersBehind accountId req))
      (.object (requestValues accountId req)) := by
    apply Json.reads_object
    · exact List.rel_append (requestMembers_read accountId req)
        (.cons ⟨rfl, plain_name "candidate" (by decide), candidates⟩ (requestMembersBehind_read accountId req))
    · exact List.cons_ne_nil _ _
    · exact @names_nodup ["sid", "peerSid", "skey", "natType", "candidate", "defaultRouteMacAddr", "localPeerAddr", "localHashedId"]
        (by decide)
  have message : Json.Reads strict (Json.objectText (messageMembers msg ++ [(text "connRequest", Json.objectText (requestMembers req ++
      (text "candidate", Json.arrayText (req.candidates.map candidateJson)) :: requestMembersBehind accountId req))]))
      (messageValue accountId msg req) := by
    apply Json.reads_object
    · exact List.rel_append (messageMembers_read accountId msg req)
        (.cons ⟨rfl, plain_name "connRequest" (by decide), request⟩ .nil)
    · exact List.cons_ne_nil _ _
    · exact @names_nodup ["action", "reqId", "error", "connRequest"] (by decide)
  rw [Json.objectText_parts, Json.objectText_parts] at message
  rw [openMessage, closeMessage]
  simpa only [List.append_assoc] using message

end Reads

end Chiaki.Holepunch
