import Chiaki.Holepunch.ConnectionRequest
import Chiaki.Printf

/-!
# Finding a candidate that answers

`check_candidates`, up to the end of its loop. What the system does is input: which calls succeed, which sockets
`select` finds readable, and what is received. Arrays that are not initialised have any contents.
-/

namespace Chiaki.Holepunch

/-- `chiaki_socket_t`. -/
abbrev Socket := Int

def invalidSocket : Socket := -1

def Socket.isInvalid (sock : Socket) : Bool := sock < 0

inductive AddressFamily where
  | inet
  | inet6
  | other
  deriving DecidableEq

/-- `struct sockaddr`. -/
structure SockAddr where
  family : AddressFamily
  data : Bytes
  deriving DecidableEq

/-- What `recvfrom` gives, and what `inet_ntop` and `ntohs` make of the sender. -/
structure Datagram where
  sender : SockAddr
  senderLen : Nat
  address : Option (Vector UInt8 inet6Addrstrlen)
  port : UInt16
  bytes : Bytes

/-- `request_id` and `request_buf`. -/
structure Requests where
  ids : List (Vector UInt8 5)
  bufs : List (Vector UInt8 88)
  ids_three : ids.length = 3
  bufs_three : bufs.length = 3

structure CheckArgs where
  requests : Requests
  stunRandomAllocation : Bool
  ipv4Sock : Socket
  ipv6Sock : Socket
  candidatesReceived : List Candidate

structure Check where
  ipv4Sock : Socket
  ipv6Sock : Socket
  socks : List Socket
  candidates : List Candidate
  addrs : List SockAddr
  lens : List Nat
  responsesReceived : List Nat
  extraAddressesUsed : Nat
  fds : List Socket
  maxfd : Int
  selectedSock : Socket
  selectedCandidate : Option Nat
  receivedResponse : Bool
  responded : Bool
  connecting : Bool
  retryCounter : Nat
  err : ErrorCode
  /-- What has been received. The program does not keep it. -/
  log : List Datagram

def randomAllocationSocksNumber : Nat := 900
def extraCandidateAddresses : Nat := 3
def selectCandidateTries : Nat := 20
def msgTypeReq : Bytes := [0x06, 0, 0, 0]
def msgTypeResp : Bytes := [0x07, 0, 0, 0]

/-- `FD_SET`. -/
def fdSet (sock : Socket) (fds : List Socket) : List Socket := if sock ∈ fds then fds else fds ++ [sock]

/-- `FD_SET` where the socket is valid. -/
def fdSetValid (sock : Socket) (fds : List Socket) : List Socket := if sock.isInvalid then fds else fdSet sock fds

/-- Where the function goes. -/
inductive Next where
  | loop (s : Check)
  /-- `goto cleanup_sockets`. -/
  | cleanup (s : Check)
  /-- Behind the loop. -/
  | done (s : Check)

def Next.state : Next → Check
  | .loop s => s
  | .cleanup s => s
  | .done s => s

/-! ## Before the loop -/

/-- How the calls for an extra socket end. -/
structure ExtraSetup where
  socket : Socket
  reuse : Bool
  ttl : Bool
  nonblock : Bool

/-- Close a socket if it is valid. -/
def closeValid (sock : Socket) : Socket := if !sock.isInvalid then invalidSocket else sock

def extraSocket (setup : ExtraSetup) : Socket :=
  -- the socket is closed where it is valid
  if !setup.socket.isInvalid then invalidSocket
  else if !setup.reuse then
    if setup.socket.isInvalid then invalidSocket else setup.socket
  else if !setup.ttl then closeValid setup.socket
  else if !setup.nonblock then closeValid setup.socket
  else setup.socket

/-- How `getaddrinfo` and the first requests to a candidate end. -/
structure CandidateSetup where
  resolved : Option (SockAddr × Nat)
  sent : Bool
  extraSent : Nat → Bool

structure CheckSetup where
  extra : Nat → ExtraSetup
  /-- The contents of the arrays where nothing was written. -/
  uninitCandidates : Vector Candidate 3
  uninitSocks : Vector Socket randomAllocationSocksNumber
  uninitAddr : Nat → SockAddr
  uninitLen : Nat → Nat
  uninitResponses : Nat → Nat
  candidate : Nat → CandidateSetup

/-- The state before the first loop over the candidates. -/
def initCheck (args : CheckArgs) (setup : CheckSetup) : Check where
  ipv4Sock := args.ipv4Sock
  ipv6Sock := args.ipv6Sock
  socks :=
    if args.stunRandomAllocation then (List.range randomAllocationSocksNumber).map fun i => extraSocket (setup.extra i)
    else setup.uninitSocks.toList
  candidates := args.candidatesReceived ++ setup.uninitCandidates.toList
  addrs := (List.range (args.candidatesReceived.length + extraCandidateAddresses)).map setup.uninitAddr
  lens := (List.range (args.candidatesReceived.length + extraCandidateAddresses)).map setup.uninitLen
  responsesReceived := (List.range (args.candidatesReceived.length + extraCandidateAddresses)).map setup.uninitResponses
  extraAddressesUsed := 0
  fds := fdSetValid args.ipv6Sock (fdSetValid args.ipv4Sock [])
  maxfd := -1
  selectedSock := invalidSocket
  selectedCandidate := none
  receivedResponse := false
  responded := false
  connecting := false
  retryCounter := 0
  err := .success
  log := []

/-- `array[i] = a`. -/
def setAt {α : Type} (array : List α) (i : Nat) (a : α) : Checked (List α) :=
  if i < array.length then .ok (array.set i a) else .error .outOfBounds

section Functions
variable (args : CheckArgs)

/-- Whether a candidate gets requests from the extra sockets. -/
def throughExtra (candidate : Candidate) : Bool :=
  args.stunRandomAllocation && (candidate.type = .static || candidate.type = .stun)

/-- The first request to a candidate through the extra sockets. One that does not take it is closed. -/
def sendExtra (sent : Nat → Bool) (socks : List Socket) : List Socket :=
  socks.zipIdx.map fun (sock, j) => if !sock.isInvalid && !sent j then invalidSocket else sock

/-- A round of the first loop over the candidates, with `failed`. -/
def setupCandidate (setup : CheckSetup) (before : Check × Bool) (i : Nat) : Checked (Check × Bool) := do
  let (s, failed) := before
  let candidate ← inBounds s.candidates[i]?
  let responsesReceived ← setAt s.responsesReceived i 0
  let s := { s with responsesReceived }
  match (setup.candidate i).resolved with
  | none => pure ({ s with err := .unknown }, failed)
  | some (addr, len) =>
      let addrs ← setAt s.addrs i addr
      let lens ← setAt s.lens i len
      let _ ← inBounds args.requests.bufs[0]?
      let s := { s with addrs, lens }
      match addr.family with
      | .inet =>
          if !s.ipv4Sock.isInvalid && !(setup.candidate i).sent then pure ({ s with err := .network }, failed)
          else if throughExtra args candidate then
            pure ({ s with socks := sendExtra (setup.candidate i).extraSent s.socks }, false)
          else pure (s, false)
      | .inet6 =>
          if !s.ipv6Sock.isInvalid && !(setup.candidate i).sent then pure ({ s with err := .network }, failed)
          else pure (s, false)
      | .other => pure (s, false)

/-- `maxfd`, and the extra sockets in the set. -/
def prepareSelect (s : Check) : Check :=
  let maxfd := if !s.ipv4Sock.isInvalid then s.ipv4Sock else -1
  let maxfd := if s.ipv6Sock > maxfd then s.ipv6Sock else maxfd
  if args.stunRandomAllocation then
    { s with
      maxfd := s.socks.foldl max maxfd + 1
      fds := s.socks.foldl (fun fds sock => fdSet sock fds) s.fds }
  else { s with maxfd := maxfd + 1 }

def startChecks (setup : CheckSetup) : Checked Next := do
  let (s, failed) ←
    (List.range args.candidatesReceived.length).foldlM (setupCandidate args setup) (initCheck args setup, true)
  if failed then pure (.cleanup { s with err := .network })
  else pure (.loop (prepareSelect args s))

/-! ## The loop -/

/-- How `select` returns: with an error, with `EINTR`, or with the sockets that are readable. -/
inductive SelectResult where
  | failed
  | interrupted
  | ready (isReady : Socket → Bool)

/-- What happens in a round. -/
structure Turn where
  select : SelectResult
  /-- Which requests are resent. -/
  resent : Nat → Bool
  ttl : Bool
  allocated : Bool
  received : Option Datagram
  /-- What becomes of a response, of a request and of `connect`. -/
  answered : Bool
  requested : Bool
  connected : Bool

/-- What `select` looks at. -/
def watched (s : Check) : List Socket := s.fds.filter (· < s.maxfd)

/-- A round of the loop that sends the first request again, with the set. -/
def resend (turn : Turn) (s : Check) (fds : List Socket) (i : Nat) : Checked (List Socket) := do
  let addr ← inBounds s.addrs[i]?
  match addr.family with
  | .other => pure fds
  | family =>
      let sock := if family = .inet then s.ipv4Sock else s.ipv6Sock
      if sock.isInvalid then pure fds
      else
        let candidate ← inBounds s.candidates[i]?
        let _ ← inBounds s.lens[i]?
        let _ ← inBounds args.requests.bufs[0]?
        if !turn.resent i then pure fds
        else if throughExtra args candidate then pure (s.socks.foldl (fun fds sock => fdSetValid sock fds) fds)
        else pure fds

/-- Nothing is readable. -/
def selectTimeout (turn : Turn) (s : Check) : Checked Next :=
  if s.selectedSock.isInvalid then
    if s.retryCounter < selectCandidateTries ∧ !s.receivedResponse then do
      let s := { s with retryCounter := s.retryCounter + 1 }
      let fds := fdSetValid s.ipv6Sock (fdSetValid s.ipv4Sock [])
      let fds ← (List.range (args.candidatesReceived.length + s.extraAddressesUsed)).foldlM (resend args turn s) fds
      pure (.loop { s with fds })
    else if s.receivedResponse ∧ !s.connecting then pure (.loop { s with connecting := true })
    else pure (.cleanup { s with err := .hostUnreach })
  else pure (.done s)

/-- `candidate_sock`, unless `select` has returned an invalid socket. -/
def candidateSock (s : Check) : Option Socket :=
  if !s.ipv4Sock.isInvalid ∧ s.ipv4Sock ∈ s.fds then some s.ipv4Sock
  else if !s.ipv6Sock.isInvalid ∧ s.ipv6Sock ∈ s.fds then some s.ipv6Sock
  else none

/-- An extra socket that is readable is closed if its time to live cannot be set. -/
def invalidSelect (turn : Turn) (s : Check) : Check :=
  match s.socks.findIdx? fun sock => !sock.isInvalid && s.fds.contains sock with
  | some j => { s with socks := if turn.ttl then s.socks else s.socks.set j invalidSocket, err := .unknown }
  | none => { s with err := .unknown }

def sameSender (address : Vector UInt8 inet6Addrstrlen) (port : UInt16) (candidate : Candidate) : Bool :=
  cStr candidate.addr.toList = cStr address.toList && candidate.port = port

/-- The loop over the candidates, from `i` on, with the number that is left. -/
def searchCandidate (same : Candidate → Bool) (candidates : List Candidate) : (left i : Nat) → Checked (Option Nat)
  | 0, _ => pure none
  | left + 1, i => do
      let candidate ← inBounds candidates[i]?
      if same candidate then pure (some i) else searchCandidate same candidates left (i + 1)

/-- Add the sender of a datagram to the candidates, at `i`. -/
def addCandidate (s : Check) (i : Nat) (datagram : Datagram) (address : Vector UInt8 inet6Addrstrlen) :
    Checked Check := do
  let candidate ← inBounds s.candidates[i]?
  let responsesReceived ← setAt s.responsesReceived i 0
  let candidates ← setAt s.candidates i {
    type := .derived
    addr := address
    addrMapped := memcpy candidate.addrMapped
      (text (if datagram.sender.family = .inet then "0.0.0.0" else "0:0:0:0:0:0:0:0") ++ [0])
    port := datagram.port
    portMapped := 0 }
  let addrs ← setAt s.addrs i datagram.sender
  let lens ← setAt s.lens i datagram.senderLen
  pure { s with responsesReceived, candidates, addrs, lens, extraAddressesUsed := s.extraAddressesUsed + 1 }

/-- A datagram from candidate `i`. -/
def handleDatagram (turn : Turn) (s : Check) (sock : Socket) (i : Nat) (bytes : Bytes) : Checked Next := do
  let candidate ← inBounds s.candidates[i]?
  let responseBuf := bytes.take 88
  if responseBuf.length ≠ 88 then
    if candidate.type = .derived then pure (.loop s)
    else pure (.cleanup { s with err := .network })
  else if responseBuf.take 4 = msgTypeReq then do
    let _ ← inBounds s.addrs[i]?
    let _ ← inBounds s.lens[i]?
    let s := { s with responded := true, err := if turn.answered then .success else .network }
    if s.err ≠ .success ∧ candidate.type ≠ .derived then pure (.cleanup s)
    else
      let responses ← inBounds s.responsesReceived[i]?
      if (args.stunRandomAllocation ∨ candidate.type = .derived) ∧ responses = 0 then do
        let _ ← inBounds args.requests.bufs[0]?
        if !turn.requested then pure (.cleanup s) else pure (.loop s)
      else pure (.loop s)
  else if responseBuf.take 4 ≠ msgTypeResp then
    let s := { s with err := .unknown }
    if candidate.type = .derived then pure (.loop s) else pure (.cleanup s)
  else do
    let responses ← inBounds s.responsesReceived[i]?
    let requestId ← inBounds args.requests.ids[responses]?
    if (responseBuf.drop 0x4b).take 5 ≠ requestId.toList then pure (.loop s)
    else
      let responsesReceived ← setAt s.responsesReceived i (responses + 1)
      let s := { s with receivedResponse := true, responsesReceived }
      let _ ← inBounds s.addrs[i]?
      let _ ← inBounds s.lens[i]?
      if responses + 1 > 2 then
        let s := { s with selectedSock := sock, selectedCandidate := some i }
        if !turn.connected then pure (.cleanup { s with err := .network }) else pure (.done s)
      else do
        let _ ← inBounds args.requests.bufs[responses + 1]?
        if !turn.requested then pure (.loop { s with err := .network }) else pure (.loop s)

/-- Find the candidate that a datagram is from. -/
def identifySender (turn : Turn) (s : Check) (sock : Socket) (datagram : Datagram)
    (address : Vector UInt8 inet6Addrstrlen) : Checked Next := do
  let known := args.candidatesReceived.length + s.extraAddressesUsed
  match ← searchCandidate (sameSender address datagram.port) s.candidates known 0 with
  | some i => handleDatagram args turn s sock i datagram.bytes
  | none =>
      if s.extraAddressesUsed ≥ extraCandidateAddresses then pure (.loop s)
      else do
        let s ← addCandidate s known datagram address
        handleDatagram args turn s sock known datagram.bytes

/-- A socket is readable, or `select` was interrupted. -/
def receiveResponse (turn : Turn) (s : Check) : Checked Next :=
  match candidateSock s with
  | none => pure (.cleanup (invalidSelect turn s))
  | some sock =>
      if !turn.allocated then pure (.cleanup { s with err := .memory })
      else
        match turn.received with
        | none => pure (.loop s)
        | some datagram =>
            let s := { s with log := s.log ++ [datagram] }
            match datagram.sender.family, datagram.address with
            | .other, _ => pure (.loop s)
            | _, none => pure (.loop s)
            | _, some address => identifySender args turn s sock datagram address

/-- A round of the loop. `select` leaves the readable sockets in the set. -/
def takeTurn (s : Check) (turn : Turn) : Checked Next :=
  match turn.select with
  | .failed => pure (.cleanup { s with err := .network })
  | .interrupted => receiveResponse args turn s
  | .ready isReady =>
      let s := { s with fds := (watched s).filter isReady }
      if s.fds = [] then selectTimeout args turn s else receiveResponse args turn s

/-- The rounds of the loop, as long as it goes on. -/
def takeTurns : Check → List Turn → Checked Next
  | s, [] => pure (.loop s)
  | s, turn :: turns => do
      match ← takeTurn args s turn with
      | .loop s => takeTurns s turns
      | next => pure next

/-- `check_candidates`, up to the end of its loop. -/
def checkCandidates (setup : CheckSetup) (turns : List Turn) : Checked Next := do
  match ← startChecks args setup with
  | .loop s => takeTurns args s turns
  | next => pure next

end Functions

end Chiaki.Holepunch
