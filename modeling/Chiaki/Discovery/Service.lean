import Chiaki.Common
import Chiaki.Lib.Machine
import Chiaki.Lib.Memory

/-!
# The discovery service

`discoveryservice.c`: two arrays that belong together, one of the hosts that answered and one of when they did.
Every string of a host in the array is an allocation of its own.
-/

namespace Chiaki.Discovery

inductive HostState where
  | unknown
  | ready
  | standby
  deriving DecidableEq

/-- `CHIAKI_DISCOVERY_HOST_STRING_FOREACH`. -/
inductive HostString where
  | hostAddr
  | systemVersion
  | deviceDiscoveryProtocolVersion
  | hostName
  | hostType
  | hostId
  | runningAppTitleid
  | runningAppName
  deriving DecidableEq

def HostString.all : List HostString :=
  [.hostAddr, .systemVersion, .deviceDiscoveryProtocolVersion, .hostName, .hostType, .hostId, .runningAppTitleid,
    .runningAppName]

theorem HostString.nodup_all : HostString.all.Nodup := by decide

@[simp] theorem HostString.mem_all (name : HostString) : name ∈ HostString.all := by cases name <;> decide

instance : Fintype HostString := ⟨⟨HostString.all, HostString.nodup_all⟩, HostString.mem_all⟩

/-- A host with its strings in some form `α`, `none` where the pointer is `NULL`. -/
structure Host (α : Type) where
  state : HostState
  hostRequestPort : UInt16
  strings : HostString → Option α
  deriving DecidableEq

/-- An allocated string. -/
structure Str where
  id : Nat
  chars : Bytes
  deriving DecidableEq

structure Heap where
  live : List Nat
  next : Nat
  deriving DecidableEq

def Heap.free (heap : Heap) : Option Str → Checked Heap
  | none => .ok heap
  | some str => if str.id ∈ heap.live then .ok { heap with live := heap.live.erase str.id } else .error .outOfBounds

/-- `ok` is whether there is memory for it. -/
def Heap.strdup (heap : Heap) (chars : Bytes) (ok : Bool) : Option Str × Heap :=
  if ok then (some ⟨heap.next, chars⟩, ⟨heap.live ++ [heap.next], heap.next + 1⟩) else (none, heap)

/-- Free every string of a host. -/
def freeStrings (strings : HostString → Option Str) (names : List HostString) (heap : Heap) : Checked Heap :=
  names.foldlM (fun heap name => heap.free (strings name)) heap

structure Options where
  hostsMax : Nat
  hostDropPings : Nat
  deriving DecidableEq

structure Service where
  options : Options
  pingIndex : Nat
  hosts : List (Host Str)
  /-- `last_ping_index` of each `ChiakiDiscoveryServiceHostDiscoveryInfo`. -/
  hostDiscoveryInfos : List Nat
  hostsCount : Nat
  heap : Heap
  deriving DecidableEq

def Host.visible (host : Host Str) : Host Bytes :=
  ⟨host.state, host.hostRequestPort, fun name => (host.strings name).map Str.chars⟩

def zeroHost {α : Type} : Host α := ⟨.unknown, 0, fun _ => none⟩

namespace Service

def init (options : Options) : Service where
  options := options
  pingIndex := 0
  hosts := List.replicate options.hostsMax zeroHost
  hostDiscoveryInfos := List.replicate options.hostsMax 0
  hostsCount := 0
  heap := ⟨[], 0⟩

/-- What the callback is given. -/
def reportState (s : Service) : List (Host Bytes) := (s.hosts.take s.hostsCount).map Host.visible

/-- The loop of `discovery_service_drop_old_hosts` with `left` turns to go: `hosts_count - i`. -/
def dropFrom : (left i : Nat) → Service → (change : Bool) → Checked (Service × Bool)
  | 0, _, s, change => .ok (s, change)
  | left + 1, i, s, change => do
      let lastPingIndex ← inBounds s.hostDiscoveryInfos[i]?
      if (lastPingIndex + s.options.hostDropPings) % 2 ^ 64 ≥ s.pingIndex then dropFrom left (i + 1) s change
      else
        let host ← inBounds s.hosts[i]?
        let heap ← freeStrings host.strings HostString.all s.heap
        if i < s.hostsCount - 1 then
          let hostDiscoveryInfos ← inBounds (Memory.move s.hostDiscoveryInfos i (i + 1) (s.hostsCount - i - 1))
          let hosts ← inBounds (Memory.move s.hosts i (i + 1) (s.hostsCount - i - 1))
          let s := { s with hosts := hosts, hostDiscoveryInfos := hostDiscoveryInfos }
          dropFrom left i { s with hostsCount := s.hostsCount - 1, heap := heap } true
        else dropFrom left i { s with hostsCount := s.hostsCount - 1, heap := heap } true

/-- What `discovery_service_ping` does to the hosts. -/
def ping (s : Service) : Checked (Service × List (List (Host Bytes))) := do
  let s := { s with pingIndex := (s.pingIndex + 1) % 2 ^ 64 }
  let (s, change) ← dropFrom s.hostsCount 0 s false
  pure (s, if change then [s.reportState] else [])

/-- `UPDATE_STRING`, on the string in the slot. -/
def updateString (old : Option Str) (new : Option Bytes) (ok : Bool) (heap : Heap) :
    Checked (Option Str × Heap × Bool) :=
  if old.isSome && new.isSome && old.map Str.chars == new then .ok (old, heap, false)
  else if old.isNone && new.isNone then .ok (old, heap, false)
  else do
    let heap ← heap.free old
    match new with
    | some chars =>
        let (str, heap) := heap.strdup chars ok
        pure (str, heap, true)
    | none => pure (none, heap, true)

/-- `UPDATE_STRING` on one name after the other. -/
def updateStrings (new : HostString → Option Bytes) (copies : HostString → Bool) (names : List HostString)
    (strings : HostString → Option Str) (heap : Heap) (change : Bool) :
    Checked ((HostString → Option Str) × Heap × Bool) :=
  names.foldlM (fun (strings, heap, change) name => do
    let (str, heap, changed) ← updateString (strings name) (new name) (copies name) heap
    pure (Function.update strings name str, heap, change || changed)) (strings, heap, change)

/-- The index of the host with this id. -/
def findHost (s : Service) (hostId : Bytes) : Option Nat :=
  (s.hosts.take s.hostsCount).findIdx? fun host => (host.strings .hostId).map Str.chars == some hostId

/-- `discovery_service_host_received` behind the search; `copies` is which calls of `strdup` find memory. -/
def updateHost (s : Service) (index : Nat) (host : Host Bytes) (copies : HostString → Bool) (change : Bool) :
    Checked (Service × List (List (Host Bytes))) := do
  let _ ← inBounds s.hostDiscoveryInfos[index]?
  let hostSlot ← inBounds s.hosts[index]?
  let change := change || hostSlot.state != host.state || hostSlot.hostRequestPort != host.hostRequestPort
  let (strings, heap, change) ← updateStrings host.strings copies HostString.all hostSlot.strings s.heap change
  let s := { s with
    hostDiscoveryInfos := s.hostDiscoveryInfos.set index s.pingIndex
    hosts := s.hosts.set index ⟨host.state, host.hostRequestPort, strings⟩
    heap := heap }
  pure (s, if change then [s.reportState] else [])

def hostReceived (s : Service) (host : Host Bytes) (copies : HostString → Bool) :
    Checked (Service × List (List (Host Bytes))) :=
  match host.strings .hostId with
  | none => .ok (s, [])
  | some hostId =>
      match s.findHost hostId with
      | some index => s.updateHost index host copies false
      | none =>
          if s.hostsCount = s.options.hostsMax then .ok (s, [])
          else do
            let _ ← inBounds s.hosts[s.hostsCount]?
            let index := s.hostsCount
            let s := { s with hostsCount := s.hostsCount + 1, hosts := s.hosts.set index zeroHost }
            s.updateHost index host copies true

/-- What `chiaki_discovery_service_fini` does to the strings. -/
def fini (s : Service) : Checked Heap :=
  (s.hosts.take s.hostsCount).foldlM (fun heap host => freeStrings host.strings HostString.all heap) s.heap

inductive Input where
  | hostReceived (host : Host Bytes) (copies : HostString → Bool)
  | ping
  deriving DecidableEq

/-- One operation, under the mutex, with what the callback is given. -/
def step (s : Service) : Input → Checked (Service × List (List (Host Bytes)))
  | .hostReceived host copies => s.hostReceived host copies
  | .ping => s.ping

end Service

end Chiaki.Discovery
