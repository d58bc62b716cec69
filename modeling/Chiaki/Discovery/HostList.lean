import Chiaki.Discovery.Service

/-!
# The list of hosts

What the service is for: a list of at most `hostsMax` hosts, each with its latest answer and the ping before it.
-/

namespace Chiaki.Discovery

/-- A host with the number of pings that had passed at its latest answer. -/
structure Known where
  host : Host Bytes
  last : Nat
  deriving DecidableEq

structure HostList where
  known : List Known
  pings : Nat
  deriving DecidableEq

namespace HostList

def ids (l : HostList) : List (Option Bytes) := l.known.map fun k => k.host.strings .hostId

/-- An answer replaces what is known of this host, or is appended if there is room. -/
def heard (hostsMax : Nat) (l : HostList) (host : Host Bytes) : HostList :=
  match host.strings .hostId with
  | none => l
  | some hostId =>
      if some hostId ∈ l.ids then
        { l with known := l.known.map fun k => if k.host.strings .hostId = some hostId then ⟨host, l.pings⟩ else k }
      else if l.known.length = hostsMax then l
      else { l with known := l.known ++ [⟨host, l.pings⟩] }

/-- With a ping those hosts are gone whose answer is more than `hostDropPings` pings back. -/
def pinged (hostDropPings : Nat) (l : HostList) : HostList where
  known := l.known.filter fun k => l.pings + 1 ≤ k.last + hostDropPings
  pings := l.pings + 1

def visible (l : HostList) : List (Host Bytes) := l.known.map Known.host

def next (options : Options) (l : HostList) : Service.Input → HostList
  | .hostReceived host _ => l.heard options.hostsMax host
  | .ping => l.pinged options.hostDropPings

/-- The callback is told of every change of what can be seen, and of nothing else. -/
def step (options : Options) (l : HostList) (i : Service.Input) : HostList × List (List (Host Bytes)) :=
  (l.next options i, if (l.next options i).visible = l.visible then [] else [(l.next options i).visible])

structure Sound (hostsMax : Nat) (l : HostList) : Prop where
  distinct : l.ids.Nodup
  named : ∀ k ∈ l.known, (k.host.strings .hostId).isSome
  fits : l.known.length ≤ hostsMax

theorem Sound.nil (hostsMax : Nat) : Sound hostsMax ⟨[], 0⟩ := ⟨List.nodup_nil, by simp, Nat.zero_le _⟩

theorem ids_replaced (l : HostList) (host : Host Bytes) {hostId : Bytes} (named : host.strings .hostId = some hostId) :
    (l.known.map fun k => if k.host.strings .hostId = some hostId then (⟨host, l.pings⟩ : Known) else k).map
      (fun k => k.host.strings .hostId) = l.ids := by
  rw [ids, List.map_map]
  apply List.map_congr_left
  intro k _
  simp only [Function.comp_apply]
  split
  · rename_i same
    rw [named, same]
  · rfl

theorem Sound.heard {hostsMax : Nat} {l : HostList} (sound : Sound hostsMax l) (host : Host Bytes) :
    Sound hostsMax (l.heard hostsMax host) := by
  unfold HostList.heard
  split
  · exact sound
  · rename_i hostId named
    split
    · refine ⟨?_, fun k member => ?_, by simpa using sound.fits⟩
      · have same := ids_replaced l host named
        simp only [ids] at same ⊢
        rw [same]
        exact sound.distinct
      · obtain ⟨k', member', rfl⟩ := List.mem_map.mp member
        split
        · simp [named]
        · exact sound.named k' member'
    · rename_i new
      split
      · exact sound
      · rename_i room
        refine ⟨?_, fun k member => ?_, ?_⟩
        · simp only [ids, List.map_append, List.map_cons, List.map_nil, named]
          exact List.nodup_append.mpr ⟨sound.distinct, List.nodup_singleton _, fun a old b last same =>
            new ((List.mem_singleton.mp last ▸ same) ▸ old)⟩
        · rcases List.mem_append.mp member with old | last
          · exact sound.named k old
          · obtain rfl := List.mem_singleton.mp last
            simp [named]
        · have fits := sound.fits
          simp only [List.length_append, List.length_singleton]
          omega

theorem Sound.pinged {hostsMax : Nat} {l : HostList} (sound : Sound hostsMax l) (hostDropPings : Nat) :
    Sound hostsMax (l.pinged hostDropPings) :=
  ⟨sound.distinct.sublist (List.filter_sublist.map _), fun k member => sound.named k (List.mem_of_mem_filter member),
    (List.length_filter_le _ _).trans sound.fits⟩

theorem Sound.next {options : Options} {l : HostList} (sound : Sound options.hostsMax l) (i : Service.Input) :
    Sound options.hostsMax (l.next options i) := by
  cases i with
  | hostReceived host copies => exact sound.heard host
  | ping => exact sound.pinged options.hostDropPings

theorem Sound.step {options : Options} {l : HostList} (sound : Sound options.hostsMax l) (i : Service.Input) :
    Sound options.hostsMax (l.step options i).1 := sound.next i

/-- The one host of this id, if it is there at all. -/
def Only (l : HostList) (hostId : Bytes) (k : Known) (present : Prop) : Prop :=
  ∀ k', k' ∈ l.known ∧ k'.host.strings .hostId = some hostId ↔ k' = k ∧ present

theorem Only.congr {l : HostList} {hostId : Bytes} {k : Known} {present present' : Prop} (only : l.Only hostId k present)
    (same : present ↔ present') : l.Only hostId k present' := by
  intro k'
  rw [only k', same]

theorem heard_only {hostsMax : Nat} {l : HostList} {host : Host Bytes} {hostId : Bytes}
    (named : host.strings .hostId = some hostId) (room : some hostId ∈ l.ids ∨ l.known.length ≠ hostsMax) :
    (l.heard hostsMax host).Only hostId ⟨host, l.pings⟩ True := by
  intro k'
  simp only [heard, named, and_true]
  split
  · rename_i old
    constructor
    · rintro ⟨member, same⟩
      obtain ⟨k, -, rfl⟩ := List.mem_map.mp member
      split
      · rfl
      · rename_i other
        rw [if_neg other] at same
        exact absurd same other
    · rintro rfl
      obtain ⟨k, member, same⟩ := List.mem_map.mp old
      exact ⟨List.mem_map.mpr ⟨k, member, if_pos same⟩, named⟩
  · rename_i new
    rw [if_neg (room.resolve_left new)]
    constructor
    · rintro ⟨member, same⟩
      rcases List.mem_append.mp member with old | last
      · exact absurd (List.mem_map.mpr ⟨k', old, same⟩) new
      · exact List.mem_singleton.mp last
    · rintro rfl
      exact ⟨by simp, named⟩

theorem Only.heard_other {hostsMax : Nat} {l : HostList} {hostId : Bytes} {k : Known} {present : Prop}
    (only : l.Only hostId k present) {host : Host Bytes} (other : host.strings .hostId ≠ some hostId) :
    (l.heard hostsMax host).Only hostId k present := by
  intro k'
  rw [← only k']
  unfold heard
  cases named : host.strings .hostId with
  | none => rfl
  | some otherId =>
      have differ : some otherId ≠ some hostId := named ▸ other
      dsimp only
      split
      · apply and_congr_left
        intro same
        constructor
        · intro member
          obtain ⟨k'', member', rfl⟩ := List.mem_map.mp member
          split at same
          · exact absurd (named.symm.trans same) differ
          · rename_i hk
            rw [if_neg hk]
            exact member'
        · intro member
          exact List.mem_map.mpr ⟨k', member, if_neg fun h => differ (h.symm.trans same)⟩
      · split
        · rfl
        · apply and_congr_left
          intro same
          simp only [List.mem_append, List.mem_singleton, or_iff_left_iff_imp]
          rintro rfl
          exact absurd (named.symm.trans same) differ

theorem Only.pinged {hostDropPings : Nat} {l : HostList} {hostId : Bytes} {k : Known} {present : Prop}
    (only : l.Only hostId k present) :
    (l.pinged hostDropPings).Only hostId k (present ∧ l.pings + 1 ≤ k.last + hostDropPings) := by
  intro k'
  simp only [HostList.pinged, List.mem_filter, decide_eq_true_eq]
  rw [and_right_comm, only k', and_assoc]
  constructor
  · rintro ⟨rfl, here, inTime⟩
    exact ⟨rfl, here, inTime⟩
  · rintro ⟨rfl, here, inTime⟩
    exact ⟨rfl, here, inTime⟩

/-- An answer of the host with this id. -/
def answers (hostId : Bytes) : Service.Input → Bool
  | .hostReceived host _ => host.strings .hostId == some hostId
  | .ping => false

def isPing : Service.Input → Bool
  | .hostReceived _ _ => false
  | .ping => true

theorem heard_pings (hostsMax : Nat) (l : HostList) (host : Host Bytes) : (l.heard hostsMax host).pings = l.pings := by
  unfold heard
  split
  · rfl
  · split
    · rfl
    · split <;> rfl

/-- Until its next answer a host stays as it is, and it stays for `hostDropPings` pings. -/
theorem Only.run {options : Options} {l : HostList} {hostId : Bytes} {k : Known}
    (only : l.Only hostId k (l.pings ≤ k.last + options.hostDropPings)) {later : List Service.Input}
    (quiet : ∀ i ∈ later, answers hostId i = false) :
    (later.foldl (next options) l).Only hostId k (l.pings + later.countP isPing ≤ k.last + options.hostDropPings) := by
  induction later generalizing l with
  | nil => exact only
  | cons i later ih =>
      obtain ⟨now, rest⟩ := List.forall_mem_cons.mp quiet
      cases i with
      | hostReceived host copies =>
          have other : host.strings .hostId ≠ some hostId := by simpa [answers] using now
          have pings := heard_pings options.hostsMax l host
          rw [List.countP_cons_of_neg (by simp [isPing]), ← pings]
          exact ih (by rw [next, pings]; exact only.heard_other other) rest
      | ping =>
          rw [List.countP_cons_of_pos rfl, Nat.add_comm _ 1, ← Nat.add_assoc]
          exact ih (l := l.pinged options.hostDropPings) (only.pinged.congr (and_iff_right_of_imp Nat.le_of_succ_le)) rest

/-- The list after these operations. -/
def after (options : Options) (inputs : List Service.Input) : HostList := inputs.foldl (next options) ⟨[], 0⟩

/-- A host that finds room is in the list with this answer until its next one, or for `hostDropPings` pings. -/
theorem after_answer {options : Options} {before later : List Service.Input} {host : Host Bytes}
    {copies : HostString → Bool} {hostId : Bytes} (named : host.strings .hostId = some hostId)
    (room : some hostId ∈ (after options before).ids ∨ (after options before).known.length ≠ options.hostsMax)
    (quiet : ∀ i ∈ later, answers hostId i = false) :
    (after options (before ++ .hostReceived host copies :: later)).Only hostId ⟨host, (after options before).pings⟩
      (later.countP isPing ≤ options.hostDropPings) := by
  have pings := heard_pings options.hostsMax (after options before) host
  have split : after options (before ++ .hostReceived host copies :: later) =
      later.foldl (next options) ((after options before).heard options.hostsMax host) := by
    rw [after, List.foldl_append]
    rfl
  have heard : ((after options before).heard options.hostsMax host).Only hostId ⟨host, (after options before).pings⟩
      (((after options before).heard options.hostsMax host).pings ≤ (after options before).pings + options.hostDropPings) :=
    (heard_only named room).congr (by rw [pings]; simp)
  rw [split]
  refine (heard.run quiet).congr ?_
  rw [pings]
  exact Nat.add_le_add_iff_left

end HostList

end Chiaki.Discovery
