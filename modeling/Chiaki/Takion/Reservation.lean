import Chiaki.Lib.Bump
import Chiaki.Takion.CryptSend

/-!
# Reserved key positions

Every step of a sender reserves at most one range, behind all earlier ones, and what it encrypts stays
inside of it.
-/

namespace Chiaki
open Machine

namespace SendEvent

def reservation? : SendEvent → Option Reservation
  | .reserved r => some r
  | _ => none

def encryption? : SendEvent → Option Encryption
  | .encrypted e => some e
  | _ => none

def authenticated? : SendEvent → Option Nat
  | .authenticated keyPos => some keyPos
  | _ => none

end SendEvent

def reservations (events : List SendEvent) : List Reservation := events.filterMap (·.reservation?)
def encryptions (events : List SendEvent) : List Encryption := events.filterMap (·.encryption?)
def authentications (events : List SendEvent) : List Nat := events.filterMap (·.authenticated?)

def Reservation.interval (r : Reservation) : Nat × Nat := (r.keyPos, r.length)

/-- The first position of the stream that is used. -/
def Encryption.start (e : Encryption) : Nat := e.reservation.keyPos + gkcryptBlockSize

/-- The payload was encrypted with the stream from there on, and that lies inside the reservation. -/
structure Encryption.Inside (stream : Nat → UInt8) (e : Encryption) : Prop where
  above : e.reservation.keyPos ≤ e.start
  below : e.start + e.payload.length ≤ e.reservation.keyPos + e.reservation.length
  cipher : e.cipher = List.zipWith (· ^^^ ·) e.payload (streamRange stream e.start e.payload.length)

/-- The key stream is taken from the position on, whatever the block it starts in. -/
theorem cryptBytes_cases (stream : Nat → UInt8) (crypt : Option GKCrypt) (alloc ok : Bool) (keyPos : Nat)
    (buf : Bytes) :
    (∃ err, cryptBytes stream crypt alloc ok keyPos buf = .ok (.error err)) ∨
    (crypt.isSome ∧ cryptBytes stream crypt alloc ok keyPos buf =
      .ok (.ok (List.zipWith (· ^^^ ·) buf (streamRange stream keyPos buf.length)))) ∨
    (crypt = none ∧ cryptBytes stream crypt alloc ok keyPos buf = .error .nullPointer) := by
  unfold cryptBytes
  cases alloc with
  | false => exact .inl ⟨.memory, rfl⟩
  | true =>
      cases crypt with
      | none => exact .inr (.inr ⟨rfl, rfl⟩)
      | some crypt =>
          have block : (keyPos - keyPos % gkcryptBlockSize) % gkcryptBlockSize = 0 := by
            simp only [gkcryptBlockSize]
            omega
          simp only [Bool.not_true, Bool.false_eq_true, if_false, deref_some, ok_bind, streamFrom, block,
            Nat.mul_mod_left, decide_true, assert_true]
          cases ok with
          | false => exact .inl ⟨.unknown, rfl⟩
          | true =>
              refine .inr (.inl ⟨rfl, ?_⟩)
              have part := @KeyBuf.read_streamRange stream (keyPos - keyPos % gkcryptBlockSize)
                ((keyPos % gkcryptBlockSize + buf.length + gkcryptBlockSize - 1) / gkcryptBlockSize * gkcryptBlockSize)
                (keyPos % gkcryptBlockSize) buf.length (by simp only [gkcryptBlockSize]; omega)
              rw [Nat.sub_add_cancel (Nat.mod_le _ _)] at part
              simp only [if_true, pure_bind, field, part, inBounds_some, ok_bind]
              rfl

/-! ## One step -/

namespace TakionLocal

theorem advanceKeyPos_full {takion : TakionLocal} {dataSize : Nat} (keys : takion.gkcryptLocal.isSome)
    (full : 2 ^ 64 - 1 - takion.keyPosLocal < dataSize + dataSize % gkcryptBlockSize) :
    takion.advanceKeyPos true dataSize = (takion, .error .overflow) := by
  unfold advanceKeyPos
  rw [if_neg (by simp), if_pos keys, if_pos full]

theorem advanceKeyPos_free {takion : TakionLocal} {dataSize : Nat} (keys : takion.gkcryptLocal.isSome)
    (free : ¬ 2 ^ 64 - 1 - takion.keyPosLocal < dataSize + dataSize % gkcryptBlockSize) :
    takion.advanceKeyPos true dataSize =
      ({ takion with keyPosLocal := takion.keyPosLocal + (dataSize + dataSize % gkcryptBlockSize) },
        .ok takion.keyPosLocal) := by
  unfold advanceKeyPos
  rw [if_neg (by simp), if_pos keys, if_neg free]

theorem reserve_cases (takion : TakionLocal) (lock : Bool) (dataSize : Nat) :
    (∃ err, takion.reserve lock dataSize = (takion, [], .error err)) ∨
    (takion.gkcryptLocal = none ∧ takion.reserve lock dataSize = (takion, [], .ok 0)) ∨
    (takion.gkcryptLocal.isSome ∧
      ¬ 2 ^ 64 - 1 - takion.keyPosLocal < (⟨takion.keyPosLocal, dataSize⟩ : Reservation).length ∧
      takion.reserve lock dataSize =
        ({ takion with keyPosLocal := takion.keyPosLocal + (⟨takion.keyPosLocal, dataSize⟩ : Reservation).length },
          [.reserved ⟨takion.keyPosLocal, dataSize⟩], .ok takion.keyPosLocal)) := by
  cases lock with
  | false => exact .inl ⟨.unknown, rfl⟩
  | true =>
      cases keys : takion.gkcryptLocal.isSome with
      | false =>
          have none := Option.isSome_eq_false_iff.mp keys
          refine .inr (.inl ⟨by simpa using none, ?_⟩)
          simp [reserve, advanceKeyPos, keys]
      | true =>
          by_cases full : 2 ^ 64 - 1 - takion.keyPosLocal < dataSize + dataSize % gkcryptBlockSize
          · exact .inl ⟨.overflow, by rw [reserve, advanceKeyPos_full keys full]⟩
          · refine .inr (.inr ⟨rfl, full, ?_⟩)
            rw [reserve, advanceKeyPos_free keys full, keys]
            rfl

/-- What a step did to the key position. -/
structure Effect (stream : Nat → UInt8) (before after : TakionLocal) (events : List SendEvent) : Prop where
  laid : Bump.Laid before.keyPosLocal ((reservations events).map Reservation.interval)
  next : after.keyPosLocal = before.keyPosLocal + ((reservations events).map Reservation.length).sum
  below : before.keyPosLocal < 2 ^ 64 → after.keyPosLocal < 2 ^ 64
  keys : after.gkcryptLocal.isSome = before.gkcryptLocal.isSome
  inside : ∀ e ∈ encryptions events, e.Inside stream
  ordered : ((encryptions events).map (·.reservation)).Sublist (reservations events)

theorem Effect.refl (stream : Nat → UInt8) (takion : TakionLocal) : Effect stream takion takion [] :=
  ⟨trivial, rfl, id, rfl, by simp [encryptions], by simp [encryptions]⟩

theorem Effect.trans {stream : Nat → UInt8} {a b c : TakionLocal} {events events' : List SendEvent}
    (first : Effect stream a b events) (second : Effect stream b c events') :
    Effect stream a c (events ++ events') := by
  have split : reservations (events ++ events') = reservations events ++ reservations events' :=
    List.filterMap_append
  have split' : encryptions (events ++ events') = encryptions events ++ encryptions events' :=
    List.filterMap_append
  constructor
  · rw [split, List.map_append]
    refine first.laid.append ?_ second.laid
    rw [first.next, List.map_map]
    rfl
  · rw [second.next, first.next, split, List.map_append, List.sum_append, Nat.add_assoc]
  · exact second.below ∘ first.below
  · rw [second.keys, first.keys]
  · intro e member
    rw [split'] at member
    rcases List.mem_append.mp member with early | late
    · exact first.inside e early
    · exact second.inside e late
  · rw [split, split', List.map_append]
    exact first.ordered.append second.ordered

theorem Effect.still {stream : Nat → UInt8} {before after : TakionLocal} {events : List SendEvent}
    (position : after.keyPosLocal = before.keyPosLocal) (keys : after.gkcryptLocal.isSome = before.gkcryptLocal.isSome)
    (silent : reservations events = [] ∧ encryptions events = []) : Effect stream before after events := by
  constructor <;> simp [silent, position, keys, Bump.Laid]

theorem Effect.reserve (stream : Nat → UInt8) {takion takion' : TakionLocal} {lock : Bool} {dataSize : Nat}
    {events : List SendEvent} {r : Except ErrorCode Nat}
    (reserved : takion.reserve lock dataSize = (takion', events, r)) : Effect stream takion takion' events := by
  rcases takion.reserve_cases lock dataSize with ⟨err, same⟩ | ⟨-, same⟩ | ⟨keys, free, same⟩
  · obtain ⟨rfl, rfl, -⟩ : takion = takion' ∧ [] = events ∧ _ = r := by simpa [same] using reserved
    exact .refl stream takion
  · obtain ⟨rfl, rfl, -⟩ : takion = takion' ∧ [] = events ∧ _ = r := by simpa [same] using reserved
    exact .refl stream takion
  · rw [same] at reserved
    obtain ⟨rfl, result⟩ := Prod.mk.inj reserved
    obtain ⟨rfl, -⟩ := Prod.mk.inj result
    constructor
    · exact ⟨rfl, trivial⟩
    · simp [reservations, SendEvent.reservation?]
    · intro below
      dsimp only
      omega
    · rfl
    · simp [encryptions, SendEvent.encryption?]
    · simp [encryptions, SendEvent.encryption?]

/-- The fields of the header are inside of it. -/
structure SealLayout.Fits (layout : SealLayout) (buf : Bytes) : Prop where
  keyPos : layout.keyPos + 4 ≤ layout.headerSize
  mac : layout.mac + 4 ≤ layout.headerSize
  header : layout.headerSize ≤ buf.length

theorem sealAt_cases (lib : CryptoLib) (stream : Nat → UInt8) (takion : TakionLocal) (o : SealOutcome)
    {layout : SealLayout} {buf : Bytes} (fits : layout.Fits buf) (keyPos : Nat) :
    (takion.gkcryptLocal = none ∧ takion.sealAt lib stream o layout buf keyPos = .error .nullPointer) ∨
    ∃ takion' events r, takion.sealAt lib stream o layout buf keyPos = .ok (takion', events, r) ∧
      takion'.keyPosLocal = takion.keyPosLocal ∧ takion'.gkcryptLocal.isSome = takion.gkcryptLocal.isSome ∧
      (events = [] ∨ ∃ e : Encryption, takion.gkcryptLocal.isSome ∧
        e.reservation = ⟨keyPos, buf.length - layout.headerSize + gkcryptBlockSize⟩ ∧ e.Inside stream ∧
        (events = [.encrypted e] ∨ events = [.encrypted e, .authenticated keyPos])) := by
  unfold sealAt
  have size : (buf.drop layout.headerSize).length = buf.length - layout.headerSize := List.length_drop
  rcases cryptBytes_cases stream takion.gkcryptLocal o.alloc o.stream (keyPos + gkcryptBlockSize)
    (buf.drop layout.headerSize) with ⟨err, same⟩ | ⟨keys, same⟩ | ⟨keys, same⟩
  · exact .inr ⟨takion, [], .error err, by simp only [same, ok_bind]; rfl, rfl, rfl, .inl rfl⟩
  · obtain ⟨crypt, keys⟩ := Option.isSome_iff_exists.mp keys
    have keyPosFits := fits.keyPos
    have macFits := fits.mac
    have header := fits.header
    have inside : Encryption.Inside stream ⟨⟨keyPos, (buf.drop layout.headerSize).length + gkcryptBlockSize⟩,
        buf.drop layout.headerSize, List.zipWith (· ^^^ ·) (buf.drop layout.headerSize)
          (streamRange stream (keyPos + gkcryptBlockSize) (buf.drop layout.headerSize).length)⟩ := by
      refine ⟨Nat.le_add_right _ _, ?_, rfl⟩
      simp only [Encryption.start, Reservation.length]
      omega
    have width : (List.zipWith (· ^^^ ·) (buf.drop layout.headerSize)
        (streamRange stream (keyPos + gkcryptBlockSize) (buf.drop layout.headerSize).length)).length =
        buf.length - layout.headerSize := by simp [streamRange]
    generalize List.zipWith (· ^^^ ·) (buf.drop layout.headerSize)
      (streamRange stream (keyPos + gkcryptBlockSize) (buf.drop layout.headerSize).length) = cipher at *
    obtain ⟨buf₁, set₁, -, length₁⟩ := @setField_ok buf cipher layout.headerSize (by omega)
    obtain ⟨buf₂, set₂, -, length₂⟩ := @setField_ok buf₁ (htonl keyPos) layout.keyPos
      (by rw [length_htonl, length₁]; omega)
    obtain ⟨crypt', tag, computed, tagSize⟩ := crypt.gmac_ok lib o.gmac keyPos buf₂
    refine .inr ?_
    simp only [same, ok_bind, set₁, set₂]
    simp only [keys, deref_some, ok_bind, computed]
    rw [← size]
    cases tag with
    | none => exact ⟨_, _, _, rfl, rfl, rfl, .inr ⟨_, rfl, rfl, inside, .inl rfl⟩⟩
    | some tag =>
        obtain ⟨buf₃, set₃, -, -⟩ := @setField_ok buf₂ tag layout.mac
          (by rw [tagSize tag rfl, length₂, length₁]; omega)
        simp only [set₃, ok_bind]
        exact ⟨_, _, _, rfl, rfl, rfl, .inr ⟨_, rfl, rfl, inside, .inr rfl⟩⟩
  · exact .inl ⟨keys, by simp only [same]; rfl⟩

theorem Effect.sealed {stream : Nat → UInt8} {before mid after : TakionLocal} {e : Encryption}
    {events : List SendEvent} (reserved : Effect stream before mid [.reserved e.reservation])
    (position : after.keyPosLocal = mid.keyPosLocal) (keys : after.gkcryptLocal.isSome = mid.gkcryptLocal.isSome)
    (inside : e.Inside stream)
    (shape : events = [.encrypted e] ∨ events = [.encrypted e, .authenticated e.reservation.keyPos]) :
    Effect stream before after ([.reserved e.reservation] ++ events) := by
  obtain ⟨laid, next, below, kept, -, -⟩ := reserved
  have same : reservations ([.reserved e.reservation] ++ events) = reservations [.reserved e.reservation] := by
    rcases shape with rfl | rfl <;> rfl
  have single : encryptions ([.reserved e.reservation] ++ events) = [e] := by
    rcases shape with rfl | rfl <;> rfl
  constructor
  · rwa [same]
  · rw [same, position, next]
  · rwa [position]
  · rw [keys, kept]
  · rw [single]
    intro e' member
    rwa [List.mem_singleton.mp member]
  · rw [same, single]
    exact List.Sublist.refl _

theorem sendSealed_cases (lib : CryptoLib) (stream : Nat → UInt8) (takion : TakionLocal) (o : SealOutcome)
    {layout : SealLayout} {buf : Bytes} (fits : layout.Fits buf) :
    (takion.gkcryptLocal = none ∧ takion.sendSealed lib stream o layout buf = .error .nullPointer) ∨
    ∃ takion' events r, takion.sendSealed lib stream o layout buf = .ok (takion', events, r) ∧
      Effect stream takion takion' events ∧
      (authentications events).Sublist ((reservations events).map (·.keyPos)) := by
  unfold sendSealed
  cases o.lock with
  | false => exact .inr ⟨takion, [], .error .unknown, rfl, .refl stream takion, by simp [authentications]⟩
  | true =>
      simp only [Bool.not_true, Bool.false_eq_true, if_false]
      rcases takion.reserve_cases o.relock (buf.length - layout.headerSize + gkcryptBlockSize) with
        ⟨err, same⟩ | ⟨keys, same⟩ | ⟨keys, free, same⟩
      · exact .inr ⟨takion, [], .error err, by simp only [same]; rfl, .refl stream takion, by simp [authentications]⟩
      · simp only [same]
        rcases sealAt_cases lib stream takion o fits 0 with ⟨-, fault⟩ | ⟨takion', events, r, done, position, kept, shape⟩
        · exact .inl ⟨keys, by rw [fault]; rfl⟩
        · rcases shape with rfl | ⟨e, some, -⟩
          · exact .inr ⟨takion', [], r, by rw [done]; rfl, .still position kept ⟨rfl, rfl⟩, by simp [authentications]⟩
          · simp [keys] at some
      · have reserved := Effect.reserve stream same
        simp only [same]
        rcases sealAt_cases lib stream _ o fits takion.keyPosLocal with
          ⟨none, -⟩ | ⟨takion', events, r, done, position, kept, shape⟩
        · simp [show takion.gkcryptLocal = _ from none] at keys
        · refine .inr ⟨takion', _, r, by rw [done]; rfl, ?_, ?_⟩
          · rcases shape with rfl | ⟨e, -, own, inside, shape⟩
            · exact reserved.trans (.still position kept ⟨rfl, rfl⟩)
            · rw [← own] at position reserved ⊢
              refine reserved.sealed position kept inside ?_
              rwa [own]
          · rcases shape with rfl | ⟨e, -, -, -, rfl | rfl⟩
            · simp [authentications, SendEvent.authenticated?]
            · simp [authentications, SendEvent.authenticated?]
            · exact List.Sublist.refl _

end TakionLocal

namespace CryptSenders
open TakionLocal

def positions (s : CryptSenders) : List Nat := s.inFlight.map (·.keyPos)

/-- A step of the whole system. What is authenticated was reserved for it. -/
structure Effect (stream : Nat → UInt8) (before after : CryptSenders) (events : List SendEvent) : Prop
    extends TakionLocal.Effect stream before.takion after.takion events where
  matched : before.takion.gkcryptLocal.isSome → ∀ p,
    (authentications events).count p + after.positions.count p ≤
      ((reservations events).map (·.keyPos)).count p + before.positions.count p

variable {stream : Nat → UInt8}

theorem Effect.refl (s : CryptSenders) : Effect stream s s [] :=
  ⟨.refl stream s.takion, fun _ _ => le_rfl⟩

theorem Effect.trans {a b c : CryptSenders} {events events' : List SendEvent} (first : Effect stream a b events)
    (second : Effect stream b c events') : Effect stream a c (events ++ events') := by
  refine ⟨first.toEffect.trans second.toEffect, fun keys p => ?_⟩
  have early := first.matched keys p
  have late := second.matched (by rw [first.keys, keys]) p
  simp only [authentications, reservations, List.filterMap_append, List.map_append, List.count_append] at early late ⊢
  omega

theorem launch_effect (s : CryptSenders) (lock alloc : Bool) (dataSize : Nat) (packet : Nat → Bytes)
    (message : Option SendMessageArgs) :
    Effect stream s (s.launch lock alloc dataSize packet message).1 (s.launch lock alloc dataSize packet message).2 := by
  unfold launch
  rcases s.takion.reserve_cases lock dataSize with ⟨err, same⟩ | ⟨none, same⟩ | ⟨keys, free, same⟩
  · simp only [same]
    exact .refl s
  · simp only [same]
    cases alloc with
    | false => exact .refl s
    | true => exact ⟨.refl stream s.takion, fun keys => by simp [none] at keys⟩
  · have reserved := TakionLocal.Effect.reserve stream same
    simp only [same]
    cases alloc with
    | false =>
        refine ⟨reserved, fun _ p => ?_⟩
        change 0 + s.positions.count p ≤ _
        omega
    | true =>
        refine ⟨reserved, fun _ p => ?_⟩
        change 0 + (List.map _ (s.inFlight ++ [_])).count p ≤ [s.takion.keyPosLocal].count p + s.positions.count p
        rw [List.map_append, List.count_append, positions, List.map_singleton, Nat.zero_add, Nat.add_comm]

theorem count_eraseIdx_le (l : List InFlight) (i p : Nat) :
    ((l.eraseIdx i).map (·.keyPos)).count p ≤ (l.map (·.keyPos)).count p :=
  ((List.eraseIdx_sublist l i).map _).count_le p

theorem number_effect (s : CryptSenders) (i : Nat) (lock : Bool) : Effect stream s (s.number i lock) [] := by
  unfold number
  split
  · rename_i packet keyPos args found
    cases lock with
    | false => exact ⟨.refl stream s.takion, fun _ p => by
        have fewer := count_eraseIdx_le s.inFlight i p
        simpa [positions, authentications, reservations] using fewer⟩
    | true =>
        refine ⟨.still rfl rfl ⟨rfl, rfl⟩, fun _ p => ?_⟩
        have kept : (s.inFlight.set i ⟨packet ++ args.message s.takion.seqNumLocal, keyPos, none⟩).map (·.keyPos) =
            s.inFlight.map (·.keyPos) := by
          rw [List.map_set]
          apply List.ext_getElem?
          intro j
          by_cases here : i = j
          · subst here
            have inside := (List.getElem?_eq_some_iff.mp found).1
            rw [List.getElem?_set_self (by simpa using inside), List.getElem?_map, found]
            rfl
          · rw [List.getElem?_set_ne here]
        simp only [if_true, positions, kept]
        exact le_rfl
  · exact .refl s

theorem Effect.leave {s : CryptSenders} {i : Nat} {f : InFlight} (found : s.inFlight[i]? = some f)
    {takion : TakionLocal} (position : takion.keyPosLocal = s.takion.keyPosLocal)
    (keys : takion.gkcryptLocal.isSome = s.takion.gkcryptLocal.isSome) {events : List SendEvent}
    (shape : events = [.authenticated f.keyPos] ∨ events = []) :
    Effect stream s ⟨takion, s.inFlight.eraseIdx i⟩ events := by
  obtain ⟨inside, rfl⟩ := List.getElem?_eq_some_iff.mp found
  have taken := ((List.getElem_cons_eraseIdx_perm inside).map (·.keyPos)).count_eq
  refine ⟨.still position keys ?_, fun _ p => ?_⟩
  · rcases shape with rfl | rfl <;> exact ⟨rfl, rfl⟩
  · rw [positions, positions, ← taken p, List.map_cons, List.count_cons]
    dsimp only
    rcases shape with rfl | rfl
    · change [s.inFlight[i].keyPos].count p + _ ≤ 0 + _
      rw [List.count_singleton]
      omega
    · change 0 + _ ≤ 0 + _
      omega

theorem authenticate_effect (lib : CryptoLib) (s : CryptSenders) (i : Nat) (lock gmac : Bool) :
    ∃ s' events, s.authenticate lib i lock gmac = .ok (s', events) ∧ Effect stream s s' events := by
  unfold authenticate
  split
  · rename_i packet keyPos found
    have done : ∃ takion r, s.takion.authenticate lib lock gmac packet keyPos = .ok (takion, r) ∧
        takion.keyPosLocal = s.takion.keyPosLocal ∧
        takion.gkcryptLocal.isSome = s.takion.gkcryptLocal.isSome := by
      unfold TakionLocal.authenticate
      cases lock with
      | false => exact ⟨_, _, rfl, rfl, rfl⟩
      | true =>
          obtain ⟨r, computed, -⟩ := packetMac_ok lib gmac s.takion.gkcryptLocal packet keyPos
          simp only [Bool.not_true, Bool.false_eq_true, if_false, computed, ok_bind]
          exact ⟨_, _, rfl, rfl, packetMac_isSome computed⟩
    obtain ⟨takion, r, done, position, keys⟩ := done
    rw [done]
    refine ⟨_, _, rfl, .leave found position keys ?_⟩
    dsimp only
    split
    · split <;> simp
    · simp
  · exact ⟨s, [], rfl, .refl s⟩

theorem sealed_effect (lib : CryptoLib) (stream : Nat → UInt8) (s : CryptSenders) {o : SealOutcome} {layout : SealLayout} {buf : Bytes}
    (fits : layout.Fits buf) :
    (s.takion.gkcryptLocal = none ∧ s.takion.sendSealed lib stream o layout buf = .error .nullPointer) ∨
    ∃ takion events r, s.takion.sendSealed lib stream o layout buf = .ok (takion, events, r) ∧
      Effect stream s { s with takion := takion } events := by
  rcases sendSealed_cases lib stream s.takion o fits with fault | ⟨takion, events, r, done, effect, matched⟩
  · exact .inl fault
  · refine .inr ⟨takion, events, r, done, effect, fun _ p => ?_⟩
    exact Nat.add_le_add_right (matched.count_le p) _

theorem feedback_effect (lib : CryptoLib) (s : CryptSenders) (o : SealOutcome) (type : TakionPacketType)
    (seqNum : Nat) (payload : Bytes) :
    (s.takion.gkcryptLocal = none ∧
      s.takion.sendFeedbackPacket lib stream o (feedbackPacket type seqNum payload) = .error .nullPointer) ∨
    ∃ takion events r, s.takion.sendFeedbackPacket lib stream o (feedbackPacket type seqNum payload) =
      .ok (takion, events, r) ∧ Effect stream s { s with takion := takion } events := by
  have size : (feedbackPacket type seqNum payload).length ≥ 0xc := by simp [feedbackPacket]; omega
  unfold sendFeedbackPacket
  rw [decide_eq_true size, assert_true, ok_bind]
  exact sealed_effect lib stream s ⟨by decide, by decide, size⟩

/-- A step goes wrong only where something is to be encrypted without keys. -/
theorem step_cases (lib : CryptoLib) (stream : Nat → UInt8) (s : CryptSenders) (op : Op) :
    (s.takion.gkcryptLocal = none ∧ step lib stream s op = .error .nullPointer) ∨
    ∃ s' events, step lib stream s op = .ok (s', events) ∧ Effect stream s s' events := by
  cases op with
  | messageData args lock alloc => exact .inr ⟨_, _, rfl, launch_effect ..⟩
  | dataAck seqNum lock => exact .inr ⟨_, _, rfl, launch_effect ..⟩
  | congestion packet lock => exact .inr ⟨_, _, rfl, launch_effect ..⟩
  | number i lock => exact .inr ⟨_, _, rfl, number_effect s i lock⟩
  | authenticate i lock gmac => exact .inr (authenticate_effect lib s i lock gmac)
  | feedbackState seqNum formatted o =>
      rcases feedback_effect lib s o .feedbackState seqNum formatted with ⟨none, fault⟩ | ⟨takion, events, r, done, effect⟩
      · exact .inl ⟨none, by rw [step, fault]; rfl⟩
      · exact .inr ⟨_, _, by rw [step, done]; rfl, effect⟩
  | feedbackHistory seqNum payload alloc o =>
      cases alloc with
      | false => exact .inr ⟨s, [], rfl, .refl s⟩
      | true =>
          rcases feedback_effect lib s o .feedbackHistory seqNum payload with
            ⟨none, fault⟩ | ⟨takion, events, r, done, effect⟩
          · exact .inl ⟨none, by rw [step, if_pos rfl, fault]; rfl⟩
          · exact .inr ⟨_, _, by rw [step, if_pos rfl, done]; rfl, effect⟩
  | mic packet o =>
      have fits : (micLayout packet.ps5).Fits (packet.header ++ packet.payload) := by
        have header := packet.header_length
        refine ⟨?_, ?_, ?_⟩ <;> simp only [micLayout, List.length_append] <;> omega
      rcases sealed_effect lib stream s (o := o) fits with ⟨none, fault⟩ | ⟨takion, events, r, done, effect⟩
      · exact .inl ⟨none, by rw [step, sendMicPacket, fault]; rfl⟩
      · exact .inr ⟨_, _, by rw [step, sendMicPacket, done]; rfl, effect⟩

/-! ## Runs -/

theorem Effect.of_run {lib : CryptoLib} {s t : CryptSenders} {ops : List Op} {events : List (List SendEvent)}
    (computed : run (step lib stream) s ops = .ok (t, events)) : Effect stream s t events.flatten := by
  induction ops generalizing s events with
  | nil =>
      obtain ⟨rfl, rfl⟩ := Prod.mk.inj (Except.ok.inj computed)
      exact .refl s
  | cons op ops ih =>
      obtain ⟨s', first, rest, stepped, later, rfl⟩ := run_cons_inv computed
      rcases step_cases lib stream s op with ⟨-, fault⟩ | ⟨s'', first', same, effect⟩
      · rw [fault] at stepped
        cases stepped
      · rw [same] at stepped
        obtain ⟨rfl, rfl⟩ := Prod.mk.inj (Except.ok.inj stepped)
        exact effect.trans (ih later)

theorem run_ok (lib : CryptoLib) (stream : Nat → UInt8) {s : CryptSenders} (keys : s.takion.gkcryptLocal.isSome)
    (ops : List Op) : ∃ t events, run (step lib stream) s ops = .ok (t, events) := by
  induction ops generalizing s with
  | nil => exact ⟨s, [], rfl⟩
  | cons op ops ih =>
      rcases step_cases lib stream s op with ⟨none, -⟩ | ⟨s', first, same, effect⟩
      · simp [none] at keys
      · obtain ⟨t, events, later⟩ := ih (by rw [effect.keys, keys])
        exact ⟨t, first :: events, by rw [run_cons_ok same, later]; rfl⟩

/-- Ranges are handed out one behind the other below 2^64, and every payload is encrypted with a range of
the stream that lies inside its own. -/
structure SeparateStreams (stream : Nat → UInt8) (events : List SendEvent) : Prop where
  ranges : (reservations events).Pairwise fun a b => a.keyPos + a.length ≤ b.keyPos
  bounded : ∀ r ∈ reservations events, r.keyPos + r.length < 2 ^ 64
  encrypted : ∀ e ∈ encryptions events, e.reservation ∈ reservations events ∧ e.Inside stream
  once : (encryptions events).Pairwise fun a b => a.start + a.payload.length ≤ b.start

/-- A call that would leave the range of positions is refused, and one that is refused changes nothing. -/
def RefusesOverflow (takion : TakionLocal) : Prop :=
  ∀ dataSize, (takion.gkcryptLocal.isSome →
    ((takion.advanceKeyPos true dataSize).2 = .error .overflow ↔
      2 ^ 64 ≤ takion.keyPosLocal + (dataSize + dataSize % gkcryptBlockSize))) ∧
    ∀ lock err, (takion.advanceKeyPos lock dataSize).2 = .error err → (takion.advanceKeyPos lock dataSize).1 = takion

theorem refusesOverflow (takion : TakionLocal) (below : takion.keyPosLocal < 2 ^ 64) : RefusesOverflow takion := by
  intro dataSize
  constructor
  · intro keys
    by_cases full : 2 ^ 64 - 1 - takion.keyPosLocal < dataSize + dataSize % gkcryptBlockSize
    · rw [advanceKeyPos_full keys full]
      simp only [true_iff]
      omega
    · rw [advanceKeyPos_free keys full]
      simp only [reduceCtorEq, false_iff]
      omega
  · intro lock err refused
    cases lock with
    | false => rfl
    | true =>
        cases keys : takion.gkcryptLocal.isSome with
        | false => simp [advanceKeyPos, keys]
        | true =>
            by_cases full : 2 ^ 64 - 1 - takion.keyPosLocal < dataSize + dataSize % gkcryptBlockSize
            · rw [advanceKeyPos_full keys full]
            · rw [advanceKeyPos_free keys full] at refused
              cases refused

theorem Effect.separate {s t : CryptSenders} {events : List SendEvent} (effect : Effect stream s t events)
    (below : s.takion.keyPosLocal < 2 ^ 64) : SeparateStreams stream events := by
  have ranges : (reservations events).Pairwise fun a b => a.keyPos + a.length ≤ b.keyPos :=
    List.pairwise_map.mp effect.laid.pairwise
  have sealed : ((encryptions events).map (·.reservation)).Pairwise fun a b => a.keyPos + a.length ≤ b.keyPos :=
    ranges.sublist effect.ordered
  constructor
  · exact ranges
  · intro r member
    have stop := effect.laid.stop_le r.interval (List.mem_map_of_mem member)
    have last := effect.below below
    rw [effect.next] at last
    rw [List.map_map] at stop
    exact stop.trans_lt last
  · intro e member
    exact ⟨effect.ordered.subset (List.mem_map_of_mem member), effect.inside e member⟩
  · apply (List.pairwise_map.mp sealed).imp_of_mem
    intro a b memberA memberB apart
    have inside := (effect.inside a memberA).below
    have later := (effect.inside b memberB).above
    omega

/-- Any senders, interleaved in any way. -/
theorem separateStreams (lib : CryptoLib) (stream : Nat → UInt8) (s : CryptSenders)
    (below : s.takion.keyPosLocal < 2 ^ 64) (ops : List Op) :
    (s.takion.gkcryptLocal.isSome → ∃ t events, run (step lib stream) s ops = .ok (t, events)) ∧
    ∀ t events, run (step lib stream) s ops = .ok (t, events) →
      SeparateStreams stream events.flatten ∧ RefusesOverflow t.takion :=
  ⟨fun keys => run_ok lib stream keys ops, fun t _ computed =>
    have effect := Effect.of_run computed
    ⟨effect.separate below, refusesOverflow t.takion (effect.below below)⟩⟩

/-- A connection with keys of zeros, and no call under way. -/
def zeroKeys : CryptSenders :=
  ⟨⟨0, some (.ofKeys default (List.replicate 0x10 0) (List.replicate 0x10 0)), 0, 0, .init takionSendBufferSize⟩, []⟩

/-- A congestion packet and an acknowledgement. -/
theorem separateStreams_two :
    ∃ t events, run (step default fun _ => 0) zeroKeys [.congestion ⟨0, 0, 0⟩ true, .dataAck 1 true] = .ok (t, events) ∧
      SeparateStreams (fun _ => 0) events.flatten ∧ RefusesOverflow t.takion := by
  have any := separateStreams default (fun _ => 0) zeroKeys (by decide) [.congestion ⟨0, 0, 0⟩ true, .dataAck 1 true]
  obtain ⟨t, events, computed⟩ := any.1 rfl
  exact ⟨t, events, computed, any.2 t events computed⟩

/-! ## Nonces -/

/-- The key index and the initialisation vector a packet is authenticated with. -/
def nonce (iv : Bytes) (keyPos : Nat) : Nat × Bytes := (GKCrypt.keyIndexOf keyPos, counterAdd iv (keyPos / 0x10))

/-- No two reservations are in one block, and no two packets have one nonce. -/
structure NoncesUnique (events : List SendEvent) : Prop where
  blocks : ((reservations events).map (·.keyPos)).Pairwise fun p q => p / 0x10 ≠ q / 0x10
  nonces : ∀ iv : Bytes, iv.length = 0x10 → (authentications events).Pairwise fun p q => nonce iv p ≠ nonce iv q

theorem Effect.nonces {takion : TakionLocal} {t : CryptSenders} {events : List SendEvent}
    (effect : Effect stream ⟨takion, []⟩ t events) (keys : takion.gkcryptLocal.isSome)
    (below : takion.keyPosLocal < 2 ^ 64)
    (blocks : ((reservations events).map (·.keyPos)).Pairwise fun p q => p / 0x10 ≠ q / 0x10) {iv : Bytes}
    (length : iv.length = 0x10) : (authentications events).Pairwise fun p q => nonce iv p ≠ nonce iv q := by
  have bounded := (effect.separate below).bounded
  have counts (p : Nat) : (authentications events).count p ≤ ((reservations events).map (·.keyPos)).count p := by
    have matched := effect.matched keys p
    simp only [positions, List.map_nil, List.count_nil] at matched
    omega
  have reserved (p : Nat) (member : p ∈ authentications events) : p ∈ (reservations events).map (·.keyPos) :=
    List.count_pos_iff.mp ((List.count_pos_iff.mpr member).trans_le (counts p))
  have small (p : Nat) (member : p ∈ authentications events) : p / 0x10 < 2 ^ 60 := by
    obtain ⟨r, inside, rfl⟩ := List.mem_map.mp (reserved p member)
    have stop := bounded r inside
    omega
  have nodup : ((reservations events).map (·.keyPos)).Nodup :=
    blocks.imp fun different same => different (congrArg (· / 0x10) same)
  have nodup' : (authentications events).Nodup :=
    List.nodup_iff_count_le_one.mpr fun p => (counts p).trans (List.nodup_iff_count_le_one.mp nodup p)
  apply nodup'.imp_of_mem
  intro p q memberP memberQ different same
  have : Std.Symm fun p q : Nat => p / 0x10 ≠ q / 0x10 := ⟨fun _ _ h => h.symm⟩
  have apart : p / 0x10 ≠ q / 0x10 :=
    blocks.forall (reserved p memberP) (reserved q memberQ) different
  have counters := (Prod.mk.inj same).2
  rw [GKCrypt.counterAdd_eq length (small p memberP), GKCrypt.counterAdd_eq length (small q memberQ)] at counters
  exact apart (GKCrypt.counterAt_injective (small p memberP) (small q memberQ) counters)

/-- Nonces are unique exactly when every reservation but the last reaches the next block. -/
theorem noncesUnique_iff (lib : CryptoLib) (stream : Nat → UInt8) {takion : TakionLocal}
    (keys : takion.gkcryptLocal.isSome) (below : takion.keyPosLocal < 2 ^ 64) (ops : List Op) :
    ∃ t events, run (step lib stream) ⟨takion, []⟩ ops = .ok (t, events) ∧
      (NoncesUnique events.flatten ↔
        Bump.Spread 0x10 takion.keyPosLocal ((reservations events.flatten).map (·.length))) := by
  obtain ⟨t, events, computed⟩ := @run_ok lib stream ⟨takion, []⟩ keys ops
  have effect := Effect.of_run computed
  have spread := effect.laid.spread_iff (show 0 < 0x10 by decide)
  rw [List.map_map, List.map_map] at spread
  refine ⟨t, events, computed, ?_⟩
  constructor
  · intro unique
    exact spread.mp unique.blocks
  · intro wide
    exact ⟨spread.mpr wide, fun iv length => effect.nonces keys below (spread.mpr wide) length⟩

/-- Two congestion packets are in different blocks. -/
theorem noncesUnique_congestion :
    ∃ t events, run (step default fun _ => 0) zeroKeys [.congestion ⟨0, 0, 0⟩ true, .congestion ⟨0, 0, 0⟩ true] =
      .ok (t, events) ∧ NoncesUnique events.flatten := by
  obtain ⟨t, events, computed, unique⟩ := noncesUnique_iff default (fun _ => 0)
    (show zeroKeys.takion.gkcryptLocal.isSome by rfl) (by decide)
    [.congestion ⟨0, 0, 0⟩ true, .congestion ⟨0, 0, 0⟩ true]
  refine ⟨t, events, computed, unique.mpr ?_⟩
  obtain ⟨rfl, rfl⟩ := Prod.mk.inj (Except.ok.inj computed)
  exact ⟨by decide, trivial⟩

/-- Two messages of one byte are not. -/
theorem not_noncesUnique_bytes :
    ∃ t events, run (step default fun _ => 0) zeroKeys
      [.messageData (sendMessageData 1 1 [0]) true true, .messageData (sendMessageData 1 1 [0]) true true] =
        .ok (t, events) ∧ ¬ NoncesUnique events.flatten := by
  refine ⟨_, _, rfl, ?_⟩
  intro unique
  have blocks := unique.blocks
  revert blocks
  decide

end CryptSenders
end Chiaki
