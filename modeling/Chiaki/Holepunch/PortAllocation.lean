import Chiaki.Common

/-!
# The allocation of ports

`stun_port_allocation_test`. The preferred servers are asked first, then the built-in ones in the order of the shuffle,
until four of them have answered. How the ports of the answers differ tells how the router gives them out.
-/

namespace Chiaki

/-- What comes of a server: the socket is invalid before it is asked, `stun_get_external_address_from_server` fails, or
there is an address. -/
inductive StunReply where
  | socketInvalid
  | failed
  | response (address : Bytes) (port : UInt16)

/-- `addr1` to `addr4` and `port1` to `port4`. -/
structure StunSlots where
  addr : Fin 4 → Bytes
  port : Fin 4 → UInt16

namespace StunSlots

def empty : StunSlots := ⟨fun _ => [], fun _ => 0⟩

/-- The first port that is zero. -/
def missing (s : StunSlots) : Option (Fin 4) := [0, 1, 2, 3].find? fun k => s.port k = 0

def set (s : StunSlots) (k : Fin 4) (addr : Bytes) (port : UInt16) : StunSlots :=
  ⟨Function.update s.addr k addr, Function.update s.port k port⟩

/-- Both loops over servers. -/
def ask : List StunReply → StunSlots → StunSlots
  | [], s => s
  | reply :: replies, s =>
      match s.missing with
      | none => ask replies s
      | some k =>
          match reply with
          | .socketInvalid => s
          | .failed => ask replies s
          | .response addr port => if k = 3 then s.set k addr port else ask replies (s.set k addr port)

end StunSlots

/-- What the function writes. -/
structure PortAllocation where
  address : Bytes
  port : UInt16
  allocationIncrement : Int
  randomAllocation : Bool
  deriving DecidableEq

/-- The increment, and another one that should be the same. -/
def checkIncrement (increment increment1 : Int) (random : Bool) : Int × Bool :=
  (increment, if increment1 ≠ increment then true else random)

def incrementOfTwo (addr1 addr2 : Bytes) (port1 port2 : UInt16) : Int :=
  if addr1 ≠ addr2 then 0 else port2.toNat - port1.toNat

def incrementOfThree (addr1 addr2 addr3 : Bytes) (port1 port2 port3 : UInt16) (random : Bool) : Int × Bool :=
  if addr1 ≠ addr2 then
    if addr1 = addr3 then ((port3.toNat - port1.toNat : Int).tdiv 2, random)
    else if addr2 = addr3 then (port3.toNat - port2.toNat, random)
    else (0, random)
  else
    if addr1 ≠ addr3 then (port2.toNat - port1.toNat, random)
    else checkIncrement (port2.toNat - port1.toNat) (port3.toNat - port2.toNat) random

/-- All four addresses are the same. The differences are of 16 bits. -/
def incrementOfSame (port1 port2 port3 port4 : UInt16) (random : Bool) : Int × Bool :=
  let increment0 := port2 - port1
  let increment1 := port3 - port2
  let increment2 := port4 - port3
  if increment0 = increment1 ∧ increment1 = increment2 then (increment0.toNat, random)
  else if increment0 = increment1 ∨ increment0 = increment2 then (increment0.toNat, random)
  else if increment1 = increment2 then (increment1.toNat, random)
  else (increment0.toNat, true)

def incrementOfFour (addr1 addr2 addr3 addr4 : Bytes) (port1 port2 port3 port4 : UInt16) (random : Bool) : Int × Bool :=
  if addr1 ≠ addr2 then
    if addr1 = addr3 ∨ addr1 = addr4 then
      if addr1 = addr4 then
        if addr1 = addr3 then
          checkIncrement (port4.toNat - port3.toNat) ((port3.toNat - port1.toNat : Int).tdiv 2) random
        else ((port4.toNat - port1.toNat : Int).tdiv 4, random)
      else ((port3.toNat - port1.toNat : Int).tdiv 2, random)
    else
      if addr2 = addr3 ∨ addr2 = addr4 then
        if addr2 = addr4 then
          if addr2 = addr3 then checkIncrement (port4.toNat - port3.toNat) (port3.toNat - port2.toNat) random
          else ((port4.toNat - port1.toNat : Int).tdiv 4, random)
        else ((port3.toNat - port1.toNat : Int).tdiv 2, random)
      else if addr3 = addr4 then (port3.toNat - port4.toNat, random)
      else (0, random)
  else if addr2 ≠ addr3 then
    if addr2 = addr4 then
      checkIncrement (port2.toNat - port1.toNat) ((port4.toNat - port2.toNat : Int).tdiv 2) random
    else (port2.toNat - port1.toNat, random)
  else if addr3 ≠ addr4 then checkIncrement (port2.toNat - port1.toNat) (port3.toNat - port2.toNat) random
  else incrementOfSame port1 port2 port3 port4 random

/-- What the function makes of the answers. -/
def StunSlots.allocation (s : StunSlots) (out : PortAllocation) : PortAllocation × Bool :=
  if s.port 0 = 0 then (out, false)
  else if s.port 1 = 0 then ({ out with address := s.addr 0, port := s.port 0, allocationIncrement := 0 }, true)
  else if s.port 2 = 0 then
    let increment := incrementOfTwo (s.addr 0) (s.addr 1) (s.port 0) (s.port 1)
    ({ out with
      address := s.addr 1
      port := UInt16.ofInt ((s.port 1).toNat + 2 * increment)
      allocationIncrement := increment }, true)
  else if s.port 3 = 0 then
    let (increment, random) := incrementOfThree (s.addr 0) (s.addr 1) (s.addr 2) (s.port 0) (s.port 1) (s.port 2)
      out.randomAllocation
    (⟨s.addr 2, UInt16.ofInt ((s.port 2).toNat + increment), increment, random⟩, true)
  else
    let (increment, random) := incrementOfFour (s.addr 0) (s.addr 1) (s.addr 2) (s.addr 3) (s.port 0) (s.port 1)
      (s.port 2) (s.port 3) out.randomAllocation
    (⟨s.addr 3, s.port 3, increment, random⟩, true)

/-- `stun_port_allocation_test`: the preferred servers, the built-in ones as they are asked, and what is in the results
before. -/
def stunPortAllocationTest (passedServers builtinServers : List StunReply) (out : PortAllocation) :
    PortAllocation × Bool :=
  let s := StunSlots.ask passedServers .empty
  let s := if s.port 3 = 0 then StunSlots.ask builtinServers s else s
  s.allocation out

/-- The answers, up to the moment when the socket is invalid. -/
def StunReply.answers : List StunReply → List (Bytes × UInt16)
  | [] => []
  | .socketInvalid :: _ => []
  | .failed :: replies => answers replies
  | .response addr port :: replies => (addr, port) :: answers replies

/-- The increment and the port that follows are found, and the ports are not taken for random ones. -/
structure InfersAllocation (out : PortAllocation) (result : PortAllocation × Bool) (port increment : Int) : Prop where
  returned : result.2 = true
  step : result.1.allocationIncrement = increment
  next : (result.1.port.toNat : Int) = port + 3 * increment
  random : result.1.randomAllocation = out.randomAllocation

/-- Four addresses for which a wrong number of steps is assumed or a difference is taken the wrong way around; or all are
the same, and the difference is negative. -/
def Misjudged : List Bytes → Int → Prop
  | [addr1, addr2, addr3, addr4], increment =>
      (addr1 = addr4 ∧ addr1 ≠ addr2 ∧ addr1 ≠ addr3) ∨ (addr2 = addr4 ∧ addr1 ≠ addr2 ∧ addr1 ≠ addr3 ∧ addr2 ≠ addr3) ∨
        (addr3 = addr4 ∧ addr1 ≠ addr2 ∧ addr1 ≠ addr3 ∧ addr2 ≠ addr3) ∨
        (addr1 = addr2 ∧ addr2 = addr3 ∧ addr3 = addr4 ∧ increment < 0)
  | _, _ => False

/-! ## Asking -/

namespace StunSlots

/-- The slots hold what was found. -/
structure Holds (s : StunSlots) (found : List (Bytes × UInt16)) : Prop where
  few : found.length ≤ 4
  filled : ∀ (k : Fin 4) (x : Bytes × UInt16), found[k.val]? = some x → s.addr k = x.1 ∧ s.port k = x.2 ∧ x.2 ≠ 0
  free : ∀ k : Fin 4, found.length ≤ k → s.port k = 0

theorem holds_empty : empty.Holds [] := ⟨by decide, by simp, fun _ _ => rfl⟩

section Holds
variable {s : StunSlots} {found : List (Bytes × UInt16)} (holds : s.Holds found)
include holds

theorem Holds.port_eq_zero_iff (k : Fin 4) : s.port k = 0 ↔ found.length ≤ k := by
  constructor
  · intro zero
    by_contra inside
    have there := List.getElem?_eq_getElem (not_le.mp inside)
    obtain ⟨-, port, nonzero⟩ := holds.filled k _ there
    exact nonzero (port.symm.trans zero)
  · exact holds.free k

theorem Holds.missing_eq : s.missing = if h : found.length < 4 then some ⟨found.length, h⟩ else none := by
  have few := holds.few
  unfold missing
  simp only [holds.port_eq_zero_iff]
  generalize found.length = n at few ⊢
  interval_cases n <;> rfl

theorem Holds.set {addr : Bytes} {port : UInt16} (room : found.length < 4) (nonzero : port ≠ 0) :
    (s.set ⟨found.length, room⟩ addr port).Holds (found ++ [(addr, port)]) := by
  constructor
  · rw [List.length_append, List.length_singleton]
    omega
  · intro k x there
    by_cases last : k = ⟨found.length, room⟩
    · subst last
      rw [List.getElem?_concat_length] at there
      obtain rfl := Option.some.inj there
      exact ⟨Function.update_self _ _ _, Function.update_self _ _ _, nonzero⟩
    · have before : k.val < found.length := by
        have bound := (List.getElem?_eq_some_iff.mp there).1
        rw [List.length_append, List.length_singleton] at bound
        have differs : k.val ≠ found.length := fun same => last (Fin.ext same)
        omega
      rw [List.getElem?_append_left before] at there
      obtain ⟨addr', port', nonzero'⟩ := holds.filled k x there
      exact ⟨(Function.update_of_ne last _ _).trans addr', (Function.update_of_ne last _ _).trans port', nonzero'⟩
  · intro k behind
    rw [List.length_append, List.length_singleton] at behind
    have other : k ≠ ⟨found.length, room⟩ := fun same => by
      have value := congrArg Fin.val same
      dsimp only at value
      omega
    exact (Function.update_of_ne other _ _).trans (holds.free k (by omega))

end Holds

theorem Holds.ask {s : StunSlots} {found : List (Bytes × UInt16)} (holds : s.Holds found) {replies : List StunReply}
    (nonzero : ∀ x ∈ (found ++ StunReply.answers replies).take 4, x.2 ≠ 0) :
    (StunSlots.ask replies s).Holds ((found ++ StunReply.answers replies).take 4) := by
  induction replies generalizing s found with
  | nil =>
      rw [StunReply.answers, List.append_nil, List.take_of_length_le holds.few]
      exact holds
  | cons reply replies ih =>
      rw [StunSlots.ask, holds.missing_eq]
      by_cases room : found.length < 4
      · rw [dif_pos room]
        cases reply with
        | socketInvalid =>
            rw [StunReply.answers, List.append_nil, List.take_of_length_le holds.few]
            exact holds
        | failed => exact ih holds nonzero
        | response addr port =>
            rw [StunReply.answers] at nonzero ⊢
            have split : found ++ (addr, port) :: StunReply.answers replies =
                found ++ [(addr, port)] ++ StunReply.answers replies := by simp
            rw [split] at nonzero ⊢
            have here : (addr, port) ∈ (found ++ [(addr, port)] ++ StunReply.answers replies).take 4 := by
              apply List.mem_take_iff_getElem.mpr
              exact ⟨found.length, by simp; omega, by simp⟩
            have next := @Holds.set s found holds addr port room (nonzero _ here)
            dsimp only
            split_ifs with last
            · have full : (found ++ [(addr, port)]).length = 4 := by
                have value := congrArg Fin.val last
                rw [List.length_append, List.length_singleton]
                exact congrArg (· + 1) value
              rw [List.take_append_of_le_length full.ge, List.take_of_length_le full.le]
              exact next
            · exact ih next nonzero
      · rw [dif_neg room]
        have full : found.length = 4 := by
          have few := holds.few
          omega
        have same : (found ++ StunReply.answers (reply :: replies)).take 4 = (found ++ StunReply.answers replies).take 4 := by
          rw [List.take_append_of_le_length full.ge, List.take_append_of_le_length full.ge]
        rw [same] at nonzero ⊢
        exact ih holds nonzero

end StunSlots

/-! ## Increments -/

section Increments
variable {port increment : Int} {port1 port2 port3 port4 : UInt16} (random : Bool)

theorem checkIncrement_self : checkIncrement increment increment random = (increment, random) := by
  rw [checkIncrement, if_neg (not_not.mpr rfl)]

theorem incrementOfSame_eq (first : (port1.toNat : Int) = port) (second : (port2.toNat : Int) = port + increment)
    (third : (port3.toNat : Int) = port + 2 * increment) (fourth : (port4.toNat : Int) = port + 3 * increment) :
    incrementOfSame port1 port2 port3 port4 random = (increment % 2 ^ 16, random) := by
  have difference {a b : UInt16} (apart : (b.toNat : Int) - a.toNat = increment) :
      ((b - a).toNat : Int) = increment % 2 ^ 16 := by
    have low := a.toNat_lt
    have high := b.toNat_lt
    rw [UInt16.toNat_sub]
    omega
  have increment0 : ((port2 - port1).toNat : Int) = increment % 2 ^ 16 := difference (by omega)
  have increment1 : ((port3 - port2).toNat : Int) = increment % 2 ^ 16 := difference (by omega)
  have increment2 : ((port4 - port3).toNat : Int) = increment % 2 ^ 16 := difference (by omega)
  have same : port2 - port1 = port3 - port2 ∧ port3 - port2 = port4 - port3 :=
    ⟨UInt16.toNat_inj.mp (by omega), UInt16.toNat_inj.mp (by omega)⟩
  unfold incrementOfSame
  dsimp only
  rw [if_pos same, increment0]

theorem incrementOfThree_eq {addr1 addr2 addr3 : Bytes} (shared : ¬ [addr1, addr2, addr3].Nodup)
    (first : (port1.toNat : Int) = port) (second : (port2.toNat : Int) = port + increment)
    (third : (port3.toNat : Int) = port + 2 * increment) :
    incrementOfThree addr1 addr2 addr3 port1 port2 port3 random = (increment, random) := by
  have one : (port2.toNat - port1.toNat : Int) = increment := by omega
  have next : (port3.toNat - port2.toNat : Int) = increment := by omega
  have two : (port3.toNat - port1.toNat : Int).tdiv 2 = increment := by
    rw [show (port3.toNat - port1.toNat : Int) = increment * 2 by omega, Int.mul_tdiv_cancel _ (by decide)]
  unfold incrementOfThree
  rw [one, next, two, checkIncrement_self]
  split_ifs with differs outer inner
  · rfl
  · rfl
  · exact absurd (by simp [differs, outer, inner]) shared
  · rfl
  · rfl

theorem incrementOfFour_eq_iff {addr1 addr2 addr3 addr4 : Bytes} (shared : ¬ [addr1, addr2, addr3, addr4].Nodup)
    (nonzero : increment ≠ 0) (small : -(2 ^ 16) < increment ∧ increment < 2 ^ 16)
    (first : (port1.toNat : Int) = port) (second : (port2.toNat : Int) = port + increment)
    (third : (port3.toNat : Int) = port + 2 * increment) (fourth : (port4.toNat : Int) = port + 3 * increment) :
    incrementOfFour addr1 addr2 addr3 addr4 port1 port2 port3 port4 random = (increment, random) ↔
      ¬ Misjudged [addr1, addr2, addr3, addr4] increment := by
  have one : (port2.toNat - port1.toNat : Int) = increment := by omega
  have next : (port3.toNat - port2.toNat : Int) = increment := by omega
  have last : (port4.toNat - port3.toNat : Int) = increment := by omega
  have two : (port3.toNat - port1.toNat : Int).tdiv 2 = increment := by
    rw [show (port3.toNat - port1.toNat : Int) = increment * 2 by omega, Int.mul_tdiv_cancel _ (by decide)]
  have two' : (port4.toNat - port2.toNat : Int).tdiv 2 = increment := by
    rw [show (port4.toNat - port2.toNat : Int) = increment * 2 by omega, Int.mul_tdiv_cancel _ (by decide)]
  have quarter : (port4.toNat - port1.toNat : Int).tdiv 4 ≠ increment := by
    rw [show (port4.toNat - port1.toNat : Int) = 3 * increment by omega]
    intro same
    have size := congrArg Int.natAbs same
    rw [Int.natAbs_tdiv, Int.natAbs_mul] at size
    change 3 * increment.natAbs / 4 = increment.natAbs at size
    omega
  have back : (port3.toNat - port4.toNat : Int) ≠ increment := by omega
  have wrapped : increment % 2 ^ 16 = increment ↔ ¬ increment < 0 := by omega
  unfold incrementOfFour
  rw [one, next, last, two, two', checkIncrement_self, incrementOfSame_eq random first second third fourth]
  unfold Misjudged
  -- in each case the addresses that are the same tell which of the facts above decides
  split_ifs <;> simp_all

end Increments

/-! ## Answers -/

/-- The answers of servers in a row. -/
def reported (addresses : List Bytes) (port increment : Int) : List (Bytes × UInt16) :=
  addresses.mapIdx fun i addr => (addr, UInt16.ofInt (port + i * increment))

theorem toNat_ofInt_eq_iff {n : Int} : ((UInt16.ofInt n).toNat : Int) = n ↔ 0 ≤ n ∧ n ≤ 65535 := by
  have value : (UInt16.ofInt n).toNat = (n % 2 ^ 16).toNat := by
    simp only [UInt16.ofInt, UInt16.toNat_ofNat']
    omega
  rw [value]
  omega

theorem reported_ne_zero {addresses : List Bytes} {port increment : Int} (count : addresses.length ≤ 4)
    (valid : ∀ i : Nat, i ≤ 3 → 1 ≤ port + i * increment ∧ port + i * increment ≤ 65535) :
    ∀ x ∈ reported addresses port increment, x.2 ≠ 0 := by
  intro x member zero
  obtain ⟨i, bound, rfl⟩ := List.mem_mapIdx.mp member
  obtain ⟨low, high⟩ := valid i (by omega)
  have value := toNat_ofInt_eq_iff.mpr ⟨by omega, high⟩
  dsimp only at zero
  rw [zero] at value
  change (0 : Int) = _ at value
  omega

namespace StunSlots

theorem holds_responses {passedServers builtinServers : List StunReply}
    (nonzero : ∀ x ∈ (StunReply.answers passedServers ++ StunReply.answers builtinServers).take 4, x.2 ≠ 0) :
    (let s := ask passedServers empty
      if s.port 3 = 0 then ask builtinServers s else s).Holds
        ((StunReply.answers passedServers ++ StunReply.answers builtinServers).take 4) := by
  have passed : (ask passedServers empty).Holds ((StunReply.answers passedServers).take 4) := by
    apply @Holds.ask empty [] holds_empty passedServers
    intro x member
    rw [List.nil_append] at member
    apply nonzero x
    rw [List.take_append]
    exact List.mem_append_left _ member
  have fourth := passed.port_eq_zero_iff 3
  dsimp only
  by_cases few : (StunReply.answers passedServers).length < 4
  · rw [List.take_of_length_le few.le] at passed fourth
    rw [if_pos (fourth.mpr (Nat.le_of_lt_succ few))]
    exact passed.ask nonzero
  · have full : 4 ≤ (StunReply.answers passedServers).length := not_lt.mp few
    rw [List.take_append_of_le_length full, if_neg]
    · exact passed
    · rw [fourth, List.length_take, Nat.min_eq_left full]
      decide

variable {s : StunSlots} {addresses : List Bytes} {port increment : Int}

theorem Holds.reported (holds : s.Holds (reported addresses port increment)) (k : Fin 4) {addr : Bytes}
    (there : addresses[k.val]? = some addr) (valid : 1 ≤ port + k * increment ∧ port + k * increment ≤ 65535) :
    s.addr k = addr ∧ ((s.port k).toNat : Int) = port + k * increment ∧ s.port k ≠ 0 := by
  obtain ⟨addr', port', nonzero⟩ := holds.filled k (addr, UInt16.ofInt (port + k * increment))
    (by rw [Chiaki.reported, List.getElem?_mapIdx, there]; rfl)
  refine ⟨addr', ?_, by rwa [port']⟩
  rw [port']
  exact toNat_ofInt_eq_iff.mpr ⟨by omega, valid.2⟩

end StunSlots

/-- The allocation is inferred from two, three or four answers exactly when the addresses are not misjudged. -/
theorem infersAllocation_iff (passedServers builtinServers : List StunReply) (out : PortAllocation)
    (addresses : List Bytes) (port increment : Int)
    (count : addresses.length = 2 ∨ addresses.length = 3 ∨ addresses.length = 4)
    (responses : (StunReply.answers passedServers ++ StunReply.answers builtinServers).take 4 =
      reported addresses port increment)
    (nonzero : increment ≠ 0) (valid : ∀ i : Nat, i ≤ 3 → 1 ≤ port + i * increment ∧ port + i * increment ≤ 65535)
    (shared : ¬ addresses.Nodup) :
    InfersAllocation out (stunPortAllocationTest passedServers builtinServers out) port increment ↔
      ¬ Misjudged addresses increment := by
  have holds := @StunSlots.holds_responses passedServers builtinServers
    (responses ▸ reported_ne_zero (by omega) valid)
  rw [responses] at holds
  have start := valid 0 (by decide)
  have last := valid 3 (by decide)
  push_cast at start last
  unfold stunPortAllocationTest
  dsimp only at holds ⊢
  generalize (if (StunSlots.ask passedServers .empty).port 3 = 0 then
    StunSlots.ask builtinServers (StunSlots.ask passedServers .empty) else StunSlots.ask passedServers .empty) = s at holds ⊢
  have size : (reported addresses port increment).length = addresses.length := List.length_mapIdx
  rcases count with two | three | four
  · obtain ⟨addr1, addr2, rfl⟩ := List.length_eq_two.mp two
    obtain ⟨at1, port1, some1⟩ := holds.reported 0 rfl (valid 0 (by decide))
    obtain ⟨at2, port2, some2⟩ := holds.reported 1 rfl (valid 1 (by decide))
    have none3 := holds.free 2 (by rw [size]; exact le_rfl)
    obtain rfl : addr1 = addr2 := by simpa using shared
    have step : incrementOfTwo addr1 addr1 (s.port 0) (s.port 1) = increment := by
      rw [incrementOfTwo, if_neg (not_not.mpr rfl), port1, port2]
      simp
    refine iff_of_true ?_ id
    rw [StunSlots.allocation, if_neg some1, if_neg some2, if_pos none3, at1, at2, step]
    refine ⟨rfl, rfl, ?_, rfl⟩
    dsimp only
    rw [port2]
    apply Eq.trans (toNat_ofInt_eq_iff.mpr ⟨?_, ?_⟩)
    all_goals omega
  · obtain ⟨addr1, addr2, addr3, rfl⟩ := List.length_eq_three.mp three
    obtain ⟨at1, port1, some1⟩ := holds.reported 0 rfl (valid 0 (by decide))
    obtain ⟨at2, port2, some2⟩ := holds.reported 1 rfl (valid 1 (by decide))
    obtain ⟨at3, port3, some3⟩ := holds.reported 2 rfl (valid 2 (by decide))
    have none4 := holds.free 3 (by rw [size]; exact le_rfl)
    have step := incrementOfThree_eq out.randomAllocation shared (by simpa using port1) (by simpa using port2)
      (by simpa using port3)
    refine iff_of_true ?_ id
    rw [StunSlots.allocation, if_neg some1, if_neg some2, if_neg some3, if_pos none4, at1, at2, at3, step]
    refine ⟨rfl, rfl, ?_, rfl⟩
    dsimp only
    rw [port3]
    apply Eq.trans (toNat_ofInt_eq_iff.mpr ⟨?_, ?_⟩)
    all_goals omega
  · obtain ⟨addr1, rest, rfl⟩ := List.exists_cons_of_length_eq_add_one four
    obtain ⟨addr2, addr3, addr4, rfl⟩ := List.length_eq_three.mp (Nat.succ.inj four)
    obtain ⟨at1, port1, some1⟩ := holds.reported 0 rfl (valid 0 (by decide))
    obtain ⟨at2, port2, some2⟩ := holds.reported 1 rfl (valid 1 (by decide))
    obtain ⟨at3, port3, some3⟩ := holds.reported 2 rfl (valid 2 (by decide))
    obtain ⟨at4, port4, some4⟩ := holds.reported 3 rfl (valid 3 (by decide))
    rw [← incrementOfFour_eq_iff out.randomAllocation shared nonzero (by omega) (by simpa using port1)
      (by simpa using port2) (by simpa using port3) (by simpa using port4)]
    rw [StunSlots.allocation, if_neg some1, if_neg some2, if_neg some3, if_neg some4, at1, at2, at3, at4]
    constructor
    · rintro ⟨-, step, -, random⟩
      exact Prod.ext step random
    · intro step
      rw [step]
      exact ⟨rfl, rfl, by simpa using port4, rfl⟩

/-- Three answers in steps of minus two, the first one from another address. -/
theorem infersAllocation_three : InfersAllocation ⟨[], 0, 0, false⟩
    (stunPortAllocationTest [.failed, .response (text "1.2.3.4") 5000]
      [.response (text "5.6.7.8") 4998, .failed, .response (text "5.6.7.8") 4996] ⟨[], 0, 0, false⟩) 5000 (-2) :=
  (infersAllocation_iff [.failed, .response (text "1.2.3.4") 5000]
    [.response (text "5.6.7.8") 4998, .failed, .response (text "5.6.7.8") 4996] ⟨[], 0, 0, false⟩
    [text "1.2.3.4", text "5.6.7.8", text "5.6.7.8"] 5000 (-2) (by decide) (by decide) (by decide)
    (by intro i small; interval_cases i <;> decide) (by decide)).mpr id

/-- Four answers from one address in steps of minus one: the increment is 65535. Only the first and the last address are
the same: a third of the difference would be a step, not a fourth. -/
theorem not_infersAllocation_four :
    ¬ InfersAllocation ⟨[], 0, 0, false⟩
      (stunPortAllocationTest [] [.response [0x31] 5003, .response [0x31] 5002, .response [0x31] 5001,
        .response [0x31] 5000] ⟨[], 0, 0, false⟩) 5003 (-1) ∧
    ¬ InfersAllocation ⟨[], 0, 0, false⟩
      (stunPortAllocationTest [] [.response [0x31] 5000, .response [0x32] 5004, .response [0x33] 5008,
        .response [0x31] 5012] ⟨[], 0, 0, false⟩) 5000 4 := by
  constructor
  · rintro ⟨-, step, -, -⟩
    exact absurd step (by decide)
  · rintro ⟨-, step, -, -⟩
    exact absurd step (by decide)

end Chiaki
