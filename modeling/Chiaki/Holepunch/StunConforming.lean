import Chiaki.Holepunch.Stun
import Chiaki.Lib.Masking
import Chiaki.Lib.Orbit

/-!
# The answers of conforming STUN servers

An attribute is padded to a multiple of four bytes. The loop of `stun_get_external_address_from_server` goes on where
its value ends.
-/

namespace Chiaki
open Memory Orbit

structure StunAttribute where
  type : Nat
  value : Bytes
  padding : Bytes
  type_lt : type < 2 ^ 16
  value_lt : value.length < 2 ^ 16
  padded : (value.length + padding.length) % 4 = 0
  padding_lt : padding.length < 4

namespace StunAttribute

def bytes (a : StunAttribute) : Bytes := htons a.type ++ htons a.value.length ++ a.value ++ a.padding

/-- The attribute has this address, of IPv4: in a plain form, or combined with the magic cookie. -/
def Ipv4 (a : StunAttribute) (mapped : StunMappedAddress) : Prop :=
  ∃ reserved addr port, addr.length = 4 ∧ port < 2 ^ 16 ∧ mapped = ⟨.ipv4 addr, port⟩ ∧
    ((a.type = stunAttribMappedAddress ∧
        a.value = [reserved, stunMappedAddrFamilyIpv4] ++ htons port ++ addr) ∨
      (a.type = stunAttribXorMappedAddress ∧
        a.value = [reserved, stunMappedAddrFamilyIpv4] ++ htons (port ^^^ stunMagicCookie / 2 ^ 16) ++
          xorBytes addr (htonl stunMagicCookie)))

def Ipv6 (a : StunAttribute) : Prop := ∃ reserved port addr, port.length = 2 ∧ addr.length = 16 ∧
  a.value = [reserved, stunMappedAddrFamilyIpv6] ++ port ++ addr

/-- An attribute that the loop skips as it should. -/
def Plain (a : StunAttribute) : Prop := stunAddressType a.type = false ∧ a.value.length % 4 = 0

instance (a : StunAttribute) : Decidable a.Plain := inferInstanceAs (Decidable (_ ∧ _))

end StunAttribute

/-- A response to the request, with this address in the first attribute for an address of IPv4, and some attributes
before it. -/
structure StunConforming (transactionId : Fin stunTransactionIdLength → UInt8) (response : Bytes)
    (before : List StunAttribute) (mapped : StunMappedAddress) : Prop where
  small : response.length ≤ 256
  others : ∀ a ∈ before, stunAddressType a.type = true → a.Ipv6
  attributes : ∃ first after, first.Ipv4 mapped ∧
    StunHeader transactionId response ((before ++ first :: after).flatMap StunAttribute.bytes)

/-- The bytes from a position on are taken for an attribute with this address. -/
def StunDecodes (request response : Bytes) (pos : Nat) (mapped : StunMappedAddress) : Prop :=
  ∃ type length, StunAttributeAt response pos type length ∧ stunAddressType type = true ∧
    stunAddress request response pos (type = stunAttribXorMappedAddress) = .ok (some mapped)

def stunNext (response : Bytes) (pos : Nat) : Option Nat :=
  if pos < response.length then
    match read16 response pos, read16 response (pos + 2) with
    | .ok type, .ok length => if stunAddressType type then none else some (stunNextPos pos length)
    | _, _ => none
  else none

/-- From a position on, the loop comes to an attribute with this address. -/
def StunLeads (request response : Bytes) (pos : Nat) (mapped : StunMappedAddress) : Prop :=
  ∃ n last, after (stunNext response) n pos = some last ∧ StunDecodes request response last mapped

/-- Behind attributes that are skipped as they should there is one that is padded, and its padding and what follows happen to
read as attributes up to the same address. -/
def StunAstray (request response : Bytes) (before : List StunAttribute) (mapped : StunMappedAddress) : Prop :=
  ∃ skipped a others, before = skipped ++ a :: others ∧ (∀ b ∈ skipped, b.Plain) ∧
    stunAddressType a.type = false ∧ a.value.length % 4 ≠ 0 ∧
    StunLeads request response (stunHeaderSize + (skipped.flatMap StunAttribute.bytes).length + (2 + 2 + a.value.length)) mapped

/-! ## The positions -/

section Positions
variable {request response : Bytes} {pos : Nat} {mapped : StunMappedAddress}

theorem stunNext_of_skips {next : Nat} (skips : StunSkips response pos next) : stunNext response pos = some next := by
  obtain ⟨inside, type, length, ⟨atType, atLength⟩, other, rfl⟩ := skips
  rw [stunNext, if_pos inside, atType, atLength]
  simp [other]

theorem skips_of_stunNext {next : Nat} (h : stunNext response pos = some next) : StunSkips response pos next := by
  unfold stunNext at h
  split at h
  · rename_i inside
    cases atType : read16 response pos with
    | error e => simp [atType] at h
    | ok type =>
        cases atLength : read16 response (pos + 2) with
        | error e => simp [atType, atLength] at h
        | ok length =>
            rw [atType, atLength] at h
            dsimp only at h
            cases isAddress : stunAddressType type with
            | true => simp [isAddress] at h
            | false =>
                rw [isAddress, if_neg Bool.false_ne_true] at h
                exact ⟨inside, type, length, ⟨atType, atLength⟩, isAddress, (Option.some.inj h).symm⟩
  · cases h

theorem StunDecodes.inside (decodes : StunDecodes request response pos mapped) : pos < response.length := by
  obtain ⟨type, length, here, -, -⟩ := decodes
  have bound := read16_inside here.1
  omega

theorem StunDecodes.ends (decodes : StunDecodes request response pos mapped) : stunNext response pos = none := by
  have inside := decodes.inside
  obtain ⟨type, length, here, isAddress, -⟩ := decodes
  rw [stunNext, if_pos inside, here.1, here.2]
  simp [isAddress]

theorem StunDecodes.returned (decodes : StunDecodes request response pos mapped) {n start fuel : Nat}
    (reach : after (stunNext response) n start = some pos) (enough : n < fuel) :
    stunAttributes request response fuel start = .ok (some mapped) := by
  induction n generalizing start fuel with
  | zero =>
      obtain rfl := Option.some.inj reach
      obtain ⟨fuel, rfl⟩ := Nat.exists_eq_succ_of_ne_zero enough.ne'
      have inside := decodes.inside
      obtain ⟨type, length, here, isAddress, address⟩ := decodes
      rw [stunAttributes, if_pos inside, here.1, ok_bind, here.2, ok_bind, if_pos isAddress, address]
  | succ n ih =>
      obtain ⟨next, step, later⟩ := Option.bind_eq_some_iff.mp reach
      obtain ⟨fuel, rfl⟩ := Nat.exists_eq_succ_of_ne_zero (Nat.zero_lt_of_lt enough).ne'
      obtain ⟨inside, type, length, here, other, rfl⟩ := skips_of_stunNext step
      rw [stunAttributes, if_pos inside, here.1, ok_bind, here.2, ok_bind, if_neg (by simp [other])]
      exact ih later (Nat.lt_of_succ_lt_succ enough)

theorem StunDecodes.leads (decodes : StunDecodes request response pos mapped) : StunLeads request response pos mapped :=
  ⟨0, pos, rfl, decodes⟩

theorem StunSkips.leads_iff {next : Nat} (skips : StunSkips response pos next) :
    StunLeads request response pos mapped ↔ StunLeads request response next mapped := by
  constructor
  · rintro ⟨n, last, reach, decodes⟩
    cases n with
    | zero =>
        obtain rfl := Option.some.inj reach
        have ends := decodes.ends
        rw [stunNext_of_skips skips] at ends
        cases ends
    | succ n =>
        rw [after, stunNext_of_skips skips, Option.bind_some] at reach
        exact ⟨n, last, reach, decodes⟩
  · rintro ⟨n, last, reach, decodes⟩
    exact ⟨n + 1, last, by rw [after, stunNext_of_skips skips, Option.bind_some, reach], decodes⟩

/-- The loop returns an address exactly when it comes to an attribute with it. -/
theorem stunAttributes_eq_some_iff : stunAttributes request response (response.length + 1) pos = .ok (some mapped) ↔
    StunLeads request response pos mapped := by
  constructor
  · generalize response.length + 1 = fuel
    intro returned
    induction fuel generalizing pos with
    | zero => cases returned
    | succ fuel ih =>
        rcases stunAttributes_round returned with ended | decoded | ⟨type, length, inside, header, other, returned⟩
        · cases ended.2
        · exact StunDecodes.leads decoded
        · exact (StunSkips.leads_iff ⟨inside, type, length, header, other, rfl⟩).mpr (ih returned)
  · rintro ⟨n, last, reach, decodes⟩
    have few : n < (Finset.range response.length).card := by
      apply lt_card_of_ends _ reach decodes.ends
      intro k le x here
      rw [Finset.mem_range]
      rcases Nat.lt_or_eq_of_le le with less | rfl
      · obtain ⟨next, further⟩ := exists_after_of_le (Nat.succ_le_of_lt less) reach
        rw [after_succ, here, Option.bind_some] at further
        exact (skips_of_stunNext further).1
      · obtain rfl := Option.some.inj (here.symm.trans reach)
        exact decodes.inside
    rw [Finset.card_range] at few
    exact decodes.returned reach (Nat.lt_succ_of_lt few)

theorem leads_iff_of_address {type length : Nat} (here : StunAttributeAt response pos type length)
    (isAddress : stunAddressType type = true) :
    StunLeads request response pos mapped ↔
      stunAddress request response pos (type = stunAttribXorMappedAddress) = .ok (some mapped) := by
  have inside := read16_inside here.1
  have ends : stunNext response pos = none := by
    rw [stunNext, if_pos (by omega), here.1, here.2]
    simp [isAddress]
  constructor
  · rintro ⟨n, last, reach, decodes⟩
    cases n with
    | zero =>
        obtain rfl := Option.some.inj reach
        obtain ⟨type', length', here', -, address⟩ := decodes
        obtain rfl := Except.ok.inj (here.1.symm.trans here'.1)
        exact address
    | succ n =>
        rw [after, ends] at reach
        cases reach
  · intro address
    exact StunDecodes.leads ⟨type, length, here, isAddress, address⟩

end Positions

/-! ## The attributes -/

theorem field_behind (front data rest : Bytes) : field (front ++ (data ++ rest)) front.length data.length = .ok data := by
  rw [field_eq (by simp), List.drop_left, List.take_left]

theorem read16_behind (front rest : Bytes) {n : Nat} (small : n < 2 ^ 16) :
    read16 (front ++ (htons n ++ rest)) front.length = .ok n := by
  have bytes := field_behind front (htons n) rest
  rw [length_htons] at bytes
  rw [read16, bytes, ok_bind, ntoh_htons, Nat.mod_eq_of_lt small]
  rfl

theorem byteAt_behind (front rest : Bytes) (b : UInt8) : byteAt (front ++ b :: rest) front.length = .ok b := by
  rw [byteAt, List.getElem?_append_right le_rfl, Nat.sub_self]
  rfl

section Attributes
variable {front rest : Bytes} (a : StunAttribute)

theorem stunAttributeAt_bytes {response : Bytes} (eq : response = front ++ (a.bytes ++ rest)) :
    StunAttributeAt response front.length a.type a.value.length := by
  rw [eq]
  constructor
  · have here := read16_behind front (htons a.value.length ++ a.value ++ a.padding ++ rest) a.type_lt
    simpa only [StunAttribute.bytes, List.append_assoc] using here
  · have here := read16_behind (front ++ htons a.type) (a.value ++ a.padding ++ rest) a.value_lt
    rw [List.length_append, length_htons] at here
    simpa only [StunAttribute.bytes, List.append_assoc] using here

variable {a}

theorem StunAttribute.Plain.padding_eq (plain : a.Plain) : a.padding = [] := by
  have whole := plain.2
  have padded := a.padded
  have short := a.padding_lt
  exact List.length_eq_zero_iff.mp (by omega)

theorem StunAttribute.Plain.skips (plain : a.Plain) (small : (front ++ (a.bytes ++ rest)).length ≤ 256) :
    StunSkips (front ++ (a.bytes ++ rest)) front.length (front ++ a.bytes).length := by
  have size : a.bytes.length = 2 + 2 + a.value.length := by
    rw [StunAttribute.bytes, plain.padding_eq]
    simp only [List.length_append, length_htons, List.length_nil]
    omega
  refine ⟨?_, a.type, a.value.length, stunAttributeAt_bytes a rfl, plain.1, ?_⟩
  · rw [List.length_append, List.length_append, size]
    omega
  · rw [List.length_append, List.length_append] at small
    rw [List.length_append, stunNextPos, ← size, Nat.mod_eq_of_lt (by omega)]

theorem StunAttribute.Plain.leads_iff {skipped : List StunAttribute} {request response : Bytes} {mapped : StunMappedAddress}
    (plain : ∀ a ∈ skipped, a.Plain) (eq : response = front ++ (skipped.flatMap StunAttribute.bytes ++ rest))
    (small : response.length ≤ 256) : StunLeads request response front.length mapped ↔
      StunLeads request response (front ++ skipped.flatMap StunAttribute.bytes).length mapped := by
  induction skipped generalizing front with
  | nil => rw [List.flatMap_nil, List.append_nil]
  | cons a skipped ih =>
      obtain ⟨first, others⟩ := List.forall_mem_cons.mp plain
      rw [List.flatMap_cons, List.append_assoc] at eq
      have skips : StunSkips response front.length (front ++ a.bytes).length := by
        rw [eq] at small ⊢
        exact first.skips small
      rw [skips.leads_iff, ih others (by rw [eq, List.append_assoc]), List.flatMap_cons, ← List.append_assoc]

theorem StunAttribute.leads_iff {request response : Bytes} {mapped : StunMappedAddress} (other : stunAddressType a.type = false)
    (eq : response = front ++ (a.bytes ++ rest)) (small : response.length ≤ 256) :
    StunLeads request response front.length mapped ↔
      StunLeads request response (front.length + (2 + 2 + a.value.length)) mapped := by
  have size : response.length = front.length + (a.bytes.length + rest.length) := by
    rw [eq, List.length_append, List.length_append]
  have bytes : a.bytes.length = 2 + 2 + a.value.length + a.padding.length := by
    simp only [StunAttribute.bytes, List.length_append, length_htons]
  have next : stunNextPos front.length a.value.length = front.length + (2 + 2 + a.value.length) := by
    rw [stunNextPos, Nat.mod_eq_of_lt (by omega)]
  exact StunSkips.leads_iff ⟨by omega, a.type, a.value.length, stunAttributeAt_bytes a eq, other, next.symm⟩

end Attributes

/-! ## The address -/

theorem xorBytes_cancel {a mask : Bytes} (short : a.length ≤ mask.length) : xorBytes (xorBytes a mask) mask = a :=
  Masking.zipWith_cancel _ Masking.xor_undoes short

theorem htons_xor (port : Nat) :
    htons (port ^^^ stunMagicCookie / 2 ^ 16) = xorBytes (htons port) (htonl stunMagicCookie) := by
  have high : stunMagicCookie / 2 ^ 16 / 2 ^ 8 = stunMagicCookie / 2 ^ 24 := by decide
  simp only [htons, htonl, xorBytes, List.zipWith_cons_cons, List.zipWith_nil_left, List.cons.injEq, and_true,
    ← UInt8.toNat_inj, UInt8.toNat_xor, UInt8.toNat_ofNat', Nat.xor_div_two_pow, Nat.xor_mod_two_pow, high]

section Address
variable {front rest response : Bytes} {a : StunAttribute} {mapped : StunMappedAddress}

theorem stunAddress_bytes {reserved family : UInt8} {port addr : Bytes} (two : port.length = 2)
    (value : a.value = [reserved, family] ++ port ++ addr) (eq : response = front ++ (a.bytes ++ rest)) :
    byteAt response (front.length + 5) = .ok family ∧ field response (front.length + 6) 2 = .ok port ∧
      field response (front.length + 8) addr.length = .ok addr := by
  have bytes : a.bytes = htons a.type ++ htons a.value.length ++ ([reserved, family] ++ port ++ addr) ++ a.padding := by
    rw [← value, StunAttribute.bytes]
  rw [eq, bytes]
  refine ⟨?_, ?_, ?_⟩
  · have here := byteAt_behind (front ++ htons a.type ++ htons a.value.length ++ [reserved])
      (port ++ addr ++ a.padding ++ rest) family
    simpa [Nat.add_assoc] using here
  · have here := field_behind (front ++ htons a.type ++ htons a.value.length ++ [reserved, family]) port
      (addr ++ a.padding ++ rest)
    rw [two] at here
    simpa [Nat.add_assoc] using here
  · have here := field_behind (front ++ htons a.type ++ htons a.value.length ++ [reserved, family] ++ port) addr
      (a.padding ++ rest)
    simpa [two, Nat.add_assoc] using here

theorem StunAttribute.Ipv4.address (ipv4 : a.Ipv4 mapped) (request : Bytes) (eq : response = front ++ (a.bytes ++ rest)) :
    stunAddressType a.type = true ∧
      stunAddress request response front.length (a.type = stunAttribXorMappedAddress) = .ok (some mapped) := by
  obtain ⟨reserved, addr, port, four, small, rfl, ⟨type, value⟩ | ⟨type, value⟩⟩ := ipv4
  · obtain ⟨family, portField, addrField⟩ := stunAddress_bytes (length_htons _) value eq
    rw [four] at addrField
    refine ⟨by rw [type]; decide, ?_⟩
    rw [stunAddress, family, ok_bind, if_pos rfl, portField, ok_bind, addrField, ok_bind, type, ntoh_htons,
      Nat.mod_eq_of_lt small]
    rfl
  · obtain ⟨family, portField, addrField⟩ := stunAddress_bytes (length_htons _) value eq
    have short : addr.length ≤ (htonl stunMagicCookie).length := four.le
    have addrLength : (xorBytes addr (htonl stunMagicCookie)).length = 4 := by
      rw [xorBytes, List.length_zipWith, four]
      rfl
    rw [addrLength] at addrField
    have portBack : xorBytes (htons (port ^^^ stunMagicCookie / 2 ^ 16)) (htonl stunMagicCookie) = htons port := by
      rw [htons_xor]
      exact xorBytes_cancel (show 2 ≤ 4 by decide)
    refine ⟨by rw [type]; decide, ?_⟩
    rw [stunAddress, family, ok_bind, if_pos rfl, portField, ok_bind, addrField, ok_bind, type, if_pos (decide_eq_true rfl),
      xorBytes_cancel short, portBack, ntoh_htons, Nat.mod_eq_of_lt small]
    rfl

theorem StunAttribute.Ipv6.address_ne {request : Bytes} {xored : Bool} (ipv6 : a.Ipv6) (eq : response = front ++ (a.bytes ++ rest))
    {addr : Bytes} {port : Nat} : stunAddress request response front.length xored ≠ .ok (some ⟨.ipv4 addr, port⟩) := by
  obtain ⟨reserved, portBytes, addrBytes, two, sixteen, value⟩ := ipv6
  obtain ⟨family, portField, addrField⟩ := stunAddress_bytes two value eq
  rw [sixteen] at addrField
  rw [stunAddress, family, ok_bind, if_neg (by decide), if_pos rfl, portField, ok_bind, addrField, ok_bind]
  cases xored with
  | false => simp [pure, Except.pure]
  | true =>
      cases field request 4 16 with
      | error e =>
          intro same
          cases same
      | ok mask => simp [pure, Except.pure, bind, Except.bind]

end Address

/-! ## The response -/

theorem StunHeader.front {transactionId : Fin stunTransactionIdLength → UInt8} {response attributes : Bytes}
    (header : StunHeader transactionId response attributes) :
    ∃ front : Bytes, front.length = stunHeaderSize ∧ response = front ++ attributes := by
  refine ⟨_, ?_, header.2⟩
  simp only [List.length_append, length_htons, length_htonl, List.length_ofFn]
  rfl

/-- All attributes are skipped as they should be, or there is a first one that is not. -/
theorem exists_first_not_plain (before : List StunAttribute) : (∀ a ∈ before, a.Plain) ∨
    ∃ skipped a others, before = skipped ++ a :: others ∧ (∀ b ∈ skipped, b.Plain) ∧ ¬ a.Plain := by
  induction before with
  | nil => exact .inl (List.forall_mem_nil _)
  | cons a before ih =>
      by_cases plain : a.Plain
      · rcases ih with all | ⟨skipped, b, others, rfl, all, not⟩
        · exact .inl (List.forall_mem_cons.mpr ⟨plain, all⟩)
        · exact .inr ⟨a :: skipped, b, others, rfl, List.forall_mem_cons.mpr ⟨plain, all⟩, not⟩
      · exact .inr ⟨[], a, before, rfl, List.forall_mem_nil _, plain⟩

theorem stunUnderstood_iff {transactionId : Fin stunTransactionIdLength → UInt8} {response : Bytes}
    {before : List StunAttribute} {mapped : StunMappedAddress}
    (conforming : StunConforming transactionId response before mapped) :
    stunResponse (stunBindingRequest transactionId) response = .ok (some mapped) ↔
      (∀ a ∈ before, a.Plain) ∨ StunAstray (stunBindingRequest transactionId) response before mapped := by
  obtain ⟨small, others, first, later, ipv4, header⟩ := conforming
  obtain ⟨front, twenty, eq⟩ := header.front
  rw [header.parsed, stunAttributes_eq_some_iff, ← twenty]
  constructor
  · intro leads
    rcases exists_first_not_plain before with all | ⟨skipped, a, rest, rfl, all, not⟩
    · exact .inl all
    have parts : response = front ++ (skipped.flatMap StunAttribute.bytes ++
        (a.bytes ++ (rest ++ first :: later).flatMap StunAttribute.bytes)) := by
      rw [eq]
      simp only [List.flatMap_append, List.flatMap_cons, List.append_assoc]
    rw [StunAttribute.Plain.leads_iff all parts small] at leads
    rw [← List.append_assoc] at parts
    right
    cases address : stunAddressType a.type with
    | true =>
        rw [leads_iff_of_address (stunAttributeAt_bytes a parts) address] at leads
        obtain ⟨-, addr, port, -, -, rfl, -⟩ := ipv4
        exact absurd leads ((others a (by simp) address).address_ne parts)
    | false =>
        rw [StunAttribute.leads_iff address parts small, List.length_append, twenty] at leads
        exact ⟨skipped, a, rest, rfl, all, address, fun whole => not ⟨address, whole⟩, leads⟩
  · rintro (all | ⟨skipped, a, rest, rfl, all, address, -, leads⟩)
    · have parts : response = front ++ (before.flatMap StunAttribute.bytes ++
          (first.bytes ++ later.flatMap StunAttribute.bytes)) := by
        rw [eq, List.flatMap_append, List.flatMap_cons]
      rw [StunAttribute.Plain.leads_iff all parts small]
      rw [← List.append_assoc] at parts
      obtain ⟨isAddress, returned⟩ := ipv4.address (stunBindingRequest transactionId) parts
      exact (leads_iff_of_address (stunAttributeAt_bytes first parts) isAddress).mpr returned
    · have parts : response = front ++ (skipped.flatMap StunAttribute.bytes ++
          (a.bytes ++ (rest ++ first :: later).flatMap StunAttribute.bytes)) := by
        rw [eq]
        simp only [List.flatMap_append, List.flatMap_cons, List.append_assoc]
      rw [StunAttribute.Plain.leads_iff all parts small]
      rw [← List.append_assoc] at parts
      rw [StunAttribute.leads_iff address parts small, List.length_append, twenty]
      exact leads

/-- 192.0.2.1:32853, combined with the magic cookie. -/
def xorMapped : StunAttribute :=
  ⟨stunAttribXorMappedAddress, [0, 1, 0xa1, 0x47, 0xe1, 0x12, 0xa6, 0x43], [], by decide, by decide, rfl, by decide⟩

theorem StunConforming.behind_name {name : StunAttribute} {response : Bytes} (small : response.length ≤ 256)
    (other : stunAddressType name.type = false)
    (header : StunHeader (fun _ => 0) response ([name, xorMapped].flatMap StunAttribute.bytes)) :
    StunConforming (fun _ => 0) response [name] ⟨.ipv4 [192, 0, 2, 1], 32853⟩ := by
  refine ⟨small, ?_, xorMapped, [], ?_, header⟩
  · intro a member address
    rw [List.mem_singleton.mp member, other] at address
    cases address
  · exact ⟨0, [192, 0, 2, 1], 32853, rfl, by decide, rfl, .inr ⟨rfl, by decide⟩⟩

/-- A response with the name of a software before the address. -/
def namedResponse (name padding : Bytes) : Bytes :=
  htons stunMsgTypeBindingResponse ++ htons 20 ++ htonl stunMagicCookie ++ List.replicate stunTransactionIdLength 0 ++
    htons 0x8022 ++ htons name.length ++ name ++ padding ++ xorMapped.bytes

theorem stunUnderstood_named : stunResponse (stunBindingRequest fun _ => 0) (namedResponse [115, 116, 117, 110] []) =
    .ok (some ⟨.ipv4 [192, 0, 2, 1], 32853⟩) := by
  have conforming : StunConforming (fun _ => 0) (namedResponse [115, 116, 117, 110] [])
      [⟨0x8022, [115, 116, 117, 110], [], by decide, by decide, rfl, by decide⟩] ⟨.ipv4 [192, 0, 2, 1], 32853⟩ :=
    .behind_name (by decide) rfl ⟨by decide, rfl⟩
  exact (stunUnderstood_iff conforming).mpr (.inl (by decide))

/-- The name has two bytes of padding. -/
theorem not_stunUnderstood : StunConforming (fun _ => 0) (namedResponse [99, 111] [0, 0])
    [⟨0x8022, [99, 111], [0, 0], by decide, by decide, rfl, by decide⟩] ⟨.ipv4 [192, 0, 2, 1], 32853⟩ ∧
      stunResponse (stunBindingRequest fun _ => 0) (namedResponse [99, 111] [0, 0]) = .ok none :=
  ⟨.behind_name (by decide) rfl ⟨by decide, rfl⟩, by decide +kernel⟩

end Chiaki
