import Chiaki.Http.HeaderLines
import Chiaki.Regist.Hex

/-!
# The payload of a registration response

`regist_parse_response_payload`: which headers are accepted, and what is in the host when the function succeeds.
-/

namespace Chiaki
open Memory

inductive Target where
  | ps4Unknown | ps4_8 | ps4_9 | ps4_10 | ps5Unknown | ps5_1
  deriving DecidableEq, Repr

def Target.value : Target → Nat
  | ps4Unknown => 0
  | ps4_8 => 800
  | ps4_9 => 900
  | ps4_10 => 1000
  | ps5Unknown => 1000000
  | ps5_1 => 1000100

/-- `chiaki_target_is_ps5`. -/
def Target.isPs5 (target : Target) : Bool := Target.value ps5Unknown ≤ target.value

/-- `ChiakiRegisteredHost`. -/
structure RegisteredHost where
  target : Target
  apSsid : Bytes
  apBssid : Bytes
  apKey : Bytes
  apName : Bytes
  serverMac : Bytes
  serverNickname : Bytes
  rpRegistKey : Bytes
  rpKeyType : Nat
  rpKey : Bytes
  consolePin : Nat
  deriving DecidableEq

namespace RegisteredHost

structure Sized (host : RegisteredHost) : Prop where
  apSsid : host.apSsid.length = 0x30
  apBssid : host.apBssid.length = 0x20
  apKey : host.apKey.length = 0x50
  apName : host.apName.length = 0x20
  serverMac : host.serverMac.length = 6
  serverNickname : host.serverNickname.length = 0x20
  rpRegistKey : host.rpRegistKey.length = 0x10
  rpKey : host.rpKey.length = 0x10

/-- Every byte is zero. -/
def zero : RegisteredHost where
  target := .ps4Unknown
  apSsid := List.replicate 0x30 0
  apBssid := List.replicate 0x20 0
  apKey := List.replicate 0x50 0
  apName := List.replicate 0x20 0
  serverMac := List.replicate 6 0
  serverNickname := List.replicate 0x20 0
  rpRegistKey := List.replicate 0x10 0
  rpKeyType := 0
  rpKey := List.replicate 0x10 0
  consolePin := 0

end RegisteredHost

structure RegistParse where
  host : RegisteredHost
  macFound : Bool
  registKeyFound : Bool
  keyFound : Bool

/-- `memset` of a block with zeros. -/
def cleared (block : Bytes) : Bytes := List.replicate block.length 0

/-- `COPY_STRING`: a value that is too long is left out. -/
def copyString (dest value : Bytes) : Checked Bytes :=
  if dest.length ≤ value.length then pure dest else setField dest 0 (value ++ [0])

/-- A round of the loop of `regist_parse_response_payload`. -/
def registHeader (ps5 : Bool) (s : RegistParse) (header : Bytes × Bytes) : Checked RegistParse := do
  let (key, value) := header
  if key = text "AP-Ssid" then do
    let apSsid ← copyString s.host.apSsid value
    pure { s with host := { s.host with apSsid := apSsid } }
  else if key = text "AP-Bssid" then do
    let apBssid ← copyString s.host.apBssid value
    pure { s with host := { s.host with apBssid := apBssid } }
  else if key = text "AP-Key" then do
    let apKey ← copyString s.host.apKey value
    pure { s with host := { s.host with apKey := apKey } }
  else if key = text "AP-Name" then do
    let apName ← copyString s.host.apName value
    pure { s with host := { s.host with apName := apName } }
  else if key = text (if ps5 then "PS5-Nickname" else "PS4-Nickname") then do
    let serverNickname ← copyString s.host.serverNickname value
    pure { s with host := { s.host with serverNickname := serverNickname } }
  else if key = text (if ps5 then "PS5-RegistKey" else "PS4-RegistKey") then do
    let (rpRegistKey, outcome) ← parseHex (cleared s.host.rpRegistKey) value
    match outcome with
    | .error _ => pure { s with host := { s.host with rpRegistKey := cleared rpRegistKey } }
    | .ok _ => pure { s with host := { s.host with rpRegistKey := rpRegistKey }, registKeyFound := true }
  else if key = text "RP-KeyType" then
    pure { s with host := { s.host with rpKeyType := strtoul value % 2 ^ 32 } }
  else if key = text "RP-Key" then do
    let (rpKey, outcome) ← parseHex s.host.rpKey value
    if outcome = .ok rpKey.length then pure { s with host := { s.host with rpKey := rpKey }, keyFound := true }
    else pure { s with host := { s.host with rpKey := cleared rpKey } }
  else if key = text (if ps5 then "PS5-Mac" else "PS4-Mac") then do
    let (serverMac, outcome) ← parseHex s.host.serverMac value
    if outcome = .ok serverMac.length then pure { s with host := { s.host with serverMac := serverMac }, macFound := true }
    else pure { s with host := { s.host with serverMac := cleared serverMac } }
  -- RP-SupportCmd and unknown keys are only logged
  else pure s

/-- `regist_parse_response_payload`: the host and the error code. -/
def registParseResponsePayload (malloc : Nat → Bool) (target : Target) (host : RegisteredHost) (buf : Bytes) :
    Checked (RegisteredHost × ErrorCode) := do
  let headers ← httpHeaderParse malloc buf
  if headers.err ≠ .success then pure (host, headers.err)
  else do
    let s ← headers.strings.foldlM (registHeader target.isPs5)
      ⟨{ RegisteredHost.zero with target := target }, false, false, false⟩
    if s.registKeyFound && s.keyFound && s.macFound then pure (s.host, .success) else pure (s.host, .invalidResponse)

/-! ## The required keys -/

inductive RequiredKey where
  | serverMac
  | registKey
  | rpKey
  deriving DecidableEq

namespace RequiredKey

def name (ps5 : Bool) : RequiredKey → Bytes
  | serverMac => text (if ps5 then "PS5-Mac" else "PS4-Mac")
  | registKey => text (if ps5 then "PS5-RegistKey" else "PS4-RegistKey")
  | rpKey => text "RP-Key"

def size : RequiredKey → Nat
  | serverMac => 6
  | registKey => 0x10
  | rpKey => 0x10

def stored (host : RegisteredHost) : RequiredKey → Bytes
  | serverMac => host.serverMac
  | registKey => host.rpRegistKey
  | rpKey => host.rpKey

def found (s : RegistParse) : RequiredKey → Bool
  | serverMac => s.macFound
  | registKey => s.registKeyFound
  | rpKey => s.keyFound

/-- What a header value means. A registration key may be shorter, and is padded with zeros. -/
def decode (k : RequiredKey) (value : Bytes) : Option Bytes :=
  match k with
  | registKey => ((decodeHex value).filter (·.length ≤ k.size)).map fun bytes =>
      bytes ++ List.replicate (k.size - bytes.length) 0
  | _ => (decodeHex value).filter (·.length = k.size)

def zeros (k : RequiredKey) : Bytes := List.replicate k.size 0

/-- What a header makes of the stored value and of the flag that it was found. -/
def next (k : RequiredKey) (ps5 : Bool) (state : Bytes × Bool) (header : Bytes × Bytes) : Bytes × Bool :=
  if header.1 = k.name ps5 then
    match k.decode header.2 with
    | some key => (key, true)
    | none => (k.zeros, state.2)
  else state

def view (s : RegistParse) (k : RequiredKey) : Bytes × Bool := (k.stored s.host, k.found s)

end RequiredKey

theorem copyString_ok (dest value : Bytes) :
    ∃ dest', copyString dest value = .ok dest' ∧ dest'.length = dest.length := by
  rw [copyString]
  split
  · exact ⟨dest, rfl, rfl⟩
  · rename_i short
    obtain ⟨dest', set, -, length⟩ := @setField_ok dest (value ++ [0]) 0 (by simp; omega)
    exact ⟨dest', set, length⟩

namespace RequiredKey

theorem name_injective {ps5 : Bool} {k k' : RequiredKey} (same : k.name ps5 = k'.name ps5) : k = k' := by
  revert same
  cases ps5 <;> cases k <;> cases k' <;> decide

theorem next_other {k : RequiredKey} {ps5 : Bool} {header : Bytes × Bytes} (other : header.1 ≠ k.name ps5)
    (state : Bytes × Bool) : k.next ps5 state header = state := if_neg other

theorem next_name (k k' : RequiredKey) (ps5 : Bool) (state : Bytes × Bool) (value : Bytes) :
    k.next ps5 state (k'.name ps5, value) = if k = k' then (((k.decode value).getD k.zeros), (k.decode value).isSome || state.2)
      else state := by
  by_cases same : k = k'
  · obtain rfl := same
    rw [next, if_pos rfl, if_pos rfl]
    cases k.decode value <;> rfl
  · rw [if_neg same]
    exact next_other (fun names => same (name_injective names).symm) state

end RequiredKey

namespace RequiredKey

/-- The other headers that are known. -/
def otherNames (ps5 : Bool) : List Bytes := [text "AP-Ssid", text "AP-Bssid", text "AP-Key", text "AP-Name",
  text (if ps5 then "PS5-Nickname" else "PS4-Nickname"), text "RP-KeyType"]

theorem name_other (k : RequiredKey) (ps5 : Bool) : k.name ps5 ∉ otherNames ps5 := by
  cases ps5 <;> cases k <;> decide

theorem view_other {ps5 : Bool} {s s' : RegistParse} {header : Bytes × Bytes} (other : header.1 ∈ otherNames ps5)
    (same : ∀ k : RequiredKey, k.view s' = k.view s) (k : RequiredKey) : k.view s' = k.next ps5 (k.view s) header := by
  rw [same, next_other]
  intro isKey
  exact k.name_other ps5 (isKey ▸ other)

end RequiredKey

@[simp] theorem length_cleared (block : Bytes) : (cleared block).length = block.length := List.length_replicate

theorem registHeader_eq {ps5 : Bool} {s : RegistParse} (sized : s.host.Sized) (header : Bytes × Bytes) :
    ∃ s', registHeader ps5 s header = .ok s' ∧ s'.host.Sized ∧ ∀ k : RequiredKey, k.view s' = k.next ps5 (k.view s) header := by
  obtain ⟨key, value⟩ := header
  rw [registHeader]
  by_cases isSsid : key = text "AP-Ssid"
  · obtain ⟨copy, copied, size⟩ := copyString_ok s.host.apSsid value
    rw [if_pos isSsid, copied]
    refine ⟨_, rfl, { sized with apSsid := size.trans sized.apSsid }, RequiredKey.view_other ?_ fun k => by cases k <;> rfl⟩
    simp [RequiredKey.otherNames, isSsid]
  rw [if_neg isSsid]
  by_cases isBssid : key = text "AP-Bssid"
  · obtain ⟨copy, copied, size⟩ := copyString_ok s.host.apBssid value
    rw [if_pos isBssid, copied]
    refine ⟨_, rfl, { sized with apBssid := size.trans sized.apBssid }, RequiredKey.view_other ?_ fun k => by cases k <;> rfl⟩
    simp [RequiredKey.otherNames, isBssid]
  rw [if_neg isBssid]
  by_cases isApKey : key = text "AP-Key"
  · obtain ⟨copy, copied, size⟩ := copyString_ok s.host.apKey value
    rw [if_pos isApKey, copied]
    refine ⟨_, rfl, { sized with apKey := size.trans sized.apKey }, RequiredKey.view_other ?_ fun k => by cases k <;> rfl⟩
    simp [RequiredKey.otherNames, isApKey]
  rw [if_neg isApKey]
  by_cases isApName : key = text "AP-Name"
  · obtain ⟨copy, copied, size⟩ := copyString_ok s.host.apName value
    rw [if_pos isApName, copied]
    refine ⟨_, rfl, { sized with apName := size.trans sized.apName }, RequiredKey.view_other ?_ fun k => by cases k <;> rfl⟩
    simp [RequiredKey.otherNames, isApName]
  rw [if_neg isApName]
  by_cases isNickname : key = text (if ps5 then "PS5-Nickname" else "PS4-Nickname")
  · obtain ⟨copy, copied, size⟩ := copyString_ok s.host.serverNickname value
    rw [if_pos isNickname, copied]
    refine ⟨_, rfl, { sized with serverNickname := size.trans sized.serverNickname }, RequiredKey.view_other ?_ fun k => by cases k <;> rfl⟩
    simp [RequiredKey.otherNames, isNickname]
  rw [if_neg isNickname]
  by_cases isRegistKey : key = text (if ps5 then "PS5-RegistKey" else "PS4-RegistKey")
  · rw [if_pos isRegistKey]
    obtain rfl : key = RequiredKey.registKey.name ps5 := isRegistKey
    obtain ⟨block, outcome, parsed, size, told⟩ := parseHex_eq (cleared s.host.rpRegistKey) value
    rw [length_cleared, sized.rpRegistKey] at told size
    rw [parsed, ok_bind]
    dsimp only
    cases decoded : (decodeHex value).filter (·.length ≤ 0x10) with
    | none =>
        rw [decoded] at told
        obtain ⟨err, rfl⟩ := told
        have decode : RequiredKey.registKey.decode value = none := congrArg (Option.map _) decoded
        refine ⟨_, rfl, { sized with rpRegistKey := (length_cleared block).trans size }, ?_⟩
        intro k
        rw [RequiredKey.next_name]
        cases k <;> simp [decode, RequiredKey.view, RequiredKey.stored, RequiredKey.found, RequiredKey.zeros, RequiredKey.size,
          cleared, size]
    | some bytes =>
        rw [decoded] at told
        obtain ⟨rfl, rfl⟩ := told
        have decode : RequiredKey.registKey.decode value = some (bytes ++ List.replicate (0x10 - bytes.length) 0) :=
          congrArg (Option.map _) decoded
        have padded : (cleared s.host.rpRegistKey).drop bytes.length = List.replicate (0x10 - bytes.length) 0 := by
          rw [cleared, List.drop_replicate, sized.rpRegistKey]
        refine ⟨_, rfl, { sized with rpRegistKey := size }, ?_⟩
        intro k
        rw [RequiredKey.next_name]
        cases k <;> simp [decode, padded, RequiredKey.view, RequiredKey.stored, RequiredKey.found]
  rw [if_neg isRegistKey]
  by_cases isKeyType : key = text "RP-KeyType"
  · rw [if_pos isKeyType]
    refine ⟨_, rfl, { sized with }, RequiredKey.view_other ?_ fun k => by cases k <;> rfl⟩
    simp [RequiredKey.otherNames, isKeyType]
  rw [if_neg isKeyType]
  by_cases isKey : key = text "RP-Key"
  · rw [if_pos isKey]
    obtain rfl : key = RequiredKey.rpKey.name ps5 := isKey
    have decode : RequiredKey.rpKey.decode value = (decodeHex value).filter (·.length = s.host.rpKey.length) := by
      rw [sized.rpKey]
      rfl
    obtain ⟨block, outcome, parsed, size, told⟩ := parseHex_full s.host.rpKey value
    rw [← decode] at told
    rw [parsed, ok_bind]
    dsimp only
    cases decoded : RequiredKey.rpKey.decode value with
    | none =>
        rw [decoded] at told
        rw [if_neg told]
        refine ⟨_, rfl, { sized with rpKey := by rw [length_cleared, size, sized.rpKey] }, ?_⟩
        intro k
        rw [RequiredKey.next_name]
        cases k <;> simp [decoded, RequiredKey.view, RequiredKey.stored, RequiredKey.found, RequiredKey.zeros, RequiredKey.size,
          cleared, size, sized.rpKey]
    | some bytes =>
        rw [decoded] at told
        rw [if_pos told.1]
        refine ⟨_, rfl, { sized with rpKey := size.trans sized.rpKey }, ?_⟩
        intro k
        rw [RequiredKey.next_name]
        cases k <;> simp [decoded, RequiredKey.view, RequiredKey.stored, RequiredKey.found, told.2]
  rw [if_neg isKey]
  by_cases isMac : key = text (if ps5 then "PS5-Mac" else "PS4-Mac")
  · rw [if_pos isMac]
    obtain rfl : key = RequiredKey.serverMac.name ps5 := isMac
    have decode : RequiredKey.serverMac.decode value = (decodeHex value).filter (·.length = s.host.serverMac.length) := by
      rw [sized.serverMac]
      rfl
    obtain ⟨block, outcome, parsed, size, told⟩ := parseHex_full s.host.serverMac value
    rw [← decode] at told
    rw [parsed, ok_bind]
    dsimp only
    cases decoded : RequiredKey.serverMac.decode value with
    | none =>
        rw [decoded] at told
        rw [if_neg told]
        refine ⟨_, rfl, { sized with serverMac := by rw [length_cleared, size, sized.serverMac] }, ?_⟩
        intro k
        rw [RequiredKey.next_name]
        cases k <;> simp [decoded, RequiredKey.view, RequiredKey.stored, RequiredKey.found, RequiredKey.zeros, RequiredKey.size,
          cleared, size, sized.serverMac]
    | some bytes =>
        rw [decoded] at told
        rw [if_pos told.1]
        refine ⟨_, rfl, { sized with serverMac := size.trans sized.serverMac }, ?_⟩
        intro k
        rw [RequiredKey.next_name]
        cases k <;> simp [decoded, RequiredKey.view, RequiredKey.stored, RequiredKey.found, told.2]
  rw [if_neg isMac]
  refine ⟨s, rfl, sized, ?_⟩
  intro k
  refine (RequiredKey.next_other ?_ _).symm
  cases k <;> assumption

theorem registHeaders_eq {ps5 : Bool} (headers : List (Bytes × Bytes)) {s : RegistParse} (sized : s.host.Sized) :
    ∃ s', headers.foldlM (registHeader ps5) s = .ok s' ∧ s'.host.Sized ∧
      ∀ k : RequiredKey, k.view s' = headers.foldl (k.next ps5) (k.view s) := by
  induction headers generalizing s with
  | nil => exact ⟨s, rfl, sized, fun _ => rfl⟩
  | cons header headers ih =>
      obtain ⟨mid, stepped, midSized, views⟩ := registHeader_eq sized header
      obtain ⟨s', ran, sized', later⟩ := ih midSized
      refine ⟨s', ?_, sized', ?_⟩
      · rw [List.foldlM_cons, stepped, ok_bind, ran]
      · intro k
        rw [later, views, List.foldl_cons]

/-! ## Which header decides -/

namespace RequiredKey

/-- The value of the first header with the name of the key. -/
def first (k : RequiredKey) (ps5 : Bool) (headers : List (Bytes × Bytes)) : Option Bytes :=
  (headers.find? (·.1 = k.name ps5)).map (·.2)

/-- A header with the name of the key can be decoded. -/
def Present (k : RequiredKey) (ps5 : Bool) (headers : List (Bytes × Bytes)) : Prop :=
  ∃ value key, (k.name ps5, value) ∈ headers ∧ k.decode value = some key

/-- The value is not empty and means the key. -/
def Means (k : RequiredKey) (value key : Bytes) : Prop := value ≠ [] ∧ k.decode value = some key

theorem foldr_next (k : RequiredKey) (ps5 : Bool) (headers : List (Bytes × Bytes)) :
    (headers.foldr (fun header state => k.next ps5 state header) (k.zeros, false)).1 =
        ((k.first ps5 headers).bind k.decode).getD k.zeros ∧
      ((headers.foldr (fun header state => k.next ps5 state header) (k.zeros, false)).2 = true ↔ k.Present ps5 headers) := by
  induction headers with
  | nil =>
      refine ⟨rfl, ?_⟩
      simp [Present]
  | cons header headers ih =>
      obtain ⟨name, value⟩ := header
      rw [List.foldr_cons]
      by_cases same : name = k.name ps5
      · obtain rfl := same
        rw [next_name, if_pos rfl, first, List.find?_cons_of_pos (by simp)]
        refine ⟨rfl, ?_⟩
        rw [Bool.or_eq_true, ih.2, Option.isSome_iff_exists]
        constructor
        · rintro (⟨key, decoded⟩ | ⟨value, key, member, decoded⟩)
          · exact ⟨value, key, List.mem_cons_self, decoded⟩
          · exact ⟨value, key, List.mem_cons_of_mem _ member, decoded⟩
        · rintro ⟨value', key, member, decoded⟩
          rcases List.mem_cons.mp member with same | member
          · obtain rfl := congrArg Prod.snd same
            exact .inl ⟨key, decoded⟩
          · exact .inr ⟨value', key, member, decoded⟩
      · rw [next_other same, first, List.find?_cons_of_neg (by simpa using same)]
        refine ⟨ih.1, ih.2.trans ?_⟩
        constructor
        · rintro ⟨value, key, member, decoded⟩
          exact ⟨value, key, List.mem_cons_of_mem _ member, decoded⟩
        · rintro ⟨value', key, member, decoded⟩
          rcases List.mem_cons.mp member with isFirst | member
          · exact absurd (congrArg Prod.fst isFirst).symm same
          · exact ⟨value', key, member, decoded⟩

theorem first_cases (k : RequiredKey) (ps5 : Bool) (headers : List (Bytes × Bytes)) :
    (∃ value, k.first ps5 headers = some value ∧ k.Means value (((k.first ps5 headers).bind k.decode).getD k.zeros)) ∨
      ((k.first ps5 headers).bind k.decode).getD k.zeros = k.zeros := by
  cases first : k.first ps5 headers with
  | none => exact .inr rfl
  | some value =>
      cases decoded : k.decode value with
      | none => exact .inr (by rw [Option.bind_some, decoded]; rfl)
      | some key =>
          by_cases empty : value = []
          · obtain rfl := empty
            right
            rw [Option.bind_some]
            cases k <;> rfl
          · refine .inl ⟨value, rfl, empty, ?_⟩
            rw [Option.bind_some, decoded, Option.getD_some]

theorem mem_of_first {k : RequiredKey} {ps5 : Bool} {headers : List (Bytes × Bytes)} {value : Bytes}
    (first : k.first ps5 headers = some value) : (k.name ps5, value) ∈ headers := by
  obtain ⟨header, found, rfl⟩ := Option.map_eq_some_iff.mp first
  have name : header.1 = k.name ps5 := by simpa using List.find?_some found
  rw [← name]
  exact List.mem_of_find?_eq_some found

end RequiredKey

theorem registParseResponsePayload_eq (malloc : Nat → Bool) (target : Target) (host : RegisteredHost) {payload : Bytes}
    {r : Option (List (Bytes × Bytes))} (lines : HttpLines payload r) :
    ∃ host' err, registParseResponsePayload malloc target host payload = .ok (host', err) ∧
      (err = .success → ∃ headers, r = some headers ∧ ∀ k : RequiredKey, k.Present target.isPs5 headers ∧
        k.stored host' = ((k.first target.isPs5 headers).bind k.decode).getD k.zeros) ∧
      ((∀ n, malloc n = true) → ∀ headers, r = some headers → (∀ k : RequiredKey, k.Present target.isPs5 headers) →
        err = .success) := by
  obtain ⟨result, parsed, outcome⟩ := httpHeaderParse_lines malloc lines
  rw [registParseResponsePayload, parsed, ok_bind]
  by_cases ok : result.err = .success
  · rw [if_neg (not_not.mpr ok)]
    cases r with
    | none => rcases outcome with err | ⟨err, -⟩ <;> simp [ok] at err
    | some headers =>
        have strings := (outcome.resolve_right fun failed => by simp [ok] at failed).2
        rw [List.append_nil] at strings
        let start : RegistParse := ⟨{ RegisteredHost.zero with target := target }, false, false, false⟩
        have sized : start.host.Sized := ⟨rfl, rfl, rfl, rfl, rfl, rfl, rfl, rfl⟩
        obtain ⟨s, ran, -, views⟩ := @registHeaders_eq target.isPs5 headers.reverse start sized
        have view (k : RequiredKey) : k.view s = headers.foldr (fun header state => k.next target.isPs5 state header) (k.zeros, false) := by
          rw [views k, List.foldl_reverse]
          cases k <;> rfl
        have stored (k : RequiredKey) : k.stored s.host = ((k.first target.isPs5 headers).bind k.decode).getD k.zeros := by
          rw [← (k.foldr_next target.isPs5 headers).1, ← view]
          rfl
        have found (k : RequiredKey) : k.found s = true ↔ k.Present target.isPs5 headers := by
          rw [← (k.foldr_next target.isPs5 headers).2, ← view]
          rfl
        rw [strings, ran, ok_bind]
        split
        · rename_i all
          rw [Bool.and_eq_true, Bool.and_eq_true] at all
          refine ⟨s.host, .success, rfl, ?_, fun _ _ _ _ => rfl⟩
          refine fun _ => ⟨headers, rfl, fun k => ⟨(found k).mp ?_, stored k⟩⟩
          cases k
          · exact all.2
          · exact all.1.1
          · exact all.1.2
        · rename_i missing
          refine ⟨s.host, .invalidResponse, rfl, nofun, ?_⟩
          rintro - headers' same present
          obtain rfl := Option.some.inj same
          have mac : s.macFound = true := (found .serverMac).mpr (present _)
          have registKey : s.registKeyFound = true := (found .registKey).mpr (present _)
          have key : s.keyFound = true := (found .rpKey).mpr (present _)
          simp [mac, registKey, key] at missing
  · rw [if_pos ok]
    refine ⟨host, result.err, rfl, fun same => absurd same ok, ?_⟩
    rintro granted headers rfl -
    rcases outcome with ⟨same, -⟩ | ⟨-, n, refused⟩
    · exact same
    · rw [granted n] at refused
      cases refused

/-- If the function succeeds, each required key is what a header of the payload means. -/
def RegistKeysComplete (target : Target) (payload : Bytes) : Prop := ∀ malloc host, ∃ host' err,
  registParseResponsePayload malloc target host payload = .ok (host', err) ∧ (err = .success →
    ∀ k : RequiredKey, ∃ headers value, HttpLines payload (some headers) ∧ (k.name target.isPs5, value) ∈ headers ∧
      k.Means value (k.stored host'))

/-- The first header of each required key can be decoded, or another one means zeros; unless a key has no such header. -/
def RegistFirstHeaders (target : Target) (payload : Bytes) : Prop := ∀ headers, HttpLines payload (some headers) →
  (∀ k : RequiredKey, k.Present target.isPs5 headers) → ∀ k : RequiredKey,
    (∃ value key, k.first target.isPs5 headers = some value ∧ k.Means value key) ∨
      ∃ value, (k.name target.isPs5, value) ∈ headers ∧ k.Means value k.zeros

theorem registKeysComplete_iff (target : Target) (payload : Bytes) :
    RegistKeysComplete target payload ↔ RegistFirstHeaders target payload := by
  obtain ⟨r, lines⟩ := exists_httpLines payload
  constructor
  · intro complete headers lines' present k
    obtain rfl := lines.unique lines'
    obtain ⟨host, err, ran, told⟩ := complete (fun _ => true) .zero
    obtain ⟨host', err', ran', outcome, accepted⟩ := registParseResponsePayload_eq (fun _ => true) target .zero lines
    obtain ⟨rfl, rfl⟩ := Prod.mk.inj (Except.ok.inj (ran.symm.trans ran'))
    have ok := accepted (fun _ => rfl) headers rfl present
    obtain ⟨headers', same, stored⟩ := outcome ok
    obtain rfl := Option.some.inj same
    rcases k.first_cases target.isPs5 headers with ⟨value, first, isMeant⟩ | zeros
    · exact .inl ⟨value, _, first, isMeant⟩
    · obtain ⟨headers'', value, lines'', member, isMeant⟩ := told ok k
      obtain rfl := Option.some.inj (lines.unique lines'')
      rw [(stored k).2, zeros] at isMeant
      exact .inr ⟨value, member, isMeant⟩
  · intro first malloc host
    obtain ⟨host', err, ran, outcome, -⟩ := registParseResponsePayload_eq malloc target host lines
    refine ⟨host', err, ran, ?_⟩
    intro ok k
    obtain ⟨headers, rfl, stored⟩ := outcome ok
    rw [(stored k).2]
    rcases k.first_cases target.isPs5 headers with ⟨value, isFirst, isMeant⟩ | zeros
    · exact ⟨headers, value, lines, RequiredKey.mem_of_first isFirst, isMeant⟩
    · rw [zeros]
      rcases first headers lines (fun k => (stored k).1) k with ⟨value, key, isFirst, some_, isMeant⟩ | ⟨value, member, isMeant⟩
      · refine ⟨headers, value, lines, RequiredKey.mem_of_first isFirst, some_, ?_⟩
        rw [isFirst, Option.bind_some, isMeant, Option.getD_some] at zeros
        rw [isMeant, zeros]
      · exact ⟨headers, value, lines, member, isMeant⟩

def registShortMac : Bytes := text
  "PS5-Mac: 00\nPS5-Mac: 001122334455\nPS5-RegistKey: 31\nRP-Key: 000102030405060708090a0b0c0d0e0f\n"

/-- The first address is too short: it is processed last, and zeros are stored. -/
theorem registKeysComplete_shortMac : ¬ RegistKeysComplete .ps5_1 registShortMac := by
  intro complete
  obtain ⟨host, err, ran, told⟩ := complete (fun _ => true) .zero
  have returned : (registParseResponsePayload (fun _ => true) .ps5_1 .zero registShortMac).map
      (fun r => (r.1.serverMac, r.2)) = .ok (List.replicate 6 0, .success) := by decide +kernel
  rw [ran] at returned
  obtain ⟨mac, ok⟩ := Prod.mk.inj (Except.ok.inj returned)
  obtain ⟨headers, value, lines, member, -, isMeant⟩ := told ok .serverMac
  obtain ⟨result, parsed, outcome⟩ := httpHeaderParse_lines (fun _ => true) lines
  have meansZeros : (httpHeaderParse (fun _ => true) registShortMac).map
      (fun r => r.strings.all fun header => RequiredKey.serverMac.decode header.2 ≠ some (List.replicate 6 0)) = .ok true := by
    decide +kernel
  rw [parsed] at meansZeros
  have noZeros := List.all_eq_true.mp (Except.ok.inj meansZeros)
  rcases outcome with ⟨-, strings⟩ | ⟨-, n, refused⟩
  · rw [strings, List.append_nil] at noZeros
    have differs := noZeros _ (List.mem_reverse.mpr member)
    rw [isMeant, RequiredKey.stored, mac] at differs
    simp at differs
  · cases refused

end Chiaki
