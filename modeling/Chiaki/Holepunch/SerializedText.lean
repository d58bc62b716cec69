import Chiaki.Holepunch.OfferSafety
import Chiaki.Holepunch.SessionMessageSerialize

/-!
# The text of a session message

What `session_message_serialize` writes where its buffers are large enough.
-/

namespace Chiaki.Holepunch
open Memory

/-- The text of a candidate whose addresses are strings. -/
def candidateTextOf (c : Candidate) : Bytes := sprintf sessionConnrequestCandidateFmt
  [.str c.type.name, .str (cStr c.addr.toList), .str (cStr c.addrMapped.toList), .int c.port.toNat, .int c.portMapped.toNat]

/-- Texts with commas between them. -/
def commaJoined : List Bytes → Bytes
  | [] => []
  | [t] => t
  | t :: u :: ts => t ++ 0x2c :: commaJoined (u :: ts)

def candidatesTextOf (cs : List Candidate) : Bytes := [0x5b] ++ commaJoined (cs.map candidateTextOf) ++ [0x5d]

def localpeeraddrText (accountId : UInt64) : Bytes :=
  sprintf sessionLocalpeeraddrFmt [.int accountId.toInt64.toInt, .str (text "REMOTE_PLAY")]

def hashedIdText (localHashedId : Vector UInt8 20) : Bytes :=
  if localHashedId = Vector.replicate 20 0 then [] else base64Text localHashedId.toList

def connTextOf (accountId : UInt64) (req : ConnectionRequest) (candidates : Bytes) : Bytes := sprintf sessionConnrequestFmt
  [.int req.sid.toInt32.toInt, .int req.peerSid.toInt32.toInt, .str (base64Text req.skey.toList), .int req.natType.toNat,
    .str candidates, .str [], .str (localpeeraddrText accountId), .str (hashedIdText req.localHashedId)]

def messageTextOf (accountId : UInt64) (msg : FullSessionMessage) (req : ConnectionRequest) (candidates : Bytes) : Bytes :=
  sprintf sessionMessageFmt
    [.str msg.action.name, .int msg.reqId.toNat, .int msg.error.toNat, .str (connTextOf accountId req candidates)]

/-- What a reader finds behind the opening bracket: a text that is longer than its buffer ends the string. -/
def candidatesWritten : List Candidate → Bytes
  | [] => [0x5d]
  | c :: cs =>
      if candidateStrLen < (candidateTextOf c).length then (candidateTextOf c).take (candidateStrLen - 1)
      else candidateTextOf c ++ (if cs = [] then [0x5d] else 0x2c :: candidatesWritten cs)

/-! ## Sizes -/

/-- How long the text of a candidate is. -/
def Candidate.size (c : Candidate) : Nat := 75 + c.type.name.length + (cStr c.addr.toList).length + (cStr c.addrMapped.toList).length +
  (signedDecimal c.port.toNat).length + (signedDecimal c.portMapped.toNat).length

def peerSize (accountId : UInt64) : Nat := 49 + (signedDecimal accountId.toInt64.toInt).length

/-- The size of the request, for some size of the candidates. -/
def requestSize (accountId : UInt64) (req : ConnectionRequest) (candidates : Nat) : Nat :=
  160 + (signedDecimal req.sid.toInt32.toInt).length + (signedDecimal req.peerSid.toInt32.toInt).length +
    (signedDecimal req.natType.toNat).length + candidates + peerSize accountId +
    (if req.localHashedId = Vector.replicate 20 0 then 0 else 28)

def messageSize (accountId : UInt64) (msg : FullSessionMessage) (req : ConnectionRequest) (candidates : Nat) : Nat :=
  56 + msg.action.name.length + (signedDecimal msg.reqId.toNat).length + (signedDecimal msg.error.toNat).length +
    requestSize accountId req candidates

/-- The candidates fit their buffers, and the whole message is no longer than an `int` tells. -/
structure SizesFit (accountId : UInt64) (msg : FullSessionMessage) (req : ConnectionRequest) : Prop where
  each : ∀ c ∈ req.candidates, c.size ≤ candidateStrLen
  all : (req.candidates.map Candidate.size).sum ≤ (candidateStrLen - 1) * req.candidates.length + 1
  whole : messageSize accountId msg req ((req.candidates.map Candidate.size).sum + (req.candidates.length - 1) + 2) < 2 ^ 31

/-! ## Strings without terminators in them -/

theorem zero_not_mem_cStr (bytes : Bytes) : 0 ∉ cStr bytes := by
  intro member
  simpa using List.mem_takeWhile_imp member

theorem zero_not_mem_base64Text (input : Bytes) : 0 ∉ base64Text input := by
  intro member
  have other : (0 : UInt8) ∉ base64Chars ∧ (0 : UInt8) ≠ 0x3d := by decide +kernel
  rcases base64Text_chars input 0 member with char | equals
  · exact other.1 char
  · exact other.2 equals

theorem formats_strings : ∀ d ∈ sessionMessageFmt ++ sessionConnrequestFmt ++ sessionConnrequestCandidateFmt ++ sessionLocalpeeraddrFmt,
    0 ∉ d.literal := by decide +kernel

theorem formats_sizes : (sessionMessageFmt.map (·.literal.length)).sum = 56 ∧ (sessionConnrequestFmt.map (·.literal.length)).sum = 136 ∧
    (sessionConnrequestCandidateFmt.map (·.literal.length)).sum = 75 ∧ (sessionLocalpeeraddrFmt.map (·.literal.length)).sum = 38 := by
  decide +kernel

theorem typeName_string (type : CandidateType) : 0 ∉ type.name := by
  cases type <;> decide

theorem actionName_string (action : SessionMessageAction) : 0 ∉ action.name := by
  cases action <;> decide

theorem zero_not_mem_candidateTextOf (c : Candidate) : 0 ∉ candidateTextOf c := by
  apply zero_not_mem_sprintf
  · exact fun d member => formats_strings d (by simp [member])
  · simp only [List.forall_mem_cons, PrintfArg.written]
    exact ⟨typeName_string _, zero_not_mem_cStr _, zero_not_mem_cStr _, zero_not_mem_signedDecimal _, zero_not_mem_signedDecimal _,
      List.forall_mem_nil _⟩

theorem candidateString_eq {c : Candidate} (terminated : c.Terminated) : candidateString c = .ok (candidateTextOf c) := by
  have addr : 0 ∈ c.addr.toList := Vector.mem_toList_iff.mpr terminated.1
  have addrMapped : 0 ∈ c.addrMapped.toList := Vector.mem_toList_iff.mpr terminated.2
  rw [candidateString, bufString, if_pos addr, bufString, if_pos addrMapped]
  rfl

theorem candidateTextOf_ends (c : Candidate) : ∃ front, candidateTextOf c = front ++ [0x7d] := by
  refine ⟨sprintf (sessionConnrequestCandidateFmt.take 10)
    [.str c.type.name, .str (cStr c.addr.toList), .str (cStr c.addrMapped.toList), .int c.port.toNat, .int c.portMapped.toNat], ?_⟩
  simp only [candidateTextOf, sessionConnrequestCandidateFmt, List.take_succ_cons, List.take_zero, sprintf, List.append_assoc]
  rfl

theorem length_cStr_lt {n : Nat} {array : Vector UInt8 n} (terminated : 0 ∈ array) : (cStr array.toList).length < n := by
  have member : 0 ∈ array.toList := Vector.mem_toList_iff.mpr terminated
  have short := (List.takeWhile_sublist (p := fun c : UInt8 => decide (c ≠ 0)) (l := array.toList)).length_le
  rw [Vector.length_toList] at short
  refine lt_of_le_of_ne short fun same => ?_
  have whole : cStr array.toList = array.toList :=
    (List.takeWhile_sublist _).eq_of_length (same.trans Vector.length_toList.symm)
  have kept := zero_not_mem_cStr array.toList
  rw [whole] at kept
  exact kept member

theorem length_candidateTextOf (c : Candidate) : (candidateTextOf c).length = c.size := by
  obtain ⟨-, -, literals, -⟩ := formats_sizes
  rw [candidateTextOf, length_sprintf rfl, literals, Candidate.size]
  simp only [List.map_cons, List.map_nil, List.sum_cons, List.sum_nil, PrintfArg.written]
  omega

theorem candidate_lengths {c : Candidate} (terminated : c.Terminated) : c.type.name.length ≤ 7 ∧ (cStr c.addr.toList).length ≤ 45 ∧
    (cStr c.addrMapped.toList).length ≤ 45 ∧ (signedDecimal (c.port.toNat : Int)).length ≤ 5 ∧
    (signedDecimal (c.portMapped.toNat : Int)).length ≤ 5 := by
  have name : c.type.name.length ≤ 7 := by cases c.type <;> decide
  exact ⟨name, Nat.le_of_lt_succ (length_cStr_lt terminated.1), Nat.le_of_lt_succ (length_cStr_lt terminated.2),
    length_signedDecimal_natCast_le (by decide) (c.port.toNat_lt.trans (by decide)),
    length_signedDecimal_natCast_le (by decide) (c.portMapped.toNat_lt.trans (by decide))⟩

theorem length_candidateTextOf_le {c : Candidate} (terminated : c.Terminated) : (candidateTextOf c).length ≤ 182 := by
  obtain ⟨name, addr, addrMapped, port, portMapped⟩ := candidate_lengths terminated
  rw [length_candidateTextOf, Candidate.size]
  omega

/-! ## The candidates -/

theorem candidateStrLen_eq : candidateStrLen = 172 := by
  decide

theorem candidateStr_eq {t : Bytes} (string : 0 ∉ t) (small : t.length < 2 ^ 31) :
    ∃ buf, snprintf (List.replicate candidateStrLen 0) 0 candidateStrLen t = .ok (buf, t.length) ∧
      bufString buf = .ok (t.take (candidateStrLen - 1)) := by
  have size := candidateStrLen_eq
  have written := @setField_behind [] (List.replicate candidateStrLen 0) (t.take (candidateStrLen - 1) ++ [0])
    (by simp only [List.length_append, List.length_take, List.length_singleton, List.length_replicate]; omega)
  rw [List.length_nil, List.nil_append, List.nil_append, List.append_assoc, List.singleton_append] at written
  rw [snprintf, if_neg (by omega), written, ok_bind, if_pos small]
  exact ⟨_, rfl, bufString_append_zero (fun member => string (List.mem_of_mem_take member)) _⟩

/-- A text that is at most as long as the buffer: the terminator is where the brace goes. -/
theorem candidate_fits {t done old : Bytes} (ends : ∃ front, t = front ++ [0x7d]) (short : t.length ≤ candidateStrLen)
    (room : t.length ≤ old.length) :
    ∃ json written, snprintf (done ++ old) done.length t.length (t.take (candidateStrLen - 1)) = .ok (json, written) ∧
      setField json (done.length + t.length - 1) [0x7d] = .ok (done ++ t ++ old.drop t.length) := by
  obtain ⟨front, rfl⟩ := ends
  rw [List.length_append, List.length_singleton] at short room ⊢
  have copied : ((front ++ [0x7d]).take (candidateStrLen - 1)).take (front.length + 1 - 1) ++ [0] = front ++ [0] := by
    rw [List.take_take, Nat.min_eq_left (by omega), Nat.add_sub_cancel, List.take_left]
  have count : (front ++ [(0 : UInt8)]).length = front.length + 1 := by rw [List.length_append, List.length_singleton]
  have closed := @setField_behind (done ++ front) (0 :: old.drop (front.length + 1)) [0x7d] (by simp)
  rw [List.length_append] at closed
  rw [snprintf, if_neg (by omega), copied, setField_behind (by omega), count]
  refine ⟨_, _, rfl, ?_⟩
  have position : done.length + (front.length + 1) - 1 = done.length + front.length := by omega
  rw [position]
  simpa using closed

theorem candidate_cut {t done old : Bytes} (long : candidateStrLen < t.length) (room : t.length ≤ old.length) :
    ∃ json written junk, snprintf (done ++ old) done.length t.length (t.take (candidateStrLen - 1)) = .ok (json, written) ∧
      setField json (done.length + t.length - 1) [0x7d] =
        .ok (done ++ (t.take (candidateStrLen - 1) ++ 0 :: junk) ++ old.drop t.length) ∧
      (t.take (candidateStrLen - 1) ++ 0 :: junk).length = t.length := by
  have size := candidateStrLen_eq
  have cut : (t.take (candidateStrLen - 1)).length = 171 := by
    rw [List.length_take]
    omega
  generalize t.take (candidateStrLen - 1) = front at cut ⊢
  have count : (front ++ [(0 : UInt8)]).length = 172 := by rw [List.length_append, List.length_singleton, cut]
  have between : old.drop 172 = (old.drop 172).take (t.length - 173) ++ old.drop (t.length - 1) := by
    have position : t.length - 1 = 172 + (t.length - 173) := by omega
    rw [position, ← List.drop_drop, List.take_append_drop]
  have kept : ((old.drop 172).take (t.length - 173)).length = t.length - 173 := by
    rw [List.length_take, List.length_drop]
    omega
  have closed := @setField_behind (done ++ (front ++ [0]) ++ (old.drop 172).take (t.length - 173)) (old.drop (t.length - 1)) [0x7d]
    (by rw [List.length_drop, List.length_singleton]; omega)
  have position : (done ++ (front ++ [0]) ++ (old.drop 172).take (t.length - 173)).length = done.length + t.length - 1 := by
    rw [List.length_append, List.length_append, count, kept]
    omega
  have behind : t.length - 1 + [(0x7d : UInt8)].length = t.length := by
    rw [List.length_singleton]
    omega
  rw [position, List.append_assoc _ _ (old.drop (t.length - 1)), ← between, List.drop_drop, behind] at closed
  refine ⟨done ++ (front ++ [0]) ++ old.drop 172, 171, (old.drop 172).take (t.length - 173) ++ [0x7d], ?_, ?_, ?_⟩
  · have whole : front.take (t.length - 1) = front := List.take_of_length_le (by omega)
    rw [snprintf, if_neg (by omega), whole, setField_behind (by omega), count, ok_bind, if_pos (by omega), cut]
    rfl
  · rw [closed]
    simp only [List.append_assoc, List.cons_append, List.nil_append]
  · rw [List.length_append, List.length_cons, List.length_append, List.length_singleton, kept, cut]
    omega

theorem joined_cons_cons (c d : Candidate) (cs : List Candidate) : commaJoined ((c :: d :: cs).map candidateTextOf) =
    candidateTextOf c ++ 0x2c :: commaJoined ((d :: cs).map candidateTextOf) := rfl

theorem length_commaJoined (ts : List Bytes) : (commaJoined ts).length = (ts.map List.length).sum + (ts.length - 1) := by
  fun_induction commaJoined ts with
  | case1 => rfl
  | case2 t => simp
  | case3 t u ts ih =>
      rw [List.length_append, List.length_cons, ih]
      simp only [List.map_cons, List.sum_cons, List.length_cons]
      omega

theorem candidatesWritten_cons (c : Candidate) (cs : List Candidate) : candidatesWritten (c :: cs) =
    if candidateStrLen < (candidateTextOf c).length then (candidateTextOf c).take (candidateStrLen - 1)
    else candidateTextOf c ++ (if cs = [] then [0x5d] else 0x2c :: candidatesWritten cs) := rfl

theorem candidate_written {c : Candidate} {done old : Bytes}
    (room : (candidateTextOf c).length ≤ old.length) :
    ∃ json written new, snprintf (done ++ old) done.length (candidateTextOf c).length
          ((candidateTextOf c).take (candidateStrLen - 1)) = .ok (json, written) ∧
      setField json (done.length + (candidateTextOf c).length - 1) [0x7d] =
        .ok (done ++ new ++ old.drop (candidateTextOf c).length) ∧
      new.length = (candidateTextOf c).length ∧
      ∀ rest, cStr (new ++ rest) = if candidateStrLen < (candidateTextOf c).length
        then (candidateTextOf c).take (candidateStrLen - 1) else candidateTextOf c ++ cStr rest := by
  have string := zero_not_mem_candidateTextOf c
  by_cases long : candidateStrLen < (candidateTextOf c).length
  · obtain ⟨json, written, junk, copied, closed, length⟩ := @candidate_cut (candidateTextOf c) done old long room
    refine ⟨json, written, _, copied, closed, length, fun rest => ?_⟩
    rw [if_pos long, List.append_assoc, List.cons_append]
    exact cStr_append_zero (fun member => string (List.mem_of_mem_take member)) _
  · obtain ⟨json, written, copied, closed⟩ :=
      @candidate_fits (candidateTextOf c) done old (candidateTextOf_ends c) (not_lt.mp long) room
    refine ⟨json, written, _, copied, closed, rfl, fun rest => ?_⟩
    rw [if_neg long]
    exact cStr_append string rest

theorem serializeCandidates_eq (cs : List Candidate) {done old : Bytes} {numCandidates i : Nat}
    (count : i + cs.length = numCandidates) (few : numCandidates < 2 ^ 31) (terminated : ∀ c ∈ cs, c.Terminated)
    (room : (commaJoined (cs.map candidateTextOf)).length ≤ old.length) :
    ∃ new, serializeCandidates numCandidates i cs (done ++ old) done.length =
        .ok (done ++ new ++ old.drop (commaJoined (cs.map candidateTextOf)).length,
          done.length + (commaJoined (cs.map candidateTextOf)).length) ∧
      new.length = (commaJoined (cs.map candidateTextOf)).length ∧
      ∀ rest, cStr (new ++ 0x5d :: 0 :: rest) = candidatesWritten cs := by
  induction cs generalizing done old i with
  | nil => exact ⟨[], by simp [serializeCandidates, commaJoined, pure, Except.pure], rfl, fun rest => rfl⟩
  | cons c cs ih =>
      obtain ⟨first, terminated⟩ := List.forall_mem_cons.mp terminated
      have bound := length_candidateTextOf_le first
      obtain ⟨str, stored, string⟩ := candidateStr_eq (zero_not_mem_candidateTextOf c) (show (candidateTextOf c).length < 2 ^ 31 by omega)
      have size : (((candidateTextOf c).length : Int) % 2 ^ 64).toNat = (candidateTextOf c).length := by omega
      have whole : (candidateTextOf c).length ≤ (commaJoined ((c :: cs).map candidateTextOf)).length := by
        rw [length_commaJoined]
        simp only [List.map_cons, List.sum_cons]
        omega
      obtain ⟨json, written, new, copied, closed, length, read⟩ := @candidate_written c done old (whole.trans room)
      rw [List.length_cons] at count
      rw [serializeCandidates, candidateString_eq first, ok_bind, stored, ok_bind]
      dsimp only
      rw [size, string, ok_bind, copied, ok_bind, closed, ok_bind, if_neg (by omega)]
      cases cs with
      | nil =>
          rw [if_neg (by rw [List.length_nil] at count; omega), serializeCandidates]
          refine ⟨new, rfl, length, fun rest => ?_⟩
          rw [read, candidatesWritten_cons, if_pos rfl]
          rfl
      | cons d cs =>
          rw [joined_cons_cons, List.length_append, List.length_cons] at room
          have comma := @setField_behind (done ++ new) (old.drop (candidateTextOf c).length) [0x2c]
            (by rw [List.length_drop, List.length_singleton]; omega)
          rw [List.length_append, length, List.length_singleton, List.drop_drop] at comma
          obtain ⟨later, ran, lengths, reads⟩ := @ih (done ++ new ++ [0x2c]) (old.drop ((candidateTextOf c).length + 1)) (i + 1)
            (by omega) terminated (by rw [List.length_drop]; omega)
          rw [List.length_append, List.length_append, List.length_singleton, List.drop_drop, length] at ran
          rw [if_pos (by rw [List.length_cons] at count; omega), comma, ok_bind, ran]
          rw [joined_cons_cons, List.length_append, List.length_cons]
          refine ⟨new ++ 0x2c :: later, ?_, ?_, fun rest => ?_⟩
          · generalize commaJoined ((d :: cs).map candidateTextOf) = joined at lengths
            have dropped : (candidateTextOf c).length + 1 + joined.length = (candidateTextOf c).length + (joined.length + 1) := by
              omega
            have position : done.length + (candidateTextOf c).length + 1 + joined.length =
                done.length + ((candidateTextOf c).length + (joined.length + 1)) := by omega
            rw [dropped, position]
            simp only [List.append_assoc, List.cons_append, List.nil_append]
          · rw [List.length_append, List.length_cons, length, lengths]
          · have comma : cStr (0x2c :: (later ++ 0x5d :: 0 :: rest)) = 0x2c :: cStr (later ++ 0x5d :: 0 :: rest) := rfl
            rw [List.append_assoc, List.cons_append, read, comma, reads, candidatesWritten_cons c, if_neg (List.cons_ne_nil d cs)]

theorem serializeCandidates_len (cs : List Candidate) {json json' : Bytes} {numCandidates i len len' : Nat}
    (count : i + cs.length = numCandidates) (terminated : ∀ c ∈ cs, c.Terminated)
    (ran : serializeCandidates numCandidates i cs json len = .ok (json', len')) :
    json'.length = json.length ∧ len' = len + (commaJoined (cs.map candidateTextOf)).length ∧
      (i < 2 ^ 31 → numCandidates < 2 ^ 31) := by
  induction cs generalizing json i len with
  | nil =>
      rw [serializeCandidates] at ran
      obtain ⟨rfl, rfl⟩ := Prod.mk.inj (Except.ok.inj ran)
      exact ⟨rfl, rfl, fun few => by rw [← count]; exact few⟩
  | cons c cs ih =>
      obtain ⟨first, terminated⟩ := List.forall_mem_cons.mp terminated
      have bound := length_candidateTextOf_le first
      obtain ⟨str, stored, string⟩ := candidateStr_eq (zero_not_mem_candidateTextOf c) (show (candidateTextOf c).length < 2 ^ 31 by omega)
      have size : (((candidateTextOf c).length : Int) % 2 ^ 64).toNat = (candidateTextOf c).length := by omega
      rw [List.length_cons] at count
      rw [serializeCandidates, candidateString_eq first, ok_bind, stored, ok_bind] at ran
      dsimp only at ran
      rw [size, string, ok_bind] at ran
      obtain ⟨⟨copy, written⟩, copied, ran⟩ := bind_eq_ok ran
      obtain ⟨closed, set, ran⟩ := bind_eq_ok ran
      have length := length_of_snprintf copied
      have lengths := (length_of_write (write_of_setField set)).trans length
      split at ran
      · cases ran
      · rename_i more
        cases cs with
        | nil =>
            rw [if_neg (by rw [List.length_nil] at count; omega), serializeCandidates] at ran
            obtain ⟨rfl, rfl⟩ := Prod.mk.inj (Except.ok.inj ran)
            rw [List.length_nil] at count
            exact ⟨lengths, rfl, fun few => by omega⟩
        | cons d cs =>
            rw [if_pos (by rw [List.length_cons] at count; omega)] at ran
            obtain ⟨comma, separated, ran⟩ := bind_eq_ok ran
            obtain ⟨kept, end_, few⟩ := ih (by omega) terminated ran
            refine ⟨kept.trans ((length_of_write (write_of_setField separated)).trans lengths), ?_, fun small => few (by omega)⟩
            rw [joined_cons_cons, List.length_append, List.length_cons]
            omega

theorem sum_sizes (cs : List Candidate) :
    (commaJoined (cs.map candidateTextOf)).length = (cs.map Candidate.size).sum + (cs.length - 1) := by
  have sizes : List.length ∘ candidateTextOf = Candidate.size := by
    funext c
    exact length_candidateTextOf c
  rw [length_commaJoined, List.map_map, List.length_map, sizes]

theorem length_candidatesTextOf (cs : List Candidate) :
    (candidatesTextOf cs).length = (commaJoined (cs.map candidateTextOf)).length + 2 := by
  rw [candidatesTextOf, List.length_append, List.length_append, List.length_singleton, List.length_singleton]
  omega

theorem room_iff (cs : List Candidate) : (commaJoined (cs.map candidateTextOf)).length ≤ candidateStrLen * cs.length ↔
    (cs.map Candidate.size).sum ≤ (candidateStrLen - 1) * cs.length + 1 := by
  rw [sum_sizes, candidateStrLen_eq]
  cases cs with
  | nil => simp
  | cons c cs =>
      rw [List.length_cons]
      omega

theorem candidatesText_eq {cs : List Candidate} (few : cs.length < 2 ^ 31) (terminated : ∀ c ∈ cs, c.Terminated)
    (room : (commaJoined (cs.map candidateTextOf)).length ≤ candidateStrLen * cs.length) :
    ∃ buf, candidatesText cs = .ok (buf, (candidatesTextOf cs).length + 1) ∧ bufString buf = .ok (0x5b :: candidatesWritten cs) := by
  have opened := @setField_behind [] (List.replicate (candidateStrLen * cs.length + 3) 0) [0x5b]
    (by rw [List.length_replicate, List.length_singleton]; omega)
  rw [List.length_nil, List.nil_append, List.nil_append, List.drop_replicate, List.length_singleton] at opened
  obtain ⟨new, ran, length, read⟩ := @serializeCandidates_eq cs [0x5b] (List.replicate (candidateStrLen * cs.length + 3 - 1) 0) cs.length
    0 (Nat.zero_add _) few terminated (by rw [List.length_replicate]; omega)
  have size := length_candidatesTextOf cs
  generalize commaJoined (cs.map candidateTextOf) = joined at room ran length size
  rw [List.drop_replicate, List.length_singleton] at ran
  have closed := @setField_behind ([0x5b] ++ new) (List.replicate (candidateStrLen * cs.length + 3 - 1 - joined.length) 0) [0x5d]
    (by rw [List.length_replicate, List.length_singleton]; omega)
  rw [List.length_append, List.length_singleton, length, List.drop_replicate, List.length_singleton] at closed
  have ended := @setField_behind ([0x5b] ++ new ++ [0x5d])
    (List.replicate (candidateStrLen * cs.length + 3 - 1 - joined.length - 1) 0) [0]
    (by rw [List.length_replicate, List.length_singleton]; omega)
  rw [List.length_append, List.length_append, List.length_singleton, List.length_singleton, length, List.drop_replicate] at ended
  have string (zeros : Bytes) : bufString ([0x5b] ++ new ++ [0x5d] ++ [0] ++ zeros) = .ok (0x5b :: candidatesWritten cs) := by
    have shape : [0x5b] ++ new ++ [0x5d] ++ [0] ++ zeros = 0x5b :: (new ++ 0x5d :: 0 :: zeros) := by simp
    have bracket : cStr (0x5b :: (new ++ 0x5d :: 0 :: zeros)) = 0x5b :: cStr (new ++ 0x5d :: 0 :: zeros) := rfl
    rw [shape, bufString, if_pos (by simp), bracket, read]
  have position : 1 + joined.length + 2 = (candidatesTextOf cs).length + 1 := by omega
  generalize List.replicate (candidateStrLen * cs.length + 3 - 1 - joined.length - 1 - [(0 : UInt8)].length) (0 : UInt8) = zeros at ended
  refine ⟨[0x5b] ++ new ++ [0x5d] ++ [0] ++ zeros, ?_, string zeros⟩
  rw [candidatesText, opened, ok_bind, ran, ok_bind]
  dsimp only
  rw [closed, ok_bind, ended, ok_bind, position]
  rfl

theorem candidatesText_room {cs : List Candidate} (terminated : ∀ c ∈ cs, c.Terminated) {written : Bytes × Nat}
    (ran : candidatesText cs = .ok written) :
    cs.length < 2 ^ 31 ∧ (commaJoined (cs.map candidateTextOf)).length ≤ candidateStrLen * cs.length := by
  obtain ⟨opened, set, ran⟩ := bind_eq_ok ran
  obtain ⟨⟨json, len⟩, ran, finished⟩ := bind_eq_ok ran
  obtain ⟨closed, set', finished⟩ := bind_eq_ok finished
  obtain ⟨ended, set'', -⟩ := bind_eq_ok finished
  obtain ⟨kept, rfl, few⟩ := serializeCandidates_len cs (Nat.zero_add _) terminated ran
  have inside := setField_room set''
  rw [length_of_write (write_of_setField set'), kept, length_of_write (write_of_setField set), List.length_replicate,
    List.length_singleton] at inside
  exact ⟨few (by decide), by omega⟩

theorem candidatesWritten_eq {cs : List Candidate} (each : ∀ c ∈ cs, (candidateTextOf c).length ≤ candidateStrLen) :
    0x5b :: candidatesWritten cs = candidatesTextOf cs := by
  have behind : candidatesWritten cs = commaJoined (cs.map candidateTextOf) ++ [0x5d] := by
    induction cs with
    | nil => rfl
    | cons c cs ih =>
        obtain ⟨first, later⟩ := List.forall_mem_cons.mp each
        rw [candidatesWritten_cons, if_neg (not_lt.mpr first)]
        cases cs with
        | nil => rfl
        | cons d cs =>
            rw [if_neg (List.cons_ne_nil d cs), ih later, joined_cons_cons, List.append_assoc]
            rfl
  rw [behind]
  rfl

theorem length_candidatesWritten_le (cs : List Candidate) :
    (candidatesWritten cs).length ≤ (commaJoined (cs.map candidateTextOf)).length + 1 := by
  induction cs with
  | nil => rfl
  | cons c cs ih =>
      have whole : (candidateTextOf c).length ≤ (commaJoined ((c :: cs).map candidateTextOf)).length := by
        rw [length_commaJoined]
        simp only [List.map_cons, List.sum_cons]
        omega
      rw [candidatesWritten_cons]
      split
      · rw [List.length_take]
        omega
      · cases cs with
        | nil =>
            rw [if_pos rfl, List.length_append, List.length_singleton]
            omega
        | cons d cs =>
            rw [if_neg (List.cons_ne_nil d cs), joined_cons_cons, List.length_append, List.length_append, List.length_cons,
              List.length_cons]
            omega

theorem zero_not_mem_candidatesWritten (cs : List Candidate) : 0 ∉ candidatesWritten cs := by
  induction cs with
  | nil => decide
  | cons c cs ih =>
      have string := zero_not_mem_candidateTextOf c
      rw [candidatesWritten_cons]
      split
      · exact fun member => string (List.mem_of_mem_take member)
      · split
        · simp [string]
        · simp [string, ih]

/-! ## The message -/

theorem length_hashedIdText (localHashedId : Vector UInt8 20) :
    (hashedIdText localHashedId).length = if localHashedId = Vector.replicate 20 0 then 0 else 28 := by
  rw [hashedIdText]
  split
  · rfl
  · rw [length_base64Text, Vector.length_toList]

theorem length_localpeeraddrText (accountId : UInt64) : (localpeeraddrText accountId).length = peerSize accountId := by
  obtain ⟨-, -, -, literals⟩ := formats_sizes
  have platform : (text "REMOTE_PLAY").length = 11 := by decide
  rw [localpeeraddrText, length_sprintf rfl, literals, peerSize]
  simp only [List.map_cons, List.map_nil, List.sum_cons, List.sum_nil, PrintfArg.written, platform]
  omega

theorem length_connTextOf (accountId : UInt64) (req : ConnectionRequest) (candidates : Bytes) :
    (connTextOf accountId req candidates).length = requestSize accountId req candidates.length := by
  obtain ⟨-, literals, -, -⟩ := formats_sizes
  rw [connTextOf, length_sprintf rfl, literals, requestSize]
  simp only [List.map_cons, List.map_nil, List.sum_cons, List.sum_nil, PrintfArg.written, length_base64Text, Vector.length_toList,
    length_hashedIdText, length_localpeeraddrText, List.length_nil]
  clear literals
  omega

theorem length_messageTextOf (accountId : UInt64) (msg : FullSessionMessage) (req : ConnectionRequest) (candidates : Bytes) :
    (messageTextOf accountId msg req candidates).length = messageSize accountId msg req candidates.length := by
  obtain ⟨literals, -, -, -⟩ := formats_sizes
  rw [messageTextOf, length_sprintf rfl, literals, messageSize]
  simp only [List.map_cons, List.map_nil, List.sum_cons, List.sum_nil, PrintfArg.written, length_connTextOf]
  clear literals
  omega

theorem peerSize_le (accountId : UInt64) : peerSize accountId ≤ 69 := by
  have account : (signedDecimal accountId.toInt64.toInt).length ≤ 19 + 1 := by
    apply length_signedDecimal_le (by decide)
    have low := accountId.toInt64.le_toInt
    have high := accountId.toInt64.toInt_lt
    omega
  rw [peerSize]
  omega

theorem requestSize_le (accountId : UInt64) (req : ConnectionRequest) (candidates : Nat) :
    requestSize accountId req candidates ≤ 213 + candidates + peerSize accountId := by
  have sid : (signedDecimal req.sid.toInt32.toInt).length ≤ 10 + 1 := by
    apply length_signedDecimal_le (by decide)
    have low := req.sid.toInt32.le_toInt
    have high := req.sid.toInt32.toInt_lt
    omega
  have peerSid : (signedDecimal req.peerSid.toInt32.toInt).length ≤ 10 + 1 := by
    apply length_signedDecimal_le (by decide)
    have low := req.peerSid.toInt32.le_toInt
    have high := req.peerSid.toInt32.toInt_lt
    omega
  have natType : (signedDecimal (req.natType.toNat : Int)).length ≤ 3 :=
    length_signedDecimal_natCast_le (by decide) (req.natType.toNat_lt.trans (by decide))
  rw [requestSize]
  split <;> omega

theorem messageSize_le (accountId : UInt64) (msg : FullSessionMessage) (req : ConnectionRequest) (candidates : Nat) :
    messageSize accountId msg req candidates ≤ 80 + requestSize accountId req candidates := by
  have action : msg.action.name.length ≤ 9 := by cases msg.action <;> decide
  have reqId : (signedDecimal (msg.reqId.toNat : Int)).length ≤ 5 :=
    length_signedDecimal_natCast_le (by decide) (msg.reqId.toNat_lt.trans (by decide))
  have error : (signedDecimal (msg.error.toNat : Int)).length ≤ 5 :=
    length_signedDecimal_natCast_le (by decide) (msg.error.toNat_lt.trans (by decide))
  rw [messageSize]
  omega

theorem zero_not_mem_localpeeraddrText (accountId : UInt64) : 0 ∉ localpeeraddrText accountId := by
  have platform : 0 ∉ text "REMOTE_PLAY" := by decide
  apply zero_not_mem_sprintf
  · exact fun d member => formats_strings d (by simp [member])
  · simp only [List.forall_mem_cons, PrintfArg.written]
    exact ⟨zero_not_mem_signedDecimal _, platform, List.forall_mem_nil _⟩

theorem zero_not_mem_hashedIdText (localHashedId : Vector UInt8 20) : 0 ∉ hashedIdText localHashedId := by
  rw [hashedIdText]
  split
  · exact List.not_mem_nil
  · exact zero_not_mem_base64Text _

theorem zero_not_mem_connTextOf (accountId : UInt64) (req : ConnectionRequest) {candidates : Bytes} (string : 0 ∉ candidates) :
    0 ∉ connTextOf accountId req candidates := by
  apply zero_not_mem_sprintf
  · exact fun d member => formats_strings d (by simp [member])
  · simp only [List.forall_mem_cons, PrintfArg.written]
    exact ⟨zero_not_mem_signedDecimal _, zero_not_mem_signedDecimal _, zero_not_mem_base64Text _, zero_not_mem_signedDecimal _, string,
      List.not_mem_nil, zero_not_mem_localpeeraddrText _, zero_not_mem_hashedIdText _, List.forall_mem_nil _⟩

theorem zero_not_mem_messageTextOf (accountId : UInt64) (msg : FullSessionMessage) (req : ConnectionRequest) {candidates : Bytes}
    (string : 0 ∉ candidates) : 0 ∉ messageTextOf accountId msg req candidates := by
  apply zero_not_mem_sprintf
  · exact fun d member => formats_strings d (by simp [member])
  · simp only [List.forall_mem_cons, PrintfArg.written]
    exact ⟨actionName_string _, zero_not_mem_signedDecimal _, zero_not_mem_signedDecimal _, zero_not_mem_connTextOf _ _ string,
      List.forall_mem_nil _⟩

theorem snprintf_total (size : Nat) (s : Bytes) :
    ∃ buf, snprintf (List.replicate size 0) 0 size s = .ok (buf, if s.length < 2 ^ 31 then s.length else -1) := by
  rw [snprintf]
  split
  · exact ⟨_, rfl⟩
  · obtain ⟨buf, set, -, -⟩ := @setField_ok (List.replicate size 0) (s.take (size - 1) ++ [0]) 0
      (by rw [List.length_append, List.length_take, List.length_singleton, List.length_replicate]; omega)
    rw [set]
    exact ⟨buf, rfl⟩

theorem snprintf_fresh {s : Bytes} {size : Nat} (string : 0 ∉ s) (fits : s.length < size) :
    ∃ buf, snprintf (List.replicate size 0) 0 size s = .ok (buf, if s.length < 2 ^ 31 then s.length else -1) ∧
      bufString buf = .ok s := by
  have whole : s.take (size - 1) = s := List.take_of_length_le (by omega)
  have written := @setField_behind [] (List.replicate size 0) (s ++ [0])
    (by rw [List.length_append, List.length_singleton, List.length_replicate]; omega)
  rw [List.length_nil, List.nil_append, List.nil_append, List.append_assoc, List.singleton_append] at written
  rw [snprintf, if_neg (by omega), whole, written, ok_bind]
  exact ⟨_, rfl, bufString_append_zero string _⟩

theorem hashedIdBuffer_eq (localHashedId : Vector UInt8 20) :
    ∃ buf, hashedIdBuffer localHashedId = .ok buf ∧ bufString buf = .ok (hashedIdText localHashedId) := by
  rw [hashedIdBuffer, hashedIdText]
  split
  · exact ⟨_, rfl, rfl⟩
  · have size : (base64Text localHashedId.toList).length = 28 := by rw [length_base64Text, Vector.length_toList]
    rw [chiakiBase64Encode_ok (by omega) (by rw [List.length_replicate]), List.append_assoc, List.singleton_append]
    exact ⟨_, rfl, bufString_append_zero (zero_not_mem_base64Text _) _⟩

section Message
variable {accountId : UInt64} {msg : FullSessionMessage} {req : ConnectionRequest} {buf candidates : Bytes} {len : Nat}

theorem connRequestText_eq (ran : candidatesText req.candidates = .ok (buf, len)) (read : bufString buf = .ok candidates)
    (string : 0 ∉ candidates) (fits : candidates.length < len) :
    ∃ out, connRequestText accountId req = .ok (out, if (connTextOf accountId req candidates).length < 2 ^ 31
        then ((connTextOf accountId req candidates).length : Int) else -1) ∧
      bufString out = .ok (connTextOf accountId req candidates) := by
  have peerLength := peerSize_le accountId
  rw [← length_localpeeraddrText] at peerLength
  have connLength := requestSize_le accountId req candidates.length
  rw [← length_connTextOf, ← length_localpeeraddrText] at connLength
  have format : formatSize sessionConnrequestFmt = 153 := by decide
  obtain ⟨peerBuf, peer, peerString⟩ := @snprintf_fresh _ 128 (zero_not_mem_localpeeraddrText accountId) (by omega)
  rw [if_pos (by omega)] at peer
  obtain ⟨hashedId, hashed, hashedString⟩ := hashedIdBuffer_eq req.localHashedId
  have skeyLength : (base64Text req.skey.toList).length = 24 := by rw [length_base64Text, Vector.length_toList]
  have skey := @chiakiBase64Encode_ok 25 req.skey.toList (List.replicate 25 0) (by omega) (by rw [List.length_replicate])
  rw [List.append_assoc, List.singleton_append] at skey
  have size : (((localpeeraddrText accountId).length : Int) % 2 ^ 64).toNat = (localpeeraddrText accountId).length := by omega
  rw [connRequestText, ← localpeeraddrText, peer, ok_bind]
  dsimp only
  rw [size, ran, ok_bind]
  dsimp only
  rw [hashed, ok_bind, skey, ok_bind, bufString_append_zero (zero_not_mem_base64Text _), ok_bind, read, ok_bind, peerString, ok_bind,
    hashedString, ok_bind]
  exact snprintf_fresh (zero_not_mem_connTextOf accountId req string) (by rw [← connTextOf, format]; omega)

theorem sessionMessageSerialize_eq (request : msg.connRequest = some req) (ran : candidatesText req.candidates = .ok (buf, len))
    (read : bufString buf = .ok candidates) (string : 0 ∉ candidates) (fits : candidates.length < len) :
    ∃ out written, sessionMessageSerialize accountId msg = .ok (out, written) ∧
      ((messageTextOf accountId msg req candidates).length < 2 ^ 31 →
        bufString out = .ok (messageTextOf accountId msg req candidates) ∧
          written = (messageTextOf accountId msg req candidates).length) ∧
      (2 ^ 31 ≤ (messageTextOf accountId msg req candidates).length → written = -1) := by
  have format : formatSize sessionMessageEnvelopeFmt = 133 := by decide
  have bound := messageSize_le accountId msg req candidates.length
  have longer : requestSize accountId req candidates.length ≤ messageSize accountId msg req candidates.length := Nat.le_add_left _ _
  rw [← length_messageTextOf, ← length_connTextOf] at bound longer
  obtain ⟨connBuf, conn, connString⟩ := @connRequestText_eq accountId req buf candidates len ran read string fits
  rw [sessionMessageSerialize, request, deref_some, ok_bind, conn, ok_bind]
  dsimp only
  rw [connString, ok_bind]
  by_cases small : (connTextOf accountId req candidates).length < 2 ^ 31
  · have size : ((formatSize sessionMessageEnvelopeFmt : Int) * 2 + ((connTextOf accountId req candidates).length : Int)).toNat =
        266 + (connTextOf accountId req candidates).length := by
      rw [format]
      omega
    rw [if_pos small, size]
    obtain ⟨out, written, outString⟩ := @snprintf_fresh _ (266 + (connTextOf accountId req candidates).length)
      (zero_not_mem_messageTextOf accountId msg req string) (by omega)
    refine ⟨out, _, written, fun fits => ⟨outString, if_pos fits⟩, fun exceeds => if_neg (not_lt.mpr exceeds)⟩
  · rw [if_neg small]
    have size : ((formatSize sessionMessageEnvelopeFmt : Int) * 2 + -1).toNat = 265 := by
      rw [format]
      rfl
    obtain ⟨out, written⟩ := snprintf_total 265 (messageTextOf accountId msg req candidates)
    rw [size]
    exact ⟨out, _, written, fun fits => by omega, fun exceeds => if_neg (not_lt.mpr exceeds)⟩

end Message

end Chiaki.Holepunch
