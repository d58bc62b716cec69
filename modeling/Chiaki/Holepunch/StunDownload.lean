import Chiaki.Lib.Machine
import Chiaki.Printf
import Chiaki.TextScan

/-!
# The lists of STUN servers

`get_stun_servers` downloads two texts with a server on each line. The lines are copied into the rows of a table
first, and then each row is taken apart.
-/

namespace Chiaki.Holepunch
open Machine

structure StunEntry where
  /-- `NULL`, or what was allocated. -/
  host : Option Bytes
  port : Nat
  deriving DecidableEq

/-- `stun_server_list` and `num_stun_servers`, or those for IPv6. -/
structure StunList where
  entries : List StunEntry
  num : Nat
  deriving DecidableEq

def StunList.init : StunList := ⟨List.replicate 10 ⟨none, 0⟩, 0⟩

structure StunSession where
  ipv4 : StunList
  ipv6 : StunList
  deriving DecidableEq

def StunSession.init : StunSession := ⟨.init, .init⟩

/-! ## The model -/

structure HttpResponseData where
  data : Bytes
  size : Nat
  deriving DecidableEq

/-- `curl_write_cb`, which is called once for each piece of the text that arrives. -/
def curlWriteCb (response : HttpResponseData) (piece : Bytes) : HttpResponseData :=
  ⟨response.data.take response.size ++ piece ++ [0], response.size + piece.length⟩

/-- The response to a request. It starts as `malloc(0)`. -/
def responseData (pieces : List Bytes) : HttpResponseData := pieces.foldl curlWriteCb ⟨[], 0⟩

/-- `strcpy` to a row. A row is an array of its own. -/
def strcpyRow (rowSize : Nat) (rows : List (Option Bytes)) (row : Nat) (s : Bytes) : Checked (List (Option Bytes)) :=
  if row < rows.length ∧ s.length < rowSize then .ok (rows.set row (some s)) else .error .outOfBounds

/-- The loop that copies the lines. -/
def copyLines (rowSize skip : Nat) : List Bytes → List (Option Bytes) → (num : Nat) → Checked (List (Option Bytes) × Nat)
  | [], rows, num => pure (rows, num)
  | line :: lines, rows, num =>
      if num ≤ 9 then do
        let rows ← strcpyRow rowSize rows num (line.drop skip)
        copyLines rowSize skip lines rows (num + 1)
      else pure (rows, num)

def setHost (entries : List StunEntry) (i : Nat) (host : Option Bytes) : Checked (List StunEntry) := do
  let entry ← inBounds entries[i]?
  pure (entries.set i { entry with host := host })

def setPort (entries : List StunEntry) (i port : Nat) : Checked (List StunEntry) := do
  let entry ← inBounds entries[i]?
  pure (entries.set i { entry with port := port })

/-- The loop that takes the rows apart, from row `i` on. A row that nothing was copied to has no end. -/
def parseRows (sep : UInt8) (skip : Nat) (mallocs : Nat → Bool) :
    (i : Nat) → List (Option Bytes) → List StunEntry → Checked (StunList × ErrorCode)
  | i, [], entries => pure (⟨entries, i⟩, .success)
  | i, row :: rows, entries => do
      let row ← inBounds row
      match tokens sep row with
      | [] => pure (⟨entries, i⟩, .invalidData)
      | host :: fields =>
          if !mallocs i then do
            let entries ← setHost entries i none
            pure (⟨entries, i⟩, .memory)
          else do
            let entries ← setHost entries i (some host)
            match fields with
            | [] => pure (⟨entries, i⟩, .invalidData)
            | port :: _ => do
                let entries ← setPort entries i (strtol (port.drop skip) % 2 ^ 16).toNat
                parseRows sep skip mallocs (i + 1) rows entries

/-- What is done with the text of one of the lists: the sizes of its rows, the characters that are skipped at the start
of a line and of a port, and the separator. -/
structure StunFormat where
  rowSize : Nat
  lineSkip : Nat
  sep : UInt8
  portSkip : Nat

/-- `server_strings`. -/
def StunFormat.ipv4 : StunFormat := ⟨259, 0, 0x3a, 0⟩

/-- `server_strings_ipv6`. -/
def StunFormat.ipv6 : StunFormat := ⟨47, 1, 0x5d, 1⟩

def readList (format : StunFormat) (pieces : List Bytes) (mallocs : Nat → Bool) (list : StunList) :
    Checked (StunList × ErrorCode) := do
  let text ← bufString (responseData pieces).data
  let (rows, num) ← copyLines format.rowSize format.lineSkip (tokens 0x0a text) (List.replicate 10 none) list.num
  parseRows format.sep format.portSkip mallocs 0 (rows.take num) list.entries

/-- How the requests for the lists end, with the pieces of a text, and which allocations of a host succeed. -/
structure StunDownload where
  ipv4 : Except ErrorCode (List Bytes)
  mallocs4 : Nat → Bool
  ipv6 : Except ErrorCode (List Bytes)
  mallocs6 : Nat → Bool

/-- The second half of `get_stun_servers`. -/
def getStunServersIpv6 (session : StunSession) (download : StunDownload) : Checked (StunSession × ErrorCode) :=
  match download.ipv6 with
  | .error err => pure (session, err)
  | .ok pieces => do
      let (list, err) ← readList .ipv6 pieces download.mallocs6 session.ipv6
      pure (⟨session.ipv4, list⟩, err)

def getStunServers (session : StunSession) (download : StunDownload) : Checked (StunSession × ErrorCode) :=
  match download.ipv4 with
  | .error err => pure (session, err)
  | .ok pieces => do
      let (list, err) ← readList .ipv4 pieces download.mallocs4 session.ipv4
      if err ≠ .success then pure (⟨list, session.ipv6⟩, err)
      else getStunServersIpv6 ⟨list, session.ipv6⟩ download

/-! ## What the lists should be -/

/-- The lines of a text, up to its first zero. -/
def textLines (pieces : List Bytes) : List Bytes := tokens 0x0a (cStr pieces.flatten)

/-- A line is written in parts: what is in front of the host, what is behind it, and a port. -/
structure LineShape where
  opening : Bytes
  close : UInt8
  behind : Bytes

/-- `host:port` -/
def LineShape.ipv4 : LineShape := ⟨[], 0x3a, []⟩

/-- `[host]:port` -/
def LineShape.ipv6 : LineShape := ⟨[0x5b], 0x5d, [0x3a]⟩

/-- The line tells this host and this port. -/
def LineShape.Names (shape : LineShape) (line host : Bytes) (port : Nat) : Prop :=
  ∃ rest, line = shape.opening ++ host ++ shape.close :: shape.behind ++ rest ∧ host ≠ [] ∧ shape.close ∉ host ∧
    scanNumber rest = some (port : Int) ∧ port < 2 ^ 16

/-- The entries that are counted are those with a host. -/
def StunList.Counted (list : StunList) : Prop :=
  list.entries.length = 10 ∧ list.num ≤ 10 ∧
    ∀ i entry, list.entries[i]? = some entry → (entry.host.isSome ↔ i < list.num)

/-- Each server that is listed has the host and the port of its line. -/
structure StunList.Lists (list : StunList) (shape : LineShape) (lines : List Bytes) : Prop where
  counted : list.Counted
  listed : ∀ i < list.num, ∃ line host port, lines[i]? = some line ∧ list.entries[i]? = some ⟨some host, port⟩ ∧
    shape.Names line host port

/-- A call leaves lists that tell what the texts say. A list that was not read stays as it was. -/
structure StunSession.Reads (before : StunSession) (download : StunDownload) (after : StunSession) : Prop where
  ipv4 : match download.ipv4 with
    | .error _ => after.ipv4 = before.ipv4
    | .ok pieces => after.ipv4.Lists .ipv4 (textLines pieces)
  ipv6 : after.ipv6 = before.ipv6 ∨ ∃ pieces, download.ipv6 = .ok pieces ∧ after.ipv6.Lists .ipv6 (textLines pieces)

/-- Up to the first line without a host, or without memory for it, the lines tell a host and a port. -/
def Clear (format : StunFormat) (shape : LineShape) (mallocs : Nat → Bool) : (i : Nat) → List Bytes → Prop
  | _, [] => True
  | i, line :: lines => tokens format.sep (line.drop format.lineSkip) = [] ∨ mallocs i = false ∨
      (∃ host port, shape.Names line host port) ∧ Clear format shape mallocs (i + 1) lines

/-- Every line has a host, and there is memory for it. -/
def Whole (format : StunFormat) (mallocs : Nat → Bool) : (i : Nat) → List Bytes → Prop
  | _, [] => True
  | i, line :: lines => tokens format.sep (line.drop format.lineSkip) ≠ [] ∧ mallocs i = true ∧
      Whole format mallocs (i + 1) lines

/-- A list can be read: nothing was read to it before, the text is there, its first ten lines fit and are clear. -/
structure StunList.Readable (list : StunList) (format : StunFormat) (shape : LineShape) (pieces : List Bytes)
    (mallocs : Nat → Bool) : Prop where
  fresh : list.num = 0
  arrived : pieces ≠ []
  fits : ∀ line ∈ (textLines pieces).take 10, (line.drop format.lineSkip).length < format.rowSize
  clear : Clear format shape mallocs 0 ((textLines pieces).take 10)

/-- The lists that are downloaded can be read. The second one is read only when the first one is read to its end. -/
def StunSession.Readable (session : StunSession) (download : StunDownload) : Prop :=
  match download.ipv4 with
  | .error _ => True
  | .ok pieces => session.ipv4.Readable .ipv4 .ipv4 pieces download.mallocs4 ∧
      (Whole .ipv4 download.mallocs4 0 ((textLines pieces).take 10) →
        match download.ipv6 with
        | .error _ => True
        | .ok pieces => session.ipv6.Readable .ipv6 .ipv6 pieces download.mallocs6)

/-- All calls, each in the session that the calls before it have left. -/
def ReadsServers : StunSession → List StunDownload → Prop
  | _, [] => True
  | session, download :: downloads =>
      ∃ after err, getStunServers session download = .ok (after, err) ∧ session.Reads download after ∧
        ReadsServers after downloads

/-! ## Lines -/

/-- The loops find the parts of a line that tells a host and a port. -/
def Finds (format : StunFormat) (shape : LineShape) : Prop :=
  ∀ line host port, shape.Names line host port → ∃ field fields,
    tokens format.sep (line.drop format.lineSkip) = host :: field :: fields ∧
      scanNumber (field.drop format.portSkip) = some (port : Int)

theorem exists_of_scanNumber {s : Bytes} {n : Int} (number : scanNumber s = some n) : ∃ c rest, s = c :: rest := by
  cases s with
  | nil => cases number
  | cons c rest => exact ⟨c, rest, rfl⟩

theorem finds_ipv4 : Finds .ipv4 .ipv4 := by
  intro line host port names
  obtain ⟨rest, rfl, some_, plain, number, -⟩ := names
  obtain ⟨c, behind, rfl⟩ := exists_of_scanNumber number
  have other : c ≠ 0x3a := by
    rintro rfl
    cases number
  obtain ⟨fields, first⟩ := exists_tokens other behind
  refine ⟨(c :: behind).takeWhile (· ≠ 0x3a), fields, ?_, ?_⟩
  · rw [← first, List.append_assoc]
    exact tokens_of_first plain some_
  · rw [StunFormat.ipv4, List.drop_zero, scanNumber_takeWhile rfl rfl (by decide) (by decide)]
    exact number

theorem finds_ipv6 : Finds .ipv6 .ipv6 := by
  intro line host port names
  obtain ⟨rest, rfl, some_, plain, number, -⟩ := names
  obtain ⟨fields, first⟩ := @exists_tokens 0x5d 0x3a (by decide) rest
  refine ⟨(0x3a :: rest).takeWhile (· ≠ 0x5d), fields, ?_, ?_⟩
  · rw [← first, List.append_assoc]
    exact tokens_of_first plain some_
  · rw [StunFormat.ipv6, List.takeWhile_cons_of_pos (by decide), List.drop_one, List.tail_cons,
      scanNumber_takeWhile rfl rfl (by decide) (by decide)]
    exact number

example : LineShape.ipv6.Names (text "[2001:db8::1]:3478") (text "2001:db8::1") 3478 :=
  ⟨text "3478", rfl, by decide, by decide, by decide, by decide⟩

theorem strtol_of_scanNumber {s : Bytes} {port : Nat} (number : scanNumber s = some (port : Int)) (small : port < 2 ^ 16) :
    (strtol s % 2 ^ 16).toNat = port := by
  rw [strtol, number, Option.getD_some]
  omega

theorem foldl_curlWriteCb (pieces : List Bytes) (arrived behind : Bytes) :
    ∃ behind', pieces.foldl curlWriteCb ⟨arrived ++ behind, arrived.length⟩ =
      ⟨arrived ++ pieces.flatten ++ behind', (arrived ++ pieces.flatten).length⟩ ∧ (pieces ≠ [] → behind' = [0]) := by
  induction pieces generalizing arrived behind with
  | nil => exact ⟨behind, by rw [List.foldl_nil, List.flatten_nil, List.append_nil], fun some_ => absurd rfl some_⟩
  | cons piece pieces ih =>
      obtain ⟨behind', same, zero⟩ := ih (arrived ++ piece) [0]
      refine ⟨behind', ?_, fun _ => ?_⟩
      · rw [List.foldl_cons, curlWriteCb, List.take_left, ← List.length_append, same, List.flatten_cons,
          List.append_assoc arrived]
      · cases pieces with
        | nil =>
            have ends := congrArg HttpResponseData.data same
            rw [List.foldl_nil, List.flatten_nil, List.append_nil] at ends
            exact (List.append_cancel_left ends).symm
        | cons next later => exact zero (List.cons_ne_nil next later)

theorem bufString_responseData {pieces : List Bytes} (arrived : pieces ≠ []) :
    bufString (responseData pieces).data = .ok (cStr pieces.flatten) := by
  obtain ⟨behind, same, zero⟩ := foldl_curlWriteCb pieces [] []
  have data : (responseData pieces).data = pieces.flatten ++ [0] := by
    rw [zero arrived] at same
    exact congrArg HttpResponseData.data same
  have cut : cStr (pieces.flatten ++ [0]) = cStr pieces.flatten := by
    rw [cStr, List.takeWhile_append]
    split
    · rename_i whole
      rw [List.takeWhile_cons_of_neg (by decide), List.append_nil]
      exact ((List.takeWhile_prefix _).eq_of_length whole).symm
    · rfl
  rw [data, bufString, if_pos (List.mem_append_right _ (List.mem_singleton_self 0)), cut]

theorem bufString_nothing : bufString (responseData []).data = .error .outOfBounds := rfl

/-! ## Rows -/

section Rows
variable {rowSize skip num : Nat} {lines : List Bytes} {rows : List (Option Bytes)}

theorem copyLines_ok (size : rows.length = 10) (inside : num ≤ 10)
    (fits : ∀ line ∈ lines.take (10 - num), (line.drop skip).length < rowSize) :
    ∃ rows', copyLines rowSize skip lines rows num = .ok (rows', num + (lines.take (10 - num)).length) ∧
      rows'.take (num + (lines.take (10 - num)).length) =
        rows.take num ++ (lines.take (10 - num)).map fun line => some (line.drop skip) := by
  induction lines generalizing rows num with
  | nil => exact ⟨rows, by rw [copyLines, List.take_nil]; rfl, by simp⟩
  | cons line lines ih =>
      by_cases more : num ≤ 9
      · have room : 10 - num = 10 - (num + 1) + 1 := by omega
        rw [room, List.take_succ_cons] at fits ⊢
        obtain ⟨short, fits⟩ := List.forall_mem_cons.mp fits
        obtain ⟨rows', ran, front⟩ := @ih (num + 1) (rows.set num (some (line.drop skip))) (by rw [List.length_set, size])
          (by omega) fits
        refine ⟨rows', ?_, ?_⟩
        · rw [copyLines, if_pos more, strcpyRow, if_pos ⟨by omega, short⟩, ok_bind, ran, List.length_cons]
          congr 2
          omega
        · rw [List.length_cons, ← Nat.add_assoc, Nat.add_right_comm, front, List.map_cons,
            List.take_succ_eq_append_getElem (by rw [List.length_set]; omega), List.getElem_set_self,
            List.take_set_of_le (Nat.le_refl num), List.append_assoc, List.singleton_append]
      · obtain rfl : num = 10 := by omega
        exact ⟨rows, by rw [copyLines, if_neg more]; rfl, by simp⟩

theorem copyLines_long (size : rows.length = 10) (inside : num ≤ 10)
    (long : ¬ ∀ line ∈ lines.take (10 - num), (line.drop skip).length < rowSize) :
    copyLines rowSize skip lines rows num = .error .outOfBounds := by
  induction lines generalizing rows num with
  | nil => exact absurd (by simp) long
  | cons line lines ih =>
      by_cases more : num ≤ 9
      · have room : 10 - num = 10 - (num + 1) + 1 := by omega
        rw [room, List.take_succ_cons, List.forall_mem_cons, not_and] at long
        rw [copyLines, if_pos more, strcpyRow]
        by_cases short : (line.drop skip).length < rowSize
        · rw [if_pos ⟨by omega, short⟩, ok_bind]
          exact ih (by rw [List.length_set, size]) (by omega) (long short)
        · rw [if_neg fun fits => short fits.2]
          rfl
      · obtain rfl : num = 10 := by omega
        exact absurd (by simp) long

end Rows

/-! ## Entries -/

section Entries
variable {entries : List StunEntry} {shape : LineShape} {lines : List Bytes} {i port : Nat} {host : Option Bytes}

theorem setHost_ok (inside : i < entries.length) :
    setHost entries i host = .ok (entries.set i ⟨host, entries[i].port⟩) := by
  rw [setHost, List.getElem?_eq_getElem inside]
  rfl

theorem setPort_ok {before : Nat} (inside : i < entries.length) :
    setPort (entries.set i ⟨host, before⟩) i port = .ok (entries.set i ⟨host, port⟩) := by
  rw [setPort, List.getElem?_eq_getElem (by rwa [List.length_set]), List.getElem_set_self, inBounds_some, ok_bind, List.set_set]
  rfl

theorem StunList.Lists.of_init (entries : List StunEntry) (counted : (⟨entries, 0⟩ : StunList).Counted) :
    (⟨entries, 0⟩ : StunList).Lists shape lines :=
  ⟨counted, nofun⟩

theorem StunList.Lists.clear (lists : (⟨entries, i⟩ : StunList).Lists shape lines) :
    (⟨entries.set i ⟨none, port⟩, i⟩ : StunList).Lists shape lines := by
  obtain ⟨⟨ten, inside, counted⟩, listed⟩ := lists
  refine ⟨⟨by rwa [List.length_set], inside, fun j entry found => ?_⟩, fun j below => ?_⟩
  · rw [List.getElem?_set] at found
    split at found
    · rename_i same
      split at found
      · cases found
        simp [same]
      · cases found
    · exact counted j entry found
  · obtain ⟨line, host, port', at_, found, names⟩ := listed j below
    have other : j < i := below
    exact ⟨line, host, port', at_, by rw [List.getElem?_set_ne other.ne', found], names⟩

theorem StunList.Lists.add {line name : Bytes} (lists : (⟨entries, i⟩ : StunList).Lists shape lines) (below : i < 10)
    (at_ : lines[i]? = some line) (names : shape.Names line name port) :
    (⟨entries.set i ⟨some name, port⟩, i + 1⟩ : StunList).Lists shape lines := by
  obtain ⟨⟨ten, inside, counted⟩, listed⟩ := lists
  have room : i < entries.length := by rw [ten]; exact below
  refine ⟨⟨by rwa [List.length_set], below, fun j entry found => ?_⟩, fun j here => ?_⟩
  · rw [List.getElem?_set] at found
    split at found
    · rename_i same
      cases found
      simp [← same]
    · rename_i other
      have before := counted j entry found
      simp only [before]
      omega
  · by_cases same : i = j
    · subst same
      exact ⟨line, name, port, at_, List.getElem?_set_self room, names⟩
    · obtain ⟨line, host, port', at_', found, names'⟩ := listed j (by have := show j < i + 1 from here; show j < i; omega)
      exact ⟨line, host, port', at_', by rw [List.getElem?_set_ne same, found], names'⟩

theorem StunList.not_lists_host {name : Bytes} (inside : i < entries.length) :
    ¬ (⟨entries.set i ⟨some name, port⟩, i⟩ : StunList).Lists shape lines := by
  intro lists
  have counted := lists.counted.2.2 i _ (List.getElem?_set_self inside)
  exact absurd (counted.mp rfl) (Nat.lt_irrefl i)

end Entries

section Parse
variable {format : StunFormat} {shape : LineShape} {mallocs : Nat → Bool} {entries : List StunEntry} {i : Nat}
  {lines done rest : List Bytes}

theorem parseRows_keeps {sep : UInt8} {skip : Nat} {rows : List (Option Bytes)} {after : StunList} {err : ErrorCode}
    (ran : parseRows sep skip mallocs i rows entries = .ok (after, err)) :
    i ≤ after.num ∧ ∀ j < i, after.entries[j]? = entries[j]? := by
  induction rows generalizing i entries with
  | nil =>
      cases ran
      exact ⟨Nat.le_refl _, fun _ _ => rfl⟩
  | cons row rows ih =>
      rw [parseRows] at ran
      obtain ⟨text, -, ran⟩ := bind_eq_ok ran
      split at ran
      case h_1 =>
          cases ran
          exact ⟨Nat.le_refl _, fun _ _ => rfl⟩
      case h_2 host fields _ =>
          split at ran
          case isTrue =>
              obtain ⟨cleared, set, ran⟩ := bind_eq_ok ran
              obtain ⟨entry, -, set⟩ := bind_eq_ok set
              cases set
              cases ran
              exact ⟨Nat.le_refl _, fun j below => List.getElem?_set_ne below.ne'⟩
          case isFalse =>
              obtain ⟨hosted, set, ran⟩ := bind_eq_ok ran
              obtain ⟨entry, -, set⟩ := bind_eq_ok set
              cases set
              split at ran
              · cases ran
                exact ⟨Nat.le_refl _, fun j below => List.getElem?_set_ne below.ne'⟩
              · obtain ⟨listed, set, ran⟩ := bind_eq_ok ran
                obtain ⟨entry', -, set⟩ := bind_eq_ok set
                cases set
                obtain ⟨further, same⟩ := ih ran
                refine ⟨Nat.le_of_succ_le further, fun j below => ?_⟩
                rw [same j (Nat.lt_succ_of_lt below), List.getElem?_set_ne below.ne', List.getElem?_set_ne below.ne']

/-- The rows of the lines. -/
def rowsOf (format : StunFormat) (lines : List Bytes) : List (Option Bytes) :=
  lines.map fun line => some (line.drop format.lineSkip)

theorem parseRows_ok (room : i + rest.length ≤ entries.length) : ∃ after err,
    parseRows format.sep format.portSkip mallocs i (rowsOf format rest) entries = .ok (after, err) := by
  induction rest generalizing i entries with
  | nil => exact ⟨⟨entries, i⟩, .success, rfl⟩
  | cons line rest ih =>
      rw [List.length_cons] at room
      have inside : i < entries.length := by omega
      rw [rowsOf, List.map_cons, parseRows, inBounds_some, ok_bind]
      cases tokens format.sep (line.drop format.lineSkip) with
      | nil => exact ⟨⟨entries, i⟩, .invalidData, rfl⟩
      | cons name fields =>
          cases mallocs i with
          | false =>
              simp only [Bool.not_false, if_true, setHost_ok inside, ok_bind]
              exact ⟨_, .memory, rfl⟩
          | true =>
              simp only [Bool.not_true, Bool.false_eq_true, if_false, setHost_ok inside, ok_bind]
              cases fields with
              | nil => exact ⟨_, .invalidData, rfl⟩
              | cons field fields =>
                  simp only [setPort_ok inside, ok_bind]
                  exact ih (by rw [List.length_set]; omega)

/-- The list tells what the lines say exactly when they are clear, and it was read to its end exactly when they are
whole. -/
theorem parseRows_lists (finds : Finds format shape) (cut : lines.take 10 = done ++ rest) (at_ : done.length = i)
    (lists : (⟨entries, i⟩ : StunList).Lists shape lines) : ∃ after err,
    parseRows format.sep format.portSkip mallocs i (rowsOf format rest) entries = .ok (after, err) ∧
      (after.Lists shape lines ↔ Clear format shape mallocs i rest) ∧
      (after.Lists shape lines → (err = .success ↔ Whole format mallocs i rest)) := by
  induction rest generalizing done i entries with
  | nil => exact ⟨⟨entries, i⟩, .success, rfl, iff_of_true lists trivial, fun _ => iff_of_true rfl trivial⟩
  | cons line rest ih =>
      have below : i < 10 := by
        have size := congrArg List.length cut
        rw [List.length_take, List.length_append, List.length_cons] at size
        omega
      have room : i < entries.length := lists.counted.1.symm ▸ below
      have here : lines[i]? = some line := by
        rw [← List.getElem?_take_of_lt below, cut, ← at_, List.getElem?_append_right (Nat.le_refl _), Nat.sub_self]
        rfl
      rw [rowsOf, List.map_cons, parseRows, inBounds_some, ok_bind, Clear, Whole]
      cases found : tokens format.sep (line.drop format.lineSkip) with
      | nil =>
          exact ⟨⟨entries, i⟩, .invalidData, rfl, iff_of_true lists (.inl rfl), fun _ =>
            iff_of_false nofun fun whole => whole.1 rfl⟩
      | cons name fields =>
          cases memory : mallocs i with
          | false =>
              refine ⟨⟨entries.set i ⟨none, entries[i].port⟩, i⟩, .memory, ?_, iff_of_true lists.clear (.inr (.inl rfl)),
                fun _ => iff_of_false nofun fun whole => nomatch whole.2.1⟩
              simp only [Bool.not_false, if_true, setHost_ok room, ok_bind]
              rfl
          | true =>
              simp only [Bool.not_true, Bool.false_eq_true, if_false, setHost_ok room, ok_bind]
              cases fields with
              | nil =>
                  refine ⟨⟨entries.set i ⟨some name, entries[i].port⟩, i⟩, .invalidData, rfl,
                    iff_of_false (StunList.not_lists_host room) ?_, fun lists' => absurd lists' (StunList.not_lists_host room)⟩
                  intro clear
                  obtain nothing | never | ⟨⟨host, port, names⟩, -⟩ := clear
                  · cases nothing
                  · cases never
                  · obtain ⟨field, fields, parts, -⟩ := finds line host port names
                    cases found.symm.trans parts
              | cons field fields =>
                  simp only [setPort_ok room, ok_bind]
                  generalize told : (strtol (field.drop format.portSkip) % 2 ^ 16).toNat = port
                  have next : lines.take 10 = (done ++ [line]) ++ rest := by rw [cut, List.append_assoc]; rfl
                  have at_' : (done ++ [line]).length = i + 1 := by rw [List.length_append, at_]; rfl
                  by_cases names : ∃ host port, shape.Names line host port
                  · obtain ⟨host, port', names⟩ := names
                    obtain ⟨field', fields', parts, number⟩ := finds line host port' names
                    obtain ⟨rfl, rest_⟩ := List.cons.inj (found.symm.trans parts)
                    obtain ⟨rfl, -⟩ := List.cons.inj rest_
                    obtain rfl : port' = port := (strtol_of_scanNumber number names.choose_spec.2.2.2.2).symm.trans told
                    obtain ⟨after, err, ran, right, whole⟩ := ih next at_' (lists.add below here names)
                    refine ⟨after, err, ran, right.trans ?_, fun lists' => (whole lists').trans ?_⟩
                    · constructor
                      · exact fun clear => .inr (.inr ⟨⟨_, _, names⟩, clear⟩)
                      · intro clear
                        obtain nothing | never | ⟨-, clear⟩ := clear
                        · cases nothing
                        · cases never
                        · exact clear
                    · exact ⟨fun whole => ⟨List.cons_ne_nil _ _, trivial, whole⟩, fun whole => whole.2.2⟩
                  · -- the entry stays, and is counted
                    have room' : i + 1 + rest.length ≤ (entries.set i ⟨some name, port⟩).length := by
                      have size := congrArg List.length cut
                      rw [List.length_take, List.length_append, List.length_cons] at size
                      rw [List.length_set, lists.counted.1]
                      omega
                    obtain ⟨after, err, ran⟩ := @parseRows_ok format mallocs _ (i + 1) rest room'
                    obtain ⟨further, same⟩ := parseRows_keeps ran
                    have wrong : ¬ after.Lists shape lines := by
                      intro lists'
                      obtain ⟨line', host, port', at_'', listed, named⟩ := lists'.listed i further
                      obtain rfl := Option.some.inj (here.symm.trans at_'')
                      exact names ⟨host, port', named⟩
                    refine ⟨after, err, ran, iff_of_false wrong ?_, fun lists' => absurd lists' wrong⟩
                    intro clear
                    obtain nothing | never | ⟨named, -⟩ := clear
                    · cases nothing
                    · cases never
                    · exact names named

end Parse

/-! ## Lists -/

section Read
variable {format : StunFormat} {shape : LineShape} {pieces : List Bytes} {mallocs : Nat → Bool} {list : StunList}

theorem readList_readable (finds : Finds format shape) (counted : list.Counted)
    (readable : list.Readable format shape pieces mallocs) : ∃ after err,
    readList format pieces mallocs list = .ok (after, err) ∧ after.Lists shape (textLines pieces) ∧
      (err = .success ↔ Whole format mallocs 0 ((textLines pieces).take 10)) := by
  obtain ⟨entries, num⟩ := list
  obtain ⟨rfl, arrived, fits, clear⟩ := readable
  obtain ⟨rows, copied, front⟩ := @copyLines_ok format.rowSize format.lineSkip 0 (textLines pieces) (List.replicate 10 none)
    List.length_replicate (Nat.zero_le 10) fits
  rw [List.take_zero, List.nil_append] at front
  obtain ⟨after, err, ran, right, whole⟩ := @parseRows_lists format shape mallocs entries 0 (textLines pieces) [] _ finds rfl
    rfl (StunList.Lists.of_init entries counted)
  refine ⟨after, err, ?_, right.mpr clear, whole (right.mpr clear)⟩
  rw [readList, bufString_responseData arrived, ok_bind]
  rw [textLines] at copied front ran
  simp only [copied, ok_bind, front]
  exact ran

theorem readList_unreadable (finds : Finds format shape) (counted : list.Counted)
    (unreadable : ¬ list.Readable format shape pieces mallocs) {after : StunList} {err : ErrorCode}
    (ran : readList format pieces mallocs list = .ok (after, err)) :
    list.num = 0 ∧ ¬ after.Lists shape (textLines pieces) := by
  obtain ⟨entries, num⟩ := list
  by_cases arrived : pieces = []
  · subst arrived
    rw [readList, bufString_nothing] at ran
    cases ran
  rw [readList, bufString_responseData arrived, ok_bind] at ran
  by_cases fits : ∀ line ∈ (textLines pieces).take (10 - num), (line.drop format.lineSkip).length < format.rowSize
  · obtain ⟨rows, copied, front⟩ := @copyLines_ok format.rowSize format.lineSkip num (textLines pieces)
      (List.replicate 10 none) List.length_replicate counted.2.1 fits
    rw [textLines] at copied front
    simp only [copied, ok_bind, front] at ran
    cases num with
    | zero =>
        refine ⟨rfl, fun lists => unreadable ⟨rfl, arrived, fits, ?_⟩⟩
        obtain ⟨after', err', ran', right, -⟩ := @parseRows_lists format shape mallocs entries 0 (textLines pieces) [] _ finds rfl
          rfl (StunList.Lists.of_init entries counted)
        obtain ⟨rfl, -⟩ := Prod.mk.inj (Except.ok.inj (ran'.symm.trans ran))
        exact right.mp lists
    | succ num =>
        -- nothing was copied to the first row
        rw [List.take_replicate, Nat.min_eq_left counted.2.1, List.replicate_succ, List.cons_append, parseRows] at ran
        cases ran
  · have long := @copyLines_long format.rowSize format.lineSkip num (textLines pieces) (List.replicate 10 none)
      List.length_replicate counted.2.1 fits
    rw [textLines] at long
    rw [long] at ran
    cases ran

end Read

/-! ## Calls -/

section Calls
variable {session after : StunSession} {download : StunDownload}

def StunSession.Counted (session : StunSession) : Prop := session.ipv4.Counted ∧ session.ipv6.Counted

theorem StunSession.Reads.counted (counted : session.Counted) (reads : session.Reads download after) : after.Counted := by
  constructor
  · have ipv4 := reads.ipv4
    cases result : download.ipv4 with
    | error err =>
        rw [result] at ipv4
        exact ipv4 ▸ counted.1
    | ok pieces =>
        rw [result] at ipv4
        exact ipv4.counted
  · cases reads.ipv6 with
    | inl same => exact same ▸ counted.2
    | inr read =>
        obtain ⟨pieces, -, lists⟩ := read
        exact lists.counted

theorem getStunServers_read {pieces : List Bytes} {list : StunList} {err : ErrorCode} (first : download.ipv4 = .ok pieces)
    (ran : readList .ipv4 pieces download.mallocs4 session.ipv4 = .ok (list, err)) :
    getStunServers session download =
      if err ≠ .success then .ok (⟨list, session.ipv6⟩, err) else getStunServersIpv6 ⟨list, session.ipv6⟩ download := by
  rw [getStunServers, first]
  simp only [ran, ok_bind]
  rfl

theorem getStunServersIpv6_read {pieces : List Bytes} {list : StunList} {err : ErrorCode} (second : download.ipv6 = .ok pieces)
    (ran : readList .ipv6 pieces download.mallocs6 session.ipv6 = .ok (list, err)) :
    getStunServersIpv6 session download = .ok (⟨session.ipv4, list⟩, err) := by
  rw [getStunServersIpv6, second]
  simp only [ran, ok_bind]
  rfl

theorem getStunServersIpv6_inv {err : ErrorCode} (ran : getStunServersIpv6 session download = .ok (after, err)) :
    after.ipv4 = session.ipv4 ∧ ∀ pieces, download.ipv6 = .ok pieces →
      readList .ipv6 pieces download.mallocs6 session.ipv6 = .ok (after.ipv6, err) := by
  unfold getStunServersIpv6 at ran
  cases second : download.ipv6 with
  | error failed =>
      rw [second] at ran
      cases ran
      exact ⟨rfl, nofun⟩
  | ok pieces =>
      rw [second] at ran
      obtain ⟨result, read, ran⟩ := bind_eq_ok ran
      cases ran
      refine ⟨rfl, fun pieces' same => ?_⟩
      obtain rfl := Except.ok.inj same
      exact read

theorem getStunServers_inv {pieces : List Bytes} {err : ErrorCode} (first : download.ipv4 = .ok pieces)
    (ran : getStunServers session download = .ok (after, err)) : ∃ err',
    readList .ipv4 pieces download.mallocs4 session.ipv4 = .ok (after.ipv4, err') ∧
      (err' = .success → getStunServersIpv6 ⟨after.ipv4, session.ipv6⟩ download = .ok (after, err)) := by
  cases read : readList .ipv4 pieces download.mallocs4 session.ipv4 with
  | error fault =>
      rw [getStunServers, first] at ran
      simp only [read] at ran
      cases ran
  | ok result =>
      obtain ⟨list, err'⟩ := result
      rw [getStunServers_read first read] at ran
      by_cases success : err' = .success
      · rw [if_neg (not_not.mpr success)] at ran
        have same := (getStunServersIpv6_inv ran).1
        exact ⟨err', by rw [same], fun _ => by rw [same]; exact ran⟩
      · rw [if_pos success] at ran
        cases ran
        exact ⟨_, rfl, fun success' => absurd success' success⟩

theorem getStunServers_readable (counted : session.Counted) (readable : session.Readable download) :
    ∃ after err, getStunServers session download = .ok (after, err) ∧ session.Reads download after := by
  unfold StunSession.Readable at readable
  cases first : download.ipv4 with
  | error err => exact ⟨session, err, by rw [getStunServers, first]; rfl, by rw [first], .inl rfl⟩
  | ok pieces =>
      rw [first] at readable
      obtain ⟨list, err, read, lists, whole⟩ := readList_readable finds_ipv4 counted.1 readable.1
      rw [getStunServers_read first read]
      by_cases success : err = .success
      · have readable6 := readable.2 (whole.mp success)
        rw [if_neg (not_not.mpr success)]
        cases second : download.ipv6 with
        | error err =>
            exact ⟨⟨list, session.ipv6⟩, err, by rw [getStunServersIpv6, second]; rfl, by rw [first]; exact lists, .inl rfl⟩
        | ok pieces6 =>
            rw [second] at readable6
            obtain ⟨list6, err6, read6, lists6, -⟩ := readList_readable finds_ipv6 counted.2 readable6
            exact ⟨⟨list, list6⟩, err6, @getStunServersIpv6_read ⟨list, session.ipv6⟩ download pieces6 list6 err6 second read6,
              by rw [first]; exact lists, .inr ⟨pieces6, second, lists6⟩⟩
      · rw [if_pos success]
        exact ⟨⟨list, session.ipv6⟩, err, rfl, by rw [first]; exact lists, .inl rfl⟩

theorem readable_of_reads (counted : session.Counted) {err : ErrorCode}
    (ran : getStunServers session download = .ok (after, err)) (reads : session.Reads download after) :
    session.Readable download := by
  have ipv4 := reads.ipv4
  unfold StunSession.Readable
  cases first : download.ipv4 with
  | error failed => trivial
  | ok pieces =>
      rw [first] at ipv4
      obtain ⟨err', read, rest⟩ := getStunServers_inv first ran
      have readable : session.ipv4.Readable .ipv4 .ipv4 pieces download.mallocs4 := by
        by_contra unreadable
        exact (readList_unreadable finds_ipv4 counted.1 unreadable read).2 ipv4
      refine ⟨readable, fun whole => ?_⟩
      obtain ⟨list, err'', read', -, whole'⟩ := readList_readable finds_ipv4 counted.1 readable
      obtain ⟨-, rfl⟩ := Prod.mk.inj (Except.ok.inj (read.symm.trans read'))
      cases second : download.ipv6 with
      | error failed => trivial
      | ok pieces6 =>
          have read6 := (getStunServersIpv6_inv (rest (whole'.mpr whole))).2 pieces6 second
          by_contra unreadable
          obtain ⟨empty, wrong⟩ := readList_unreadable finds_ipv6 counted.2 unreadable read6
          cases reads.ipv6 with
          | inl still =>
              -- a list that was empty and is unchanged tells what any text says
              apply wrong
              rw [still]
              exact ⟨counted.2, fun i below => absurd below (by rw [empty]; exact Nat.not_lt_zero i)⟩
          | inr read =>
              obtain ⟨pieces', second', lists⟩ := read
              obtain rfl := Except.ok.inj (second.symm.trans second')
              exact wrong lists

theorem readsServers_iff_of_counted (counted : session.Counted) (downloads : List StunDownload) :
    ReadsServers session downloads ↔ Along getStunServers StunSession.Readable session downloads := by
  induction downloads generalizing session with
  | nil => exact Iff.rfl
  | cons download downloads ih =>
      constructor
      · intro ⟨after, err, ran, reads, later⟩
        refine ⟨readable_of_reads counted ran reads, fun after' err' ran' => ?_⟩
        obtain ⟨rfl, -⟩ := Prod.mk.inj (Except.ok.inj (ran.symm.trans ran'))
        exact (ih (reads.counted counted)).mp later
      · intro ⟨readable, later⟩
        obtain ⟨after, err, ran, reads⟩ := getStunServers_readable counted readable
        exact ⟨after, err, ran, reads, (ih (reads.counted counted)).mpr (later after err ran)⟩

theorem StunSession.counted_init : StunSession.init.Counted := by
  have empty : StunList.init.Counted := by
    refine ⟨rfl, Nat.zero_le 10, fun i entry found => ?_⟩
    obtain ⟨-, rfl⟩ := List.mem_replicate.mp (List.mem_of_getElem? found)
    exact iff_of_false nofun (Nat.not_lt_zero i)
  exact ⟨empty, empty⟩

end Calls

/-- Every call leaves what the texts say exactly when every text can be read in the session that it comes to. -/
theorem readsServers_iff (downloads : List StunDownload) :
    ReadsServers .init downloads ↔ Along getStunServers StunSession.Readable .init downloads :=
  readsServers_iff_of_counted StunSession.counted_init downloads

/-- A download of one line for each list. -/
def oneLine (line : Bytes) : StunDownload :=
  ⟨.ok [line], fun _ => true, .ok [text "[2001:db8::1]:3478"], fun _ => true⟩

theorem textLines_one {line : Bytes} (some_ : line ≠ []) (plain : ∀ c ∈ line, c ≠ 0 ∧ c ≠ 0x0a) : textLines [line] = [line] := by
  have whole : cStr line = line := List.takeWhile_eq_self_iff.mpr fun c member => by simp [(plain c member).1]
  rw [textLines, List.flatten_singleton, whole]
  exact tokens_of_last (fun member => (plain _ member).2 rfl) some_

/-- A line that is longer than the whole table, and a line without a separator. -/
theorem not_readsServers :
    ¬ ReadsServers .init [oneLine (List.replicate 3000 0x61)] ∧ ¬ ReadsServers .init [oneLine (text "localhost")] := by
  rw [readsServers_iff_of_counted StunSession.counted_init, readsServers_iff_of_counted StunSession.counted_init]
  constructor
  · intro along
    have readable := along.1
    have line := @textLines_one (List.replicate 3000 0x61) (by rw [List.replicate_succ]; exact List.cons_ne_nil _ _)
      fun c member => by rw [(List.mem_replicate.mp member).2]; decide
    have short := readable.1.fits (List.replicate 3000 0x61) (by rw [line]; exact List.mem_singleton_self _)
    rw [StunFormat.ipv4, List.drop_zero, List.length_replicate] at short
    exact absurd short (by decide)
  · intro along
    have readable := along.1
    have line := @textLines_one (text "localhost") (by decide) (by simp [text])
    have clear := readable.1.clear
    rw [line] at clear
    obtain nothing | never | ⟨⟨host, port, rest, parts, -⟩, -⟩ := clear
    · cases nothing
    · cases never
    · have separator : (0x3a : UInt8) ∈ text "localhost" := by
        rw [parts]
        simp [LineShape.ipv4]
      exact absurd separator (by decide)

end Chiaki.Holepunch
