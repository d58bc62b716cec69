import Chiaki.Takion.Packet

/-!
# Parsing the header of a response

`chiaki_http_header_parse`, which works in place: it ends the strings in the buffer with zeros and keeps pointers to
them. What it makes of a block is put together line by line.
-/

namespace Chiaki
open Memory

/-- `ChiakiHttpHeader`: its own number, and where its strings begin. -/
structure HttpHeader where
  node : Nat
  key : Nat
  value : Nat

structure HttpParse where
  buf : Bytes
  pos : Nat
  keyPtr : Nat
  valuePtr : Option Nat
  /-- The list, with the latest header first, and the number of nodes that were allocated. -/
  header : List HttpHeader
  allocated : Nat

structure HttpParseResult where
  buf : Bytes
  header : List HttpHeader
  allocated : Nat
  freed : List Nat
  err : ErrorCode

/-- `\r` or `\n`. -/
def isLineEnd (c : UInt8) : Bool := c = 0x0d || c = 0x0a

namespace HttpParse

/-- `FAIL`. -/
def fail (s : HttpParse) (err : ErrorCode) : HttpParseResult :=
  ⟨s.buf, s.header, s.allocated, s.header.map (·.node), err⟩

def succeed (s : HttpParse) : HttpParseResult := ⟨s.buf, s.header, s.allocated, [], .success⟩

/-- What a round of the loop leads to. -/
inductive Round where
  | next (s : HttpParse)
  | returned (r : HttpParseResult)

/-- The string of a key has ended: the value begins behind the colon and one space. -/
def beginValue (s : HttpParse) : Checked Round := do
  let buf ← setField s.buf s.pos [0]
  let s := { s with buf := buf, pos := s.pos + 1 }
  if s.pos = s.buf.length then pure (.returned (s.fail .invalidData))
  else do
    let c ← byteAt s.buf s.pos
    let s := { s with pos := if c = 0x20 then s.pos + 1 else s.pos }
    if s.pos = s.buf.length then pure (.returned (s.fail .invalidData))
    -- the loop goes on behind the first character of the value
    else pure (.next { s with pos := s.pos + 1, valuePtr := some s.pos })

/-- The string of a value has ended. -/
def endValue (malloc : Nat → Bool) (s : HttpParse) (valuePtr : Nat) : Checked Round := do
  let buf ← setField s.buf s.pos [0]
  let s := { s with buf := buf }
  if !malloc s.allocated then pure (.returned (s.fail .memory))
  else pure (.next { s with
    pos := s.pos + 1
    keyPtr := s.pos + 1
    valuePtr := none
    header := ⟨s.allocated, s.keyPtr, valuePtr⟩ :: s.header
    allocated := s.allocated + 1 })

def round (malloc : Nat → Bool) (s : HttpParse) : Checked Round := do
  let c ← byteAt s.buf s.pos
  if c = 0 then pure (.returned s.succeed)
  else
    match s.valuePtr with
    | none =>
        if c = 0x3a then if s.keyPtr = s.pos then pure (.returned (s.fail .invalidData)) else s.beginValue
        else if isLineEnd c then
          if s.keyPtr + 1 < s.pos then pure (.returned (s.fail .invalidData))
          else pure (.next { s with pos := s.pos + 1, keyPtr := s.pos + 1 })
        else pure (.next { s with pos := s.pos + 1 })
    | some valuePtr =>
        if isLineEnd c then
          if valuePtr = s.pos then pure (.returned (s.fail .invalidData)) else s.endValue malloc valuePtr
        else pure (.next { s with pos := s.pos + 1 })

/-- The loop of `chiaki_http_header_parse`. `malloc` says which allocations succeed. -/
def loop (malloc : Nat → Bool) : (fuel : Nat) → HttpParse → Checked HttpParseResult
  | 0, _ => .error .endless
  | fuel + 1, s =>
      if s.pos < s.buf.length then do
        match ← s.round malloc with
        | .next s => loop malloc fuel s
        | .returned r => pure r
      else pure s.succeed

end HttpParse

/-- `chiaki_http_header_parse`. -/
def httpHeaderParse (malloc : Nat → Bool) (buf : Bytes) : Checked HttpParseResult :=
  HttpParse.loop malloc (buf.length + 1) ⟨buf, 0, 0, none, [], 0⟩

/-- The string at a pointer. -/
def cString (buf : Bytes) (ptr : Nat) : Bytes := (buf.drop ptr).takeWhile (· ≠ 0)

def headerStrings (buf : Bytes) (header : List HttpHeader) : List (Bytes × Bytes) :=
  header.map fun entry => (cString buf entry.key, cString buf entry.value)

def HttpParseResult.strings (r : HttpParseResult) : List (Bytes × Bytes) := headerStrings r.buf r.header

/-! ## The nodes -/

namespace HttpParse

/-- The list holds each node that was allocated. -/
def Linked (header : List HttpHeader) (allocated : Nat) : Prop := header.map (·.node) = (List.range allocated).reverse

theorem Linked.cons {header : List HttpHeader} {allocated : Nat} (linked : Linked header allocated) (key value : Nat) :
    Linked (⟨allocated, key, value⟩ :: header) (allocated + 1) := by
  rw [Linked, List.range_succ, List.reverse_append, List.reverse_singleton, List.singleton_append, ← linked]
  rfl

/-- Each node is in the list when the function returns, and after an error each has been freed. -/
structure NodesKept (r : HttpParseResult) : Prop where
  linked : Linked r.header r.allocated
  freed : r.err ≠ .success → r.freed = (List.range r.allocated).reverse
  kept : r.err = .success → r.freed = []

theorem nodesKept_fail (s : HttpParse) (linked : Linked s.header s.allocated) {err : ErrorCode} (bad : err ≠ .success) :
    NodesKept (s.fail err) := ⟨linked, fun _ => linked, fun same => absurd same bad⟩

theorem Linked.succeed {s : HttpParse} (linked : Linked s.header s.allocated) : NodesKept s.succeed :=
  ⟨linked, fun bad => absurd rfl bad, fun _ => rfl⟩

/-- The list is kept, or the function returns as it should. -/
def Round.Kept : Round → Prop
  | .next s => Linked s.header s.allocated
  | .returned r => NodesKept r

theorem beginValue_nodes {s : HttpParse} (linked : Linked s.header s.allocated) {o : Round} (ran : s.beginValue = .ok o) :
    o.Kept := by
  obtain ⟨buf, -, ran⟩ := bind_eq_ok ran
  dsimp only at ran
  split at ran
  · obtain rfl := Except.ok.inj ran
    exact nodesKept_fail ⟨buf, _, _, _, _, _⟩ linked (by simp)
  · obtain ⟨c, -, ran⟩ := bind_eq_ok ran
    generalize (if c = 0x20 then s.pos + 1 + 1 else s.pos + 1) = pos at ran
    split at ran <;> obtain rfl := Except.ok.inj ran
    · exact nodesKept_fail ⟨buf, _, _, _, _, _⟩ linked (by simp)
    · exact linked

theorem endValue_nodes {malloc : Nat → Bool} {s : HttpParse} {valuePtr : Nat} (linked : Linked s.header s.allocated)
    {o : Round} (ran : s.endValue malloc valuePtr = .ok o) : o.Kept := by
  obtain ⟨buf, -, ran⟩ := bind_eq_ok ran
  dsimp only at ran
  split at ran <;> obtain rfl := Except.ok.inj ran
  · exact nodesKept_fail ⟨buf, _, _, _, _, _⟩ linked (by simp)
  · exact linked.cons _ _

theorem round_nodes {malloc : Nat → Bool} {s : HttpParse} (linked : Linked s.header s.allocated) {o : Round}
    (ran : s.round malloc = .ok o) : o.Kept := by
  have invalid : NodesKept (s.fail .invalidData) := nodesKept_fail s linked (by simp)
  obtain ⟨c, -, ran⟩ := bind_eq_ok ran
  split at ran
  · obtain rfl := Except.ok.inj ran
    exact linked.succeed
  split at ran
  · split at ran
    · split at ran
      · obtain rfl := Except.ok.inj ran
        exact invalid
      · exact beginValue_nodes linked ran
    · split at ran
      · split at ran <;> obtain rfl := Except.ok.inj ran
        · exact invalid
        · exact linked
      · obtain rfl := Except.ok.inj ran
        exact linked
  · split at ran
    · split at ran
      · obtain rfl := Except.ok.inj ran
        exact invalid
      · exact endValue_nodes linked ran
    · obtain rfl := Except.ok.inj ran
      exact linked

theorem loop_nodes {malloc : Nat → Bool} {fuel : Nat} {s : HttpParse} {r : HttpParseResult}
    (linked : Linked s.header s.allocated) (ran : loop malloc fuel s = .ok r) : NodesKept r := by
  induction fuel generalizing s with
  | zero => cases ran
  | succ fuel ih =>
      rw [loop] at ran
      split at ran
      · obtain ⟨o, rounded, ran⟩ := bind_eq_ok ran
        have kept := round_nodes linked rounded
        cases o with
        | next s' => exact ih kept ran
        | returned r' =>
            obtain rfl := Except.ok.inj ran
            exact kept
      · obtain rfl := Except.ok.inj ran
        exact linked.succeed

end HttpParse
end Chiaki
