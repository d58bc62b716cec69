import Chiaki.Lib.FirstMatch
import Chiaki.Rudp.Message

/-!
# Receiving the header of a response

`chiaki_recv_http_header`, and `chiaki_send_recv_http_header_psn` for a header in one RUDP message.
-/

namespace Chiaki
open Memory FirstMatch

/-- `nl_state`, named by what has been read last. -/
inductive HttpNl where
  | none | r | rn | rnr | final
  deriving DecidableEq

namespace HttpNl

/-- `transitions_r`. -/
def onR : HttpNl → HttpNl
  | none => r
  | r => r
  | rn => rnr
  | rnr => r
  | final => final

/-- `transitions_n`. -/
def onN : HttpNl → HttpNl
  | none => none
  | r => rn
  | rn => none
  | rnr => final
  | final => final

def next (state : HttpNl) (c : UInt8) : HttpNl :=
  if c = 0x0d then state.onR else if c = 0x0a then state.onN else none

def isFinal (state : HttpNl) : Bool := state = final

/-- The state after a string without an end, by its last characters. -/
def ofReversed : Bytes → HttpNl
  | 0x0d :: 0x0a :: 0x0d :: _ => rnr
  | 0x0d :: _ => r
  | 0x0a :: 0x0d :: _ => rn
  | _ => none

def of (done : Bytes) : HttpNl := ofReversed done.reverse

end HttpNl

/-- CR LF CR LF. -/
def httpTerminator : Bytes := [0x0d, 0x0a, 0x0d, 0x0a]

/-- A header ends here. -/
def HttpEnd (done : Bytes) : Prop := httpTerminator <:+ done

/-- What a select and a `recv` meet. -/
inductive HttpRecv where
  | selectFails (err : ErrorCode)
  | data (chunk : Bytes)
  | interrupted
  | closed
  | failed

structure HttpHeaderRecv where
  buf : Bytes
  pos : Nat
  nl : HttpNl
  receivedSize : Nat

/-- The buffer, `*received_size`, and `*header_size` or an error once the function has returned. -/
structure HttpHeaderResult where
  buf : Bytes
  receivedSize : Nat
  outcome : Option (Except ErrorCode Nat)

/-- The loop of `chiaki_recv_http_header`. -/
def HttpHeaderRecv.loop : HttpHeaderRecv → List HttpRecv → Checked HttpHeaderResult
  | s, [] => pure ⟨s.buf, s.receivedSize, none⟩
  | s, .selectFails err :: _ => pure ⟨s.buf, s.receivedSize, some (.error err)⟩
  | s, .interrupted :: rest => loop s rest
  | s, .closed :: _ => pure ⟨s.buf, s.receivedSize, some (.error .disconnected)⟩
  | s, .failed :: _ => pure ⟨s.buf, s.receivedSize, some (.error .network)⟩
  | s, .data chunk :: rest => do
      let buf ← setField s.buf s.pos chunk
      let receivedSize := s.receivedSize + chunk.length
      let r := scan HttpNl.next HttpNl.isFinal s.nl chunk
      if r.1 = .final then pure ⟨buf, receivedSize, some (.ok (receivedSize - r.2.length))⟩
      else loop ⟨buf, s.pos + chunk.length, r.1, receivedSize⟩ rest

namespace HttpNl

end HttpNl

/-! ## The header of a stream -/

/-- What arrives before the connection ends or the function is stopped. -/
def streamOf : List HttpRecv → Bytes
  | .data chunk :: rest => chunk ++ streamOf rest
  | .interrupted :: rest => streamOf rest
  | _ => []

@[simp] theorem streamOf_nil : streamOf [] = [] := rfl

/-- More can arrive. -/
def HttpRecv.Open : HttpRecv → Prop
  | .data _ => True
  | .interrupted => True
  | _ => False

/-- What is to be received after the first bytes. -/
structure HttpHeaderReceived (size : Nat) (done : Bytes) (events : List HttpRecv) (r : HttpHeaderResult) : Prop where
  received : ∃ front, front <+: events ∧ r.receivedSize = (done ++ streamOf front).length ∧
    r.buf.take r.receivedSize = done ++ streamOf front
  inside : r.receivedSize ≤ size
  found : ∀ n ≤ size, At HttpEnd (done ++ streamOf events) n → r.outcome = some (.ok n)
  correct : ∀ n, r.outcome = some (.ok n) → At HttpEnd (done ++ streamOf events) n ∧ n ≤ r.receivedSize
  waits : r.outcome = none → ∀ event ∈ events, event.Open

/-- The state between two calls of `recv`. -/
structure HttpHeaderRecv.Holds (s : HttpHeaderRecv) (size : Nat) (done : Bytes) : Prop where
  length : s.buf.length = size
  pos : s.pos = done.length
  receivedSize : s.receivedSize = done.length
  bytes : s.buf.take done.length = done
  nl : s.nl = HttpNl.of done
  never : Never HttpEnd done

namespace HttpHeaderRecv
variable {s : HttpHeaderRecv} {size : Nat} {done : Bytes}

theorem Holds.inside (h : s.Holds size done) : done.length ≤ size := by
  have length := congrArg List.length h.bytes
  rw [List.length_take, h.length] at length
  omega

theorem Holds.rest (h : s.Holds size done) {events : List HttpRecv} (nothing : streamOf events = []) {r : HttpHeaderResult}
    (buf : r.buf = s.buf) (received : r.receivedSize = s.receivedSize) (headless : ∀ n, r.outcome ≠ some (.ok n))
    (waits : r.outcome = none → ∀ event ∈ events, event.Open) : HttpHeaderReceived size done events r where
  received := by
    refine ⟨[], List.nil_prefix, ?_, ?_⟩
    · rw [received, h.receivedSize, streamOf_nil, List.append_nil]
    · rw [buf, received, h.receivedSize, h.bytes, streamOf_nil, List.append_nil]
  inside := by
    rw [received, h.receivedSize]
    exact h.inside
  found := by
    intro n _ found
    rw [nothing, List.append_nil] at found
    exact absurd found h.never.not_at
  correct := fun n same => absurd same (headless n)
  waits := waits

theorem Holds.more (h : s.Holds size done) {chunk buf : Bytes} (written : write s.buf s.pos chunk = some buf)
    (never : Never HttpEnd (done ++ chunk)) :
    Holds ⟨buf, s.pos + chunk.length, HttpNl.of (done ++ chunk), s.receivedSize + chunk.length⟩ size (done ++ chunk) where
  length := (length_of_write written).trans h.length
  pos := by rw [List.length_append, h.pos]
  receivedSize := by rw [List.length_append, h.receivedSize]
  bytes := by
    rw [List.length_append, ← h.pos, take_of_write written, h.pos, h.bytes]
  nl := rfl
  never := never

theorem Holds.last (h : s.Holds size done) {chunk buf : Bytes} (written : write s.buf s.pos chunk = some buf)
    (room : (done ++ chunk).length ≤ size) {n : Nat} (found : At HttpEnd (done ++ chunk) n) (events : List HttpRecv) :
    HttpHeaderReceived size done (.data chunk :: events) ⟨buf, (done ++ chunk).length, some (.ok n)⟩ where
  received := by
    refine ⟨[.data chunk], by simp, by simp [streamOf], ?_⟩
    rw [List.length_append, ← h.pos, take_of_write written, h.pos, h.bytes]
    simp [streamOf]
  inside := room
  found := by
    intro m _ first
    rw [streamOf, ← List.append_assoc] at first
    rw [(found.append _).unique first]
  correct := by
    intro m same
    obtain rfl := Except.ok.inj (Option.some.inj same)
    rw [streamOf, ← List.append_assoc]
    exact ⟨found.append _, found.le⟩
  waits := by simp

end HttpHeaderRecv

end Chiaki
