import Chiaki.Takion.CryptActivation

/-!
# The thread of a Takion connection

`takion_thread_func` after its handshake, one step for what happens between two moments at which another thread
may do something. Other threads may use the sending half, or set the keys, at any moment.
-/

namespace Chiaki

/-- `chiaki_takion_set_crypt`. -/
def Takion.setCrypt (takion : Takion) (gkcryptLocal gkcryptRemote : GKCrypt) : Takion :=
  { takion with
    sending := { takion.sending with gkcryptLocal := some gkcryptLocal }
    gkcryptRemote := some gkcryptRemote }

/-- Where the thread is. `flushing i` is the loop over the postponed packets, in front of packet `i`. -/
inductive TakionThreadPoint where
  | recheck
  | flush
  | flushing (i : Nat)
  | receive
  | ended

structure TakionThread where
  takion : Takion
  cryptAvailable : Bool
  point : TakionThreadPoint

inductive TakionThreadOp where
  | setCrypt (gkcryptLocal gkcryptRemote : GKCrypt)
  | sending (f : TakionLocal → TakionLocal)
  | recheck (gmacOk : Nat → Bool)
  | flush
  | flushNext (o : ReceiveOutcome)
  | datagram (o : ReceiveOutcome) (buf : HeapBlock)
  /-- `realloc` fails, and the buffer is not handed on. -/
  | noRealloc
  /-- There is no memory for a buffer, or `takion_recv` fails or is stopped. -/
  | leave

/-- The buffers that `takion_handle_packet` is called with for the first time, and the ones that are freed. -/
structure TakionThreadOut where
  given : List Nat := []
  freed : List Nat := []

namespace TakionThread

/-- After the handshake, which leaves the number the data queue starts with. -/
def start (takion : Takion) : TakionThread := ⟨takion, takion.gkcryptRemote.isSome, .recheck⟩

/-- The packets in the array of postponed packets. -/
def postponed (takion : Takion) : List HeapBlock := takion.postponedPackets.getD []

/-- An operation of the thread that is not at its point does nothing. -/
def step (lib : CryptoLib) (thread : TakionThread) (op : TakionThreadOp) :
    Checked (TakionThread × TakionThreadOut) :=
  match op, thread.point with
  | .setCrypt gkcryptLocal gkcryptRemote, _ =>
      pure ({ thread with takion := thread.takion.setCrypt gkcryptLocal gkcryptRemote }, {})
  | .sending f, _ =>
      pure ({ thread with takion := { thread.takion with sending := f thread.takion.sending } }, {})
  | .recheck gmacOk, .recheck => do
      let r ← thread.takion.recheck lib gmacOk thread.cryptAvailable
      pure (⟨r.1, r.2.1, .flush⟩, { freed := r.2.2.freed })
  | .flush, .flush =>
      if thread.takion.postponedPackets.isSome && thread.takion.gkcryptRemote.isSome then
        pure ({ thread with point := .flushing 0 }, {})
      else pure ({ thread with point := .receive }, {})
  | .flushNext o, .flushing i =>
      match (postponed thread.takion)[i]? with
      | some packet => do
          let r ← thread.takion.handlePacket lib o packet
          pure ({ thread with takion := r.1, point := .flushing (i + 1) }, { freed := r.2.freed })
      | none => pure ({ thread with takion := { thread.takion with postponedPackets := none }, point := .receive }, {})
  | .datagram o buf, .receive => do
      let r ← thread.takion.handlePacket lib o buf
      pure ({ thread with takion := r.1, point := .recheck }, { given := [buf.id], freed := r.2.freed })
  | .noRealloc, .receive => pure ({ thread with point := .recheck }, {})
  | .leave, .receive =>
      pure ({ thread with point := .ended }, { freed := thread.takion.dataQueue.fini.map (·.2.packet.id) })
  | _, _ => pure (thread, {})

end TakionThread

end Chiaki
