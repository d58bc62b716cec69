import Chiaki.Ctrl.Notification
import Chiaki.Lib.Account

/-!
# No wake-up is lost, and none is left over

The pipe is set as long as something is pending that a call has returned from. It is not set without a reason if no
message is signalled after it was sent, and a reset for a PIN takes nothing else away if nobody wants to stop.
-/

namespace Chiaki
open Machine

namespace CtrlNotifier
variable {ι : Type} (calls : ι → CtrlCall)

/-- What a call has left with the ctrl thread is still there. -/
def Pending (s : CtrlNotifier ι) (id : ι) : Prop :=
  (∃ message, (id, message) ∈ s.msgQueue) ∨ (∃ pin, s.loginPin = some (id, pin)) ∨
    (calls id = .stop ∧ s.shouldStop = true)

/-- An iteration that was woken has found nothing to do. -/
def FoundNothing (s : CtrlNotifier ι) : Prop :=
  s.thread = .drained false ∧ s.loginPin = none ∧ s.shouldStop = false

/-- There is something to do, or the thread is about to reset the pipe. -/
def Due (s : CtrlNotifier ι) : Prop :=
  s.msgQueue ≠ [] ∨ s.loginPin ≠ none ∨ s.shouldStop = true ∨ s.thread = .drained true ∨ s.thread = .resetting

instance (s : CtrlNotifier ι) : Decidable s.Due :=
  inferInstanceAs (Decidable (_ ∨ _ ∨ _ ∨ _ ∨ _))

/-- A message is signalled while there is a reason to, and no PIN is taken when the thread should stop. -/
def Timely (s : CtrlNotifier ι) : CtrlOp ι → Prop
  | .call id => s.calls id = .unlocked → s.Due
  | .select _ => True
  | .thread _ => ∀ updated, s.thread = .drained updated → s.loginPin ≠ none → s.shouldStop = false

variable [DecidableEq ι]

instance (s : CtrlNotifier ι) : (op : CtrlOp ι) → Decidable (s.Timely op)
  | .call _ => inferInstanceAs (Decidable (_ → _))
  | .select _ => inferInstanceAs (Decidable True)
  | .thread _ => inferInstanceAs (Decidable (∀ _, _))

/-- At every moment of a run: the messages are sent in the order in which they were queued, and none twice; if the
thread waits while something is pending whose caller has returned, the pipe is readable; and it is not if an
iteration has found nothing. -/
structure Notifies (ops : List (CtrlOp ι)) : Prop where
  fifo : ∀ done, done <+: ops → ∀ s outs, run (step calls) init done = .ok (s, outs) →
    outs.flatMap CtrlOut.queued = outs.flatMap CtrlOut.sent ++ s.msgQueue
  once : ∀ done, done <+: ops → ∀ s outs, run (step calls) init done = .ok (s, outs) →
    ((outs.flatMap CtrlOut.sent).map Prod.fst).Nodup
  wakes : ∀ done, done <+: ops → ∀ s outs, run (step calls) init done = .ok (s, outs) → s.thread = .selecting →
    ∀ id, s.calls id = .returned → s.Pending calls id → s.notifPipe = true
  rests : ∀ done, done <+: ops → ∀ s outs, run (step calls) init done = .ok (s, outs) → s.FoundNothing →
    s.notifPipe = false

/-! ## One step -/

/-- The steps, one by one. -/
inductive Moves (s : CtrlNotifier ι) : CtrlOp ι → CtrlNotifier ι → CtrlOut ι → Prop
  | lock (id : ι) (here : s.calls id = .lock) (free : s.notifMutex = none) :
      Moves s (.call id) { (s.write id (calls id)).1.setCall id .locked with notifMutex := some (.call id) }
        (s.write id (calls id)).2
  | leaveMessage (id : ι) (message : CtrlMessageQueue) (call : calls id = .sendMessage message)
      (here : s.calls id = .locked) : Moves s (.call id) { s.setCall id .unlocked with notifMutex := none } {}
  | signal (id : ι) (call : ∀ message, calls id ≠ .sendMessage message) (here : s.calls id = .locked) :
      Moves s (.call id) { s.setCall id .signalled with notifPipe := true } {}
  | leave (id : ι) (here : s.calls id = .signalled) :
      Moves s (.call id) { s.setCall id .returned with notifMutex := none } {}
  | signalMessage (id : ι) (here : s.calls id = .unlocked) :
      Moves s (.call id) { s.setCall id .returned with notifPipe := true } {}
  | select (result : SelectResult) (here : s.thread = .selecting) :
      Moves s (.select result) { s with thread := .woken result } {}
  | start (ok : Bool) (here : s.thread = .start) (free : s.notifMutex = none) :
      Moves s (.thread ok) { s with notifMutex := some .thread, thread := .connecting } {}
  | connect (here : s.thread = .connecting) : Moves s (.thread true) { s with thread := .unlocking } {}
  | wake (ok : Bool) (result : SelectResult) (here : s.thread = .woken result) (free : s.notifMutex = none) :
      Moves s (.thread ok) { s with notifMutex := some .thread, thread := .locked result } {}
  | drain (ok : Bool) (here : s.thread = .locked .canceled) :
      Moves s (.thread ok) { s with msgQueue := [], thread := .drained !s.msgQueue.isEmpty } { sent := s.msgQueue }
  | receive (here : s.thread = .locked .success) : Moves s (.thread true) { s with thread := .unlocking } {}
  | finish (ok : Bool) (here : s.thread.holds = true)
      (stops : s.thread = .drained true ∨ s.thread = .resetting → s.shouldStop = true) :
      Moves s (.thread ok) (s.unlockThread .ended) {}
  | takePin (ok : Bool) (updated : Bool) (id : ι) (pin : Bytes) (here : s.thread = .drained updated)
      (entered : s.loginPin = some (id, pin)) :
      Moves s (.thread ok) { s with loginPin := none, thread := .resetting } { sentPin := some pin }
  | afterMessages (ok : Bool) (here : s.thread = .drained true) (noPin : s.loginPin = none)
      (goOn : s.shouldStop = false) : Moves s (.thread ok) { s with thread := .resetting } {}
  | idle (ok : Bool) (found : s.FoundNothing) : Moves s (.thread ok) (s.unlockThread .selecting) {}
  | reset (ok : Bool) (here : s.thread = .resetting) :
      Moves s (.thread ok) { s with notifPipe := false, thread := .unlocking } {}
  | wait (ok : Bool) (here : s.thread = .unlocking) : Moves s (.thread ok) (s.unlockThread .selecting) {}

theorem step_moves {s s' : CtrlNotifier ι} {op : CtrlOp ι} {out : CtrlOut ι}
    (stepped : step calls s op = .ok (s', out)) : Moves calls s op s' out := by
  cases op with
  | call id =>
      simp only [step, stepCall] at stepped
      cases here : s.calls id with
      | lock =>
          rw [here] at stepped
          cases free : s.notifMutex with
          | none =>
              rw [free] at stepped
              cases stepped
              exact .lock id here free
          | some holder =>
              rw [free] at stepped
              cases stepped
      | locked =>
          rw [here] at stepped
          cases call : calls id with
          | sendMessage message =>
              rw [call] at stepped
              cases stepped
              exact .leaveMessage id message call here
          | setLoginPin pin =>
              rw [call] at stepped
              cases stepped
              exact .signal id (by simp [call]) here
          | stop =>
              rw [call] at stepped
              cases stepped
              exact .signal id (by simp [call]) here
      | signalled =>
          rw [here] at stepped
          cases stepped
          exact .leave id here
      | unlocked =>
          rw [here] at stepped
          cases stepped
          exact .signalMessage id here
      | returned =>
          rw [here] at stepped
          cases stepped
  | select result =>
      simp only [step, stepSelect] at stepped
      cases here : s.thread with
      | selecting =>
          rw [here] at stepped
          dsimp only at stepped
          split at stepped
          · cases stepped
            exact .select result here
          · cases stepped
      | _ =>
          rw [here] at stepped
          cases stepped
  | thread ok =>
      simp only [step, stepThread] at stepped
      cases here : s.thread with
      | start =>
          rw [here] at stepped
          simp only [lockThread] at stepped
          cases free : s.notifMutex with
          | none =>
              rw [free] at stepped
              cases stepped
              exact .start ok here free
          | some holder =>
              rw [free] at stepped
              cases stepped
      | connecting =>
          rw [here] at stepped
          cases ok with
          | false =>
              cases stepped
              exact .finish false (by rw [here]; rfl) (by simp [here])
          | true =>
              cases stepped
              exact .connect here
      | woken result =>
          rw [here] at stepped
          simp only [lockThread] at stepped
          cases free : s.notifMutex with
          | none =>
              rw [free] at stepped
              cases stepped
              exact .wake ok result here free
          | some holder =>
              rw [free] at stepped
              cases stepped
      | locked result =>
          rw [here] at stepped
          cases result with
          | canceled =>
              cases stepped
              exact .drain ok here
          | success =>
              cases ok with
              | false =>
                  cases stepped
                  exact .finish false (by rw [here]; rfl) (by simp [here])
              | true =>
                  cases stepped
                  exact .receive here
          | failure =>
              cases stepped
              exact .finish ok (by rw [here]; rfl) (by simp [here])
      | drained updated =>
          rw [here] at stepped
          cases entered : s.loginPin with
          | some entry =>
              rw [entered] at stepped
              cases stepped
              exact .takePin ok updated entry.1 entry.2 here entered
          | none =>
              rw [entered] at stepped
              dsimp only at stepped
              cases goOn : s.shouldStop with
              | true =>
                  rw [goOn] at stepped
                  cases stepped
                  exact .finish ok (by rw [here]; rfl) fun _ => goOn
              | false =>
                  rw [goOn] at stepped
                  cases updated with
                  | true =>
                      cases stepped
                      have moved : Moves calls s (.thread ok) _ _ := .afterMessages ok here entered goOn
                      rwa [entered, goOn] at moved
                  | false =>
                      cases stepped
                      exact .idle ok ⟨here, entered, goOn⟩
      | resetting =>
          rw [here] at stepped
          cases stepped
          exact .reset ok here
      | unlocking =>
          rw [here] at stepped
          cases stepped
          exact .wait ok here
      | selecting =>
          rw [here] at stepped
          cases stepped
      | ended =>
          rw [here] at stepped
          cases stepped

/-! ## The mutex -/

/-- One of the threads holds the mutex, where it should. -/
structure Exclusive (s : CtrlNotifier ι) : Prop where
  thread : s.notifMutex = some .thread ↔ s.thread.holds = true
  call : ∀ id, s.notifMutex = some (.call id) ↔ s.calls id = .locked ∨ s.calls id = .signalled

omit [DecidableEq ι] in
theorem exclusive_init : (init : CtrlNotifier ι).Exclusive :=
  ⟨by simp [init, CtrlThreadPoint.holds], by simp [init]⟩

section
variable {calls} {s s' : CtrlNotifier ι} {op : CtrlOp ι} {out : CtrlOut ι}

theorem Exclusive.move (exclusive : s.Exclusive) (moved : Moves calls s op s' out) : s'.Exclusive := by
  obtain ⟨thread, call⟩ := exclusive
  cases moved with
  | lock id here free =>
      cases request : calls id with
      | _ => constructor <;> grind [write, CtrlThreadPoint.holds]
  | _ => constructor <;> grind [unlockThread, CtrlThreadPoint.holds, FoundNothing]

/-- What the calls left is where they left it, and the pipe is readable as soon as they have signalled. -/
structure Left (calls : ι → CtrlCall) (s : CtrlNotifier ι) : Prop where
  queue : ∀ id message, (id, message) ∈ s.msgQueue →
    s.notifPipe = true ∨ s.calls id = .locked ∨ s.calls id = .unlocked
  pin : ∀ id pin, s.loginPin = some (id, pin) →
    calls id = .setLoginPin pin ∧ (s.notifPipe = true ∨ s.calls id = .locked)
  stopped : ∀ id, calls id = .stop → s.calls id ≠ .lock → s.shouldStop = true
  stop : ∀ id, calls id = .stop → s.calls id = .signalled ∨ s.calls id = .returned → s.notifPipe = true
  drained : ∀ updated, s.thread = .drained updated → s.msgQueue = []
  reset : s.thread = .resetting → s.msgQueue = [] ∧ s.loginPin = none ∧ s.shouldStop = false

theorem Left.move (left : Left calls s) (exclusive : s.Exclusive) (moved : Moves calls s op s' out)
    (timely : s.Timely op) : Left calls s' := by
  obtain ⟨thread, call⟩ := exclusive
  obtain ⟨queue, pin, stopped, stop, drained, reset⟩ := left
  cases moved with
  | lock id here free =>
      cases request : calls id with
      | sendMessage message =>
          constructor <;> grind [write, CtrlThreadPoint.holds]
      | setLoginPin pin =>
          constructor <;> grind [write, CtrlThreadPoint.holds]
      | stop =>
          constructor <;> grind [write, CtrlThreadPoint.holds]
  | _ =>
      constructor <;> grind [unlockThread, CtrlThreadPoint.holds, FoundNothing, Timely]

/-- Nobody signals without a reason. -/
structure Reasoned (calls : ι → CtrlCall) (s : CtrlNotifier ι) : Prop where
  pin : ∀ id pin, calls id = .setLoginPin pin → s.calls id = .locked → s.loginPin ≠ none
  due : s.notifPipe = true → s.Due

omit [DecidableEq ι] in
/-- Where the thread is not about to reset the pipe, what is due is something to do. -/
theorem Due.work (due : s.Due) {point : CtrlThreadPoint} (here : s.thread = point) (drained : point ≠ .drained true)
    (resetting : point ≠ .resetting) : s.msgQueue ≠ [] ∨ s.loginPin ≠ none ∨ s.shouldStop = true := by
  rcases due with queued | entered | stops | drainedTrue | reset
  · exact Or.inl queued
  · exact Or.inr (Or.inl entered)
  · exact Or.inr (Or.inr stops)
  · exact absurd (here.symm.trans drainedTrue) drained
  · exact absurd (here.symm.trans reset) resetting

omit [DecidableEq ι] in
theorem due_of_work (work : s.msgQueue ≠ [] ∨ s.loginPin ≠ none ∨ s.shouldStop = true) : s.Due := by
  rcases work with queued | entered | stops
  · exact Or.inl queued
  · exact Or.inr (Or.inl entered)
  · exact Or.inr (Or.inr (Or.inl stops))

theorem locked_of_setCall {id other : ι} {point : CtrlCallPoint} (unlocked : point ≠ .locked)
    (locked : (s.setCall id point).calls other = .locked) : s.calls other = .locked := by
  rw [setCall_calls] at locked
  split at locked
  · exact absurd locked unlocked
  · exact locked

omit [DecidableEq ι] in
theorem Exclusive.not_locked (exclusive : s.Exclusive) (holds : s.thread.holds = true) (id : ι) :
    s.calls id ≠ .locked := by
  intro locked
  have mine := exclusive.thread.mpr holds
  rw [(exclusive.call id).mpr (Or.inl locked)] at mine
  cases mine

theorem Reasoned.move (reasoned : Reasoned calls s) (left : Left calls s) (exclusive : s.Exclusive)
    (moved : Moves calls s op s' out) (timely : s.Timely op) : Reasoned calls s' := by
  obtain ⟨pin, due⟩ := reasoned
  cases moved with
  | lock id here free =>
      cases request : calls id with
      | sendMessage message =>
          constructor
          · intro other entered mine locked
            have further : other ≠ id := by
              intro same
              rw [same, request] at mine
              cases mine
            exact pin other entered mine (by simpa [further] using locked)
          · exact fun _ => Or.inl (by simp [write])
      | setLoginPin entered =>
          constructor
          · exact fun _ _ _ _ => by simp [write]
          · exact fun _ => Or.inr (Or.inl (by simp [write]))
      | stop =>
          constructor
          · intro other entered mine locked
            have further : other ≠ id := by
              intro same
              rw [same, request] at mine
              cases mine
            exact pin other entered mine (by simpa [further] using locked)
          · exact fun _ => Or.inr (Or.inr (Or.inl rfl))
  | leaveMessage id message request here =>
      exact ⟨fun other entered mine locked => pin other entered mine (locked_of_setCall (by simp) locked), due⟩
  | signal id noMessage here =>
      constructor
      · exact fun other entered mine locked => pin other entered mine (locked_of_setCall (by simp) locked)
      · intro _
        cases request : calls id with
        | sendMessage message => exact absurd request (noMessage message)
        | setLoginPin entered => exact Or.inr (Or.inl (pin id entered request here))
        | stop => exact Or.inr (Or.inr (Or.inl (left.stopped id request (by simp [here]))))
  | leave id here =>
      exact ⟨fun other entered mine locked => pin other entered mine (locked_of_setCall (by simp) locked), due⟩
  | signalMessage id here =>
      constructor
      · exact fun other entered mine locked => pin other entered mine (locked_of_setCall (by simp) locked)
      · exact fun _ => timely here
  | select result here =>
      exact ⟨pin, fun readable => due_of_work ((due readable).work here (by simp) (by simp))⟩
  | start ok here free =>
      exact ⟨pin, fun readable => due_of_work ((due readable).work here (by simp) (by simp))⟩
  | connect here =>
      exact ⟨pin, fun readable => due_of_work ((due readable).work here (by simp) (by simp))⟩
  | wake ok result here free =>
      exact ⟨pin, fun readable => due_of_work ((due readable).work here (by simp) (by simp))⟩
  | receive here =>
      exact ⟨pin, fun readable => due_of_work ((due readable).work here (by simp) (by simp))⟩
  | drain ok here =>
      refine ⟨pin, fun readable => ?_⟩
      rcases (due readable).work here (by simp) (by simp) with queued | entered | stops
      · exact Or.inr (Or.inr (Or.inr (Or.inl (by simpa using queued))))
      · exact Or.inr (Or.inl entered)
      · exact Or.inr (Or.inr (Or.inl stops))
  | finish ok here stops =>
      refine ⟨pin, fun readable => ?_⟩
      rcases due readable with queued | entered | stop | drained | reset
      · exact Or.inl queued
      · exact Or.inr (Or.inl entered)
      · exact Or.inr (Or.inr (Or.inl stop))
      · exact Or.inr (Or.inr (Or.inl (stops (Or.inl drained))))
      · exact Or.inr (Or.inr (Or.inl (stops (Or.inr reset))))
  | takePin ok updated id entered here pinEntered =>
      constructor
      · exact fun other _ _ locked => absurd locked (exclusive.not_locked (by rw [here]; rfl) other)
      · exact fun _ => Or.inr (Or.inr (Or.inr (Or.inr rfl)))
  | afterMessages ok here noPin goOn =>
      exact ⟨pin, fun _ => Or.inr (Or.inr (Or.inr (Or.inr rfl)))⟩
  | idle ok found =>
      exact ⟨pin, fun readable => due_of_work ((due readable).work found.1 (by simp) (by simp))⟩
  | reset ok here =>
      exact ⟨pin, fun readable => absurd readable (by simp)⟩
  | wait ok here =>
      exact ⟨pin, fun readable => due_of_work ((due readable).work here (by simp) (by simp))⟩

theorem Moves.inOrder (moved : Moves calls s op s' out) : s.msgQueue ++ out.queued = out.sent ++ s'.msgQueue := by
  cases moved with
  | lock id here free => cases request : calls id <;> simp [write]
  | _ => simp [unlockThread]

theorem Moves.queued (moved : Moves calls s op s' out) (entry : ι × CtrlMessageQueue) (queued : entry ∈ out.queued) :
    out.queued = [entry] ∧ s.calls entry.1 = .lock ∧ s'.calls entry.1 ≠ .lock := by
  cases moved with
  | lock id here free => cases request : calls id <;> simp_all [write]
  | _ => simp at queued

theorem Moves.begun (moved : Moves calls s op s' out) (id : ι) (begun : s.calls id ≠ .lock) :
    s'.calls id ≠ .lock := by
  cases moved <;> grind [unlockThread]

end

/-! ## Runs -/

section
variable {calls} {s t : CtrlNotifier ι} {ops : List (CtrlOp ι)} {outs : List (CtrlOut ι)}

theorem queued_nodup (ran : run (step calls) s ops = .ok (t, outs)) :
    ((outs.flatMap CtrlOut.queued).map Prod.fst).Nodup ∧
      ∀ id ∈ (outs.flatMap CtrlOut.queued).map Prod.fst, s.calls id = .lock := by
  induction ops generalizing s outs with
  | nil =>
      obtain ⟨rfl, rfl⟩ := Prod.mk.inj (Except.ok.inj ran)
      simp
  | cons op ops ih =>
      obtain ⟨s', out, outs', stepped, rest, rfl⟩ := run_cons_inv ran
      obtain ⟨nodup, fresh⟩ := ih rest
      have moved := step_moves calls stepped
      have fresh' : ∀ id ∈ (outs'.flatMap CtrlOut.queued).map Prod.fst, s.calls id = .lock := by
        intro id later
        by_contra begun
        exact moved.begun id begun (fresh id later)
      rw [List.flatMap_cons, List.map_append]
      cases queued : out.queued with
      | nil => exact ⟨nodup, fresh'⟩
      | cons entry entries =>
          obtain ⟨alone, here, begun⟩ := moved.queued entry (by simp [queued])
          rw [queued] at alone
          rw [alone]
          constructor
          · apply List.nodup_cons.mpr
            exact ⟨fun again => begun (fresh entry.1 again), nodup⟩
          · exact List.forall_mem_cons.mpr ⟨here, fresh'⟩

theorem fifo_of_run (ran : run (step calls) init ops = .ok (t, outs)) :
    outs.flatMap CtrlOut.queued = outs.flatMap CtrlOut.sent ++ t.msgQueue :=
  run_inOrder (fun _ _ _ _ stepped => (step_moves calls stepped).inOrder) ran

theorem sent_nodup (ran : run (step calls) init ops = .ok (t, outs)) :
    ((outs.flatMap CtrlOut.sent).map Prod.fst).Nodup := by
  have nodup := (queued_nodup ran).1
  rw [fifo_of_run ran, List.map_append] at nodup
  exact nodup.of_append_left

/-- What holds in a timely run. -/
structure Sound (calls : ι → CtrlCall) (s : CtrlNotifier ι) : Prop where
  exclusive : s.Exclusive
  left : Left calls s
  reasoned : Reasoned calls s

omit [DecidableEq ι] in
theorem sound_init : Sound calls (init : CtrlNotifier ι) where
  exclusive := exclusive_init
  left := by constructor <;> simp [init]
  reasoned := by constructor <;> simp [init]

theorem Sound.run (timely : Along (step calls) Timely init ops) (ran : run (step calls) init ops = .ok (t, outs)) :
    Sound calls t := by
  apply timely.preserves (Sound calls) _ sound_init ran
  intro s op s' out sound now stepped
  have moved := step_moves calls stepped
  exact ⟨sound.exclusive.move moved, sound.left.move sound.exclusive moved now,
    sound.reasoned.move sound.left sound.exclusive moved now⟩

omit [DecidableEq ι] in
theorem Sound.wakes (sound : Sound calls t) (id : ι) (returned : t.calls id = .returned) (pending : t.Pending calls id) :
    t.notifPipe = true := by
  rcases pending with ⟨message, queued⟩ | ⟨pin, entered⟩ | ⟨request, -⟩
  · have readable := sound.left.queue id message queued
    simpa [returned] using readable
  · have readable := (sound.left.pin id pin entered).2
    simpa [returned] using readable
  · exact sound.left.stop id request (Or.inr returned)

omit [DecidableEq ι] in
theorem Sound.rests (sound : Sound calls t) (found : t.FoundNothing) : t.notifPipe = false := by
  obtain ⟨here, noPin, goOn⟩ := found
  have drained := sound.left.drained false here
  have noReason : ¬ t.Due := by simp [Due, here, noPin, goOn, drained]
  have due := sound.reasoned.due
  cases readable : t.notifPipe with
  | false => rfl
  | true => exact absurd (due readable) noReason

/-- The queue is right in every run. The pipe is right in every timely run. -/
theorem notifies_of_timely (timely : Along (step calls) Timely init ops) : Notifies calls ops where
  fifo _ _ _ _ ran := fifo_of_run ran
  once _ _ _ _ ran := sent_nodup ran
  wakes done isPrefix s outs ran _ id := by
    obtain ⟨later, rfl⟩ := isPrefix
    exact (Sound.run timely.append ran).wakes id
  rests done isPrefix s outs ran := by
    obtain ⟨later, rfl⟩ := isPrefix
    exact (Sound.run timely.append ran).rests

end

/-- A message is sent together with a PIN, then the thread is stopped. -/
theorem notifies_stopped : Notifies
    (fun id : Nat => if id = 0 then .sendMessage ⟨0x50, none⟩ else if id = 1 then .setLoginPin [1, 2] else .stop)
    [.thread true, .thread true, .thread true, .call 0, .call 0, .call 0, .call 1, .call 1, .call 1,
      .select .canceled, .thread true, .thread true, .thread true, .thread true, .thread true,
      .call 2, .call 2, .call 2, .select .canceled, .thread true, .thread true, .thread true] := by
  apply notifies_of_timely
  decide +kernel

/-- A message is signalled when it was sent already. A PIN takes the signal of a stop away. -/
theorem not_notifies : ¬ Notifies (fun _ : Nat => .sendMessage ⟨0x50, none⟩)
      [.thread true, .thread true, .thread true, .call 0, .call 0, .call 1, .call 1, .call 1, .select .canceled,
        .thread true, .thread true, .thread true, .thread true, .thread true, .call 0, .select .canceled,
        .thread true, .thread true] ∧
    ¬ Notifies (fun id : Nat => if id = 0 then .setLoginPin [1, 2] else .stop)
      [.thread true, .thread true, .thread true, .call 0, .call 0, .call 0, .call 1, .call 1, .call 1,
        .select .canceled, .thread true, .thread true, .thread true, .thread true, .thread true] := by
  constructor
  · intro notifies
    have quiet := notifies.rests _ List.prefix_rfl _ _ rfl ⟨rfl, rfl, rfl⟩
    exact absurd quiet (by decide +kernel)
  · intro notifies
    have readable := notifies.wakes _ List.prefix_rfl _ _ rfl rfl 1 rfl (Or.inr (Or.inr ⟨rfl, rfl⟩))
    exact absurd readable (by decide +kernel)

end CtrlNotifier
end Chiaki
