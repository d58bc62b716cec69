import Chiaki.Holepunch.Notifications

/-!
# Session messages reach their caller once and in order

What a run has done is the list of its events. A session message is handed over as the first one of the queue,
and the queue only loses its front.
-/

namespace Chiaki.Holepunch

variable {Json : Type}

/-! ## The queue -/

/-- Nothing up to `lastKnown` is wanted. -/
def Passed (types : UInt16) (queue : List (Notification Json)) : Option Nat → Prop
  | none => True
  | some lastKnown => ∃ before notif after, queue = before ++ notif :: after ∧ notif.arrival = lastKnown ∧
      ∀ m ∈ before ++ [notif], wanted types m = false

def Ascending (queue : List (Notification Json)) : Prop := queue.Pairwise fun m n => m.arrival < n.arrival

theorem Ascending.split {before after : List (Notification Json)} {notif : Notification Json}
    (ascending : Ascending (before ++ notif :: after)) :
    (∀ m ∈ before, m.arrival < notif.arrival) ∧ ∀ m ∈ after, notif.arrival < m.arrival := by
  obtain ⟨-, later, across⟩ := List.pairwise_append.mp ascending
  exact ⟨fun m member => across m member notif List.mem_cons_self, (List.pairwise_cons.mp later).1⟩

theorem dropWhile_arrival {before after : List (Notification Json)} {notif : Notification Json}
    (ascending : Ascending (before ++ notif :: after)) :
    (before ++ notif :: after).dropWhile (·.arrival != notif.arrival) = notif :: after := by
  have others := ascending.split.1
  clear ascending
  induction before with
  | nil => simp
  | cons m before ih =>
      obtain ⟨first, rest⟩ := List.forall_mem_cons.mp others
      rw [List.cons_append, List.dropWhile_cons_of_pos (by simpa using first.ne), ih rest]

theorem find?_append_none {p : Notification Json → Bool} {before after : List (Notification Json)}
    (none_ : ∀ m ∈ before, p m = false) : (before ++ after).find? p = after.find? p := by
  have nothing : before.find? p = none := List.find?_eq_none.mpr fun m member => by simp [none_ m member]
  rw [List.find?_append, nothing, Option.none_or]

/-- From `last_known->next` on stands the first wanted notification of the whole queue. -/
theorem following_of_passed {types : UInt16} {queue : List (Notification Json)} {lastKnown : Option Nat}
    (ascending : Ascending queue) (passed : Passed types queue lastKnown) :
    ∃ rest, following queue lastKnown = .ok rest ∧ rest.find? (wanted types) = queue.find? (wanted types) := by
  cases lastKnown with
  | none => exact ⟨queue, rfl, rfl⟩
  | some lastKnown =>
      obtain ⟨before, notif, after, rfl, rfl, unwanted⟩ := passed
      refine ⟨after, ?_, ?_⟩
      · simp only [following, dropWhile_arrival ascending]
      · rw [List.append_cons, find?_append_none unwanted]

theorem Passed.append {types : UInt16} {queue : List (Notification Json)} {lastKnown : Option Nat}
    (passed : Passed types queue lastKnown) (later : List (Notification Json)) :
    Passed types (queue ++ later) lastKnown := by
  cases lastKnown with
  | none => trivial
  | some lastKnown =>
      obtain ⟨before, notif, after, rfl, known, unwanted⟩ := passed
      exact ⟨before, notif, after ++ later, by simp, known, unwanted⟩

theorem passed_all {types : UInt16} {queue : List (Notification Json)} {rear : Notification Json}
    (last : queue.getLast? = some rear) (nothing : queue.find? (wanted types) = none) :
    Passed types queue (some rear.arrival) := by
  obtain ⟨before, rfl⟩ := List.getLast?_eq_some_iff.mp last
  refine ⟨before, rear, [], rfl, rfl, fun m member => ?_⟩
  simpa using List.find?_eq_none.mp nothing m member

theorem Passed.rear {types : UInt16} {queue : List (Notification Json)} {rear : Notification Json}
    (ascending : Ascending queue) (last : queue.getLast? = some rear) (passed : Passed types queue (some rear.arrival)) :
    queue.find? (wanted types) = none := by
  obtain ⟨before, notif, after, rfl, same, unwanted⟩ := passed
  obtain ⟨-, above⟩ := ascending.split
  cases after with
  | nil => exact List.find?_eq_none.mpr fun m member => by simp [unwanted m member]
  | cons m after =>
      have member : rear ∈ m :: after := by
        have tail := last
        rw [List.getLast?_append, List.getLast?_cons_cons, Option.or_of_isSome (by simp)] at tail
        exact List.mem_of_getLast? tail
      exact absurd same (above rear member).ne

theorem clearNotification_append (arrival : Nat) (queue : List (Notification Json)) :
    (clearNotification arrival queue).1 ++ (clearNotification arrival queue).2 = queue := by
  induction queue with
  | nil => rfl
  | cons front rest ih =>
      rw [clearNotification]
      split
      · rfl
      · rw [List.cons_append, ih]

theorem clearNotification_split {before after : List (Notification Json)} {notif : Notification Json}
    (ascending : Ascending (before ++ notif :: after)) :
    clearNotification notif.arrival (before ++ notif :: after) = (before ++ [notif], after) := by
  have others := ascending.split.1
  clear ascending
  induction before with
  | nil => simp [clearNotification]
  | cons m before ih =>
      obtain ⟨first, rest⟩ := List.forall_mem_cons.mp others
      rw [List.cons_append, clearNotification, if_neg first.ne, ih rest]
      rfl

/-! ## What holds in every state -/

/-- Where the caller is fits the queue. -/
def Placed (queue : List (Notification Json)) (r : Running Json) : Prop :=
  match r.point with
  | .scanning lastKnown | .waiting lastKnown => Passed r.call.query queue lastKnown
  | .found notif | .ignoring notif | .received notif _ =>
      (∀ types, r.call ≠ .notification types) ∧ queue.find? (wanted r.call.query) = some notif

structure Sound (s : Session Json) : Prop where
  ascending : Ascending s.wsNotificationQueue
  arrived : ∀ n ∈ s.wsNotificationQueue, n.arrival < s.arrived
  placed : ∀ r, s.running = some r → Placed s.wsNotificationQueue r

/-- What a session may turn into by one step, as far as the queue goes. -/
structure Kept (s s' : Session Json) : Prop where
  arrived : s.arrived ≤ s'.arrived
  queue : ∀ n ∈ s'.wsNotificationQueue, n ∈ s.wsNotificationQueue ∨ s.arrived ≤ n.arrival

theorem Kept.of_queue {s s' : Session Json} (queue : s'.wsNotificationQueue = s.wsNotificationQueue)
    (arrived : s'.arrived = s.arrived) : Kept s s' :=
  ⟨arrived.ge, fun _ member => .inl (queue ▸ member)⟩

theorem start_sound : Sound (start : Session Json) :=
  ⟨List.Pairwise.nil, by simp [start], by simp [start]⟩

section Steps

variable {s : Session Json} {r : Running Json} {parse : Json → Except ErrorCode SessionMessage}

theorem Sound.set_running (sound : Sound s) {running : Option (Running Json)} (stop : Bool)
    (placed : ∀ r, running = some r → Placed s.wsNotificationQueue r) :
    Sound { s with mainShouldStop := stop, running := running } :=
  ⟨sound.ascending, sound.arrived, placed⟩

theorem Placed.append {queue : List (Notification Json)} (placed : Placed queue r) (later : List (Notification Json)) :
    Placed (queue ++ later) r := by
  unfold Placed at placed ⊢
  cases hpoint : r.point with
  | scanning lastKnown =>
      rw [hpoint] at placed
      exact Passed.append placed later
  | waiting lastKnown =>
      rw [hpoint] at placed
      exact Passed.append placed later
  | found notif | ignoring notif | received notif msg =>
      rw [hpoint] at placed
      exact ⟨placed.1, by rw [List.find?_append, placed.2, Option.some_or]⟩

theorem Sound.enqueue (sound : Sound s) (type : NotificationType) (json : Json) :
    Sound { s with
      wsNotificationQueue := s.wsNotificationQueue ++ [⟨s.arrived, type, json⟩], arrived := s.arrived + 1 } where
  ascending := by
    refine List.pairwise_append.mpr ⟨sound.ascending, List.pairwise_singleton _ _, fun m member n last => ?_⟩
    obtain rfl := List.mem_singleton.mp last
    exact sound.arrived m member
  arrived := by
    intro n member
    rcases List.mem_append.mp member with member | last
    · exact Nat.lt_succ_of_lt (sound.arrived n member)
    · obtain rfl := List.mem_singleton.mp last
      exact Nat.lt_succ_self _
  placed := fun r running => (sound.placed r running).append _

theorem Sound.clear (sound : Sound s) (arrival : Nat) {running : Option (Running Json)}
    (placed : ∀ r, running = some r → Placed (clearNotification arrival s.wsNotificationQueue).2 r) :
    Sound { s with wsNotificationQueue := (clearNotification arrival s.wsNotificationQueue).2, running := running } := by
  have both := clearNotification_append arrival s.wsNotificationQueue
  have ascending := sound.ascending
  rw [← both] at ascending
  refine ⟨(List.pairwise_append.mp ascending).2.1, fun n member => sound.arrived n ?_, placed⟩
  rw [← both]
  exact List.mem_append_right _ member

/-- Everything that a step can do. -/
inductive Moves (parse : Json → Except ErrorCode SessionMessage) (s : Session Json) :
    Input Json → Session Json → List (Event Json) → Prop
  | nothing {i : Input Json} (waits : i = .caller → ∀ r, s.running = some r → ∃ lastKnown, r.point = .waiting lastKnown) :
      Moves parse s i s []
  | enqueue (type : NotificationType) (json : Json) :
      Moves parse s (.enqueueNq type json) { s with
        wsNotificationQueue := s.wsNotificationQueue ++ [⟨s.arrived, type, json⟩], arrived := s.arrived + 1 } []
  | stop : Moves parse s .stop { s with mainShouldStop := true } []
  | call (call : Call) (idle : s.running = none) :
      Moves parse s (.call call) { s with running := some ⟨call, .scanning none, []⟩ } []
  | clear (arrival : Nat) (idle : s.running = none) :
      Moves parse s (.clearNotification arrival)
        { s with wsNotificationQueue := (clearNotification arrival s.wsNotificationQueue).2 }
        ((clearNotification arrival s.wsNotificationQueue).1.map .cleared)
  | wakeTimeout {r : Running Json} {timeout elapsed : Bool} {lastKnown : Option Nat} (running : s.running = some r)
      (point : r.point = .waiting lastKnown) :
      Moves parse s (.wake timeout elapsed) { s with running := none } [.returned r.call r.examined (.error .timeout)]
  | wakeAgain {r : Running Json} {timeout elapsed : Bool} {lastKnown : Option Nat} (running : s.running = some r)
      (point : r.point = .waiting lastKnown) :
      Moves parse s (.wake timeout elapsed) { s with running := some { r with point := .scanning lastKnown } } []
  | cancel {i : Input Json} {r : Running Json} (running : s.running = some r) (stopped : s.mainShouldStop = true) :
      Moves parse s i { s with mainShouldStop := false, running := none } [.returned r.call r.examined (.error .canceled)]
  | wait {r : Running Json} {lastKnown : Option Nat} (running : s.running = some r) (point : r.point = .scanning lastKnown)
      (nothing : s.wsNotificationQueue.find? (wanted r.call.query) = none) :
      Moves parse s .caller { s with running := some { r with point := .waiting lastKnown } } []
  | toRear {r : Running Json} {lastKnown : Option Nat} {rear : Notification Json} (running : s.running = some r)
      (point : r.point = .scanning lastKnown) (last : s.wsNotificationQueue.getLast? = some rear)
      (other : lastKnown ≠ some rear.arrival) (nothing : s.wsNotificationQueue.find? (wanted r.call.query) = none) :
      Moves parse s .caller { s with running := some { r with point := .scanning (some rear.arrival) } } []
  | handNotification {r : Running Json} {lastKnown : Option Nat} {notif : Notification Json} {types : UInt16}
      (running : s.running = some r) (point : r.point = .scanning lastKnown) (call : r.call = .notification types)
      (first : s.wsNotificationQueue.find? (wanted r.call.query) = some notif) :
      Moves parse s .caller { s with running := none } [.returned r.call (r.examined ++ [notif]) (.ok notif)]
  | find {r : Running Json} {lastKnown : Option Nat} {notif : Notification Json} (running : s.running = some r)
      (point : r.point = .scanning lastKnown) (call : ∀ types, r.call ≠ .notification types)
      (first : s.wsNotificationQueue.find? (wanted r.call.query) = some notif) :
      Moves parse s .caller { s with running := some ⟨r.call, .found notif, r.examined ++ [notif]⟩ } []
  | unreadable {r : Running Json} {notif : Notification Json} {err : ErrorCode} (running : s.running = some r)
      (goes : s.mainShouldStop = false) (point : r.point = .found notif) (failed : parse notif.json = .error err) :
      Moves parse s .caller { s with running := none } [.returned r.call r.examined (.error err)]
  | ignore {r : Running Json} {notif : Notification Json} {msg : SessionMessage} (running : s.running = some r)
      (goes : s.mainShouldStop = false) (point : r.point = .found notif) (parsed : parse notif.json = .ok msg) (other : msg.action.bits &&& r.call.actions = 0) :
      Moves parse s .caller { s with running := some { r with point := .ignoring notif } } []
  | receive {r : Running Json} {notif : Notification Json} {msg : SessionMessage} {reqId : Int} (running : s.running = some r)
      (goes : s.mainShouldStop = false) (point : r.point = .found notif) (parsed : parse notif.json = .ok msg)
      (fits : msg.action.bits &&& r.call.actions ≠ 0) (call : r.call = .sessionMessageAck reqId) :
      Moves parse s .caller { s with running := some { r with point := .received notif msg } } []
  | handMessage {r : Running Json} {notif : Notification Json} (running : s.running = some r)
      (point : r.point = .found notif) (call : ∀ reqId, r.call ≠ .sessionMessageAck reqId) :
      Moves parse s .caller { s with running := none } [.returned r.call r.examined (.ok notif)]
  | clearIgnored {r : Running Json} {notif : Notification Json} (running : s.running = some r)
      (point : r.point = .ignoring notif) :
      Moves parse s .caller
        { s with
          wsNotificationQueue := (clearNotification notif.arrival s.wsNotificationQueue).2
          running := some { r with point := .scanning none } }
        ((clearNotification notif.arrival s.wsNotificationQueue).1.map .cleared)
  | again {r : Running Json} {notif : Notification Json} {msg : SessionMessage} {reqId : Int} (running : s.running = some r)
      (point : r.point = .received notif msg) (call : r.call = .sessionMessageAck reqId)
      (other : (msg.reqId.toNat : Int) ≠ reqId) :
      Moves parse s .caller { s with running := some { r with point := .scanning none } } []
  | handAck {r : Running Json} {notif : Notification Json} {msg : SessionMessage} (running : s.running = some r)
      (point : r.point = .received notif msg)
      (same : ∀ reqId, r.call = .sessionMessageAck reqId → (msg.reqId.toNat : Int) = reqId) :
      Moves parse s .caller { s with running := none } [.returned r.call r.examined (.ok notif)]

theorem waitForNotification_moves (sound : Sound s) (running : s.running = some r) {lastKnown : Option Nat}
    (point : r.point = .scanning lastKnown) :
    ∃ s' events, waitForNotification s r lastKnown = .ok (s', events) ∧ Moves parse s .caller s' events := by
  have passed := sound.placed r running
  simp only [Placed, point] at passed
  unfold waitForNotification
  cases hlast : s.wsNotificationQueue.getLast? with
  | none =>
      have empty := List.getLast?_eq_none_iff.mp hlast
      exact ⟨_, _, rfl, .wait running point (by rw [empty]; rfl)⟩
  | some rear =>
      dsimp only
      split
      · rename_i atRear
        rw [atRear] at passed
        exact ⟨_, _, rfl, .wait running point (passed.rear sound.ascending hlast)⟩
      · rename_i before
        obtain ⟨rest, hrest, hfind⟩ := following_of_passed sound.ascending passed
        rw [hrest]
        dsimp only
        rw [hfind]
        cases hfirst : s.wsNotificationQueue.find? (wanted r.call.query) with
        | none => exact ⟨_, _, rfl, .toRear running point hlast before hfirst⟩
        | some notif =>
            dsimp only
            cases hcall : r.call with
            | notification types =>
                refine ⟨_, _, rfl, ?_⟩
                have moves : Moves parse s .caller _ _ := .handNotification running point hcall hfirst
                rwa [hcall] at moves
            | sessionMessage types =>
                have moves : Moves parse s .caller _ _ := .find running point (by simp [hcall]) hfirst
                exact ⟨_, _, rfl, by rwa [hcall] at moves⟩
            | sessionMessageAck reqId =>
                have moves : Moves parse s .caller _ _ := .find running point (by simp [hcall]) hfirst
                exact ⟨_, _, rfl, by rwa [hcall] at moves⟩

theorem waitForSessionMessage_moves (sound : Sound s) (running : s.running = some r) {notif : Notification Json}
    (point : r.point = .found notif) :
    ∃ s' events, waitForSessionMessage s r parse notif = .ok (s', events) ∧ Moves parse s .caller s' events := by
  obtain ⟨call, first⟩ : (∀ types, r.call ≠ .notification types) ∧
      s.wsNotificationQueue.find? (wanted r.call.query) = some notif := by
    have placed := sound.placed r running
    simpa only [Placed, point] using placed
  unfold waitForSessionMessage
  cases hstop : s.mainShouldStop with
  | true => exact ⟨_, _, rfl, .cancel running hstop⟩
  | false =>
      have present : s.wsNotificationQueue.any (·.arrival = notif.arrival) = true :=
        List.any_eq_true.mpr ⟨notif, List.mem_of_find?_eq_some first, by simp⟩
      simp only [present, Bool.false_eq_true, if_false, if_true]
      cases hparse : parse notif.json with
      | error err => exact ⟨_, _, rfl, .unreadable running hstop point hparse⟩
      | ok msg =>
          dsimp only
          split
          · rename_i other
            exact ⟨_, _, rfl, .ignore running hstop point hparse other⟩
          · rename_i fits
            cases hcall : r.call with
            | notification types => exact absurd hcall (call types)
            | sessionMessage types => exact ⟨_, _, rfl, .handMessage running point (by simp [hcall])⟩
            | sessionMessageAck reqId => exact ⟨_, _, rfl, .receive running hstop point hparse fits hcall⟩

theorem waitForSessionMessageAck_moves (running : s.running = some r) {notif : Notification Json} {msg : SessionMessage}
    (point : r.point = .received notif msg) :
    Moves parse s .caller (waitForSessionMessageAck s r notif msg).1 (waitForSessionMessageAck s r notif msg).2 := by
  unfold waitForSessionMessageAck
  split
  · rename_i stopped
    exact .cancel running stopped
  · split
    · rename_i reqId call
      split
      · rename_i other
        exact .again running point call other
      · rename_i same
        refine .handAck running point fun reqId' call' => ?_
        rw [call] at call'
        obtain rfl := Call.sessionMessageAck.inj call'
        exact not_not.mp same
    · rename_i call
      exact .handAck running point fun reqId call' => absurd call' (call reqId)

variable (parse) in
theorem step_moves (sound : Sound s) (i : Input Json) :
    ∃ s' events, step parse s i = .ok (s', events) ∧ Moves parse s i s' events := by
  cases i with
  | enqueueNq type json => exact ⟨_, _, rfl, .enqueue type json⟩
  | stop => exact ⟨_, _, rfl, .stop⟩
  | call call =>
      cases hrunning : s.running with
      | none => exact ⟨_, _, by simp only [step, hrunning], .call call hrunning⟩
      | some r => exact ⟨_, _, by simp only [step, hrunning], .nothing (by simp)⟩
  | clearNotification arrival =>
      cases hrunning : s.running with
      | none => exact ⟨_, _, by simp only [step, hrunning], .clear arrival hrunning⟩
      | some r => exact ⟨_, _, by simp only [step, hrunning], .nothing (by simp)⟩
  | wake timeout elapsed =>
      cases hrunning : s.running with
      | none => exact ⟨_, _, by simp only [step, hrunning], .nothing (by simp)⟩
      | some r =>
          cases hpoint : r.point with
          | waiting lastKnown =>
              refine ⟨(wake s r lastKnown timeout elapsed).1, (wake s r lastKnown timeout elapsed).2,
                by simp only [step, hrunning, hpoint], ?_⟩
              unfold wake
              split
              · exact .wakeTimeout hrunning hpoint
              · split
                · rename_i stopped
                  exact .cancel hrunning stopped
                · exact .wakeAgain hrunning hpoint
          | _ => exact ⟨_, _, by simp only [step, hrunning, hpoint], .nothing (by simp)⟩
  | caller =>
      cases hrunning : s.running with
      | none => exact ⟨_, _, by simp only [step, hrunning], .nothing (by simp [hrunning])⟩
      | some r =>
          simp only [step, hrunning]
          unfold caller
          cases hpoint : r.point with
          | scanning lastKnown => exact waitForNotification_moves sound hrunning hpoint
          | waiting lastKnown =>
              refine ⟨_, _, rfl, .nothing fun _ r' running => ?_⟩
              rw [hrunning] at running
              exact ⟨lastKnown, Option.some.inj running ▸ hpoint⟩
          | found notif => exact waitForSessionMessage_moves sound hrunning hpoint
          | ignoring notif => exact ⟨_, _, rfl, .clearIgnored hrunning hpoint⟩
          | received notif msg => exact ⟨_, _, rfl, waitForSessionMessageAck_moves hrunning hpoint⟩

theorem Sound.passed (sound : Sound s) (running : s.running = some r) {lastKnown : Option Nat}
    (point : r.point = .scanning lastKnown ∨ r.point = .waiting lastKnown) :
    Passed r.call.query s.wsNotificationQueue lastKnown := by
  have placed := sound.placed r running
  rcases point with point | point
  · simpa only [Placed, point] using placed
  · simpa only [Placed, point] using placed

theorem Sound.first (sound : Sound s) (running : s.running = some r) {notif : Notification Json}
    (point : r.point = .found notif ∨ r.point = .ignoring notif ∨ ∃ msg, r.point = .received notif msg) :
    (∀ types, r.call ≠ .notification types) ∧ s.wsNotificationQueue.find? (wanted r.call.query) = some notif := by
  have placed := sound.placed r running
  rcases point with point | point | ⟨msg, point⟩
  · simpa only [Placed, point] using placed
  · simpa only [Placed, point] using placed
  · simpa only [Placed, point] using placed

theorem Moves.sound {s' : Session Json} {i : Input Json} {events : List (Event Json)} (sound : Sound s)
    (moves : Moves parse s i s' events) : Sound s' := by
  cases moves with
  | nothing waits => exact sound
  | enqueue type json => exact sound.enqueue type json
  | stop => exact sound.set_running true sound.placed
  | call call idle =>
      refine sound.set_running _ fun r running => ?_
      obtain rfl := Option.some.inj running
      trivial
  | clear arrival idle =>
      refine sound.clear arrival fun r running => ?_
      rw [idle] at running
      cases running
  | wakeTimeout running point => exact sound.set_running _ (by simp)
  | cancel running stopped => exact sound.set_running _ (by simp)
  | unreadable running goes point failed => exact sound.set_running _ (by simp)
  | handNotification running point call first => exact sound.set_running _ (by simp)
  | handMessage running point call => exact sound.set_running _ (by simp)
  | handAck running point same => exact sound.set_running _ (by simp)
  | wakeAgain running point =>
      refine sound.set_running _ fun r' running' => ?_
      obtain rfl := Option.some.inj running'
      exact sound.passed running (.inr point)
  | wait running point nothing =>
      refine sound.set_running _ fun r' running' => ?_
      obtain rfl := Option.some.inj running'
      exact sound.passed running (.inl point)
  | toRear running point last other nothing =>
      refine sound.set_running _ fun r' running' => ?_
      obtain rfl := Option.some.inj running'
      exact passed_all last nothing
  | find running point call first =>
      refine sound.set_running _ fun r' running' => ?_
      obtain rfl := Option.some.inj running'
      exact ⟨call, first⟩
  | ignore running goes point parsed other =>
      refine sound.set_running _ fun r' running' => ?_
      obtain rfl := Option.some.inj running'
      exact sound.first running (.inl point)
  | receive running goes point parsed fits call =>
      refine sound.set_running _ fun r' running' => ?_
      obtain rfl := Option.some.inj running'
      exact sound.first running (.inl point)
  | clearIgnored running point =>
      refine sound.clear _ fun r' running' => ?_
      obtain rfl := Option.some.inj running'
      trivial
  | again running point call other =>
      refine sound.set_running _ fun r' running' => ?_
      obtain rfl := Option.some.inj running'
      trivial

theorem Moves.kept {s' : Session Json} {i : Input Json} {events : List (Event Json)}
    (moves : Moves parse s i s' events) : Kept s s' := by
  cases moves with
  | enqueue type json =>
      refine ⟨Nat.le_succ _, fun n member => ?_⟩
      rcases List.mem_append.mp member with member | last
      · exact .inl member
      · obtain rfl := List.mem_singleton.mp last
        exact .inr le_rfl
  | clear arrival idle =>
      refine ⟨le_rfl, fun n member => .inl ?_⟩
      rw [← clearNotification_append arrival s.wsNotificationQueue]
      exact List.mem_append_right _ member
  | clearIgnored running point =>
      refine ⟨le_rfl, fun n member => .inl ?_⟩
      rw [← clearNotification_append _ s.wsNotificationQueue]
      exact List.mem_append_right _ member
  | _ => exact .of_queue rfl rfl

/-! ## The order of what is handed over -/

def Event.handed : Event Json → Option (Notification Json)
  | .returned _ _ (.ok notif) => some notif
  | _ => none

/-- A session message is handed over in the order of arrival, and not after it was cleared. -/
def InOrder (log : List (Event Json)) (e : Event Json) : Prop :=
  ∀ notif, e.handed = some notif → notif.type = .sessionMessageCreated →
    (∀ n, Event.cleared n ∈ log → n.arrival < notif.arrival) ∧
    ∀ e' ∈ log, ∀ n, e'.handed = some n → n.type = .sessionMessageCreated → n.arrival ≤ notif.arrival

/-- The queue is behind everything that was done. -/
structure Behind (s : Session Json) (log : List (Event Json)) : Prop where
  cleared : ∀ n, Event.cleared n ∈ log → n.arrival < s.arrived ∧ ∀ m ∈ s.wsNotificationQueue, n.arrival < m.arrival
  handed : ∀ e ∈ log, ∀ n, e.handed = some n → n.type = .sessionMessageCreated → n.arrival < s.arrived ∧
    ∀ m ∈ s.wsNotificationQueue, m.type = .sessionMessageCreated → n.arrival ≤ m.arrival

theorem Behind.kept {s' : Session Json} {log : List (Event Json)} (behind : Behind s log) (kept : Kept s s') :
    Behind s' log where
  cleared := by
    intro n member
    obtain ⟨arrived, front⟩ := behind.cleared n member
    refine ⟨arrived.trans_le kept.arrived, fun m queued => ?_⟩
    rcases kept.queue m queued with old | new
    · exact front m old
    · exact arrived.trans_le new
  handed := by
    intro e member n hn session
    obtain ⟨arrived, front⟩ := behind.handed e member n hn session
    refine ⟨arrived.trans_le kept.arrived, fun m queued hm => ?_⟩
    rcases kept.queue m queued with old | new
    · exact front m old hm
    · exact (arrived.trans_le new).le

/-- The first wanted notification, if it is a session message, is the first session message. -/
theorem first_le (ascending : Ascending s.wsNotificationQueue) {types : UInt16} {notif : Notification Json}
    (first : s.wsNotificationQueue.find? (wanted types) = some notif) :
    ∀ m ∈ s.wsNotificationQueue, m.type = notif.type → notif.arrival ≤ m.arrival := by
  intro m member same
  obtain ⟨isWanted, before, after, queue, unwanted⟩ := List.find?_eq_some_iff_append.mp first
  rw [queue] at member ascending
  rcases List.mem_append.mp member with front | later
  · have alike : wanted types m = wanted types notif := by simp only [wanted, same]
    exact absurd isWanted (by simpa [alike] using unwanted m front)
  · rcases List.mem_cons.mp later with rfl | later
    · exact le_rfl
    · exact (ascending.split.2 m later).le

theorem Behind.clear {s' : Session Json} {log : List (Event Json)} (behind : Behind s log) (sound : Sound s)
    (kept : Kept s s') {cleared : List (Notification Json)} (queue : cleared ++ s'.wsNotificationQueue = s.wsNotificationQueue) :
    Behind s' (log ++ cleared.map .cleared) where
  cleared := by
    intro n member
    rcases List.mem_append.mp member with old | new
    · exact (behind.kept kept).cleared n old
    · have gone : n ∈ cleared := by simpa using new
      have ascending := sound.ascending
      rw [← queue] at ascending
      refine ⟨(sound.arrived n ?_).trans_le kept.arrived, (List.pairwise_append.mp ascending).2.2 n gone⟩
      rw [← queue]
      exact List.mem_append_left _ gone
  handed := by
    intro e member n hn session
    rcases List.mem_append.mp member with old | new
    · exact (behind.kept kept).handed e old n hn session
    · obtain ⟨m, -, rfl⟩ := List.mem_map.mp new
      cases hn

theorem Behind.hand {s' : Session Json} {log : List (Event Json)} (behind : Behind s log) (sound : Sound s)
    (kept : Kept s s') (queue : s'.wsNotificationQueue = s.wsNotificationQueue) {call : Call} {examined : List (Notification Json)}
    {types : UInt16} {notif : Notification Json} (first : s.wsNotificationQueue.find? (wanted types) = some notif) :
    InOrder log (.returned call examined (.ok notif)) ∧ Behind s' (log ++ [.returned call examined (.ok notif)]) := by
  have member := List.mem_of_find?_eq_some first
  constructor
  · intro notif' same session
    obtain rfl := Option.some.inj same
    exact ⟨fun n cleared => (behind.cleared n cleared).2 notif member,
      fun e' done n hn isSession => (behind.handed e' done n hn isSession).2 notif member session⟩
  · refine ⟨fun n gone => ?_, fun e done n hn session => ?_⟩
    · exact (behind.kept kept).cleared n (by simpa using gone)
    · rcases List.mem_append.mp done with old | new
      · exact (behind.kept kept).handed e old n hn session
      · obtain rfl := List.mem_singleton.mp new
        obtain rfl := Option.some.inj hn
        refine ⟨(sound.arrived notif member).trans_le kept.arrived, fun m queued hm => ?_⟩
        rw [queue] at queued
        exact first_le sound.ascending first m queued (hm.trans session.symm)

theorem Behind.fail {s' : Session Json} {log : List (Event Json)} (behind : Behind s log) (kept : Kept s s') {call : Call}
    {examined : List (Notification Json)} {err : ErrorCode} :
    InOrder log (.returned call examined (.error err)) ∧ Behind s' (log ++ [.returned call examined (.error err)]) := by
  refine ⟨fun notif same => (by cases same), fun n gone => ?_, fun e done n hn session => ?_⟩
  · exact (behind.kept kept).cleared n (by simpa using gone)
  · rcases List.mem_append.mp done with old | new
    · exact (behind.kept kept).handed e old n hn session
    · obtain rfl := List.mem_singleton.mp new
      cases hn

/-- One more event at the end of what was done. -/
def record (log : List (Event Json)) (e : Event Json) : List (Event Json) := log ++ [e]

theorem foldl_record (log events : List (Event Json)) : events.foldl record log = log ++ events := by
  induction events generalizing log with
  | nil => simp
  | cons e events ih => rw [List.foldl_cons, ih, record, List.append_assoc, List.singleton_append]

theorem follows_cleared {Q : List (Event Json) → Event Json → Prop} (all : ∀ log n, Q log (.cleared n))
    (log : List (Event Json)) (cleared : List (Notification Json)) :
    Machine.Follows record Q log (cleared.map .cleared) := by
  induction cleared generalizing log with
  | nil => trivial
  | cons n cleared ih => exact ⟨all log n, ih _⟩

end Steps

end Chiaki.Holepunch
