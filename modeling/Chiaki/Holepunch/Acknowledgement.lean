import Chiaki.Holepunch.SessionMessages

/-!
# Waiting for an acknowledgement

A wait for an acknowledgement skips and clears what is no answer, as long as it meets neither an answer to
another request nor a message that cannot be parsed: on these it does not clear.
-/

namespace Chiaki.Holepunch

variable {Json : Type}

section Steps

variable {s : Session Json} {r : Running Json} {parse : Json → Except ErrorCode SessionMessage}

/-- The answer that the call waits for. -/
def Answers (parse : Json → Except ErrorCode SessionMessage) (reqId : Int) (notif : Notification Json) : Prop :=
  ∃ msg, parse notif.json = .ok msg ∧ msg.action = .result ∧ (msg.reqId.toNat : Int) = reqId

/-- A session message that is no answer at all. -/
def NoAnswer (parse : Json → Except ErrorCode SessionMessage) (notif : Notification Json) : Prop :=
  ∃ msg, parse notif.json = .ok msg ∧ msg.action ≠ .result

/-- What `wait_for_session_message_ack` looks at in this step can be parsed, and is no answer to another request. -/
def expected (parse : Json → Except ErrorCode SessionMessage) (s : Session Json) (i : Input Json) : Bool :=
  match i, s.mainShouldStop, s.running with
  | .caller, false, some ⟨.sessionMessageAck reqId, .found notif, _⟩ =>
      match parse notif.json with
      | .ok msg => msg.action != .result || (msg.reqId.toNat : Int) == reqId
      | .error _ => false
  | _, _, _ => true

def Expected (parse : Json → Except ErrorCode SessionMessage) (s : Session Json) (i : Input Json) : Prop :=
  expected parse s i = true

instance (s : Session Json) (i : Input Json) : Decidable (Expected parse s i) :=
  inferInstanceAs (Decidable (_ = true))

theorem Expected.found (h : Expected parse s .caller) (goes : s.mainShouldStop = false) (running : s.running = some r)
    {reqId : Int} (call : r.call = .sessionMessageAck reqId) {notif : Notification Json} (point : r.point = .found notif) :
    Answers parse reqId notif ∨ NoAnswer parse notif := by
  obtain ⟨_, _, _⟩ := r
  obtain rfl : _ = _ := call
  obtain rfl : _ = _ := point
  simp only [Expected, expected, goes, running] at h
  cases parsed : parse notif.json with
  | error err => simp [parsed] at h
  | ok msg =>
      simp only [parsed, Bool.or_eq_true, bne_iff_ne, beq_iff_eq] at h
      by_cases result : msg.action = .result
      · exact .inl ⟨msg, parsed, result, h.resolve_left (not_not.mpr result)⟩
      · exact .inr ⟨msg, parsed, result⟩

/-- The call has examined messages that it skipped and cleared, and perhaps one more. -/
structure Skipping (parse : Json → Except ErrorCode SessionMessage) (log : List (Event Json))
    (examined skipped : List (Notification Json)) (pending : Option (Notification Json)) : Prop where
  split : examined = skipped ++ pending.toList
  ascending : Ascending examined
  skipped : ∀ n ∈ skipped, NoAnswer parse n ∧ Event.cleared n ∈ log

def Pending (parse : Json → Except ErrorCode SessionMessage) (reqId : Int) (pending : Option (Notification Json)) :
    Point Json → Prop
  | .scanning _ | .waiting _ => pending = none
  | .found notif => pending = some notif
  | .ignoring notif => pending = some notif ∧ NoAnswer parse notif
  | .received notif msg => pending = some notif ∧ parse notif.json = .ok msg ∧ msg.action = .result ∧
      (msg.reqId.toNat : Int) = reqId

/-- Where a wait for an acknowledgement stands. -/
def Waits (parse : Json → Except ErrorCode SessionMessage) (log : List (Event Json)) (s : Session Json) : Prop :=
  ∀ r reqId, s.running = some r → r.call = .sessionMessageAck reqId →
    ∃ skipped pending, Skipping parse log r.examined skipped pending ∧ Pending parse reqId pending r.point

/-- A wait for an acknowledgement ends with the answer, by the clock or because it is cancelled. -/
def Answered (parse : Json → Except ErrorCode SessionMessage) (log : List (Event Json)) (e : Event Json) : Prop :=
  ∀ reqId examined result, e = .returned (.sessionMessageAck reqId) examined result →
    ∃ skipped pending, Skipping parse log examined skipped pending ∧
      match result with
      | .ok notif => pending = some notif ∧ Answers parse reqId notif
      | .error err => err = .timeout ∨ err = .canceled

theorem Skipping.longer {log later : List (Event Json)} {examined skipped : List (Notification Json)}
    {pending : Option (Notification Json)} (skipping : Skipping parse log examined skipped pending) :
    Skipping parse (log ++ later) examined skipped pending :=
  ⟨skipping.split, skipping.ascending, fun n member =>
    ⟨(skipping.skipped n member).1, List.mem_append_left _ (skipping.skipped n member).2⟩⟩

theorem Waits.longer {log later : List (Event Json)} (waits : Waits parse log s) : Waits parse (log ++ later) s := by
  intro r reqId running call
  obtain ⟨skipped, pending, skipping, stands⟩ := waits r reqId running call
  exact ⟨skipped, pending, skipping.longer, stands⟩

theorem Waits.idle {log : List (Event Json)} (idle : s.running = none) : Waits parse log s := by
  intro r reqId running call
  rw [idle] at running
  cases running

theorem Waits.goto {s' : Session Json} {log : List (Event Json)} (waits : Waits parse log s) (running : s.running = some r)
    {point : Point Json} (running' : s'.running = some { r with point := point })
    (moves : ∀ reqId pending, r.call = .sessionMessageAck reqId → Pending parse reqId pending r.point →
      Pending parse reqId pending point) : Waits parse log s' := by
  intro r' reqId running'' call
  rw [running'] at running''
  obtain rfl := Option.some.inj running''
  obtain ⟨skipped, pending, skipping, stands⟩ := waits r reqId running call
  exact ⟨skipped, pending, skipping, moves reqId pending call stands⟩

theorem result_bits {msg : SessionMessage} {reqId : Int} :
    msg.action.bits &&& (Call.sessionMessageAck reqId).actions = 0 ↔ msg.action ≠ .result := by
  obtain ⟨action, _⟩ := msg
  cases action <;> simp [Call.actions, SessionMessageAction.bits] <;> decide

/-- The notification being looked at leaves the queue together with all before it. -/
theorem Sound.clearIgnored (sound : Sound s) (running : s.running = some r) {notif : Notification Json}
    (point : r.point = .ignoring notif) : notif ∈ (clearNotification notif.arrival s.wsNotificationQueue).1 := by
  obtain ⟨-, before, after, queue, -⟩ := List.find?_eq_some_iff_append.mp (sound.first running (.inr (.inl point))).2
  have ascending := sound.ascending
  rw [queue] at ascending ⊢
  rw [clearNotification_split ascending]
  simp

/-- What a step has added to the log is in order and answers, and the state goes on from there. -/
structure Logged (parse : Json → Except ErrorCode SessionMessage) (log : List (Event Json)) (s' : Session Json)
    (events : List (Event Json)) : Prop where
  follows : Machine.Follows record (fun log e => InOrder log e ∧ Answered parse log e) log events
  behind : Behind s' (log ++ events)
  waits : Waits parse (log ++ events) s'

section Logged

variable {s' : Session Json} {log : List (Event Json)}

theorem Logged.quiet (behind : Behind s log) (kept : Kept s s') (waits : Waits parse log s') : Logged parse log s' [] :=
  ⟨trivial, by rw [List.append_nil]; exact behind.kept kept, by rw [List.append_nil]; exact waits⟩

theorem Logged.hand (sound : Sound s) (behind : Behind s log) (kept : Kept s s') (idle : s'.running = none)
    (queue : s'.wsNotificationQueue = s.wsNotificationQueue) {types : UInt16} {notif : Notification Json}
    (first : s.wsNotificationQueue.find? (wanted types) = some notif) {call : Call} {examined : List (Notification Json)}
    (answered : Answered parse log (.returned call examined (.ok notif))) :
    Logged parse log s' [.returned call examined (.ok notif)] := by
  obtain ⟨inOrder, behind'⟩ := behind.hand sound kept queue first
  exact ⟨⟨⟨inOrder, answered⟩, trivial⟩, behind', .idle idle⟩

theorem Logged.fail (behind : Behind s log) (kept : Kept s s') (idle : s'.running = none) {call : Call}
    {examined : List (Notification Json)} {err : ErrorCode}
    (answered : Answered parse log (.returned call examined (.error err))) :
    Logged parse log s' [.returned call examined (.error err)] := by
  obtain ⟨inOrder, behind'⟩ := behind.fail kept
  exact ⟨⟨⟨inOrder, answered⟩, trivial⟩, behind', .idle idle⟩

theorem Logged.clear (sound : Sound s) (behind : Behind s log) (kept : Kept s s') {cleared : List (Notification Json)}
    (queue : cleared ++ s'.wsNotificationQueue = s.wsNotificationQueue)
    (waits : Waits parse (log ++ cleared.map .cleared) s') : Logged parse log s' (cleared.map .cleared) := by
  refine ⟨follows_cleared (fun log n => ⟨fun _ handed => ?_, fun _ _ _ returned => ?_⟩) log cleared,
    behind.clear sound kept queue, waits⟩
  · cases handed
  · cases returned

theorem Waits.giveUp (waits : Waits parse log s) (running : s.running = some r) {err : ErrorCode}
    (reason : err = .timeout ∨ err = .canceled) : Answered parse log (.returned r.call r.examined (.error err)) := by
  intro reqId examined result same
  obtain ⟨call, rfl, rfl⟩ := Event.returned.inj same
  obtain ⟨skipped, pending, skipping, -⟩ := waits r reqId running call
  exact ⟨skipped, pending, skipping, reason⟩

theorem answered_of_other {call : Call} (other : ∀ reqId, call ≠ .sessionMessageAck reqId)
    {examined : List (Notification Json)} {result : Except ErrorCode (Notification Json)} :
    Answered parse log (.returned call examined result) := by
  intro reqId _ _ same
  obtain ⟨call, -, -⟩ := Event.returned.inj same
  exact absurd call (other reqId)

end Logged

theorem Moves.logged {s' : Session Json} {i : Input Json} {events log : List (Event Json)} (sound : Sound s)
    (behind : Behind s log) (waits : Waits parse log s) (expected : Expected parse s i) (moves : Moves parse s i s' events) :
    Logged parse log s' events := by
  have kept := moves.kept
  cases moves with
  | nothing => exact .quiet behind kept waits
  | enqueue type json => exact .quiet behind kept waits
  | stop => exact .quiet behind kept waits
  | call call idle =>
      refine .quiet behind kept fun r reqId running isAck => ?_
      obtain rfl := Option.some.inj running
      exact ⟨[], none, ⟨rfl, List.Pairwise.nil, by simp⟩, rfl⟩
  | clear arrival idle =>
      exact .clear sound behind kept (clearNotification_append arrival _) (.idle idle)
  | wakeTimeout running point => exact .fail behind kept rfl (waits.giveUp running (.inl rfl))
  | cancel running stopped => exact .fail behind kept rfl (waits.giveUp running (.inr rfl))
  | wakeAgain running point =>
      exact .quiet behind kept (waits.goto running rfl fun _ _ _ stands => by rwa [point] at stands)
  | wait running point nothing =>
      exact .quiet behind kept (waits.goto running rfl fun _ _ _ stands => by rwa [point] at stands)
  | toRear running point last other nothing =>
      exact .quiet behind kept (waits.goto running rfl fun _ _ _ stands => by rwa [point] at stands)
  | handNotification running point call first =>
      exact .hand sound behind kept rfl rfl first (answered_of_other (by simp [call]))
  | handMessage running point call =>
      exact .hand sound behind kept rfl rfl (sound.first running (.inl point)).2 (answered_of_other call)
  | find running point call first =>
      rename_i r lastKnown notif
      refine .quiet behind kept fun r' reqId running' isAck => ?_
      obtain rfl := Option.some.inj running'
      obtain ⟨skipped, pending, skipping, stands⟩ := waits r reqId running isAck
      rw [point] at stands
      obtain rfl : pending = none := stands
      obtain ⟨split, ascending, done⟩ := skipping
      rw [Option.toList_none, List.append_nil] at split
      refine ⟨skipped, some notif, ⟨by rw [split]; rfl, ?_, done⟩, rfl⟩
      refine List.pairwise_append.mpr ⟨ascending, List.pairwise_singleton _ _, fun n member m last => ?_⟩
      obtain rfl := List.mem_singleton.mp last
      rw [split] at member
      exact (behind.cleared n (done n member).2).2 m (List.mem_of_find?_eq_some first)
  | unreadable running goes point failed =>
      refine .fail behind kept rfl fun reqId examined result same => ?_
      obtain ⟨call, rfl, rfl⟩ := Event.returned.inj same
      rcases expected.found goes running call point with ⟨msg, parsed, -⟩ | ⟨msg, parsed, -⟩
      · rw [failed] at parsed
        cases parsed
      · rw [failed] at parsed
        cases parsed
  | ignore running goes point parsed other =>
      refine .quiet behind kept (waits.goto running rfl fun reqId pending call stands => ?_)
      rw [point] at stands
      rw [call, result_bits] at other
      exact ⟨stands, _, parsed, other⟩
  | receive running goes point parsed fits call =>
      refine .quiet behind kept (waits.goto running rfl fun reqId pending call stands => ?_)
      rw [point] at stands
      rw [call, Ne, result_bits, not_not] at fits
      rcases expected.found goes running call point with ⟨msg, parsed', -, same⟩ | ⟨msg, parsed', noAnswer⟩
      · rw [parsed] at parsed'
        obtain rfl := Except.ok.inj parsed'
        exact ⟨stands, parsed, fits, same⟩
      · rw [parsed] at parsed'
        obtain rfl := Except.ok.inj parsed'
        exact absurd fits noAnswer
  | clearIgnored running point =>
      rename_i r notif
      refine .clear sound behind kept (clearNotification_append notif.arrival _) fun r' reqId running' call => ?_
      obtain rfl := Option.some.inj running'
      obtain ⟨skipped, pending, skipping, stands⟩ := waits.longer r reqId running call
      rw [point] at stands
      obtain ⟨rfl, noAnswer⟩ := stands
      refine ⟨skipped ++ [notif], none, ⟨by simpa using skipping.split, skipping.ascending, fun n member => ?_⟩, rfl⟩
      rcases List.mem_append.mp member with before | last
      · exact skipping.skipped n before
      · obtain rfl := List.mem_singleton.mp last
        exact ⟨noAnswer, List.mem_append_right _ (List.mem_map_of_mem (sound.clearIgnored running point))⟩
  | again running point call other =>
      obtain ⟨_, _, -, stands⟩ := waits _ _ running call
      rw [point] at stands
      exact absurd stands.2.2.2 other
  | handAck running point same =>
      refine .hand sound behind kept rfl rfl (sound.first running (.inr (.inr ⟨_, point⟩))).2 fun reqId examined result same => ?_
      obtain ⟨call, rfl, rfl⟩ := Event.returned.inj same
      obtain ⟨skipped, pending, skipping, stands⟩ := waits _ reqId running call
      rw [point] at stands
      exact ⟨skipped, pending, skipping, stands.1, _, stands.2⟩

/-! ## A wait comes to an end -/

/-- How many steps the caller can take before it waits or returns. -/
def stepsLeft (s : Session Json) (r : Running Json) : Nat :=
  match r.point with
  | .scanning lastKnown =>
      if lastKnown.isSome ∧ lastKnown = s.wsNotificationQueue.getLast?.map Notification.arrival then 1
      else 3 * s.wsNotificationQueue.countP (wanted r.call.query) + 2
  | .waiting _ => 0
  | .found _ => 3 * s.wsNotificationQueue.countP (wanted r.call.query) + 1
  | .ignoring _ => 3 * s.wsNotificationQueue.countP (wanted r.call.query)
  | .received _ _ => 1

theorem stepsLeft_le (s : Session Json) (r : Running Json) : stepsLeft s r ≤ 3 * s.wsNotificationQueue.length + 2 := by
  have most := s.wsNotificationQueue.countP_le_length (p := wanted r.call.query)
  unfold stepsLeft
  split
  · split <;> omega
  all_goals omega

theorem Sound.countP_pos (sound : Sound s) (running : s.running = some r) {notif : Notification Json}
    (point : r.point = .found notif ∨ r.point = .ignoring notif ∨ ∃ msg, r.point = .received notif msg) :
    0 < s.wsNotificationQueue.countP (wanted r.call.query) :=
  List.countP_pos_iff.mpr ⟨notif, List.mem_of_find?_eq_some (sound.first running point).2,
    List.find?_some (sound.first running point).2⟩

/-- What is left behind the message that was looked at is one wanted notification less. -/
theorem Sound.countP_clear (sound : Sound s) (running : s.running = some r) {notif : Notification Json}
    (point : r.point = .ignoring notif) :
    (clearNotification notif.arrival s.wsNotificationQueue).2.countP (wanted r.call.query) <
      s.wsNotificationQueue.countP (wanted r.call.query) := by
  obtain ⟨isWanted, before, after, queue, -⟩ :=
    List.find?_eq_some_iff_append.mp (sound.first running (.inr (.inl point))).2
  have ascending := sound.ascending
  rw [queue] at ascending ⊢
  rw [clearNotification_split ascending, List.countP_append, List.countP_cons_of_pos isWanted]
  dsimp only
  omega

/-- The call is not in `chiaki_cond_timedwait`. -/
def Looking (r : Running Json) : Prop := ∀ lastKnown, r.point ≠ .waiting lastKnown

theorem Sound.stepsLeft_pos (sound : Sound s) (running : s.running = some r) (looking : Looking r) : 0 < stepsLeft s r := by
  unfold stepsLeft
  split
  · split <;> omega
  · rename_i lastKnown point
    exact absurd point (looking lastKnown)
  · omega
  · rename_i notif point
    have some_ := sound.countP_pos running (.inr (.inl point))
    omega
  · omega

/-- The call has returned, or waits and has seen everything. -/
def Settled (call : Call) (s : Session Json) : Prop :=
  ∀ r, s.running = some r → r.call = call ∧ (∃ lastKnown, r.point = .waiting lastKnown) ∧
    s.wsNotificationQueue.find? (wanted call.query) = none

theorem Moves.progress {s' : Session Json} {events log : List (Event Json)} (sound : Sound s) (waits : Waits parse log s)
    {reqId : Int} (running : s.running = some r) (call : r.call = .sessionMessageAck reqId)
    (moves : Moves parse s .caller s' events) :
    Settled r.call s' ∨ (∃ lastKnown, r.point = .waiting lastKnown) ∨
      ∃ r', s'.running = some r' ∧ r'.call = r.call ∧ Looking r' ∧ stepsLeft s' r' < stepsLeft s r := by
  have same : ∀ {r'}, s.running = some r' → r' = r := fun running' => Option.some.inj (running'.symm.trans running)
  have idle : s'.running = none → Settled r.call s' := by
    intro idle r' running'
    rw [idle] at running'
    cases running'
  cases moves with
  | nothing blocked => exact .inr (.inl (blocked rfl r running))
  | cancel running' stopped => exact .inl (idle rfl)
  | handNotification running' point call' first => exact .inl (idle rfl)
  | unreadable running' goes point failed => exact .inl (idle rfl)
  | handMessage running' point call' => exact .inl (idle rfl)
  | handAck running' point same' => exact .inl (idle rfl)
  | wait running' point nothing =>
      obtain rfl := same running'
      refine .inl fun r' running'' => ?_
      obtain rfl := Option.some.inj running''
      exact ⟨rfl, ⟨_, rfl⟩, nothing⟩
  | toRear running' point last other nothing =>
      obtain rfl := same running'
      refine .inr (.inr ⟨_, rfl, rfl, by simp [Looking], ?_⟩)
      simp only [stepsLeft, point, last, Option.map_some, Option.isSome_some, true_and, if_true, other, and_false, if_false]
      omega
  | find running' point call' first =>
      obtain rfl := same running'
      refine .inr (.inr ⟨_, rfl, rfl, by simp [Looking], ?_⟩)
      have passed := sound.passed running' (.inl point)
      simp only [stepsLeft, point]
      split
      · rename_i atRear
        cases hlast : s.wsNotificationQueue.getLast? with
        | none =>
            rw [hlast] at atRear
            exact absurd atRear.1 (by simp [atRear.2])
        | some rear =>
            rw [atRear.2, hlast] at passed
            rw [passed.rear sound.ascending hlast] at first
            cases first
      · exact Nat.lt_succ_self _
  | ignore running' goes point parsed other =>
      obtain rfl := same running'
      refine .inr (.inr ⟨_, rfl, rfl, by simp [Looking], ?_⟩)
      simp only [stepsLeft, point]
      exact Nat.lt_succ_self _
  | receive running' goes point parsed fits call' =>
      obtain rfl := same running'
      refine .inr (.inr ⟨_, rfl, rfl, by simp [Looking], ?_⟩)
      have some_ := sound.countP_pos running (.inl point)
      simp only [stepsLeft, point]
      omega
  | clearIgnored running' point =>
      obtain rfl := same running'
      refine .inr (.inr ⟨_, rfl, rfl, by simp [Looking], ?_⟩)
      have fewer := sound.countP_clear running point
      simp only [stepsLeft, point, Option.isSome_none, Bool.false_eq_true, false_and, if_false]
      omega
  | again running' point call' other =>
      obtain ⟨_, _, -, stands⟩ := waits _ _ running' call'
      rw [point] at stands
      exact absurd stands.2.2.2 other

theorem wanted_of_session {reqId : Int} {notif : Notification Json} (session : notif.type = .sessionMessageCreated) :
    wanted (Call.sessionMessageAck reqId).query notif = true := by
  simp only [wanted, session, Call.query]
  decide

theorem Answers.not_noAnswer {reqId : Int} {notif : Notification Json} (answers : Answers parse reqId notif) :
    ¬ NoAnswer parse notif := by
  rintro ⟨msg, parsed, other⟩
  obtain ⟨msg', parsed', result, -⟩ := answers
  rw [parsed] at parsed'
  obtain rfl := Except.ok.inj parsed'
  exact other result

/-- While the answer is in the queue and nobody cancels, the call looks on until it returns it. -/
theorem Moves.answer {s' : Session Json} {events log : List (Event Json)} (sound : Sound s) (waits : Waits parse log s)
    (expected : Expected parse s .caller) {reqId : Int} (running : s.running = some r)
    (call : r.call = .sessionMessageAck reqId) (looking : Looking r) (goes : s.mainShouldStop = false)
    {answer : Notification Json} (queued : answer ∈ s.wsNotificationQueue) (session : answer.type = .sessionMessageCreated)
    (answers : Answers parse reqId answer) (moves : Moves parse s .caller s' events) :
    (∃ examined notif, events = [.returned r.call examined (.ok notif)]) ∨
      s'.mainShouldStop = false ∧ answer ∈ s'.wsNotificationQueue ∧ ∃ r', s'.running = some r' ∧ Looking r' := by
  have same : ∀ {r'}, s.running = some r' → r' = r := fun running' => Option.some.inj (running'.symm.trans running)
  have isWanted : wanted r.call.query answer = true := by rw [call]; exact wanted_of_session session
  have seen : s.wsNotificationQueue.find? (wanted r.call.query) ≠ none := fun nothing =>
    List.find?_eq_none.mp nothing answer queued isWanted
  cases moves with
  | nothing blocked =>
      obtain ⟨lastKnown, point⟩ := blocked rfl r running
      exact absurd point (looking lastKnown)
  | cancel running' stopped =>
      rw [goes] at stopped
      cases stopped
  | wait running' point nothing =>
      obtain rfl := same running'
      exact absurd nothing seen
  | toRear running' point last other nothing =>
      obtain rfl := same running'
      exact absurd nothing seen
  | handNotification running' point call' first =>
      obtain rfl := same running'
      exact .inl ⟨_, _, rfl⟩
  | handMessage running' point call' =>
      obtain rfl := same running'
      exact .inl ⟨_, _, rfl⟩
  | handAck running' point same' =>
      obtain rfl := same running'
      exact .inl ⟨_, _, rfl⟩
  | unreadable running' goes' point failed =>
      obtain rfl := same running'
      rcases expected.found goes running' call point with ⟨msg, parsed, -⟩ | ⟨msg, parsed, -⟩
      · rw [failed] at parsed
        cases parsed
      · rw [failed] at parsed
        cases parsed
  | clearIgnored running' point =>
      obtain rfl := same running'
      rename_i notif
      refine .inr ⟨goes, ?_, _, rfl, by simp [Looking]⟩
      · obtain ⟨_, pending, -, stands⟩ := waits _ reqId running call
        rw [point] at stands
        obtain ⟨-, before, after, queue, unwanted⟩ :=
          List.find?_eq_some_iff_append.mp (sound.first running (.inr (.inl point))).2
        have ascending := sound.ascending
        rw [queue] at ascending queued ⊢
        rw [clearNotification_split ascending]
        rcases List.mem_append.mp queued with front | later
        · exact absurd isWanted (by simpa using unwanted answer front)
        · rcases List.mem_cons.mp later with rfl | later
          · exact absurd stands.2 answers.not_noAnswer
          · exact later
  | find running' point call' first =>
      exact .inr ⟨goes, queued, _, rfl, by simp [Looking]⟩
  | ignore running' goes' point parsed other =>
      exact .inr ⟨goes, queued, _, rfl, by simp [Looking]⟩
  | receive running' goes' point parsed fits call' =>
      exact .inr ⟨goes, queued, _, rfl, by simp [Looking]⟩
  | again running' point call' other =>
      exact .inr ⟨goes, queued, _, rfl, by simp [Looking]⟩

theorem Settled.run {call : Call} (settled : Settled call s) (k : Nat) :
    Machine.run (step parse) s (List.replicate k .caller) = .ok (s, List.replicate k []) := by
  have stays : step parse s .caller = .ok (s, []) := by
    cases running : s.running with
    | none => simp only [step, running]
    | some r =>
        obtain ⟨-, ⟨lastKnown, point⟩, -⟩ := settled r running
        simp only [step, running, caller, point]
  induction k with
  | zero => rfl
  | succ k ih =>
      rw [List.replicate_succ, Machine.run_cons_ok stays, ih]
      rfl

theorem settles {log : List (Event Json)} (sound : Sound s) (behind : Behind s log) (waits : Waits parse log s)
    {reqId : Int} (running : s.running = some r) (call : r.call = .sessionMessageAck reqId) (looking : Looking r)
    {k : Nat} (enough : stepsLeft s r ≤ k)
    (expected : Machine.Along (step parse) (Expected parse) s (List.replicate k .caller)) :
    ∃ t later, Machine.run (step parse) s (List.replicate k .caller) = .ok (t, later) ∧ Settled r.call t ∧
      (s.mainShouldStop = false →
        (∃ n ∈ s.wsNotificationQueue, n.type = .sessionMessageCreated ∧ Answers parse reqId n) →
        ∃ examined n, Event.returned r.call examined (.ok n) ∈ later.flatten) := by
  induction k generalizing s r log with
  | zero => exact absurd (sound.stepsLeft_pos running looking) (by omega)
  | succ k ih =>
      obtain ⟨s', events, stepped, moves⟩ := step_moves parse sound .caller
      rw [List.replicate_succ, Machine.along_cons stepped] at expected
      obtain ⟨now, later⟩ := expected
      have answer := fun goes n (queued : n ∈ s.wsNotificationQueue) session answers =>
        moves.answer sound waits now running call looking goes queued session answers
      obtain ⟨-, behind', waits'⟩ := moves.logged sound behind waits now
      rw [List.replicate_succ, Machine.run_cons_ok stepped]
      rcases moves.progress sound waits running call with settled | ⟨lastKnown, point⟩ | ⟨r', running', call', looking', fewer⟩
      · rw [settled.run]
        refine ⟨s', _, rfl, settled, ?_⟩
        rintro goes ⟨n, queued, session, answers⟩
        rcases answer goes n queued session answers with ⟨examined, notif, rfl⟩ | ⟨-, -, r', running', looks⟩
        · exact ⟨examined, notif, by simp⟩
        · obtain ⟨-, ⟨lastKnown, point⟩, -⟩ := settled r' running'
          exact absurd point (looks lastKnown)
      · exact absurd point (looking lastKnown)
      · obtain ⟨t, rest, ran, settled, found⟩ := ih (moves.sound sound) behind' waits' running' (call'.trans call) looking' (by omega) later
        rw [ran]
        rw [call'] at settled found
        refine ⟨t, events :: rest, rfl, settled, ?_⟩
        rintro goes ⟨n, queued, session, answers⟩
        rcases answer goes n queued session answers with ⟨examined, notif, rfl⟩ | ⟨goes', queued', -⟩
        · exact ⟨examined, notif, by simp⟩
        · obtain ⟨examined, notif, member⟩ := found goes' ⟨n, queued', session, answers⟩
          exact ⟨examined, notif, by rw [List.flatten_cons]; exact List.mem_append_right _ member⟩

end Steps

/-! ## Runs -/

theorem acknowledged (parse : Json → Except ErrorCode SessionMessage) (inputs : List (Input Json))
    (expected : Machine.Along (step parse) (Expected parse) start inputs) :
    ∃ s out, Machine.run (step parse) start inputs = .ok (s, out) ∧
      (∀ log e, log ++ [e] <+: out.flatten → InOrder log e ∧ Answered parse log e) ∧
      Waits parse out.flatten s ∧
      ∀ r reqId, s.running = some r → r.call = .sessionMessageAck reqId → Looking r →
        ∀ k, 3 * s.wsNotificationQueue.length + 2 ≤ k →
          Machine.Along (step parse) (Expected parse) s (List.replicate k .caller) →
          ∃ t later, Machine.run (step parse) s (List.replicate k .caller) = .ok (t, later) ∧ Settled r.call t ∧
            (s.mainShouldStop = false →
              (∃ n ∈ s.wsNotificationQueue, n.type = .sessionMessageCreated ∧ Answers parse reqId n) →
              ∃ examined n, Event.returned r.call examined (.ok n) ∈ later.flatten) := by
  obtain ⟨s, out, ran, sound, -⟩ := Machine.run_invariant Sound (fun _ => True)
    (fun s i sound _ => by
      obtain ⟨s', events, stepped, moves⟩ := step_moves parse sound i
      exact ⟨s', events, stepped, moves.sound sound, trivial⟩) start_sound expected
  obtain ⟨follows, -, behind, waits⟩ : Machine.Follows record (fun log e => InOrder log e ∧ Answered parse log e) []
      out.flatten ∧ Sound s ∧ Behind s (out.flatten.foldl record []) ∧ Waits parse (out.flatten.foldl record []) s := by
    apply Machine.Along.follows (fun s log => Sound s ∧ Behind s log ∧ Waits parse log s) _
      ⟨start_sound, ⟨by simp, by simp⟩, .idle rfl⟩ expected ran
    intro s log i s' events inv now stepped
    obtain ⟨sound, behind, waits⟩ := inv
    obtain ⟨s'', events', stepped', moves⟩ := step_moves parse sound i
    rw [stepped] at stepped'
    obtain ⟨rfl, rfl⟩ := Prod.mk.inj (Except.ok.inj stepped')
    obtain ⟨follows, behind', waits'⟩ := moves.logged sound behind waits now
    rw [foldl_record]
    exact ⟨follows, moves.sound sound, behind', waits'⟩
  rw [foldl_record, List.nil_append] at behind waits
  refine ⟨s, out, ran, fun log e isPrefix => ?_, waits, fun r reqId running call looking k enough expected' => ?_⟩
  · have here := Machine.follows_iff_prefix.mp follows log e isPrefix
    rwa [foldl_record, List.nil_append] at here
  · exact settles sound behind waits running call looking ((stepsLeft_le s r).trans enough) expected'

theorem acknowledged_seven :
    ∃ s out, Machine.run (@step SessionMessage .ok) start
        [.enqueueNq .sessionMessageCreated ⟨.offer, 3⟩, .enqueueNq .sessionMessageCreated ⟨.result, 7⟩,
          .call (.sessionMessageAck 7), .caller, .caller, .caller, .caller] = .ok (s, out) ∧
      (∀ log e, log ++ [e] <+: out.flatten → InOrder log e ∧ Answered .ok log e) ∧
      Waits .ok out.flatten s ∧
      ∀ r reqId, s.running = some r → r.call = .sessionMessageAck reqId → Looking r →
        ∀ k, 3 * s.wsNotificationQueue.length + 2 ≤ k →
          Machine.Along (step .ok) (Expected .ok) s (List.replicate k .caller) →
          ∃ t later, Machine.run (step .ok) s (List.replicate k .caller) = .ok (t, later) ∧ Settled r.call t ∧
            (s.mainShouldStop = false →
              (∃ n ∈ s.wsNotificationQueue, n.type = .sessionMessageCreated ∧ Answers .ok reqId n) →
              ∃ examined n, Event.returned r.call examined (.ok n) ∈ later.flatten) :=
  acknowledged .ok _ (by decide +kernel)

/-- The answer to request 7, which nobody takes out of the queue. -/
def foreignResult : Notification SessionMessage := ⟨0, .sessionMessageCreated, ⟨.result, 7⟩⟩

/-- A wait for the answer to request 5 that has met it `k` times. -/
def lookingFor5 (k : Nat) : Session SessionMessage :=
  ⟨[foreignResult], false, 1, some ⟨.sessionMessageAck 5, .scanning none, List.replicate k foreignResult⟩⟩

theorem lookingFor5_turn (k : Nat) :
    Machine.run (step .ok) (lookingFor5 k) [.caller, .caller, .caller] = .ok (lookingFor5 (k + 1), [[], [], []]) := by
  have isWanted : wanted (Call.sessionMessageAck 5).query foreignResult = true := by decide
  have isResult : ¬ foreignResult.json.action.bits &&& (Call.sessionMessageAck 5).actions = 0 := by decide
  have other : ¬ (foreignResult.json.reqId.toNat : Int) = 5 := by decide
  simp [lookingFor5, Machine.run, step, caller, waitForNotification, waitForSessionMessage, waitForSessionMessageAck,
    following, goto, isWanted, isResult, other, List.replicate_succ']

theorem lookingFor5_turns (k j : Nat) : ∃ out,
    Machine.run (step .ok) (lookingFor5 j) (List.replicate (3 * k) .caller) = .ok (lookingFor5 (j + k), out) := by
  induction k generalizing j with
  | zero => exact ⟨[], rfl⟩
  | succ k ih =>
      obtain ⟨out, ran⟩ := ih (j + 1)
      have turn : List.replicate (3 * (k + 1)) (@Input.caller SessionMessage) =
          [.caller, .caller, .caller] ++ List.replicate (3 * k) .caller := by
        rw [Nat.mul_succ, Nat.add_comm, List.replicate_add]
        rfl
      refine ⟨[[], [], []] ++ out, ?_⟩
      rw [turn, Machine.run_append, lookingFor5_turn]
      dsimp only
      rw [ran, Nat.add_assoc, Nat.add_comm 1 k]
      rfl

theorem examines_again (k : Nat) :
    ∃ s out, Machine.run (step .ok) start
        ([.enqueueNq .sessionMessageCreated ⟨.result, 7⟩, .call (.sessionMessageAck 5)] ++
          List.replicate (3 * k) .caller) = .ok (s, out) ∧
      s.running = some ⟨.sessionMessageAck 5, .scanning none, List.replicate k foreignResult⟩ := by
  obtain ⟨out, ran⟩ := lookingFor5_turns k 0
  have begun : Machine.run (step .ok) start
      [.enqueueNq .sessionMessageCreated ⟨.result, 7⟩, .call (.sessionMessageAck 5)] = .ok (lookingFor5 0, [[], []]) := rfl
  refine ⟨lookingFor5 (0 + k), [[], []] ++ out, ?_, by rw [Nat.zero_add]; rfl⟩
  rw [Machine.run_append, begun]
  dsimp only
  rw [ran]
  rfl

/-- The wait never comes to an end, and looks at the same notification again and again. -/
theorem not_acknowledged :
    ¬ ∃ bound, ∀ k s out, Machine.run (step .ok) start
        ([.enqueueNq .sessionMessageCreated ⟨.result, 7⟩, .call (.sessionMessageAck 5)] ++
          List.replicate (3 * k) .caller) = .ok (s, out) →
      ∀ r, s.running = some r → r.examined.count foreignResult ≤ bound := by
  rintro ⟨bound, finite⟩
  obtain ⟨s, out, ran, running⟩ := examines_again (bound + 1)
  have examined := finite (bound + 1) s out ran _ running
  rw [List.count_replicate_self] at examined
  exact absurd examined (Nat.not_succ_le_self bound)

end Chiaki.Holepunch
