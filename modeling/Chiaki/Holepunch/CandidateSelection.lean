import Chiaki.Holepunch.CheckCandidates
import Chiaki.Lib.Loop

/-!
# The candidate that is selected

Whatever is received, every array is accessed inside its bounds, and a candidate is selected only after it has
answered the three requests in their order.
-/

namespace Chiaki.Holepunch
open Loop

/-- The datagram is a response of the candidate to request `k`. -/
structure Datagram.Answers (datagram : Datagram) (args : CheckArgs) (candidate : Candidate) (k : Nat) : Prop where
  sender : ∃ address, datagram.address = some address ∧ sameSender address datagram.port candidate = true
  size : 88 ≤ datagram.bytes.length
  type : datagram.bytes.take 4 = msgTypeResp
  request : ∃ id, args.requests.ids[k]? = some id ∧ (datagram.bytes.drop 0x4b).take 5 = id.toList

/-- The candidate has answered the first `n` requests, one behind the other. -/
def HasAnswered (args : CheckArgs) (log : List Datagram) (candidate : Candidate) (n : Nat) : Prop :=
  ∃ answers : List Datagram, answers.Sublist log ∧ answers.length = n ∧
    ∀ k (answer : Datagram), answers[k]? = some answer → answer.Answers args candidate k

/-- How many candidates there are. -/
def Check.known (args : CheckArgs) (s : Check) : Nat := args.candidatesReceived.length + s.extraAddressesUsed

/-- The selection of a run: at most three candidates are added, and the one that is selected has answered. -/
structure SelectsSoundly (args : CheckArgs) (next : Next) : Prop where
  fewAdded : next.state.extraAddressesUsed ≤ 3
  received : next.state.candidates.take args.candidatesReceived.length = args.candidatesReceived
  selected : ∀ i, next.state.selectedCandidate = some i → i < next.state.known args ∧
    ∃ candidate, next.state.candidates[i]? = some candidate ∧ HasAnswered args next.state.log candidate 3
  done : ∀ s, next = .done s → s.selectedCandidate.isSome

section HasAnswered
variable {args : CheckArgs} {log : List Datagram} {candidate : Candidate} {n : Nat}

theorem HasAnswered.none (args : CheckArgs) (log : List Datagram) (candidate : Candidate) :
    HasAnswered args log candidate 0 :=
  ⟨[], List.nil_sublist log, rfl, nofun⟩

theorem HasAnswered.longer (answered : HasAnswered args log candidate n) (later : List Datagram) :
    HasAnswered args (log ++ later) candidate n := by
  obtain ⟨answers, among, size, each⟩ := answered
  exact ⟨answers, among.trans (List.sublist_append_left log later), size, each⟩

theorem HasAnswered.next {datagram : Datagram} (answered : HasAnswered args log candidate n)
    (answers : datagram.Answers args candidate n) : HasAnswered args (log ++ [datagram]) candidate (n + 1) := by
  obtain ⟨before, among, rfl, each⟩ := answered
  refine ⟨before ++ [datagram], among.append (List.Sublist.refl _), List.length_append, fun k answer found => ?_⟩
  by_cases earlier : k < before.length
  · rw [List.getElem?_append_left earlier] at found
    exact each k answer found
  · rw [List.getElem?_append_right (not_lt.mp earlier)] at found
    obtain ⟨last, rfl⟩ := List.getElem?_eq_some_iff.mp found
    obtain rfl : k = before.length := by
      rw [List.length_singleton] at last
      omega
    simpa using answers

end HasAnswered

/-! ## The invariant -/

/-- The counts of responses are right for what is in `log`. -/
structure Counted (args : CheckArgs) (log : List Datagram) (s : Check) : Prop where
  candidates : s.candidates.length = args.candidatesReceived.length + 3
  addrs : s.addrs.length = args.candidatesReceived.length + 3
  lens : s.lens.length = args.candidatesReceived.length + 3
  responses : s.responsesReceived.length = args.candidatesReceived.length + 3
  few : s.extraAddressesUsed ≤ 3
  received : s.candidates.take args.candidatesReceived.length = args.candidatesReceived
  answered : ∀ i < s.known args, ∃ candidate n, s.candidates[i]? = some candidate ∧
    s.responsesReceived[i]? = some n ∧ n ≤ 2 ∧ HasAnswered args log candidate n

/-- The state at the head of the loop. -/
structure Searching (args : CheckArgs) (s : Check) : Prop where
  counted : Counted args s.log s
  unselected : s.selectedCandidate = none
  noSocket : s.selectedSock.isInvalid = true

/-- Where a round may lead. -/
def Leads (args : CheckArgs) (next : Next) : Prop :=
  SelectsSoundly args next ∧ ∀ s, next = .loop s → Searching args s

theorem Next.loop_ne_done (s s' : Check) : Next.loop s ≠ .done s' := by simp
theorem Next.cleanup_ne_done (s s' : Check) : Next.cleanup s ≠ .done s' := by simp
theorem Next.cleanup_ne_loop (s s' : Check) : Next.cleanup s ≠ .loop s' := by simp
theorem Next.done_ne_loop (s s' : Check) : Next.done s ≠ .loop s' := by simp

section Rounds
variable {args : CheckArgs} {s : Check} {turn : Turn} {log : List Datagram}

theorem Counted.inside (counted : Counted args log s) {i : Nat} (known : i < s.known args) :
    i < args.candidatesReceived.length + 3 := by
  have few := counted.few
  rw [Check.known] at known
  omega

theorem Counted.longer (counted : Counted args log s) (later : List Datagram) : Counted args (log ++ later) s := by
  refine { counted with answered := fun i known => ?_ }
  obtain ⟨candidate, n, here, count, small, answered⟩ := counted.answered i known
  exact ⟨candidate, n, here, count, small, answered.longer later⟩

theorem Counted.congr {s' : Check} (counted : Counted args log s) (candidates : s'.candidates = s.candidates)
    (addrs : s'.addrs = s.addrs) (lens : s'.lens = s.lens) (responses : s'.responsesReceived = s.responsesReceived)
    (extra : s'.extraAddressesUsed = s.extraAddressesUsed) : Counted args log s' := by
  have known : s'.known args = s.known args := by rw [Check.known, Check.known, extra]
  constructor
  · rw [candidates, counted.candidates]
  · rw [addrs, counted.addrs]
  · rw [lens, counted.lens]
  · rw [responses, counted.responses]
  · rw [extra]
    exact counted.few
  · rw [candidates, counted.received]
  · rw [known, candidates, responses]
    exact counted.answered

theorem Counted.soundly (counted : Counted args log s) (unselected : s.selectedCandidate = none) {next : Next}
    (same : next.state = s) (goes : ∀ s, next ≠ .done s) : SelectsSoundly args next := by
  refine ⟨same ▸ counted.few, same ▸ counted.received, fun i selected => ?_, fun s done => absurd done (goes s)⟩
  rw [same, unselected] at selected
  cases selected

theorem Searching.loop (searching : Searching args s) : Leads args (.loop s) := by
  refine ⟨searching.counted.soundly searching.unselected rfl (Next.loop_ne_done s), fun s' same => ?_⟩
  cases same
  exact searching

theorem Searching.cleanup (searching : Searching args s) : Leads args (.cleanup s) :=
  ⟨searching.counted.soundly searching.unselected rfl (Next.cleanup_ne_done s),
    fun s' same => absurd same (Next.cleanup_ne_loop s s')⟩

theorem Searching.update (searching : Searching args s) {socks fds : List Socket} {maxfd : Int}
    {receivedResponse responded connecting : Bool} {retryCounter : Nat} {err : ErrorCode} :
    Searching args { s with socks, fds, maxfd, receivedResponse, responded, connecting, retryCounter, err } :=
  ⟨searching.counted.congr rfl rfl rfl rfl rfl, searching.unselected, searching.noSocket⟩

theorem setAt_ok {α : Type} {array : List α} {i : Nat} (inside : i < array.length) (a : α) :
    setAt array i a = .ok (array.set i a) := if_pos inside

theorem inBounds_getElem {α : Type} {array : List α} {i : Nat} (inside : i < array.length) :
    inBounds array[i]? = .ok array[i] := by
  rw [List.getElem?_eq_getElem inside]
  rfl

theorem Counted.add {datagram : Datagram} {candidate : Candidate} {i n : Nat} (counted : Counted args log s)
    (known : i < s.known args) (here : s.candidates[i]? = some candidate) (count : s.responsesReceived[i]? = some n)
    (answers : datagram.Answers args candidate n) (s' : Check) (candidates : s'.candidates = s.candidates)
    (responses : s'.responsesReceived = s.responsesReceived.set i (n + 1)) :
    ∀ j < s.known args, ∃ candidate m, s'.candidates[j]? = some candidate ∧ s'.responsesReceived[j]? = some m ∧
      (m ≤ 2 ∨ j = i ∧ m = n + 1) ∧ HasAnswered args (log ++ [datagram]) candidate m := by
  intro j knownj
  obtain ⟨other, m, herej, countj, small, answered⟩ := counted.answered j knownj
  rw [candidates, responses]
  by_cases same : i = j
  · subst same
    obtain rfl := Option.some.inj (here.symm.trans herej)
    obtain rfl := Option.some.inj (count.symm.trans countj)
    have inside : i < s.responsesReceived.length := counted.responses.symm ▸ counted.inside known
    exact ⟨candidate, n + 1, here, List.getElem?_set_self inside, .inr ⟨rfl, rfl⟩, answered.next answers⟩
  · exact ⟨other, m, herej, by rw [List.getElem?_set_ne same, countj], .inl small, answered.longer [datagram]⟩

theorem Requests.id_ok (requests : Requests) {k : Nat} (small : k ≤ 2) :
    ∃ id, requests.ids[k]? = some id ∧ inBounds requests.ids[k]? = .ok id := by
  have inside : k < requests.ids.length := by
    rw [requests.ids_three]
    omega
  exact ⟨requests.ids[k], List.getElem?_eq_getElem inside, inBounds_getElem inside⟩

theorem Requests.buf_ok (requests : Requests) {k : Nat} (small : k ≤ 2) :
    ∃ buf, inBounds requests.bufs[k]? = .ok buf := by
  have inside : k < requests.bufs.length := by
    rw [requests.bufs_three]
    omega
  exact ⟨requests.bufs[k], inBounds_getElem inside⟩

theorem Searching.respond {datagram : Datagram} {candidate : Candidate} {i n : Nat} (searching : Searching args s)
    (logged : s.log = log ++ [datagram]) (counted : Counted args log s) (known : i < s.known args)
    (here : s.candidates[i]? = some candidate) (count : s.responsesReceived[i]? = some n)
    (answers : datagram.Answers args candidate n) (more : n + 1 ≤ 2) :
    Searching args { s with receivedResponse := true, responsesReceived := s.responsesReceived.set i (n + 1) } := by
  have every := counted.add known here count answers
    { s with receivedResponse := true, responsesReceived := s.responsesReceived.set i (n + 1) } rfl rfl
  rw [← logged] at every
  refine ⟨⟨counted.candidates, counted.addrs, counted.lens, ?_, counted.few, counted.received, fun j knownj => ?_⟩,
    searching.unselected, searching.noSocket⟩
  · rw [List.length_set, counted.responses]
  · obtain ⟨candidate, m, herej, countj, small, answered⟩ := every j knownj
    refine ⟨candidate, m, herej, countj, ?_, answered⟩
    cases small with
    | inl small => exact small
    | inr last => exact last.2 ▸ more

theorem Counted.select {datagram : Datagram} {candidate : Candidate} {i n : Nat} (counted : Counted args log s)
    (logged : s.log = log ++ [datagram]) (known : i < s.known args) (here : s.candidates[i]? = some candidate)
    (count : s.responsesReceived[i]? = some n) (answers : datagram.Answers args candidate n) (last : 2 < n + 1)
    {next : Next} (candidates : next.state.candidates = s.candidates)
    (extra : next.state.extraAddressesUsed = s.extraAddressesUsed) (log : next.state.log = s.log)
    (selected : next.state.selectedCandidate = some i) (leaves : ∀ s, next ≠ .loop s) : Leads args next := by
  have known' : next.state.known args = s.known args := by rw [Check.known, Check.known, extra]
  obtain ⟨other, m, here', count', small, answered⟩ := counted.answered i known
  obtain rfl := Option.some.inj (here.symm.trans here')
  obtain rfl := Option.some.inj (count.symm.trans count')
  obtain rfl : n = 2 := by omega
  refine ⟨⟨extra ▸ counted.few, candidates ▸ counted.received, fun j chosen => ?_, fun s done => ?_⟩,
    fun s loop => absurd loop (leaves s)⟩
  · obtain rfl := Option.some.inj (selected.symm.trans chosen)
    refine ⟨known' ▸ known, candidate, candidates ▸ here, ?_⟩
    rw [log, logged]
    exact answered.next answers
  · rw [done] at selected
    exact Option.isSome_of_eq_some selected

/-- A round that does not fail and leads where it may. -/
def Proceeds (args : CheckArgs) (result : Checked Next) : Prop := ∃ next, result = .ok next ∧ Leads args next

theorem Searching.loops (searching : Searching args s) : Proceeds args (.ok (.loop s)) :=
  ⟨.loop s, rfl, searching.loop⟩

theorem Searching.cleans (searching : Searching args s) : Proceeds args (.ok (.cleanup s)) :=
  ⟨.cleanup s, rfl, searching.cleanup⟩

theorem Searching.handle {datagram : Datagram} {candidate : Candidate} {sock : Socket} {i : Nat}
    (searching : Searching args s) (logged : s.log = log ++ [datagram]) (counted : Counted args log s)
    (known : i < s.known args) (here : s.candidates[i]? = some candidate)
    (sender : ∃ address, datagram.address = some address ∧ sameSender address datagram.port candidate = true) :
    Proceeds args (handleDatagram args turn s sock i datagram.bytes) := by
  have inside := counted.inside known
  have addr := inBounds_getElem (counted.addrs.symm ▸ inside : i < s.addrs.length)
  have len := inBounds_getElem (counted.lens.symm ▸ inside : i < s.lens.length)
  obtain ⟨_, n, here', count, small, -⟩ := counted.answered i known
  obtain ⟨first, request⟩ := args.requests.buf_ok (Nat.zero_le 2)
  obtain ⟨id, sent, requestId⟩ := args.requests.id_ok small
  have counts : i < s.responsesReceived.length := counted.responses.symm ▸ inside
  simp only [handleDatagram, here, count, inBounds_some, addr, len, request, requestId, ok_bind, setAt_ok counts, pure,
    Except.pure]
  generalize (if turn.answered = true then ErrorCode.success else ErrorCode.network) = err
  split
  · have short : Searching args { s with err := .network } := searching.update
    split
    · exact searching.loops
    · exact short.cleans
  split
  -- a request
  · have asked : Searching args { s with responded := true, err } := searching.update
    split
    · exact asked.cleans
    split
    · split
      · exact asked.cleans
      · exact asked.loops
    · exact asked.loops
  split
  · have unknown : Searching args { s with err := .unknown } := searching.update
    split
    · exact unknown.loops
    · exact unknown.cleans
  split
  · exact searching.loops
  -- the response to the request that was sent last
  rename_i full _ type same
  have size : 88 ≤ datagram.bytes.length := by
    rw [List.length_take] at full
    omega
  have answers : datagram.Answers args candidate n := by
    refine ⟨sender, size, ?_, id, sent, ?_⟩
    · rw [not_not, List.take_take] at type
      exact type
    · rw [not_not, List.drop_take, List.take_take] at same
      exact same
  by_cases last : n + 1 > 2
  · rw [if_pos last]
    split
    · exact ⟨_, rfl, counted.select logged known here count answers last rfl rfl rfl rfl (Next.cleanup_ne_loop _)⟩
    · exact ⟨_, rfl, counted.select logged known here count answers last rfl rfl rfl rfl (Next.done_ne_loop _)⟩
  · obtain ⟨next, following⟩ := args.requests.buf_ok (not_lt.mp last)
    have responded := searching.respond logged counted known here count answers (not_lt.mp last)
    rw [if_neg last, following, ok_bind]
    split
    · apply Searching.loops
      exact responded.update
    · exact responded.loops

theorem searchCandidate_ok (same : Candidate → Bool) {candidates : List Candidate} {left i : Nat}
    (inside : i + left ≤ candidates.length) :
    (∃ j candidate, searchCandidate same candidates left i = .ok (some j) ∧ j < i + left ∧
      candidates[j]? = some candidate ∧ same candidate = true) ∨ searchCandidate same candidates left i = .ok none := by
  induction left generalizing i with
  | zero => exact .inr rfl
  | succ left ih =>
      have below : i < candidates.length := by omega
      rw [searchCandidate, inBounds_getElem below, ok_bind]
      by_cases found : same candidates[i] = true
      · rw [if_pos found]
        exact .inl ⟨i, candidates[i], rfl, by omega, List.getElem?_eq_getElem below, found⟩
      · rw [if_neg found]
        rw [← Nat.add_assoc, Nat.add_right_comm] at inside ⊢
        exact ih inside

theorem Counted.extend (counted : Counted args log s) (room : s.extraAddressesUsed < 3) (candidate : Candidate)
    (addr : SockAddr) (len : Nat) : Counted args log { s with
      responsesReceived := s.responsesReceived.set (s.known args) 0
      candidates := s.candidates.set (s.known args) candidate
      addrs := s.addrs.set (s.known args) addr
      lens := s.lens.set (s.known args) len
      extraAddressesUsed := s.extraAddressesUsed + 1 } := by
  have inside : s.known args < args.candidatesReceived.length + 3 := Nat.add_lt_add_left room _
  constructor
  · rw [List.length_set, counted.candidates]
  · rw [List.length_set, counted.addrs]
  · rw [List.length_set, counted.lens]
  · rw [List.length_set, counted.responses]
  · exact room
  · have behind : args.candidatesReceived.length ≤ s.known args := Nat.le_add_right _ _
    exact (List.take_set_of_le behind).trans counted.received
  · intro j known
    by_cases new : s.known args = j
    · subst new
      exact ⟨candidate, 0, List.getElem?_set_self (counted.candidates.symm ▸ inside),
        List.getElem?_set_self (counted.responses.symm ▸ inside), Nat.zero_le 2, .none args log candidate⟩
    · have old : j < s.known args := by
        rw [Check.known] at known new ⊢
        dsimp only at known
        omega
      obtain ⟨other, n, here, count, small, answered⟩ := counted.answered j old
      exact ⟨other, n, by rw [List.getElem?_set_ne new, here], by rw [List.getElem?_set_ne new, count], small,
        answered⟩

theorem addCandidate_ok (counted : Counted args log s) (room : s.extraAddressesUsed < 3) (datagram : Datagram)
    (address : Vector UInt8 inet6Addrstrlen) : ∃ candidate, sameSender address datagram.port candidate = true ∧
    addCandidate s (s.known args) datagram address = .ok { s with
      responsesReceived := s.responsesReceived.set (s.known args) 0
      candidates := s.candidates.set (s.known args) candidate
      addrs := s.addrs.set (s.known args) datagram.sender
      lens := s.lens.set (s.known args) datagram.senderLen
      extraAddressesUsed := s.extraAddressesUsed + 1 } := by
  have inside : s.known args < args.candidatesReceived.length + 3 := Nat.add_lt_add_left room _
  rw [addCandidate, inBounds_getElem (counted.candidates.symm ▸ inside), ok_bind,
    setAt_ok (counted.responses.symm ▸ inside), ok_bind, setAt_ok (counted.candidates.symm ▸ inside), ok_bind,
    setAt_ok (counted.addrs.symm ▸ inside), ok_bind, setAt_ok (counted.lens.symm ▸ inside), ok_bind]
  exact ⟨_, by simp [sameSender], rfl⟩

theorem Searching.identify {datagram : Datagram} {address : Vector UInt8 inet6Addrstrlen} {sock : Socket}
    (searching : Searching args s) (logged : s.log = log ++ [datagram]) (counted : Counted args log s)
    (named : datagram.address = some address) : Proceeds args (identifySender args turn s sock datagram address) := by
  have inside : 0 + s.known args ≤ s.candidates.length := by
    have few := counted.few
    rw [counted.candidates, Check.known]
    omega
  rw [identifySender, ← Check.known]
  cases searchCandidate_ok (sameSender address datagram.port) inside with
  | inl found =>
      obtain ⟨i, candidate, search, known, here, same⟩ := found
      rw [search, ok_bind]
      exact searching.handle logged counted (Nat.zero_add (s.known args) ▸ known) here ⟨address, named, same⟩
  | inr search =>
      rw [search, ok_bind]
      by_cases full : s.extraAddressesUsed ≥ extraCandidateAddresses
      · simp only [if_pos full, pure, Except.pure]
        exact searching.loops
      · have room : s.extraAddressesUsed < 3 := not_le.mp full
        obtain ⟨candidate, same, added⟩ := addCandidate_ok counted room datagram address
        simp only [if_neg full, added, ok_bind]
        refine Searching.handle ⟨searching.counted.extend room _ _ _, searching.unselected, searching.noSocket⟩ logged
          (counted.extend room _ _ _) (Nat.lt_succ_self _) (List.getElem?_set_self ?_) ⟨address, named, same⟩
        rw [counted.candidates]
        exact Nat.add_lt_add_left room _

theorem Searching.receive (searching : Searching args s) : Proceeds args (receiveResponse args turn s) := by
  unfold receiveResponse
  cases candidateSock s with
  | none =>
      apply Searching.cleans
      unfold invalidSelect
      split
      · exact searching.update
      · exact searching.update
  | some sock =>
      by_cases allocated : turn.allocated = true
      · simp only [allocated, Bool.not_true, Bool.false_eq_true, if_false]
        cases turn.received with
        | none => exact searching.loops
        | some datagram =>
            have counted : Counted args s.log { s with log := s.log ++ [datagram] } :=
              searching.counted.congr rfl rfl rfl rfl rfl
            have heard : Searching args { s with log := s.log ++ [datagram] } :=
              ⟨counted.longer [datagram], searching.unselected, searching.noSocket⟩
            dsimp only
            split
            · exact heard.loops
            · exact heard.loops
            · rename_i named _
              exact heard.identify rfl counted named
      · simp only [allocated, Bool.not_false, if_true]
        apply Searching.cleans
        exact searching.update

theorem resend_ok (counted : Counted args log s) {i : Nat} (known : i < s.known args) (fds : List Socket) :
    ∃ fds', resend args turn s fds i = .ok fds' := by
  have inside := counted.inside known
  obtain ⟨first, request⟩ := args.requests.buf_ok (Nat.zero_le 2)
  simp only [resend, inBounds_getElem (counted.addrs.symm ▸ inside), inBounds_getElem (counted.lens.symm ▸ inside),
    inBounds_getElem (counted.candidates.symm ▸ inside), request, ok_bind, pure, Except.pure]
  repeat' split
  all_goals exact ⟨_, rfl⟩

theorem Searching.timeout (searching : Searching args s) : Proceeds args (selectTimeout args turn s) := by
  rw [selectTimeout, if_pos searching.noSocket]
  split
  · have again : Searching args { s with retryCounter := s.retryCounter + 1 } :=
      searching.update
    have rounds : ∀ i ∈ List.range (args.candidatesReceived.length + s.extraAddressesUsed), ∀ fds, True →
        ∃ fds', resend args turn { s with retryCounter := s.retryCounter + 1 } fds i = .ok fds' ∧ True := by
      intro i known fds _
      obtain ⟨fds', sent⟩ := resend_ok again.counted (List.mem_range.mp known) fds
      exact ⟨fds', sent, trivial⟩
    obtain ⟨fds, sent, -⟩ :=
      foldlM_ok (fun _ => True) (s := fdSetValid s.ipv6Sock (fdSetValid s.ipv4Sock [])) trivial rounds
    dsimp only
    rw [sent, ok_bind]
    apply Searching.loops
    exact searching.update
  split
  · apply Searching.loops
    exact searching.update
  · apply Searching.cleans
    exact searching.update

theorem Searching.takesTurn (searching : Searching args s) : Proceeds args (takeTurn args s turn) := by
  unfold takeTurn
  split
  · apply Searching.cleans
    exact searching.update
  · exact searching.receive
  · rename_i isReady _
    have selected : Searching args { s with fds := (watched s).filter isReady } :=
      searching.update
    dsimp only
    split
    · exact selected.timeout
    · exact selected.receive

theorem Searching.takesTurns (searching : Searching args s) (turns : List Turn) :
    Proceeds args (takeTurns args s turns) := by
  induction turns generalizing s with
  | nil => exact searching.loops
  | cons turn turns ih =>
      obtain ⟨next, taken, leads⟩ := @Searching.takesTurn args s turn searching
      rw [takeTurns, taken, ok_bind]
      cases next with
      | loop s' => exact ih (leads.2 s' rfl)
      | cleanup s' => exact ⟨.cleanup s', rfl, leads⟩
      | done s' => exact ⟨.done s', rfl, leads⟩

/-! ## Before the loop -/

/-- The state before round `i` of the first loop over the candidates. -/
structure Prepared (args : CheckArgs) (setup : CheckSetup) (i : Nat) (s : Check) : Prop where
  candidates : s.candidates = args.candidatesReceived ++ setup.uninitCandidates.toList
  addrs : s.addrs.length = args.candidatesReceived.length + 3
  lens : s.lens.length = args.candidatesReceived.length + 3
  responses : s.responsesReceived.length = args.candidatesReceived.length + 3
  zero : ∀ j < i, s.responsesReceived[j]? = some 0
  extra : s.extraAddressesUsed = 0
  unselected : s.selectedCandidate = none
  noSocket : s.selectedSock = invalidSocket
  log : s.log = []

variable {setup : CheckSetup}

theorem Prepared.congr {s' : Check} {i : Nat} (prepared : Prepared args setup i s)
    (candidates : s'.candidates = s.candidates) (addrs : s'.addrs.length = s.addrs.length)
    (lens : s'.lens.length = s.lens.length)
    (responses : s'.responsesReceived = s.responsesReceived) (extra : s'.extraAddressesUsed = s.extraAddressesUsed)
    (log : s'.log = s.log) (selected : s'.selectedCandidate = s.selectedCandidate)
    (sock : s'.selectedSock = s.selectedSock) : Prepared args setup i s' where
  candidates := candidates.trans prepared.candidates
  addrs := addrs.trans prepared.addrs
  lens := lens.trans prepared.lens
  responses := responses ▸ prepared.responses
  zero := responses ▸ prepared.zero
  extra := extra.trans prepared.extra
  unselected := selected.trans prepared.unselected
  noSocket := sock.trans prepared.noSocket
  log := log.trans prepared.log

theorem prepared_init (args : CheckArgs) (setup : CheckSetup) : Prepared args setup 0 (initCheck args setup) where
  candidates := rfl
  addrs := by simp [initCheck, extraCandidateAddresses]
  lens := by simp [initCheck, extraCandidateAddresses]
  responses := by simp [initCheck, extraCandidateAddresses]
  zero := nofun
  extra := rfl
  unselected := rfl
  noSocket := rfl
  log := rfl

theorem Prepared.round {failed : Bool} {i : Nat} (prepared : Prepared args setup i s)
    (candidate : i < args.candidatesReceived.length) :
    ∃ after, setupCandidate args setup (s, failed) i = .ok after ∧ Prepared args setup (i + 1) after.1 := by
  have inside : i < args.candidatesReceived.length + 3 := Nat.lt_add_right 3 candidate
  have stored : i < s.candidates.length := by
    rw [prepared.candidates, List.length_append]
    omega
  obtain ⟨first, request⟩ := args.requests.buf_ok (Nat.zero_le 2)
  have cleared : Prepared args setup (i + 1) { s with responsesReceived := s.responsesReceived.set i 0 } := by
    refine { prepared with responses := by rw [List.length_set, prepared.responses], zero := fun j below => ?_ }
    by_cases now : i = j
    · subst now
      exact List.getElem?_set_self (prepared.responses.symm ▸ inside)
    · exact (List.getElem?_set_ne now).trans (prepared.zero j (by omega))
  simp only [setupCandidate, inBounds_getElem stored, setAt_ok (prepared.responses.symm ▸ inside), ok_bind, pure,
    Except.pure]
  cases (setup.candidate i).resolved with
  | none =>
      refine ⟨_, rfl, ?_⟩
      exact cleared.congr rfl rfl rfl rfl rfl rfl rfl rfl
  | some found =>
      simp only [setAt_ok (prepared.addrs.symm ▸ inside), setAt_ok (prepared.lens.symm ▸ inside), request, ok_bind]
      repeat' split
      all_goals
        refine ⟨_, rfl, ?_⟩
        exact cleared.congr rfl List.length_set List.length_set rfl rfl rfl rfl rfl

theorem Prepared.searching (prepared : Prepared args setup args.candidatesReceived.length s) : Searching args s := by
  refine ⟨⟨?_, prepared.addrs, prepared.lens, prepared.responses, ?_, ?_, fun i known => ?_⟩, prepared.unselected, ?_⟩
  · rw [prepared.candidates, List.length_append, Vector.length_toList]
  · rw [prepared.extra]
    exact Nat.zero_le 3
  · rw [prepared.candidates, List.take_left]
  · rw [Check.known, prepared.extra] at known
    refine ⟨args.candidatesReceived[i], 0, ?_, prepared.zero i known, Nat.zero_le 2, .none args _ _⟩
    rw [prepared.candidates, List.getElem?_append_left known, List.getElem?_eq_getElem known]
  · rw [prepared.noSocket]
    rfl

theorem startChecks_proceeds (args : CheckArgs) (setup : CheckSetup) : Proceeds args (startChecks args setup) := by
  obtain ⟨⟨s, failed⟩, rounds, prepared⟩ := foldlM_range_ok (f := setupCandidate args setup)
    (fun i before => Prepared args setup i before.1) (s := (initCheck args setup, true)) (prepared_init args setup)
    fun i candidate before prepared => prepared.round candidate
  have searching := Prepared.searching prepared
  rw [startChecks, rounds, ok_bind]
  dsimp only
  split
  · apply Searching.cleans
    exact searching.update
  · apply Searching.loops
    by_cases random : args.stunRandomAllocation = true
    · simp only [prepareSelect, if_pos random]
      exact searching.update
    · simp only [prepareSelect, if_neg random]
      exact searching.update

end Rounds

/-- Whatever happens, no access is out of bounds, and a candidate is selected when it has answered three times. -/
theorem candidates_proven (args : CheckArgs) (setup : CheckSetup) (turns : List Turn) :
    ∃ next, checkCandidates args setup turns = .ok next ∧ SelectsSoundly args next := by
  obtain ⟨next, started, leads⟩ := startChecks_proceeds args setup
  rw [checkCandidates, started, ok_bind]
  cases next with
  | loop s =>
      obtain ⟨next, taken, leads⟩ := (leads.2 s rfl).takesTurns turns
      exact ⟨next, taken, leads.1⟩
  | cleanup s => exact ⟨.cleanup s, rfl, leads.1⟩
  | done s => exact ⟨.done s, rfl, leads.1⟩

end Chiaki.Holepunch
