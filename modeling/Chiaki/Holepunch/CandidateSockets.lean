import Chiaki.Holepunch.CheckCandidates
import Chiaki.Lib.Loop

/-!
# The sockets that are watched

`select` overwrites the set it is given. Which runs of the loop give it all sockets every time, and why no run
does so with random allocation.
-/

namespace Chiaki.Holepunch
open Loop

def ExtraSetup.Succeeds (setup : ExtraSetup) : Prop :=
  setup.socket.isInvalid = false ∧ setup.reuse = true ∧ setup.ttl = true ∧ setup.nonblock = true

/-- A main socket that is valid. -/
def MainSocket (args : CheckArgs) (sock : Socket) : Prop :=
  sock.isInvalid = false ∧ (sock = args.ipv4Sock ∨ sock = args.ipv6Sock)

/-- The sockets of the function. -/
def ValidSocket (args : CheckArgs) (setup : CheckSetup) (sock : Socket) : Prop :=
  MainSocket args sock ∨ args.stunRandomAllocation = true ∧
    ∃ j < randomAllocationSocksNumber, (setup.extra j).Succeeds ∧ sock = (setup.extra j).socket

/-- What `select` is given. -/
structure SetRight (args : CheckArgs) (setup : CheckSetup) (s : Check) : Prop where
  all : ∀ sock, sock ∈ watched s ↔ ValidSocket args setup sock
  valid : ∀ sock ∈ s.fds, sock.isInvalid = false

/-- If `select` finds a socket readable, the loop receives from one that is. -/
def Receives (s : Check) (turn : Turn) : Prop :=
  ∀ isReady, turn.select = .ready isReady → (∃ sock ∈ watched s, isReady sock = true) →
    ∃ sock, candidateSock { s with fds := (watched s).filter isReady } = some sock ∧ isReady sock = true

/-- Every call of `select` from `s` on watches the sockets of the function. -/
def Watches (args : CheckArgs) (setup : CheckSetup) : Check → List Turn → Prop
  | s, [] => SetRight args setup s
  | s, turn :: turns => SetRight args setup s ∧ Receives s turn ∧
      ∀ s', takeTurn args s turn = .ok (.loop s') → Watches args setup s' turns

def WatchesEverySocket (args : CheckArgs) (setup : CheckSetup) (turns : List Turn) : Prop :=
  ∀ s, startChecks args setup = .ok (.loop s) → Watches args setup s turns

/-- `select` leaves the set as it was, or the set is made again. -/
def Turn.KeepsSet (turn : Turn) (s : Check) : Prop :=
  match turn.select with
  | .ready isReady => (∀ sock ∈ watched s, isReady sock = true) ∨
      (∀ sock ∈ watched s, isReady sock = false) ∧ s.retryCounter < selectCandidateTries ∧
        s.receivedResponse = false
  | _ => True

/-- Every `select` that another one follows keeps the set. -/
def KeepsSet (args : CheckArgs) : Check → List Turn → Prop
  | _, [] => True
  | s, turn :: turns => ∀ s', takeTurn args s turn = .ok (.loop s') → turn.KeepsSet s ∧ KeepsSet args s' turns

theorem Watches.head {args : CheckArgs} {setup : CheckSetup} {s : Check} {turns : List Turn}
    (watches : Watches args setup s turns) : SetRight args setup s := by
  cases turns with
  | nil => exact watches
  | cons turn turns => exact watches.1

/-! ## Sets of sockets -/

theorem mem_fdSet {sock fd : Socket} {fds : List Socket} : fd ∈ fdSet sock fds ↔ fd ∈ fds ∨ fd = sock := by
  unfold fdSet
  split
  · constructor
    · exact Or.inl
    · intro found
      cases found with
      | inl found => exact found
      | inr same =>
          subst same
          assumption
  · rw [List.mem_append, List.mem_singleton]

theorem mem_fdSetValid {sock fd : Socket} {fds : List Socket} :
    fd ∈ fdSetValid sock fds ↔ fd ∈ fds ∨ sock.isInvalid = false ∧ fd = sock := by
  unfold fdSetValid
  cases sock.isInvalid with
  | true => simp
  | false => simpa using mem_fdSet

theorem mem_foldl_fdSet {fd : Socket} {socks fds : List Socket} (found : fd ∈ socks ∨ fd ∈ fds) :
    fd ∈ socks.foldl (fun fds sock => fdSet sock fds) fds := by
  induction socks generalizing fds with
  | nil => exact found.resolve_left (List.not_mem_nil)
  | cons sock socks ih =>
      apply ih
      cases found with
      | inl found =>
          cases found with
          | head => exact .inr (mem_fdSet.mpr (.inr rfl))
          | tail _ later => exact .inl later
      | inr found => exact .inr (mem_fdSet.mpr (.inl found))

theorem mem_mainSet {args : CheckArgs} {fd : Socket} :
    fd ∈ fdSetValid args.ipv6Sock (fdSetValid args.ipv4Sock []) ↔ MainSocket args fd := by
  rw [mem_fdSetValid, mem_fdSetValid, MainSocket]
  constructor
  · rintro ((none | ⟨valid, rfl⟩) | ⟨valid, rfl⟩)
    · cases none
    · exact ⟨valid, .inl rfl⟩
    · exact ⟨valid, .inr rfl⟩
  · rintro ⟨valid, rfl | rfl⟩
    · exact .inl (.inr ⟨valid, rfl⟩)
    · exact .inr ⟨valid, rfl⟩

/-! ## A round -/

/-- What the receiving part of a round leaves alone. -/
structure SameSet (s s' : Check) : Prop where
  ipv4Sock : s'.ipv4Sock = s.ipv4Sock
  ipv6Sock : s'.ipv6Sock = s.ipv6Sock
  maxfd : s'.maxfd = s.maxfd
  fds : s'.fds = s.fds

/-- If the round goes on, it is with a state that has the property. -/
def Next.LoopsWith (P : Check → Prop) : Next → Prop
  | .loop s => P s
  | _ => True

section Rounds
variable {args : CheckArgs} {s s' : Check} {turn : Turn}

theorem SameSet.then (same : SameSet s s') {result : Checked Next}
    (kept : Ensures (Next.LoopsWith (SameSet s')) result) : Ensures (Next.LoopsWith (SameSet s)) result := by
  intro next returned
  have kept := kept next returned
  cases next with
  | loop s'' => exact ⟨kept.ipv4Sock.trans same.ipv4Sock, kept.ipv6Sock.trans same.ipv6Sock,
      kept.maxfd.trans same.maxfd, kept.fds.trans same.fds⟩
  | cleanup s'' => trivial
  | done s'' => trivial

theorem handleDatagram_sameSet (sock : Socket) (i : Nat) (bytes : Bytes) :
    Ensures (Next.LoopsWith (SameSet s)) (handleDatagram args turn s sock i bytes) := by
  unfold handleDatagram
  refine .bind fun candidate _ => ?_
  dsimp only
  generalize (if turn.answered = true then ErrorCode.success else ErrorCode.network) = err
  split
  · split
    · exact .ok ⟨rfl, rfl, rfl, rfl⟩
    · exact .ok trivial
  split
  · refine .bind fun _ _ => .bind fun _ _ => ?_
    split
    · exact .ok trivial
    refine .bind fun responses _ => ?_
    split
    · refine .bind fun _ _ => ?_
      split
      · exact .ok trivial
      · exact .ok ⟨rfl, rfl, rfl, rfl⟩
    · exact .ok ⟨rfl, rfl, rfl, rfl⟩
  split
  · split
    · exact .ok ⟨rfl, rfl, rfl, rfl⟩
    · exact .ok trivial
  refine .bind fun responses _ => .bind fun requestId _ => ?_
  split
  · exact .ok ⟨rfl, rfl, rfl, rfl⟩
  refine .bind fun _ _ => .bind fun _ _ => .bind fun _ _ => ?_
  split
  · split
    · exact .ok trivial
    · exact .ok trivial
  · refine .bind fun _ _ => ?_
    split
    · exact .ok ⟨rfl, rfl, rfl, rfl⟩
    · exact .ok ⟨rfl, rfl, rfl, rfl⟩

theorem addCandidate_sameSet {i : Nat} {datagram : Datagram} {address : Vector UInt8 inet6Addrstrlen} :
    Ensures (SameSet s) (addCandidate s i datagram address) := by
  unfold addCandidate
  refine .bind fun _ _ => .bind fun _ _ => .bind fun _ _ => .bind fun _ _ => .bind fun _ _ => ?_
  exact .ok ⟨rfl, rfl, rfl, rfl⟩

theorem identifySender_sameSet (sock : Socket) (datagram : Datagram) (address : Vector UInt8 inet6Addrstrlen) :
    Ensures (Next.LoopsWith (SameSet s)) (identifySender args turn s sock datagram address) := by
  unfold identifySender
  refine .bind fun found _ => ?_
  cases found with
  | some i => exact handleDatagram_sameSet sock i datagram.bytes
  | none =>
      dsimp only
      split
      · exact .ok ⟨rfl, rfl, rfl, rfl⟩
      · refine .bind fun added add => ?_
        exact (addCandidate_sameSet added add).then (handleDatagram_sameSet sock _ datagram.bytes)

theorem receiveResponse_sameSet : Ensures (Next.LoopsWith (SameSet s)) (receiveResponse args turn s) := by
  unfold receiveResponse
  cases candidateSock s with
  | none => exact .ok trivial
  | some sock =>
      dsimp only
      split
      · exact .ok trivial
      cases turn.received with
      | none => exact .ok ⟨rfl, rfl, rfl, rfl⟩
      | some datagram =>
          dsimp only
          split
          · exact .ok ⟨rfl, rfl, rfl, rfl⟩
          · exact .ok ⟨rfl, rfl, rfl, rfl⟩
          · refine SameSet.then ?_ (identifySender_sameSet sock datagram _)
            exact ⟨rfl, rfl, rfl, rfl⟩

theorem resend_plain (plain : args.stunRandomAllocation = false) (fds : List Socket) (i : Nat) :
    Ensures (· = fds) (resend args turn s fds i) := by
  unfold resend
  refine .bind fun addr _ => ?_
  split
  · exact .ok rfl
  · dsimp only
    generalize (if addr.family = AddressFamily.inet then s.ipv4Sock else s.ipv6Sock) = sock
    split
    · exact .ok rfl
    refine .bind fun candidate _ => .bind fun _ _ => .bind fun _ _ => ?_
    have direct : throughExtra args candidate = false := by simp [throughExtra, plain]
    rw [direct]
    split
    · exact .ok rfl
    · exact .ok rfl

theorem resends_plain (plain : args.stunRandomAllocation = false) (fds : List Socket) (rounds : List Nat) :
    Ensures (· = fds) (rounds.foldlM (resend args turn s) fds) := by
  refine Ensures.foldlM rfl fun i _ before unchanged => ?_
  subst unchanged
  exact resend_plain plain before i

/-- The set behind a round. -/
def nextSet (s : Check) (turn : Turn) : List Socket :=
  match turn.select with
  | .ready isReady =>
      if (∀ sock ∈ watched s, isReady sock = false) ∧ s.retryCounter < selectCandidateTries ∧
          s.receivedResponse = false then
        fdSetValid s.ipv6Sock (fdSetValid s.ipv4Sock [])
      else (watched s).filter isReady
  | _ => s.fds

/-- What a round does to the sockets. -/
structure Leaves (s : Check) (turn : Turn) (s' : Check) : Prop where
  ipv4Sock : s'.ipv4Sock = s.ipv4Sock
  ipv6Sock : s'.ipv6Sock = s.ipv6Sock
  maxfd : s'.maxfd = s.maxfd
  fds : s'.fds = nextSet s turn

theorem takeTurn_leaves (plain : args.stunRandomAllocation = false) :
    Ensures (Next.LoopsWith (Leaves s turn)) (takeTurn args s turn) := by
  unfold takeTurn
  cases select : turn.select with
  | failed => exact .ok trivial
  | interrupted =>
      intro next received
      have same := receiveResponse_sameSet next received
      cases next with
      | loop s' => exact ⟨same.ipv4Sock, same.ipv6Sock, same.maxfd, by rw [same.fds, nextSet, select]⟩
      | cleanup s' => trivial
      | done s' => trivial
  | ready isReady =>
      dsimp only
      split
      · rename_i empty
        have none_ : ∀ sock ∈ watched s, isReady sock = false := by simpa using empty
        unfold selectTimeout
        split
        · split
          · rename_i retry
            refine .bind fun fds resent => .ok ⟨rfl, rfl, rfl, ?_⟩
            have same : fds = fdSetValid s.ipv6Sock (fdSetValid s.ipv4Sock []) := by
              exact resends_plain plain _ _ fds resent
            rw [nextSet, select]
            exact same.trans (if_pos ⟨none_, retry.1, by simpa using retry.2⟩).symm
          split
          · rename_i retry _
            refine .ok ⟨rfl, rfl, rfl, ?_⟩
            rw [nextSet, select]
            refine (if_neg fun again => retry ⟨again.2.1, ?_⟩).symm
            rw [again.2.2]
            rfl
          · exact .ok trivial
        · exact .ok trivial
      · rename_i nonempty
        intro next received
        have same := receiveResponse_sameSet next received
        cases next with
        | loop s' =>
            refine ⟨same.ipv4Sock, same.ipv6Sock, same.maxfd, ?_⟩
            rw [same.fds, nextSet, select]
            refine (if_neg fun again => nonempty ?_).symm
            simpa using again.1
        | cleanup s' => trivial
        | done s' => trivial

/-! ## Without random allocation -/

/-- The sockets at the head of the loop. -/
structure LoopHead (args : CheckArgs) (s : Check) : Prop where
  ipv4Sock : s.ipv4Sock = args.ipv4Sock
  ipv6Sock : s.ipv6Sock = args.ipv6Sock
  below : ∀ sock, MainSocket args sock → sock < s.maxfd
  main : ∀ sock ∈ s.fds, MainSocket args sock

theorem LoopHead.watched_eq (head : LoopHead args s) : watched s = s.fds := by
  apply List.filter_eq_self.mpr
  intro sock found
  exact decide_eq_true (head.below sock (head.main sock found))

theorem LoopHead.next (head : LoopHead args s) (leaves : Leaves s turn s') : LoopHead args s' := by
  refine ⟨leaves.ipv4Sock.trans head.ipv4Sock, leaves.ipv6Sock.trans head.ipv6Sock, ?_, fun sock found => ?_⟩
  · rw [leaves.maxfd]
    exact head.below
  · rw [leaves.fds, nextSet, head.ipv4Sock, head.ipv6Sock, head.watched_eq] at found
    split at found
    · split at found
      · exact mem_mainSet.mp found
      · exact head.main sock (List.mem_of_mem_filter found)
    · exact head.main sock found

theorem LoopHead.right_iff (head : LoopHead args s) (plain : args.stunRandomAllocation = false) (setup : CheckSetup) :
    SetRight args setup s ↔ ∀ sock, MainSocket args sock → sock ∈ s.fds := by
  have main : ∀ sock, ValidSocket args setup sock ↔ MainSocket args sock := by
    intro sock
    simp [ValidSocket, plain]
  constructor
  · intro right sock valid
    have found := (right.all sock).mpr ((main sock).mpr valid)
    rw [head.watched_eq] at found
    exact found
  · intro every
    refine ⟨fun sock => ?_, fun sock found => (head.main sock found).1⟩
    rw [head.watched_eq, main]
    exact ⟨head.main sock, every sock⟩

theorem LoopHead.receives (head : LoopHead args s) : Receives s turn := by
  intro isReady _ readable
  obtain ⟨sock, found, ready⟩ := readable
  have within : ∀ sock, sock ∈ (watched s).filter isReady → isReady sock = true := fun sock =>
    List.of_mem_filter
  have among : sock ∈ (watched s).filter isReady := List.mem_filter.mpr ⟨found, ready⟩
  rw [head.watched_eq] at found
  obtain ⟨valid, main⟩ := head.main sock found
  by_cases first : s.ipv4Sock.isInvalid = false ∧ s.ipv4Sock ∈ (watched s).filter isReady
  · refine ⟨s.ipv4Sock, ?_, within _ first.2⟩
    simp [candidateSock, first.1, first.2]
  · cases main with
    | inl same =>
        rw [← head.ipv4Sock] at same
        subst same
        exact absurd ⟨valid, among⟩ first
    | inr same =>
        rw [← head.ipv6Sock] at same
        subst same
        refine ⟨s.ipv6Sock, ?_, ready⟩
        rw [candidateSock, if_neg (by simpa using first), if_pos ⟨by simpa using valid, among⟩]

theorem LoopHead.keepsSet_iff (head : LoopHead args s) (every : ∀ sock, MainSocket args sock → sock ∈ s.fds)
    (leaves : Leaves s turn s') : (∀ sock, MainSocket args sock → sock ∈ s'.fds) ↔ turn.KeepsSet s := by
  rw [leaves.fds, nextSet, Turn.KeepsSet, head.ipv4Sock, head.ipv6Sock, head.watched_eq]
  cases turn.select with
  | failed => exact iff_true_intro every
  | interrupted => exact iff_true_intro every
  | ready isReady =>
      dsimp only
      split
      · rename_i again
        exact iff_of_true (fun sock main => mem_mainSet.mpr main) (.inr again)
      · rename_i left
        constructor
        · intro kept
          refine .inl fun sock found => ?_
          exact List.of_mem_filter (kept sock (head.main sock found))
        · intro keeps sock main
          cases keeps with
          | inl ready => exact List.mem_filter.mpr ⟨every sock main, ready sock (every sock main)⟩
          | inr again => exact absurd again left

theorem LoopHead.watches_iff (head : LoopHead args s) (plain : args.stunRandomAllocation = false) {setup : CheckSetup}
    (right : SetRight args setup s) (turns : List Turn) : Watches args setup s turns ↔ KeepsSet args s turns := by
  induction turns generalizing s with
  | nil => exact iff_of_true right trivial
  | cons turn turns ih =>
      have step : ∀ s', takeTurn args s turn = .ok (.loop s') →
          (Watches args setup s' turns ↔ turn.KeepsSet s ∧ KeepsSet args s' turns) := by
        intro s' taken
        have leaves : Leaves s turn s' := takeTurn_leaves plain _ taken
        have head' := head.next leaves
        have kept := head.keepsSet_iff ((head.right_iff plain setup).mp right) leaves
        rw [← head'.right_iff plain setup] at kept
        constructor
        · intro watches
          have right' := watches.head
          exact ⟨kept.mp right', (ih head' right').mp watches⟩
        · intro keeps
          exact (ih head' (kept.mpr keeps.1)).mpr keeps.2
      constructor
      · intro watches s' taken
        exact (step s' taken).mp (watches.2.2 s' taken)
      · intro keeps
        exact ⟨right, head.receives, fun s' taken => (step s' taken).mpr (keeps s' taken)⟩

end Rounds

/-! ## Before the loop -/

theorem extraSocket_isInvalid (setup : ExtraSetup) : (extraSocket setup).isInvalid = true := by
  unfold extraSocket
  cases valid : setup.socket.isInvalid with
  | true =>
      simp only [closeValid, valid, Bool.not_true, Bool.false_eq_true, if_false, if_true]
      repeat' split
      all_goals first | rfl | exact valid
  | false => rfl

/-- The state before each round of the first loop over the candidates. -/
structure Opened (args : CheckArgs) (s : Check) : Prop where
  ipv4Sock : s.ipv4Sock = args.ipv4Sock
  ipv6Sock : s.ipv6Sock = args.ipv6Sock
  fds : s.fds = fdSetValid args.ipv6Sock (fdSetValid args.ipv4Sock [])
  socks : s.socks ≠ []
  closed : args.stunRandomAllocation = true → ∀ sock ∈ s.socks, sock.isInvalid = true

section Start
variable {args : CheckArgs} {setup : CheckSetup} {s : Check}

theorem opened_init (args : CheckArgs) (setup : CheckSetup) : Opened args (initCheck args setup) := by
  refine ⟨rfl, rfl, rfl, ?_, fun random sock found => ?_⟩
  · intro empty
    have size : (initCheck args setup).socks.length = randomAllocationSocksNumber := by
      simp only [initCheck]
      split
      · rw [List.length_map, List.length_range]
      · exact Vector.length_toList
    rw [empty] at size
    cases size
  · simp only [initCheck, if_pos random, List.mem_map] at found
    obtain ⟨i, -, rfl⟩ := found
    exact extraSocket_isInvalid (setup.extra i)

/-- A socket that does not take a request is closed, and the others stay as they are. -/
theorem mem_sendExtra {sent : Nat → Bool} {socks : List Socket} {sock : Socket}
    (found : sock ∈ sendExtra sent socks) : sock = invalidSocket ∨ sock ∈ socks := by
  obtain ⟨⟨before, j⟩, among, same⟩ := List.mem_map.mp found
  dsimp only at same
  split at same
  · exact .inl same.symm
  · subst same
    exact .inr (List.fst_mem_of_mem_zipIdx among)

theorem Opened.round (opened : Opened args s) (failed : Bool) (i : Nat) :
    Ensures (fun after => Opened args after.1) (setupCandidate args setup (s, failed) i) := by
  obtain ⟨ipv4Sock, ipv6Sock, fds, socks, closed⟩ := opened
  unfold setupCandidate
  refine .bind fun candidate _ => .bind fun responsesReceived _ => ?_
  dsimp only
  split
  · exact .ok ⟨ipv4Sock, ipv6Sock, fds, socks, closed⟩
  refine .bind fun addrs _ => .bind fun lens _ => .bind fun _ _ => ?_
  split
  · split
    · exact .ok ⟨ipv4Sock, ipv6Sock, fds, socks, closed⟩
    split
    · refine .ok ⟨ipv4Sock, ipv6Sock, fds, ?_, fun random sock found => ?_⟩
      · simpa [sendExtra] using socks
      · cases mem_sendExtra found with
        | inl closedNow =>
            subst closedNow
            rfl
        | inr before => exact closed random sock before
    · exact .ok ⟨ipv4Sock, ipv6Sock, fds, socks, closed⟩
  · split
    · exact .ok ⟨ipv4Sock, ipv6Sock, fds, socks, closed⟩
    · exact .ok ⟨ipv4Sock, ipv6Sock, fds, socks, closed⟩
  · exact .ok ⟨ipv4Sock, ipv6Sock, fds, socks, closed⟩

theorem rounds_opened (args : CheckArgs) (setup : CheckSetup) :
    Ensures (fun after => Opened args after.1) ((List.range args.candidatesReceived.length).foldlM
      (setupCandidate args setup) (initCheck args setup, true)) :=
  Ensures.foldlM (opened_init args setup) fun i _ before opened => Opened.round opened before.2 i

theorem startChecks_opened (started : startChecks args setup = .ok (.loop s)) :
    ∃ opened : Check, Opened args opened ∧ s = prepareSelect args opened := by
  obtain ⟨⟨opened, failed⟩, rounds, ends⟩ := bind_eq_ok started
  have keeps : Opened args opened := rounds_opened args setup _ rounds
  cases failed with
  | true => cases ends
  | false =>
      cases ends
      exact ⟨opened, keeps, rfl⟩

/-- With random allocation a socket that is not valid is put into the set. -/
theorem Opened.invalid (opened : Opened args s) (random : args.stunRandomAllocation = true) :
    ∃ sock ∈ (prepareSelect args s).fds, sock.isInvalid = true := by
  obtain ⟨sock, found⟩ := List.exists_mem_of_ne_nil s.socks opened.socks
  refine ⟨sock, ?_, opened.closed random sock found⟩
  simp only [prepareSelect, if_pos random]
  exact mem_foldl_fdSet (.inl found)

theorem Opened.head (opened : Opened args s) (plain : args.stunRandomAllocation = false) :
    LoopHead args (prepareSelect args s) ∧ ∀ sock, MainSocket args sock → sock ∈ (prepareSelect args s).fds := by
  have fds : (prepareSelect args s).fds = fdSetValid args.ipv6Sock (fdSetValid args.ipv4Sock []) := by
    simp only [prepareSelect, plain]
    exact opened.fds
  rw [fds]
  refine ⟨⟨?_, ?_, fun sock main => ?_, fun sock found => ?_⟩, fun sock main => mem_mainSet.mpr main⟩
  · simp only [prepareSelect, plain]
    exact opened.ipv4Sock
  · simp only [prepareSelect, plain]
    exact opened.ipv6Sock
  · obtain ⟨valid, main⟩ := main
    rw [Socket.isInvalid, decide_eq_false_iff_not] at valid
    simp only [prepareSelect, plain, opened.ipv4Sock, opened.ipv6Sock, Socket.isInvalid, Bool.false_eq_true, if_false]
    cases main with
    | inl same =>
        subst same
        rw [decide_eq_false valid]
        simp only [Bool.not_false, if_true]
        split
        · rename_i higher
          exact Int.lt_add_one_of_le (le_of_lt higher)
        · exact Int.lt_succ args.ipv4Sock
    | inr same =>
        subst same
        generalize (if (!decide (args.ipv4Sock < 0)) = true then args.ipv4Sock else -1) = highest
        split
        · exact Int.lt_succ args.ipv6Sock
        · rename_i higher
          exact Int.lt_add_one_of_le (not_lt.mp higher)
  · rw [fds] at found
    exact mem_mainSet.mp found

end Start

/-- Every `select` watches the sockets of the function, and one that is readable is received from, exactly when there
is no random allocation and every `select` that another one follows keeps the set. -/
theorem watchesEverySocket_iff (args : CheckArgs) (setup : CheckSetup) (turns : List Turn) :
    WatchesEverySocket args setup turns ↔ ∀ s, startChecks args setup = .ok (.loop s) →
      args.stunRandomAllocation = false ∧ KeepsSet args s turns := by
  apply forall_congr'
  intro s
  apply imp_congr_right
  intro started
  obtain ⟨opened, ready, rfl⟩ := startChecks_opened started
  cases random : args.stunRandomAllocation with
  | true =>
      obtain ⟨sock, found, invalid⟩ := ready.invalid random
      refine iff_of_false (fun watches => ?_) (fun keeps => Bool.noConfusion keeps.1)
      have valid := watches.head.valid sock found
      rw [invalid] at valid
      cases valid
  | false =>
      obtain ⟨head, every⟩ := ready.head random
      have right := (head.right_iff random setup).mpr every
      rw [head.watches_iff random right turns]
      exact (and_iff_right rfl).symm

/-- A console with two main sockets, and a request of it that comes in on the first one. -/
def request : Bytes := [0x06, 0, 0, 0] ++ List.replicate 84 0

def consoleAddr : Vector UInt8 inet6Addrstrlen :=
  ⟨#[0x31, 0x30, 0x2e, 0x30, 0x2e, 0x30, 0x2e, 0x32] ++ Array.replicate 38 0, rfl⟩

def console : Candidate := ⟨.static, consoleAddr, Vector.replicate 46 0, 9303, 0⟩

def consoleSockAddr : SockAddr := ⟨.inet, [0x24, 0x57, 10, 0, 0, 2] ++ List.replicate 8 0⟩

def twoSockets : CheckArgs where
  requests := {
    ids := [Vector.replicate 5 1, Vector.replicate 5 2, Vector.replicate 5 3]
    bufs := List.replicate 3 ⟨request.toArray, rfl⟩
    ids_three := rfl
    bufs_three := rfl }
  stunRandomAllocation := false
  ipv4Sock := 3
  ipv6Sock := 4
  candidatesReceived := [console]

def reachable : CheckSetup where
  extra := fun _ => ⟨invalidSocket, false, false, false⟩
  uninitCandidates := Vector.replicate 3 console
  uninitSocks := Vector.replicate randomAllocationSocksNumber 0
  uninitAddr := fun _ => consoleSockAddr
  uninitLen := fun _ => 0
  uninitResponses := fun _ => 0
  candidate := fun _ => ⟨some (consoleSockAddr, 16), true, fun _ => true⟩

def requestOnFirst : Turn where
  select := .ready fun sock => sock == 3
  resent := fun _ => true
  ttl := true
  allocated := true
  received := some ⟨consoleSockAddr, 16, some consoleAddr, 9303, request⟩
  answered := true
  requested := true
  connected := true

/-- Behind a request on the first socket, the second one is no longer watched. -/
theorem not_watchesEverySocket : ¬ WatchesEverySocket twoSockets reachable [requestOnFirst] := by
  intro watches
  have first := watches _ rfl
  have second := first.2.2 _ rfl
  have found : (4 : Socket) ∈ watched _ := (second.all 4).mpr (.inl ⟨rfl, .inr rfl⟩)
  revert found
  decide

end Chiaki.Holepunch
