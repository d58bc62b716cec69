import Chiaki.Lib.Runs
import Chiaki.StreamConnection.Protocol

/-!
# What a stream connection never does

No callback follows a pointer that is not there or leaves a buffer, whatever the other threads do. What can fail is
the assertion that there is no secret yet: a second bang may come before the running thread has dealt with the first.
-/

namespace Chiaki
open Machine

/-- The message is a bang that agrees to everything and has a key and a signature. -/
def StreamConnectionLib.Agrees (lib : StreamConnectionLib) (buf : Bytes) : Prop :=
  ∃ msg ecdhPubKey ecdhSig bang, lib.decodeBang buf = some (msg, ecdhPubKey, ecdhSig) ∧ msg.type = .bang ∧
    msg.bangPayload = some bang ∧ bang.versionAccepted = true ∧ bang.encryptedKeyAccepted = true ∧
    ecdhPubKey.length ≠ 0 ∧ ecdhSig.length ≠ 0

namespace StreamConnection
open StreamHistory

/-- Another bang comes while the connection still expects one and has a secret. -/
def Repeated (lib : StreamConnectionLib) (s : StreamConnection) (op : StreamConnectionOp) : Prop :=
  s.takionThread = .receiving ∧ s.state = .expectBang ∧ s.ecdhSecret.isSome = true ∧
    ∃ buf o, op = .data .protobuf buf o ∧ lib.Agrees buf

variable {lib : StreamConnectionLib} {s : StreamConnection} {h : StreamHistory} {o : CallbackOutcome} {buf : Bytes}

theorem pbDecodeResolution_length {alloc realloc : Nat → Bool} {ctx ctx' : Nat × List VideoProfile}
    {resolution : ResolutionPayload} (small : ctx.2.length ≤ videoProfilesMax)
    (done : pbDecodeResolution alloc realloc ctx resolution = some ctx') : ctx'.2.length ≤ videoProfilesMax := by
  unfold pbDecodeResolution at done
  split at done
  · cases done
    exact small
  · split at done
    · cases done
    · split at done
      · cases done
        exact small
      · split at done
        case isTrue =>
          cases done
          exact small
        case isFalse room =>
          cases done
          simp only [List.length_append, List.length_singleton]
          omega

theorem pbDecodeResolutions_length {alloc realloc : Nat → Bool} {ctx ctx' : Nat × List VideoProfile}
    {resolutions : List ResolutionPayload} (small : ctx.2.length ≤ videoProfilesMax)
    (done : resolutions.foldlM (pbDecodeResolution alloc realloc) ctx = some ctx') :
    ctx'.2.length ≤ videoProfilesMax := by
  induction resolutions generalizing ctx with
  | nil =>
      cases done
      exact small
  | cons resolution resolutions ih =>
      rw [List.foldlM_cons] at done
      obtain ⟨middle, first, rest⟩ := Option.bind_eq_some_iff.mp done
      exact ih (pbDecodeResolution_length small first) rest

theorem decodeStreaminfo_length {msg : StreamMessage} {audioHeader : Bytes} {profiles : List VideoProfile}
    (done : lib.decodeStreaminfo o buf = some (msg, audioHeader, profiles)) : profiles.length ≤ videoProfilesMax := by
  unfold StreamConnectionLib.decodeStreaminfo at done
  obtain ⟨msg', -, done⟩ := Option.bind_eq_some_iff.mp done
  obtain ⟨header', -, done⟩ := Option.bind_eq_some_iff.mp done
  obtain ⟨profiles', decoded, done⟩ := Option.bind_eq_some_iff.mp done
  cases done
  exact pbDecodeResolutions_length (Nat.zero_le _) decoded

theorem AudioHeader.load_ok (size : buf.length = audioHeaderSize) : ∃ header, AudioHeader.load buf = .ok header := by
  have first : 0 < buf.length := by simp [size, audioHeaderSize]
  have second : 1 < buf.length := by simp [size, audioHeaderSize]
  have whole : ¬ buf.length < audioHeaderSize := by omega
  rw [AudioHeader.load, List.getElem?_eq_getElem first, List.getElem?_eq_getElem second, inBounds_some, inBounds_some,
    ok_bind, ok_bind, if_neg whole]
  exact ⟨_, rfl⟩

theorem takionDataIdle_ok (fits : s.Coherent h) (receiving : s.takionThread = .receiving) :
    ∃ r, s.takionDataIdle lib o buf = .ok r := by
  obtain ⟨known, video⟩ := Option.isSome_iff_exists.mp (fits.alive (.inr receiving)).2.2.2
  unfold takionDataIdle
  split
  · exact ⟨_, rfl⟩
  · split
    · exact ⟨_, rfl⟩
    · exact ⟨(s, []), by rw [video]; rfl⟩
    · exact ⟨_, rfl⟩

theorem takionDataExpectStreaminfo_ok (fits : s.Coherent h) (receiving : s.takionThread = .receiving) :
    ∃ r, s.takionDataExpectStreaminfo lib o buf = .ok r := by
  obtain ⟨-, audio, -, video⟩ := fits.alive (.inr receiving)
  obtain ⟨known, video⟩ := Option.isSome_iff_exists.mp video
  obtain ⟨_, audio⟩ := Option.isSome_iff_exists.mp audio
  unfold takionDataExpectStreaminfo
  split
  case h_1 => exact ⟨_, rfl⟩
  case h_2 msg audioHeader profiles decoded =>
    split
    · split <;> exact ⟨_, rfl⟩
    · split
      · exact ⟨_, rfl⟩
      case isFalse size =>
        obtain ⟨header, loaded⟩ := AudioHeader.load_ok (not_not.mp size)
        have few : ¬ profiles.length > videoProfilesMax := Nat.not_lt.mpr (decodeStreaminfo_length decoded)
        rw [loaded, ok_bind, audio, deref_some, ok_bind, videoReceiverStreamInfo, video, deref_some, ok_bind]
        split
        · exact ⟨_, rfl⟩
        · exact ⟨_, rfl⟩

theorem takionDataExpectBang_ok_or : (∃ r, s.takionDataExpectBang lib o buf = .ok r) ∨
    (s.takionDataExpectBang lib o buf = .error .assertion ∧ s.ecdhSecret.isSome = true ∧ lib.Agrees buf) := by
  unfold takionDataExpectBang
  split
  case h_1 => exact .inl ⟨_, rfl⟩
  case h_2 msg ecdhPubKey ecdhSig decoded =>
    split
    case h_1 => split <;> exact .inl ⟨_, rfl⟩
    case h_2 bang payload =>
      obtain ⟨type, there⟩ : msg.type = .bang ∧ msg.bangPayload = some bang := by simpa using payload
      split
      · exact .inl ⟨_, rfl⟩
      case isFalse version =>
        split
        · exact .inl ⟨_, rfl⟩
        case isFalse accepted =>
          split
          · exact .inl ⟨_, rfl⟩
          case isFalse key =>
            split
            · exact .inl ⟨_, rfl⟩
            case isFalse sig =>
              cases secret : s.ecdhSecret with
              | some secret =>
                  refine .inr ⟨rfl, rfl, msg, ecdhPubKey, ecdhSig, bang, decoded, type, there, ?_, ?_, key, sig⟩
                  · simpa using version
                  · simpa using accepted
              | none =>
                  refine .inl ?_
                  rw [Option.isNone_none, assert_true, ok_bind]
                  split
                  · exact ⟨_, rfl⟩
                  · split <;> exact ⟨_, rfl⟩

theorem takionDataExpectBang_error (secret : s.ecdhSecret.isSome = true) (agrees : lib.Agrees buf) :
    s.takionDataExpectBang lib o buf = .error .assertion := by
  obtain ⟨msg, ecdhPubKey, ecdhSig, bang, decoded, type, there, version, accepted, key, sig⟩ := agrees
  obtain ⟨known, secret⟩ := Option.isSome_iff_exists.mp secret
  unfold takionDataExpectBang
  rw [decoded]
  dsimp only
  rw [if_pos type, there]
  dsimp only
  rw [version, accepted, if_neg (by simp), if_neg (by simp), if_neg key, if_neg sig, secret]
  rfl

theorem takionDataRumble_ok : ∃ r, s.takionDataRumble buf = .ok r := by
  unfold takionDataRumble
  split
  · exact ⟨_, rfl⟩
  case isFalse size =>
    have first : 0 < buf.length := by omega
    have second : 1 < buf.length := by omega
    have third : 2 < buf.length := by omega
    simp [first, second, third, ok_bind, pure, Except.pure]

theorem takionDataTriggerEffects_ok : ∃ r, s.takionDataTriggerEffects buf = .ok r := by
  unfold takionDataTriggerEffects
  split
  · exact ⟨_, rfl⟩
  case isFalse size =>
    have second : 1 < buf.length := by omega
    have third : 2 < buf.length := by omega
    have left : ¬ (((buf.drop 5).take 10).length < 10 ∨ ((buf.drop 15).take 10).length < 10) := by
      simp only [List.length_take, List.length_drop]
      omega
    rw [List.getElem?_eq_getElem second, List.getElem?_eq_getElem third, inBounds_some, inBounds_some, ok_bind, ok_bind,
      if_neg left]
    exact ⟨_, rfl⟩

theorem takionAv_ok {isVideo isHaptics : Bool} (fits : s.Coherent h) (receiving : s.takionThread = .receiving)
    (keyed : s.takionCrypt.isSome = true) : ∃ r, s.takionAv isVideo isHaptics = .ok r := by
  obtain ⟨-, audio, haptics, video⟩ := fits.alive (.inr receiving)
  obtain ⟨key, remote⟩ := Option.isSome_iff_exists.mp (fits.keys keyed).2
  obtain ⟨_, audio⟩ := Option.isSome_iff_exists.mp audio
  obtain ⟨_, haptics⟩ := Option.isSome_iff_exists.mp haptics
  obtain ⟨known, video⟩ := Option.isSome_iff_exists.mp video
  unfold takionAv
  rw [remote, deref_some, ok_bind, audio, haptics, video]
  cases isVideo <;> cases isHaptics <;> exact ⟨_, rfl⟩

/-- A step fails only where a bang is repeated, and there it does. -/
theorem step_error_iff {op : StreamConnectionOp} {e : Fault} (fits : s.Consistent h) :
    step lib s op = .error e ↔ e = .assertion ∧ Repeated lib s op := by
  have fine {r : Result} (ok : step lib s op = .ok r) (unrepeated : ¬ Repeated lib s op) :
      step lib s op = .error e ↔ e = .assertion ∧ Repeated lib s op := by simp [ok, unrepeated]
  have other (data : ∀ buf o, op ≠ .data .protobuf buf o) : ¬ Repeated lib s op := by
    rintro ⟨-, -, -, buf, o, same, -⟩
    exact data buf o same
  cases op with
  | run o => exact fine rfl (other (by simp))
  | wake timeout o => exact fine rfl (other (by simp))
  | takionConnected =>
      by_cases begun : s.takionThread = .handshake <;> exact fine (by simp only [step, begun]; rfl) (other (by simp))
  | takionDisconnect =>
      by_cases begun : s.takionThread = .handshake ∨ s.takionThread = .receiving <;>
        exact fine (by simp only [step, begun]; rfl) (other (by simp))
  | data type buf o =>
      by_cases receiving : s.takionThread = .receiving
      case neg =>
        have idle : step lib s (.data type buf o) = .ok (s, []) := by
          simp only [step, stepData, if_neg receiving]
          rfl
        exact fine idle fun repeated => receiving repeated.1
      case pos =>
        cases type with
        | protobuf =>
            have same : step lib s (.data .protobuf buf o) = s.takionDataProtobuf lib o buf := by
              simp only [step, stepData, if_pos receiving]
            cases state : s.state with
            | expectBang =>
                simp only [takionDataProtobuf, state] at same
                rcases @takionDataExpectBang_ok_or lib s o buf with ⟨r, ok⟩ | ⟨failed, secret, agrees⟩
                · refine fine (same.trans ok) ?_
                  rintro ⟨-, -, secret, buf', o', data, agrees⟩
                  cases data
                  exact absurd (ok.symm.trans (takionDataExpectBang_error secret agrees)) (by simp)
                · have repeated : Repeated lib s (.data .protobuf buf o) :=
                    ⟨receiving, state, secret, buf, o, rfl, agrees⟩
                  rw [same, failed]
                  simp [repeated, eq_comm]
            | expectStreaminfo =>
                simp only [takionDataProtobuf, state] at same
                obtain ⟨r, ok⟩ := @takionDataExpectStreaminfo_ok lib s h o buf fits.toCoherent receiving
                exact fine (same.trans ok) fun repeated => by cases state.symm.trans repeated.2.1
            | _ =>
                simp only [takionDataProtobuf, state] at same
                obtain ⟨r, ok⟩ := @takionDataIdle_ok lib s h o buf fits.toCoherent receiving
                exact fine (same.trans ok) fun repeated => by cases state.symm.trans repeated.2.1
        | rumble =>
            obtain ⟨r, ok⟩ := @takionDataRumble_ok s buf
            exact fine (by simp only [step, stepData, if_pos receiving]; exact ok) (other (by simp))
        | triggerEffects =>
            obtain ⟨r, ok⟩ := @takionDataTriggerEffects_ok s buf
            exact fine (by simp only [step, stepData, if_pos receiving]; exact ok) (other (by simp))
        | other => exact fine (by simp only [step, stepData, if_pos receiving]; rfl) (other (by simp))
  | av isVideo isHaptics =>
      by_cases ready : s.takionThread = .receiving ∧ s.takionCrypt.isSome
      · obtain ⟨r, ok⟩ := @takionAv_ok s h isVideo isHaptics fits.toCoherent ready.1 ready.2
        exact fine (by simp only [step, if_pos ready]; exact ok) (other (by simp))
      · exact fine (by simp only [step, if_neg ready]; rfl) (other (by simp))
  | stop =>
      cases held : s.stateMutexHeld <;> exact fine (by simp only [step, held]; rfl) (other (by simp))
  | stopSignal =>
      by_cases none_ : s.stopping = 0 <;> exact fine (by simp only [step, none_]; rfl) (other (by simp))
  | setControllerState state =>
      cases active : s.feedbackSenderActive with
      | false => exact fine (by simp only [step, active]; rfl) (other (by simp))
      | true =>
          have done : step lib s (.setControllerState state) =
              .ok ({ s with controllerState := state, feedbackSender := some state }, []) := by
            simp only [step, active, if_true, fits.feedback active, deref_some, ok_bind]
            rfl
          exact fine done (other (by simp))

/-- A run fails exactly where a bang is repeated. -/
theorem run_error_iff_repeated (lib : StreamConnectionLib) (controllerState : ControllerState)
    (ops : List StreamConnectionOp) (e : Fault) :
    run (step lib) (init controllerState) ops = .error e ↔
      e = .assertion ∧ ∃ before op after s outs, ops = before ++ op :: after ∧
        run (step lib) (init controllerState) before = .ok (s, outs) ∧ Repeated lib s op := by
  rw [run_error_iff]
  constructor
  · rintro ⟨before, op, after, s, outs, split, done, failed⟩
    obtain ⟨assertion, repeated⟩ := (step_error_iff (run_keeps done).2).mp failed
    exact ⟨assertion, before, op, after, s, outs, split, done, repeated⟩
  · rintro ⟨assertion, before, op, after, s, outs, split, done, repeated⟩
    exact ⟨before, op, after, s, outs, split, done, (step_error_iff (run_keeps done).2).mpr ⟨assertion, repeated⟩⟩

example : run (step sampleLib) (init .idle) [.run sampleCalls, .takionConnected, .wake false sampleCalls,
    .data .protobuf [1] sampleCallback, .data .protobuf [1] sampleCallback] = .error .assertion := rfl

end StreamConnection
end Chiaki
