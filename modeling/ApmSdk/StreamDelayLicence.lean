import ApmSdk.FlagLicence
import ApmSdk.StreamDelayFlag

namespace ApmSdk.AudioProcessing

/-!
# The stream delay of every cancelled frame

Over any sequence of calls, each frame that goes through an echo canceller has a
`set_stream_delay_ms` call of its own, and the delay it is given is in range.
-/

variable {cores : Cores}

namespace AudioProcessingImpl

/-- A `set_stream_delay_ms` call. -/
def setsDelay
    (move : Move (AudioProcessingImpl cores) (CallRecord cores)) : Bool :=
  move.label.call.isSetStreamDelay

/-- A `ProcessStream` call that succeeded. -/
def processed
    (move : Move (AudioProcessingImpl cores) (CallRecord cores)) : Bool :=
  move.label.call.isProcessStream && move.label.status.isNone

/-- One that succeeded while either echo canceller was enabled. -/
def cancelled
    (move : Move (AudioProcessingImpl cores) (CallRecord cores)) : Bool :=
  processed move && move.source.cancels

/-- A call that returned without an error has completed. -/
theorem completed_of_processed
    {source target : AudioProcessingImpl cores}
    {record : CallRecord cores}
    (taken : apiStep source record target)
    (succeeds : processed ⟨source, record, target⟩ = true) :
    record.call.isProcessStream = true ∧
      (perform record.created record.call source).2 = none := by
  simp only [processed, Bool.and_eq_true, Option.isNone_iff_eq_none]
    at succeeds
  obtain ⟨processes, status⟩ := succeeds
  refine ⟨processes, ?_⟩
  rw [taken.returned, status]
  rfl

/-- `was_stream_delay_set` is the licence of the cancelled frames. -/
theorem delayLicence :
    LicenceRules (@apiStep cores) wasStreamDelaySet setsDelay processed
      cancelled where
  onlyGrantRaises := by
    intro source record target taken other raised
    have step := delayStep_perform record.created other source
    rw [taken.performed] at step
    refine ⟨step.flag raised, ?_⟩
    rw [← Bool.not_eq_true]
    intro succeeds
    obtain ⟨processes, completed⟩ := completed_of_processed taken succeeds
    have down := (flag_processStream processes completed).1
    rw [taken.performed, raised] at down
    cases down
  useIsLicensed := by
    intro source record target taken used
    obtain ⟨succeeds, cancelling⟩ := Bool.and_eq_true_iff.mp used
    obtain ⟨processes, completed⟩ := completed_of_processed taken succeeds
    exact (flag_processStream processes completed).2 cancelling
  useSpends := fun used => (Bool.and_eq_true_iff.mp used).1

/-- No call gives a canceller a delay that is out of range. -/
theorem delaysInRange_of_step
    {source target : AudioProcessingImpl cores}
    {record : CallRecord cores}
    (inRange : DelaysInRange source)
    (taken : apiStep source record target) :
    DelaysInRange target := by
  rw [← taken.performed]
  cases sets : record.call.isSetStreamDelay with
  | false =>
      exact (delayStep_perform record.created sets source).delays inRange
  | true =>
      obtain ⟨call, created, status⟩ := record
      cases call with
      | setStreamDelayMs delay => exact ⟨inRange.echo, inRange.mobile⟩
      | _ => cases sets

/-- A module that has just been created has no delay and has passed none. -/
theorem create_undelayed :
    (@create cores).wasStreamDelaySet = false ∧
      DelaysInRange (@create cores) := by
  have step := (sessionStep_initializeLocked .all (@construct cores)).delay
  refine ⟨?_, step.delays ⟨?_, ?_⟩⟩
  · rw [← Bool.not_eq_true]
    exact fun up => Bool.false_ne_true (step.flag up)
  · exact List.forall_mem_nil _
  · exact List.forall_mem_nil _

/--
Every `ProcessStream` call that succeeds with an echo canceller enabled has a
`set_stream_delay_ms` call before it, with no other successful `ProcessStream`
call between the two; one such call licenses at most one; and the delays that the
cancellers are given are in range.
-/
theorem run_cancelled_licensed
    {moves : Calls cores}
    {final : AudioProcessingImpl cores}
    (path : Path apiStep create moves final) :
    (∀ before use after,
        moves = before ++ use :: after → cancelled use = true →
          ∃ earlier grant later,
            before = earlier ++ grant :: later ∧ setsDelay grant = true ∧
              ∀ move ∈ later, processed move = false) ∧
      (∀ before between after,
        moves = before ++ (between ++ after) →
          (∀ move ∈ between, setsDelay move = false) →
            between.countP cancelled ≤ 1) ∧
      ∀ move ∈ moves, DelaysInRange move.target := by
  obtain ⟨down, inRange⟩ := @create_undelayed cores
  refine ⟨?licensed, ?once, ?range⟩
  case licensed =>
      rintro before use after rfl used
      exact delayLicence.exists_grant_of_use down path used
  case once =>
      rintro before between after rfl ungranted
      exact delayLicence.countP_use_le_one path ungranted
  case range =>
      intro move member
      have kept :=
        Path.invariant DelaysInRange delaysInRange_of_step inRange path
      exact (kept.1 move member).2

/-- Two frames are cancelled, each with a delay of its own. -/
theorem run_cancelled_licensed_twice :
    let frame : AudioFrame := .silent .kSampleRate16kHz 1
    let call := fun call : Call .passThrough =>
      (⟨call, .all, none⟩ : CallRecord .passThrough)
    let moves :=
      movesOf create
        [call (.enable .echoCancellation true),
          call (.setStreamDelayMs 50), call (.processStream (some frame)),
          call (.setStreamDelayMs 60), call (.processStream (some frame))]
    moves.countP cancelled = 2 ∧
      ∀ move ∈ moves, DelaysInRange move.target := by
  intro frame call moves
  refine ⟨by decide +kernel, ?_⟩
  exact
    (run_cancelled_licensed (path_movesOf (by decide +kernel))).2.2

end AudioProcessingImpl

end ApmSdk.AudioProcessing
