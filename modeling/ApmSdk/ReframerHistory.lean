import ApmSdk.LabelledPath
import ApmSdk.StreamReframer

namespace ApmSdk.StreamReframer

/-!
# Runs of the re-framer

A run is any sequence of `processStream` calls from null residuals.  The
history keeps what was passed in, so that a state says whether every sample
has been handed over or is still kept.
-/

/-- The two arrays of one call. -/
structure Call where
  srcShort : ShortArray
  bgmShort : ShortArray
  deriving Repr, DecidableEq

/-- The re-framer's fields with everything passed to it so far. -/
structure Reframing where
  session : Session
  passedSrc : List Short
  passedBGM : List Short
  thrown : Option JavaThrowable
  deriving Repr, DecidableEq

/-- Nothing has been passed before the first call. -/
def initialReframing : Reframing where
  session := initialSession
  passedSrc := []
  passedBGM := []
  thrown := none

/-- Make one call.  The first exception is kept. -/
def Reframing.afterCall
    (sampleRate : Nat)
    (reframing : Reframing)
    (call : Call) : Reframing :=
  let (session, thrown) :=
    processStream sampleRate call.srcShort call.bgmShort
      reframing.session
  { session
    passedSrc := reframing.passedSrc ++ call.srcShort.values
    passedBGM := reframing.passedBGM ++ call.bgmShort.values
    thrown := reframing.thrown.or thrown }

/-- The transition relation of a run. -/
def callStep
    (sampleRate : Nat)
    (source : Reframing)
    (call : Call)
    (target : Reframing) : Prop :=
  target = source.afterCall sampleRate call

/--
What the re-framer promises between calls: nothing was thrown, frames have the
frame length, and each stream is its frames followed by a residual shorter than
one frame.
-/
structure Framed
    (sampleRate : Nat)
    (reframing : Reframing) : Prop where
  noThrow : reframing.thrown = none
  nearFrameLength :
    ∀ frame ∈ reframing.session.nearFrames,
      frame.length = sampleRate / 100
  farFrameLength :
    ∀ frame ∈ reframing.session.farFrames,
      frame.length = sampleRate / 100
  nearConserved :
    reframing.session.nearFrames.flatten ++
        residual reframing.session.mRightSrcData =
      reframing.passedSrc
  farConserved :
    reframing.session.farFrames.flatten ++
        residual reframing.session.mRightBGMData =
      reframing.passedBGM
  nearResidualShort :
    (residual reframing.session.mRightSrcData).length <
      sampleRate / 100
  farResidualShort :
    (residual reframing.session.mRightBGMData).length <
      sampleRate / 100

/-- Near samples waiting at a call: the residual and the new array. -/
def nearWaiting
    (reframing : Reframing)
    (call : Call) : Nat :=
  (residual reframing.session.mRightSrcData).length +
    call.srcShort.values.length

/-- Far samples waiting at a call: the residual and the new array. -/
def farWaiting
    (reframing : Reframing)
    (call : Call) : Nat :=
  (residual reframing.session.mRightBGMData).length +
    call.bgmShort.values.length

/--
The calls the shared loop bound is right for: both streams have the same
number of whole frames waiting, and neither merged array overflows.
-/
structure Aligned
    (sampleRate : Nat)
    (reframing : Reframing)
    (call : Call) : Prop where
  positive : sampleRate / 100 ≠ 0
  nearFits : nearWaiting reframing call < 2 ^ 31
  farFits : farWaiting reframing call < 2 ^ 31
  sameFrameCount :
    nearWaiting reframing call / (sampleRate / 100) =
      farWaiting reframing call / (sampleRate / 100)

/-- Between calls a positive frame length makes the null residuals well framed. -/
theorem framed_initial
    {sampleRate : Nat}
    (positive : sampleRate / 100 ≠ 0) :
    Framed sampleRate initialReframing := by
  constructor <;>
    simp [initialReframing, initialSession, residual] <;>
    omega

/-- Taking whole frames off the front of a stream keeps its samples. -/
theorem conserved_append
    {sampleRate10ms : Nat}
    {delivered : List (List Short)}
    {kept passed new values rest : List Short}
    {count : Nat}
    (conserved : delivered.flatten ++ kept = passed)
    (merged : values = kept ++ new)
    (behind : rest = values.drop (count * sampleRate10ms)) :
    (delivered ++ frames sampleRate10ms values count 0).flatten ++
        rest =
      passed ++ new := by
  subst behind merged conserved
  rw [List.flatten_append, frames_flatten]
  simp [List.append_assoc]

/-- Cutting `length / frame` frames off leaves less than one frame. -/
theorem rest_lt_iff
    {length count frame : Nat}
    (positive : frame ≠ 0)
    (covered : count * frame ≤ length) :
    length - count * frame < frame ↔ length / frame = count := by
  have positive : 0 < frame := Nat.pos_of_ne_zero positive
  constructor
  · intro short
    apply Nat.div_eq_of_lt_le covered
    rw [Nat.succ_mul]
    omega
  · rintro rfl
    have split := Nat.div_add_mod' length frame
    have short := Nat.mod_lt length positive
    omega

/--
A call from a well framed state that finds enough far samples keeps every
clause of the promise but the bound on the far residual, which holds exactly
if both streams had the same number of frames.
-/
theorem framed_afterCall_of_le
    {sampleRate : Nat}
    {reframing : Reframing}
    {call : Call}
    {near far : ShortArray}
    (framed : Framed sampleRate reframing)
    (positive : sampleRate / 100 ≠ 0)
    (nearMerged :
      merge reframing.session.mRightSrcData call.srcShort = .ok near)
    (nearValues :
      near.values =
        residual reframing.session.mRightSrcData ++
          call.srcShort.values)
    (farMerged :
      merge reframing.session.mRightBGMData call.bgmShort = .ok far)
    (farValues :
      far.values =
        residual reframing.session.mRightBGMData ++
          call.bgmShort.values)
    (farCovered :
      near.values.length / (sampleRate / 100) * (sampleRate / 100) ≤
        far.values.length) :
    Framed sampleRate (reframing.afterCall sampleRate call) ↔
      nearWaiting reframing call / (sampleRate / 100) =
        farWaiting reframing call / (sampleRate / 100) := by
  have nearCovered :
      near.values.length / (sampleRate / 100) * (sampleRate / 100) ≤
        near.values.length :=
    Nat.div_mul_le_self ..
  have nearLength :
      near.values.length = nearWaiting reframing call := by
    simp [nearValues, nearWaiting]
  have farLength :
      far.values.length = farWaiting reframing call := by
    simp [farValues, farWaiting]
  obtain ⟨nearRest, farRest, called, nearKept, farKept⟩ :=
    processStream_of_le positive nearMerged farMerged farCovered
  have farRestShort := rest_lt_iff positive farCovered
  rw [← farLength, ← nearLength, eq_comm, ← farRestShort]
  constructor
  · intro after
    simpa [Reframing.afterCall, called, residual, farKept]
      using after.farResidualShort
  · intro farShort
    constructor
    · simp [Reframing.afterCall, called, framed.noThrow]
    · intro frame member
      simp only [Reframing.afterCall, called, List.mem_append]
        at member
      rcases member with earlier | new
      · exact framed.nearFrameLength frame earlier
      · exact length_of_mem_frames (by simpa using nearCovered) new
    · intro frame member
      simp only [Reframing.afterCall, called, List.mem_append]
        at member
      rcases member with earlier | new
      · exact framed.farFrameLength frame earlier
      · exact length_of_mem_frames (by simpa using farCovered) new
    · simp only [Reframing.afterCall, called]
      exact conserved_append framed.nearConserved nearValues nearKept
    · simp only [Reframing.afterCall, called]
      exact conserved_append framed.farConserved farValues farKept
    · simpa [Reframing.afterCall, called, residual, nearKept]
        using (rest_lt_iff positive nearCovered).mpr rfl
    · simpa [Reframing.afterCall, called, residual, farKept]
        using farShort

/-- From a well framed state, exactly the aligned calls stay well framed. -/
theorem framed_afterCall_iff
    {sampleRate : Nat}
    {reframing : Reframing}
    {call : Call}
    (framed : Framed sampleRate reframing) :
    Framed sampleRate (reframing.afterCall sampleRate call) ↔
      Aligned sampleRate reframing call := by
  constructor
  · intro after
    have returned :
        (processStream sampleRate call.srcShort call.bgmShort
          reframing.session).2 = none := by
      simpa [Reframing.afterCall, framed.noThrow] using after.noThrow
    obtain ⟨positive, near, far, nearMerged, farMerged, farCovered⟩ :=
      le_of_processStream returned
    obtain ⟨nearFits, nearValues⟩ := values_of_merge nearMerged
    obtain ⟨farFits, farValues⟩ := values_of_merge farMerged
    exact ⟨positive, nearFits, farFits,
      (framed_afterCall_of_le framed positive nearMerged nearValues
        farMerged farValues farCovered).mp after⟩
  · intro aligned
    obtain ⟨near, nearMerged, nearValues⟩ :=
      merge_of_lt aligned.nearFits
    obtain ⟨far, farMerged, farValues⟩ :=
      merge_of_lt aligned.farFits
    have farCovered :
        near.values.length / (sampleRate / 100) *
            (sampleRate / 100) ≤
          far.values.length := by
      have count := aligned.sameFrameCount
      simp only [nearWaiting, farWaiting] at count
      simp only [nearValues, farValues, List.length_append, count]
      exact Nat.div_mul_le_self ..
    exact (framed_afterCall_of_le framed aligned.positive nearMerged
      nearValues farMerged farValues farCovered).mpr
        aligned.sameFrameCount

/-- No state is well framed for a rate whose frames would be empty. -/
theorem Framed.positive
    {sampleRate : Nat}
    {reframing : Reframing}
    (framed : Framed sampleRate reframing) :
    sampleRate / 100 ≠ 0 :=
  Nat.ne_of_gt (Nat.zero_lt_of_lt framed.nearResidualShort)

/-- Every state of a run is well framed exactly if every call is aligned. -/
theorem run_framed_iff_aligned
    {sampleRate : Nat}
    {moves : List (Move Reframing Call)}
    {final : Reframing}
    (path : Path (callStep sampleRate) initialReframing moves final) :
    (∀ move ∈ moves, Framed sampleRate move.target) ↔
      ∀ move ∈ moves, Aligned sampleRate move.source move.label := by
  by_cases positive : sampleRate / 100 = 0
  · constructor
    · intro framed move member
      exact absurd positive (framed move member).positive
    · intro aligned move member
      exact absurd positive (aligned move member).positive
  · refine Path.forall_target_iff_forall_guard (Framed sampleRate)
      (Aligned sampleRate) ?_ (framed_initial positive) path
    intro source label target framed step
    rw [step]
    exact framed_afterCall_iff framed

/-- No samples fit into an array. -/
theorem none_fit : ([] : List Short).length < 2 ^ 31 := by
  decide

/-- One recorded frame while the decoder has delivered no samples. -/
def shortFarEnd : Call where
  srcShort := ⟨List.replicate 480 0, by
    rw [List.length_replicate]
    decide⟩
  bgmShort := ⟨[], none_fit⟩

/-- The run of that single call at 48 kHz. -/
def shortFarEndMove : Move Reframing Call where
  source := initialReframing
  label := shortFarEnd
  target := initialReframing.afterCall 48000 shortFarEnd

/-- The equivalence at that run. -/
theorem run_framed_iff_aligned_shortFarEnd :
    (∀ move ∈ [shortFarEndMove], Framed 48000 move.target) ↔
      ∀ move ∈ [shortFarEndMove],
        Aligned 48000 move.source move.label :=
  run_framed_iff_aligned (Path.single rfl)

/-- That call throws in the middle of its first frame, so the run is not framed. -/
theorem shortFarEnd_not_framed :
    Path (callStep 48000) initialReframing [shortFarEndMove]
        shortFarEndMove.target ∧
      shortFarEndMove.target.thrown = some .arrayIndexOutOfBounds ∧
      ¬ ∀ move ∈ [shortFarEndMove], Framed 48000 move.target := by
  have thrown :
      shortFarEndMove.target.thrown = some .arrayIndexOutOfBounds := by
    decide +kernel
  refine ⟨Path.single rfl, thrown, ?_⟩
  intro framed
  have noThrow := (framed shortFarEndMove (by simp)).noThrow
  simp [thrown] at noThrow

end ApmSdk.StreamReframer
