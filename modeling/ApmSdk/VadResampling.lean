import ApmSdk.FixedFrames
import ApmSdk.NarrowbandResampler

namespace ApmSdk.Vad

open Resample48khz

/-!
# The narrow-band signal of a 48 kHz stream

`WebRtcVad_CalcVad48khz` resamples a frame of 10, 20 or 30 ms in calls for 10 ms each.  The
place it writes to moves on with the calls, while each of them is handed the start of the
frame.
-/

/-- `kFrameLen10ms48khz` -/
def kFrameLen10ms48khz : Nat :=
  480

/-- A frame with a length that `WebRtcVad_ValidRateAndFrameLength` accepts at 48 kHz. -/
structure Frame48khz where
  speechFrame : List Int
  valid : ∃ tens : Nat,
    (tens = 1 ∨ tens = 2 ∨ tens = 3) ∧
      speechFrame.length = tens * kFrameLen10ms48khz

/-- What a call of the resampler reads and writes. -/
structure ResamplerCall where
  read : List Int
  written : List Int
deriving Repr, DecidableEq

/-- The loop of `WebRtcVad_CalcVad48khz`. -/
def resampleFrame
    (speechFrame : List Int) :
    (remaining : Nat) →
      State48khzTo8khz →
      List ResamplerCall × State48khzTo8khz
  | 0, state => ([], state)
  | remaining + 1, state =>
      -- `speech_frame` is the same pointer in every pass
      let read := speechFrame.take kFrameLen10ms48khz
      let (written, next) := resample48khzTo8khz read state
      let (rest, last) := resampleFrame speechFrame remaining next
      (⟨read, written⟩ :: rest, last)

/-- `WebRtcVad_CalcVad48khz` up to the detection: the calls of the resampler and
`state_48_to_8` behind them. -/
def calcVad48khz
    (state : State48khzTo8khz)
    (speechFrame : List Int) : List ResamplerCall × State48khzTo8khz :=
  resampleFrame speechFrame (speechFrame.length / kFrameLen10ms48khz) state

/-- `speech_nb`, as the detector is handed it. -/
def speechNb (calls : List ResamplerCall) : List Int :=
  calls.flatMap ResamplerCall.written

/-- The calls for the frames of a stream. -/
def calcVadStream :
    State48khzTo8khz →
      List Frame48khz →
      List ResamplerCall × State48khzTo8khz
  | state, [] => ([], state)
  | state, frame :: rest =>
      let (calls, next) := calcVad48khz state frame.speechFrame
      let (later, last) := calcVadStream next rest
      (calls ++ later, last)

/-! ## The stream in parts of 10 ms -/

/-- The parts of 10 ms of a signal. -/
def tenMsParts (signal : List Int) : List (List Int) :=
  frames kFrameLen10ms48khz signal (signal.length / kFrameLen10ms48khz) 0

/-- The resampler, a part of 10 ms after the other. -/
def resampler : Transducer State48khzTo8khz (List Int) (List Int) where
  output state part := (resample48khzTo8khz part state).1
  next state part := (resample48khzTo8khz part state).2

/-- The downsampling of a whole stream by parts of 10 ms. -/
def downsampled (state : State48khzTo8khz) (signal : List Int) : List Int :=
  (resampler.outputs state (tenMsParts signal)).flatten

/-- The signal that is cut into frames. -/
def wholeStream (cut : List Frame48khz) : List Int :=
  cut.flatMap Frame48khz.speechFrame

/-- Every part of a stream is resampled once and in order, and what the detector is handed is
the downsampling of the stream, however it is cut. -/
structure ResamplesStream
    (state : State48khzTo8khz)
    (cut : List Frame48khz) : Prop where
  once :
    (calcVadStream state cut).1.map ResamplerCall.read =
      tenMsParts (wholeStream cut)
  narrowband :
    speechNb (calcVadStream state cut).1 = downsampled state (wholeStream cut)

/-- A frame is its first part again and again. -/
def Frame48khz.RepeatsFirstPart (frame : Frame48khz) : Prop :=
  frame.speechFrame =
    (List.replicate (frame.speechFrame.length / kFrameLen10ms48khz)
      (frame.speechFrame.take kFrameLen10ms48khz)).flatten

instance (frame : Frame48khz) : Decidable frame.RepeatsFirstPart :=
  inferInstanceAs (Decidable (_ = _))

/-! ## What the calls read and write -/

/-- The parts that the calls for a frame are handed. -/
def Frame48khz.handedParts (frame : Frame48khz) : List (List Int) :=
  List.replicate (frame.speechFrame.length / kFrameLen10ms48khz)
    (frame.speechFrame.take kFrameLen10ms48khz)

theorem resampleFrame_eq
    (speechFrame : List Int)
    (remaining : Nat)
    (state : State48khzTo8khz) :
    let handed :=
      List.replicate remaining (speechFrame.take kFrameLen10ms48khz)
    (resampleFrame speechFrame remaining state).1.map ResamplerCall.read = handed ∧
      (resampleFrame speechFrame remaining state).1.map ResamplerCall.written =
        resampler.outputs state handed ∧
      (resampleFrame speechFrame remaining state).2 =
        resampler.final state handed := by
  induction remaining generalizing state with
  | zero =>
      exact ⟨rfl, rfl, rfl⟩
  | succ remaining inductionHypothesis =>
      obtain ⟨read, written, last⟩ :=
        inductionHypothesis
          (resampler.next state (speechFrame.take kFrameLen10ms48khz))
      exact ⟨congrArg (List.cons _) read, congrArg (List.cons _) written, last⟩

/-- Over a stream the calls read what they are handed for each frame, and write what the
resampler makes of it. -/
theorem calcVadStream_eq
    (state : State48khzTo8khz)
    (cut : List Frame48khz) :
    let handed := cut.flatMap Frame48khz.handedParts
    (calcVadStream state cut).1.map ResamplerCall.read = handed ∧
      (calcVadStream state cut).1.map ResamplerCall.written =
        resampler.outputs state handed := by
  induction cut generalizing state with
  | nil =>
      exact ⟨rfl, rfl⟩
  | cons frame rest inductionHypothesis =>
      obtain ⟨read, written, last⟩ :=
        resampleFrame_eq frame.speechFrame
          (frame.speechFrame.length / kFrameLen10ms48khz) state
      obtain ⟨laterRead, laterWritten⟩ :=
        inductionHypothesis (calcVad48khz state frame.speechFrame).2
      constructor
      · rw [calcVadStream, List.map_append, laterRead]
        exact congrArg (· ++ _) read
      · rw [List.flatMap_cons, Transducer.outputs_append]
        rw [calcVadStream, List.map_append, laterWritten]
        have ends :
            (calcVad48khz state frame.speechFrame).2 =
              resampler.final state frame.handedParts :=
          last
        rw [ends]
        exact congrArg (· ++ _) written

/-- A call writes 80 samples. -/
theorem length_speechNb_resampleFrame
    (speechFrame : List Int)
    (remaining : Nat)
    (state : State48khzTo8khz) :
    (speechNb (resampleFrame speechFrame remaining state).1).length =
      remaining * 80 := by
  induction remaining generalizing state with
  | zero =>
      rfl
  | succ remaining inductionHypothesis =>
      rw [resampleFrame, speechNb, List.flatMap_cons, List.length_append,
        length_resample48khzTo8khz, Nat.succ_mul, Nat.add_comm]
      exact congrArg (· + 80) (inductionHypothesis _)

/-- What is written of `speech_nb` is what the detector is handed, and it fits. -/
theorem length_speechNb
    (state : State48khzTo8khz)
    (frame : Frame48khz) :
    (speechNb (calcVad48khz state frame.speechFrame).1).length =
        frame.speechFrame.length / 6 ∧
      frame.speechFrame.length / 6 ≤ 240 := by
  rw [calcVad48khz, length_speechNb_resampleFrame]
  obtain ⟨tens, isTens, isLength⟩ := frame.valid
  rw [isLength, kFrameLen10ms48khz, Nat.mul_div_cancel _ (by decide)]
  omega

/-! ## The parts of a frame and of the stream -/

theorem length_eq_div_mul (frame : Frame48khz) :
    frame.speechFrame.length =
      frame.speechFrame.length / kFrameLen10ms48khz * kFrameLen10ms48khz := by
  obtain ⟨tens, -, isLength⟩ := frame.valid
  rw [isLength, Nat.mul_div_cancel _ (by decide)]

/-- The parts of a frame are all of 10 ms. -/
theorem length_of_mem_tenMsParts
    (frame : Frame48khz) :
    ∀ part ∈ tenMsParts frame.speechFrame, part.length = kFrameLen10ms48khz := by
  intro part member
  refine length_of_mem_frames ?_ member
  rw [Nat.zero_add]
  exact Nat.div_mul_le_self _ _

theorem flatten_tenMsParts (frame : Frame48khz) :
    (tenMsParts frame.speechFrame).flatten = frame.speechFrame := by
  rw [tenMsParts, frames_flatten, Nat.zero_mul, List.drop_zero,
    ← length_eq_div_mul, List.take_length]

/-- Equally long parts are the parts of what they are cut from. -/
theorem tenMsParts_flatten
    {parts : List (List Int)}
    (partsSize : ∀ part ∈ parts, part.length = kFrameLen10ms48khz) :
    tenMsParts parts.flatten = parts := by
  have count : parts.flatten.length / kFrameLen10ms48khz = parts.length := by
    rw [length_flatten_of_forall partsSize, Nat.mul_div_cancel _ (by decide)]
  rw [tenMsParts, count, frames_of_flatten partsSize]

/-- The parts of a stream are those of its frames. -/
theorem tenMsParts_wholeStream (cut : List Frame48khz) :
    tenMsParts (wholeStream cut) =
      cut.flatMap fun frame => tenMsParts frame.speechFrame := by
  have whole :
      wholeStream cut =
        (cut.flatMap fun frame => tenMsParts frame.speechFrame).flatten := by
    induction cut with
    | nil =>
        rfl
    | cons frame rest inductionHypothesis =>
        rw [List.flatMap_cons, List.flatten_append, flatten_tenMsParts,
          ← inductionHypothesis]
        rfl
  rw [whole]
  refine tenMsParts_flatten fun part member => ?_
  obtain ⟨frame, -, inFrame⟩ := List.mem_flatMap.mp member
  exact length_of_mem_tenMsParts frame part inFrame

theorem length_of_mem_handedParts
    (frame : Frame48khz) :
    ∀ part ∈ frame.handedParts, part.length = kFrameLen10ms48khz := by
  intro part member
  obtain ⟨nonempty, rfl⟩ := List.mem_replicate.mp member
  have whole := length_eq_div_mul frame
  have enough : kFrameLen10ms48khz ≤ frame.speechFrame.length := by
    rw [whole]
    exact Nat.le_mul_of_pos_left _ (Nat.pos_of_ne_zero nonempty)
  rw [List.length_take, Nat.min_eq_left enough]

/-- The calls for a frame are handed its parts where it repeats its first one. -/
theorem handedParts_eq_iff (frame : Frame48khz) :
    frame.handedParts = tenMsParts frame.speechFrame ↔ frame.RepeatsFirstPart := by
  constructor
  · intro same
    have whole := flatten_tenMsParts frame
    rw [← same] at whole
    exact whole.symm
  · intro repeats
    have handed := tenMsParts_flatten (length_of_mem_handedParts frame)
    exact handed.symm.trans (congrArg tenMsParts repeats.symm)

theorem length_handedParts (frame : Frame48khz) :
    frame.handedParts.length = (tenMsParts frame.speechFrame).length := by
  have lengths := congrArg List.length (flatten_tenMsParts frame)
  rw [length_flatten_of_forall (length_of_mem_tenMsParts frame)] at lengths
  rw [Frame48khz.handedParts, List.length_replicate, ← lengths,
    Nat.mul_div_cancel _ (by decide)]

/-- What the detector is handed is the downsampling of the stream where each frame repeats its
first part, as one of 10 ms does. -/
theorem resamplesStream_iff
    (state : State48khzTo8khz)
    (cut : List Frame48khz) :
    ResamplesStream state cut ↔ ∀ frame ∈ cut, frame.RepeatsFirstPart := by
  obtain ⟨read, written⟩ := calcVadStream_eq state cut
  have parts :
      cut.flatMap Frame48khz.handedParts = tenMsParts (wholeStream cut) ↔
        ∀ frame ∈ cut, frame.RepeatsFirstPart := by
    rw [tenMsParts_wholeStream, flatMap_eq_iff length_handedParts]
    exact forall₂_congr fun frame _ => handedParts_eq_iff frame
  rw [← parts]
  constructor
  · exact fun resamples => read.symm.trans resamples.once
  · intro same
    refine ⟨read.trans same, ?_⟩
    rw [speechNb, List.flatMap_def, written, same, downsampled]

/-- A frame of 20 ms whose parts differ. -/
def silenceThenTone : Frame48khz where
  speechFrame := List.replicate 480 0 ++ List.replicate 480 1000
  valid := ⟨2, by decide, by
    rw [List.length_append, List.length_replicate, List.length_replicate]
    rfl⟩

/-- The second half of such a frame is never resampled. -/
theorem not_resamplesStream_silenceThenTone :
    ¬ ResamplesStream resetResample48khzTo8khz [silenceThenTone] ∧
      speechNb (calcVadStream resetResample48khzTo8khz [silenceThenTone]).1 ≠
        downsampled resetResample48khzTo8khz (wholeStream [silenceThenTone]) := by
  have differs :
      speechNb (calcVadStream resetResample48khzTo8khz [silenceThenTone]).1 ≠
        downsampled resetResample48khzTo8khz (wholeStream [silenceThenTone]) := by
    decide +kernel
  exact ⟨fun resamples => differs resamples.narrowband, differs⟩

end ApmSdk.Vad
