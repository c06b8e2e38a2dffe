import ApmSdk.AudioBuffer
import ApmSdk.EarlyExit

namespace ApmSdk.AudioProcessing

/-!
# The components without handles

The high-pass filter, the noise suppressor, the level estimator and the voice
detector own their states directly and initialise them anew whenever they are
told to, so that none of their functions returns an error.  Creating a
suppressor or a detector aborts the process when there is no memory for it.
-/

/-- `HighPassFilterImpl::BiquadFilter` -/
structure BiquadFilter where
  ba : List Int
  x : Int16 × Int16
  y : Int16 × Int16 × Int16 × Int16
  deriving Repr, DecidableEq

namespace BiquadFilter

/-- `kFilterCoefficients8kHz` -/
def kFilterCoefficients8kHz : List Int :=
  [3798, -7596, 3798, 7807, -3733]

/-- `kFilterCoefficients` -/
def kFilterCoefficients : List Int :=
  [4012, -8024, 4012, 8002, -3913]

/-- The coefficients the constructor chooses. -/
def coefficientsFor (sampleRateHz : Int) : List Int :=
  if sampleRateHz = 8000 then
    kFilterCoefficients8kHz
  else
    kFilterCoefficients

/-- `BiquadFilter(..)` -/
def create (sampleRateHz : Int) : BiquadFilter where
  ba := coefficientsFor sampleRateHz
  x := (0, 0)
  y := (0, 0, 0, 0)

/-- `Reset` -/
def reset (filter : BiquadFilter) : BiquadFilter :=
  { filter with x := (0, 0), y := (0, 0, 0, 0) }

/-- `WEBRTC_SPL_SAT` -/
def saturate (upper value lower : Int) : Int :=
  if upper < value then upper else if value < lower then lower else value

/-- One turn of the loop in `Process`. -/
def processSample
    (filter : BiquadFilter)
    (sample : Int16) : BiquadFilter × Int16 :=
  let coefficient := fun index => filter.ba.getD index 0
  let (x0, x1) := filter.x
  let (y0, y1, y2, y3) := filter.y
  let low := y1.toInt * coefficient 3 + y3.toInt * coefficient 4
  let feedback :=
    (low >>> (15 : Nat)) + y0.toInt * coefficient 3 + y2.toInt * coefficient 4
  let sum :=
    feedback * 2 + sample.toInt * coefficient 0 +
      x0.toInt * coefficient 1 + x1.toInt * coefficient 2
  let high := Int16.ofInt (sum >>> (13 : Nat))
  let rest := Int16.ofInt ((sum - high.toInt * 2 ^ 13) * 4)
  let rounded := saturate 134217727 (sum + 2048) (-134217728)
  ({ filter with
      x := (sample, x0)
      y := (high, rest, y0, y1) },
    Int16.ofInt (rounded >>> (12 : Nat)))

/-- `Process` -/
def process
    (filter : BiquadFilter) :
    List Int16 → BiquadFilter × List Int16
  | [] => (filter, [])
  | sample :: rest =>
      let first := filter.processSample sample
      let later := process first.1 rest
      (later.1, first.2 :: later.2)

/-- Filtering does not exchange the coefficients. -/
theorem ba_process
    (filter : BiquadFilter)
    (data : List Int16) :
    (filter.process data).1.ba = filter.ba := by
  induction data generalizing filter with
  | nil =>
      rfl
  | cons sample rest inductionHypothesis =>
      exact inductionHypothesis (filter.processSample sample).1

end BiquadFilter

/-- `HighPassFilterImpl` -/
structure HighPassFilter where
  enabled : Bool
  filters : List BiquadFilter
  deriving Repr, DecidableEq

namespace HighPassFilter

variable {cores : Cores}

/-- `HighPassFilterImpl(..)` -/
def create : HighPassFilter where
  enabled := false
  filters := []

/-- `Initialize` -/
def initializeComponent
    (channels : Nat)
    (sampleRateHz : Int)
    (highPass : HighPassFilter) : HighPassFilter :=
  { highPass with
    filters := List.replicate channels (.create sampleRateHz) }

/-- One turn of the loop in `ProcessCaptureAudio`. -/
def processSlot
    (channel : Nat) : Stage (BiquadFilter × cores.Samples) Exit :=
  fun visit =>
    let ran := visit.1.process (cores.lowBand visit.2 channel)
    ((ran.1, cores.setLowBand visit.2 channel ran.2), none)

/-- `ProcessCaptureAudio` -/
def processCaptureAudio :
    Stage (HighPassFilter × AudioBuffer cores) Exit :=
  fun state =>
    let highPass := state.1
    let audio := state.2
    let count := highPass.filters.length
    if !highPass.enabled then
      (state, none)
    else if audio.numChannels < count ∨
        (cores.ndebug = false ∧ count ≠ audio.numChannels) then
      (state, some .abort)
    else
      let ran :=
        forSlots processSlot .abort 0 count
          (highPass.filters, audio.samples)
      (({ highPass with filters := ran.1.1 },
        { audio with samples := ran.1.2 }), ran.2)

/-- `Enable` -/
def enable
    (enable : Bool)
    (highPass : HighPassFilter) : HighPassFilter :=
  { enabled := enable
    filters :=
      if !highPass.enabled && enable then
        highPass.filters.map BiquadFilter.reset
      else
        highPass.filters }

end HighPassFilter

/-- `NoiseSuppression::Level` -/
inductive NoiseLevel where
  | kLow
  | kModerate
  | kHigh
  | kVeryHigh
  deriving Repr, DecidableEq

/-- `NoiseSuppressionImpl::Suppressor` with the rate it was initialised for. -/
structure Suppressor (cores : Cores) where
  state : cores.NsState
  sampleRateHz : Int

/-- `NoiseSuppressionImpl` -/
structure NoiseSuppression (cores : Cores) where
  enabled : Bool
  channels : Nat
  sampleRateHz : Int
  level : NoiseLevel
  suppressors : List (Suppressor cores)

namespace NoiseSuppression

variable {cores : Cores}

/-- `NoiseSuppressionImpl(..)` -/
def create : NoiseSuppression cores where
  enabled := false
  channels := 0
  sampleRateHz := 0
  level := .kModerate
  suppressors := []

/-- The policy that `set_level` maps a level to. -/
def policy : NoiseLevel → Nat
  | .kLow => 0
  | .kModerate => 1
  | .kHigh => 2
  | .kVeryHigh => 3

/-- `set_level` -/
def setLevel
    (level : NoiseLevel)
    (noise : NoiseSuppression cores) : NoiseSuppression cores :=
  { noise with
    level := level
    suppressors :=
      noise.suppressors.map
        (fun suppressor =>
          { suppressor with
            state := cores.nsSetPolicy suppressor.state (policy level) }) }

/-- `Initialize` -/
def initializeComponent
    (channels : Nat)
    (sampleRateHz : Int)
    (noise : NoiseSuppression cores) : NoiseSuppression cores :=
  setLevel noise.level
    { noise with
      channels := channels
      sampleRateHz := sampleRateHz
      suppressors :=
        if noise.enabled then
          List.replicate channels
            { state := cores.nsInit sampleRateHz
              sampleRateHz := sampleRateHz }
        else
          [] }

/-- One turn of the loop in `AnalyzeCaptureAudio`. -/
def analyzeSlot
    (channel : Nat) : Stage (Suppressor cores × cores.Samples) Exit :=
  fun visit =>
    (({ visit.1 with
        state := cores.nsAnalyze visit.1.state visit.2 channel },
      visit.2), none)

/-- One turn of the loop in `ProcessCaptureAudio`. -/
def processSlot
    (channel : Nat) : Stage (Suppressor cores × cores.Samples) Exit :=
  fun visit =>
    let ran := cores.nsProcess visit.1.state visit.2 channel
    (({ visit.1 with state := ran.1 }, ran.2), none)

/-- Both capture functions: a loop over the suppressors with one of the slots. -/
def captureLoop
    (slot : Nat → Stage (Suppressor cores × cores.Samples) Exit) :
    Stage (NoiseSuppression cores × AudioBuffer cores) Exit :=
  fun state =>
    let noise := state.1
    let audio := state.2
    let count := noise.suppressors.length
    if !noise.enabled then
      (state, none)
    else if audio.numChannels < count ∨
        (cores.ndebug = false ∧ count ≠ audio.numChannels) then
      (state, some .abort)
    else
      let ran :=
        forSlots slot .abort 0 count (noise.suppressors, audio.samples)
      (({ noise with suppressors := ran.1.1 },
        { audio with samples := ran.1.2 }), ran.2)

/--
`AnalyzeCaptureAudio`, which a fixed-point build leaves empty: there `nsAnalyze`
returns its state as it is.
-/
def analyzeCaptureAudio :
    Stage (NoiseSuppression cores × AudioBuffer cores) Exit :=
  captureLoop analyzeSlot

/-- `ProcessCaptureAudio` -/
def processCaptureAudio :
    Stage (NoiseSuppression cores × AudioBuffer cores) Exit :=
  captureLoop processSlot

/-- `Enable` -/
def enable
    (enable : Bool)
    (noise : NoiseSuppression cores) : NoiseSuppression cores :=
  if noise.enabled ≠ enable then
    initializeComponent noise.channels noise.sampleRateHz
      { noise with enabled := enable }
  else
    noise

end NoiseSuppression

/-- `LevelEstimatorImpl` -/
structure LevelEstimator (cores : Cores) where
  enabled : Bool
  rms : cores.RmsLevel

namespace LevelEstimator

variable {cores : Cores}

/-- `LevelEstimatorImpl(..)` -/
def create : LevelEstimator cores where
  enabled := false
  rms := cores.rmsReset

/-- `Initialize` -/
def initializeComponent
    (estimator : LevelEstimator cores) : LevelEstimator cores :=
  { estimator with rms := cores.rmsReset }

/-- `ProcessStream` -/
def processStream
    (audio : AudioBuffer cores)
    (estimator : LevelEstimator cores) : LevelEstimator cores :=
  if !estimator.enabled then
    estimator
  else
    { estimator with
      rms :=
        (List.range audio.numChannels).foldl
          (fun rms channel =>
            cores.rmsProcess rms (cores.channelData audio.samples channel))
          estimator.rms }

/-- `Enable` -/
def enable
    (enable : Bool)
    (estimator : LevelEstimator cores) : LevelEstimator cores :=
  { enabled := enable
    rms :=
      if enable && !estimator.enabled then
        cores.rmsReset
      else
        estimator.rms }

end LevelEstimator

/-- `VoiceDetection::Likelihood` -/
inductive Likelihood where
  | kVeryLowLikelihood
  | kLowLikelihood
  | kModerateLikelihood
  | kHighLikelihood
  deriving Repr, DecidableEq

/-- `VoiceDetectionImpl`, whose frame size is always 10 ms. -/
structure VoiceDetection (cores : Cores) where
  enabled : Bool
  usingExternalVad : Bool
  sampleRateHz : Int
  frameSizeSamples : Nat
  streamHasVoice : Bool
  likelihood : Likelihood
  vad : Option cores.VadInst

namespace VoiceDetection

variable {cores : Cores}

/-- `VoiceDetectionImpl(..)` -/
def create : VoiceDetection cores where
  enabled := false
  usingExternalVad := false
  sampleRateHz := 0
  frameSizeSamples := 0
  streamHasVoice := false
  likelihood := .kLowLikelihood
  vad := none

/-- The mode that `set_likelihood` maps a likelihood to. -/
def mode : Likelihood → Nat
  | .kVeryLowLikelihood => 3
  | .kLowLikelihood => 2
  | .kModerateLikelihood => 1
  | .kHighLikelihood => 0

/-- `set_likelihood` -/
def setLikelihood
    (likelihood : Likelihood)
    (voice : VoiceDetection cores) : VoiceDetection cores :=
  { voice with
    likelihood := likelihood
    vad :=
      if voice.enabled then
        voice.vad.map (fun vad => cores.vadSetMode vad (mode likelihood))
      else
        voice.vad }

/-- `Initialize` -/
def initializeComponent
    (sampleRateHz : Int)
    (voice : VoiceDetection cores) : VoiceDetection cores :=
  setLikelihood voice.likelihood
    { voice with
      sampleRateHz := sampleRateHz
      vad := if voice.enabled then some cores.vadInit else none
      usingExternalVad := false
      frameSizeSamples := calculateFrames sampleRateHz }

/-- `ProcessCaptureAudio` -/
def processCaptureAudio :
    Stage (VoiceDetection cores × AudioBuffer cores) Exit :=
  fun state =>
    let voice := state.1
    let audio := state.2
    if !voice.enabled then
      (state, none)
    else if voice.usingExternalVad then
      (({ voice with usingExternalVad := false }, audio), none)
    else
      match voice.vad with
      | none => (state, some .abort)
      | some vad =>
          let ran :=
            cores.vadProcess vad voice.sampleRateHz
              ((cores.mixedLowPassData audio.samples).take
                voice.frameSizeSamples)
          (({ voice with
              vad := some ran.1
              streamHasVoice := ran.2 },
            { audio with
              activity :=
                if ran.2 then .kVadActive else .kVadPassive }), none)

/-- `Enable` -/
def enable
    (enable : Bool)
    (voice : VoiceDetection cores) : VoiceDetection cores :=
  if voice.enabled ≠ enable then
    initializeComponent voice.sampleRateHz
      { voice with enabled := enable }
  else
    voice

/-- `set_stream_has_voice` -/
def setStreamHasVoice
    (hasVoice : Bool)
    (voice : VoiceDetection cores) : VoiceDetection cores :=
  { voice with
    usingExternalVad := true
    streamHasVoice := hasVoice }

end VoiceDetection

end ApmSdk.AudioProcessing
