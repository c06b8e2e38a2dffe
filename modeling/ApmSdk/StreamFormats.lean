import Mathlib.Algebra.Order.Ring.Int
import Mathlib.Data.List.Basic
import Mathlib.Tactic.Common

namespace ApmSdk.AudioProcessing

/-!
# Stream formats and the formats the module processes in

`ProcessingConfig` is what the callers say about their four streams.
`InitializeLocked(config)` accepts or refuses it and chooses the native rates at
which the capture and the render side are processed.
-/

/-- The fatal errors and the warning of `AudioProcessing::Error`, less `kNoError`. -/
inductive Error where
  | kUnspecifiedError
  | kCreationFailedError
  | kUnsupportedComponentError
  | kUnsupportedFunctionError
  | kNullPointerError
  | kBadParameterError
  | kBadSampleRateError
  | kBadDataLengthError
  | kBadNumberChannelsError
  | kFileError
  | kStreamParameterNotSetError
  | kNotEnabledError
  | kBadStreamParameterWarning
  deriving Repr, DecidableEq

/-- The value of the enumerator. -/
def Error.value : Error → Int
  | kUnspecifiedError => -1
  | kCreationFailedError => -2
  | kUnsupportedComponentError => -3
  | kUnsupportedFunctionError => -4
  | kNullPointerError => -5
  | kBadParameterError => -6
  | kBadSampleRateError => -7
  | kBadDataLengthError => -8
  | kBadNumberChannelsError => -9
  | kFileError => -10
  | kStreamParameterNotSetError => -11
  | kNotEnabledError => -12
  | kBadStreamParameterWarning => -13

/-- No error is `kNoError`. -/
theorem Error.value_ne_zero (code : Error) : code.value ≠ 0 := by
  cases code <;> decide

/--
How a call ends early: with an error code, or without returning at all, because
an assertion fails or a null or out-of-range pointer is followed.
-/
inductive Exit where
  | error (code : Error)
  | abort
  deriving Repr, DecidableEq

/-- `AudioProcessing::NativeRate` -/
inductive NativeRate where
  | kSampleRate8kHz
  | kSampleRate16kHz
  | kSampleRate32kHz
  | kSampleRate48kHz
  deriving Repr, DecidableEq

namespace NativeRate

/-- The value of the enumerator. -/
def hz : NativeRate → Int
  | kSampleRate8kHz => 8000
  | kSampleRate16kHz => 16000
  | kSampleRate32kHz => 32000
  | kSampleRate48kHz => 48000

/-- `kNativeSampleRatesHz` -/
def kNativeSampleRatesHz : List NativeRate :=
  [kSampleRate8kHz, kSampleRate16kHz, kSampleRate32kHz, kSampleRate48kHz]

/-- The two rates at which the audio is split into bands. -/
def isSplit (rate : NativeRate) : Bool :=
  rate == kSampleRate32kHz || rate == kSampleRate48kHz

/-- The rate of the lowest band, stored as `split_rate`. -/
def splitRate (rate : NativeRate) : NativeRate :=
  if rate.isSplit then kSampleRate16kHz else rate

end NativeRate

/-- `StreamConfig` -/
structure StreamConfig where
  sampleRateHz : Int
  numChannels : Nat
  hasKeyboard : Bool
  deriving Repr, DecidableEq

/-- `kChunkSizeMs` -/
def kChunkSizeMs : Int :=
  10

/--
`calculate_frames`: the quotient is truncated and converted to `size_t`.  The
product is taken without overflow, which the source leaves undefined.
-/
def calculateFrames (sampleRateHz : Int) : Nat :=
  ((kChunkSizeMs * sampleRateHz).tdiv 1000 % 2 ^ 64).toNat

/-- `StreamConfig::num_frames` -/
def StreamConfig.numFrames (stream : StreamConfig) : Nat :=
  calculateFrames stream.sampleRateHz

/-- `ProcessingConfig` -/
structure ProcessingConfig where
  inputStream : StreamConfig
  outputStream : StreamConfig
  reverseInputStream : StreamConfig
  reverseOutputStream : StreamConfig
  deriving Repr, DecidableEq

namespace ProcessingConfig

/-- `streams` -/
def streams (config : ProcessingConfig) : List StreamConfig :=
  [config.inputStream, config.outputStream,
    config.reverseInputStream, config.reverseOutputStream]

/-- The checks at the head of `InitializeLocked(config)`. -/
def refusal (config : ProcessingConfig) : Option Error :=
  let numInChannels := config.inputStream.numChannels
  let numOutChannels := config.outputStream.numChannels
  if config.streams.any
      (fun stream => 0 < stream.numChannels && stream.sampleRateHz ≤ 0) then
    some .kBadSampleRateError
  else if numInChannels == 0 ||
      !(numOutChannels == 1 || numOutChannels == numInChannels) then
    some .kBadNumberChannelsError
  else
    none

/-- `min_proc_rate` -/
def minProcRate (config : ProcessingConfig) : Int :=
  min config.inputStream.sampleRateHz config.outputStream.sampleRateHz

/-- Four streams of one rate and one channel count, none with a keyboard. -/
def uniform (sampleRateHz : Int) (numChannels : Nat) : ProcessingConfig :=
  let stream : StreamConfig := ⟨sampleRateHz, numChannels, false⟩
  ⟨stream, stream, stream, stream⟩

end ProcessingConfig

/--
`formats_` together with the rates in `capture_nonlocked_`.  Only the rate of
`fwd_proc_format` and of `rev_proc_format` is chosen, the channel count of the
second is always one.
-/
structure StreamFormats where
  apiFormat : ProcessingConfig
  fwdProcRate : NativeRate
  revProcRate : NativeRate
  accepted : apiFormat.refusal = none
  deriving Repr, DecidableEq

namespace StreamFormats

/-- `ApmFormatState()` and the initial `fwd_proc_format`. -/
def initial : StreamFormats where
  apiFormat := .uniform 16000 1
  fwdProcRate := .kSampleRate16kHz
  revProcRate := .kSampleRate16kHz
  accepted := by decide

/-- `split_rate` -/
def splitRate (formats : StreamFormats) : NativeRate :=
  formats.fwdProcRate.splitRate

/-- `fwd_proc_format.num_frames()` -/
def fwdProcFrames (formats : StreamFormats) : Nat :=
  calculateFrames formats.fwdProcRate.hz

/-- `rev_proc_format.num_frames()` -/
def revProcFrames (formats : StreamFormats) : Nat :=
  calculateFrames formats.revProcRate.hz

/-- `num_output_channels` -/
def numOutputChannels (formats : StreamFormats) : Nat :=
  formats.apiFormat.outputStream.numChannels

/-- `num_proc_channels`, without a beamformer. -/
def numProcChannels (formats : StreamFormats) : Nat :=
  formats.numOutputChannels

/-- `num_reverse_channels` -/
def numReverseChannels (_ : StreamFormats) : Nat :=
  1

/--
The forward rate: the closest native rate that is not below `minProcRate`,
unless the mobile echo canceller is enabled and cannot work at it.
-/
def chooseFwdProcRate
    (minProcRate : Int)
    (aecmEnabled : Bool) : NativeRate :=
  let closest :=
    (NativeRate.kNativeSampleRatesHz.find?
      (fun rate => minProcRate ≤ rate.hz)).getD .kSampleRate48kHz
  if aecmEnabled && NativeRate.kSampleRate16kHz.hz < minProcRate then
    .kSampleRate16kHz
  else
    closest

/-- The reverse rate that goes with a forward rate. -/
def chooseRevProcRate
    (fwdProcRate : NativeRate)
    (reverseInput : StreamConfig) : NativeRate :=
  if fwdProcRate = .kSampleRate8kHz then
    .kSampleRate8kHz
  else if reverseInput.sampleRateHz = NativeRate.kSampleRate32kHz.hz then
    .kSampleRate32kHz
  else
    .kSampleRate16kHz

/-- The formats that `InitializeLocked(config)` stores for an accepted `config`. -/
def choose
    (config : ProcessingConfig)
    (accepted : config.refusal = none)
    (aecmEnabled : Bool) : StreamFormats :=
  let fwdProcRate := chooseFwdProcRate config.minProcRate aecmEnabled
  { apiFormat := config
    fwdProcRate := fwdProcRate
    revProcRate :=
      chooseRevProcRate fwdProcRate config.reverseInputStream
    accepted := accepted }

/-- The mobile echo canceller is never given a forward rate above 16 kHz. -/
theorem chooseFwdProcRate_le_of_aecm (minProcRate : Int) :
    (chooseFwdProcRate minProcRate true).hz ≤ 16000 := by
  by_cases above : 16000 < minProcRate
  · simp [chooseFwdProcRate, NativeRate.hz, above]
  · have wide : minProcRate ≤ 16000 := Int.not_lt.mp above
    by_cases narrow : minProcRate ≤ 8000
    · simp [chooseFwdProcRate, NativeRate.kNativeSampleRatesHz,
        NativeRate.hz, above, narrow]
    · simp [chooseFwdProcRate, NativeRate.kNativeSampleRatesHz,
        NativeRate.hz, above, narrow, wide]

/-- The channel counts that pass the checks. -/
theorem channels_of_accepted
    {config : ProcessingConfig}
    (accepted : config.refusal = none) :
    0 < config.inputStream.numChannels ∧
      (config.outputStream.numChannels = 1 ∨
        config.outputStream.numChannels =
          config.inputStream.numChannels) := by
  simp only [ProcessingConfig.refusal] at accepted
  split at accepted
  · simp at accepted
  · split at accepted
    · simp at accepted
    · next _ channels =>
        simp only [Bool.or_eq_true, beq_iff_eq, Bool.not_eq_eq_eq_not,
          Bool.not_true, Bool.or_eq_false_iff, not_or, not_and,
          beq_eq_false_iff_ne, ne_eq, Decidable.not_not] at channels
        refine ⟨Nat.pos_of_ne_zero channels.1, ?_⟩
        by_cases mono : config.outputStream.numChannels = 1
        · exact .inl mono
        · exact .inr (channels.2 mono)

/-- An accepted format has an output channel. -/
theorem numOutputChannels_pos (formats : StreamFormats) :
    0 < formats.numOutputChannels := by
  obtain ⟨input, output⟩ := channels_of_accepted formats.accepted
  unfold numOutputChannels
  rcases output with mono | same
  · rw [mono]
    exact Nat.one_pos
  · rw [same]
    exact input

end StreamFormats

end ApmSdk.AudioProcessing
