import ApmSdk.ArrayCopies
import ApmSdk.BufferViews
import ApmSdk.StoreLoops

namespace ApmSdk.FrameBuffers

/-!
# Frames in and out of an audio buffer

An `AudioBuffer` has three frame counts, of its input, its processing and its output.  A frame
is deinterleaved or downmixed into it and resampled, and after processing resampled again and
interleaved or upmixed into a frame.  Every channel buffer is one array with its channels one
after another.  A read or a write outside of an array has no value, and neither has a failed
check.
-/

open ArrayCopies StoreLoops
open BufferViews (SampleConversion)

/-! ## Channel buffers -/

/-- `ChannelBuffer` with one band. -/
structure Channels (Sample : Type) where
  numFrames : Nat
  numChannels : Nat
  data : List Sample
  size : data.length = numFrames * numChannels

namespace Channels

variable {Sample Other : Type}

/-- `ChannelBuffer(..)` -/
def create (zero : Sample) (numFrames numChannels : Nat) :
    Channels Sample where
  numFrames
  numChannels
  data := List.replicate (numFrames * numChannels) zero
  size := List.length_replicate

/-- `channels()[channel][j]`; there are no other channels. -/
def read (buffer : Channels Sample) (channel j : Nat) : Option Sample :=
  if channel < buffer.numChannels then
    buffer.data[channel * buffer.numFrames + j]?
  else none

/-- The buffer with other samples, if they are as many. -/
def withData
    (buffer : Channels Sample)
    (data : List Sample) : Option (Channels Sample) :=
  if size : data.length = buffer.numFrames * buffer.numChannels then
    some { buffer with data, size }
  else none

/-- The samples one by one. -/
def map (f : Sample → Other) (buffer : Channels Sample) :
    Channels Other where
  numFrames := buffer.numFrames
  numChannels := buffer.numChannels
  data := buffer.data.map f
  size := by rw [List.length_map, buffer.size]

end Channels

/-- `IFChannelBuffer` -/
structure IFChannels (conversion : SampleConversion) where
  ivalid : Bool
  ibuf : Channels Int16
  fvalid : Bool
  fbuf : Channels conversion.Value

namespace IFChannels

variable {conversion : SampleConversion}

/-- `IFChannelBuffer(..)` -/
def create (numFrames numChannels : Nat) : IFChannels conversion where
  ivalid := true
  ibuf := .create 0 numFrames numChannels
  fvalid := true
  fbuf := .create (conversion.toFloat 0) numFrames numChannels

/-- `RefreshF` -/
def refreshF (buffer : IFChannels conversion) : IFChannels conversion :=
  if buffer.fvalid then buffer
  else
    { buffer with fbuf := buffer.ibuf.map conversion.toFloat, fvalid := true }

/-- `RefreshI` -/
def refreshI (buffer : IFChannels conversion) : IFChannels conversion :=
  if buffer.ivalid then buffer
  else
    { buffer with
      ibuf := buffer.fbuf.map conversion.floatS16ToS16
      ivalid := true }

/-- `ibuf()`, through which the samples may be written. -/
def openI (buffer : IFChannels conversion) : IFChannels conversion :=
  { buffer.refreshI with fvalid := false }

/-- `fbuf()`, through which the samples may be written. -/
def openF (buffer : IFChannels conversion) : IFChannels conversion :=
  { buffer.refreshF with ivalid := false }

end IFChannels

/-! ## Loops over interleaved samples -/

/-- The indices of two nested loops. -/
def nested (outer inner : Nat) : List (Nat × Nat) :=
  List.product (List.range outer) (List.range inner)

/-- `Deinterleave` -/
def deinterleave
    (interleaved : List Int16)
    (samplesPerChannel numChannels : Nat)
    (deinterleaved : Channels Int16) : Option (Channels Int16) := do
  let data ←
    storeAll
      (fun (i, j) => i * deinterleaved.numFrames + j)
      (fun (i, j) => interleaved[i + j * numChannels]?)
      deinterleaved.data (nested numChannels samplesPerChannel)
  deinterleaved.withData data

/-- `DownmixInterleavedToMono` of a frame: the mean of its samples. -/
def downmixFrame
    (interleaved : List Int16)
    (numChannels frame : Nat) : Option Int16 := do
  let samples ← slice interleaved (frame * numChannels) numChannels
  let value :=
    samples.tail.foldl (fun value sample => int32 (value + sample.toInt))
      (samples.headD 0).toInt
  return Int16.ofInt (value.tdiv numChannels)

/-- `DownmixInterleavedToMono`, into the first channel. -/
def downmixInterleavedToMono
    (interleaved : List Int16)
    (numFrames numChannels : Nat)
    (deinterleaved : Channels Int16) : Option (Channels Int16) := do
  let data ←
    storeAll id (downmixFrame interleaved numChannels) deinterleaved.data
      (List.range numFrames)
  deinterleaved.withData data

/-- `Interleave` -/
def interleave
    (deinterleaved : Channels Int16)
    (samplesPerChannel numChannels : Nat)
    (interleaved : List Int16) : Option (List Int16) :=
  storeAll (fun (i, j) => i + j * numChannels)
    (fun (i, j) => deinterleaved.read i j) interleaved
    (nested numChannels samplesPerChannel)

/-- `UpmixMonoToInterleaved` -/
def upmixMonoToInterleaved
    (mono : Channels Int16)
    (numFrames numChannels : Nat)
    (interleaved : List Int16) : Option (List Int16) :=
  storeAll (fun (i, j) => i * numChannels + j)
    (fun (i, _) => mono.read 0 i) interleaved
    (nested numFrames numChannels)

/-! ## Resampling -/

/-- What the sinc resampler does with the samples it is given; of the result only its length
is known. -/
structure SincResampler (Value : Type) where
  State : Type
  initial : State
  resample : State → List Value → (destinationFrames : Nat) → State × List Value
  length_resample :
    ∀ state source frames,
      (resample state source frames).2.length = frames

variable {conversion : SampleConversion}

/-- `PushSincResampler` -/
structure PushSincResampler (sinc : SincResampler conversion.Value) where
  requestFrames : Nat
  destinationFrames : Nat
  state : sinc.State

/-- `PushSincResampler::Resample` between a channel of two buffers. -/
def PushSincResampler.resample
    {sinc : SincResampler conversion.Value}
    (resampler : PushSincResampler sinc)
    (source : Channels conversion.Value)
    (sourceLength : Nat)
    (destination : Channels conversion.Value)
    (destinationCapacity channel : Nat) :
    Option (PushSincResampler sinc × Channels conversion.Value) :=
  if sourceLength ≠ resampler.requestFrames ∨
      destinationCapacity < resampler.destinationFrames ∨
      source.numChannels ≤ channel ∨
      destination.numChannels ≤ channel then
    none
  else do
    let samples ←
      slice source.data (channel * source.numFrames) sourceLength
    let (state, produced) :=
      sinc.resample resampler.state samples resampler.destinationFrames
    let data ←
      overwrite destination.data (channel * destination.numFrames) produced
    let destination ← destination.withData data
    return ({ resampler with state }, destination)

/-- The loop that resamples each channel with the resampler of its index. -/
def resampleAll
    {sinc : SincResampler conversion.Value}
    (resamplers : List (PushSincResampler sinc))
    (source : Channels conversion.Value)
    (sourceLength : Nat)
    (destination : Channels conversion.Value)
    (destinationCapacity numChannels : Nat) :
    Option (List (PushSincResampler sinc) × Channels conversion.Value) :=
  (List.range numChannels).foldlM
    (fun (resamplers, destination) i => do
      let resampler ← resamplers[i]?
      let (resampler, destination) ←
        resampler.resample source sourceLength destination
          destinationCapacity i
      return (resamplers.set i resampler, destination))
    (resamplers, destination)

/-! ## The audio buffer -/

/-- The counts that the constructor is given, with what it asserts of them. -/
structure Config where
  inputNumFrames : Nat
  numInputChannels : Nat
  procNumFrames : Nat
  numProcChannels : Nat
  outputNumFrames : Nat
  inputPositive : 0 < inputNumFrames
  procPositive : 0 < procNumFrames
  outputPositive : 0 < outputNumFrames
  inputChannels : 0 < numInputChannels
  procChannels :
    0 < numProcChannels ∧ numProcChannels ≤ numInputChannels

/-- `AudioBuffer`, as far as frames pass through it. -/
structure AudioBuffer (sinc : SincResampler conversion.Value) where
  config : Config
  numChannels : Nat
  data : IFChannels conversion
  inputBuffer : Option (IFChannels conversion)
  outputBuffer : Option (IFChannels conversion)
  inputResamplers : List (PushSincResampler sinc)
  outputResamplers : List (PushSincResampler sinc)

/-- `AudioFrame`, as far as its samples are concerned. -/
structure Frame where
  samplesPerChannel : Nat
  numChannels : Nat
  data : List Int16
deriving Repr, DecidableEq

/-- `assert`, which a build may leave out. -/
def assert (ndebug : Bool) (condition : Prop) [Decidable condition] :
    Option Unit :=
  if ndebug ∨ condition then some () else none

namespace AudioBuffer

variable {sinc : SincResampler conversion.Value}

/-- The resamplers of all channels between two frame counts, if these differ. -/
def newResamplers
    (sourceFrames destinationFrames numChannels : Nat) :
    List (PushSincResampler sinc) :=
  if sourceFrames ≠ destinationFrames then
    List.replicate numChannels
      ⟨sourceFrames, destinationFrames, sinc.initial⟩
  else []

/-- `AudioBuffer::AudioBuffer` -/
def create (config : Config) : AudioBuffer sinc where
  config
  numChannels := config.numProcChannels
  data := .create config.procNumFrames config.numProcChannels
  inputBuffer := none
  outputBuffer := none
  inputResamplers :=
    newResamplers config.inputNumFrames config.procNumFrames
      config.numProcChannels
  outputResamplers :=
    newResamplers config.procNumFrames config.outputNumFrames
      config.numProcChannels

variable (ndebug : Bool)
variable (audio : AudioBuffer sinc)

/-- What `DeinterleaveFrom` writes into the buffer that it has chosen. -/
def fill
    (frame : Frame)
    (deinterleaved : Channels Int16) : Option (Channels Int16) :=
  let config := audio.config
  if config.numProcChannels = 1 then
    downmixInterleavedToMono frame.data config.inputNumFrames
      config.numInputChannels deinterleaved
  else do
    assert ndebug (config.numProcChannels = config.numInputChannels)
    deinterleave frame.data config.inputNumFrames config.numProcChannels
      deinterleaved

/-- `AudioBuffer::DeinterleaveFrom` -/
def deinterleaveFrom (frame : Frame) : Option (AudioBuffer sinc) := do
  let config := audio.config
  assert ndebug (frame.numChannels = config.numInputChannels)
  assert ndebug (frame.samplesPerChannel = config.inputNumFrames)
  let audio := { audio with numChannels := config.numProcChannels }
  if config.inputNumFrames = config.procNumFrames then
    let data := audio.data.openI
    let ibuf ← audio.fill ndebug frame data.ibuf
    return { audio with data := { data with ibuf } }
  else
    let inputBuffer :=
      (audio.inputBuffer.getD
        (.create config.inputNumFrames config.numProcChannels)).openI
    let ibuf ← audio.fill ndebug frame inputBuffer.ibuf
    let inputBuffer := { inputBuffer with ibuf }.refreshF
    let data := audio.data.openF
    let (inputResamplers, fbuf) ←
      resampleAll audio.inputResamplers inputBuffer.fbuf
        config.inputNumFrames data.fbuf config.procNumFrames
        config.numProcChannels
    return { audio with
      inputBuffer := some inputBuffer
      data := { data with fbuf }
      inputResamplers }

/-- The part of `InterleaveTo` that resamples if necessary, with the samples behind
`data_ptr`. -/
def outputData : Option (AudioBuffer sinc × Channels Int16) := do
  let config := audio.config
  if config.procNumFrames ≠ config.outputNumFrames then
    let outputBuffer :=
      (audio.outputBuffer.getD
        (.create config.outputNumFrames audio.numChannels)).openF
    let data := audio.data.openF
    let (outputResamplers, fbuf) ←
      resampleAll audio.outputResamplers data.fbuf config.procNumFrames
        outputBuffer.fbuf config.outputNumFrames audio.numChannels
    let outputBuffer := { outputBuffer with fbuf }.openI
    let audio :=
      { audio with data, outputBuffer := some outputBuffer, outputResamplers }
    return (audio, outputBuffer.ibuf)
  else
    let data := audio.data.openI
    return ({ audio with data }, data.ibuf)

/-- `AudioBuffer::InterleaveTo` -/
def interleaveTo
    (frame : Frame)
    (dataChanged : Bool) : Option (AudioBuffer sinc × Frame) :=
  if dataChanged then do
    let config := audio.config
    assert ndebug
      (frame.numChannels = audio.numChannels ∨ audio.numChannels = 1)
    assert ndebug (frame.samplesPerChannel = config.outputNumFrames)
    let (audio, channels) ← audio.outputData
    let data ←
      if frame.numChannels = audio.numChannels then
        interleave channels config.procNumFrames audio.numChannels frame.data
      else
        upmixMonoToInterleaved channels config.procNumFrames
          frame.numChannels frame.data
    return (audio, { frame with data })
  else some (audio, frame)

end AudioBuffer

end ApmSdk.FrameBuffers
