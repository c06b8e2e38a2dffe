import ApmSdk.CaptureErrors

namespace ApmSdk.AudioProcessing

/-!
# The wrapper that the application calls

`ApmProcessing` of `apm_processing.cpp` owns a module and two frames of one
format, and copies 10 ms of the caller's samples into one of them for each call.
-/

/-- `ApmProcessing`; what comes after the flag is in use while it is set. -/
structure ApmProcessing (cores : Cores) where
  isInit : Bool
  apm : AudioProcessingImpl cores
  frame : AudioFrame
  reverseFrame : AudioFrame

namespace ApmProcessing

variable {cores : Cores}

/-- `SetContainerFormat`, with `SetFrameSampleRate`. -/
def setContainerFormat
    (sampleRateHz : Int)
    (numChannels : Nat)
    (frame : AudioFrame) : AudioFrame :=
  { frame with
    sampleRateHz := sampleRateHz
    samplesPerChannel := calculateFrames sampleRateHz
    numChannels := numChannels }

/--
`Init`, which does not look at what `Initialize` returns.  A negative channel
count does not get past the allocation of `_float_cb`.
-/
def init (sampleRate : Int) (channels : Nat) : ApmProcessing cores :=
  let frame := setContainerFormat sampleRate channels .empty
  { isInit := true
    apm :=
      (AudioProcessingImpl.initializeLockedWith .all
        (.uniform sampleRate channels) .create).1
    frame := frame
    reverseFrame := frame }

/-- The formats for which the `Initialize` call in `Init` returns no error. -/
def Accepts (sampleRate : Int) (channels : Nat) : Prop :=
  (ProcessingConfig.uniform sampleRate channels).refusal = none

/--
The first `std::copy`: `samples_per_channel_` samples of the caller's; `none`
where that runs past either end.
-/
def copyIn (frame : AudioFrame) (data : List Int16) : Option AudioFrame :=
  if data.length < frame.samplesPerChannel then
    none
  else
    frame.write (data.take frame.samplesPerChannel)

/-- The second `std::copy`: as many samples back into the caller's data. -/
def copyOut (frame : AudioFrame) (data : List Int16) : List Int16 :=
  frame.data.take frame.samplesPerChannel ++
    data.drop frame.samplesPerChannel

/-- What a call of the module returns, when it returns. -/
def returnValue : Option Exit → Option Int
  | none => some 0
  | some (.error code) => some code.value
  | some .abort => none

/--
`ProcessStream`: what it returns and what it leaves in `data`; `none` when it
does not return.
-/
def processStream
    (created : Creations)
    (data : List Int16)
    (wrapper : ApmProcessing cores) :
    Option (ApmProcessing cores × Int × List Int16) :=
  if !wrapper.isInit then
    some (wrapper, -100, data)
  else
    match copyIn wrapper.frame data with
    | none => none
    | some loaded =>
        let ran := AudioProcessingImpl.processStream created (wrapper.apm, loaded)
        (returnValue ran.2).map fun ret =>
          ({ wrapper with
              apm := ran.1.1
              frame := ran.1.2 }, ret, copyOut ran.1.2 data)

/-- `ProcessReverseStream`, which writes nothing back. -/
def processReverseStream
    (created : Creations)
    (data : List Int16)
    (wrapper : ApmProcessing cores) :
    Option (ApmProcessing cores × Int × List Int16) :=
  if !wrapper.isInit then
    some (wrapper, -100, data)
  else
    match copyIn wrapper.reverseFrame data with
    | none => none
    | some loaded =>
        let ran :=
          AudioProcessingImpl.processReverseStream created
            (wrapper.apm, loaded)
        (returnValue ran.2).map fun ret =>
          ({ wrapper with
              apm := ran.1.1
              reverseFrame := ran.1.2 }, ret, data)

/-- The calls between `Init` and `Release`; the module is public as well. -/
inductive WrapperCall (cores : Cores) where
  | processStream (created : Creations) (data : List Int16)
  | processReverseStream (created : Creations) (data : List Int16)
  | onModule (record : CallRecord cores)

/-- One call that returns. -/
def wrapperStep
    (source : ApmProcessing cores)
    (call : WrapperCall cores)
    (target : ApmProcessing cores) : Prop :=
  match call with
  | .processStream created data =>
      ∃ ret written,
        source.processStream created data = some (target, ret, written)
  | .processReverseStream created data =>
      ∃ ret written,
        source.processReverseStream created data =
          some (target, ret, written)
  | .onModule record =>
      apiStep source.apm record target.apm ∧
        target = { source with apm := target.apm }

end ApmProcessing

end ApmSdk.AudioProcessing
