import ApmSdk.AecMobileRuns
import ApmSdk.OutputFrames

namespace ApmSdk.Aecm

/-!
# Runs of frames through the mobile echo canceller

`WebRtcAecm_ProcessFrame` cuts frames of 80 samples into blocks of 64 and the blocks
that come out into frames again.  `WebRtcAecm_ProcessBlock` puts each block behind the
one before it in a time buffer and works on both.  Here these time buffers are spelled
out, and only the work on the spectra is left open; what every block was handed is
put on record.
-/

/-- `PART_LEN2` -/
abbrev partLen2 : Nat := 128

/-- The elements of a frame ring, `FRAME_LEN + PART_LEN`. -/
abbrev frameBufLen : Nat := 144

/-- A time buffer: a block behind the one before it. -/
def Samples.join (old new : Samples partLen) : Samples partLen2 :=
  ⟨old.1 ++ new.1, by
    rw [List.length_append, old.2, new.2]
    rfl⟩

/-- `WebRtcAecm_ProcessBlock` between its time buffers and its output.  It fails on no
block: the delay estimators reject a spectrum of another size than they were created
for and a scale above 15, and get neither. -/
structure SpectralCore where
  State : Type
  init : Int → State
  setCngMode : State → Int → State
  setEchoMode : State → Int → State
  /-- The work on the far, the noisy and the clean time buffer. -/
  process :
    State →
    Samples partLen2 →
    Samples partLen2 →
    Option (Samples partLen2) →
    State × Samples partLen

/-- The time buffers that a block was processed from, and the block that came out. -/
structure Handed where
  far : Samples partLen2
  noisy : Samples partLen2
  clean : Option (Samples partLen2)
  out : Samples partLen
  deriving DecidableEq

/-- The fields of `AecmCore` that `WebRtcAecm_ProcessBlock` uses, with the record.  Of
a time buffer only the first half is kept; the second is overwritten first. -/
structure BlockState (core : SpectralCore) where
  xBuf : Samples partLen
  dBufNoisy : Samples partLen
  dBufClean : Samples partLen
  spectral : core.State
  handed : List Handed

namespace SpectralCore

variable (core : SpectralCore)

/-- `WebRtcAecm_ProcessBlock`: the clean time buffer moves on with a clean block
only. -/
def processBlock
    (state : BlockState core)
    (far noisy : Samples partLen)
    (clean : Option (Samples partLen)) :
    BlockState core × Option (Samples partLen) :=
  let farWindow := state.xBuf.join far
  let noisyWindow := state.dBufNoisy.join noisy
  let cleanWindow := clean.map state.dBufClean.join
  let (spectral, out) :=
    core.process state.spectral farWindow noisyWindow cleanWindow
  ({ xBuf := far
     dBufNoisy := noisy
     dBufClean := clean.getD state.dBufClean
     spectral := spectral
     handed :=
       state.handed ++ [⟨farWindow, noisyWindow, cleanWindow, out⟩] },
    some out)

/-- The block processor with its time buffers. -/
def blockProcessor : BlockProcessor where
  State := BlockState core
  init samplingFreq :=
    { xBuf := Samples.zeros partLen
      dBufNoisy := Samples.zeros partLen
      dBufClean := Samples.zeros partLen
      spectral := core.init samplingFreq
      handed := [] }
  setCngMode state cngMode :=
    { state with spectral := core.setCngMode state.spectral cngMode }
  setEchoMode state echoMode :=
    { state with spectral := core.setEchoMode state.spectral echoMode }
  processBlock := core.processBlock

end SpectralCore

/-- The arguments of a call of `WebRtcAecm_ProcessFrame`. -/
structure Frame where
  farend : Samples frameLen
  noisy : Samples frameLen
  clean : Option (Samples frameLen)
  deriving DecidableEq

namespace AecmCore

variable {processor : BlockProcessor}

/-- `WebRtcAecm_ProcessFrame` up to the output frame. -/
def upToOutput
    (aecm : AecmCore processor)
    (frame : Frame) : Option (AecmCore processor × Bool) := do
  let aecm ← aecm.bufferFarFrame frame.farend
  let (aecm, farFrame) ← aecm.fetchFarFrame aecm.knownDelay
  let aecm := aecm.bufferFrames farFrame frame.noisy frame.clean
  processBlocks frame.clean.isSome
    (aecm.farFrameBuf.availableRead / partLen) aecm

/-- How many samples are missing when the output frame is to be read: by so many the
output ring is stuffed. -/
def missingOutput
    (aecm : AecmCore processor)
    (frame : Frame) : Option Nat :=
  (aecm.upToOutput frame).map fun processed =>
    frameLen - processed.1.outFrameBuf.availableRead

/-- Behind that the output frame is all that is left to do. -/
theorem processFrame_eq
    (aecm : AecmCore processor)
    (frame : Frame) :
    aecm.processFrame frame.farend frame.noisy frame.clean =
      (aecm.upToOutput frame).bind fun processed =>
        processed.1.finishFrame processed.2 := by
  simp only [processFrame, upToOutput, processFetched,
    Option.bind_eq_bind, Option.bind_assoc]

end AecmCore

/-- A core with the frames it has been called with, what it has answered, and by how
many samples it has stuffed its output ring for each. -/
structure Session (core : SpectralCore) where
  aecm : AecmCore core.blockProcessor
  frames : List Frame
  outputs : List (Samples frameLen)
  stuffed : List Nat

namespace Session

variable {core : SpectralCore}

/-- A core that has been created and initialised. -/
def start
    (memory : AecMobile core.blockProcessor)
    (samplingFreq : Int) : Option (Session core) :=
  (AecMobile.create memory).map fun created =>
    { aecm := created.aecmCore.initCore samplingFreq
      frames := []
      outputs := []
      stuffed := [] }

/-- A call of `WebRtcAecm_ProcessFrame`. -/
def processFrame
    (session : Session core)
    (frame : Frame) : Option (Session core) := do
  let (aecm, out) ←
    session.aecm.processFrame frame.farend frame.noisy frame.clean
  let out ← out
  let missing ← session.aecm.missingOutput frame
  some
    { aecm := aecm
      frames := session.frames ++ [frame]
      outputs := session.outputs ++ [out]
      stuffed := session.stuffed ++ [missing] }

/-- Calls one after another, from the initialisation on. -/
def run
    (memory : AecMobile core.blockProcessor)
    (samplingFreq : Int)
    (frames : List Frame) : Option (Session core) :=
  (start memory samplingFreq).bind fun session =>
    frames.foldlM processFrame session

/-- What `WebRtcAecm_ProcessBlock` was handed, block by block. -/
def handed (session : Session core) : List Handed :=
  session.aecm.block.handed

end Session

/-- The far-end samples of frames. -/
def farStream (frames : List Frame) : List Short :=
  frames.flatMap fun frame => frame.farend.1

/-- The noisy near-end samples of frames. -/
def noisyStream (frames : List Frame) : List Short :=
  frames.flatMap fun frame => frame.noisy.1

/-- A stream behind the zeros that the time buffers start with. -/
def padded (stream : List Short) : List Short :=
  List.replicate partLen 0 ++ stream

theorem length_padded (stream : List Short) :
    (padded stream).length = partLen + stream.length := by
  rw [padded, List.length_append, List.length_replicate]

theorem padded_append (stream more : List Short) :
    padded (stream ++ more) = padded stream ++ more :=
  (List.append_assoc ..).symm

@[simp]
theorem farStream_append (frames : List Frame) (frame : Frame) :
    farStream (frames ++ [frame]) = farStream frames ++ frame.farend.1 := by
  simp [farStream]

@[simp]
theorem noisyStream_append (frames : List Frame) (frame : Frame) :
    noisyStream (frames ++ [frame]) = noisyStream frames ++ frame.noisy.1 := by
  simp [noisyStream]

/-- A stream of frames is as long as they are. -/
theorem length_flatMap_samples
    {α : Type}
    {size : Nat}
    (items : List α)
    (samples : α → Samples size) :
    (items.flatMap fun item => (samples item).1).length =
      size * items.length := by
  induction items with
  | nil =>
      rfl
  | cons item rest inductionHypothesis =>
      rw [List.flatMap_cons, List.length_append, inductionHypothesis,
        (samples item).2, List.length_cons, Nat.mul_succ, Nat.add_comm]

theorem length_farStream (frames : List Frame) :
    (farStream frames).length = frameLen * frames.length :=
  length_flatMap_samples frames Frame.farend

theorem length_noisyStream (frames : List Frame) :
    (noisyStream frames).length = frameLen * frames.length :=
  length_flatMap_samples frames Frame.noisy

/-- The samples that have been written to the output ring. -/
def outStream (handed : List Handed) : List Short :=
  handed.flatMap fun block => block.out.1

theorem length_outStream (handed : List Handed) :
    (outStream handed).length = partLen * handed.length :=
  length_flatMap_samples handed Handed.out

/-- The stream of a frame ring. -/
abbrev inRing (stream : List Short) : List Short :=
  OutputFrames.inRing 0 stream

theorem length_inRing (stream : List Short) :
    (inRing stream).length = frameBufLen + stream.length :=
  OutputFrames.length_inRing 0 stream

theorem inRing_append (stream more : List Short) :
    inRing (stream ++ more) = inRing stream ++ more :=
  OutputFrames.inRing_append 0 stream more

namespace AecmCore

/-- A block that is all there is what the pointer leads to. -/
theorem readBlock_of_readBuffer
    {buffer target : RingBuffer Short}
    {result : ReadResult Short}
    {block : Samples partLen}
    (read : buffer.readBuffer true partLen = some (target, result))
    (count : result.readCount = partLen)
    (elements : result.elements target = block.1) :
    readBlock buffer = some (target, block) := by
  unfold readBlock
  rw [read]
  cases pointer : result.pointer with
  | view position =>
      simp only [ReadResult.elements, pointer, count] at elements
      simp only [Option.bind_eq_bind, Option.bind_some, pointer,
        ofList?_of_eq block elements]
  | callerData =>
      simp only [ReadResult.elements, pointer] at elements
      simp only [Option.bind_eq_bind, Option.bind_some, pointer,
        ofList?_of_eq block elements]

/-- Reading a block that is there. -/
theorem readBlock_carries
    {buffer : RingBuffer Short}
    {stream : List Short}
    {blocks : Nat}
    (carries :
      RingBuffer.Carries frameBufLen buffer (inRing stream)
        (frameBufLen + partLen * blocks))
    (enough : partLen * (blocks + 1) ≤ stream.length) :
    ∃ target block,
      readBlock buffer = some (target, block) ∧
        block.1 = window stream (partLen * blocks) partLen ∧
          RingBuffer.Carries frameBufLen target (inRing stream)
            (frameBufLen + partLen * (blocks + 1)) := by
  rw [Nat.mul_succ] at enough ⊢
  have inStream :
      frameBufLen + partLen * blocks + partLen ≤
        (inRing stream).length := by
    rw [length_inRing]
    omega
  obtain ⟨target, result, read, count, elements, next⟩ :=
    carries.readBuffer (by decide) inStream
  have isBlock :=
    elements.trans (OutputFrames.window_inRing 0 stream _ _)
  have full : (window stream (partLen * blocks) partLen).length = partLen :=
    length_window enough
  exact ⟨target, ⟨_, full⟩, readBlock_of_readBuffer read count isBlock,
    rfl, next⟩

/-- Stuffing brings the position back to where a frame is left. -/
theorem stuffOutput_carries
    {buffer : RingBuffer Short}
    {written : List Short}
    {position : Nat}
    (carries :
      RingBuffer.Carries frameBufLen buffer written position) :
    ∃ stuffed,
      stuffOutput buffer = some stuffed ∧
        RingBuffer.Carries frameBufLen stuffed written
          (min position (written.length - frameLen)) := by
  obtain ⟨inStream, kept, filled⟩ := carries.bounds
  have ring : frameBufLen = 144 := rfl
  have frame : frameLen = 80 := rfl
  have size :
      asInt buffer.availableRead = (written.length - position : Nat) := by
    rw [carries.availableRead_eq, asInt_of_lt (by omega)]
  unfold stuffOutput
  rw [size]
  by_cases short : written.length - position < frameLen
  · have room :
        written.length + (frameLen - (written.length - position)) ≤
          position + frameBufLen := by
      omega
    obtain ⟨moved, isMoved, next⟩ :=
      carries.moveReadPtr_back (by decide) room
    refine ⟨moved, ?_, ?_⟩
    · have back :
          ((written.length - position : Nat) : Int) - frameLen =
            -((frameLen - (written.length - position) : Nat) : Int) := by
        omega
      dsimp only
      rw [if_pos (by omega), back, isMoved]
      rfl
    · have start :
          min position (written.length - frameLen) =
            position - (frameLen - (written.length - position)) := by
        omega
      rwa [start]
  · refine ⟨buffer, if_neg (by omega), ?_⟩
    rwa [Nat.min_eq_left (by omega)]

/-- An output frame: the next samples, or the last ones where fewer are left. -/
theorem readOutput_carries
    {buffer : RingBuffer Short}
    {written : List Short}
    {position : Nat}
    (carries :
      RingBuffer.Carries frameBufLen buffer written position) :
    ∃ target out,
      readOutput buffer = some (target, out) ∧
        out.1 =
          window written (min position (written.length - frameLen))
            frameLen ∧
          RingBuffer.Carries frameBufLen target written
            (min position (written.length - frameLen) + frameLen) := by
  obtain ⟨inStream, -, filled⟩ := carries.bounds
  obtain ⟨stuffed, isStuffed, moved⟩ := stuffOutput_carries carries
  have enough :
      min position (written.length - frameLen) + frameLen ≤
        written.length := by
    have ring : frameBufLen = 144 := rfl
    have frame : frameLen = 80 := rfl
    omega
  obtain ⟨target, result, read, -, elements, next⟩ :=
    moved.readBuffer (by decide) enough
  obtain ⟨out, isOut⟩ :
      ∃ out : Samples frameLen, result.elements target = out.1 :=
    ⟨⟨_, length_window enough⟩, elements⟩
  refine ⟨target, out, ?_, isOut.symm.trans elements, next⟩
  unfold readOutput
  rw [isStuffed, Option.bind_eq_bind, Option.bind_some, read,
    Option.bind_eq_bind, Option.bind_some]
  dsimp only
  rw [ofList?_of_eq out isOut]
  rfl

end AecmCore

end ApmSdk.Aecm
