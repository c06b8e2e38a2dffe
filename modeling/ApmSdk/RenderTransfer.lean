import ApmSdk.FixedFrames
import ApmSdk.LabelledPath
import ApmSdk.SwapQueue

namespace ApmSdk.RenderTransfer

/-!
# Render data on its way to the capture side

`ProcessRenderAudio` of the echo cancellers and the gain control packs a render
frame and puts it into a swap queue, which `ReadQueuedRenderData` empties under
the capture lock into the far ends of the component's handles.  A full queue is
flushed by the render side itself, which then tries its insert again inside
`RTC_DCHECK_EQ`.

The two sides run as separate threads here, one queue operation a step.  The
component is enabled and the stream formats do not change, so the handles are
initialised for the frames they are given.
-/

/-- The components with a render queue. -/
inductive Component where
  | echoCancellation
  | echoControlMobile
  | gainControl
  deriving Repr, DecidableEq

/-- The channel counts and the band length that the components are set up for. -/
structure Format where
  numOutputChannels : Nat
  numReverseChannels : Nat
  numProcChannels : Nat
  numFramesPerBand : Nat
  outputPositive : 0 < numOutputChannels
  reversePositive : 0 < numReverseChannels
  procPositive : 0 < numProcChannels
  bandLength : numFramesPerBand = 80 ∨ numFramesPerBand = 160
  deriving Repr, DecidableEq

/-- What a component reads of a render `AudioBuffer`. -/
structure RenderFrame (Sample : Type) (format : Format) where
  splitBands : List (List Sample)
  mixedLowPassData : List Sample
  channelCount : splitBands.length = format.numReverseChannels
  bandLength :
    ∀ band ∈ splitBands, band.length = format.numFramesPerBand
  mixedLength : mixedLowPassData.length = format.numFramesPerBand

namespace Component

/-- `num_handles_required` -/
def numHandlesRequired
    (component : Component)
    (format : Format) : Nat :=
  match component with
  | .echoCancellation =>
      format.numOutputChannels * format.numReverseChannels
  | .echoControlMobile =>
      format.numOutputChannels * format.numReverseChannels
  | .gainControl => format.numProcChannels

/-- Every format asks for at least one handle. -/
theorem numHandlesRequired_pos
    (component : Component)
    (format : Format) :
    0 < component.numHandlesRequired format := by
  have outputPositive := format.outputPositive
  have reversePositive := format.reversePositive
  cases component with
  | echoCancellation => exact Nat.mul_pos outputPositive reversePositive
  | echoControlMobile => exact Nat.mul_pos outputPositive reversePositive
  | gainControl => exact format.procPositive

variable {Sample : Type} {format : Format}

/--
The pieces of a frame in the order the packing loops append them: one for each
pair of an output and a reverse channel, or the mono mix for each handle.
-/
def pieces
    (component : Component)
    (frame : RenderFrame Sample format) : List (List Sample) :=
  match component with
  | .echoCancellation =>
      (List.replicate format.numOutputChannels frame.splitBands).flatten
  | .echoControlMobile =>
      (List.replicate format.numOutputChannels frame.splitBands).flatten
  | .gainControl =>
      List.replicate format.numProcChannels frame.mixedLowPassData

/-- The packed frame in `render_queue_buffer_`. -/
def pack
    (component : Component)
    (frame : RenderFrame Sample format) : List Sample :=
  (component.pieces frame).flatten

/-- The pieces `ReadQueuedRenderData` buffers, handle by handle. -/
def unpack
    (component : Component)
    (format : Format)
    (packed : List Sample) : List (List Sample) :=
  let numHandles := component.numHandlesRequired format
  frames (packed.length / numHandles) packed numHandles 0

/-- There is one piece for each handle. -/
theorem length_pieces
    (component : Component)
    (frame : RenderFrame Sample format) :
    (component.pieces frame).length =
      component.numHandlesRequired format := by
  cases component <;>
    simp [pieces, numHandlesRequired, frame.channelCount]

/-- Every piece has the length of a band. -/
theorem length_of_mem_pieces
    (component : Component)
    (frame : RenderFrame Sample format) :
    ∀ piece ∈ component.pieces frame,
      piece.length = format.numFramesPerBand := by
  have bands :
      ∀ piece ∈
          (List.replicate format.numOutputChannels
            frame.splitBands).flatten,
        piece.length = format.numFramesPerBand := by
    intro piece member
    obtain ⟨bands, replicated, inBands⟩ := List.mem_flatten.mp member
    rw [List.eq_of_mem_replicate replicated] at inBands
    exact frame.bandLength piece inBands
  cases component with
  | echoCancellation => exact bands
  | echoControlMobile => exact bands
  | gainControl =>
      intro piece member
      rw [List.eq_of_mem_replicate member]
      exact frame.mixedLength

/-- A packed frame has one band length for each handle. -/
theorem length_pack
    (component : Component)
    (frame : RenderFrame Sample format) :
    (component.pack frame).length =
      component.numHandlesRequired format *
        format.numFramesPerBand := by
  rw [pack, length_flatten_of_forall (component.length_of_mem_pieces frame),
    length_pieces]

/-- A packed frame passes the queue's item verifier. -/
theorem length_pack_le
    (component : Component)
    (frame : RenderFrame Sample format) :
    (component.pack frame).length ≤
      max 1 (160 * component.numHandlesRequired format) := by
  rw [length_pack, Nat.mul_comm]
  rcases format.bandLength with narrow | wide
  · rw [narrow]
    omega
  · rw [wide]
    omega

/-- Unpacking a packed frame gives each handle its own piece. -/
theorem unpack_pack
    (component : Component)
    (frame : RenderFrame Sample format) :
    component.unpack format (component.pack frame) =
      component.pieces frame := by
  have handles := component.length_pieces frame
  have perBand :
      (component.pack frame).length /
          component.numHandlesRequired format =
        format.numFramesPerBand := by
    rw [length_pack]
    exact Nat.mul_div_cancel_left _
      (component.numHandlesRequired_pos format)
  rw [unpack, perBand, ← handles]
  exact frames_of_flatten (component.length_of_mem_pieces frame)

/-- Whether the component's render lock is the capture lock. -/
def sharesCaptureLock : Component → Bool
  | .echoCancellation => false
  | .echoControlMobile => false
  | .gainControl => true

end Component

/-- `kMaxNumFramesToBuffer` -/
def kMaxNumFramesToBuffer : Nat :=
  100

/-- Where the render thread is in `ProcessRenderAudio`. -/
inductive RenderPoint where
  | idle
  /-- Before the first `Insert`, the frame packed. -/
  | insert
  /-- Before `ReadQueuedRenderData`, waiting for the capture lock. -/
  | waitCaptureLock
  /-- In the loop of `ReadQueuedRenderData`. -/
  | flush
  /-- Before `RTC_DCHECK_EQ`. -/
  | retry
  /-- The check failed. -/
  | aborted
  deriving Repr, DecidableEq

/-- Whether the capture thread is in the loop of `ReadQueuedRenderData`. -/
inductive CapturePoint where
  | idle
  | read
  deriving Repr, DecidableEq

/-- A component's queue members, both threads, and what went through them. -/
structure Transfer (Sample : Type) where
  renderSignalQueue : SwapQueue (List Sample)
  renderQueueBuffer : List Sample
  captureQueueBuffer : List Sample
  renderPoint : RenderPoint
  capturePoint : CapturePoint
  analysed : List (List (List Sample))
  farEnd : List (List (List Sample))

/-- The component under test and the build it is compiled in. -/
structure Build where
  component : Component
  format : Format
  ndebug : Bool

/-- The steps of the two threads. -/
inductive Step (Sample : Type) (format : Format) where
  | renderCall (frame : RenderFrame Sample format)
  | renderInsert
  | renderLock
  | renderRead
  | renderRetry
  | captureCall
  | captureRead

variable {Sample : Type} {build : Build}

/-- `AllocateRenderQueue` has run; the buffers hold its template element. -/
def allocated (template : List Sample) : Transfer Sample where
  renderSignalQueue :=
    .create kMaxNumFramesToBuffer template
  renderQueueBuffer := template
  captureQueueBuffer := template
  renderPoint := .idle
  capturePoint := .idle
  analysed := []
  farEnd := []

namespace Transfer

/-- Pack a frame; what was in the buffer is cleared first. -/
def renderCall
    (transfer : Transfer Sample)
    (component : Component)
    (frame : RenderFrame Sample build.format) : Transfer Sample :=
  { transfer with
    renderQueueBuffer := component.pack frame
    renderPoint := .insert
    analysed := transfer.analysed ++ [component.pieces frame] }

/-- The first `Insert`. -/
def renderInsert (transfer : Transfer Sample) : Transfer Sample :=
  match transfer.renderSignalQueue.insert
      transfer.renderQueueBuffer with
  | some (queue, returned) =>
      { transfer with
        renderSignalQueue := queue
        renderQueueBuffer := returned
        renderPoint := .idle }
  | none => { transfer with renderPoint := .waitCaptureLock }

/--
The second `Insert`, the argument of `RTC_DCHECK_EQ`.  Under `NDEBUG` the macro
does not evaluate it.
-/
def renderRetry
    (transfer : Transfer Sample)
    (ndebug : Bool) : Transfer Sample :=
  if ndebug then
    { transfer with renderPoint := .idle }
  else
    match transfer.renderSignalQueue.insert
        transfer.renderQueueBuffer with
    | some (queue, returned) =>
        { transfer with
          renderSignalQueue := queue
          renderQueueBuffer := returned
          renderPoint := .idle }
    | none => { transfer with renderPoint := .aborted }

/--
One round of the loop in `ReadQueuedRenderData`: buffer the removed frame into
the far ends, or end the loop as `finish` says.
-/
def readQueued
    (transfer : Transfer Sample)
    (build : Build)
    (finish : Transfer Sample → Transfer Sample) : Transfer Sample :=
  match transfer.renderSignalQueue.remove
      transfer.captureQueueBuffer with
  | some (queue, removed) =>
      { transfer with
        renderSignalQueue := queue
        captureQueueBuffer := removed
        farEnd :=
          transfer.farEnd ++
            [build.component.unpack build.format removed] }
  | none => finish transfer

/-- The render thread leaves the flush. -/
def endFlush (transfer : Transfer Sample) : Transfer Sample :=
  { transfer with renderPoint := .retry }

/-- The capture thread leaves its loop. -/
def endRead (transfer : Transfer Sample) : Transfer Sample :=
  { transfer with capturePoint := .idle }

/-- The state after a step, if neither the thread nor a lock prevents it. -/
def next
    (build : Build)
    (transfer : Transfer Sample) :
    Step Sample build.format → Option (Transfer Sample)
  | .renderCall frame =>
      if transfer.renderPoint = .idle ∧
          (build.component.sharesCaptureLock →
            transfer.capturePoint = .idle) then
        some (transfer.renderCall build.component frame)
      else
        none
  | .renderInsert =>
      if transfer.renderPoint = .insert then
        some transfer.renderInsert
      else
        none
  | .renderLock =>
      if transfer.renderPoint = .waitCaptureLock ∧
          transfer.capturePoint = .idle then
        some { transfer with renderPoint := .flush }
      else
        none
  | .renderRead =>
      if transfer.renderPoint = .flush then
        some (transfer.readQueued build endFlush)
      else
        none
  | .renderRetry =>
      if transfer.renderPoint = .retry then
        some (transfer.renderRetry build.ndebug)
      else
        none
  | .captureCall =>
      if transfer.capturePoint = .idle ∧
          transfer.renderPoint ≠ .flush ∧
          (build.component.sharesCaptureLock →
            transfer.renderPoint = .idle) then
        some { transfer with capturePoint := .read }
      else
        none
  | .captureRead =>
      if transfer.capturePoint = .read then
        some (transfer.readQueued build endRead)
      else
        none

/-- The packed frame a render call still has to insert. -/
def inHand (transfer : Transfer Sample) : List (List Sample) :=
  match transfer.renderPoint with
  | .insert => [transfer.renderQueueBuffer]
  | .waitCaptureLock => [transfer.renderQueueBuffer]
  | .flush => [transfer.renderQueueBuffer]
  | .retry => [transfer.renderQueueBuffer]
  | .idle => []
  | .aborted => []

end Transfer

/-- The transition relation of the two threads. -/
abbrev transferStep (build : Build) :
    Transfer Sample → Step Sample build.format → Transfer Sample → Prop :=
  stepOf (Transfer.next build)

end ApmSdk.RenderTransfer
