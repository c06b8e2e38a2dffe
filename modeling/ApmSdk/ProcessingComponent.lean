import ApmSdk.EarlyExit
import ApmSdk.StreamFormats

namespace ApmSdk.AudioProcessing

/-!
# The base class of the components with handles

`ProcessingComponent` owns one handle for each channel (pair) and creates,
initialises and configures them.  The render queue that its three subclasses
declare in the same way is kept here as well.
-/

/-- The fields of `ProcessingComponent` and the queue of packed render frames. -/
structure ProcessingComponent (Handle Sample : Type) where
  handles : List (Option Handle)
  numHandles : Nat
  initialized : Bool
  enabled : Bool
  renderSignalQueue : List (List Sample)

/--
The virtual functions a subclass provides.  The flag of `initializeHandle` is
set when it returns an error, and `configureHandle` is followed by
`GetHandleError` when it fails.
-/
structure HandleMethods (Handle : Type) where
  numHandlesRequired : Nat
  createHandle : (index : Nat) → Option Handle
  initializeHandle : Handle → Handle × Bool
  configureHandle : Stage (Option Handle) Exit

/-- `kMaxNumFramesToBuffer` -/
def kMaxNumFramesToBuffer : Nat :=
  100

/--
`EnableComponent` of a subclass: the flag is set before the subclass's own
`Initialize` runs and taken back when that returns an error.
-/
def enableComponent
    {Component : Type}
    (isEnabled : Component → Bool)
    (setEnabled : Bool → Component → Component)
    (initializeComponent : Stage Component Exit)
    (enable : Bool) : Stage Component Exit :=
  fun component =>
    if enable && !isEnabled component then
      match initializeComponent (setEnabled enable component) with
      | (failed, some exit) => (setEnabled false failed, some exit)
      | (ready, none) => (ready, none)
    else
      (setEnabled enable component, none)

namespace ProcessingComponent

variable {Handle Sample : Type}

/-- `ProcessingComponent()` -/
def create : ProcessingComponent Handle Sample where
  handles := []
  numHandles := 0
  initialized := false
  enabled := false
  renderSignalQueue := []

/-- One turn of the loop in `Initialize`. -/
def initializeSlot
    (methods : HandleMethods Handle)
    (index : Nat) : Stage (Option Handle × Unit) Exit :=
  fun visit =>
    match visit.1.or (methods.createHandle index) with
    | none => ((none, ()), some (.error .kCreationFailedError))
    | some handle =>
        let ran := methods.initializeHandle handle
        ((some ran.1, ()),
          if ran.2 then some (.error .kUnspecifiedError) else none)

/-- One turn of the loop in `Configure`. -/
def configureSlot
    (methods : HandleMethods Handle)
    (_ : Nat) : Stage (Option Handle × Unit) Exit :=
  fun visit =>
    let ran := methods.configureHandle visit.1
    ((ran.1, ()), ran.2)

/-- `Configure` -/
def configure
    (methods : HandleMethods Handle) :
    Stage (ProcessingComponent Handle Sample) Exit :=
  fun component =>
    if !component.initialized then
      (component, none)
    else
      let ran :=
        forSlots (configureSlot methods) .abort 0 component.numHandles
          (component.handles, ())
      ({ component with handles := ran.1.1 }, ran.2)

/-- `handles_` after it has been made long enough. -/
def resized
    (component : ProcessingComponent Handle Sample)
    (numHandles : Nat) : List (Option Handle) :=
  component.handles ++
    List.replicate (numHandles - component.handles.length) none

/-- `Initialize` -/
def initializeComponent
    (methods : HandleMethods Handle) :
    Stage (ProcessingComponent Handle Sample) Exit :=
  fun component =>
    if !component.enabled then
      (component, none)
    else
      let numHandles := methods.numHandlesRequired
      let ran :=
        forSlots (initializeSlot methods) .abort 0 numHandles
          (component.resized numHandles, ())
      let visited :=
        { component with
          handles := ran.1.1
          numHandles := numHandles }
      match ran.2 with
      | some exit => (visited, some exit)
      | none => configure methods { visited with initialized := true }

/--
What `Initialize` of each subclass begins with: the base class's, and then
`AllocateRenderQueue`, which leaves an empty queue whether it allocates or
clears.
-/
def initializeWithQueue
    (methods : HandleMethods Handle) :
    Stage (ProcessingComponent Handle Sample) Exit :=
  fun component =>
    match initializeComponent methods component with
    | (failed, some exit) => (failed, some exit)
    | (ready, none) =>
        if !ready.enabled then
          (ready, none)
        else
          ({ ready with renderSignalQueue := [] }, none)

/-- The part of a packed render frame that goes to one handle. -/
def packedPiece
    (packed : List Sample)
    (count index : Nat) : List Sample :=
  let numFramesPerBand := packed.length / count
  (packed.drop (index * numFramesPerBand)).take numFramesPerBand

/-- One packed render frame, handed to `count` handles piece by piece. -/
def bufferPacked
    (bufferFarend : List Sample → Stage (Option Handle) Exit)
    (count : Nat)
    (packed : List Sample) : Stage (List (Option Handle)) Exit :=
  fun handles =>
    let ran :=
      forSlots
        (fun index (visit : Option Handle × Unit) =>
          let buffered :=
            bufferFarend (packedPiece packed count index) visit.1
          ((buffered.1, ()), buffered.2))
        .abort 0 count (handles, ())
    (ran.1.1, ran.2)

/-- `ReadQueuedRenderData` -/
def readQueuedRenderData
    (bufferFarend : List Sample → Stage (Option Handle) Exit)
    (count : Nat) : Stage (ProcessingComponent Handle Sample) Exit :=
  fun component =>
    if !component.enabled then
      (component, none)
    else
      let ran :=
        runStages
          (component.renderSignalQueue.map (bufferPacked bufferFarend count))
          component.handles
      ({ component with
          handles := ran.1
          renderSignalQueue := [] }, ran.2)

/-- `Insert` into the render queue, which refuses when the queue is full. -/
def insertPacked
    (packed : List Sample)
    (component : ProcessingComponent Handle Sample) :
    Option (ProcessingComponent Handle Sample) :=
  if component.renderSignalQueue.length < kMaxNumFramesToBuffer then
    some
      { component with
        renderSignalQueue := component.renderSignalQueue ++ [packed] }
  else
    none

/--
The end of `ProcessRenderAudio`: a full queue is read out first, and the insert
is then tried again where `RTC_DCHECK_EQ` evaluates its argument.
-/
def insertRenderData
    (ndebug : Bool)
    (read : Stage (ProcessingComponent Handle Sample) Exit)
    (packed : List Sample) :
    Stage (ProcessingComponent Handle Sample) Exit :=
  fun component =>
    match insertPacked packed component with
    | some inserted => (inserted, none)
    | none =>
        match read component with
        | (failed, some exit) => (failed, some exit)
        | (emptied, none) =>
            if ndebug then
              (emptied, none)
            else
              match insertPacked packed emptied with
              | some inserted => (inserted, none)
              | none => (emptied, some .abort)

end ProcessingComponent

end ApmSdk.AudioProcessing
