import ApmSdk.ProcessingComponent

namespace ApmSdk.AudioProcessing

/-!
# What a component is set up for

The setup of a handle is whether its library instance has been initialised and
at which rate.  The shape of a component keeps the setups of its handles and
drops the signal state behind them, so that a function which only processes
audio leaves the shape alone, and `Initialize` is described by the shape it
leaves.
-/

/-- `initFlag` and the sampling rate of a library instance. -/
structure HandleSetup where
  initFlag : Bool
  sampFreq : Int
  deriving Repr, DecidableEq

/-- The setup that initialising at a native rate gives. -/
def HandleSetup.at (rate : NativeRate) : HandleSetup :=
  ⟨true, rate.hz⟩

section EnableComponent

variable {Component : Type}
variable {isEnabled : Component → Bool}
variable {setEnabled : Bool → Component → Component}
variable {initializeComponent : Stage Component Exit}
variable {enable : Bool}
variable {component : Component}

/--
`EnableComponent` only sets the flag, or enables a component that is initialised
for it, or takes the flag back when that fails.
-/
theorem enableComponent_cases :
    ((enable = false ∨ isEnabled component = true) ∧
        enableComponent isEnabled setEnabled initializeComponent enable
            component =
          (setEnabled enable component, none)) ∨
      (enable = true ∧ isEnabled component = false ∧
        let ran := initializeComponent (setEnabled true component)
        (ran.2 = none ∧
            enableComponent isEnabled setEnabled initializeComponent
                enable component =
              ran) ∨
          ∃ exit, ran.2 = some exit ∧
            enableComponent isEnabled setEnabled initializeComponent
                enable component =
              (setEnabled false ran.1, some exit)) := by
  unfold enableComponent
  by_cases turnsOn : (enable && !isEnabled component) = true
  · rw [if_pos turnsOn]
    obtain ⟨rfl, down⟩ := Bool.and_eq_true_iff.mp turnsOn
    refine .inr ⟨rfl, by simpa using down, ?_⟩
    split
    next failed exit ran =>
        exact .inr ⟨exit, by simp [ran], by simp [ran]⟩
    next ready ran =>
        exact .inl ⟨by simp [ran], by simp [ran]⟩
  · rw [if_neg turnsOn]
    refine .inl ⟨?_, rfl⟩
    simpa [Classical.or_iff_not_imp_left] using turnsOn

/--
What neither the flag nor `Initialize` of a subclass decides is the same after
`EnableComponent`.
-/
theorem enableComponent_frame
    {View : Type}
    (view : Component → View)
    (flagKeeps :
      ∀ flag component, view (setEnabled flag component) = view component)
    (initializeKeeps :
      ∀ component, view (initializeComponent component).1 = view component) :
    view
        (enableComponent isEnabled setEnabled initializeComponent enable
          component).1 =
      view component := by
  have prepared :=
    (initializeKeeps (setEnabled true component)).trans
      (flagKeeps true component)
  rcases @enableComponent_cases _ isEnabled setEnabled initializeComponent
      enable component with
    ⟨-, ran⟩ | ⟨-, -, ⟨-, ran⟩ | ⟨exit, -, ran⟩⟩
  · rw [ran]
    exact flagKeeps enable component
  · rw [ran]
    exact prepared
  · rw [ran]
    exact (flagKeeps false _).trans prepared

/--
The flag after `EnableComponent` is the one asked for, or the one before when it
returns an error.
-/
theorem isEnabled_enableComponent
    (isEnabled : Component → Bool)
    (reads : ∀ flag component, isEnabled (setEnabled flag component) = flag)
    (initializeKeeps :
      ∀ component,
        isEnabled (initializeComponent component).1 = isEnabled component) :
    let ran :=
      enableComponent isEnabled setEnabled initializeComponent enable
        component
    isEnabled ran.1 =
      if ran.2.isNone then enable else isEnabled component := by
  rcases @enableComponent_cases _ isEnabled setEnabled initializeComponent
      enable component with
    ⟨-, ran⟩ | ⟨rfl, down, ⟨passed, ran⟩ | ⟨exit, -, ran⟩⟩
  · simp [ran, reads]
  · simp [ran, passed, initializeKeeps, reads]
  · simp [ran, reads, down]

/--
What initialising gives an enabled component, it has whenever it is enabled, also
after `EnableComponent`.
-/
theorem enableComponent_ensures
    (isEnabled : Component → Bool)
    (holds : Component → Prop)
    (reads : ∀ flag component, isEnabled (setEnabled flag component) = flag)
    (flagKeeps :
      ∀ flag component, holds component → holds (setEnabled flag component))
    (initializes :
      ∀ component, isEnabled component = true →
        (initializeComponent component).2 = none →
          holds (initializeComponent component).1)
    (before : isEnabled component = true → holds component)
    (after :
      isEnabled
          (enableComponent isEnabled setEnabled initializeComponent enable
            component).1 =
        true) :
    holds
      (enableComponent isEnabled setEnabled initializeComponent enable
        component).1 := by
  rcases @enableComponent_cases _ isEnabled setEnabled initializeComponent
      enable component with
    ⟨reason, ran⟩ | ⟨-, -, ⟨passed, ran⟩ | ⟨exit, -, ran⟩⟩
  · rw [ran, reads] at after
    rw [ran]
    refine flagKeeps enable component (before (reason.resolve_left ?_))
    simp [after]
  · rw [ran]
    exact initializes _ (reads true component) passed
  · rw [ran, reads] at after
    cases after

end EnableComponent

namespace ProcessingComponent

variable {Handle Sample : Type}
variable {setup : Handle → HandleSetup}
variable {methods : HandleMethods Handle}
variable {component : ProcessingComponent Handle Sample}

/-- A component with the setups of its handles in place of the handles. -/
def shape
    (setup : Handle → HandleSetup)
    (component : ProcessingComponent Handle Sample) :
    ProcessingComponent HandleSetup Unit where
  handles := component.handles.map (Option.map setup)
  numHandles := component.numHandles
  initialized := component.initialized
  enabled := component.enabled
  renderSignalQueue := []

/--
A component works on `required` handles, and each of them has been initialised
for the rate `rate`.
-/
structure ReadyFor
    (required : Nat)
    (rate : NativeRate)
    (shape : ProcessingComponent HandleSetup Unit) : Prop where
  initialized : shape.initialized = true
  numHandles : shape.numHandles = required
  handles :
    shape.handles.take required =
      List.replicate required (some (HandleSetup.at rate))

/-- The setups of the first handles, read slot by slot. -/
theorem take_shape_eq_iff
    (slots : List (Option Handle))
    (required : Nat)
    (rate : NativeRate) :
    (slots.map (Option.map setup)).take required =
        List.replicate required (some (HandleSetup.at rate)) ↔
      required ≤ slots.length ∧
        ∀ slot ∈ slots.take required,
          slot.map setup = some (HandleSetup.at rate) := by
  rw [List.eq_replicate_iff, ← List.map_take, List.length_map,
    List.length_take, List.forall_mem_map]
  constructor
  · rintro ⟨enough, all⟩
    exact ⟨enough ▸ Nat.min_le_right .., all⟩
  · rintro ⟨enough, all⟩
    exact ⟨Nat.min_eq_left enough, all⟩

/-- Two lists related slot by slot share what the relation carries over. -/
theorem forall_of_forall₂
    {Slot : Type}
    {carried : Slot → Prop}
    {before after : List Slot}
    (related :
      List.Forall₂ (fun old new => carried old → carried new) before after)
    (all : ∀ slot ∈ before, carried slot) :
    ∀ slot ∈ after, carried slot := by
  induction related with
  | nil =>
      exact all
  | cons head tail inductionHypothesis =>
      rw [List.forall_mem_cons] at all ⊢
      exact ⟨head all.1, inductionHypothesis all.2⟩

/-- A `Configure` whose handle function keeps every setup keeps the shape. -/
theorem shape_configure
    (kept :
      ∀ slot, (methods.configureHandle slot).1.map setup = slot.map setup) :
    (configure methods component).1.shape setup = component.shape setup := by
  unfold configure
  by_cases initialized : component.initialized = true
  · simp only [initialized, Bool.not_true, Bool.false_eq_true, if_false,
      shape]
    rw [forSlots_map _ _ (Option.map setup) (fun _ slot _ => kept slot)]
  · simp [initialized]

/-- `Configure` passes when its handle function accepts the handles in use. -/
theorem configure_passes
    {rate : NativeRate}
    (passes :
      ∀ slot, slot.map setup = some (HandleSetup.at rate) →
        (methods.configureHandle slot).2 = none)
    (ready :
      (component.handles.map (Option.map setup)).take component.numHandles =
        List.replicate component.numHandles
          (some (HandleSetup.at rate))) :
    (configure methods component).2 = none := by
  obtain ⟨enough, all⟩ := (take_shape_eq_iff ..).mp ready
  unfold configure
  by_cases initialized : component.initialized = true
  · simp only [initialized, Bool.not_true, Bool.false_eq_true, if_false]
    exact
      forSlots_passes
        (fun slot => slot.map setup = some (HandleSetup.at rate))
        (fun _ slot _ => passes slot) enough all
  · simp [initialized]

section Initialize

variable {rate : NativeRate}

/--
What `Initialize` is known to do of a subclass: a handle that it initialises
without an error is set up for `rate`, and configuring keeps every setup.
-/
structure Initializes
    (setup : Handle → HandleSetup)
    (methods : HandleMethods Handle)
    (rate : NativeRate) : Prop where
  sets :
    ∀ handle,
      (methods.initializeHandle handle).2 = false →
        setup (methods.initializeHandle handle).1 = HandleSetup.at rate
  configureKeeps :
    ∀ slot, (methods.configureHandle slot).1.map setup = slot.map setup

/-- A disabled component is left as it is. -/
theorem initializeComponent_of_disabled
    (disabled : component.enabled = false) :
    initializeComponent methods component = (component, none) := by
  simp [initializeComponent, disabled]

/-- The slots as the loop of an enabled component's `Initialize` leaves them. -/
theorem initializeSlot_sets
    (initializes : Initializes setup methods rate)
    (index : Nat)
    (slot : Option Handle)
    (shared : Unit)
    (passed : (initializeSlot methods index (slot, shared)).2 = none) :
    (initializeSlot methods index (slot, shared)).1.1.map setup =
      some (HandleSetup.at rate) := by
  unfold initializeSlot at passed ⊢
  split at passed
  next => simp at passed
  next handle present =>
      simp only [ite_eq_right_iff, reduceCtorEq, imp_false,
        Bool.not_eq_true] at passed
      simp only [Option.map_some, initializes.sets handle passed]

/-- The enabled flag is not changed by `Initialize`. -/
@[simp]
theorem enabled_initializeComponent
    (methods : HandleMethods Handle)
    (component : ProcessingComponent Handle Sample) :
    (initializeComponent methods component).1.enabled =
      component.enabled := by
  unfold initializeComponent
  split
  · rfl
  · simp only
    split
    · rfl
    · unfold configure
      split <;> rfl

/-- Every handle in use is there and has a property. -/
def AllSlots
    (good : Option Handle → Prop)
    (component : ProcessingComponent Handle Sample) : Prop :=
  component.numHandles ≤ component.handles.length ∧
    ∀ slot ∈ component.handles.take component.numHandles, good slot

/-- Configuring keeps what it keeps of each handle. -/
theorem allSlots_configure
    {good : Option Handle → Prop}
    (kept : ∀ slot, good slot → good (methods.configureHandle slot).1)
    (all : AllSlots good component) :
    AllSlots good (configure methods component).1 := by
  unfold configure
  split
  · exact all
  · have visits :=
      (@forSlots_invariant _ _ _ (configureSlot methods) .abort good
        (fun _ => True) 0 component.numHandles
        (fun _ slot _ _ _ isGood _ => ⟨kept slot isGood, trivial⟩)
        component.handles () all.1 all.2 trivial).1
    refine ⟨?_, visits⟩
    rw [length_forSlots]
    exact all.1

/--
What initialising a handle without an error gives it, and configuring keeps, every
handle in use has after an enabled component's `Initialize` has passed.
-/
theorem allSlots_initializeComponent
    {good : Option Handle → Prop}
    (gives :
      ∀ index slot,
        (initializeSlot methods index (slot, ())).2 = none →
          good (initializeSlot methods index (slot, ())).1.1)
    (configureKeeps :
      ∀ slot, good slot → good (methods.configureHandle slot).1)
    (enabled : component.enabled = true)
    (passed : (initializeComponent methods component).2 = none) :
    (initializeComponent methods component).1.numHandles =
        methods.numHandlesRequired ∧
      AllSlots good (initializeComponent methods component).1 := by
  simp only [initializeComponent, enabled, Bool.not_true,
    Bool.false_eq_true, if_false] at passed ⊢
  split at passed
  next => simp at passed
  next visits =>
      obtain ⟨enough, all⟩ :=
        forSlots_completed good (fun index slot _ => gives index slot) visits
      rw [← length_forSlots (initializeSlot methods) .abort 0
        methods.numHandlesRequired] at enough
      refine ⟨?_, allSlots_configure configureKeeps ⟨enough, all⟩⟩
      unfold configure
      split <;> rfl

/-- An enabled component whose `Initialize` passes is ready for its rate. -/
theorem initializeComponent_ready
    (initializes : Initializes setup methods rate)
    (enabled : component.enabled = true)
    (passed : (initializeComponent methods component).2 = none) :
    ReadyFor methods.numHandlesRequired rate
      ((initializeComponent methods component).1.shape setup) := by
  simp only [initializeComponent, enabled, Bool.not_true,
    Bool.false_eq_true, if_false] at passed ⊢
  split at passed
  next => simp at passed
  next visits =>
      obtain ⟨enough, all⟩ :=
        forSlots_completed
          (fun slot => slot.map setup = some (HandleSetup.at rate))
          (initializeSlot_sets initializes) visits
      rw [← length_forSlots] at enough
      rw [shape_configure initializes.configureKeeps]
      exact ⟨rfl, rfl, (take_shape_eq_iff ..).mpr ⟨enough, all⟩⟩

/--
`Initialize` passes when every missing handle can be created, every handle is
initialised without an error, and handles set up for the rate are configured
without one.
-/
theorem initializeComponent_passes
    (initializes : Initializes setup methods rate)
    (creates : ∀ index, (methods.createHandle index).isSome = true)
    (initializesAll : ∀ handle, (methods.initializeHandle handle).2 = false)
    (configures :
      ∀ slot, slot.map setup = some (HandleSetup.at rate) →
        (methods.configureHandle slot).2 = none) :
    (initializeComponent methods component).2 = none := by
  by_cases enabled : component.enabled = true
  · have visits :
        (forSlots (initializeSlot methods) .abort 0
          methods.numHandlesRequired
          (component.resized methods.numHandlesRequired, ())).2 = none := by
      apply forSlots_passes (fun _ => True)
      · intro index slot shared _
        unfold initializeSlot
        split
        next absent =>
            have created := creates index
            cases slot with
            | none =>
                rw [Option.none_or] at absent
                simp [absent] at created
            | some handle =>
                simp at absent
        next handle present =>
            simp [initializesAll handle]
      · simp [resized]
        omega
      · simp
    have ready :=
      forSlots_completed
        (fun slot => slot.map setup = some (HandleSetup.at rate))
        (initializeSlot_sets initializes) visits
    rw [← length_forSlots] at ready
    simp only [initializeComponent, enabled, Bool.not_true,
      Bool.false_eq_true, if_false, visits]
    exact configure_passes configures ((take_shape_eq_iff ..).mpr ready)
  · rw [Bool.not_eq_true] at enabled
    simp [initializeComponent_of_disabled enabled]

/--
A ready component stays ready through `Initialize`, also when that fails, as
long as every handle comes out of initialising set up for the rate.
-/
theorem initializeComponent_keeps_ready
    (initializes : Initializes setup methods rate)
    (always :
      ∀ handle,
        setup (methods.initializeHandle handle).1 = HandleSetup.at rate)
    (ready :
      ReadyFor methods.numHandlesRequired rate (component.shape setup)) :
    ReadyFor methods.numHandlesRequired rate
      ((initializeComponent methods component).1.shape setup) := by
  obtain ⟨enough, all⟩ := (take_shape_eq_iff ..).mp ready.handles
  by_cases enabled : component.enabled = true
  · have unchanged :
        component.resized methods.numHandlesRequired =
          component.handles := by
      simp [resized, Nat.sub_eq_zero_of_le enough]
    have visits :=
      forSlots_related (initializeSlot methods) .abort
        (fun before after =>
          before.map setup = some (HandleSetup.at rate) →
            after.map setup = some (HandleSetup.at rate))
        (fun _ same => same)
        (fun index slot shared set => by
          cases slot with
          | none => simp at set
          | some handle => simp [initializeSlot, always handle])
        0 methods.numHandlesRequired component.handles ()
    have kept :
        ∀ slot ∈
            (forSlots (initializeSlot methods) .abort 0
              methods.numHandlesRequired
              (component.handles, ())).1.1.take methods.numHandlesRequired,
          slot.map setup = some (HandleSetup.at rate) :=
      forall_of_forall₂ (List.forall₂_take _ visits) all
    rw [← length_forSlots (initializeSlot methods) .abort 0 methods.numHandlesRequired
      component.handles ()] at enough
    have handles := (take_shape_eq_iff ..).mpr ⟨enough, kept⟩
    simp only [initializeComponent, enabled, Bool.not_true,
      Bool.false_eq_true, if_false, unchanged]
    split
    · exact ⟨ready.initialized, rfl, handles⟩
    · rw [shape_configure initializes.configureKeeps]
      exact ⟨rfl, rfl, handles⟩
  · rw [Bool.not_eq_true] at enabled
    rw [initializeComponent_of_disabled enabled]
    exact ready

end Initialize

section Queue

variable {rate : NativeRate}

/-- `AllocateRenderQueue` changes neither the shape nor the outcome. -/
theorem initializeWithQueue_shape
    (setup : Handle → HandleSetup)
    (methods : HandleMethods Handle)
    (component : ProcessingComponent Handle Sample) :
    (initializeWithQueue methods component).1.shape setup =
        (initializeComponent methods component).1.shape setup ∧
      (initializeWithQueue methods component).2 =
        (initializeComponent methods component).2 := by
  unfold initializeWithQueue
  split
  next failed exit ran =>
      simp [ran]
  next ready ran =>
      rw [ran]
      split <;> simp [shape]

/-- Handing out a packed frame keeps the setup of every handle. -/
theorem map_setup_bufferPacked
    {bufferFarend : List Sample → Stage (Option Handle) Exit}
    (kept :
      ∀ piece slot, (bufferFarend piece slot).1.map setup = slot.map setup)
    (count : Nat)
    (packed : List Sample)
    (slots : List (Option Handle)) :
    (bufferPacked bufferFarend count packed slots).1.map
        (Option.map setup) =
      slots.map (Option.map setup) := by
  simp only [bufferPacked]
  apply forSlots_map
  intro index slot _
  exact kept _ slot

/-- Reading the render queue out leaves the shape as it was. -/
theorem shape_readQueuedRenderData
    {bufferFarend : List Sample → Stage (Option Handle) Exit}
    (kept :
      ∀ piece slot, (bufferFarend piece slot).1.map setup = slot.map setup)
    (count : Nat) :
    (readQueuedRenderData bufferFarend count component).1.shape setup =
      component.shape setup := by
  unfold readQueuedRenderData
  split
  · rfl
  · simp only [shape]
    rw [runStages_frame (List.map (Option.map setup))]
    intro stage member slots
    obtain ⟨packed, -, rfl⟩ := List.mem_map.mp member
    exact map_setup_bufferPacked kept count packed slots

/-- Queueing a packed render frame leaves the shape as it was. -/
theorem shape_insertRenderData
    {ndebug : Bool}
    {read : Stage (ProcessingComponent Handle Sample) Exit}
    {packed : List Sample}
    (kept : (read component).1.shape setup = component.shape setup) :
    (insertRenderData ndebug read packed component).1.shape setup =
      component.shape setup := by
  have inserts :
      ∀ {before after : ProcessingComponent Handle Sample},
        insertPacked packed before = some after →
          after.shape setup = before.shape setup := by
    intro before after inserted
    unfold insertPacked at inserted
    split at inserted
    · obtain rfl := Option.some.inj inserted
      rfl
    · simp at inserted
  unfold insertRenderData
  split
  next inserted fits =>
      exact inserts fits
  next full =>
      split
      next failed exit ran =>
          rw [ran] at kept
          exact kept
      next emptied ran =>
          rw [ran] at kept
          split
          · exact kept
          · split
            next inserted fits =>
                exact (inserts fits).trans kept
            next => exact kept

/-- Reading the render queue out keeps what it keeps of each handle. -/
theorem allSlots_readQueuedRenderData
    {good : Option Handle → Prop}
    {bufferFarend : List Sample → Stage (Option Handle) Exit}
    (kept : ∀ piece slot, good slot → good (bufferFarend piece slot).1)
    (all : AllSlots good component) :
    AllSlots good
      (readQueuedRenderData bufferFarend component.numHandles component).1 := by
  unfold readQueuedRenderData
  split
  · exact all
  · refine runStages_invariant
      (fun handles : List (Option Handle) =>
        component.numHandles ≤ handles.length ∧
          ∀ slot ∈ handles.take component.numHandles, good slot)
      ?_ all
    intro stage member handles before
    obtain ⟨packed, -, rfl⟩ := List.mem_map.mp member
    dsimp only [bufferPacked]
    rw [length_forSlots]
    refine ⟨before.1, ?_⟩
    exact
      (forSlots_invariant good (fun _ => True)
        (fun index slot _ _ _ isGood _ => ⟨kept _ slot isGood, trivial⟩)
        before.1 before.2 trivial).1

/-- Queueing a packed render frame changes no handle. -/
theorem allSlots_insertRenderData
    {good : Option Handle → Prop}
    {ndebug : Bool}
    {read : Stage (ProcessingComponent Handle Sample) Exit}
    {packed : List Sample}
    (all : AllSlots good component)
    (afterRead : AllSlots good (read component).1) :
    AllSlots good (insertRenderData ndebug read packed component).1 := by
  have inserts :
      ∀ {before after : ProcessingComponent Handle Sample},
        insertPacked packed before = some after →
          AllSlots good before → AllSlots good after := by
    intro before after inserted held
    unfold insertPacked at inserted
    split at inserted
    · obtain rfl := Option.some.inj inserted
      exact held
    · cases inserted
  unfold insertRenderData
  split
  next inserted fits =>
      exact inserts fits all
  next full =>
      split
      next failed exit ran =>
          rw [ran] at afterRead
          exact afterRead
      next emptied ran =>
          rw [ran] at afterRead
          split
          · exact afterRead
          · split
            next inserted fits =>
                exact inserts fits afterRead
            next => exact afterRead

end Queue

end ProcessingComponent

end ApmSdk.AudioProcessing
