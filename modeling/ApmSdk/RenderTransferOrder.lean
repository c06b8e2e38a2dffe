import ApmSdk.RenderTransfer

namespace ApmSdk.RenderTransfer

/-!
# Delivery of render frames in order

At any time the analysed frames are, in order, those delivered to the far
ends, those in the queue and the one a render call still has in hand.  One
step breaks this: the second insert of a build without `RTC_DCHECK`.
-/

variable {Sample : Type} {build : Build}

/--
Every analysed frame has been delivered once and in order, or is still on its
way in the order of analysis.
-/
def Intact
    (build : Build)
    (transfer : Transfer Sample) : Prop :=
  transfer.analysed =
    transfer.farEnd ++
      (transfer.renderSignalQueue.contents ++ transfer.inHand).map
        (build.component.unpack build.format)

/-- The flush has emptied the queue when the second insert comes. -/
def Flushed (transfer : Transfer Sample) : Prop :=
  transfer.renderPoint = .retry →
    transfer.renderSignalQueue.contents = []

/-- The second insert has effect only in a build that evaluates it. -/
def Evaluated
    (build : Build) : Step Sample build.format → Prop
  | .renderRetry => build.ndebug = false
  | _ => True

/-- Nothing has been analysed when the queue is allocated. -/
theorem intact_allocated (template : List Sample) :
    Intact build (allocated template) := by
  simp [Intact, allocated, Transfer.inHand]

/-- No render call is under way when the queue is allocated. -/
theorem flushed_allocated (template : List Sample) :
    Flushed (allocated template) := by
  simp [Flushed, allocated]

/-- A render call takes one more frame in hand. -/
theorem intact_renderCall
    {transfer : Transfer Sample}
    (intact : Intact build transfer)
    (idle : transfer.renderPoint = .idle)
    (frame : RenderFrame Sample build.format) :
    Intact build (transfer.renderCall build.component frame) := by
  simp only [Intact, Transfer.inHand, idle, List.append_nil]
    at intact
  simp [Intact, Transfer.inHand, Transfer.renderCall, intact,
    Component.unpack_pack]

/-- An insert that succeeds moves the frame in hand to the queue's end. -/
theorem intact_of_insert
    {transfer : Transfer Sample}
    (intact : Intact build transfer)
    (holding : transfer.inHand = [transfer.renderQueueBuffer])
    {queue : SwapQueue (List Sample)}
    {returned : List Sample}
    (inserted :
      transfer.renderSignalQueue.insert transfer.renderQueueBuffer =
        some (queue, returned)) :
    Intact build
      { transfer with
        renderSignalQueue := queue
        renderQueueBuffer := returned
        renderPoint := .idle } := by
  rw [Intact, holding] at intact
  simp [Intact, Transfer.inHand, intact,
    SwapQueue.contents_insert inserted]

/-- The first insert keeps the frame: it goes to the queue or stays in hand. -/
theorem intact_renderInsert
    {transfer : Transfer Sample}
    (intact : Intact build transfer)
    (atInsert : transfer.renderPoint = .insert) :
    Intact build transfer.renderInsert := by
  have holding : transfer.inHand = [transfer.renderQueueBuffer] := by
    simp [Transfer.inHand, atInsert]
  unfold Transfer.renderInsert
  split
  · rename_i queue returned inserted
    exact intact_of_insert intact holding inserted
  · rw [Intact, holding] at intact
    simpa [Intact, Transfer.inHand] using intact

/-- A round of the read loop delivers the first queued frame, or ends the loop. -/
theorem intact_readQueued
    {transfer : Transfer Sample}
    {finish : Transfer Sample → Transfer Sample}
    (intact : Intact build transfer)
    (finished : Intact build (finish transfer)) :
    Intact build (transfer.readQueued build finish) := by
  unfold Transfer.readQueued
  split
  · rename_i queue removed taken
    have sameHand :
        ({ transfer with
          renderSignalQueue := queue
          captureQueueBuffer := removed
          farEnd :=
            transfer.farEnd ++
              [build.component.unpack build.format removed] } :
            Transfer Sample).inHand =
          transfer.inHand :=
      rfl
    rw [Intact, SwapQueue.contents_remove taken] at intact
    rw [Intact, sameHand]
    simpa using intact
  · exact finished

/-- Moving the render thread with the frame still in hand. -/
theorem intact_of_inHand
    {source target : Transfer Sample}
    (intact : Intact build source)
    (sameAnalysed : target.analysed = source.analysed)
    (sameFarEnd : target.farEnd = source.farEnd)
    (sameQueue :
      target.renderSignalQueue = source.renderSignalQueue)
    (sameHand : target.inHand = source.inHand) :
    Intact build target := by
  rw [Intact, sameAnalysed, sameFarEnd, sameQueue, sameHand]
  exact intact

/-- The second insert keeps the frame exactly if it is evaluated. -/
theorem intact_renderRetry_iff
    {transfer : Transfer Sample}
    (intact : Intact build transfer)
    (flushed : Flushed transfer)
    (positive : 0 < transfer.renderSignalQueue.queue.length)
    (atRetry : transfer.renderPoint = .retry) :
    Intact build (transfer.renderRetry build.ndebug) ↔
      build.ndebug = false := by
  have holding : transfer.inHand = [transfer.renderQueueBuffer] := by
    simp [Transfer.inHand, atRetry]
  cases ndebug : build.ndebug with
  | true =>
      simp only [Transfer.renderRetry, if_true, reduceCtorEq, iff_false]
      intro after
      rw [Intact, holding] at intact
      simp [Intact, Transfer.inHand, intact] at after
  | false =>
      have room :
          transfer.renderSignalQueue.contents.length <
            transfer.renderSignalQueue.queue.length := by
        rw [flushed atRetry]
        exact positive
      obtain ⟨queue, returned, inserted⟩ :=
        SwapQueue.exists_insert room transfer.renderQueueBuffer
      simp only [Transfer.renderRetry, Bool.false_eq_true, if_false,
        inserted, iff_true]
      exact intact_of_insert intact holding inserted

/-- Every step of either thread, exactly. -/
theorem intact_next_iff
    {source target : Transfer Sample}
    {step : Step Sample build.format}
    (intact : Intact build source)
    (flushed : Flushed source)
    (positive : 0 < source.renderSignalQueue.queue.length)
    (taken : source.next build step = some target) :
    Intact build target ↔ Evaluated build step := by
  cases step with
  | renderCall frame =>
      simp only [Transfer.next, Option.ite_none_right_eq_some,
        Option.some.injEq] at taken
      obtain ⟨⟨idle, -⟩, rfl⟩ := taken
      exact iff_of_true (intact_renderCall intact idle frame) trivial
  | renderInsert =>
      simp only [Transfer.next, Option.ite_none_right_eq_some,
        Option.some.injEq] at taken
      obtain ⟨atInsert, rfl⟩ := taken
      exact iff_of_true (intact_renderInsert intact atInsert) trivial
  | renderLock =>
      simp only [Transfer.next, Option.ite_none_right_eq_some,
        Option.some.injEq] at taken
      obtain ⟨⟨waiting, -⟩, rfl⟩ := taken
      refine iff_of_true ?_ trivial
      exact intact_of_inHand intact rfl rfl rfl
        (by simp [Transfer.inHand, waiting])
  | renderRead =>
      simp only [Transfer.next, Option.ite_none_right_eq_some,
        Option.some.injEq] at taken
      obtain ⟨flushing, rfl⟩ := taken
      refine iff_of_true (intact_readQueued intact ?_) trivial
      exact intact_of_inHand intact rfl rfl rfl
        (by simp [Transfer.inHand, Transfer.endFlush, flushing])
  | renderRetry =>
      simp only [Transfer.next, Option.ite_none_right_eq_some,
        Option.some.injEq] at taken
      obtain ⟨atRetry, rfl⟩ := taken
      exact intact_renderRetry_iff intact flushed positive atRetry
  | captureCall =>
      simp only [Transfer.next, Option.ite_none_right_eq_some,
        Option.some.injEq] at taken
      obtain ⟨-, rfl⟩ := taken
      exact iff_of_true (intact_of_inHand intact rfl rfl rfl rfl) trivial
  | captureRead =>
      simp only [Transfer.next, Option.ite_none_right_eq_some,
        Option.some.injEq] at taken
      obtain ⟨-, rfl⟩ := taken
      refine iff_of_true (intact_readQueued intact ?_) trivial
      exact intact_of_inHand intact rfl rfl rfl rfl

/-- A round of the read loop keeps the size of the queue. -/
theorem size_readQueued
    (build : Build)
    (transfer : Transfer Sample)
    (finish : Transfer Sample → Transfer Sample)
    (sameQueue :
      (finish transfer).renderSignalQueue = transfer.renderSignalQueue) :
    (transfer.readQueued build finish).renderSignalQueue.queue.length =
      transfer.renderSignalQueue.queue.length := by
  unfold Transfer.readQueued
  split
  · rename_i queue removed taken
    exact SwapQueue.length_remove taken
  · rw [sameQueue]

/-- So does every step. -/
theorem size_next
    {source target : Transfer Sample}
    {step : Step Sample build.format}
    (taken : source.next build step = some target) :
    target.renderSignalQueue.queue.length =
      source.renderSignalQueue.queue.length := by
  cases step with
  | renderInsert =>
      simp only [Transfer.next, Option.ite_none_right_eq_some,
        Option.some.injEq] at taken
      obtain ⟨-, rfl⟩ := taken
      unfold Transfer.renderInsert
      split
      · rename_i queue returned inserted
        exact SwapQueue.length_insert inserted
      · rfl
  | renderRead =>
      simp only [Transfer.next, Option.ite_none_right_eq_some,
        Option.some.injEq] at taken
      obtain ⟨-, rfl⟩ := taken
      exact size_readQueued build source Transfer.endFlush rfl
  | renderRetry =>
      simp only [Transfer.next, Option.ite_none_right_eq_some,
        Option.some.injEq] at taken
      obtain ⟨-, rfl⟩ := taken
      unfold Transfer.renderRetry
      split
      · rfl
      · split
        · rename_i queue returned inserted
          exact SwapQueue.length_insert inserted
        · rfl
  | captureRead =>
      simp only [Transfer.next, Option.ite_none_right_eq_some,
        Option.some.injEq] at taken
      obtain ⟨-, rfl⟩ := taken
      exact size_readQueued build source Transfer.endRead rfl
  | _ =>
      simp only [Transfer.next, Option.ite_none_right_eq_some,
        Option.some.injEq] at taken
      obtain ⟨-, rfl⟩ := taken
      rfl

/-- A read loop ends only with an empty queue. -/
theorem contents_readQueued
    (build : Build)
    (transfer : Transfer Sample)
    (finish : Transfer Sample → Transfer Sample)
    (sameQueue :
      (finish transfer).renderSignalQueue = transfer.renderSignalQueue) :
    transfer.readQueued build finish = finish transfer ∧
        (finish transfer).renderSignalQueue.contents = [] ∨
      (transfer.readQueued build finish).renderPoint =
          transfer.renderPoint ∧
        (transfer.readQueued build finish).capturePoint =
          transfer.capturePoint ∧
        ∃ removed,
          transfer.renderSignalQueue.contents =
            removed ::
              (transfer.readQueued build
                finish).renderSignalQueue.contents := by
  unfold Transfer.readQueued
  split
  · rename_i queue removed taken
    exact .inr ⟨rfl, rfl, removed, SwapQueue.contents_remove taken⟩
  · rename_i refused
    rw [sameQueue]
    exact .inl ⟨rfl, SwapQueue.contents_of_remove_none refused⟩

/-- Between the flush and the second insert the queue stays empty. -/
theorem flushed_next
    {source target : Transfer Sample}
    {step : Step Sample build.format}
    (flushed : Flushed source)
    (taken : source.next build step = some target) :
    Flushed target := by
  cases step with
  | renderCall frame =>
      simp only [Transfer.next, Option.ite_none_right_eq_some,
        Option.some.injEq] at taken
      obtain ⟨-, rfl⟩ := taken
      simp [Flushed, Transfer.renderCall]
  | renderInsert =>
      simp only [Transfer.next, Option.ite_none_right_eq_some,
        Option.some.injEq] at taken
      obtain ⟨-, rfl⟩ := taken
      unfold Transfer.renderInsert
      split <;> simp [Flushed]
  | renderLock =>
      simp only [Transfer.next, Option.ite_none_right_eq_some,
        Option.some.injEq] at taken
      obtain ⟨-, rfl⟩ := taken
      simp [Flushed]
  | renderRead =>
      simp only [Transfer.next, Option.ite_none_right_eq_some,
        Option.some.injEq] at taken
      obtain ⟨flushing, rfl⟩ := taken
      rcases contents_readQueued build source Transfer.endFlush rfl with
        ⟨same, empty⟩ | ⟨samePoint, -, -⟩
      · intro _
        rw [same, empty]
      · intro atRetry
        rw [samePoint, flushing] at atRetry
        contradiction
  | renderRetry =>
      simp only [Transfer.next, Option.ite_none_right_eq_some,
        Option.some.injEq] at taken
      obtain ⟨-, rfl⟩ := taken
      unfold Transfer.renderRetry
      split
      · simp [Flushed]
      · split <;> simp [Flushed]
  | captureCall =>
      simp only [Transfer.next, Option.ite_none_right_eq_some,
        Option.some.injEq] at taken
      obtain ⟨-, rfl⟩ := taken
      exact flushed
  | captureRead =>
      simp only [Transfer.next, Option.ite_none_right_eq_some,
        Option.some.injEq] at taken
      obtain ⟨-, rfl⟩ := taken
      rcases contents_readQueued build source Transfer.endRead rfl with
        ⟨same, empty⟩ | ⟨samePoint, -, removed, contents⟩
      · intro _
        rw [same, empty]
      · intro atRetry
        rw [samePoint] at atRetry
        rw [flushed atRetry] at contents
        simp at contents

/-- Only the capture thread's own loop ends its reading. -/
theorem label_of_endRead
    {source target : Transfer Sample}
    {step : Step Sample build.format}
    (taken : source.next build step = some target)
    (reading : source.capturePoint = .read)
    (ended : target.capturePoint = .idle) :
    source.readQueued build Transfer.endRead = target := by
  cases step with
  | captureRead =>
      simpa [Transfer.next, reading] using taken
  | captureCall =>
      simp [Transfer.next, reading] at taken
  | renderCall frame =>
      simp only [Transfer.next, Option.ite_none_right_eq_some,
        Option.some.injEq] at taken
      simp [← taken.2, Transfer.renderCall, reading] at ended
  | renderInsert =>
      simp only [Transfer.next, Option.ite_none_right_eq_some,
        Option.some.injEq, Transfer.renderInsert] at taken
      split at taken <;> simp [← taken.2, reading] at ended
  | renderLock =>
      simp [Transfer.next, reading] at taken
  | renderRead =>
      simp only [Transfer.next, Option.ite_none_right_eq_some,
        Option.some.injEq, Transfer.readQueued] at taken
      split at taken <;>
        simp [← taken.2, Transfer.endFlush, reading] at ended
  | renderRetry =>
      simp only [Transfer.next, Option.ite_none_right_eq_some,
        Option.some.injEq, Transfer.renderRetry] at taken
      split at taken
      · simp [← taken.2, reading] at ended
      · split at taken <;> simp [← taken.2, reading] at ended

/-- When a capture call's read loop ends, everything inserted is delivered. -/
theorem contents_of_endRead
    {source target : Transfer Sample}
    {step : Step Sample build.format}
    (taken : source.next build step = some target)
    (reading : source.capturePoint = .read)
    (ended : target.capturePoint = .idle) :
    target.renderSignalQueue.contents = [] := by
  obtain rfl := label_of_endRead taken reading ended
  rcases contents_readQueued build source Transfer.endRead rfl with
    ⟨same, empty⟩ | ⟨-, samePoint, -⟩
  · rw [same, empty]
  · rw [samePoint, reading] at ended
    contradiction

/--
In every interleaving of render and capture calls, for each of the components
and in both builds: the frames stay intact exactly if every second insert is
evaluated, and a capture call leaves no frame in the queue behind.
-/
theorem run_intact_iff_evaluated
    (build : Build)
    {template : List Sample}
    {moves : List (Move (Transfer Sample) (Step Sample build.format))}
    {final : Transfer Sample}
    (path : Path (transferStep build) (allocated template) moves final) :
    ((∀ move ∈ moves, Intact build move.target) ↔
        ∀ move ∈ moves, Evaluated build move.label) ∧
      ∀ move ∈ moves,
        move.source.capturePoint = .read →
        move.target.capturePoint = .idle →
        move.target.renderSignalQueue.contents = [] := by
  let Prepared := fun transfer : Transfer Sample =>
    Flushed transfer ∧ 0 < transfer.renderSignalQueue.queue.length
  have preserved :
      ∀ {source label target},
        Prepared source →
          transferStep build source label target →
            Prepared target := by
    rintro source label target ⟨flushed, positive⟩ taken
    refine ⟨flushed_next flushed taken, ?_⟩
    rw [size_next taken]
    exact positive
  have start : Prepared (allocated template) :=
    ⟨flushed_allocated template, by simp [allocated, SwapQueue.create,
      kMaxNumFramesToBuffer]⟩
  have everywhere := (Path.invariant Prepared preserved start path).1
  constructor
  · rw [← Path.forall_target_iff_forall_guard
      (fun transfer => Intact build transfer ∧ Prepared transfer)
      (fun _ step => Evaluated build step) _
      ⟨intact_allocated template, start⟩ path]
    · constructor
      · intro intact move member
        exact ⟨intact move member, (everywhere move member).2⟩
      · intro both move member
        exact (both move member).1
    · rintro source label target ⟨intact, prepared⟩ taken
      have later := preserved prepared taken
      rw [← intact_next_iff intact prepared.1 prepared.2 taken]
      exact ⟨fun both => both.1, fun after => ⟨after, later⟩⟩
  · intro move member reading ended
    exact contents_of_endRead (path.step_of_mem member) reading ended

/-- The echo canceller of a mono call at 8 kHz, compiled with `NDEBUG`. -/
def releaseBuild : Build where
  component := .echoCancellation
  format :=
    { numOutputChannels := 1
      numReverseChannels := 1
      numProcChannels := 1
      numFramesPerBand := 80
      outputPositive := Nat.one_pos
      reversePositive := Nat.one_pos
      procPositive := Nat.one_pos
      bandLength := .inl rfl }
  ndebug := true

/-- Ten milliseconds of silence. -/
def silence : RenderFrame Int releaseBuild.format where
  splitBands := [List.replicate 80 0]
  mixedLowPassData := List.replicate 80 0
  channelCount := rfl
  bandLength := by decide
  mixedLength := by decide

/-- One more render call than the queue has entries, and no capture call. -/
def overfullSteps : List (Step Int releaseBuild.format) :=
  (List.replicate (kMaxNumFramesToBuffer + 1)
      [.renderCall silence, .renderInsert]).flatten ++
    .renderLock ::
      (List.replicate (kMaxNumFramesToBuffer + 1) .renderRead ++
        [.renderRetry])

/-- Those calls can be made. -/
theorem overfullSteps_taken :
    ((overfullSteps.foldlM (Transfer.next releaseBuild)
        (allocated (List.replicate 160 0))).map fun final =>
      (final.analysed.length, final.farEnd.length,
        final.renderSignalQueue.contents.length,
        final.inHand.length)) =
      some (101, 100, 0, 0) := by
  decide +kernel

/-- The equivalence at that run. -/
theorem run_intact_iff_evaluated_overfull :
    ∃ moves :
        List (Move (Transfer Int) (Step Int releaseBuild.format)),
      moves.map Move.label = overfullSteps ∧
        ((∀ move ∈ moves, Intact releaseBuild move.target) ↔
            ∀ move ∈ moves, Evaluated releaseBuild move.label) ∧
        ∀ move ∈ moves,
          move.source.capturePoint = .read →
          move.target.capturePoint = .idle →
          move.target.renderSignalQueue.contents = [] := by
  obtain ⟨final, followed, -⟩ :=
    Option.map_eq_some_iff.mp overfullSteps_taken
  obtain ⟨moves, path, labels⟩ := Path.exists_of_foldlM followed
  exact ⟨moves, labels,
    run_intact_iff_evaluated releaseBuild path⟩

/-- Of 101 frames analysed 100 are delivered, and nothing is on its way. -/
theorem overfull_not_intact :
    ∃ (moves :
        List (Move (Transfer Int) (Step Int releaseBuild.format)))
      (final : Transfer Int),
      Path (transferStep releaseBuild)
          (allocated (List.replicate 160 0)) moves final ∧
        moves.map Move.label = overfullSteps ∧
        final.analysed.length = 101 ∧
        final.farEnd.length = 100 ∧
        ¬ ∀ move ∈ moves, Intact releaseBuild move.target := by
  obtain ⟨final, followed, counts⟩ :=
    Option.map_eq_some_iff.mp overfullSteps_taken
  obtain ⟨moves, path, labels⟩ := Path.exists_of_foldlM followed
  simp only [Prod.mk.injEq] at counts
  obtain ⟨analysed, delivered, queued, held⟩ := counts
  refine ⟨moves, final, path, labels, analysed, delivered, ?_⟩
  intro intact
  have last : Intact releaseBuild final :=
    path.holds_final (intact_allocated _) intact
  have lengths := congrArg List.length last
  simp only [List.length_append, List.length_map] at lengths
  omega

end ApmSdk.RenderTransfer
