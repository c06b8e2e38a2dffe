import ApmSdk.SplittingFilter

namespace ApmSdk.Qmf

/-!
# Splitting and joining bands

`WebRtcSpl_AnalysisQMF` and `WebRtcSpl_SynthesisQMF` filter two branches of a frame and
combine them.  A run of frames keeps both filter states from one frame to the next.
-/

/-- A pair of branches: their filters, what of an item each of them reads, and what is made
of their outputs. -/
structure Branches (Item Out : Type) where
  first : Coefficients
  second : Coefficients
  parts : Item → Int × Int
  combine : Int → Int → Out

namespace Branches

variable {Item Out : Type} (branches : Branches Item Out)

/-- Both branches of a frame. -/
def filter
    (items : List Item)
    (filterState1 filterState2 : FilterState) :
    Option (List Out × FilterState × FilterState) := do
  let halfIn1 := items.map fun item => (branches.parts item).1
  let halfIn2 := items.map fun item => (branches.parts item).2
  let (filter1, filterState1) ←
    allPassQMF halfIn1 branches.first filterState1
  let (filter2, filterState2) ←
    allPassQMF halfIn2 branches.second filterState2
  return (List.zipWith branches.combine filter1 filter2,
    filterState1, filterState2)

end Branches

/-- Neighbouring samples, even ones first. -/
def pairs : List Int → List (Int × Int)
  | even :: odd :: rest => (even, odd) :: pairs rest
  | [_] | [] => []

/-- The branches of the analysis, which give the low and the high band. -/
def analysis : Branches (Int × Int) (Int × Int) where
  first := kAllPassFilter1
  second := kAllPassFilter2
  parts pair := (int32 (pair.2 * 2 ^ 10), int32 (pair.1 * 2 ^ 10))
  combine filter1 filter2 :=
    (satW32ToW16 (int32 (filter1 + filter2 + 1024) >>> (11 : Nat)),
      satW32ToW16 (int32 (filter1 - filter2 + 1024) >>> (11 : Nat)))

/-- `WebRtcSpl_AnalysisQMF`; the samples of both bands are paired. -/
def analysisQMF
    (inData : List Int)
    (filterState1 filterState2 : FilterState) :
    Option (List (Int × Int) × FilterState × FilterState) :=
  analysis.filter (pairs inData) filterState1 filterState2

/-- The branches of the synthesis, which give the even and the odd samples. -/
def synthesis : Branches (Int × Int) (Int × Int) where
  first := kAllPassFilter2
  second := kAllPassFilter1
  parts bands :=
    (int32 ((bands.1 + bands.2) * 2 ^ 10), int32 ((bands.1 - bands.2) * 2 ^ 10))
  combine filter1 filter2 :=
    (satW32ToW16 (int32 (filter2 + 512) >>> (10 : Nat)),
      satW32ToW16 (int32 (filter1 + 512) >>> (10 : Nat)))

/-- `WebRtcSpl_SynthesisQMF`; neighbouring samples are paired. -/
def synthesisQMF
    (lowBand highBand : List Int)
    (filterState1 filterState2 : FilterState) :
    Option (List (Int × Int) × FilterState × FilterState) :=
  synthesis.filter (lowBand.zip highBand) filterState1 filterState2

/-! ## Runs -/

/-- A sample of 16 bits. -/
def IsW16 (sample : Int) : Prop :=
  -2 ^ 15 ≤ sample ∧ sample < 2 ^ 15

/-- A frame for the analysis. -/
structure AnalysisFrame where
  inData : List Int
  range : ∀ sample ∈ inData, IsW16 sample
  even : inData.length % 2 = 0
  present : inData ≠ []
  short : inData.length / 2 ≤ kMaxBandFrameLength

/-- A frame for the synthesis. -/
structure SynthesisFrame where
  lowBand : List Int
  highBand : List Int
  lowRange : ∀ sample ∈ lowBand, IsW16 sample
  highRange : ∀ sample ∈ highBand, IsW16 sample
  size : lowBand.length = highBand.length
  present : lowBand ≠ []
  short : lowBand.length ≤ kMaxBandFrameLength

/-- What a run has given, and both filter states. -/
structure FilterRun where
  output : List (Int × Int)
  filterState1 : FilterState
  filterState2 : FilterState

/-- Nothing has been filtered. -/
def FilterRun.zero : FilterRun :=
  ⟨[], .zero, .zero⟩

/-- A frame of the analysis. -/
def FilterRun.analysisQMF
    (run : FilterRun)
    (frame : AnalysisFrame) : Option FilterRun := do
  let (output, filterState1, filterState2) ←
    Qmf.analysisQMF frame.inData run.filterState1 run.filterState2
  return ⟨run.output ++ output, filterState1, filterState2⟩

/-- A frame of the synthesis. -/
def FilterRun.synthesisQMF
    (run : FilterRun)
    (frame : SynthesisFrame) : Option FilterRun := do
  let (output, filterState1, filterState2) ←
    Qmf.synthesisQMF frame.lowBand frame.highBand
      run.filterState1 run.filterState2
  return ⟨run.output ++ output, filterState1, filterState2⟩

/-! ## Both branches at once -/

namespace Branches

variable (branches : Branches (Int × Int) (Int × Int))

/-- Both branches over integers of any size. -/
def exact :
    Transducer ((Section × Section × Section) × Section × Section × Section)
      (Int × Int) (Int × Int) :=
  (allPassChain branches.first).parallel (allPassChain branches.second)
    branches.parts branches.combine

/-- The bounds of both branches. -/
structure Bounds where
  first : GainChain branches.first
  second : GainChain branches.second

variable {branches}

/-- An item that both branches can read. -/
def Bounds.Accepts (bounds : branches.Bounds) (item : Int × Int) : Prop :=
  |(branches.parts item).1| ≤ bounds.first.first.inBound ∧
    |(branches.parts item).2| ≤ bounds.second.first.inBound

/-- The states of both branches before an item has been read. -/
def start :
    (Section × Section × Section) × Section × Section × Section :=
  (FilterState.zero.sections, FilterState.zero.sections)

/-- What a run is after some items: that of the exact branches, within their bounds. -/
structure Sound
    (bounds : branches.Bounds)
    (items : List (Int × Int))
    (run : FilterRun) : Prop where
  output : run.output = branches.exact.outputs start items
  states :
    (run.filterState1.sections, run.filterState2.sections) =
      branches.exact.final start items
  first : bounds.first.Sound run.filterState1
  second : bounds.second.Sound run.filterState2

variable {bounds : branches.Bounds}

theorem Sound.zero : Sound bounds [] .zero where
  output := rfl
  states := rfl
  first := .zero _
  second := .zero _

theorem sections_inj
    {state other : FilterState}
    (same : state.sections = other.sections) :
    state = other := by
  obtain ⟨first, second, third⟩ := state
  obtain ⟨rfl, rest⟩ := Prod.mk.inj same
  obtain ⟨rfl, rfl⟩ := Prod.mk.inj rest
  rfl

/-- What a run is after some items is one thing. -/
theorem Sound.eq
    {items : List (Int × Int)}
    {run other : FilterRun}
    (sound : Sound bounds items run)
    (otherSound : Sound bounds items other) :
    run = other := by
  obtain ⟨sameFirst, sameSecond⟩ :=
    Prod.mk.inj (sound.states.trans otherSound.states.symm)
  obtain ⟨output, first, second⟩ := run
  obtain rfl : output = other.output :=
    sound.output.trans otherSound.output.symm
  obtain rfl := sections_inj sameFirst
  obtain rfl := sections_inj sameSecond
  rfl

/-- A frame of items that both branches can read is filtered as by the exact branches. -/
theorem Sound.filter
    {items : List (Int × Int)}
    {run : FilterRun}
    (sound : Sound bounds items run)
    {block : List (Int × Int)}
    (present : block ≠ [])
    (accepted : ∀ item ∈ block, bounds.Accepts item) :
    ∃ output filterState1 filterState2,
      branches.filter block run.filterState1 run.filterState2 =
          some (output, filterState1, filterState2) ∧
        Sound bounds (items ++ block)
          ⟨run.output ++ output, filterState1, filterState2⟩ := by
  have accepted1 :
      ∀ sample ∈ block.map fun item => (branches.parts item).1,
        |sample| ≤ bounds.first.first.inBound := by
    intro sample member
    obtain ⟨item, inBlock, rfl⟩ := List.mem_map.mp member
    exact (accepted item inBlock).1
  have accepted2 :
      ∀ sample ∈ block.map fun item => (branches.parts item).2,
        |sample| ≤ bounds.second.first.inBound := by
    intro sample member
    obtain ⟨item, inBlock, rfl⟩ := List.mem_map.mp member
    exact (accepted item inBlock).2
  obtain ⟨next1, filtered1, final1, sound1, -⟩ :=
    sound.first.allPassQMF (mt List.map_eq_nil_iff.mp present) accepted1
  obtain ⟨next2, filtered2, final2, sound2, -⟩ :=
    sound.second.allPassQMF (mt List.map_eq_nil_iff.mp present) accepted2
  have outputs :=
    Transducer.outputs_parallel (allPassChain branches.first)
      (allPassChain branches.second) branches.parts branches.combine
      run.filterState1.sections run.filterState2.sections block
  have final :=
    Transducer.final_parallel (allPassChain branches.first)
      (allPassChain branches.second) branches.parts branches.combine
      run.filterState1.sections run.filterState2.sections block
  refine
    ⟨branches.exact.outputs
        (run.filterState1.sections, run.filterState2.sections) block,
      next1, next2, ?filtered, ?sound⟩
  case filtered =>
    rw [exact, outputs, Branches.filter, filtered1, filtered2]
    rfl
  case sound =>
    refine ⟨?_, ?_, sound1, sound2⟩
    · rw [Transducer.outputs_append, ← sound.output, ← sound.states]
    · rw [Transducer.final_append, ← sound.states, final1, final2]
      exact final.symm

end Branches

/-! ## Frames -/

open Branches in
/-- Frames that are each filtered as blocks of items are filtered as all of their items
together. -/
theorem returns_frames
    {Frame : Type}
    {branches : Branches (Int × Int) (Int × Int)}
    {bounds : branches.Bounds}
    {items : Frame → List (Int × Int)}
    {perform : FilterRun → Frame → Option FilterRun}
    (performs :
      ∀ run frame,
        perform run frame =
          (branches.filter (items frame) run.filterState1
            run.filterState2).map fun filtered =>
              ⟨run.output ++ filtered.1, filtered.2.1, filtered.2.2⟩)
    (present : ∀ frame, items frame ≠ [])
    (accepted : ∀ frame, ∀ item ∈ items frame, bounds.Accepts item)
    (frames : List Frame) :
    Returns (frames.foldlM perform .zero)
      (Sound bounds (frames.flatMap items)) := by
  induction frames using List.reverseRecOn with
  | nil =>
      exact .pure .zero
  | append_singleton frames frame inductionHypothesis =>
      rw [List.foldlM_append]
      refine .bind inductionHypothesis fun run sound => ?_
      obtain ⟨output, filterState1, filterState2, filtered, next⟩ :=
        sound.filter (present frame) (accepted frame)
      have taken :
          perform run frame =
            some ⟨run.output ++ output, filterState1, filterState2⟩ := by
        rw [performs, filtered]
        rfl
      rw [List.foldlM_cons, taken, List.flatMap_append, List.flatMap_singleton]
      exact .pure next

/-- The samples of 16 bits in Q10 are within the bounds. -/
theorem scaled_range
    {value : Int}
    (range : -2 ^ 16 ≤ value ∧ value ≤ 2 ^ 16) :
    |int32 (value * 2 ^ 10)| ≤ 2 ^ 26 := by
  rw [int32_of_bounds (by omega) (by omega), abs_le]
  omega

/-- The bounds of the analysis. -/
def analysisBounds : analysis.Bounds :=
  ⟨filter1Gains, filter2Gains⟩

/-- The bounds of the synthesis. -/
def synthesisBounds : synthesis.Bounds :=
  ⟨filter2Gains, filter1Gains⟩

theorem mem_pairs
    {samples : List Int}
    {pair : Int × Int}
    (member : pair ∈ pairs samples) :
    pair.1 ∈ samples ∧ pair.2 ∈ samples := by
  induction samples using pairs.induct with
  | case1 even odd rest inductionHypothesis =>
      obtain rfl | inRest := List.mem_cons.mp member
      · simp
      · obtain ⟨first, second⟩ := inductionHypothesis inRest
        exact ⟨.tail _ (.tail _ first), .tail _ (.tail _ second)⟩
  | case2 | case3 =>
      contradiction

/-- An even number of samples is cut off at a pair. -/
theorem pairs_append
    {samples more : List Int}
    (even : samples.length % 2 = 0) :
    pairs (samples ++ more) = pairs samples ++ pairs more := by
  induction samples using pairs.induct with
  | case1 first second rest inductionHypothesis =>
      rw [List.length_cons, List.length_cons] at even
      rw [List.cons_append, List.cons_append, pairs, pairs,
        inductionHypothesis (by omega), List.cons_append]
  | case2 =>
      contradiction
  | case3 =>
      rfl

theorem pairs_flatMap (frames : List AnalysisFrame) :
    frames.flatMap (fun frame => pairs frame.inData) =
      pairs (frames.flatMap AnalysisFrame.inData) := by
  induction frames with
  | nil =>
      rfl
  | cons frame rest inductionHypothesis =>
      rw [List.flatMap_cons, List.flatMap_cons, pairs_append frame.even,
        inductionHypothesis]

theorem zip_flatMap (frames : List SynthesisFrame) :
    frames.flatMap (fun frame => frame.lowBand.zip frame.highBand) =
      (frames.flatMap SynthesisFrame.lowBand).zip
        (frames.flatMap SynthesisFrame.highBand) := by
  induction frames with
  | nil =>
      rfl
  | cons frame rest inductionHypothesis =>
      rw [List.flatMap_cons, List.flatMap_cons, List.flatMap_cons,
        List.zip_append frame.size, inductionHypothesis]

/-- Whatever the frames, the analysis returns, with what the exact branches give for all of
their samples. -/
theorem returns_analysis (frames : List AnalysisFrame) :
    Returns (frames.foldlM FilterRun.analysisQMF .zero)
      (Branches.Sound analysisBounds
        (pairs (frames.flatMap AnalysisFrame.inData))) := by
  rw [← pairs_flatMap]
  refine returns_frames ?performs ?present ?accepted frames
  case performs =>
    intro run frame
    rw [FilterRun.analysisQMF, analysisQMF]
    cases analysis.filter (pairs frame.inData) run.filterState1
      run.filterState2 <;> rfl
  case present =>
    intro frame
    obtain ⟨inData, -, even, present, -⟩ := frame
    match inData with
    | [] => contradiction
    | [_] => contradiction
    | _ :: _ :: _ => exact List.cons_ne_nil _ _
  case accepted =>
    intro frame pair member
    obtain ⟨first, second⟩ := mem_pairs member
    have firstRange := frame.range _ first
    have secondRange := frame.range _ second
    unfold IsW16 at firstRange secondRange
    exact
      ⟨scaled_range ⟨by omega, by omega⟩, scaled_range ⟨by omega, by omega⟩⟩

/-- So does the synthesis. -/
theorem returns_synthesis (frames : List SynthesisFrame) :
    Returns (frames.foldlM FilterRun.synthesisQMF .zero)
      (Branches.Sound synthesisBounds
        ((frames.flatMap SynthesisFrame.lowBand).zip
          (frames.flatMap SynthesisFrame.highBand))) := by
  rw [← zip_flatMap]
  refine returns_frames ?performs ?present ?accepted frames
  case performs =>
    intro run frame
    rw [FilterRun.synthesisQMF, synthesisQMF]
    cases synthesis.filter (frame.lowBand.zip frame.highBand)
      run.filterState1 run.filterState2 <;> rfl
  case present =>
    intro frame isEmpty
    have length := congrArg List.length isEmpty
    rw [List.length_zip, ← frame.size, min_self] at length
    exact frame.present (List.length_eq_zero_iff.mp length)
  case accepted =>
    intro frame bands member
    obtain ⟨inLow, inHigh⟩ := List.of_mem_zip member
    have lowRange := frame.lowRange _ inLow
    have highRange := frame.highRange _ inHigh
    unfold IsW16 at lowRange highRange
    exact
      ⟨scaled_range ⟨by omega, by omega⟩, scaled_range ⟨by omega, by omega⟩⟩

/-- In every run from the zero state nothing in the all-pass filters wraps or saturates, and
where the stream is cut into frames makes no difference. -/
theorem filters_kept :
    (∀ frames : List AnalysisFrame,
      Returns (frames.foldlM FilterRun.analysisQMF .zero) fun run =>
        ∀ others : List AnalysisFrame,
          others.flatMap AnalysisFrame.inData =
              frames.flatMap AnalysisFrame.inData →
            others.foldlM FilterRun.analysisQMF .zero = some run) ∧
      ∀ frames : List SynthesisFrame,
        Returns (frames.foldlM FilterRun.synthesisQMF .zero) fun run =>
          ∀ others : List SynthesisFrame,
            others.flatMap SynthesisFrame.lowBand =
                frames.flatMap SynthesisFrame.lowBand →
              others.flatMap SynthesisFrame.highBand =
                  frames.flatMap SynthesisFrame.highBand →
                others.foldlM FilterRun.synthesisQMF .zero = some run := by
  refine ⟨fun frames => ?_, fun frames => ?_⟩
  · refine (returns_analysis frames).imp fun run sound others same => ?_
    obtain ⟨other, returned, otherSound⟩ := returns_analysis others
    rw [same] at otherSound
    rw [returned, otherSound.eq sound]
  · refine
      (returns_synthesis frames).imp fun run sound others sameLow sameHigh => ?_
    obtain ⟨other, returned, otherSound⟩ := returns_synthesis others
    rw [sameLow, sameHigh] at otherSound
    rw [returned, otherSound.eq sound]

end ApmSdk.Qmf
