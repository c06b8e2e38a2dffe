import ApmSdk.AecResampler
import ApmSdk.CIntegers
import ApmSdk.LabelledPath

namespace ApmSdk.BufferViews

/-!
# The views of an audio buffer

An `IFChannelBuffer` keeps an `int16_t` and a `float` copy of its samples and brings one
up to date from the other when it is asked for.  An `AudioBuffer` has one such buffer for
the full band and one for the split bands, and keeps the downmix of the low band until it
is told that the low band has changed.
-/

/-- `float` samples in the range of `int16_t`: every `int16_t` is one, and
`FloatS16ToS16` takes it back. -/
structure SampleConversion where
  Value : Type
  toFloat : Int16 → Value
  floatS16ToS16 : Value → Int16
  exact : ∀ sample, floatS16ToS16 (toFloat sample) = sample

/-- The samples of each channel, its bands one after another. -/
abbrev ChannelBuffer (Sample : Type) := List (List Sample)

namespace ChannelBuffer

/-- A sample of a channel. -/
def sample (buffer : ChannelBuffer Int16) (channel position : Nat) : Int16 :=
  (buffer.getD channel []).getD position 0

/-- `DownmixToMono` -/
def downmixToMono
    (buffer : ChannelBuffer Int16)
    (numFrames numChannels : Nat) : List Int16 :=
  (List.range numFrames).map fun i =>
    let value :=
      (List.range (numChannels - 1)).foldl
        (fun value j => int32 (value + (sample buffer (j + 1) i).toInt))
        (sample buffer 0 i).toInt
    Int16.ofInt (Int.tdiv value numChannels)

/-- The first samples of a channel. -/
def firstSamples
    (buffer : ChannelBuffer Int16)
    (channel numFrames : Nat) : List Int16 :=
  (List.range numFrames).map (sample buffer channel)

/-- The downmix of one channel is the channel. -/
theorem downmixToMono_one
    (buffer : ChannelBuffer Int16)
    (numFrames : Nat) :
    downmixToMono buffer numFrames 1 = firstSamples buffer 0 numFrames := by
  apply List.map_congr_left
  intro i _
  change Int16.ofInt (Int.tdiv (sample buffer 0 i).toInt 1) = _
  rw [Int.tdiv_one, Int16.ofInt_toInt]

end ChannelBuffer

/-- `Deinterleave` -/
def deinterleave
    (interleaved : List Int16)
    (samplesPerChannel numChannels : Nat) : ChannelBuffer Int16 :=
  (List.range numChannels).map fun i =>
    (List.range samplesPerChannel).map fun j =>
      interleaved.getD (i + j * numChannels) 0

/-- `DownmixInterleavedToMono` -/
def downmixInterleavedToMono
    (interleaved : List Int16)
    (numFrames numChannels : Nat) : List Int16 :=
  ChannelBuffer.downmixToMono
    (deinterleave interleaved numFrames numChannels) numFrames numChannels

/-! ## Two copies of the samples -/

/-- `IFChannelBuffer` -/
structure IFChannelBuffer (conversion : SampleConversion) where
  ivalid : Bool
  ibuf : ChannelBuffer Int16
  fvalid : Bool
  fbuf : ChannelBuffer conversion.Value

namespace IFChannelBuffer

variable {conversion : SampleConversion}

/-- `IFChannelBuffer(..)`, which is filled with zeros. -/
def create (numFrames numChannels : Nat) : IFChannelBuffer conversion where
  ivalid := true
  ibuf := List.replicate numChannels (List.replicate numFrames 0)
  fvalid := true
  fbuf :=
    List.replicate numChannels
      (List.replicate numFrames (conversion.toFloat 0))

/-- `RefreshF` -/
def refreshF
    (buffer : IFChannelBuffer conversion) : IFChannelBuffer conversion :=
  if buffer.fvalid then buffer
  else
    { buffer with
      fbuf := buffer.ibuf.map (·.map conversion.toFloat)
      fvalid := true }

/-- `RefreshI` -/
def refreshI
    (buffer : IFChannelBuffer conversion) : IFChannelBuffer conversion :=
  if buffer.ivalid then buffer
  else
    { buffer with
      ibuf := buffer.fbuf.map (·.map conversion.floatS16ToS16)
      ivalid := true }

/-- `ibuf()`, with what is then written through it. -/
def writeI
    (buffer : IFChannelBuffer conversion)
    (content : ChannelBuffer Int16) : IFChannelBuffer conversion :=
  { buffer.refreshI with
    fvalid := false
    ibuf := content }

/-- `fbuf()`, with what is then written through it. -/
def writeF
    (buffer : IFChannelBuffer conversion)
    (content : ChannelBuffer conversion.Value) : IFChannelBuffer conversion :=
  { buffer.refreshF with
    ivalid := false
    fbuf := content }

/-- What is read through `ibuf_const()`. -/
def intView (buffer : IFChannelBuffer conversion) : ChannelBuffer Int16 :=
  buffer.refreshI.ibuf

/-- What is read through `fbuf_const()`. -/
def floatView
    (buffer : IFChannelBuffer conversion) : ChannelBuffer conversion.Value :=
  buffer.refreshF.fbuf

/-- Neither refresh asserts, and both views are the same signal up to one rounding. -/
structure ViewsAgree (buffer : IFChannelBuffer conversion) : Prop where
  valid : buffer.ivalid ∨ buffer.fvalid
  same :
    buffer.intView = buffer.floatView.map (·.map conversion.floatS16ToS16)

/-- Samples that are converted to `float` come back as they were. -/
theorem rounded_converted (samples : ChannelBuffer Int16) :
    (samples.map (·.map conversion.toFloat)).map
        (·.map conversion.floatS16ToS16) =
      samples := by
  rw [List.map_map]
  apply List.map_id''
  intro channel
  dsimp only [Function.comp]
  rw [List.map_map]
  apply List.map_id''
  intro sample
  exact conversion.exact sample

theorem viewsAgree_create (numFrames numChannels : Nat) :
    (create numFrames numChannels : IFChannelBuffer conversion).ViewsAgree := by
  refine ⟨.inl rfl, ?_⟩
  change
    List.replicate numChannels (List.replicate numFrames 0) =
      (List.replicate numChannels
        (List.replicate numFrames (conversion.toFloat 0))).map
        (·.map conversion.floatS16ToS16)
  rw [List.map_replicate, List.map_replicate, conversion.exact]

theorem viewsAgree_writeI
    (buffer : IFChannelBuffer conversion)
    (content : ChannelBuffer Int16) :
    (buffer.writeI content).ViewsAgree := by
  have refreshed : buffer.refreshI.ivalid = true := by
    unfold refreshI
    split
    next valid => exact valid
    next => rfl
  refine ⟨.inl refreshed, ?_⟩
  unfold intView floatView refreshI refreshF writeI
  rw [if_pos refreshed, if_neg Bool.false_ne_true]
  exact (rounded_converted content).symm

theorem viewsAgree_writeF
    (buffer : IFChannelBuffer conversion)
    (content : ChannelBuffer conversion.Value) :
    (buffer.writeF content).ViewsAgree := by
  have refreshed : buffer.refreshF.fvalid = true := by
    unfold refreshF
    split
    next valid => exact valid
    next => rfl
  refine ⟨.inr refreshed, ?_⟩
  unfold intView floatView refreshI refreshF writeF
  rw [if_pos refreshed, if_neg Bool.false_ne_true]

/-- A refresh changes neither view. -/
theorem intView_refreshI (buffer : IFChannelBuffer conversion) :
    buffer.refreshI.intView = buffer.intView := by
  unfold intView refreshI
  split <;> rfl

theorem intView_refreshF
    {buffer : IFChannelBuffer conversion}
    (agree : buffer.ViewsAgree) :
    buffer.refreshF.intView = buffer.intView := by
  obtain ⟨valid, -⟩ := agree
  unfold intView refreshI refreshF
  by_cases fresh : buffer.fvalid = true
  · rw [if_pos fresh]
  · have isValid := valid.resolve_right fresh
    rw [if_neg fresh, if_pos isValid]
    change buffer.ibuf = _
    rw [if_pos isValid]

theorem ViewsAgree.refreshI
    {buffer : IFChannelBuffer conversion}
    (agree : buffer.ViewsAgree) :
    buffer.refreshI.ViewsAgree := by
  obtain ⟨valid, same⟩ := agree
  by_cases fresh : buffer.ivalid = true
  · unfold IFChannelBuffer.refreshI
    rw [if_pos fresh]
    exact ⟨valid, same⟩
  · have isValid := valid.resolve_left fresh
    refine ⟨.inl ?_, ?_⟩
    · unfold IFChannelBuffer.refreshI
      rw [if_neg fresh]
    · rw [intView_refreshI, same]
      unfold floatView refreshF IFChannelBuffer.refreshI
      rw [if_neg fresh, if_pos isValid, if_pos isValid]

theorem ViewsAgree.refreshF
    {buffer : IFChannelBuffer conversion}
    (agree : buffer.ViewsAgree) :
    buffer.refreshF.ViewsAgree := by
  have views := intView_refreshF agree
  obtain ⟨valid, same⟩ := agree
  by_cases fresh : buffer.fvalid = true
  · unfold IFChannelBuffer.refreshF
    rw [if_pos fresh]
    exact ⟨valid, same⟩
  · refine ⟨.inr ?_, ?_⟩
    · unfold IFChannelBuffer.refreshF
      rw [if_neg fresh]
    · rw [views, same]
      unfold floatView IFChannelBuffer.refreshF
      rw [if_neg fresh]
      rfl

end IFChannelBuffer

/-! ## The buffer of the components -/

/-- The filters and resamplers with their states, for all channels. -/
structure Filters (conversion : SampleConversion) where
  State : Type
  resample :
    State → ChannelBuffer conversion.Value →
      State × ChannelBuffer conversion.Value
  analysisQmf :
    State → ChannelBuffer Int16 → State × ChannelBuffer Int16
  synthesisQmf :
    State → ChannelBuffer Int16 → State × ChannelBuffer Int16
  analysisBank :
    State → ChannelBuffer conversion.Value →
      State × ChannelBuffer conversion.Value
  synthesisBank :
    State → ChannelBuffer conversion.Value →
      State × ChannelBuffer conversion.Value

/-- `NumBandsFromSamplesPerChannel` -/
def numBandsFromSamplesPerChannel (numFrames : Nat) : Nat :=
  if numFrames = 320 ∨ numFrames = 480 then numFrames / 160 else 1

/-- `AudioBuffer`, without what only the reference and the frame's metadata use. -/
structure AudioBuffer
    {conversion : SampleConversion}
    (filters : Filters conversion) where
  inputNumFrames : Nat
  numInputChannels : Nat
  procNumFrames : Nat
  numProcChannels : Nat
  numChannels : Nat
  channels : 0 < numChannels ∧ numChannels ≤ numProcChannels
  mixedLowPassValid : Bool
  data : IFChannelBuffer conversion
  splitData : Option (IFChannelBuffer conversion)
  mixedLowPassChannels : List Int16
  filterState : filters.State

/-- Which of the non-const accessors a caller writes through. -/
inductive Accessor where
  | channels
  | splitBands (channel : Nat)
  | splitChannels (band : Nat)
  | data
  | splitData
  deriving Repr, DecidableEq

/-- A call on an audio buffer.  What is written through an accessor is any content that
its pointers reach. -/
inductive BufferCall (conversion : SampleConversion) where
  | deinterleaveFrom (frame : List Int16)
  | splitIntoFrequencyBands
  | mergeFrequencyBands
  | setNumChannels (numChannels : Nat)
  | write (accessor : Accessor) (content : ChannelBuffer Int16)
  | writeF (accessor : Accessor) (content : ChannelBuffer conversion.Value)
  | read (accessor : Accessor)
  | readF (accessor : Accessor)
  | mixedLowPassData

namespace AudioBuffer

variable {conversion : SampleConversion} {filters : Filters conversion}

/-- `AudioBuffer(..)` -/
def create
    (inputNumFrames numInputChannels procNumFrames numProcChannels : Nat)
    (someChannels : 0 < numProcChannels)
    (filterState : filters.State) : AudioBuffer filters where
  inputNumFrames
  numInputChannels
  procNumFrames
  numProcChannels
  numChannels := numProcChannels
  channels := ⟨someChannels, Nat.le_refl numProcChannels⟩
  mixedLowPassValid := false
  data := .create procNumFrames numProcChannels
  splitData :=
    if 1 < numBandsFromSamplesPerChannel procNumFrames then
      some (.create procNumFrames numProcChannels)
    else none
  mixedLowPassChannels := []
  filterState

variable (audio : AudioBuffer filters)

/-- `num_bands` -/
def numBands : Nat :=
  numBandsFromSamplesPerChannel audio.procNumFrames

/-- `num_split_frames_` -/
def numSplitFrames : Nat :=
  audio.procNumFrames / audio.numBands

/-- The buffer that has the low band. -/
def lowBandData : IFChannelBuffer conversion :=
  audio.splitData.getD audio.data

/-- Change the buffer with the split bands; without them that is the full band. -/
def modifySplit
    (change : IFChannelBuffer conversion → IFChannelBuffer conversion) :
    AudioBuffer filters :=
  match audio.splitData with
  | some bands => { audio with splitData := some (change bands) }
  | none => { audio with data := change audio.data }

/-- Change the buffer of an accessor; without split bands there is no band but the
lowest. -/
def modifyAt
    (change : IFChannelBuffer conversion → IFChannelBuffer conversion) :
    Accessor → AudioBuffer filters
  | .channels => { audio with data := change audio.data }
  | .data => { audio with data := change audio.data }
  | .splitBands _ => audio.modifySplit change
  | .splitData => audio.modifySplit change
  | .splitChannels band =>
      if audio.splitData.isNone ∧ band ≠ 0 then audio
      else audio.modifySplit change

/-- `InitForNewData` -/
def initForNewData : AudioBuffer filters :=
  { audio with
    mixedLowPassValid := false
    numChannels := audio.numProcChannels
    channels :=
      ⟨Nat.lt_of_lt_of_le audio.channels.1 audio.channels.2, Nat.le_refl _⟩ }

/-- `DeinterleaveFrom` -/
def deinterleaveFrom (frame : List Int16) : AudioBuffer filters :=
  let audio := audio.initForNewData
  let deinterleaved :=
    if audio.numProcChannels = 1 then
      [downmixInterleavedToMono frame audio.inputNumFrames
        audio.numInputChannels]
    else deinterleave frame audio.inputNumFrames audio.numProcChannels
  if audio.inputNumFrames = audio.procNumFrames then
    { audio with data := audio.data.writeI deinterleaved }
  else
    let (filterState, resampled) :=
      filters.resample audio.filterState
        (deinterleaved.map (·.map conversion.toFloat))
    { audio with
      data := audio.data.writeF resampled
      filterState }

/-- `SplitIntoFrequencyBands`; `none` without a splitting filter. -/
def splitIntoFrequencyBands : Option (AudioBuffer filters) :=
  audio.splitData.map fun bands =>
    if audio.numBands = 2 then
      let data := audio.data.refreshI
      let (filterState, content) :=
        filters.analysisQmf audio.filterState data.ibuf
      { audio with data, splitData := some (bands.writeI content), filterState }
    else
      let data := audio.data.refreshF
      let (filterState, content) :=
        filters.analysisBank audio.filterState data.fbuf
      { audio with data, splitData := some (bands.writeF content), filterState }

/-- `MergeFrequencyBands`; `none` without a splitting filter. -/
def mergeFrequencyBands : Option (AudioBuffer filters) :=
  audio.splitData.map fun bands =>
    if audio.numBands = 2 then
      let bands := bands.refreshI
      let (filterState, content) :=
        filters.synthesisQmf audio.filterState bands.ibuf
      { audio with
        data := audio.data.writeI content, splitData := some bands
        filterState }
    else
      let bands := bands.refreshF
      let (filterState, content) :=
        filters.synthesisBank audio.filterState bands.fbuf
      { audio with
        data := audio.data.writeF content, splitData := some bands
        filterState }

/-- `set_num_channels`; `none` for a count that the buffers do not have. -/
def setNumChannels (numChannels : Nat) : Option (AudioBuffer filters) :=
  if channels : 0 < numChannels ∧ numChannels ≤ audio.numProcChannels then
    some { audio with numChannels, channels }
  else none

/-- `mixed_low_pass_data`, with what it returns. -/
def mixedLowPassData : AudioBuffer filters × List Int16 :=
  let refreshed := audio.modifySplit IFChannelBuffer.refreshI
  if audio.numProcChannels = 1 then
    (refreshed,
      ChannelBuffer.firstSamples refreshed.lowBandData.ibuf 0
        audio.numSplitFrames)
  else if audio.mixedLowPassValid then (audio, audio.mixedLowPassChannels)
  else
    let mixed :=
      ChannelBuffer.downmixToMono refreshed.lowBandData.ibuf
        audio.numSplitFrames audio.numChannels
    ({ refreshed with
        mixedLowPassChannels := mixed
        mixedLowPassValid := true },
      mixed)

/-- A call on the buffer. -/
def perform : BufferCall conversion → Option (AudioBuffer filters)
  | .deinterleaveFrom frame => some (audio.deinterleaveFrom frame)
  | .splitIntoFrequencyBands => audio.splitIntoFrequencyBands
  | .mergeFrequencyBands => audio.mergeFrequencyBands
  | .setNumChannels numChannels => audio.setNumChannels numChannels
  | .write accessor content =>
      some
        ({ audio with mixedLowPassValid := false }.modifyAt
          (·.writeI content) accessor)
  | .writeF accessor content =>
      some
        ({ audio with mixedLowPassValid := false }.modifyAt
          (·.writeF content) accessor)
  | .read accessor => some (audio.modifyAt (·.refreshI) accessor)
  | .readF accessor => some (audio.modifyAt (·.refreshF) accessor)
  | .mixedLowPassData => some audio.mixedLowPassData.1

/-- The downmix of the low band of the channels. -/
def lowPassDownmix : List Int16 :=
  ChannelBuffer.downmixToMono audio.lowBandData.intView audio.numSplitFrames
    audio.numChannels

/-- The views of the full band and of the split bands agree. -/
structure ViewsAgree : Prop where
  data : audio.data.ViewsAgree
  split : ∀ bands, audio.splitData = some bands → bands.ViewsAgree

/-- The views agree, and a downmix that counts as valid is one of the low band. -/
structure Fresh : Prop where
  views : audio.ViewsAgree
  cached :
    audio.mixedLowPassValid = true →
      audio.mixedLowPassChannels = audio.lowPassDownmix

/-- What a change through an accessor does. -/
theorem modifyAt_cases
    (change : IFChannelBuffer conversion → IFChannelBuffer conversion)
    (accessor : Accessor) :
    audio.modifyAt change accessor =
        { audio with data := change audio.data } ∨
      (∃ bands,
        audio.splitData = some bands ∧
          audio.modifyAt change accessor =
            { audio with splitData := some (change bands) }) ∨
        audio.modifyAt change accessor = audio := by
  have bySplit :
      audio.modifySplit change = { audio with data := change audio.data } ∨
        ∃ bands,
          audio.splitData = some bands ∧
            audio.modifySplit change =
              { audio with splitData := some (change bands) } := by
    unfold modifySplit
    cases isSplit : audio.splitData with
    | none =>
        exact .inl rfl
    | some bands =>
        exact .inr ⟨bands, rfl, rfl⟩
  cases accessor with
  | channels =>
      exact .inl rfl
  | data =>
      exact .inl rfl
  | splitBands channel =>
      exact bySplit.imp_right .inl
  | splitData =>
      exact bySplit.imp_right .inl
  | splitChannels band =>
      by_cases noBand : audio.splitData.isNone ∧ band ≠ 0
      · exact .inr (.inr (if_pos noBand))
      · rw [show
          audio.modifyAt change (.splitChannels band) =
            audio.modifySplit change
          from if_neg noBand]
        exact bySplit.imp_right .inl

theorem format_modifySplit
    (change : IFChannelBuffer conversion → IFChannelBuffer conversion) :
    (audio.modifySplit change).numSplitFrames = audio.numSplitFrames ∧
      (audio.modifySplit change).numChannels = audio.numChannels := by
  unfold modifySplit
  cases audio.splitData with
  | none =>
      exact ⟨rfl, rfl⟩
  | some bands =>
      exact ⟨rfl, rfl⟩

variable {audio}

theorem ViewsAgree.modifyAt
    (agree : audio.ViewsAgree)
    {change : IFChannelBuffer conversion → IFChannelBuffer conversion}
    (keeps : ∀ buffer, buffer.ViewsAgree → (change buffer).ViewsAgree)
    (accessor : Accessor) :
    (audio.modifyAt change accessor).ViewsAgree := by
  rcases audio.modifyAt_cases change accessor with
    isData | ⟨bands, isSplit, isBands⟩ | isSame
  · rw [isData]
    exact ⟨keeps _ agree.data, agree.split⟩
  · rw [isBands]
    refine ⟨agree.data, ?_⟩
    intro changed isChanged
    obtain rfl := Option.some.inj isChanged
    exact keeps _ (agree.split bands isSplit)
  · rw [isSame]
    exact agree

/-- Bringing a view up to date leaves the downmix as it is. -/
theorem Fresh.refresh
    (fresh : audio.Fresh)
    {change : IFChannelBuffer conversion → IFChannelBuffer conversion}
    (keeps : ∀ buffer, buffer.ViewsAgree → (change buffer).ViewsAgree)
    (sameView :
      ∀ buffer, buffer.ViewsAgree → (change buffer).intView = buffer.intView)
    (accessor : Accessor) :
    (audio.modifyAt change accessor).Fresh := by
  refine ⟨fresh.views.modifyAt keeps accessor, ?_⟩
  rcases audio.modifyAt_cases change accessor with
    isData | ⟨bands, isSplit, isBands⟩ | isSame
  · rw [isData]
    intro valid
    rw [fresh.cached valid]
    unfold lowPassDownmix lowBandData
    cases isSplit : audio.splitData with
    | none =>
        exact
          congrArg
            (ChannelBuffer.downmixToMono · audio.numSplitFrames
              audio.numChannels)
            (sameView _ fresh.views.data).symm
    | some bands =>
        rfl
  · rw [isBands]
    intro valid
    rw [fresh.cached valid]
    unfold lowPassDownmix lowBandData
    rw [isSplit]
    exact
      congrArg
        (ChannelBuffer.downmixToMono · audio.numSplitFrames
          audio.numChannels)
        (sameView _ (fresh.views.split bands isSplit)).symm
  · rw [isSame]
    exact fresh.cached

theorem ViewsAgree.lowBandData
    (agree : audio.ViewsAgree) :
    audio.lowBandData.ViewsAgree := by
  unfold AudioBuffer.lowBandData
  cases isSplit : audio.splitData with
  | none =>
      exact agree.data
  | some bands =>
      exact agree.split bands isSplit

/-- The low band is read through the buffer that a change through `split_data` reaches. -/
theorem lowBandData_modifySplit
    (change : IFChannelBuffer conversion → IFChannelBuffer conversion) :
    (audio.modifySplit change).lowBandData = change audio.lowBandData := by
  unfold modifySplit lowBandData
  cases isSplit : audio.splitData with
  | none =>
      rfl
  | some bands =>
      rfl

/-- `mixed_low_pass_data` returns the downmix where a valid one is fresh. -/
theorem Fresh.mixedLowPassData_eq
    (fresh : audio.Fresh) :
    audio.mixedLowPassData.2 = audio.lowPassDownmix := by
  have lowBand :
      (audio.modifySplit IFChannelBuffer.refreshI).lowBandData.ibuf =
        audio.lowBandData.intView := by
    rw [lowBandData_modifySplit]
    rfl
  unfold mixedLowPassData
  dsimp only
  split
  next mono =>
      have one : audio.numChannels = 1 := by
        have range := audio.channels
        omega
      rw [lowBand]
      unfold lowPassDownmix
      rw [one]
      exact (ChannelBuffer.downmixToMono_one _ _).symm
  next =>
      split
      next valid =>
          exact fresh.cached valid
      next =>
          rw [lowBand]
          rfl

/-- What is calculated is fresh. -/
theorem Fresh.mixedLowPassData
    (fresh : audio.Fresh) :
    audio.mixedLowPassData.1.Fresh := by
  have refreshed : (audio.modifySplit IFChannelBuffer.refreshI).Fresh :=
    fresh.refresh (fun _ agree => agree.refreshI)
      (fun buffer _ => buffer.intView_refreshI) .splitData
  unfold AudioBuffer.mixedLowPassData
  dsimp only
  split
  · exact refreshed
  · split
    · exact fresh
    · refine ⟨⟨refreshed.views.data, refreshed.views.split⟩, fun _ => ?_⟩
      obtain ⟨sameFrames, sameChannels⟩ :=
        audio.format_modifySplit IFChannelBuffer.refreshI
      change
        ChannelBuffer.downmixToMono
            (audio.modifySplit IFChannelBuffer.refreshI).lowBandData.ibuf
            audio.numSplitFrames audio.numChannels =
          ChannelBuffer.downmixToMono
            (audio.modifySplit IFChannelBuffer.refreshI).lowBandData.intView
            (audio.modifySplit IFChannelBuffer.refreshI).numSplitFrames
            (audio.modifySplit IFChannelBuffer.refreshI).numChannels
      rw [sameFrames, sameChannels, lowBandData_modifySplit,
        IFChannelBuffer.intView_refreshI]
      rfl

/-! ## Runs -/

/-- No call changes the low band or the channels behind a downmix that stays valid. -/
def KeepsDownmix (audio : AudioBuffer filters) : BufferCall conversion → Prop
  | .splitIntoFrequencyBands => audio.mixedLowPassValid = false
  | .setNumChannels numChannels =>
      audio.mixedLowPassValid = false ∨ numChannels = audio.numChannels
  | _ => True

/-- What a call must do: the views agree after it, and `mixed_low_pass_data` returns the
downmix of the low band. -/
def CallFresh
    (audio : AudioBuffer filters)
    (call : BufferCall conversion) : Prop :=
  (∀ next, audio.perform call = some next → next.ViewsAgree) ∧
    match call with
    | .mixedLowPassData => audio.mixedLowPassData.2 = audio.lowPassDownmix
    | _ => True

theorem setNumChannels_eq
    (audio : AudioBuffer filters)
    {numChannels : Nat}
    (channels : 0 < numChannels ∧ numChannels ≤ audio.numProcChannels) :
    audio.perform (.setNumChannels numChannels) =
      some { audio with numChannels, channels } :=
  dif_pos channels

theorem fresh_create
    (inputNumFrames numInputChannels procNumFrames numProcChannels : Nat)
    (someChannels : 0 < numProcChannels)
    (filterState : filters.State) :
    (create inputNumFrames numInputChannels procNumFrames numProcChannels
      someChannels filterState).Fresh := by
  refine ⟨⟨IFChannelBuffer.viewsAgree_create _ _, ?_⟩, nofun⟩
  intro bands isSplit
  unfold create at isSplit
  dsimp only at isSplit
  split at isSplit
  · obtain rfl := Option.some.inj isSplit
    exact IFChannelBuffer.viewsAgree_create _ _
  · exact nomatch isSplit

theorem ViewsAgree.deinterleaveFrom
    (agree : audio.ViewsAgree)
    (frame : List Int16) :
    (audio.deinterleaveFrom frame).ViewsAgree := by
  unfold AudioBuffer.deinterleaveFrom
  dsimp only
  split
  · exact ⟨IFChannelBuffer.viewsAgree_writeI _ _, agree.split⟩
  · exact ⟨IFChannelBuffer.viewsAgree_writeF _ _, agree.split⟩

theorem ViewsAgree.splitIntoFrequencyBands
    {next : AudioBuffer filters}
    (agree : audio.ViewsAgree)
    (splits : audio.splitIntoFrequencyBands = some next) :
    next.ViewsAgree := by
  obtain ⟨bands, -, rfl⟩ := Option.map_eq_some_iff.mp splits
  split
  · refine ⟨agree.data.refreshI, ?_⟩
    intro written isWritten
    obtain rfl := Option.some.inj isWritten
    exact IFChannelBuffer.viewsAgree_writeI _ _
  · refine ⟨agree.data.refreshF, ?_⟩
    intro written isWritten
    obtain rfl := Option.some.inj isWritten
    exact IFChannelBuffer.viewsAgree_writeF _ _

/-- Merging writes the full band, and not the low band of the split ones. -/
theorem Fresh.mergeFrequencyBands
    {next : AudioBuffer filters}
    (fresh : audio.Fresh)
    (merges : audio.mergeFrequencyBands = some next) :
    next.Fresh := by
  obtain ⟨bands, isSplit, rfl⟩ := Option.map_eq_some_iff.mp merges
  have agree := fresh.views.split bands isSplit
  have lowBand : audio.lowBandData = bands := by
    unfold lowBandData
    rw [isSplit]
    rfl
  have cached := fresh.cached
  unfold lowPassDownmix at cached
  rw [lowBand] at cached
  split
  · refine ⟨⟨IFChannelBuffer.viewsAgree_writeI _ _, ?_⟩, ?_⟩
    · intro refreshed isRefreshed
      obtain rfl := Option.some.inj isRefreshed
      exact agree.refreshI
    · intro valid
      rw [← bands.intView_refreshI] at cached
      exact cached valid
  · refine ⟨⟨IFChannelBuffer.viewsAgree_writeF _ _, ?_⟩, ?_⟩
    · intro refreshed isRefreshed
      obtain rfl := Option.some.inj isRefreshed
      exact agree.refreshF
    · intro valid
      rw [← IFChannelBuffer.intView_refreshF agree] at cached
      exact cached valid

/-- Writing through an accessor gives up the downmix. -/
theorem Fresh.write
    (fresh : audio.Fresh)
    {change : IFChannelBuffer conversion → IFChannelBuffer conversion}
    (writes : ∀ buffer, (change buffer).ViewsAgree)
    (accessor : Accessor) :
    ({ audio with mixedLowPassValid := false }.modifyAt change
      accessor).Fresh := by
  have agree : { audio with mixedLowPassValid := false }.ViewsAgree :=
    ⟨fresh.views.data, fresh.views.split⟩
  refine ⟨agree.modifyAt (fun buffer _ => writes buffer) accessor, ?_⟩
  have notValid :
      ({ audio with mixedLowPassValid := false }.modifyAt change
        accessor).mixedLowPassValid = false := by
    rcases modifyAt_cases { audio with mixedLowPassValid := false } change
        accessor with
      isData | ⟨bands, -, isBands⟩ | isSame
    · rw [isData]
    · rw [isBands]
    · rw [isSame]
  intro valid
  exact absurd (notValid.symm.trans valid) Bool.false_ne_true

/-- A call that keeps the downmix leaves the buffer fresh. -/
theorem Fresh.perform
    {next : AudioBuffer filters}
    {call : BufferCall conversion}
    (fresh : audio.Fresh)
    (keeps : audio.KeepsDownmix call)
    (performed : audio.perform call = some next) :
    next.Fresh := by
  cases call with
  | deinterleaveFrom frame =>
      obtain rfl := Option.some.inj performed
      refine ⟨fresh.views.deinterleaveFrom frame, ?_⟩
      intro valid
      unfold AudioBuffer.deinterleaveFrom at valid
      dsimp only at valid
      split at valid <;> exact nomatch valid
  | splitIntoFrequencyBands =>
      refine ⟨fresh.views.splitIntoFrequencyBands performed, ?_⟩
      obtain ⟨bands, -, rfl⟩ := Option.map_eq_some_iff.mp performed
      intro valid
      have notValid : audio.mixedLowPassValid = true := by
        split at valid <;> exact valid
      exact absurd (keeps.symm.trans notValid) Bool.false_ne_true
  | mergeFrequencyBands =>
      exact fresh.mergeFrequencyBands performed
  | setNumChannels numChannels =>
      unfold AudioBuffer.perform setNumChannels at performed
      dsimp only at performed
      split at performed
      · obtain rfl := Option.some.inj performed
        refine ⟨⟨fresh.views.data, fresh.views.split⟩, ?_⟩
        intro valid
        rcases keeps with notValid | same
        · exact absurd (notValid.symm.trans valid) Bool.false_ne_true
        · have cached := fresh.cached valid
          unfold lowPassDownmix at cached ⊢
          rw [← same] at cached
          exact cached
      · exact nomatch performed
  | write accessor content =>
      obtain rfl := Option.some.inj performed
      exact
        fresh.write (fun buffer => buffer.viewsAgree_writeI content) accessor
  | writeF accessor content =>
      obtain rfl := Option.some.inj performed
      exact
        fresh.write (fun buffer => buffer.viewsAgree_writeF content) accessor
  | read accessor =>
      obtain rfl := Option.some.inj performed
      exact
        fresh.refresh (fun _ agree => agree.refreshI)
          (fun buffer _ => buffer.intView_refreshI) accessor
  | readF accessor =>
      obtain rfl := Option.some.inj performed
      exact
        fresh.refresh (fun _ agree => agree.refreshF)
          (fun _ agree => IFChannelBuffer.intView_refreshF agree) accessor
  | mixedLowPassData =>
      obtain rfl := Option.some.inj performed
      exact fresh.mixedLowPassData

/--
In every run from the constructor whose calls keep a valid downmix, the views agree, and
`mixed_low_pass_data` returns the downmix of the low band.
-/
theorem run_fresh_of_keepsDownmix
    {inputNumFrames numInputChannels procNumFrames numProcChannels : Nat}
    {someChannels : 0 < numProcChannels}
    {filterState : filters.State}
    {calls : List (BufferCall conversion)}
    (keeps :
      AlongRun perform KeepsDownmix
        (create inputNumFrames numInputChannels procNumFrames numProcChannels
          someChannels filterState)
        calls) :
    AlongRun perform CallFresh
      (create inputNumFrames numInputChannels procNumFrames numProcChannels
        someChannels filterState)
      calls :=
  AlongRun.of_guard Fresh Fresh.perform
    (fun {audio call} fresh callKeeps =>
      ⟨fun _ performed => (fresh.perform callKeeps performed).views, by
        cases call with
        | mixedLowPassData =>
            exact fresh.mixedLowPassData_eq
        | _ =>
            exact trivial⟩)
    (fresh_create _ _ _ _ _ _) keeps

end AudioBuffer

/-! ## A conversion -/

/-- `FloatS16ToS16` over exact numbers. -/
def floatS16ToS16 (v : Rat) : Int16 :=
  if 0 < v then
    if 32767 - 1 / 2 ≤ v then 32767
    else Int16.ofInt (Echo.truncate (v + 1 / 2))
  else if v ≤ -32768 + 1 / 2 then -32768
  else Int16.ofInt (Echo.truncate (v - 1 / 2))

/-- Half a step is lost in a conversion to an integer. -/
theorem truncate_half (value : Int) :
    (0 < value → Echo.truncate ((value : Rat) + 1 / 2) = value) ∧
      (value ≤ 0 → Echo.truncate ((value : Rat) - 1 / 2) = value) := by
  have floor
      (whole : Int) :
      ((whole : Rat) + 1 / 2).floor = whole := by
    apply Int.le_antisymm
    · apply Int.le_of_lt_add_one
      rw [Rat.floor_lt_iff]
      push_cast
      linarith
    · rw [Rat.le_floor_iff]
      linarith
  constructor
  · intro positive
    have nonneg : (0 : Rat) ≤ value := by exact_mod_cast positive.le
    unfold Echo.truncate
    rw [if_pos (by linarith), floor]
  · intro nonpos
    have negative : (value : Rat) ≤ 0 := by exact_mod_cast nonpos
    unfold Echo.truncate
    rw [if_neg (by linarith),
      show -((value : Rat) - 1 / 2) = ((-value : Int) : Rat) + 1 / 2 by
        push_cast; ring,
      floor]
    omega

/-- Samples as exact numbers. -/
def exactSamples : SampleConversion where
  Value := Rat
  toFloat := fun sample => (sample.toInt : Rat)
  floatS16ToS16 := floatS16ToS16
  exact := by
    intro sample
    obtain ⟨upward, downward⟩ := truncate_half sample.toInt
    have lower := sample.le_toInt
    have upper := sample.toInt_lt
    unfold floatS16ToS16
    split
    next positive =>
        have positive : 0 < sample.toInt := by exact_mod_cast positive
        split
        next largest =>
            have isLargest : sample.toInt = 32767 := by
              have above : (32766 : Rat) < sample.toInt := by linarith
              have above : 32766 < sample.toInt := by exact_mod_cast above
              omega
            rw [← Int16.ofInt_toInt sample, isLargest]
            rfl
        next =>
            rw [upward positive, Int16.ofInt_toInt]
    next notPositive =>
        have nonpos : sample.toInt ≤ 0 := by
          rw [not_lt] at notPositive
          exact_mod_cast notPositive
        split
        next smallest =>
            have isSmallest : sample.toInt = -32768 := by
              have below : (sample.toInt : Rat) < -32767 := by linarith
              have below : sample.toInt < -32767 := by exact_mod_cast below
              omega
            rw [← Int16.ofInt_toInt sample, isSmallest]
            rfl
        next =>
            rw [downward nonpos, Int16.ofInt_toInt]

/-- Filters that hand every sample on. -/
def passThrough (conversion : SampleConversion) : Filters conversion where
  State := Unit
  resample := fun _ content => ((), content)
  analysisQmf := fun _ content => ((), content)
  synthesisQmf := fun _ content => ((), content)
  analysisBank := fun _ content => ((), content)
  synthesisBank := fun _ content => ((), content)

namespace AudioBuffer

/-- A buffer for two channels at 16 kHz. -/
def stereo : AudioBuffer (passThrough exactSamples) :=
  create 160 2 160 2 (by decide) ()

/-- 100 on the left channel and 300 on the right one. -/
def stereoFrame : List Int16 :=
  (List.replicate 160 [100, 300]).flatten

/-- The downmix of a frame. -/
theorem mixedLowPassData_stereoFrame :
    (stereo.deinterleaveFrom stereoFrame).mixedLowPassData.2 =
      (stereo.deinterleaveFrom stereoFrame).lowPassDownmix := by
  have along :
      AlongRun perform CallFresh stereo
        [.deinterleaveFrom stereoFrame, .mixedLowPassData] :=
    run_fresh_of_keepsDownmix
      ⟨trivial, fun _ _ => ⟨trivial, fun _ _ => trivial⟩⟩
  exact (along.2 _ rfl).1.2

/--
The downmix of two channels stays valid when the number of channels is set to one: it is
200, and the left channel alone is 100.
-/
theorem not_run_fresh_setNumChannels :
    ¬ ∀ calls, AlongRun perform CallFresh stereo calls := by
  intro claimed
  have along :=
    claimed
      [.deinterleaveFrom stereoFrame, .mixedLowPassData, .setNumChannels 1,
        .mixedLowPassData]
  have mono :=
    ((along.2 _ rfl).2 _ rfl).2 _
      (setNumChannels_eq _ (show 0 < 1 ∧ 1 ≤ 2 by decide))
  have stale : _ = lowPassDownmix _ := mono.1.2
  exact absurd stale (by decide +kernel)

end AudioBuffer

end ApmSdk.BufferViews
