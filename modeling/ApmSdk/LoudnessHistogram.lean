import ApmSdk.CIntegers
import ApmSdk.CircularCells
import ApmSdk.LabelledPath
import ApmSdk.TransientErasure
import Mathlib.Algebra.Order.BigOperators.Group.Finset
import Mathlib.Data.Fintype.BigOperators

namespace ApmSdk.LoudnessHistogram

/-!
# The histogram of loudness

`agc/histogram.cc`: a sliding histogram counts the last frames in the bins of their
loudness, each with its activity probability in Q10, and takes frames out again when they
turn out to have been a transient.  It does so without looking at the frames again.  The
counts are 64 bits wide, which no run of frames fills.
-/

open CircularCells TransientErasure

/-- `kHistSize` -/
abbrev kHistSize : Nat :=
  77

/-- `kTransientWidthThreshold` -/
def kTransientWidthThreshold : Nat :=
  7

/-- `kLowProbThresholdQ10` -/
def kLowProbThresholdQ10 : Int :=
  204

/-- `Histogram` -/
structure Histogram where
  numUpdates : Int
  audioContentQ10 : Int
  binCountQ10 : Fin kHistSize → Int
  activityProbability : List Int
  histBinIndex : List (Fin kHistSize)
  bufferIndex : Nat
  bufferIsFull : Bool
  lenCircularBuffer : Nat
  lenHighActivity : Nat

/-- The two circular buffers, which are allocated without being set. -/
structure Memory (windowSize : Nat) where
  activityProbability : List Int
  histBinIndex : List (Fin kHistSize)
  probabilityLength : activityProbability.length = windowSize
  binLength : histBinIndex.length = windowSize

namespace Histogram

/-- `Histogram(window_size)`, and `Histogram()` for a window of no frames. -/
def create
    {windowSize : Nat}
    (memory : Memory windowSize) : Histogram where
  numUpdates := 0
  audioContentQ10 := 0
  binCountQ10 := fun _ => 0
  activityProbability := memory.activityProbability
  histBinIndex := memory.histBinIndex
  bufferIndex := 0
  bufferIsFull := false
  lenCircularBuffer := windowSize
  lenHighActivity := 0

/-- `UpdateHist` -/
def updateHist
    (histogram : Histogram)
    (activityProbQ10 : Int)
    (histIndex : Fin kHistSize) : Histogram :=
  { histogram with
    binCountQ10 :=
      Function.update histogram.binCountQ10 histIndex
        (histogram.binCountQ10 histIndex + activityProbQ10)
    audioContentQ10 := histogram.audioContentQ10 + activityProbQ10 }

/-- `RemoveOldestEntryAndUpdate` -/
def removeOldestEntryAndUpdate (histogram : Histogram) : Option Histogram := do
  if !histogram.bufferIsFull then
    some histogram
  else
    let oldestProb ← histogram.activityProbability[histogram.bufferIndex]?
    let oldestHistIndex ← histogram.histBinIndex[histogram.bufferIndex]?
    some (histogram.updateHist (-oldestProb) oldestHistIndex)

/-- One turn of the loop of `RemoveTransient`, after which some frames are left. -/
def clearEntry
    (histogram : Histogram)
    (index left : Nat) : Option Histogram := do
  let prob ← histogram.activityProbability[index]?
  let histIndex ← histogram.histBinIndex[index]?
  let counted := histogram.updateHist (-prob) histIndex
  some
    { counted with
      activityProbability := counted.activityProbability.set index 0
      lenHighActivity := left }

/-- The loop of `RemoveTransient`, for as many frames as are left. -/
def removeTransientLoop :
    Nat → (index : Nat) → Histogram → Option Histogram
  | 0, _, histogram => some histogram
  | left + 1, index, histogram => do
      let cleared ← histogram.clearEntry index left
      removeTransientLoop left (preceding cleared.lenCircularBuffer index) cleared

/-- `RemoveTransient` -/
def removeTransient (histogram : Histogram) : Option Histogram :=
  removeTransientLoop histogram.lenHighActivity
    (preceding histogram.lenCircularBuffer histogram.bufferIndex) histogram

/-- Check if this has been a transient. -/
def checkTransient (histogram : Histogram) : Option Histogram :=
  if histogram.lenHighActivity ≤ kTransientWidthThreshold then
    histogram.removeTransient
  else
    some histogram

/-- What `InsertNewestEntryAndUpdate` does before the circular buffer is written: the
transient that may be over, and the probability that is counted. -/
def settleActivity
    (histogram : Histogram)
    (activityProbQ10 : Int) : Option (Histogram × Int) := do
  if activityProbQ10 ≤ kLowProbThresholdQ10 then
    -- Lower than threshold probability, set it to zero.
    let removed ← histogram.checkTransient
    some ({ removed with lenHighActivity := 0 }, 0)
  else if histogram.lenHighActivity ≤ kTransientWidthThreshold then
    some
      ({ histogram with lenHighActivity := histogram.lenHighActivity + 1 },
        activityProbQ10)
  else
    some (histogram, activityProbQ10)

/-- Updating the circular buffer. -/
def writeNewest
    (histogram : Histogram)
    (activityProbQ10 : Int)
    (histIndex : Fin kHistSize) : Histogram :=
  { histogram with
    activityProbability :=
      histogram.activityProbability.set histogram.bufferIndex activityProbQ10
    histBinIndex := histogram.histBinIndex.set histogram.bufferIndex histIndex
    bufferIndex := following histogram.lenCircularBuffer histogram.bufferIndex
    bufferIsFull :=
      histogram.bufferIsFull ||
        histogram.lenCircularBuffer ≤ histogram.bufferIndex + 1 }

/-- `num_updates_++`, and back when that is negative. -/
def countUpdate (histogram : Histogram) : Histogram :=
  let incremented := int32 (histogram.numUpdates + 1)
  { histogram with
    numUpdates :=
      if incremented < 0 then int32 (incremented - 1) else incremented }

/-- `InsertNewestEntryAndUpdate` -/
def insertNewestEntryAndUpdate
    (histogram : Histogram)
    (activityProbQ10 : Int)
    (histIndex : Fin kHistSize) : Option Histogram := do
  if 0 < histogram.lenCircularBuffer then
    let (settled, counted) ← histogram.settleActivity activityProbQ10
    some
      ((settled.writeNewest counted histIndex).countUpdate.updateHist
        counted histIndex)
  else
    some (histogram.countUpdate.updateHist activityProbQ10 histIndex)

/-- If circular histogram is activated then remove the oldest entry. -/
def slide (histogram : Histogram) : Option Histogram :=
  if 0 < histogram.lenCircularBuffer then
    histogram.removeOldestEntryAndUpdate
  else
    some histogram

/-- `Update`, for the probability in Q10 and the bin of the frame. -/
def update
    (histogram : Histogram)
    (activityProbQ10 : Int)
    (histIndex : Fin kHistSize) : Option Histogram := do
  let slid ← histogram.slide
  slid.insertNewestEntryAndUpdate activityProbQ10 histIndex

/-- `Reset` -/
def reset (histogram : Histogram) : Histogram :=
  { histogram with
    binCountQ10 := fun _ => 0
    audioContentQ10 := 0
    numUpdates := 0
    bufferIndex := 0
    bufferIsFull := false
    lenHighActivity := 0 }

end Histogram

/-- The calls on a histogram. -/
inductive HistogramCall where
  | update (activityProbQ10 : Int) (histIndex : Fin kHistSize)
  | reset
  deriving DecidableEq

/-- One call of a run. -/
def Histogram.perform (histogram : Histogram) : HistogramCall → Option Histogram
  | .update activityProbQ10 histIndex => histogram.update activityProbQ10 histIndex
  | .reset => some histogram.reset

/-- The entries since the histogram was last reset, newest first. -/
def entriesSince
    (entries : List (Entry (Fin kHistSize))) :
    List HistogramCall → List (Entry (Fin kHistSize))
  | [] => entries
  | .update activityProbQ10 histIndex :: rest =>
      entriesSince (⟨activityProbQ10, histIndex⟩ :: entries) rest
  | .reset :: rest => entriesSince [] rest

/-! ## Counting a window -/

/-- What the histogram has counted is a window of a history. -/
structure Counts
    (histogram : Histogram)
    (window : List (Entry (Fin kHistSize))) : Prop where
  bins : histogram.binCountQ10 = fun bin => tally bin window
  content : histogram.audioContentQ10 = content window

namespace Counts

variable {histogram : Histogram}
variable {window leading trailing : List (Entry (Fin kHistSize))}
variable {entry : Entry (Fin kHistSize)}

/-- Counting more in one bin counts a window that has as much more there. -/
theorem updateHist
    {next : List (Entry (Fin kHistSize))}
    {amount : Int}
    {bin : Fin kHistSize}
    (counted : Counts histogram window)
    (tallied :
      ∀ other,
        tally other next =
          tally other window + if bin = other then amount else 0)
    (added : TransientErasure.content next = TransientErasure.content window + amount) :
    Counts (histogram.updateHist amount bin) next where
  bins := by
    funext other
    rw [tallied, Histogram.updateHist]
    dsimp only
    rw [counted.bins]
    by_cases same : other = bin
    · subst same
      rw [Function.update_self, if_pos rfl]
    · rw [Function.update_of_ne same, if_neg (Ne.symm same), add_zero]
  content := by
    rw [added, ← counted.content]
    rfl

/-- Counting a new entry. -/
theorem insert
    (counted : Counts histogram window)
    (entry : Entry (Fin kHistSize)) :
    Counts (histogram.updateHist entry.weight entry.bin) (entry :: window) :=
  counted.updateHist
    (fun other => by rw [tally_cons, add_comm])
    (by rw [content_cons, add_comm])

/-- Taking the weight of an entry back leaves the entry without it. -/
theorem mute
    (counted : Counts histogram (leading ++ entry :: trailing)) :
    Counts (histogram.updateHist (-entry.weight) entry.bin)
      (leading ++ entry.mute :: trailing) := by
  apply counted.updateHist
  · intro other
    rw [tally_append, tally_append, tally_cons, tally_cons, Entry.weight_mute,
      Entry.bin_mute]
    split <;> omega
  · rw [content_append, content_append, content_cons, content_cons,
      Entry.weight_mute]
    omega

/-- Taking the weight of the oldest entry back takes it out. -/
theorem removeLast
    (counted : Counts histogram (window ++ [entry])) :
    Counts (histogram.updateHist (-entry.weight) entry.bin) window := by
  apply counted.updateHist
  · intro other
    rw [tally_append, tally_cons, tally_nil]
    split <;> omega
  · rw [content_append, content_cons, content_nil]
    omega

end Counts

/-! ## The circular buffers -/

/-- The circular buffers hold the newest entries of a history. -/
structure Shows
    (histogram : Histogram)
    (history : List (Entry (Fin kHistSize))) : Prop where
  probabilityLength :
    histogram.activityProbability.length = histogram.lenCircularBuffer
  binLength : histogram.histBinIndex.length = histogram.lenCircularBuffer
  probabilities :
    Holds histogram.activityProbability histogram.bufferIndex
      (history.map Entry.weight)
  bins :
    Holds histogram.histBinIndex histogram.bufferIndex (history.map Entry.bin)
  full :
    histogram.bufferIsFull =
      decide (histogram.lenCircularBuffer ≤ history.length)
  level :
    history.length < histogram.lenCircularBuffer →
      histogram.bufferIndex = history.length

namespace Shows

variable {histogram : Histogram}
variable {history leading trailing : List (Entry (Fin kHistSize))}
variable {entry : Entry (Fin kHistSize)}
variable {age : Nat}

theorem nextInside (shown : Shows histogram history) :
    histogram.bufferIndex < histogram.lenCircularBuffer := by
  rw [← shown.probabilityLength]
  exact shown.probabilities.nextInside

/-- What is read where the entry of an age is. -/
theorem read
    (shown : Shows histogram history)
    (inside : age < histogram.lenCircularBuffer)
    (item : history[age]? = some entry) :
    histogram.activityProbability[
          place histogram.lenCircularBuffer histogram.bufferIndex age]? =
        some entry.weight ∧
      histogram.histBinIndex[
          place histogram.lenCircularBuffer histogram.bufferIndex age]? =
        some entry.bin := by
  have withinHistory : age < history.length :=
    (List.getElem?_eq_some_iff.mp item).1
  constructor
  · have cell :=
      shown.probabilities.item
        (by rwa [shown.probabilityLength]) (by rwa [List.length_map])
    rwa [shown.probabilityLength, List.getElem?_map, item] at cell
  · have cell :=
      shown.bins.item
        (by rwa [shown.binLength]) (by rwa [List.length_map])
    rwa [shown.binLength, List.getElem?_map, item] at cell

/-- Setting the probability of an entry to zero mutes it. -/
theorem mute
    (shown : Shows histogram (leading ++ entry :: trailing))
    (inside : leading.length < histogram.lenCircularBuffer)
    (left : Nat) :
    Shows
      { histogram with
        activityProbability :=
          histogram.activityProbability.set
            (place histogram.lenCircularBuffer histogram.bufferIndex
              leading.length) 0
        lenHighActivity := left }
      (leading ++ entry.mute :: trailing) where
  probabilityLength := by
    dsimp only
    rw [List.length_set, shown.probabilityLength]
  binLength := shown.binLength
  probabilities := by
    have rewritten :=
      shown.probabilities.rewrite
        (by rwa [shown.probabilityLength]) 0
    rw [shown.probabilityLength, List.map_append, List.map_cons,
      ← List.length_map (f := Entry.weight), List.set_append_right _ _ le_rfl,
      Nat.sub_self, List.set_cons_zero] at rewritten
    rw [List.map_append, List.map_cons]
    simpa using rewritten
  bins := by
    have same := shown.bins
    rwa [List.map_append, List.map_cons] at same ⊢
  full := by
    have same := shown.full
    rw [List.length_append, List.length_cons] at same ⊢
    exact same
  level := by
    have same := shown.level
    rw [List.length_append, List.length_cons] at same ⊢
    exact same

/-- Writing the newest entry. -/
theorem writeNewest
    (shown : Shows histogram history)
    (probability : Int)
    (bin : Fin kHistSize) :
    Shows (histogram.writeNewest probability bin)
      (⟨probability, bin⟩ :: history) where
  probabilityLength := by
    unfold Histogram.writeNewest
    dsimp only
    rw [List.length_set, shown.probabilityLength]
  binLength := by
    unfold Histogram.writeNewest
    dsimp only
    rw [List.length_set, shown.binLength]
  probabilities := by
    have written := shown.probabilities.write probability
    rwa [shown.probabilityLength] at written
  bins := by
    have written := shown.bins.write bin
    rwa [shown.binLength] at written
  full := by
    have level := shown.level
    unfold Histogram.writeNewest
    dsimp only
    rw [shown.full, ← Bool.decide_or, decide_eq_decide, List.length_cons]
    omega
  level := by
    have level := shown.level
    unfold Histogram.writeNewest following
    dsimp only
    rw [List.length_cons]
    intro notFull
    rw [if_neg (by omega), level (by omega)]

end Shows

/-! ## One frame -/

namespace Histogram

variable {histogram : Histogram}
variable {history leading trailing : List (Entry (Fin kHistSize))}
variable {windowSize : Nat}

/-- What the removals leave alone. -/
structure Keeps (histogram next : Histogram) : Prop where
  lenCircularBuffer : next.lenCircularBuffer = histogram.lenCircularBuffer
  bufferIndex : next.bufferIndex = histogram.bufferIndex
  numUpdates : next.numUpdates = histogram.numUpdates

theorem Keeps.trans
    {middle next : Histogram}
    (first : Keeps histogram middle)
    (later : Keeps middle next) : Keeps histogram next where
  lenCircularBuffer := later.lenCircularBuffer.trans first.lenCircularBuffer
  bufferIndex := later.bufferIndex.trans first.bufferIndex
  numUpdates := later.numUpdates.trans first.numUpdates

/-- Sliding on takes the oldest entry of a full window out. -/
theorem removeOldestEntryAndUpdate_spec
    (shown : Shows histogram history)
    (counted : Counts histogram (history.take histogram.lenCircularBuffer)) :
    ∃ slid,
      histogram.removeOldestEntryAndUpdate = some slid ∧
        Shows slid history ∧
          Counts slid (history.take (slid.lenCircularBuffer - 1)) ∧
            Keeps histogram slid ∧
              slid.lenHighActivity = histogram.lenHighActivity := by
  have inside := shown.nextInside
  unfold removeOldestEntryAndUpdate
  by_cases full : histogram.lenCircularBuffer ≤ history.length
  · have oldestInside : histogram.lenCircularBuffer - 1 < history.length := by
      omega
    obtain ⟨prob, bin⟩ :=
      shown.read (by omega) (List.getElem?_eq_getElem oldestInside)
    rw [place_oldest inside] at prob bin
    have flag := shown.full
    rw [decide_eq_true full] at flag
    rw [flag, prob, bin]
    refine ⟨_, rfl, ?_, ?_, ⟨rfl, rfl, rfl⟩, rfl⟩
    · exact ⟨shown.probabilityLength, shown.binLength, shown.probabilities,
        shown.bins, shown.full, shown.level⟩
    · apply Counts.removeLast
      unfold updateHist
      dsimp only
      rw [List.take_append_getElem, Nat.sub_add_cancel (by omega)]
      exact counted
  · have flag := shown.full
    rw [decide_eq_false full] at flag
    rw [flag]
    refine ⟨histogram, rfl, shown, ?_, ⟨rfl, rfl, rfl⟩, rfl⟩
    rw [List.take_of_length_le (by omega)] at counted ⊢
    exact counted

/-- A turn of the loop mutes the entry whose place it is given. -/
theorem clearEntry_spec
    {entry : Entry (Fin kHistSize)}
    (shown : Shows histogram (leading ++ entry :: trailing))
    (counted :
      Counts histogram
        ((leading ++ entry :: trailing).take (histogram.lenCircularBuffer - 1)))
    (withinWindow : leading.length + 1 < histogram.lenCircularBuffer)
    (left : Nat) :
    ∃ cleared,
      histogram.clearEntry
          (place histogram.lenCircularBuffer histogram.bufferIndex
            leading.length) left = some cleared ∧
        Shows cleared (leading ++ entry.mute :: trailing) ∧
          Counts cleared
            ((leading ++ entry.mute :: trailing).take
              (cleared.lenCircularBuffer - 1)) ∧
            Keeps histogram cleared := by
  have here : (leading ++ entry :: trailing)[leading.length]? = some entry := by
    rw [List.getElem?_append_right le_rfl, Nat.sub_self]
    rfl
  obtain ⟨prob, bin⟩ := shown.read (by omega) here
  obtain ⟨span, spanEq⟩ :
      ∃ span,
        histogram.lenCircularBuffer - 1 = leading.length + (span + 1) :=
    ⟨histogram.lenCircularBuffer - 1 - leading.length - 1, by omega⟩
  rw [spanEq, List.take_length_add_append, List.take_succ_cons] at counted
  have muted := shown.mute (by omega) left
  have mutedCounts := counted.mute
  unfold clearEntry
  rw [prob, bin]
  refine ⟨_, rfl, ?_, ?_, ⟨rfl, rfl, rfl⟩⟩
  · exact ⟨muted.probabilityLength, muted.binLength, muted.probabilities,
      muted.bins, muted.full, muted.level⟩
  · unfold updateHist
    dsimp only
    rw [spanEq, List.take_length_add_append, List.take_succ_cons]
    exact ⟨mutedCounts.bins, mutedCounts.content⟩

/-- The loop mutes the newest entries that it has not muted yet, one by one. -/
theorem removeTransientLoop_spec
    (left : Nat)
    (shown : Shows histogram (leading ++ trailing))
    (counted :
      Counts histogram
        ((leading ++ trailing).take (histogram.lenCircularBuffer - 1)))
    (withinWindow : leading.length + left < histogram.lenCircularBuffer)
    (enough : left ≤ trailing.length) :
    ∃ removed,
      removeTransientLoop left
          (place histogram.lenCircularBuffer histogram.bufferIndex
            leading.length) histogram = some removed ∧
        Shows removed (leading ++ muteNewest left trailing) ∧
          Counts removed
            ((leading ++ muteNewest left trailing).take
              (removed.lenCircularBuffer - 1)) ∧
            Keeps histogram removed := by
  induction left generalizing histogram leading trailing with
  | zero =>
      exact ⟨histogram, rfl, shown, counted, ⟨rfl, rfl, rfl⟩⟩
  | succ left inductionHypothesis =>
      obtain _ | ⟨entry, trailing⟩ := trailing
      · exact absurd enough (Nat.not_succ_le_zero left)
      obtain ⟨cleared, ran, shows, counts, keeps⟩ :=
        clearEntry_spec shown counted (by omega) left
      rw [List.append_cons] at shows counts
      have nextPlace :
          preceding cleared.lenCircularBuffer
              (place histogram.lenCircularBuffer histogram.bufferIndex
                leading.length) =
            place cleared.lenCircularBuffer cleared.bufferIndex
              (leading ++ [entry.mute]).length := by
        rw [keeps.lenCircularBuffer, keeps.bufferIndex, List.length_append,
          List.length_singleton, place_succ shown.nextInside (by omega)]
      obtain ⟨removed, removedRan, removedShows, removedCounts, removedKeeps⟩ :=
        inductionHypothesis shows counts
          (by
            rw [List.length_append, List.length_singleton,
              keeps.lenCircularBuffer]
            omega)
          (Nat.le_of_succ_le_succ enough)
      rw [List.append_assoc] at removedShows removedCounts
      refine ⟨removed, ?_, removedShows, removedCounts, keeps.trans removedKeeps⟩
      rw [removeTransientLoop, ran, Option.bind_eq_bind, Option.bind_some,
        nextPlace, removedRan]

/-- What is left of the entries of a histogram. -/
def cleaned
    (entries : List (Entry (Fin kHistSize))) : List (Entry (Fin kHistSize)) :=
  settled kLowProbThresholdQ10 kTransientWidthThreshold entries

/-- The frames of high activity that are counted, up to one more than a transient has. -/
def countedRun (entries : List (Entry (Fin kHistSize))) : Nat :=
  min (activeRun kLowProbThresholdQ10 entries) (kTransientWidthThreshold + 1)

theorem kLowProbThresholdQ10_nonneg : 0 ≤ kLowProbThresholdQ10 := by
  decide

/-- Before the newest entry is written, the transient that it ends is taken out. -/
theorem settleActivity_spec
    {entry : Entry (Fin kHistSize)}
    (wide : kTransientWidthThreshold < histogram.lenCircularBuffer)
    (shown : Shows histogram history)
    (counted :
      Counts histogram (history.take (histogram.lenCircularBuffer - 1)))
    (high : histogram.lenHighActivity = countedRun history) :
    ∃ ready rest weight,
      histogram.settleActivity entry.weight = some (ready, weight) ∧
        record kLowProbThresholdQ10 kTransientWidthThreshold entry history =
          ⟨weight, entry.bin⟩ :: rest ∧
        Shows ready rest ∧
          Counts ready (rest.take (ready.lenCircularBuffer - 1)) ∧
            Keeps histogram ready ∧
              ready.lenHighActivity = countedRun (entry :: history) := by
  unfold settleActivity record
  unfold countedRun at high ⊢
  by_cases low : entry.weight ≤ kLowProbThresholdQ10
  · rw [if_pos low, if_pos low, activeRun_cons_of_le low, Nat.zero_min]
    by_cases short : activeRun kLowProbThresholdQ10 history ≤ kTransientWidthThreshold
    · rw [min_eq_left (by omega)] at high
      obtain ⟨removed, ran, shows, counts, keeps⟩ :=
        removeTransientLoop_spec histogram.lenHighActivity
          (show Shows histogram ([] ++ history) from shown) counted
          (by rw [high, List.length_nil]; omega)
          (by rw [high]; exact activeRun_le_length)
      rw [List.length_nil, place_zero shown.nextInside] at ran
      rw [List.nil_append, high] at shows counts
      rw [checkTransient, if_pos (by omega), removeTransient, ran, if_pos short]
      exact ⟨_, _, 0, rfl, rfl,
        ⟨shows.probabilityLength, shows.binLength, shows.probabilities,
          shows.bins, shows.full, shows.level⟩,
        ⟨counts.bins, counts.content⟩,
        ⟨keeps.lenCircularBuffer, keeps.bufferIndex, keeps.numUpdates⟩, rfl⟩
    · rw [checkTransient, if_neg (by omega), if_neg short]
      exact ⟨_, _, 0, rfl, rfl,
        ⟨shown.probabilityLength, shown.binLength, shown.probabilities,
          shown.bins, shown.full, shown.level⟩,
        ⟨counted.bins, counted.content⟩, ⟨rfl, rfl, rfl⟩, rfl⟩
  · rw [if_neg low, if_neg low, activeRun_cons_of_lt (not_le.mp low)]
    by_cases short : histogram.lenHighActivity ≤ kTransientWidthThreshold
    · rw [if_pos short]
      refine ⟨_, _, entry.weight, rfl, rfl,
        ⟨shown.probabilityLength, shown.binLength, shown.probabilities,
          shown.bins, shown.full, shown.level⟩,
        ⟨counted.bins, counted.content⟩, ⟨rfl, rfl, rfl⟩, ?_⟩
      dsimp only
      omega
    · rw [if_neg short]
      refine ⟨_, _, entry.weight, rfl, rfl, shown, counted, ⟨rfl, rfl, rfl⟩, ?_⟩
      omega

/-! ## Runs -/

/-- A sliding histogram of the entries since it was last reset. -/
structure Tracks
    (histogram : Histogram)
    (windowSize : Nat)
    (entries : List (Entry (Fin kHistSize))) : Prop where
  lenCircularBuffer : histogram.lenCircularBuffer = windowSize
  shows : Shows histogram (cleaned entries)
  counts : Counts histogram ((cleaned entries).take windowSize)
  high : histogram.lenHighActivity = countedRun entries
  updates : histogram.numUpdates = min entries.length (2 ^ 31 - 1)

theorem countedRun_cleaned (entries : List (Entry (Fin kHistSize))) :
    countedRun (cleaned entries) = countedRun entries := by
  unfold countedRun cleaned
  rw [activeRun_settled kLowProbThresholdQ10_nonneg]

theorem countedRun_cons_cleaned
    (entry : Entry (Fin kHistSize))
    (entries : List (Entry (Fin kHistSize))) :
    countedRun (entry :: cleaned entries) = countedRun (entry :: entries) := by
  unfold countedRun cleaned
  by_cases low : entry.weight ≤ kLowProbThresholdQ10
  · rw [activeRun_cons_of_le low, activeRun_cons_of_le low]
  · rw [activeRun_cons_of_lt (not_le.mp low), activeRun_cons_of_lt (not_le.mp low),
      activeRun_settled kLowProbThresholdQ10_nonneg]

/-- An entry is inserted after the transient that it may end is taken out. -/
theorem insertNewestEntryAndUpdate_of_settled
    {ready : Histogram}
    {prob weight : Int}
    (bin : Fin kHistSize)
    (positive : 0 < histogram.lenCircularBuffer)
    (ran : histogram.settleActivity prob = some (ready, weight)) :
    histogram.insertNewestEntryAndUpdate prob bin =
      some ((ready.writeNewest weight bin).countUpdate.updateHist weight bin) := by
  unfold insertNewestEntryAndUpdate
  rw [if_pos positive, ran]
  rfl

/-- The number of updates stays at the greatest number it can have. -/
theorem numUpdates_countUpdate
    {updates : Nat}
    (counted : histogram.numUpdates = min updates (2 ^ 31 - 1)) :
    histogram.countUpdate.numUpdates = min (updates + 1 : Nat) (2 ^ 31 - 1) := by
  unfold countUpdate
  dsimp only
  rw [counted]
  by_cases full : 2 ^ 31 - 1 ≤ updates
  · rw [min_eq_right (by omega), min_eq_right (by omega)]
    rfl
  · rw [min_eq_left (by omega), min_eq_left (by omega),
      int32_of_bounds (by omega) (by omega), if_neg (by omega)]
    rfl

/-- One update adds its frame. -/
theorem Tracks.update
    {entries : List (Entry (Fin kHistSize))}
    (wide : kTransientWidthThreshold < windowSize)
    (tracked : Tracks histogram windowSize entries)
    (entry : Entry (Fin kHistSize)) :
    ∃ next,
      histogram.update entry.weight entry.bin = some next ∧
        Tracks next windowSize (entry :: entries) := by
  have size := tracked.lenCircularBuffer
  have positive : 0 < histogram.lenCircularBuffer := by
    omega
  obtain ⟨slid, slidRan, slidShows, slidCounts, slidKeeps, slidHigh⟩ :=
    removeOldestEntryAndUpdate_spec tracked.shows
      (by rw [size]; exact tracked.counts)
  have slidSize := slidKeeps.lenCircularBuffer
  obtain ⟨ready, rest, weight, ran, recorded, shows, counts, keeps, high⟩ :=
    settleActivity_spec (by omega) slidShows slidCounts
      (by rw [slidHigh, tracked.high, countedRun_cleaned])
  have readySize : ready.lenCircularBuffer = windowSize := by
    rw [keeps.lenCircularBuffer, slidSize, size]
  have cleanedNext : cleaned (entry :: entries) = ⟨weight, entry.bin⟩ :: rest :=
    recorded
  have written := shows.writeNewest weight entry.bin
  have inserted := counts.insert ⟨weight, entry.bin⟩
  refine ⟨(ready.writeNewest weight entry.bin).countUpdate.updateHist weight
    entry.bin, ?_, ?_⟩
  · unfold Histogram.update slide
    rw [if_pos positive, slidRan]
    exact insertNewestEntryAndUpdate_of_settled entry.bin (by omega) ran
  constructor
  · exact readySize
  · rw [cleanedNext]
    exact ⟨written.probabilityLength, written.binLength, written.probabilities,
      written.bins, written.full, written.level⟩
  · obtain ⟨span, spanEq⟩ : ∃ span, windowSize = span + 1 :=
      ⟨windowSize - 1, by omega⟩
    rw [cleanedNext, spanEq, List.take_succ_cons]
    rw [readySize, spanEq, Nat.add_sub_cancel] at inserted
    exact ⟨inserted.bins, inserted.content⟩
  · exact high.trans (countedRun_cons_cleaned entry entries)
  · refine numUpdates_countUpdate ?_
    exact (keeps.numUpdates.trans slidKeeps.numUpdates).trans tracked.updates

/-- A histogram that has just been reset has no entries. -/
theorem tracks_reset
    (positive : 0 < windowSize)
    (size : histogram.lenCircularBuffer = windowSize)
    (probabilityLength : histogram.activityProbability.length = windowSize)
    (binLength : histogram.histBinIndex.length = windowSize) :
    Tracks histogram.reset windowSize [] where
  lenCircularBuffer := size
  shows :=
    { probabilityLength := probabilityLength.trans size.symm
      binLength := binLength.trans size.symm
      probabilities := holds_nil (probabilityLength.symm ▸ positive)
      bins := holds_nil (binLength.symm ▸ positive)
      full := (decide_eq_false (by
        dsimp only [reset]
        rw [size]
        exact Nat.not_le.mpr positive)).symm
      level := fun _ => rfl }
  counts := by
    rw [show cleaned [] = [] from rfl, List.take_nil]
    exact ⟨rfl, rfl⟩
  high := rfl
  updates := rfl

/-- One call of a run. -/
theorem Tracks.perform
    {entries : List (Entry (Fin kHistSize))}
    (wide : kTransientWidthThreshold < windowSize)
    (tracked : Tracks histogram windowSize entries)
    (call : HistogramCall) :
    ∃ next,
      histogram.perform call = some next ∧
        Tracks next windowSize (entriesSince entries [call]) := by
  cases call with
  | update prob bin =>
      exact tracked.update wide ⟨prob, bin⟩
  | reset =>
      have shown := tracked.shows
      exact ⟨histogram.reset, rfl,
        tracks_reset (by omega) tracked.lenCircularBuffer
          (shown.probabilityLength.trans tracked.lenCircularBuffer)
          (shown.binLength.trans tracked.lenCircularBuffer)⟩

theorem entriesSince_cons
    (entries : List (Entry (Fin kHistSize)))
    (call : HistogramCall)
    (rest : List HistogramCall) :
    entriesSince entries (call :: rest) =
      entriesSince (entriesSince entries [call]) rest := by
  cases call <;> rfl

theorem Tracks.foldlM
    {entries : List (Entry (Fin kHistSize))}
    (wide : kTransientWidthThreshold < windowSize)
    (tracked : Tracks histogram windowSize entries)
    (calls : List HistogramCall) :
    ∃ final,
      calls.foldlM Histogram.perform histogram = some final ∧
        Tracks final windowSize (entriesSince entries calls) := by
  induction calls generalizing histogram entries with
  | nil =>
      exact ⟨histogram, rfl, tracked⟩
  | cons call rest inductionHypothesis =>
      obtain ⟨next, ran, nextTracked⟩ := tracked.perform wide call
      obtain ⟨final, restRan, finalTracked⟩ := inductionHypothesis nextTracked
      refine ⟨final, ?_, ?_⟩
      · rw [List.foldlM_cons, ran]
        exact restRan
      · rw [entriesSince_cons]
        exact finalTracked

/-- A new histogram has no entries, whatever its memory held. -/
theorem tracks_create
    (positive : 0 < windowSize)
    (memory : Memory windowSize) :
    Tracks (create memory) windowSize [] :=
  show Tracks (create memory).reset windowSize [] from
    tracks_reset positive rfl memory.probabilityLength memory.binLength

/--
A sliding histogram that is wider than a transient counts, after any calls, exactly what
its last frames are without the transients among all frames since it was reset.
-/
theorem foldlM_perform_counts
    (wide : kTransientWidthThreshold < windowSize)
    (memory : Memory windowSize)
    (calls : List HistogramCall) :
    ∃ final,
      calls.foldlM Histogram.perform (create memory) = some final ∧
        (∀ bin,
          final.binCountQ10 bin =
            tally bin ((cleaned (entriesSince [] calls)).take windowSize)) ∧
          final.audioContentQ10 =
            content ((cleaned (entriesSince [] calls)).take windowSize) ∧
          final.numUpdates = min (entriesSince [] calls).length (2 ^ 31 - 1) := by
  obtain ⟨final, ran, tracked⟩ :=
    (tracks_create (Nat.zero_lt_of_lt wide) memory).foldlM wide calls
  exact ⟨final, ran, fun bin => congrFun tracked.counts.bins bin,
    tracked.counts.content, tracked.updates⟩

/-! ## Bursts of activity -/

/-- The updates with some entries, which are listed newest first. -/
def updatesOf (entries : List (Entry (Fin kHistSize))) : List HistogramCall :=
  entries.reverse.map fun entry => .update entry.weight entry.bin

theorem entriesSince_append
    (entries : List (Entry (Fin kHistSize)))
    (calls later : List HistogramCall) :
    entriesSince entries (calls ++ later) =
      entriesSince (entriesSince entries calls) later := by
  induction calls generalizing entries with
  | nil =>
      rfl
  | cons call rest inductionHypothesis =>
      rw [List.cons_append, entriesSince_cons, inductionHypothesis,
        ← entriesSince_cons]

theorem entriesSince_updatesOf
    (entries run : List (Entry (Fin kHistSize))) :
    entriesSince entries (updatesOf run) = run ++ entries := by
  induction run with
  | nil =>
      rfl
  | cons entry rest inductionHypothesis =>
      have split :
          updatesOf (entry :: rest) =
            updatesOf rest ++ [.update entry.weight entry.bin] := by
        unfold updatesOf
        rw [List.reverse_cons, List.map_append]
        rfl
      rw [split, entriesSince_append, inductionHypothesis]
      rfl

/-- The counts after some calls, as the histogram shows them. -/
def countsAfter
    (memory : Memory windowSize)
    (calls : List HistogramCall) : Option ((Fin kHistSize → Int) × Int) :=
  (calls.foldlM Histogram.perform (create memory)).map fun histogram =>
    (histogram.binCountQ10, histogram.audioContentQ10)

theorem countsAfter_eq
    (wide : kTransientWidthThreshold < windowSize)
    (memory : Memory windowSize)
    (calls : List HistogramCall) :
    countsAfter memory calls =
      some
        ((fun bin =>
            tally bin ((cleaned (entriesSince [] calls)).take windowSize)),
          content ((cleaned (entriesSince [] calls)).take windowSize)) := by
  obtain ⟨final, ran, tracked⟩ :=
    (tracks_create (Nat.zero_lt_of_lt wide) memory).foldlM wide calls
  unfold countsAfter
  rw [ran, Option.map_some, tracked.counts.bins, tracked.counts.content]

/--
A burst of activity between quiet frames that is no longer than a transient leaves no
trace: the histogram counts what it would if the frames of the burst had been quiet.
-/
theorem countsAfter_burst
    {past : List HistogramCall}
    {burst : List (Entry (Fin kHistSize))}
    {ending : Entry (Fin kHistSize)}
    (wide : kTransientWidthThreshold < windowSize)
    (memory : Memory windowSize)
    (quietPast : Quiet kLowProbThresholdQ10 (entriesSince [] past))
    (active : ∀ entry ∈ burst, kLowProbThresholdQ10 < entry.weight)
    (short : burst.length ≤ kTransientWidthThreshold)
    (quietEnd : ending.weight ≤ kLowProbThresholdQ10) :
    countsAfter memory (past ++ updatesOf (ending :: burst)) =
      countsAfter memory
        (past ++ updatesOf (ending :: burst.map Entry.mute)) := by
  have muted :
      ∀ entry ∈ ending :: burst.map Entry.mute,
        entry.weight ≤ kLowProbThresholdQ10 := by
    rw [List.forall_mem_cons, List.forall_mem_map]
    exact ⟨quietEnd, fun entry _ => kLowProbThresholdQ10_nonneg⟩
  have same :
      cleaned (entriesSince [] (past ++ updatesOf (ending :: burst))) =
        cleaned
          (entriesSince []
            (past ++ updatesOf (ending :: burst.map Entry.mute))) := by
    unfold cleaned
    rw [entriesSince_append, entriesSince_append, entriesSince_updatesOf,
      entriesSince_updatesOf, List.cons_append,
      settled_closed_run kLowProbThresholdQ10_nonneg quietEnd active quietPast,
      settled_append_of_low kLowProbThresholdQ10_nonneg muted quietPast,
      if_pos short, List.map_cons, List.map_map]
    rfl
  rw [countsAfter_eq wide, countsAfter_eq wide, same]

/-- The memory of a new histogram where it is all zero. -/
def zeroMemory (windowSize : Nat) : Memory windowSize where
  activityProbability := List.replicate windowSize 0
  histBinIndex := List.replicate windowSize 0
  probabilityLength := List.length_replicate ..
  binLength := List.length_replicate ..

/-- Seven active frames, with a quiet one after them. -/
def shortBurst : List HistogramCall :=
  List.replicate 7 (HistogramCall.update 1024 3) ++ [HistogramCall.update 100 4]

/-- The short burst is a transient: nothing is left of it. -/
theorem foldlM_perform_counts_shortBurst :
    ∃ final,
      shortBurst.foldlM Histogram.perform (create (zeroMemory 100)) = some final ∧
        (∀ bin,
          final.binCountQ10 bin =
            tally bin ((cleaned (entriesSince [] shortBurst)).take 100)) ∧
          final.audioContentQ10 = 0 := by
  obtain ⟨final, ran, counts, total, -⟩ :=
    foldlM_perform_counts (by decide) (zeroMemory 100)
      shortBurst
  exact ⟨final, ran, counts, total.trans (by decide)⟩

/-- Nor is anything of five active frames after a quiet one. -/
theorem countsAfter_burst_five :
    countsAfter (zeroMemory 100)
        ([.update 7 2] ++ updatesOf (⟨100, 4⟩ :: List.replicate 5 ⟨1024, 3⟩)) =
      countsAfter (zeroMemory 100)
        ([.update 7 2] ++
          updatesOf (⟨100, 4⟩ :: (List.replicate 5 ⟨1024, 3⟩).map Entry.mute)) :=
  countsAfter_burst (by decide) (zeroMemory 100)
    (fun entry isHead => by
      cases isHead
      decide)
    (by decide) (by decide) (by decide)

/-! ## The content -/

/-- `audio_content_q10_` is the sum of the components of `bin_count_q10_`. -/
def Balanced (histogram : Histogram) : Prop :=
  histogram.audioContentQ10 = ∑ bin, histogram.binCountQ10 bin

theorem Balanced.updateHist
    (balanced : Balanced histogram)
    (amount : Int)
    (bin : Fin kHistSize) : Balanced (histogram.updateHist amount bin) := by
  unfold Balanced Histogram.updateHist at *
  dsimp only
  rw [Finset.sum_update_of_mem (Finset.mem_univ bin), balanced,
    Fintype.sum_eq_add_sum_compl bin, Finset.compl_eq_univ_sdiff]
  omega

theorem Balanced.removeOldestEntryAndUpdate
    {slid : Histogram}
    (balanced : Balanced histogram)
    (ran : histogram.removeOldestEntryAndUpdate = some slid) :
    Balanced slid := by
  unfold Histogram.removeOldestEntryAndUpdate at ran
  split at ran
  · obtain rfl := Option.some.inj ran
    exact balanced
  · simp only [Option.bind_eq_bind, Option.bind_eq_some_iff,
      Option.some.injEq] at ran
    obtain ⟨prob, -, bin, -, rfl⟩ := ran
    exact balanced.updateHist (-prob) bin

theorem Balanced.removeTransientLoop
    {left index : Nat}
    {removed : Histogram}
    (balanced : Balanced histogram)
    (ran : removeTransientLoop left index histogram = some removed) :
    Balanced removed := by
  induction left generalizing index histogram with
  | zero =>
      obtain rfl := Option.some.inj ran
      exact balanced
  | succ left inductionHypothesis =>
      unfold Histogram.removeTransientLoop clearEntry at ran
      simp only [Option.bind_eq_bind, Option.bind_eq_some_iff,
        Option.some.injEq] at ran
      obtain ⟨cleared, ⟨prob, -, bin, -, rfl⟩, rest⟩ := ran
      have clearedBalanced :
          Balanced
            { histogram.updateHist (-prob) bin with
              activityProbability := histogram.activityProbability.set index 0
              lenHighActivity := left } :=
        balanced.updateHist (-prob) bin
      exact inductionHypothesis clearedBalanced rest

theorem Balanced.settleActivity
    {prob weight : Int}
    {ready : Histogram}
    (balanced : Balanced histogram)
    (ran : histogram.settleActivity prob = some (ready, weight)) :
    Balanced ready := by
  unfold Histogram.settleActivity at ran
  split at ran
  · simp only [Option.bind_eq_bind, Option.bind_eq_some_iff,
      Option.some.injEq, Prod.mk.injEq] at ran
    obtain ⟨removed, removal, rfl, -⟩ := ran
    unfold checkTransient at removal
    split at removal
    · exact show Balanced removed from Balanced.removeTransientLoop balanced removal
    · obtain rfl := Option.some.inj removal
      exact balanced
  · split at ran
    · obtain ⟨rfl, -⟩ := Prod.mk.inj (Option.some.inj ran)
      exact balanced
    · obtain ⟨rfl, -⟩ := Prod.mk.inj (Option.some.inj ran)
      exact balanced

theorem Balanced.perform
    {next : Histogram}
    {call : HistogramCall}
    (balanced : Balanced histogram)
    (ran : histogram.perform call = some next) :
    Balanced next := by
  cases call with
  | reset =>
      obtain rfl := Option.some.inj ran
      exact (Finset.sum_const_zero (s := Finset.univ)).symm
  | update prob bin =>
      unfold Histogram.perform Histogram.update slide
        insertNewestEntryAndUpdate at ran
      simp only [Option.bind_eq_bind, Option.bind_eq_some_iff] at ran
      obtain ⟨slid, slide, inserted⟩ := ran
      have slidBalanced : Balanced slid := by
        split at slide
        · exact balanced.removeOldestEntryAndUpdate slide
        · obtain rfl := Option.some.inj slide
          exact balanced
      split at inserted
      · simp only [Option.bind_eq_some_iff, Option.some.injEq] at inserted
        obtain ⟨ready, settling, rfl⟩ := inserted
        have readyBalanced : Balanced ready.1 :=
          slidBalanced.settleActivity settling
        have written : Balanced (ready.1.writeNewest ready.2 bin).countUpdate :=
          readyBalanced
        exact written.updateHist ready.2 bin
      · obtain rfl := Option.some.inj inserted
        have counted : Balanced slid.countUpdate := slidBalanced
        exact counted.updateHist prob bin

/-- In every state that calls reach the content is the sum of the bins. -/
theorem balanced_of_foldlM
    {memory : Memory windowSize}
    {calls : List HistogramCall}
    {final : Histogram}
    (ran : calls.foldlM Histogram.perform (create memory) = some final) :
    Balanced final := by
  have start : Balanced (create memory) :=
    (Finset.sum_const_zero (s := Finset.univ)).symm
  obtain ⟨moves, path, -⟩ := Path.exists_of_foldlM ran
  exact
    (path.invariant Balanced (fun balanced taken => balanced.perform taken) start).2

/-- Active frames that fill a window, and a quiet one after them. -/
def fullBurst (windowSize : Nat) : List HistogramCall :=
  List.replicate windowSize (HistogramCall.update 1024 0) ++
    [HistogramCall.update 0 0]

/-- In a window no wider than a transient the oldest frame is taken out twice. -/
theorem content_fullBurst :
    ∀ windowSize ∈ List.range (kTransientWidthThreshold + 1), 0 < windowSize →
      ((fullBurst windowSize).foldlM Histogram.perform
          (create (zeroMemory windowSize))).map Histogram.audioContentQ10 =
        some (-1024) := by
  decide

/--
The counts of a sliding histogram never fall below zero if and only if its window is wider
than a transient.
-/
theorem counts_nonneg_iff
    (positive : 0 < windowSize) :
    (∀ (memory : Memory windowSize) (calls : List HistogramCall)
        (final : Histogram),
      calls.foldlM Histogram.perform (create memory) = some final →
        0 ≤ final.audioContentQ10 ∧ ∀ bin, 0 ≤ final.binCountQ10 bin) ↔
      kTransientWidthThreshold < windowSize := by
  constructor
  · intro nonneg
    by_contra narrow
    have negative :=
      content_fullBurst windowSize
        (List.mem_range.mpr (by omega)) positive
    obtain ⟨final, ran, content⟩ := Option.map_eq_some_iff.mp negative
    have above := (nonneg _ _ final ran).1
    omega
  · intro wide memory calls final ran
    obtain ⟨reached, reachedRan, tracked⟩ :=
      (tracks_create positive memory).foldlM wide calls
    obtain rfl : reached = final :=
      Option.some.inj (reachedRan.symm.trans ran)
    have weights :
        ∀ entry ∈ (cleaned (entriesSince [] calls)).take windowSize,
          0 ≤ entry.weight := fun entry member =>
      weight_of_mem_settled le_rfl
        (fun _ _ high => kLowProbThresholdQ10_nonneg.trans high.le)
        entry (List.mem_of_mem_take member)
    have bins : ∀ bin, 0 ≤ reached.binCountQ10 bin := by
      intro bin
      rw [tracked.counts.bins]
      exact tally_nonneg bin weights
    exact ⟨(balanced_of_foldlM ran).symm ▸ Finset.sum_nonneg fun bin _ => bins bin,
      bins⟩

/-- A window of a hundred frames is wide enough. -/
theorem counts_nonneg_iff_hundred :
    (∀ (memory : Memory 100) (calls : List HistogramCall) (final : Histogram),
      calls.foldlM Histogram.perform (create memory) = some final →
        0 ≤ final.audioContentQ10 ∧ ∀ bin, 0 ≤ final.binCountQ10 bin) ↔
      kTransientWidthThreshold < 100 :=
  counts_nonneg_iff (by decide)

end Histogram

end ApmSdk.LoudnessHistogram
