import ApmSdk.AecCore
import ApmSdk.LabelledPath
import Mathlib.Data.List.GetD

namespace ApmSdk.Echo

/-!
# The partitioned filter of the echo canceller

The spectra of the far end are kept in a circular buffer whose period is the number of
partitions, with the last one at `xfBufBlockPos`.  Switching the extended filter on or off
changes the period and leaves the position and the spectra as they are.
-/

section Spectra

variable {F : Type} [Add F] [Sub F] [Mul F] [Neg F] [Zero F]

/-- `PART_LEN1` bins with their real and imaginary parts. -/
abbrev Spectrum (F : Type) := List (F × F)

/-- `PART_LEN1` -/
abbrev partLen1 : Nat := 65

/-- A spectrum of zeros. -/
def zeroSpectrum : Spectrum F :=
  List.replicate partLen1 (0, 0)

/-- `MulRe` -/
def mulRe (aRe aIm bRe bIm : F) : F :=
  aRe * bRe - aIm * bIm

/-- `MulIm` -/
def mulIm (aRe aIm bRe bIm : F) : F :=
  aRe * bIm + aIm * bRe

/-- The spectrum at `xPos`: that of a partition, after one check for wrap. -/
def farSlot
    (numPartitions xFftBufBlockPos : Nat)
    (xFftBuf : List (Spectrum F))
    (i : Nat) : Spectrum F :=
  let xPos :=
    if numPartitions ≤ i + xFftBufBlockPos then
      i + xFftBufBlockPos - numPartitions
    else i + xFftBufBlockPos
  xFftBuf.getD xPos zeroSpectrum

/-- One partition of `FilterFar`. -/
def accumulate (yFft x h : Spectrum F) : Spectrum F :=
  (List.range partLen1).map fun j =>
    let y := yFft.getD j (0, 0)
    let x := x.getD j (0, 0)
    let h := h.getD j (0, 0)
    (y.1 + mulRe x.1 x.2 h.1 h.2, y.2 + mulIm x.1 x.2 h.1 h.2)

/-- `FilterFar` -/
def filterFar
    (numPartitions xFftBufBlockPos : Nat)
    (xFftBuf hFftBuf : List (Spectrum F))
    (yFft : Spectrum F) : Spectrum F :=
  (List.range numPartitions).foldl
    (fun y i =>
      accumulate y (farSlot numPartitions xFftBufBlockPos xFftBuf i)
        (hFftBuf.getD i zeroSpectrum))
    yFft

/-- The conjugate of a far spectrum times the error, in the order of the real FFT. -/
def gradient (x eFft : Spectrum F) : List F :=
  let bin (j : Nat) : F × F :=
    let x := x.getD j (0, 0)
    let e := eFft.getD j (0, 0)
    (mulRe x.1 (-x.2) e.1 e.2, mulIm x.1 (-x.2) e.1 e.2)
  ((List.range 64).flatMap fun j => [(bin j).1, (bin j).2]).set 1 (bin 64).1

/-- A filter partition after an update in the order of the real FFT. -/
def addPacked (h : Spectrum F) (fft : List F) : Spectrum F :=
  (List.range partLen1).map fun j =>
    let bin := h.getD j (0, 0)
    if j = 0 then (bin.1 + fft.getD 0 0, bin.2)
    else if j = 64 then (bin.1 + fft.getD 1 0, bin.2)
    else (bin.1 + fft.getD (2 * j) 0, bin.2 + fft.getD (2 * j + 1) 0)

/-- `FilterAdaptation`; `constrain` is the inverse FFT, the cut of its second half, the
scaling and the FFT. -/
def filterAdaptation
    (constrain : List F → List F)
    (numPartitions xFftBufBlockPos : Nat)
    (xFftBuf : List (Spectrum F))
    (eFft : Spectrum F)
    (hFftBuf : List (Spectrum F)) : List (Spectrum F) :=
  (List.range numPartitions).foldl
    (fun h i =>
      h.modify i
        (addPacked ·
          (constrain
            (gradient (farSlot numPartitions xFftBufBlockPos xFftBuf i)
              eFft))))
    hFftBuf

end Spectra

/-! ## The state -/

/-- The filter of an `AecCore`. -/
structure EchoFilter (F : Type) where
  numPartitions : Nat
  extendedFilterEnabled : Bool
  xfBufBlockPos : Nat
  xfBuf : List (Spectrum F)
  wfBuf : List (Spectrum F)

/-- A block of the far end.  `errorOf` is what the near end and the power of the far end
make of an echo estimate: the scaled error signal. -/
structure FarBlock (F : Type) where
  xFft : Spectrum F
  extremeFilterDivergence : Bool
  errorOf : Spectrum F → Spectrum F

/-- A call that reaches the filter. -/
inductive FilterCall (F : Type) where
  | initAec
  | enableExtendedFilter (enable : Bool)
  | processBlock (block : FarBlock F)

namespace EchoFilter

variable {F : Type} [Add F] [Sub F] [Mul F] [Neg F] [Zero F]

/-- `WebRtcAec_InitAec` -/
def initAec (aec : EchoFilter F) : EchoFilter F :=
  { aec with
    numPartitions := kNormalNumPartitions.toNat
    xfBufBlockPos := 0
    xfBuf := List.replicate 32 zeroSpectrum
    wfBuf := List.replicate 32 zeroSpectrum }

/-- `WebRtcAec_enable_extended_filter` -/
def enableExtendedFilter
    (aec : EchoFilter F)
    (enable : Bool) : EchoFilter F :=
  { aec with
    extendedFilterEnabled := enable
    numPartitions :=
      (if enable then kExtendedNumPartitions else kNormalNumPartitions).toNat }

/-- The far end of `EchoSubtraction`: the position and the spectra. -/
def buffer (aec : EchoFilter F) (xFft : Spectrum F) : EchoFilter F :=
  -- one less, where -1 becomes the last partition
  let xfBufBlockPos :=
    if aec.xfBufBlockPos = 0 then aec.numPartitions - 1
    else aec.xfBufBlockPos - 1
  { aec with
    xfBufBlockPos
    xfBuf := aec.xfBuf.set xfBufBlockPos xFft }

/-- `EchoSubtraction`: the filter, and the echo estimate. -/
def echoSubtraction
    (constrain : List F → List F)
    (aec : EchoFilter F)
    (block : FarBlock F) : EchoFilter F × Spectrum F :=
  let aec := aec.buffer block.xFft
  let wfBuf :=
    if !aec.extendedFilterEnabled && block.extremeFilterDivergence then
      List.replicate 32 zeroSpectrum
    else aec.wfBuf
  let sFft :=
    filterFar aec.numPartitions aec.xfBufBlockPos aec.xfBuf wfBuf zeroSpectrum
  ({ aec with
      wfBuf :=
        filterAdaptation constrain aec.numPartitions aec.xfBufBlockPos
          aec.xfBuf (block.errorOf sFft) wfBuf },
    sFft)

/-- `WebRtcAec_CreateAec` and the first `WebRtcAec_InitAec`. -/
def create : EchoFilter F where
  numPartitions := kNormalNumPartitions.toNat
  extendedFilterEnabled := false
  xfBufBlockPos := 0
  xfBuf := List.replicate 32 zeroSpectrum
  wfBuf := List.replicate 32 zeroSpectrum

end EchoFilter

/-- A filter with the spectra of the far end since the start, the last one first, and the
number of partitions that the last block used. -/
structure RecordedFilter (F : Type) where
  aec : EchoFilter F
  far : List (Spectrum F)
  period : Nat

namespace RecordedFilter

variable {F : Type} [Add F] [Sub F] [Mul F] [Neg F] [Zero F]

/-- The far spectrum of a number of blocks ago, zero before the start. -/
def blocksAgo (far : List (Spectrum F)) (i : Nat) : Spectrum F :=
  far.getD i zeroSpectrum

/-- A filter before its first block. -/
def start (aec : EchoFilter F) : RecordedFilter F :=
  ⟨aec, [], aec.numPartitions⟩

/-- A call on the filter. -/
def perform
    (constrain : List F → List F)
    (recorded : RecordedFilter F) : FilterCall F → Option (RecordedFilter F)
  | .initAec => some (start recorded.aec.initAec)
  | .enableExtendedFilter enable =>
      some { recorded with aec := recorded.aec.enableExtendedFilter enable }
  | .processBlock block =>
      some
        ⟨(recorded.aec.echoSubtraction constrain block).1,
          block.xFft :: recorded.far, recorded.aec.numPartitions⟩

/-- What a block must do: the position is a partition, and every partition is combined
with the spectrum of as many blocks ago. -/
structure Paired
    (recorded : RecordedFilter F)
    (block : FarBlock F) : Prop where
  position :
    (recorded.aec.buffer block.xFft).xfBufBlockPos <
      recorded.aec.numPartitions
  spectra :
    ∀ i < recorded.aec.numPartitions,
      farSlot recorded.aec.numPartitions
          (recorded.aec.buffer block.xFft).xfBufBlockPos
          (recorded.aec.buffer block.xFft).xfBuf i =
        blocksAgo (block.xFft :: recorded.far) i

/-- Every block pairs the partitions with the spectra. -/
def CallPaired
    (recorded : RecordedFilter F) : FilterCall F → Prop
  | .processBlock block => Paired recorded block
  | .initAec | .enableExtendedFilter _ => True

/--
Where a change of the period is harmless: the spectra are at the start of the buffer, and
the slots that come in have the spectra of as many blocks ago, or none of them has been
written.
-/
def Switchable (recorded : RecordedFilter F) : Prop :=
  if recorded.period < recorded.aec.numPartitions then
    recorded.far.length ≤ recorded.period ∨
      recorded.aec.xfBufBlockPos ≤ 1 ∧
        ∀ slot, recorded.period ≤ slot →
          slot < recorded.aec.numPartitions →
            recorded.aec.xfBuf.getD slot zeroSpectrum =
              blocksAgo recorded.far (slot - recorded.aec.xfBufBlockPos)
  else recorded.aec.xfBufBlockPos ≤ 1

/-- A block has the period of the block before it, or comes after a harmless change. -/
def KeepsPeriod
    (recorded : RecordedFilter F) : FilterCall F → Prop
  | .processBlock _ =>
      recorded.aec.numPartitions ≠ recorded.period → Switchable recorded
  | .initAec | .enableExtendedFilter _ => True

/-- A period of the buffer. -/
def IsPeriod (numPartitions : Nat) : Prop :=
  numPartitions = 12 ∨ numPartitions = 32

/-- After a block, the slots of its period hold the spectra from the position on.  Before
the twelfth block either the filter was long from the start, or only the slots of the
short period have been written. -/
structure Buffered (recorded : RecordedFilter F) : Prop where
  partitions : IsPeriod recorded.aec.numPartitions
  period : IsPeriod recorded.period
  position : recorded.aec.xfBufBlockPos < recorded.period
  slots : recorded.aec.xfBuf.length = 32
  spectra :
    ∀ i < recorded.period,
      farSlot recorded.period recorded.aec.xfBufBlockPos
          recorded.aec.xfBuf i =
        blocksAgo recorded.far i
  beginning :
    recorded.far.length ≤ 12 →
      recorded.aec.xfBufBlockPos + recorded.far.length = 32 ∨
        (recorded.far = [] ∧ recorded.aec.xfBufBlockPos = 0 ∨
            recorded.aec.xfBufBlockPos + recorded.far.length = 12) ∧
          ∀ slot, 12 ≤ slot →
            recorded.aec.xfBuf.getD slot zeroSpectrum = zeroSpectrum

end RecordedFilter

/-! ## Slots -/

section Slots

variable {F : Type} [Zero F]

/-- The slot of a far spectrum is the one that was written, for the last one. -/
theorem farSlot_zero
    {numPartitions xFftBufBlockPos : Nat}
    (xFftBuf : List (Spectrum F))
    (inRange : xFftBufBlockPos < numPartitions) :
    farSlot numPartitions xFftBufBlockPos xFftBuf 0 =
      xFftBuf.getD xFftBufBlockPos zeroSpectrum := by
  rw [farSlot, if_neg (by omega), Nat.zero_add]

/-- Before the wrap a partition is at its distance from the position. -/
theorem farSlot_of_lt
    {numPartitions xFftBufBlockPos i : Nat}
    (xFftBuf : List (Spectrum F))
    (noWrap : i + xFftBufBlockPos < numPartitions) :
    farSlot numPartitions xFftBufBlockPos xFftBuf i =
      xFftBuf.getD (i + xFftBufBlockPos) zeroSpectrum := by
  simp only [farSlot, if_neg (Nat.not_le.mpr noWrap)]

/-- After the wrap it is as far from the start of the buffer. -/
theorem farSlot_of_le
    {numPartitions xFftBufBlockPos i : Nat}
    (xFftBuf : List (Spectrum F))
    (wraps : numPartitions ≤ i + xFftBufBlockPos) :
    farSlot numPartitions xFftBufBlockPos xFftBuf i =
      xFftBuf.getD (i + xFftBufBlockPos - numPartitions) zeroSpectrum := by
  simp only [farSlot, if_pos wraps]

/-- Before the start every spectrum is zero. -/
theorem blocksAgo_of_le
    {far : List (Spectrum F)}
    {i : Nat}
    (before : far.length ≤ i) :
    RecordedFilter.blocksAgo far i = zeroSpectrum :=
  List.getD_eq_default _ _ before

/-- A slot of a buffer that has been cleared. -/
theorem getD_cleared (slots slot : Nat) :
    (List.replicate slots (zeroSpectrum : Spectrum F)).getD slot
        zeroSpectrum =
      zeroSpectrum := by
  rw [List.getD_eq_getElem?_getD, List.getElem?_replicate]
  split
  next =>
      rfl
  next =>
      rfl

/-- A slot other than the one written keeps its spectrum. -/
theorem getD_set_of_ne
    {xfBuf : List (Spectrum F)}
    {written slot : Nat}
    (x : Spectrum F)
    (other : slot ≠ written) :
    (xfBuf.set written x).getD slot zeroSpectrum =
      xfBuf.getD slot zeroSpectrum := by
  simp only [List.getD_eq_getElem?_getD,
    List.getElem?_set_ne (Ne.symm other)]

end Slots

namespace EchoFilter

variable {F : Type} {aec : EchoFilter F}

/-- Buffering leaves the position inside the period. -/
theorem buffer_position_lt
    (xFft : Spectrum F)
    (partitions : 0 < aec.numPartitions)
    (inRange : aec.xfBufBlockPos ≤ aec.numPartitions) :
    (aec.buffer xFft).xfBufBlockPos < aec.numPartitions := by
  simp only [buffer]
  split
  next =>
      omega
  next =>
      omega

/-- Buffering puts the spectrum at the position, and the partitions move on by one. -/
theorem farSlot_buffer
    [Zero F]
    (xFft : Spectrum F)
    (slots : aec.numPartitions ≤ aec.xfBuf.length)
    (inRange : aec.xfBufBlockPos ≤ aec.numPartitions)
    {i : Nat}
    (isPartition : i < aec.numPartitions) :
    farSlot aec.numPartitions (aec.buffer xFft).xfBufBlockPos
        (aec.buffer xFft).xfBuf i =
      match i with
      | 0 => xFft
      | i + 1 => farSlot aec.numPartitions aec.xfBufBlockPos aec.xfBuf i := by
  have written := buffer_position_lt xFft (by omega) inRange
  cases i with
  | zero =>
      rw [farSlot_zero _ written]
      simp only [buffer] at written ⊢
      rw [List.getD_eq_getElem?_getD,
        List.getElem?_set_self (by omega), Option.getD_some]
  | succ i =>
      by_cases atStart : aec.xfBufBlockPos = 0
      · -- the position wraps to the last partition, and so do all the others
        simp only [buffer, if_pos atStart]
        rw [farSlot_of_le _ (by omega),
          farSlot_of_lt _ (by omega),
          getD_set_of_ne _ (by omega)]
        congr 1
        omega
      · simp only [buffer, if_neg atStart]
        by_cases wraps : aec.numPartitions ≤ i + aec.xfBufBlockPos
        · rw [farSlot_of_le _ (by omega),
            farSlot_of_le _ wraps,
            getD_set_of_ne _ (by omega)]
          congr 1
          omega
        · rw [farSlot_of_lt _ (by omega),
            farSlot_of_lt _ (by omega),
            getD_set_of_ne _ (by omega)]
          congr 1
          omega

end EchoFilter

/-! ## What a block pairs -/

namespace RecordedFilter

section Pairing

variable {F : Type} [Zero F]
variable {recorded : RecordedFilter F}

/-- A block pairs the partitions where the slots of its period hold the spectra from the
position on, up to the one that is written over. -/
theorem paired_of_slots
    (block : FarBlock F)
    (partitions : IsPeriod recorded.aec.numPartitions)
    (slots : recorded.aec.xfBuf.length = 32)
    (inRange : recorded.aec.xfBufBlockPos ≤ recorded.aec.numPartitions)
    (spectra :
      ∀ i, i + 1 < recorded.aec.numPartitions →
        farSlot recorded.aec.numPartitions recorded.aec.xfBufBlockPos
            recorded.aec.xfBuf i =
          blocksAgo recorded.far i) :
    Paired recorded block where
  position :=
    EchoFilter.buffer_position_lt _
      (by cases partitions <;> omega) inRange
  spectra := by
    intro i isPartition
    rw [EchoFilter.farSlot_buffer _
      (by cases partitions <;> omega) inRange isPartition]
    cases i with
    | zero =>
        rfl
    | succ i =>
        exact spectra i isPartition

/-- While nothing has been written past the short period, the long one finds zeros there. -/
theorem Buffered.spectra_of_beginning
    (buffered : Buffered recorded)
    (short : recorded.period = 12)
    (atBeginning : recorded.far.length ≤ 12)
    (i : Nat)
    (isPartition : i < 32) :
    farSlot 32 recorded.aec.xfBufBlockPos recorded.aec.xfBuf i =
      blocksAgo recorded.far i := by
  have position := buffered.position
  have spectra := buffered.spectra
  rw [short] at position spectra
  obtain long | ⟨written, unwritten⟩ := buffered.beginning atBeginning
  · omega
  · have length :
        recorded.far.length ≤ 12 - recorded.aec.xfBufBlockPos := by
      obtain ⟨none, _⟩ | written := written
      · simp [none]
      · omega
    by_cases wraps : 32 ≤ i + recorded.aec.xfBufBlockPos
    · -- the short period has wrapped to the same slot
      have earlier := spectra (i - 20) (by omega)
      rw [farSlot_of_le _ (by omega)] at earlier
      rw [farSlot_of_le _ wraps, blocksAgo_of_le (by omega)]
      rw [blocksAgo_of_le (by omega)] at earlier
      rw [← earlier]
      congr 1
      omega
    · rw [farSlot_of_lt _ (by omega)]
      by_cases inShort : i + recorded.aec.xfBufBlockPos < 12
      · rw [← spectra i (by omega), farSlot_of_lt _ inShort]
      · rw [unwritten _ (by omega), blocksAgo_of_le (by omega)]

/-- Under the invariant, a block that keeps the period or comes after a harmless change
pairs the partitions. -/
theorem Buffered.paired
    (buffered : Buffered recorded)
    (block : FarBlock F)
    (kept :
      recorded.aec.numPartitions ≠ recorded.period → Switchable recorded) :
    Paired recorded block := by
  have position := buffered.position
  have partitions := buffered.partitions
  have spectra := buffered.spectra
  by_cases same : recorded.aec.numPartitions = recorded.period
  · refine
      paired_of_slots block partitions buffered.slots (by omega)
        fun i inPeriod => ?_
    rw [same]
    exact spectra i (by omega)
  · have switchable := kept same
    unfold Switchable at switchable
    obtain short | long := buffered.period
    · have long : recorded.aec.numPartitions = 32 :=
        partitions.resolve_left (by omega)
      rw [if_pos (by omega), short, long] at switchable
      rw [short] at spectra position
      refine
        paired_of_slots block partitions buffered.slots (by omega)
          fun i inPeriod => ?_
      rw [long] at inPeriod ⊢
      obtain atBeginning | ⟨atStart, incoming⟩ := switchable
      · exact
          buffered.spectra_of_beginning short atBeginning i (by omega)
      · rw [farSlot_of_lt _ (by omega)]
        by_cases inShort : i + recorded.aec.xfBufBlockPos < 12
        · rw [← spectra i (by omega), farSlot_of_lt _ inShort]
        · rw [incoming _ (by omega) (by omega)]
          congr 1
          omega
    · have short : recorded.aec.numPartitions = 12 :=
        partitions.resolve_right (by omega)
      rw [if_neg (by omega)] at switchable
      rw [long] at spectra
      refine
        paired_of_slots block partitions buffered.slots (by omega)
          fun i inPeriod => ?_
      rw [short] at inPeriod ⊢
      rw [← spectra i (by omega), farSlot_of_lt _ (by omega),
        farSlot_of_lt _ (by omega)]

/-- Only the slot of the position is written. -/
theorem Buffered.beginning_buffer
    (buffered : Buffered recorded)
    (x : Spectrum F)
    (early : recorded.far.length + 1 ≤ 12) :
    (recorded.aec.buffer x).xfBufBlockPos + (recorded.far.length + 1) = 32 ∨
      (recorded.aec.buffer x).xfBufBlockPos + (recorded.far.length + 1) = 12 ∧
        ∀ slot, 12 ≤ slot →
          (recorded.aec.buffer x).xfBuf.getD slot zeroSpectrum =
            zeroSpectrum := by
  obtain long | ⟨written, unwritten⟩ := buffered.beginning (by omega)
  · simp only [EchoFilter.buffer,
      if_neg (show recorded.aec.xfBufBlockPos ≠ 0 by omega)]
    omega
  · obtain ⟨none, atStart⟩ | written := written
    · simp only [EchoFilter.buffer, if_pos atStart, none, List.length_nil]
      obtain short | long := buffered.partitions
      · refine .inr ⟨by omega, fun slot past => ?_⟩
        rw [getD_set_of_ne _ (by omega)]
        exact unwritten slot past
      · omega
    · simp only [EchoFilter.buffer,
        if_neg (show recorded.aec.xfBufBlockPos ≠ 0 by omega)]
      refine .inr ⟨by omega, fun slot past => ?_⟩
      rw [getD_set_of_ne _ (by omega)]
      exact unwritten slot past

/-- The invariant holds before the first block. -/
theorem Buffered.start
    {aec : EchoFilter F}
    (partitions : IsPeriod aec.numPartitions)
    (position : aec.xfBufBlockPos = 0)
    (cleared : aec.xfBuf = List.replicate 32 zeroSpectrum) :
    Buffered (start aec) where
  partitions := partitions
  period := partitions
  position := by
    cases partitions <;> simp only [RecordedFilter.start] <;> omega
  slots := by
    simp [RecordedFilter.start, cleared]
  spectra := by
    intro i inPeriod
    simp only [RecordedFilter.start, position, farSlot, cleared] at inPeriod ⊢
    rw [getD_cleared, blocksAgo_of_le (Nat.zero_le i)]
  beginning := by
    intro early
    refine .inr ⟨.inl ⟨rfl, position⟩, fun slot past => ?_⟩
    simp only [RecordedFilter.start, cleared]
    exact getD_cleared ..

end Pairing

section Runs

variable {F : Type} [Add F] [Sub F] [Mul F] [Neg F] [Zero F]
variable {constrain : List F → List F}

/-- A call keeps the invariant, where blocks keep the period or come after a harmless
change. -/
theorem Buffered.perform
    {recorded target : RecordedFilter F}
    {call : FilterCall F}
    (buffered : Buffered recorded)
    (kept : KeepsPeriod recorded call)
    (performed : recorded.perform constrain call = some target) :
    Buffered target := by
  cases call with
  | initAec =>
      cases performed
      exact .start (.inl rfl) rfl rfl
  | enableExtendedFilter enable =>
      cases performed
      exact
        { buffered with
          partitions := by
            cases enable
            · exact .inl rfl
            · exact .inr rfl }
  | processBlock block =>
      cases performed
      have paired := buffered.paired block kept
      exact
        { partitions := buffered.partitions
          period := buffered.partitions
          position := paired.position
          slots := by
            simp only [EchoFilter.echoSubtraction, EchoFilter.buffer,
              List.length_set]
            exact buffered.slots
          spectra := paired.spectra
          beginning := by
            intro early
            obtain long | ⟨written, unwritten⟩ :=
              buffered.beginning_buffer block.xFft early
            · exact .inl long
            · exact .inr ⟨.inr written, unwritten⟩ }

/--
Every block of a run pairs the partitions of the filter with the spectra of as many blocks
ago, at a position inside the period, where a change of the period is followed by a block
only when it is harmless.
-/
theorem run_paired_of_keepsPeriod
    {calls : List (FilterCall F)}
    (kept :
      AlongRun (perform constrain) KeepsPeriod (start .create) calls) :
    AlongRun (perform constrain) CallPaired (start .create) calls := by
  refine
    AlongRun.of_guard Buffered
      (fun buffered keeps performed => buffered.perform keeps performed)
      ?_ (.start (.inl rfl) rfl rfl) kept
  intro recorded call buffered keeps
  cases call with
  | processBlock block =>
      exact buffered.paired block keeps
  | initAec =>
      trivial
  | enableExtendedFilter enable =>
      trivial

end Runs

section Combined

variable {F : Type} [Add F] [Sub F] [Mul F] [Zero F]

/-- The echo estimate of a block that pairs the partitions. -/
theorem Paired.filterFar_eq
    {recorded : RecordedFilter F}
    {block : FarBlock F}
    (paired : Paired recorded block)
    (hFftBuf : List (Spectrum F))
    (yFft : Spectrum F) :
    filterFar recorded.aec.numPartitions
        (recorded.aec.buffer block.xFft).xfBufBlockPos
        (recorded.aec.buffer block.xFft).xfBuf hFftBuf yFft =
      (List.range recorded.aec.numPartitions).foldl
        (fun y i =>
          accumulate y (blocksAgo (block.xFft :: recorded.far) i)
            (hFftBuf.getD i zeroSpectrum))
        yFft := by
  refine List.foldl_ext _ _ _ fun y i member => ?_
  rw [paired.spectra i (List.mem_range.mp member)]

/-- The adaptation in a block that pairs the partitions. -/
theorem Paired.filterAdaptation_eq
    [Neg F]
    {constrain : List F → List F}
    {recorded : RecordedFilter F}
    {block : FarBlock F}
    (paired : Paired recorded block)
    (eFft : Spectrum F)
    (hFftBuf : List (Spectrum F)) :
    filterAdaptation constrain recorded.aec.numPartitions
        (recorded.aec.buffer block.xFft).xfBufBlockPos
        (recorded.aec.buffer block.xFft).xfBuf eFft hFftBuf =
      (List.range recorded.aec.numPartitions).foldl
        (fun h i =>
          h.modify i
            (addPacked ·
              (constrain
                (gradient (blocksAgo (block.xFft :: recorded.far) i) eFft))))
        hFftBuf := by
  refine List.foldl_ext _ _ _ fun h i member => ?_
  rw [paired.spectra i (List.mem_range.mp member)]

end Combined

/-- A block of the far end with one number in the first bin. -/
def tone (level : Int) : FarBlock Int where
  xFft := (level, 0) :: List.replicate 64 (0, 0)
  extremeFilterDivergence := false
  errorOf := id

/-- Two blocks after the extended filter has been enabled. -/
def extendedRun : List (FilterCall Int) :=
  [.enableExtendedFilter true, .processBlock (tone 5), .processBlock (tone 6)]

/-- Enabled before the first block, the extended filter pairs the partitions. -/
theorem paired_extendedRun :
    AlongRun (perform id) CallPaired
      (start (.create : EchoFilter Int)) extendedRun := by
  refine run_paired_of_keepsPeriod ⟨trivial, fun _ enabled => ?_⟩
  cases enabled
  refine ⟨fun _ => .inl (Nat.zero_le _), fun _ performed => ?_⟩
  cases performed
  exact ⟨fun changed => absurd rfl changed, fun _ _ => trivial⟩

/--
Two blocks with the extended filter leave the position at 30; in the first block after the
switch to the normal filter it is 29 of 12.
-/
theorem not_run_paired_disabled :
    ¬ ∀ calls,
        AlongRun (perform id) CallPaired (start (.create : EchoFilter Int)) calls := by
  intro claimed
  have along :=
    claimed
      [.enableExtendedFilter true, .processBlock (tone 5),
        .processBlock (tone 6), .enableExtendedFilter false,
        .processBlock (tone 7)]
  have last :=
    ((((along.2 _ rfl).2 _ rfl).2 _ rfl).2 _ rfl).1
  exact absurd last.position (by decide +kernel)

end RecordedFilter

end ApmSdk.Echo
