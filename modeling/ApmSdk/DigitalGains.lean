import ApmSdk.DigitalLimiter

namespace ApmSdk.Agc

/-!
# The gains of the digital gain control

A gain is interpolated between two entries of the table, drawn towards the first entry by
the gate, and lowered by the limiter.  Interpolation and gate stay between entries of the
table; what can leave 32 bits are the products by the fraction and by the gate's factor,
and the shift of a gain by four bits.
-/

/-- Between two entries of a table. -/
def Within (table : List Int) (gain : Int) : Prop :=
  (∃ low ∈ table, low ≤ gain) ∧ ∃ high ∈ table, gain ≤ high

theorem within_of_mem
    {table : List Int}
    {entry : Int}
    (member : entry ∈ table) :
    Within table entry :=
  ⟨⟨entry, member, Int.le_refl entry⟩, entry, member, Int.le_refl entry⟩

/-- Between two values that are within the table. -/
theorem Within.between
    {table : List Int}
    {first second gain : Int}
    (firstWithin : Within table first)
    (secondWithin : Within table second)
    (lower : min first second ≤ gain)
    (upper : gain ≤ max first second) :
    Within table gain := by
  obtain ⟨⟨firstLow, firstLowMem, firstLowLe⟩, firstHigh, firstHighMem,
    firstLeHigh⟩ := firstWithin
  obtain ⟨⟨secondLow, secondLowMem, secondLowLe⟩, secondHigh, secondHighMem,
    secondLeHigh⟩ := secondWithin
  constructor
  · rcases Int.le_total first second with ordered | ordered
    · exact ⟨firstLow, firstLowMem, by omega⟩
    · exact ⟨secondLow, secondLowMem, by omega⟩
  · rcases Int.le_total first second with ordered | ordered
    · exact ⟨secondHigh, secondHighMem, by omega⟩
    · exact ⟨firstHigh, firstHighMem, by omega⟩

/-- A part of a difference, in steps of a power of two, is between zero and the
difference. -/
theorem part_bounds
    {factor : Int}
    {bits : Nat}
    (difference : Int)
    (nonneg : 0 ≤ factor)
    (atMost : factor ≤ 2 ^ bits) :
    min 0 difference ≤ (difference * factor) >>> bits ∧
      (difference * factor) >>> bits ≤ max 0 difference := by
  have positive : (0 : Int) < 2 ^ bits := Int.pow_pos (by decide)
  rw [Int.shiftRight_eq_div_pow]
  push_cast
  rcases Int.le_total 0 difference with up | down
  · rw [min_eq_left up, max_eq_right up]
    constructor
    · exact Int.ediv_nonneg (Int.mul_nonneg up nonneg) positive.le
    · apply Int.ediv_le_of_le_mul positive
      exact Int.mul_le_mul_of_nonneg_left atMost up
  · rw [min_eq_right down, max_eq_left down]
    constructor
    · apply (Int.le_ediv_iff_mul_le positive).mpr
      exact Int.mul_le_mul_of_nonpos_left down atMost
    · apply Int.ediv_nonpos_of_nonpos_of_neg _ positive
      exact Int.mul_nonpos_of_nonpos_of_nonneg down nonneg

/-! ## Levels -/

/-- The decay factor is never positive. -/
theorem decayFactor_bounds
    (agcMode stdLongTerm logratio lowlevelSignal : Int) :
    -65 ≤ decayFactor agcMode stdLongTerm logratio lowlevelSignal ∧
      decayFactor agcMode stdLongTerm logratio lowlevelSignal ≤ 0 := by
  have plain :
      -65 ≤
          (if 1024 < logratio then -65
            else if logratio < 0 then 0
            else int16 (((0 - logratio) * 65) >>> (10 : Nat)) : Int) ∧
        (if 1024 < logratio then -65
            else if logratio < 0 then 0
            else int16 (((0 - logratio) * 65) >>> (10 : Nat)) : Int) ≤ 0 := by
    split
    · decide
    · split
      · decide
      · rw [Int.shiftRight_eq_div_pow, int16_of_bounds (by omega) (by omega)]
        omega
  unfold decayFactor
  dsimp only
  generalize
    (if 1024 < logratio then -65
      else if logratio < 0 then 0
      else int16 (((0 - logratio) * 65) >>> (10 : Nat)) : Int) = decay
    at plain ⊢
  split
  · exact plain
  split
  · decide
  split
  · decide
  split
  next above below =>
      obtain ⟨partLower, partUpper⟩ :=
        part_bounds decay
          (show 0 ≤ stdLongTerm - 4000 by omega)
          (show stdLongTerm - 4000 ≤ 2 ^ 12 by omega)
      rw [mul_comm, int16_of_bounds (by omega) (by omega)]
      omega
  · exact plain

/-- A decay leaves a level between zero and what it was. -/
theorem decayed_level
    {decay level : Int}
    (lower : -1000 ≤ decay)
    (upper : decay ≤ 0)
    (isEnvelope : IsEnvelope level) :
    0 ≤ agcScaleDiff32 decay level level ∧
      agcScaleDiff32 decay level level ≤ level := by
  obtain ⟨nonneg, atMost⟩ := isEnvelope
  unfold agcScaleDiff32
  simp only [Int.shiftRight_eq_div_pow]
  have high :
      -1000 * (level / (2 ^ 16 : Nat)) ≤ level / (2 ^ 16 : Nat) * decay ∧
        level / (2 ^ 16 : Nat) * decay ≤ 0 := by
    have part : 0 ≤ level / (2 ^ 16 : Nat) := by omega
    constructor <;> nlinarith
  have low :
      -1000 * (level % 2 ^ 16) ≤ level % 2 ^ 16 * decay ∧
        level % 2 ^ 16 * decay ≤ 0 := by
    have part : 0 ≤ level % 2 ^ 16 := by omega
    constructor <;> nlinarith
  generalize level / (2 ^ 16 : Nat) * decay = highPart at *
  generalize level % 2 ^ 16 * decay = lowPart at *
  rw [int32_of_bounds (by omega) (by omega)]
  omega

/-- The slow follower rises towards the envelope. -/
theorem raised_level
    {env level : Int}
    (isEnvelope : IsEnvelope env)
    (isLevel : IsEnvelope level)
    (below : level < env) :
    level ≤ agcScaleDiff32 500 (int32 (env - level)) level ∧
      agcScaleDiff32 500 (int32 (env - level)) level ≤ env := by
  obtain ⟨envNonneg, envAtMost⟩ := isEnvelope
  obtain ⟨nonneg, atMost⟩ := isLevel
  unfold agcScaleDiff32
  simp only [Int.shiftRight_eq_div_pow]
  rw [int32_of_bounds (show -(2 ^ 31) ≤ env - level by omega) (by omega),
    int32_of_bounds (by omega) (by omega)]
  omega

/-- Followers within the range of an envelope. -/
def Capacitors.InRange (capacitors : Capacitors) : Prop :=
  IsEnvelope capacitors.fast ∧ IsEnvelope capacitors.slow

theorem Capacitors.InRange.curLevel
    {capacitors : Capacitors}
    (inRange : capacitors.InRange) :
    IsEnvelope capacitors.curLevel := by
  unfold Capacitors.curLevel
  split
  · exact inRange.1
  · exact inRange.2

theorem Capacitors.InRange.follow
    {capacitors : Capacitors}
    {decay env : Int}
    (inRange : capacitors.InRange)
    (lower : -65 ≤ decay)
    (upper : decay ≤ 0)
    (isEnvelope : IsEnvelope env) :
    (capacitors.follow decay env).InRange := by
  obtain ⟨fast, slow⟩ := inRange
  constructor
  · unfold Capacitors.follow
    dsimp only
    split
    · exact isEnvelope
    · obtain ⟨nonneg, smaller⟩ :=
        decayed_level (show -1000 ≤ (-1000 : Int) by decide) (by decide) fast
      exact ⟨nonneg, Int.le_trans smaller fast.2⟩
  · unfold Capacitors.follow
    dsimp only
    split
    next below =>
        obtain ⟨larger, atMost⟩ := raised_level isEnvelope slow below
        exact
          ⟨Int.le_trans slow.1 larger, Int.le_trans atMost isEnvelope.2⟩
    next =>
        obtain ⟨nonneg, smaller⟩ :=
          decayed_level (by omega) upper slow
        exact ⟨nonneg, Int.le_trans smaller slow.2⟩

/-- The followers over a frame, and all of its levels, stay in range. -/
theorem Capacitors.InRange.followAll
    {capacitors : Capacitors}
    {decay : Int}
    {envelopes : List Int}
    (inRange : capacitors.InRange)
    (lower : -65 ≤ decay)
    (upper : decay ≤ 0)
    (areEnvelopes : ∀ env ∈ envelopes, IsEnvelope env) :
    (Capacitors.followAll decay capacitors envelopes).1.InRange ∧
      ∀ level ∈ (Capacitors.followAll decay capacitors envelopes).2,
        IsEnvelope level := by
  induction envelopes generalizing capacitors with
  | nil =>
      exact ⟨inRange, by simp [Capacitors.followAll]⟩
  | cons env rest inductionHypothesis =>
      rw [List.forall_mem_cons] at areEnvelopes
      have next := inRange.follow lower upper areEnvelopes.1
      obtain ⟨last, levels⟩ := inductionHypothesis next areEnvelopes.2
      refine ⟨last, ?_⟩
      unfold Capacitors.followAll
      dsimp only
      rw [List.forall_mem_cons]
      exact ⟨next.curLevel, levels⟩

/-- A level has between 1 and 31 leading zeros. -/
theorem levelZeros_bounds
    {level : Int}
    (isEnvelope : IsEnvelope level) :
    1 ≤ levelZeros level ∧ levelZeros level ≤ 31 := by
  obtain ⟨nonneg, atMost⟩ := isEnvelope
  have word : uint32 level = level :=
    Int.emod_eq_of_lt nonneg (by omega)
  unfold levelZeros normU32
  rw [word]
  by_cases zero : level = 0
  · rw [if_pos zero]
    decide
  · rw [if_neg zero, if_neg zero]
    refine ⟨?_, leadingZeros_le 32 level⟩
    obtain ⟨least, -⟩ :=
      leadingZeros_normalises (by decide) (by decide)
        (show 0 < level by omega) (show level < 2 ^ 32 by omega)
    by_contra none
    have noZeros : leadingZeros 32 level = 0 := by omega
    rw [noZeros] at least
    omega

theorem levelFrac_bounds (level : Int) :
    0 ≤ levelFrac level ∧ levelFrac level < 2 ^ 12 := by
  unfold levelFrac
  rw [Int.shiftRight_eq_div_pow]
  omega

/-! ## Interpolation -/

/-- The difference of the two entries that a level is between. -/
def entryDifference (gainTable : List Int) (level : Int) : Int :=
  gainTable.getD (levelZeros level - 1) 0 -
    gainTable.getD (levelZeros level) 0

/-- The interpolated gain over exact integers. -/
def exactInterpolated (gainTable : List Int) (level : Int) : Int :=
  gainTable.getD (levelZeros level) 0 +
    (entryDifference gainTable level * levelFrac level) >>> (12 : Nat)

/-- What the interpolation must do. -/
structure InterpolationExact (gainTable : List Int) (level : Int) : Prop where
  difference : Fits32 (entryDifference gainTable level)
  product : Fits32 (entryDifference gainTable level * levelFrac level)
  sum : Fits32 (exactInterpolated gainTable level)

/-- Then it computes the exact gain. -/
theorem InterpolationExact.interpolatedGain_eq
    {gainTable : List Int}
    {level : Int}
    (exact : InterpolationExact gainTable level) :
    interpolatedGain gainTable level = exactInterpolated gainTable level := by
  have difference := exact.difference.int32_eq
  have product := exact.product.int32_eq
  have sum := exact.sum.int32_eq
  unfold exactInterpolated entryDifference at *
  unfold interpolatedGain
  dsimp only
  rw [difference, product, sum]

/-- A table of 32 words. -/
structure IsGainTable (gainTable : List Int) : Prop where
  length : gainTable.length = 32
  fits : ∀ entry ∈ gainTable, Fits32 entry

theorem IsGainTable.getD_mem
    {gainTable : List Int}
    {index : Nat}
    (isTable : IsGainTable gainTable)
    (inside : index < 32) :
    gainTable.getD index 0 ∈ gainTable := by
  have bound : index < gainTable.length := by
    rw [isTable.length]
    exact inside
  rw [← List.getElem_eq_getD 0 (h := bound)]
  exact List.getElem_mem bound

/-- The exact interpolated gain is between two neighbouring entries. -/
theorem IsGainTable.exactInterpolated_within
    {gainTable : List Int}
    {level : Int}
    (isTable : IsGainTable gainTable)
    (isEnvelope : IsEnvelope level) :
    Within gainTable (exactInterpolated gainTable level) ∧
      Fits32 (exactInterpolated gainTable level) := by
  obtain ⟨some, few⟩ := levelZeros_bounds isEnvelope
  obtain ⟨nonneg, below⟩ := levelFrac_bounds level
  have low := isTable.getD_mem (show levelZeros level < 32 by omega)
  have high := isTable.getD_mem (show levelZeros level - 1 < 32 by omega)
  obtain ⟨partLower, partUpper⟩ :=
    part_bounds (entryDifference gainTable level) nonneg below.le
  have lowFits := isTable.fits _ low
  have highFits := isTable.fits _ high
  unfold exactInterpolated
  generalize
    (entryDifference gainTable level * levelFrac level) >>> (12 : Nat) = part
    at partLower partUpper ⊢
  unfold entryDifference at partLower partUpper
  unfold Fits32 at *
  constructor
  · exact
      (within_of_mem low).between (within_of_mem high) (by omega) (by omega)
  · omega

/-! ## The gate -/

/-- The product of the gate: large differences are shifted before it. -/
def gateProduct (difference gate : Int) : Int :=
  if 8388608 < difference then difference >>> (8 : Nat) * gateFactor gate
  else difference * gateFactor gate

/-- The part of a difference that the gate leaves, over exact integers. -/
def gatePart (difference gate : Int) : Int :=
  if 8388608 < difference then gateProduct difference gate
  else gateProduct difference gate >>> (8 : Nat)

/-- A gain after the gate, over exact integers. -/
def exactGated (lowest gate gain : Int) : Int :=
  if 0 < gate then lowest + gatePart (gain - lowest) gate else gain

/-- What the gate must do where it is open. -/
structure GateExact (lowest gate gain : Int) : Prop where
  difference : 0 < gate → Fits32 (gain - lowest)
  product : 0 < gate → Fits32 (gateProduct (gain - lowest) gate)
  sum : Fits32 (exactGated lowest gate gain)

/-- Then it computes the exact gain. -/
theorem GateExact.gatedGain_eq
    {lowest gate gain : Int}
    (exact : GateExact lowest gate gain) :
    gatedGain lowest gate gain = exactGated lowest gate gain := by
  have sum := exact.sum.int32_eq
  unfold exactGated at sum ⊢
  unfold gatedGain
  by_cases isOpen : 0 < gate
  · have product := (exact.product isOpen).int32_eq
    rw [if_pos isOpen] at sum ⊢
    rw [if_pos isOpen, (exact.difference isOpen).int32_eq]
    unfold gatePart gateProduct at *
    by_cases large : 8388608 < gain - lowest
    · simp only [if_pos large] at *
      rw [product, sum]
    · simp only [if_neg large] at *
      rw [product, sum]
  · rw [if_neg isOpen, if_neg isOpen]

theorem gateFactor_bounds
    {gate : Int}
    (isOpen : 0 < gate) :
    178 ≤ gateFactor gate ∧ gateFactor gate ≤ 2 ^ 8 := by
  unfold gateFactor
  split
  · rw [Int.shiftRight_eq_div_pow]
    omega
  · decide

/-- What the gate leaves is between zero and the difference. -/
theorem gatePart_bounds
    {gate : Int}
    (difference : Int)
    (isOpen : 0 < gate) :
    min 0 difference ≤ gatePart difference gate ∧
      gatePart difference gate ≤ max 0 difference := by
  obtain ⟨lower, upper⟩ := gateFactor_bounds isOpen
  unfold gatePart gateProduct
  by_cases large : 8388608 < difference
  · simp only [if_pos large]
    rw [Int.shiftRight_eq_div_pow]
    have nonneg : 0 ≤ difference / (2 ^ 8 : Nat) := by omega
    have product :
        difference / (2 ^ 8 : Nat) * gateFactor gate ≤
          difference / (2 ^ 8 : Nat) * 2 ^ 8 :=
      Int.mul_le_mul_of_nonneg_left upper nonneg
    have positive : 0 ≤ difference / (2 ^ 8 : Nat) * gateFactor gate :=
      Int.mul_nonneg nonneg (by omega)
    omega
  · simp only [if_neg large]
    exact part_bounds difference (by omega) upper

/-- A gain after the gate is between the first entry and the gain. -/
theorem exactGated_within
    {table : List Int}
    {lowest gate gain : Int}
    (lowestWithin : Within table lowest)
    (gainWithin : Within table gain) :
    Within table (exactGated lowest gate gain) := by
  unfold exactGated
  split
  next isOpen =>
      obtain ⟨lower, upper⟩ := gatePart_bounds (gain - lowest) isOpen
      exact
        lowestWithin.between gainWithin (by omega) (by omega)
  next =>
      exact gainWithin

/-- The difference of a gain from the first entry, times the gate's factor, has 32 bits:
gains that are more than 128 above it are shifted first. -/
structure GateFits (lowest gate gain : Int) : Prop where
  difference : 0 < gate → Fits32 (gain - lowest)
  product :
    0 < gate →
      gain - lowest ≤ 8388608 → Fits32 ((gain - lowest) * gateFactor gate)

theorem gateExact_iff
    {lowest gate gain : Int}
    (lowestFits : Fits32 lowest)
    (gainFits : Fits32 gain) :
    GateExact lowest gate gain ↔ GateFits lowest gate gain := by
  constructor
  · intro exact
    refine ⟨exact.difference, ?_⟩
    intro isOpen small
    have product := exact.product isOpen
    unfold gateProduct at product
    rwa [if_neg (by omega)] at product
  · intro fits
    refine ⟨fits.difference, ?_, ?_⟩
    · intro isOpen
      have difference := fits.difference isOpen
      by_cases large : 8388608 < gain - lowest
      · obtain ⟨lower, upper⟩ := gatePart_bounds (gain - lowest) isOpen
        unfold gatePart at lower upper
        rw [if_pos large] at lower upper
        unfold Fits32 at *
        omega
      · unfold gateProduct
        rw [if_neg large]
        exact fits.product isOpen (by omega)
    · unfold exactGated
      split
      next isOpen =>
          obtain ⟨lower, upper⟩ := gatePart_bounds (gain - lowest) isOpen
          unfold Fits32 at *
          omega
      next =>
          exact gainFits

/-! ## Gains that are applied -/

/-- What the ramp between two gains must do. -/
structure ShiftExact (shift : Nat) (gain next : Int) : Prop where
  start : Fits32 (gain * 2 ^ 4)
  difference : Fits32 (next - gain)
  delta : Fits32 ((next - gain) * 2 ^ shift)

/-- Gains of 27 bits can be shifted. -/
theorem shiftExact_of_bounds
    {shift : Nat}
    {gain next : Int}
    (narrow : shift ≤ 1)
    (gainBounds : 0 ≤ gain ∧ gain < 2 ^ 27)
    (nextBounds : 0 ≤ next ∧ next < 2 ^ 27) :
    ShiftExact shift gain next := by
  refine
    ⟨⟨by omega, by omega⟩, ⟨by omega, by omega⟩, ?_⟩
  interval_cases shift
  · exact ⟨by omega, by omega⟩
  · exact ⟨by omega, by omega⟩

/-- A gain that is not negative is never raised by the limiter. -/
theorem limitedGain_bounds
    {env gain last : Int}
    (nonneg : 0 ≤ gain)
    (fits : Fits32 gain)
    (isLast : limitedGain env gain = some last) :
    0 ≤ last ∧ last ≤ gain := by
  have loop
      (zeros fuel : Nat)
      (current : Int)
      (currentNonneg : 0 ≤ current)
      (currentFits : Fits32 current)
      (ended : limitLoop env zeros fuel current = some last) :
      0 ≤ last ∧ last ≤ current := by
    induction fuel generalizing current with
    | zero =>
        exact nomatch ended
    | succ fuel inductionHypothesis =>
        unfold limitLoop at ended
        split at ended
        · obtain ⟨reducedNonneg, smaller, -⟩ :=
            reducedGain_nonneg currentNonneg currentFits
          obtain ⟨lastNonneg, lastLe⟩ :=
            inductionHypothesis (reducedGain current) reducedNonneg
              ⟨by have := currentFits.1; omega,
                by have := currentFits.2; omega⟩
              ended
          exact ⟨lastNonneg, Int.le_trans lastLe smaller⟩
        · obtain rfl := Option.some.inj ended
          exact ⟨currentNonneg, Int.le_refl current⟩
  exact loop _ _ gain nonneg fits isLast

/-- The limiter lowers every gain of 27 bits and more below that, unless the loudness that
it starts with overflows. -/
theorem limitedGain_lt
    {env gain last : Int}
    (isEnvelope : IsEnvelope env)
    (nonneg : 0 ≤ gain)
    (fits : Fits32 gain)
    (large : 2 ^ 27 ≤ gain → Loud32 env (limitZeros gain) gain)
    (isLast : limitedGain env gain = some last) :
    last < 2 ^ 27 := by
  obtain ⟨lastNonneg, smaller⟩ := limitedGain_bounds nonneg fits isLast
  rcases Int.lt_or_le gain (2 ^ 27) with small | atLeast
  · omega
  · by_contra notBelow
    have limiter := (limiterExact_iff isEnvelope fits).mpr (large atLeast)
    have bounded := limiter.bounded last isLast
    obtain ⟨fewest, most, -, -⟩ := limitZeros_bounds fits
    obtain ⟨positive, -⟩ := scaledEnv_bounds isEnvelope
    generalize limitZeros gain = zeros at bounded fewest most
    -- at every shift the squared gain alone is above the bound
    have scaled : 2 ^ 27 / 2 ^ zeros ≤ scaledGain zeros last := by
      unfold scaledGain
      rw [Int.shiftRight_eq_div_pow, Nat.cast_pow, Nat.cast_ofNat]
      have ordered :
          (2 ^ 27 : Int) / 2 ^ zeros ≤ last / 2 ^ zeros :=
        Int.ediv_le_ediv (by positivity) (by omega)
      exact Int.le_trans ordered (Int.le_add_of_nonneg_right (by decide))
    have power : (0 : Int) ≤ 2 ^ 27 / 2 ^ zeros :=
      Int.ediv_nonneg (by decide) (by positivity)
    have square :
        2 ^ 27 / 2 ^ zeros * (2 ^ 27 / 2 ^ zeros) ≤
          scaledGain zeros last * scaledGain zeros last :=
      mul_le_mul scaled scaled power (by omega)
    have loud :
        1 * (2 ^ 27 / 2 ^ zeros * (2 ^ 27 / 2 ^ zeros)) ≤
          scaledEnv env * (scaledGain zeros last * scaledGain zeros last) :=
      mul_le_mul positive square (mul_self_nonneg _) (by omega)
    have exact :
        1 * (2 ^ 27 / 2 ^ zeros * (2 ^ 27 / 2 ^ zeros)) / 2 ^ 13 ≤
          exactLoudness env zeros last :=
      Int.ediv_le_ediv (by decide) loud
    have above :
        overloadBound zeros <
          1 * (2 ^ 27 / 2 ^ zeros * (2 ^ 27 / 2 ^ zeros)) / 2 ^ 13 := by
      interval_cases zeros <;> decide
    omega

/-- What the limiter makes of a gain: a smaller one only where its test fails. -/
structure LimitedFrom (env before gain : Int) : Prop where
  nonneg : 0 ≤ gain
  atMost : gain ≤ before
  lowered :
    gain = before ∨
      overloadBound (limitZeros before) <
        loudness env (limitZeros before) before

theorem limitedFrom_limitedGain
    {env gain last : Int}
    (nonneg : 0 ≤ gain)
    (fits : Fits32 gain)
    (isLast : limitedGain env gain = some last) :
    LimitedFrom env gain last := by
  obtain ⟨lastNonneg, smaller⟩ := limitedGain_bounds nonneg fits isLast
  refine ⟨lastNonneg, smaller, ?_⟩
  unfold limitedGain limitLoop at isLast
  split at isLast
  next louder =>
      exact .inr louder
  next =>
      exact .inl (Option.some.inj isLast).symm

/-- Reductions are done earlier, by gains of the same list. -/
theorem mem_of_mem_advanceReductions
    {gains : List Int}
    {gain : Int}
    (member : gain ∈ advanceReductions gains) :
    gain ∈ gains := by
  induction gains using advanceReductions.induct with
  | case1 first next rest inductionHypothesis =>
      unfold advanceReductions at member
      rcases List.mem_cons.mp member with rfl | later
      · split
        · exact .tail _ (.head _)
        · exact .head _
      · exact .tail _ (inductionHypothesis later)
  | case2 gains short =>
      rw [advanceReductions] at member
      · exact member
      · exact short

/-- A calculated table is one of 32 words. -/
theorem isGainTable_of_calculated
    {agcMode : Int}
    {agcConfig : AgcConfig}
    {gainTable : List Int}
    (calculated : gainTableOf agcMode agcConfig = some gainTable) :
    IsGainTable gainTable := by
  refine ⟨length_gainTable calculated, ?_⟩
  intro entry member
  obtain ⟨parameters, -, entries⟩ := Option.bind_eq_some_iff.mp calculated
  obtain ⟨i, -, isEntry⟩ := mem_of_mapM entries member
  obtain ⟨generated, -, rfl⟩ := Option.map_eq_some_iff.mp isEntry
  unfold power
  split
  · exact int32_bounds _
  · decide

/-! ## Calls and runs -/

instance (table : List Int) (gain : Int) : Decidable (Within table gain) :=
  inferInstanceAs (Decidable (_ ∧ _))

namespace DigitalAgc

/-- A digital gain control that can be reached. -/
structure InRange (stt : DigitalAgc) : Prop where
  capacitors :
    Capacitors.InRange ⟨stt.capacitorFast, stt.capacitorSlow⟩
  gainTable : IsGainTable stt.gainTable

theorem inRange_started
    {agcMode : Int}
    {gainTable : List Int}
    (isTable : IsGainTable gainTable) :
    (started agcMode gainTable).InRange := by
  have zero : IsEnvelope 0 := ⟨by decide, by decide⟩
  refine ⟨⟨zero, ?_⟩, isTable⟩
  unfold started
  dsimp only
  split
  · exact zero
  · exact ⟨by decide, by decide⟩

/-- The followers of a frame stay in range. -/
theorem InRange.followed
    {stt : DigitalAgc}
    (inRange : stt.InRange)
    (frame : DigitalFrame) :
    (stt.followed frame.low).1.InRange ∧
      ∀ level ∈ (stt.followed frame.low).2, IsEnvelope level := by
  obtain ⟨lower, upper⟩ :=
    decayFactor_bounds stt.agcMode (stt.nearend frame.low).stdLongTerm
      (logratio (stt.nearend frame.low) stt.vadFarend)
      frame.low.lowlevelSignal
  exact
    inRange.capacitors.followAll lower upper
      (fun env member => isEnvelope_envelope frame.low_sampled member)

/-- What a call returns on a frame. -/
theorem perform_process
    {stt next : DigitalAgc}
    {frame : DigitalFrame}
    (performed : stt.perform (.process frame) = some next) :
    (next.capacitorFast = (stt.followed frame.low).1.fast ∧
      next.capacitorSlow = (stt.followed frame.low).1.slow ∧
        next.gainTable = stt.gainTable) ∧
      ∃ limited,
        stt.limitedGains frame.low = some limited ∧
          next.gain = (stt.appliedGains limited).getD 10 0 := by
  unfold perform processDigital at performed
  dsimp only at performed
  rw [frame.rate] at performed
  obtain ⟨processed, isProcessed, rfl⟩ := Option.map_eq_some_iff.mp performed
  obtain ⟨limited, isLimited, rfl⟩ := Option.map_eq_some_iff.mp isProcessed
  exact ⟨⟨rfl, rfl, rfl⟩, limited, isLimited, rfl⟩

/-- Every call keeps the ranges. -/
theorem InRange.perform
    {stt next : DigitalAgc}
    {call : DigitalCall}
    (inRange : stt.InRange)
    (performed : stt.perform call = some next) :
    next.InRange := by
  cases call with
  | init agcMode =>
      obtain ⟨gainTable, calculated, rfl⟩ :=
        Option.map_eq_some_iff.mp performed
      have isTable := isGainTable_of_calculated calculated
      have fresh : (started agcMode gainTable).InRange :=
        inRange_started isTable
      exact ⟨fresh.capacitors, isTable⟩
  | setConfig agcConfig =>
      unfold DigitalAgc.perform at performed
      dsimp only at performed
      split at performed
      · obtain rfl := Option.some.inj performed
        exact inRange
      · obtain ⟨gainTable, calculated, rfl⟩ :=
          Option.map_eq_some_iff.mp performed
        exact ⟨inRange.capacitors, isGainTable_of_calculated calculated⟩
  | addFarend frame =>
      obtain rfl := Option.some.inj performed
      exact ⟨inRange.capacitors, inRange.gainTable⟩
  | process frame =>
      obtain ⟨⟨fast, slow, table⟩, -⟩ := perform_process performed
      refine ⟨?_, ?_⟩
      · rw [fast, slow]
        exact (inRange.followed frame).1
      · rw [table]
        exact inRange.gainTable

/-- `4 - L2`: what the differences of gains are shifted by. -/
def rampShift (low : LowBand) : Nat :=
  if low.samplesPerMs = 8 then 1 else 0

/-- Interpolation, gate and shifts of a frame do not overflow. -/
structure GainsExact (stt : DigitalAgc) (low : LowBand) : Prop where
  interpolation :
    ∀ level ∈ (stt.followed low).2, InterpolationExact stt.gainTable level
  gate :
    ∀ level ∈ (stt.followed low).2,
      GateExact (stt.gainTable.getD 0 0) (stt.gate low).1
        (exactInterpolated stt.gainTable level)
  shifts :
    ∀ limited, stt.limitedGains low = some limited →
      ∀ k < 10,
        ShiftExact (rampShift low) ((stt.appliedGains limited).getD k 0)
          ((stt.appliedGains limited).getD (k + 1) 0)

/-- Every gain that is applied is between the smallest and the largest entry. -/
def GainsWithin (stt : DigitalAgc) (low : LowBand) : Prop :=
  ∀ limited, stt.limitedGains low = some limited →
    ∀ gain ∈ stt.appliedGains limited, Within stt.gainTable gain

/-- Every gain before the limiter is between the smallest and the largest entry.  A gain
that is applied is the last one of the frame before, or one of these after the limiter. -/
structure GainsBounded (stt : DigitalAgc) (low : LowBand) : Prop where
  unlimited : ∀ gain ∈ stt.unlimitedGains low, Within stt.gainTable gain
  applied :
    ∀ limited, stt.limitedGains low = some limited →
      ∀ gain ∈ stt.appliedGains limited,
        gain = stt.gain ∨
          ∃ input ∈ stt.limiterInputs low, LimitedFrom input.1 input.2 gain

/-- A frame whose products have 32 bits: no entry of the table has wrapped to a negative
number, the difference of two entries times the fraction fits, the difference from the
first entry times the gate's factor fits where it is not shifted first, and so does the
loudness of a gain of 27 bits or more. -/
structure ProductsFit (stt : DigitalAgc) (low : LowBand) : Prop where
  entries : ∀ entry ∈ stt.gainTable, 0 ≤ entry
  interpolation :
    ∀ level ∈ (stt.followed low).2,
      Fits32 (entryDifference stt.gainTable level * levelFrac level)
  gate :
    0 < (stt.gate low).1 →
      ∀ level ∈ (stt.followed low).2,
        let difference :=
          exactInterpolated stt.gainTable level - stt.gainTable.getD 0 0
        difference ≤ 8388608 →
          Fits32 (difference * gateFactor (stt.gate low).1)
  loudness :
    ∀ input ∈ stt.limiterInputs low,
      2 ^ 27 ≤ input.2 → Loud32 input.1 (limitZeros input.2) input.2

/-- A gain within a table that has no negative entry is not negative. -/
theorem nonneg_of_within
    {table : List Int}
    {gain : Int}
    (entries : ∀ entry ∈ table, 0 ≤ entry)
    (within : Within table gain) :
    0 ≤ gain := by
  obtain ⟨⟨entry, member, lower⟩, -⟩ := within
  exact Int.le_trans (entries entry member) lower

namespace ProductsFit

variable {stt : DigitalAgc} {frame : DigitalFrame}

theorem interpolationExact
    (fit : stt.ProductsFit frame.low)
    (inRange : stt.InRange)
    {level : Int}
    (member : level ∈ (stt.followed frame.low).2) :
    InterpolationExact stt.gainTable level := by
  have isEnvelope := (inRange.followed frame).2 level member
  obtain ⟨some, few⟩ := levelZeros_bounds isEnvelope
  have low :=
    inRange.gainTable.getD_mem (show levelZeros level < 32 by omega)
  have high :=
    inRange.gainTable.getD_mem (show levelZeros level - 1 < 32 by omega)
  have lowNonneg := fit.entries _ low
  have highNonneg := fit.entries _ high
  have lowUpper := (inRange.gainTable.fits _ low).2
  have highUpper := (inRange.gainTable.fits _ high).2
  refine
    ⟨?_, fit.interpolation level member,
      (inRange.gainTable.exactInterpolated_within isEnvelope).2⟩
  unfold entryDifference
  exact ⟨by omega, by omega⟩

theorem gateExact
    (fit : stt.ProductsFit frame.low)
    (inRange : stt.InRange)
    {level : Int}
    (member : level ∈ (stt.followed frame.low).2) :
    GateExact (stt.gainTable.getD 0 0) (stt.gate frame.low).1
      (exactInterpolated stt.gainTable level) := by
  have isEnvelope := (inRange.followed frame).2 level member
  obtain ⟨within, fits⟩ :=
    inRange.gainTable.exactInterpolated_within isEnvelope
  have lowest := inRange.gainTable.getD_mem (show 0 < 32 by decide)
  have lowestFits := inRange.gainTable.fits _ lowest
  have lowestNonneg := fit.entries _ lowest
  have nonneg := nonneg_of_within fit.entries within
  rw [gateExact_iff lowestFits fits]
  refine ⟨?_, fun isOpen => fit.gate isOpen level member⟩
  intro
  unfold Fits32 at *
  omega

/-- The gains before the limiter are within the table. -/
theorem unlimited_within
    (fit : stt.ProductsFit frame.low)
    (inRange : stt.InRange)
    {gain : Int}
    (member : gain ∈ stt.unlimitedGains frame.low) :
    Within stt.gainTable gain := by
  obtain ⟨level, levelMem, rfl⟩ := List.mem_map.mp member
  have isEnvelope := (inRange.followed frame).2 level levelMem
  rw [(fit.interpolationExact inRange levelMem).interpolatedGain_eq,
    (fit.gateExact inRange levelMem).gatedGain_eq]
  exact
    exactGated_within
      (within_of_mem (inRange.gainTable.getD_mem (by decide)))
      (inRange.gainTable.exactInterpolated_within isEnvelope).1

/-- The gains that are applied come from the frame before or from the limiter. -/
theorem applied_limited
    (fit : stt.ProductsFit frame.low)
    (inRange : stt.InRange)
    {limited : List Int}
    (isLimited : stt.limitedGains frame.low = some limited)
    {gain : Int}
    (member : gain ∈ stt.appliedGains limited) :
    gain = stt.gain ∨
      ∃ input ∈ stt.limiterInputs frame.low,
        LimitedFrom input.1 input.2 gain ∧ gain < 2 ^ 27 := by
  rcases List.mem_cons.mp member with first | later
  · exact .inl first
  · obtain ⟨input, inputMem, isLast⟩ :=
      mem_of_mapM isLimited (mem_of_mem_advanceReductions later)
    have gainMem := (List.of_mem_zip inputMem).2
    have nonneg :=
      nonneg_of_within fit.entries (fit.unlimited_within inRange gainMem)
    have fits := fits_unlimitedGains gainMem
    have isEnvelope :=
      isEnvelope_envelope frame.low_sampled (List.of_mem_zip inputMem).1
    exact
      .inr
        ⟨input, inputMem, limitedFrom_limitedGain nonneg fits isLast,
          limitedGain_lt isEnvelope nonneg fits
            (fit.loudness input inputMem) isLast⟩

end ProductsFit

/-- A digital gain control that frames whose products fit can reach: its last gain has 27
bits. -/
structure Gain27 (stt : DigitalAgc) : Prop where
  inRange : stt.InRange
  gain : 0 ≤ stt.gain ∧ stt.gain < 2 ^ 27

/-- The gains that are applied have 27 bits. -/
theorem Gain27.applied
    {stt : DigitalAgc}
    {frame : DigitalFrame}
    (gain27 : stt.Gain27)
    (fit : stt.ProductsFit frame.low)
    {limited : List Int}
    (isLimited : stt.limitedGains frame.low = some limited)
    (index : Nat) :
    0 ≤ (stt.appliedGains limited).getD index 0 ∧
      (stt.appliedGains limited).getD index 0 < 2 ^ 27 := by
  rcases Nat.lt_or_ge index (stt.appliedGains limited).length with
    inside | outside
  · rw [← List.getElem_eq_getD 0 (h := inside)]
    rcases fit.applied_limited gain27.inRange isLimited
        (List.getElem_mem inside) with
      first | ⟨input, -, limitedFrom, below⟩
    · rw [first]
      exact gain27.gain
    · exact ⟨limitedFrom.nonneg, below⟩
  · rw [List.getD_eq_getElem?_getD, List.getElem?_eq_none outside]
    decide

/-- The gains of a frame whose products fit do not overflow. -/
theorem Gain27.exact
    {stt : DigitalAgc}
    {frame : DigitalFrame}
    (gain27 : stt.Gain27)
    (fit : stt.ProductsFit frame.low) :
    stt.GainsExact frame.low := by
  refine
    ⟨fun level member => fit.interpolationExact gain27.inRange member,
      fun level member => fit.gateExact gain27.inRange member, ?_⟩
  intro limited isLimited k _
  have narrow : rampShift frame.low ≤ 1 := by
    unfold rampShift
    split <;> decide
  exact
    shiftExact_of_bounds narrow (gain27.applied fit isLimited k)
      (gain27.applied fit isLimited (k + 1))

/-- The gains of a frame whose products fit are bounded by the table. -/
theorem ProductsFit.bounded
    {stt : DigitalAgc}
    {frame : DigitalFrame}
    (fit : stt.ProductsFit frame.low)
    (inRange : stt.InRange) :
    stt.GainsBounded frame.low := by
  refine ⟨fun gain member => fit.unlimited_within inRange member, ?_⟩
  intro limited isLimited gain member
  rcases fit.applied_limited inRange isLimited member with
    first | ⟨input, inputMem, limitedFrom, -⟩
  · exact .inl first
  · exact .inr ⟨input, inputMem, limitedFrom⟩

/-- A call whose products fit. -/
def CallProductsFit (stt : DigitalAgc) : DigitalCall → Prop
  | .process frame => stt.ProductsFit frame.low
  | _ => True

/-- A call without overflow whose gains are within the table. -/
def CallGainsWithin (stt : DigitalAgc) : DigitalCall → Prop
  | .process frame => stt.GainsExact frame.low ∧ stt.GainsWithin frame.low
  | _ => True

/-- A call without overflow whose gains are bounded by the table, with what the frame
before and the limiter do to them. -/
def CallGainsBounded (stt : DigitalAgc) : DigitalCall → Prop
  | .process frame => stt.GainsExact frame.low ∧ stt.GainsBounded frame.low
  | _ => True

theorem zeroDb : (0 : Int) ≤ 65536 ∧ (65536 : Int) < 2 ^ 27 :=
  ⟨by decide, by decide⟩

/-- Calls whose products fit keep the last gain to 27 bits. -/
theorem Gain27.perform
    {stt next : DigitalAgc}
    {call : DigitalCall}
    (gain27 : stt.Gain27)
    (fit : stt.CallProductsFit call)
    (performed : stt.perform call = some next) :
    next.Gain27 := by
  refine ⟨gain27.inRange.perform performed, ?_⟩
  cases call with
  | init agcMode =>
      obtain ⟨gainTable, -, rfl⟩ := Option.map_eq_some_iff.mp performed
      exact zeroDb
  | setConfig agcConfig =>
      unfold DigitalAgc.perform at performed
      dsimp only at performed
      split at performed
      · obtain rfl := Option.some.inj performed
        exact gain27.gain
      · obtain ⟨gainTable, -, rfl⟩ := Option.map_eq_some_iff.mp performed
        exact gain27.gain
  | addFarend frame =>
      obtain rfl := Option.some.inj performed
      exact gain27.gain
  | process frame =>
      obtain ⟨-, limited, isLimited, isGain⟩ := perform_process performed
      rw [isGain]
      exact gain27.applied fit isLimited 10

end DigitalAgc

end ApmSdk.Agc
