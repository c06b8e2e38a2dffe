import ApmSdk.FrameBuffers

namespace ApmSdk.FrameBuffers

/-!
# What the loops over frames write

Each loop over interleaved samples stores into distinct places of one array, and each call of
a resampler into one channel.  Where the counts that bound a loop are those of its buffers it
returns, and keeps the shape of what it writes into.
-/

open ArrayCopies StoreLoops
open BufferViews (SampleConversion)

/-! ## Indices -/

theorem mem_nested
    {outer inner i j : Nat} :
    (i, j) ∈ nested outer inner ↔ i < outer ∧ j < inner := by
  unfold nested
  rw [List.pair_mem_product, List.mem_range, List.mem_range]

/-- The place of an index in a row lies within the rows. -/
theorem place_lt
    {rows length i j : Nat}
    (inRows : i < rows)
    (inRow : j < length) :
    i * length + j < length * rows := by
  calc
    i * length + j < i * length + length := Nat.add_lt_add_left inRow _
    _ = length * (i + 1) := by
      rw [Nat.mul_succ, Nat.mul_comm]
    _ ≤ length * rows := Nat.mul_le_mul_left _ inRows

theorem place_div
    {length i j : Nat}
    (inRow : j < length) :
    (i * length + j) / length = i := by
  rw [Nat.mul_comm, Nat.mul_add_div (by omega), Nat.div_eq_of_lt inRow,
    Nat.add_zero]

theorem place_mod
    {length i j : Nat}
    (inRow : j < length) :
    (i * length + j) % length = j := by
  rw [Nat.mul_comm, Nat.mul_add_mod, Nat.mod_eq_of_lt inRow]

/-- Two indices with the same place are the same. -/
theorem place_inj
    {length i j i' j' : Nat}
    (inRow : j < length)
    (inRow' : j' < length)
    (same : i * length + j = i' * length + j') :
    i = i' ∧ j = j' := by
  constructor
  · rw [← @place_div length i j inRow, same, place_div inRow']
  · rw [← @place_mod length i j inRow, same, place_mod inRow']

/-! ## Channel buffers -/

variable {Sample Other : Type}

/-- A buffer has some counts. -/
def Channels.HasShape
    (buffer : Channels Sample)
    (numFrames numChannels : Nat) : Prop :=
  buffer.numFrames = numFrames ∧ buffer.numChannels = numChannels

/-- Samples that are as many as before replace those of a buffer. -/
theorem Channels.withData_returns
    {buffer : Channels Sample}
    {data : List Sample}
    (isLength : data.length = buffer.data.length) :
    Returns (buffer.withData data) fun next =>
      next.HasShape buffer.numFrames buffer.numChannels ∧
        next.data = data := by
  unfold withData
  rw [dif_pos (isLength.trans buffer.size)]
  exact Returns.pure ⟨⟨rfl, rfl⟩, rfl⟩

/-- Within its counts a buffer has samples. -/
theorem Channels.exists_read
    {buffer : Channels Sample}
    {channel j : Nat}
    (inChannels : channel < buffer.numChannels)
    (inFrames : j < buffer.numFrames) :
    ∃ sample, buffer.read channel j = some sample := by
  unfold read
  rw [if_pos inChannels]
  refine ⟨_, List.getElem?_eq_getElem ?_⟩
  rw [buffer.size]
  exact place_lt inChannels inFrames

/-- Behind the last channel there are none. -/
theorem Channels.read_last
    {buffer : Channels Sample}
    {channel j : Nat}
    (isLast : channel + 1 = buffer.numChannels)
    (behind : buffer.numFrames ≤ j) :
    buffer.read channel j = none := by
  unfold read
  rw [if_pos (by omega), List.getElem?_eq_none]
  rw [buffer.size, ← isLast, Nat.mul_succ, Nat.mul_comm]
  omega

/-! ## Frames to buffers -/

/-- Every sample of the input is read within the frame and written within its channel. -/
theorem deinterleave_returns
    {interleaved : List Int16}
    {samplesPerChannel numChannels : Nat}
    {deinterleaved : Channels Int16}
    (shape : deinterleaved.HasShape samplesPerChannel numChannels)
    (enough : samplesPerChannel * numChannels ≤ interleaved.length) :
    Returns
      (deinterleave interleaved samplesPerChannel numChannels deinterleaved)
      fun next =>
        next.HasShape samplesPerChannel numChannels ∧
          ∀ i < numChannels, ∀ j < samplesPerChannel,
            next.read i j = interleaved[i + j * numChannels]? := by
  obtain ⟨rfl, rfl⟩ := shape
  unfold deinterleave
  refine
    Returns.bind (storeAll_eq ?_ ?_) fun data ⟨isLength, written, _⟩ => ?_
  · intro (i, j) member
    obtain ⟨inChannels, inFrames⟩ := mem_nested.mp member
    have inside := place_lt inFrames inChannels
    rw [Nat.mul_comm] at enough
    refine ⟨?_, ?_⟩
    · rw [deinterleaved.size]
      exact place_lt inChannels inFrames
    · rw [isSome_getElem?]
      omega
  · intro (i, j) member (i', j') member' same
    obtain ⟨rfl, rfl⟩ :=
      place_inj (mem_nested.mp member).2 (mem_nested.mp member').2 same
    rfl
  · refine (Channels.withData_returns isLength).imp
      fun next ⟨⟨sameFrames, sameChannels⟩, isData⟩ =>
        ⟨⟨sameFrames, sameChannels⟩, ?_⟩
    intro i inChannels j inFrames
    rw [Channels.read, if_pos (by omega), isData, sameFrames]
    exact written (i, j) (mem_nested.mpr ⟨inChannels, inFrames⟩)

/-- Every frame of the input is read and its mean is written into the first channel. -/
theorem downmix_returns
    {interleaved : List Int16}
    {numFrames numChannels : Nat}
    {deinterleaved : Channels Int16}
    (shape : deinterleaved.HasShape numFrames 1)
    (enough : numFrames * numChannels ≤ interleaved.length) :
    Returns
      (downmixInterleavedToMono interleaved numFrames numChannels
        deinterleaved)
      fun next =>
        next.HasShape numFrames 1 ∧
          ∀ j < numFrames,
            next.read 0 j = downmixFrame interleaved numChannels j := by
  obtain ⟨rfl, isChannels⟩ := shape
  unfold downmixInterleavedToMono
  refine
    Returns.bind (storeAll_eq ?_ ?_) fun data ⟨isLength, written, _⟩ => ?_
  · intro j member
    rw [List.mem_range] at member
    have inside :
        j * numChannels + numChannels ≤ interleaved.length := by
      rw [← Nat.succ_mul]
      exact (Nat.mul_le_mul_right _ member).trans enough
    refine ⟨?_, ?_⟩
    · rw [deinterleaved.size, isChannels, Nat.mul_one]
      exact member
    · rw [downmixFrame, slice, if_pos inside]
      rfl
  · intro first _ second _ same
    exact congrArg _ same
  · refine (Channels.withData_returns isLength).imp
      fun next shaped => ?_
    obtain ⟨⟨sameFrames, sameChannels⟩, isData⟩ := shaped
    refine ⟨⟨sameFrames, sameChannels.trans isChannels⟩, ?_⟩
    intro j inFrames
    rw [Channels.read, if_pos (by omega), isData, Nat.zero_mul,
      Nat.zero_add]
    exact written j (List.mem_range.mpr inFrames)

/-! ## Buffers to frames -/

/-- The samples of a frame are those of a buffer, of the channel that is for each of its own,
and what is behind them is unchanged. -/
structure Carries
    (channels : Channels Int16)
    (channelOf : Nat → Nat)
    (numFrames numChannels : Nat)
    (before after : List Int16) : Prop where
  length : after.length = before.length
  written :
    ∀ j < numFrames, ∀ i < numChannels,
      ∃ sample,
        channels.read (channelOf i) j = some sample ∧
          after[j * numChannels + i]? = some sample
  untouched :
    ∀ k, numFrames * numChannels ≤ k → after[k]? = before[k]?

/-- Interleaving writes the samples of the channels, as many as it is told. -/
theorem interleave_returns
    {channels : Channels Int16}
    {numFrames numChannels : Nat}
    {interleaved : List Int16}
    (within : numFrames ≤ channels.numFrames)
    (isChannels : channels.numChannels = numChannels)
    (enough : numFrames * numChannels ≤ interleaved.length) :
    Returns (interleave channels numFrames numChannels interleaved)
      (Carries channels id numFrames numChannels interleaved) := by
  obtain rfl := isChannels
  rw [Nat.mul_comm] at enough
  unfold interleave
  refine (storeAll_eq ?_ ?_).imp
    fun next ⟨isLength, written, untouched⟩ => ⟨isLength, ?_, ?_⟩
  · intro (i, j) member
    obtain ⟨inChannels, inFrames⟩ := mem_nested.mp member
    have inside := place_lt inFrames inChannels
    refine ⟨?_, ?_⟩
    · dsimp only
      omega
    · exact Option.isSome_iff_exists.mpr
        (Channels.exists_read inChannels (inFrames.trans_le within))
  · intro (i, j) member (i', j') member' same
    dsimp only at same
    rw [Nat.add_comm, Nat.add_comm i'] at same
    obtain ⟨rfl, rfl⟩ :=
      place_inj (mem_nested.mp member).1 (mem_nested.mp member').1 same
    rfl
  · intro j inFrames i inChannels
    obtain ⟨sample, isSample⟩ :=
      Channels.exists_read inChannels (inFrames.trans_le within)
    refine ⟨sample, isSample, ?_⟩
    rw [← isSample, Nat.add_comm]
    exact written (i, j) (mem_nested.mpr ⟨inChannels, inFrames⟩)
  · intro k behind
    refine untouched k fun (i, j) member => ?_
    obtain ⟨inChannels, inFrames⟩ := mem_nested.mp member
    have inside := place_lt inFrames inChannels
    rw [Nat.mul_comm] at behind
    dsimp only
    omega

/-- Upmixing writes each sample of the channel to all channels of the frame. -/
theorem upmix_returns
    {mono : Channels Int16}
    {numFrames numChannels : Nat}
    {interleaved : List Int16}
    (within : numFrames ≤ mono.numFrames)
    (hasFirst : 0 < mono.numChannels)
    (enough : numFrames * numChannels ≤ interleaved.length) :
    Returns (upmixMonoToInterleaved mono numFrames numChannels interleaved)
      (Carries mono (fun _ => 0) numFrames numChannels interleaved) := by
  rw [Nat.mul_comm] at enough
  unfold upmixMonoToInterleaved
  refine (storeAll_eq ?_ ?_).imp
    fun next ⟨isLength, written, untouched⟩ => ⟨isLength, ?_, ?_⟩
  · intro (i, j) member
    obtain ⟨inFrames, inChannels⟩ := mem_nested.mp member
    refine ⟨(place_lt inFrames inChannels).trans_le enough, ?_⟩
    exact Option.isSome_iff_exists.mpr
      (Channels.exists_read hasFirst (inFrames.trans_le within))
  · intro (i, j) member (i', j') member' same
    obtain ⟨rfl, rfl⟩ :=
      place_inj (mem_nested.mp member).2 (mem_nested.mp member').2 same
    rfl
  · intro j inFrames i inChannels
    obtain ⟨sample, isSample⟩ :=
      Channels.exists_read hasFirst (inFrames.trans_le within)
    refine ⟨sample, isSample, ?_⟩
    rw [← isSample]
    exact written (j, i) (mem_nested.mpr ⟨inFrames, inChannels⟩)
  · intro k behind
    refine untouched k fun (i, j) member => ?_
    obtain ⟨inFrames, inChannels⟩ := mem_nested.mp member
    have inside := place_lt inFrames inChannels
    rw [Nat.mul_comm] at behind
    dsimp only
    omega

end ApmSdk.FrameBuffers
