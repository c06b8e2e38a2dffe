import ApmSdk.ComfortNoise
import ApmSdk.FixedFrames
import ApmSdk.StreamWindow

namespace ApmSdk.Aecm

/-!
# The far-end spectrum behind a delay

`WebRtcAecm_UpdateFarHistory` stores the far-end spectra and their domains round and round.
`WebRtcAecm_AlignedFarend` goes back from the newest one, and across the start of the history
once.  The first block is stored at the start because the position begins at the end.
-/

open ArrayCopies StreamWindow

/-- `MAX_DELAY` -/
abbrev maxDelay : Nat := 100

/-- A far-end spectrum with its Q-domain. -/
structure FarBlock where
  farSpectrum : List UInt16
  farQ : Int
  size : farSpectrum.length = partLen1

/-- A block of zeros. -/
def FarBlock.zero : FarBlock where
  farSpectrum := List.replicate partLen1 0
  farQ := 0
  size := List.length_replicate

/-- The fields of `AecmCore` that the spectra are kept in. -/
structure SpectrumHistory where
  farHistory : List UInt16
  farQDomains : List Int
  farHistoryPos : Nat
deriving Repr, DecidableEq

namespace SpectrumHistory

/-- The history of `WebRtcAecm_InitCore`. -/
def initCore : SpectrumHistory where
  farHistory := List.replicate (partLen1 * maxDelay) 0
  farQDomains := List.replicate maxDelay 0
  farHistoryPos := maxDelay

/-- `WebRtcAecm_UpdateFarHistory` -/
def updateFarHistory
    (self : SpectrumHistory)
    (block : FarBlock) : Option SpectrumHistory := do
  -- get new buffer position
  let position := self.farHistoryPos + 1
  let position := if position ≥ maxDelay then 0 else position
  let farQDomains ← overwrite self.farQDomains position [block.farQ]
  let farHistory ← overwrite self.farHistory (position * partLen1) block.farSpectrum
  return ⟨farHistory, farQDomains, position⟩

/-- `WebRtcAecm_AlignedFarend`: the spectrum at the pointer that it returns, and the Q-domain. -/
def alignedFarend
    (self : SpectrumHistory)
    (delay : Int) : Option (List UInt16 × Int) := do
  let position := self.farHistoryPos - delay
  -- check buffer position
  let position := if position < 0 then position + maxDelay else position
  if position < 0 then none
  else do
    let farQ ← self.farQDomains[position.toNat]?
    let farSpectrum ← slice self.farHistory (position.toNat * partLen1) partLen1
    return (farSpectrum, farQ)

end SpectrumHistory

/-- The block that was stored a number of blocks ago, zeros if fewer were stored. -/
def storedAgo (blocks : List FarBlock) (delay : Nat) : FarBlock :=
  blocks.reverse.getD delay .zero

/-- All that was ever stored, with a history of zeros before the first block. -/
def everStored (blocks : List FarBlock) : List FarBlock :=
  List.replicate maxDelay .zero ++ blocks

section Stored

variable {blocks : List FarBlock}

theorem length_everStored : (everStored blocks).length = maxDelay + blocks.length := by
  rw [everStored, List.length_append, List.length_replicate]

/-- Counted from the first zeros, a block is as far before the end as it was stored ago. -/
theorem everStored_getElem?
    {delay : Nat}
    (inHistory : delay < maxDelay)
    (nonempty : 0 < blocks.length) :
    (everStored blocks)[maxDelay + blocks.length - 1 - delay]? =
      some (storedAgo blocks delay) := by
  unfold everStored storedAgo
  rw [List.getD_eq_getElem?_getD]
  rcases Nat.lt_or_ge delay blocks.length with stored | before
  · rw [List.getElem?_append_right (by rw [List.length_replicate]; omega),
      List.length_replicate, List.getElem?_reverse stored]
    have same :
        maxDelay + blocks.length - 1 - delay - maxDelay = blocks.length - 1 - delay := by
      omega
    have inside : blocks.length - 1 - delay < blocks.length := by omega
    rw [same, List.getElem?_eq_getElem inside, Option.getD_some]
  · rw [List.getElem?_append_left (by rw [List.length_replicate]; omega),
      List.getElem?_replicate, if_pos (by omega),
      List.getElem?_eq_none (by rw [List.length_reverse]; exact before), Option.getD_none]

/-- The spectra of all blocks, one behind the other. -/
def spectra (blocks : List FarBlock) : List UInt16 :=
  (blocks.map FarBlock.farSpectrum).flatten

theorem size_of_mem_spectra :
    ∀ spectrum ∈ blocks.map FarBlock.farSpectrum, spectrum.length = partLen1 := by
  intro spectrum member
  obtain ⟨block, -, rfl⟩ := List.mem_map.mp member
  exact block.size

theorem length_spectra : (spectra blocks).length = blocks.length * partLen1 := by
  rw [spectra, length_flatten_of_forall size_of_mem_spectra, List.length_map]

end Stored

namespace SpectrumHistory

/-- A history of the blocks that were stored: both arrays hold the last of them, and the position
is that of the newest one. -/
structure Tracks (history : SpectrumHistory) (blocks : List FarBlock) : Prop where
  length : history.farHistory.length = partLen1 * maxDelay
  domainsLength : history.farQDomains.length = maxDelay
  position :
    history.farHistoryPos = if blocks.length = 0 then maxDelay else (blocks.length - 1) % maxDelay
  holds : Holds history.farHistory (spectra (everStored blocks))
  holdsDomains : Holds history.farQDomains ((everStored blocks).map FarBlock.farQ)

variable {history : SpectrumHistory}
variable {blocks : List FarBlock}

theorem tracks_initCore : Tracks initCore [] where
  length := List.length_replicate
  domainsLength := List.length_replicate
  position := rfl
  holds := by
    have zeros : spectra (everStored []) = initCore.farHistory := by
      rw [spectra, everStored, List.append_nil, List.map_replicate, FarBlock.zero,
        List.flatten_replicate_replicate, initCore, Nat.mul_comm]
    rw [zeros]
    exact holds_self _
  holdsDomains := by
    have zeros : (everStored []).map FarBlock.farQ = initCore.farQDomains := by
      rw [everStored, List.append_nil, List.map_replicate, FarBlock.zero, initCore]
    rw [zeros]
    exact holds_self _

/-- A block is stored behind the newest one. -/
theorem Tracks.updateFarHistory
    (tracks : history.Tracks blocks)
    (block : FarBlock) :
    ∃ next, history.updateFarHistory block = some next ∧ next.Tracks (blocks ++ [block]) := by
  obtain ⟨length, domainsLength, position, holds, holdsDomains⟩ := tracks
  have isPosition :
      (if history.farHistoryPos + 1 ≥ maxDelay then 0 else history.farHistoryPos + 1) =
        blocks.length % maxDelay := by
    simp only [maxDelay] at position ⊢
    split_ifs at position ⊢ <;> omega
  have size := block.size
  have inside : blocks.length % maxDelay < maxDelay := Nat.mod_lt _ (by decide)
  obtain ⟨domains, isDomains⟩ :=
    @exists_overwrite _ history.farQDomains [block.farQ] (blocks.length % maxDelay)
      (by rw [domainsLength, List.length_singleton]; exact inside)
  obtain ⟨spectrum, isSpectrum⟩ :=
    @exists_overwrite _ history.farHistory block.farSpectrum
      (blocks.length % maxDelay * partLen1)
      (by
        rw [length, size]
        simp only [maxDelay, partLen1] at inside ⊢
        omega)
  have writtenDomains := WrittenAt.of_overwrite isDomains
  have written := WrittenAt.of_overwrite isSpectrum
  have ever : everStored (blocks ++ [block]) = everStored blocks ++ [block] :=
    (List.append_assoc ..).symm
  refine ⟨⟨spectrum, domains, blocks.length % maxDelay⟩, ?_, ?_⟩
  · unfold SpectrumHistory.updateFarHistory
    dsimp only
    rw [isPosition, isDomains, Option.bind_eq_bind, Option.bind_some, isSpectrum]
    rfl
  · refine ⟨written.length.trans length, writtenDomains.length.trans domainsLength, ?_, ?_, ?_⟩
    · rw [List.length_append, List.length_singleton, if_neg (Nat.succ_ne_zero _)]
      rfl
    · have next : spectra (everStored (blocks ++ [block])) =
          spectra (everStored blocks) ++ block.farSpectrum := by
        rw [ever, spectra, List.map_append, List.flatten_append]
        exact congrArg _ (List.append_nil _)
      rw [next]
      refine holds.append (written.congr ?_)
      rw [length, length_spectra, length_everStored]
      simp only [maxDelay, partLen1]
      omega
    · rw [ever, List.map_append]
      refine holdsDomains.append (writtenDomains.congr ?_)
      rw [domainsLength, List.length_map, length_everStored]
      simp only [maxDelay]
      omega

/-- What is found behind a delay is the block that was stored so many blocks ago. -/
theorem Tracks.alignedFarend
    (tracks : history.Tracks blocks)
    (nonempty : 0 < blocks.length)
    {delay : Nat}
    (inHistory : delay < maxDelay) :
    history.alignedFarend delay =
      some ((storedAgo blocks delay).farSpectrum, (storedAgo blocks delay).farQ) := by
  obtain ⟨length, domainsLength, position, holds, holdsDomains⟩ := tracks
  rw [if_neg (by omega)] at position
  have stored := everStored_getElem? inHistory nonempty
  generalize isIndex : maxDelay + blocks.length - 1 - delay = index at stored
  obtain ⟨place, isPlace, placeInside, samePlace⟩ :
      ∃ place : Nat,
        (if (history.farHistoryPos : Int) - delay < 0 then
            (history.farHistoryPos : Int) - delay + maxDelay
          else (history.farHistoryPos : Int) - delay) = place ∧
          place < maxDelay ∧ place = index % maxDelay := by
    refine ⟨index % maxDelay, ?_, Nat.mod_lt _ (by decide), rfl⟩
    rw [position]
    simp only [maxDelay] at inHistory isIndex ⊢
    split_ifs <;> omega
  have isQ : history.farQDomains[place]? = some (storedAgo blocks delay).farQ := by
    have held := holdsDomains index
      (by rw [List.length_map, length_everStored]; omega)
      (by rw [List.length_map, length_everStored, domainsLength]; omega)
    rw [domainsLength, ← samePlace, List.getElem?_map, stored] at held
    exact held
  have isSlice :
      slice history.farHistory (place * partLen1) partLen1 =
        some (storedAgo blocks delay).farSpectrum := by
    have read := slice_of_le (show
      place * partLen1 + partLen1 ≤ history.farHistory.length by
        rw [length]
        simp only [maxDelay, partLen1] at placeInside ⊢
        omega)
    obtain ⟨readAt, readLength⟩ := ReadAt.of_slice read
    have found :=
      @Holds.read _ _ _ _ _ (index * partLen1) holds readAt
        (by
          rw [length, samePlace]
          simp only [maxDelay, partLen1]
          omega)
        (by
          rw [readLength, length_spectra, length_everStored]
          simp only [maxDelay, partLen1] at isIndex ⊢
          omega)
        (by
          rw [length, length_spectra, length_everStored]
          simp only [maxDelay, partLen1] at isIndex inHistory ⊢
          omega)
    rw [readLength] at found
    rw [read, found]
    refine congrArg some (frame_of_flatten size_of_mem_spectra ?_)
    rw [List.getElem?_map, stored]
    rfl
  unfold SpectrumHistory.alignedFarend
  dsimp only
  rw [isPlace, if_neg (by omega), Int.toNat_natCast, isQ, Option.bind_eq_bind, Option.bind_some,
    isSlice]
  rfl

/-- Blocks are stored one behind the other. -/
theorem Tracks.foldlM
    (tracks : history.Tracks blocks)
    (later : List FarBlock) :
    ∃ next,
      later.foldlM SpectrumHistory.updateFarHistory history = some next ∧
        next.Tracks (blocks ++ later) := by
  induction later generalizing history blocks with
  | nil =>
      exact ⟨history, rfl, by rwa [List.append_nil]⟩
  | cons block rest inductionHypothesis =>
      obtain ⟨middle, isMiddle, middleTracks⟩ := tracks.updateFarHistory block
      obtain ⟨next, isNext, nextTracks⟩ := inductionHypothesis middleTracks
      rw [List.append_assoc, List.singleton_append] at nextTracks
      refine ⟨next, ?_, nextTracks⟩
      rw [List.foldlM_cons, isMiddle]
      exact isNext

/-- Every non-empty run of blocks from the initialisation is stored, and for every delay below
`MAX_DELAY` the aligned far end is the block that was stored so many blocks ago, zeros if fewer
were stored, read inside of both arrays. -/
theorem alignedFarend_eq
    {stored : List FarBlock}
    (nonempty : stored ≠ []) :
    ∃ history,
      stored.foldlM updateFarHistory initCore = some history ∧
        ∀ delay : Int, 0 ≤ delay → delay < maxDelay →
          history.alignedFarend delay =
            some ((storedAgo stored delay.toNat).farSpectrum,
              (storedAgo stored delay.toNat).farQ) := by
  obtain ⟨history, isHistory, tracks⟩ := tracks_initCore.foldlM stored
  rw [List.nil_append] at tracks
  refine ⟨history, isHistory, fun delay nonneg inHistory => ?_⟩
  obtain ⟨count, rfl⟩ := Int.eq_ofNat_of_zero_le nonneg
  exact tracks.alignedFarend (List.length_pos_iff.mpr nonempty) (by omega)

/-- Two blocks. -/
def twoBlocks : List FarBlock :=
  [⟨List.replicate partLen1 7, 3, List.length_replicate⟩,
    ⟨List.replicate partLen1 9, 4, List.length_replicate⟩]

/-- Behind two blocks, a delay of one finds the first of them. -/
theorem alignedFarend_eq_twoBlocks :
    ∃ history,
      twoBlocks.foldlM updateFarHistory initCore = some history ∧
        history.alignedFarend 1 = some (List.replicate partLen1 7, 3) := by
  obtain ⟨history, isHistory, aligned⟩ :=
    @alignedFarend_eq twoBlocks (List.cons_ne_nil _ _)
  exact ⟨history, isHistory, aligned 1 (by decide) (by decide)⟩

end SpectrumHistory

end ApmSdk.Aecm
