import ApmSdk.BitReversal
import Mathlib.Algebra.BigOperators.Intervals
import Mathlib.Algebra.BigOperators.Ring.Finset
import Mathlib.Algebra.Order.Ring.Int
import Mathlib.Data.List.Nodup
import Mathlib.Tactic.LinearCombination
import Mathlib.Tactic.Ring

namespace ApmSdk.ButterflyNetwork

/-!
# Networks of butterflies

A stage of a network takes the cells of a store in pairs and writes two results in their
place.  On a store in the reversed order the stages together compute the recursion that
halves its samples into the even and the odd ones, whatever a butterfly computes.  With
the butterflies of a ring the recursion is the discrete Fourier transform.
-/

open BitReversal

variable {Cell : Type*}

/-- Two cells are replaced by the results of a butterfly. -/
def cross
    (butterfly : Cell → Cell → Cell × Cell)
    (left right : Nat)
    (cells : Nat → Cell) :
    Nat → Cell :=
  Function.update (Function.update cells right (butterfly (cells left) (cells right)).2)
    left (butterfly (cells left) (cells right)).1

/-- The first places of the pairs of a place in the blocks of a stage. -/
def lefts (half size place : Nat) : List Nat :=
  List.range' place ((size - place + (2 * half - 1)) / (2 * half)) (2 * half)

/-- A stage in place, with the butterfly of each place of a block. -/
def stage
    (half size : Nat)
    (butterfly : Nat → Cell → Cell → Cell × Cell)
    (cells : Nat → Cell) :
    Nat → Cell :=
  (List.range half).foldl
    (fun cells place =>
      (lefts half size place).foldl
        (fun cells left => cross (butterfly place) left (left + half) cells)
        cells)
    cells

/-- The results of the butterflies that join two halves. -/
def joined
    (half : Nat)
    (butterfly : Nat → Cell → Cell → Cell × Cell)
    (evens odds : Nat → Cell) :
    Nat → Cell :=
  fun index =>
    if index < half then
      (butterfly index (evens index) (odds index)).1
    else
      (butterfly (index - half) (evens (index - half)) (odds (index - half))).2

/-- The recursion that a network computes. -/
def radix2
    (butterfly : Nat → Nat → Cell → Cell → Cell × Cell) :
    Nat → (Nat → Cell) → Nat → Cell
  | 0, samples => samples
  | width + 1, samples =>
      joined (2 ^ width) (butterfly width)
        (radix2 butterfly width fun index => samples (2 * index))
        (radix2 butterfly width fun index => samples (2 * index + 1))

section Stages

variable {half size : Nat}
variable {butterfly : Nat → Cell → Cell → Cell × Cell}

theorem cross_apply
    (pair : Cell → Cell → Cell × Cell)
    (left right : Nat)
    (cells : Nat → Cell)
    (index : Nat) :
    cross pair left right cells index =
      if index = left then (pair (cells left) (cells right)).1
      else if index = right then (pair (cells left) (cells right)).2
      else cells index := by
  simp only [cross, Function.update_apply]

/-- Butterflies on pairs without a common cell do not disturb each other. -/
theorem foldl_cross_apply
    {starts : List Nat}
    (cells : Nat → Cell)
    (firsts : ∀ left ∈ starts, left % (2 * half) < half)
    (distinct : starts.Nodup)
    (index : Nat) :
    starts.foldl
        (fun cells left => cross (butterfly (left % (2 * half))) left (left + half) cells)
        cells index =
      if index ∈ starts then
        (butterfly (index % (2 * half)) (cells index) (cells (index + half))).1
      else if half ≤ index ∧ index - half ∈ starts then
        (butterfly ((index - half) % (2 * half)) (cells (index - half)) (cells index)).2
      else
        cells index := by
  induction starts generalizing cells with
  | nil => simp
  | cons left starts inductionHypothesis =>
      obtain ⟨notLater, laterDistinct⟩ := List.nodup_cons.mp distinct
      have isFirst := firsts left List.mem_cons_self
      have laterFirsts : ∀ start ∈ starts, start % (2 * half) < half :=
        fun start member => firsts start (List.mem_cons_of_mem _ member)
      -- the second cell of a pair is not the first cell of one
      have second :
          ∀ start, start % (2 * half) < half → half ≤ (start + half) % (2 * half) := by
        intro start first
        rw [Nat.add_mod, Nat.mod_eq_of_lt (a := half) (by omega), Nat.mod_eq_of_lt (by omega)]
        omega
      have notRight : left + half ∉ starts := fun member =>
        absurd (laterFirsts _ member) (not_lt.mpr (second left isFirst))
      rw [List.foldl_cons, inductionHypothesis _ laterFirsts laterDistinct]
      simp only [List.mem_cons]
      by_cases later : index ∈ starts
      · have apart : index ≠ left := fun same => notLater (same ▸ later)
        have ahead : index + half ≠ left := fun same =>
          absurd isFirst
            (not_lt.mpr (same ▸ second index (laterFirsts index later)))
        have notSecond : index ≠ left + half := fun same => notRight (same ▸ later)
        rw [if_pos later, if_pos (.inr later), cross_apply, cross_apply, if_neg apart,
          if_neg notSecond, if_neg ahead, if_neg (by omega)]
      · rw [if_neg later]
        by_cases here : index = left
        · subst here
          rw [if_neg, if_pos (.inl rfl), cross_apply, if_pos rfl]
          rintro ⟨above, member⟩
          have behind := second _ (laterFirsts _ member)
          rw [Nat.sub_add_cancel above] at behind
          omega
        · have notFirst : ¬(index = left ∨ index ∈ starts) := not_or.mpr ⟨here, later⟩
          rw [if_neg notFirst]
          by_cases laterRight : half ≤ index ∧ index - half ∈ starts
          · obtain ⟨above, member⟩ := laterRight
            have apart : index - half ≠ left := fun same => notLater (same ▸ member)
            have notSecond : index - half ≠ left + half := fun same =>
              notRight (same ▸ member)
            rw [if_pos ⟨above, member⟩, if_pos ⟨above, .inr member⟩, cross_apply, cross_apply,
              if_neg apart, if_neg notSecond, if_neg here, if_neg (by omega)]
          · rw [if_neg laterRight, cross_apply, if_neg here]
            by_cases right : index = left + half
            · subst right
              rw [if_pos rfl, if_pos ⟨by omega, .inl (by omega)⟩, Nat.add_sub_cancel]
            · rw [if_neg right, if_neg]
              rintro ⟨above, same | member⟩
              · omega
              · exact laterRight ⟨above, member⟩

theorem mem_lefts
    {place index : Nat}
    (positive : 0 < half)
    (below : place < half) :
    index ∈ lefts half size place ↔ index < size ∧ index % (2 * half) = place := by
  unfold lefts
  rw [List.mem_range']
  constructor
  · rintro ⟨block, within, rfl⟩
    rw [Nat.lt_div_iff_mul_lt (by omega)] at within
    refine ⟨?_, ?_⟩
    · rw [Nat.mul_comm] at within
      omega
    · rw [Nat.add_mul_mod_self_left, Nat.mod_eq_of_lt (by omega)]
  · rintro ⟨within, rfl⟩
    have whole := Nat.mod_add_div index (2 * half)
    refine ⟨index / (2 * half), ?_, whole.symm⟩
    rw [Nat.lt_div_iff_mul_lt (by omega), Nat.mul_comm]
    omega

theorem nodup_lefts (positive : 0 < half) (place : Nat) : (lefts half size place).Nodup :=
  List.nodup_range' (2 * half) (by omega)

/-- A stage joins the halves of each block. -/
theorem stage_apply
    (cells : Nat → Cell)
    (positive : 0 < half)
    {blocks block index : Nat}
    (inside : block < blocks)
    (below : index < 2 * half) :
    stage half (blocks * (2 * half)) butterfly cells (block * (2 * half) + index) =
      joined half butterfly
        (fun index => cells (block * (2 * half) + index))
        (fun index => cells (block * (2 * half) + half + index))
        index := by
  have flat :
      stage half (blocks * (2 * half)) butterfly cells =
        ((List.range half).flatMap (lefts half (blocks * (2 * half)))).foldl
          (fun cells left =>
            cross (butterfly (left % (2 * half))) left (left + half) cells)
          cells := by
    unfold stage
    rw [List.foldl_flatMap]
    refine List.foldl_ext _ _ _ fun cells place member => List.foldl_ext _ _ _ ?_
    intro cells left isLeft
    rw [((mem_lefts positive (List.mem_range.mp member)).mp isLeft).2]
  have member :
      ∀ place, place ∈ (List.range half).flatMap (lefts half (blocks * (2 * half))) ↔
        place < blocks * (2 * half) ∧ place % (2 * half) < half := by
    intro place
    rw [List.mem_flatMap]
    constructor
    · rintro ⟨first, inRange, isLeft⟩
      have firstBelow := List.mem_range.mp inRange
      obtain ⟨within, rfl⟩ := (mem_lefts positive firstBelow).mp isLeft
      exact ⟨within, firstBelow⟩
    · rintro ⟨within, first⟩
      exact ⟨_, List.mem_range.mpr first, (mem_lefts positive first).mpr ⟨within, rfl⟩⟩
  have distinct :
      ((List.range half).flatMap (lefts half (blocks * (2 * half)))).Nodup := by
    rw [List.nodup_flatMap]
    refine ⟨fun place _ => nodup_lefts positive place, ?_⟩
    refine List.Pairwise.imp_of_mem ?_ List.nodup_range
    intro first second firstIn secondIn apart left isFirst isSecond
    rw [mem_lefts positive (List.mem_range.mp firstIn)] at isFirst
    rw [mem_lefts positive (List.mem_range.mp secondIn)] at isSecond
    exact apart (isFirst.2.symm.trans isSecond.2)
  have within : block * (2 * half) + index < blocks * (2 * half) := by
    calc
      block * (2 * half) + index < (block + 1) * (2 * half) := by
        rw [Nat.add_mul block 1, Nat.one_mul]
        omega
      _ ≤ blocks * (2 * half) := Nat.mul_le_mul_right _ inside
  have place : ∀ {place}, place < 2 * half → (block * (2 * half) + place) % (2 * half) = place :=
    fun small => by rw [Nat.add_comm, Nat.add_mul_mod_self_right, Nat.mod_eq_of_lt small]
  rw [flat, foldl_cross_apply cells (fun left isLeft => ((member left).mp isLeft).2) distinct]
  simp only [member]
  unfold joined
  dsimp only
  by_cases first : index < half
  · rw [if_pos ⟨within, by rwa [place below]⟩, if_pos first, place below,
      Nat.add_right_comm]
  · have back : block * (2 * half) + index - half = block * (2 * half) + (index - half) := by
      omega
    have forth : block * (2 * half) + half + (index - half) = block * (2 * half) + index := by
      omega
    rw [if_neg (by rw [place below]; omega), if_neg first, back, place (by omega), forth,
      if_pos ⟨by omega, by omega, by omega⟩]

/-- A stage leaves the cells beyond the store alone. -/
theorem stage_beyond
    (cells : Nat → Cell)
    (positive : 0 < half)
    {blocks index : Nat}
    (beyond : blocks * (2 * half) ≤ index) :
    stage half (blocks * (2 * half)) butterfly cells index = cells index := by
  unfold stage
  refine List.foldlRecOn
    (motive := fun (reached : Nat → Cell) => reached index = cells index) _ _ rfl ?_
  intro reached same place inRange
  refine List.foldlRecOn
    (motive := fun (reached : Nat → Cell) => reached index = cells index) _ _ same ?_
  intro reached same left isLeft
  have first := List.mem_range.mp inRange
  obtain ⟨within, rfl⟩ := (mem_lefts positive first).mp isLeft
  -- the block of the pair ends where the store does, or before
  have blockWithin : left / (2 * half) < blocks :=
    Nat.div_lt_of_lt_mul (by rwa [Nat.mul_comm] at within)
  have whole := Nat.div_add_mod left (2 * half)
  have blockEnd : 2 * half * (left / (2 * half)) + 2 * half ≤ blocks * (2 * half) := by
    calc
      2 * half * (left / (2 * half)) + 2 * half = (left / (2 * half) + 1) * (2 * half) := by
        ring
      _ ≤ blocks * (2 * half) := Nat.mul_le_mul_right _ blockWithin
  rw [cross_apply, if_neg (by omega), if_neg (by omega), same]

/-- Every cell gets one of the two results for two cells of the store. -/
theorem stage_cases
    (cells : Nat → Cell)
    (positive : 0 < half)
    {blocks index : Nat}
    (inside : index < blocks * (2 * half)) :
    ∃ place < half, ∃ first < blocks * (2 * half), ∃ second < blocks * (2 * half),
      (∀ butterfly : Nat → Cell → Cell → Cell × Cell,
          stage half (blocks * (2 * half)) butterfly cells index =
            (butterfly place (cells first) (cells second)).1) ∨
        ∀ butterfly : Nat → Cell → Cell → Cell × Cell,
          stage half (blocks * (2 * half)) butterfly cells index =
            (butterfly place (cells first) (cells second)).2 := by
  obtain ⟨block, place, below, rfl⟩ :
      ∃ block place, place < 2 * half ∧ index = block * (2 * half) + place :=
    ⟨index / (2 * half), index % (2 * half), Nat.mod_lt _ (by omega),
      (Nat.div_add_mod' index (2 * half)).symm⟩
  have blockInside : block < blocks := by
    by_contra beyond
    have reached := Nat.mul_le_mul_right (2 * half) (not_lt.mp beyond)
    omega
  have blockEnd : block * (2 * half) + 2 * half ≤ blocks * (2 * half) := by
    calc
      block * (2 * half) + 2 * half = (block + 1) * (2 * half) := by ring
      _ ≤ blocks * (2 * half) := Nat.mul_le_mul_right _ blockInside
  by_cases lower : place < half
  · refine ⟨place, lower, block * (2 * half) + place, inside, block * (2 * half) + half + place,
      by omega, .inl fun butterfly => ?_⟩
    rw [stage_apply cells positive blockInside below, joined, if_pos lower]
  · refine ⟨place - half, by omega, block * (2 * half) + (place - half), by omega,
      block * (2 * half) + half + (place - half), by omega, .inr fun butterfly => ?_⟩
    rw [stage_apply cells positive blockInside below, joined, if_neg lower]

end Stages

/-! ## The recursion in place -/

section Runs

variable {butterfly : Nat → Nat → Cell → Cell → Cell × Cell}
variable {samples cells : Nat → Cell}
variable {width rest : Nat}

/--
After so many stages each block of the store holds the recursion of the samples that have
the number of the block, reversed, as their remainder.
-/
def Arranged
    (butterfly : Nat → Nat → Cell → Cell → Cell × Cell)
    (samples : Nat → Cell)
    (width rest : Nat)
    (cells : Nat → Cell) : Prop :=
  ∀ block index, block < 2 ^ rest → index < 2 ^ width →
    cells (block * 2 ^ width + index) =
      radix2 butterfly width
        (fun place => samples (reversed rest block + place * 2 ^ rest)) index

/-- The store in the reversed order is arranged for the first stage. -/
theorem arranged_mirrored : Arranged butterfly samples 0 rest (mirrored rest samples) := by
  intro block index inside below
  obtain rfl : index = 0 := by omega
  rw [Nat.pow_zero, Nat.mul_one, Nat.add_zero, mirrored, if_pos inside, radix2, Nat.zero_mul,
    Nat.add_zero]

theorem Arranged.stage
    (arranged : Arranged butterfly samples width (rest + 1) cells) :
    Arranged butterfly samples (width + 1) rest
      (stage (2 ^ width) (2 ^ (width + 1 + rest)) (butterfly width) cells) := by
  intro block index inside below
  have size : 2 ^ (width + 1 + rest) = 2 ^ rest * (2 * 2 ^ width) := by
    rw [Nat.pow_add, Nat.pow_succ]
    ring
  have blockSize : 2 ^ (width + 1) = 2 * 2 ^ width := Nat.pow_succ'
  have first := @reversed_succ_of_even rest (2 * block) (by omega)
  rw [Nat.mul_div_cancel_left _ Nat.two_pos] at first
  have evens :
      ∀ place, place < 2 ^ width →
        cells (block * (2 * 2 ^ width) + place) =
          radix2 butterfly width
            (fun place => samples (reversed rest block + 2 * place * 2 ^ rest)) place := by
    intro place small
    rw [show block * (2 * 2 ^ width) = 2 * block * 2 ^ width by ring,
      arranged (2 * block) place (by rw [Nat.pow_succ]; omega) small, first.2]
    simp only [Nat.pow_succ', Nat.mul_left_comm, Nat.mul_assoc]
  have odds :
      ∀ place, place < 2 ^ width →
        cells (block * (2 * 2 ^ width) + 2 ^ width + place) =
          radix2 butterfly width
            (fun place => samples (reversed rest block + (2 * place + 1) * 2 ^ rest)) place := by
    intro place small
    rw [show block * (2 * 2 ^ width) + 2 ^ width = (2 * block + 1) * 2 ^ width by ring,
      arranged (2 * block + 1) place (by rw [Nat.pow_succ]; omega) small, first.1]
    refine congrArg (fun samples => radix2 butterfly width samples place) (funext fun place => ?_)
    exact congrArg samples (by ring)
  rw [size, blockSize, stage_apply cells (Nat.two_pow_pos width) inside (by omega), radix2]
  unfold joined
  dsimp only
  split
  next lower =>
      rw [evens index lower, odds index lower]
  next upper =>
      rw [evens _ (by omega), odds _ (by omega)]

/-- When all stages are done the store holds the recursion of the samples. -/
theorem Arranged.final
    (arranged : Arranged butterfly samples width 0 cells)
    {index : Nat}
    (below : index < 2 ^ width) :
    cells index = radix2 butterfly width samples index := by
  have whole := arranged 0 index Nat.one_pos below
  simpa [reversed] using whole

/-- The recursion uses the butterflies of its own stages only. -/
theorem radix2_congr
    {other : Nat → Nat → Cell → Cell → Cell × Cell}
    (same : ∀ stage < width, butterfly stage = other stage)
    (samples : Nat → Cell) :
    radix2 butterfly width samples = radix2 other width samples := by
  induction width generalizing samples with
  | zero => rfl
  | succ width inductionHypothesis =>
      have before := inductionHypothesis fun stage below => same stage (Nat.lt_succ_of_lt below)
      rw [radix2, radix2, before, before, same width (Nat.lt_succ_self width)]

theorem Arranged.congr
    {other : Nat → Nat → Cell → Cell → Cell × Cell}
    (arranged : Arranged butterfly samples width rest cells)
    (same : ∀ stage < width, butterfly stage = other stage) :
    Arranged other samples width rest cells := by
  intro block index inside below
  rw [arranged block index inside below, radix2_congr same]

/-- The results of two recursions are related when the butterflies keep the relation. -/
theorem radix2_related
    {Other : Type*}
    {other : Nat → Nat → Other → Other → Other × Other}
    {related : Nat → Cell → Other → Prop}
    (kept :
      ∀ {stage index first second first' second'},
        stage < width → index < 2 ^ stage → related stage first first' →
          related stage second second' →
            related (stage + 1) (butterfly stage index first second).1
                (other stage index first' second').1 ∧
              related (stage + 1) (butterfly stage index first second).2
                (other stage index first' second').2)
    {samples' : Nat → Other}
    (start : ∀ index, index < 2 ^ width → related 0 (samples index) (samples' index))
    {index : Nat}
    (below : index < 2 ^ width) :
    related width (radix2 butterfly width samples index)
      (radix2 other width samples' index) := by
  induction width generalizing samples samples' index with
  | zero => exact start index below
  | succ width inductionHypothesis =>
      rw [Nat.pow_succ] at below start
      have evens := fun {index} (small : index < 2 ^ width) =>
        inductionHypothesis
          (fun inside => kept (Nat.lt_succ_of_lt inside))
          (fun index small => start (2 * index) (by omega)) small
      have odds := fun {index} (small : index < 2 ^ width) =>
        inductionHypothesis
          (fun inside => kept (Nat.lt_succ_of_lt inside))
          (fun index small => start (2 * index + 1) (by omega)) small
      unfold radix2 joined
      split
      next lower =>
          exact (kept (Nat.lt_succ_self width) lower (evens lower) (odds lower)).1
      next upper =>
          have small : index - 2 ^ width < 2 ^ width := by omega
          exact (kept (Nat.lt_succ_self width) small (evens small) (odds small)).2

end Runs

/-! ## The Fourier transform -/

section Fourier

variable {Ring : Type*} [CommRing Ring]

/-- The butterfly of a transform whose results are scaled in each stage. -/
def fourierButterfly
    (scale root : Nat → Ring)
    (width index : Nat)
    (first second : Ring) :
    Ring × Ring :=
  (scale width * (first + root width ^ index * second),
    scale width * (first - root width ^ index * second))

theorem sum_range_double (count : Nat) (term : Nat → Ring) :
    ∑ index ∈ Finset.range (count * 2), term index =
      ∑ index ∈ Finset.range count, term (2 * index) +
        ∑ index ∈ Finset.range count, term (2 * index + 1) := by
  induction count with
  | zero => simp
  | succ count inductionHypothesis =>
      rw [Nat.succ_mul, Finset.sum_range_succ, Finset.sum_range_succ, inductionHypothesis,
        Finset.sum_range_succ, Finset.sum_range_succ, Nat.mul_comm count 2]
      ring

/-- With roots of unity the recursion is the discrete Fourier transform. -/
theorem radix2_fourier
    {root : Nat → Ring}
    (scale : Nat → Ring)
    (halfTurn : ∀ width, root width ^ 2 ^ width = -1)
    (square : ∀ width, root (width + 1) ^ 2 = root width)
    (samples : Nat → Ring)
    {width index : Nat}
    (below : index < 2 ^ width) :
    radix2 (fourierButterfly scale root) width samples index =
      (∏ stage ∈ Finset.range width, scale stage) *
        ∑ place ∈ Finset.range (2 ^ width),
          samples place * root width ^ (2 * place * index) := by
  induction width generalizing samples index with
  | zero =>
      obtain rfl : index = 0 := by omega
      simp [radix2]
  | succ width inductionHypothesis =>
      rw [Nat.pow_succ] at below ⊢
      -- the sum over all samples from those over the even and the odd ones
      have split :
          ∑ place ∈ Finset.range (2 ^ width * 2),
              samples place * root (width + 1) ^ (2 * place * index) =
            ∑ place ∈ Finset.range (2 ^ width),
                samples (2 * place) * root width ^ (2 * place * index) +
              root width ^ index *
                ∑ place ∈ Finset.range (2 ^ width),
                  samples (2 * place + 1) * root width ^ (2 * place * index) := by
        rw [sum_range_double, Finset.mul_sum]
        refine congrArg₂ _ (Finset.sum_congr rfl fun place _ => ?_)
          (Finset.sum_congr rfl fun place _ => ?_)
        · rw [← square width, ← pow_mul]
          ring
        · rw [← square width, ← pow_mul, ← pow_mul]
          ring
      rw [split]
      unfold radix2 joined
      split
      next lower =>
          rw [inductionHypothesis _ lower, inductionHypothesis _ lower, fourierButterfly,
            Finset.prod_range_succ]
          ring
      next upper =>
          obtain ⟨rest, rfl⟩ := Nat.exists_eq_add_of_le (not_lt.mp upper)
          have small : rest < 2 ^ width := by omega
          have turn : root width ^ (2 ^ width + rest) = -root width ^ rest := by
            rw [pow_add, halfTurn, neg_one_mul]
          have turns :
              ∀ place, root width ^ (2 * place * (2 ^ width + rest)) =
                root width ^ (2 * place * rest) := by
            intro place
            rw [Nat.mul_add, pow_add, Nat.mul_comm (2 * place) (2 ^ width), pow_mul, halfTurn,
              pow_mul, neg_one_sq, one_pow, one_mul]
          rw [Nat.add_sub_cancel_left, inductionHypothesis _ small, inductionHypothesis _ small,
            fourierButterfly, turn, Finset.prod_range_succ]
          simp only [turns]
          ring

end Fourier

end ApmSdk.ButterflyNetwork
