import ApmSdk.ArrayCopies
import ApmSdk.CheckedComputation
import ApmSdk.Convolution
import Mathlib.Data.List.TakeWhile

namespace ApmSdk

/-!
# The sparse FIR filter

`SparseFIRFilter` has its coefficients at lags of one spacing behind an offset.  It is handed
a stream in chunks of any length and keeps as many of the last samples as the longest lag
reaches back.  Samples and coefficients are of any semiring.
-/

/-- `SparseFIRFilter` -/
structure SparseFIRFilter (Sample : Type) where
  sparsity : Nat
  offset : Nat
  nonzeroCoeffs : List Sample
  state : List Sample
  present : 1 ≤ nonzeroCoeffs.length
  sparse : 1 ≤ sparsity
  size : state.length = sparsity * (nonzeroCoeffs.length - 1) + offset

namespace SparseFIRFilter

open ArrayCopies

variable {Sample : Type}

section State

variable (filter : SparseFIRFilter Sample) (input : List Sample)

/-- The lag of a coefficient. -/
def lag (j : Nat) : Nat :=
  j * filter.sparsity + filter.offset

/-- The state after a chunk; a chunk that is not shorter replaces all of it. -/
def updateState : Option (List Sample) :=
  let size := filter.state.length
  let length := input.length
  if 0 < size then
    if size ≤ length then do
      let last ← slice input (length - size) size
      overwrite filter.state 0 last
    else do
      let kept ← slice filter.state length (size - length)
      let moved ← overwrite filter.state 0 kept
      overwrite moved (size - length) input
  else some filter.state

/-- No copy reaches outside, and the state is the delay line with the chunk. -/
theorem updateState_eq :
    filter.updateState input =
      some (DelayLine.push filter.state input) := by
  unfold updateState
  dsimp only
  split
  next =>
      split
      next long =>
          rw [slice, if_pos (by omega), Option.bind_eq_bind,
            Option.bind_some, overwrite_all, DelayLine.push_of_ge long,
            List.take_of_length_le (by rw [List.length_drop]; omega)]
          rw [List.length_take, List.length_drop]
          omega
      next short =>
          have kept :
              slice filter.state input.length
                  (filter.state.length - input.length) =
                some (filter.state.drop input.length) := by
            rw [slice, if_pos (by omega),
              List.take_of_length_le (by rw [List.length_drop])]
          rw [kept, Option.bind_eq_bind, Option.bind_some,
            overwrite_start (by rw [List.length_drop]; omega),
            Option.bind_some, DelayLine.push_of_le (not_le.mp short).le]
          apply overwrite_end
          · rw [List.length_drop]
          · rw [List.length_drop, List.length_drop]
            omega
  next isEmpty =>
      have nothing : filter.state = [] :=
        List.length_eq_zero_iff.mp (by omega)
      rw [DelayLine.push_of_ge (by omega), nothing]
      simp

theorem length_updateState
    {state : List Sample}
    (isState : filter.updateState input = some state) :
    state.length = filter.state.length := by
  rw [updateState_eq] at isState
  rw [← Option.some.inj isState, DelayLine.length_push]

/-- Behind the first lag that reaches behind the chunk, all do. -/
theorem lag_of_mem_dropWhile
    {filter : SparseFIRFilter Sample}
    {i start count j : Nat}
    (member :
      j ∈ (List.range' start count).dropWhile fun j =>
        decide (filter.lag j ≤ i)) :
    i < filter.lag j ∧ start ≤ j ∧ j < start + count := by
  induction count generalizing start with
  | zero =>
      contradiction
  | succ count inductionHypothesis =>
      rw [List.range'_succ] at member
      by_cases inInput : filter.lag start ≤ i
      · rw [List.dropWhile_cons_of_pos (by simpa using inInput)] at member
        have rest := inductionHypothesis member
        omega
      · rw [List.dropWhile_cons_of_neg (by simpa using inInput)] at member
        have inRange := List.mem_range'_1.mp
          (by rwa [List.range'_succ] : j ∈ List.range' start (count + 1))
        have further :
            filter.lag start ≤ filter.lag j :=
          Nat.add_le_add_right (Nat.mul_le_mul_right _ inRange.1) _
        omega

/-- The place of an earlier sample in the state is its lag behind the end. -/
theorem state_index
    {filter : SparseFIRFilter Sample}
    {i j : Nat}
    (inRange : j < filter.nonzeroCoeffs.length) :
    i + (filter.nonzeroCoeffs.length - j - 1) * filter.sparsity =
        filter.state.length + i - filter.lag j ∧
      filter.lag j ≤ filter.state.length := by
  have whole :
      (filter.nonzeroCoeffs.length - 1) * filter.sparsity =
        (filter.nonzeroCoeffs.length - j - 1) * filter.sparsity +
          j * filter.sparsity := by
    rw [← Nat.add_mul]
    congr 1
    omega
  rw [filter.size, Nat.mul_comm filter.sparsity, whole]
  unfold lag at *
  omega

end State

variable [Semiring Sample]

/-- `SparseFIRFilter::SparseFIRFilter`, if both checks hold. -/
def create
    (nonzeroCoeffs : List Sample)
    (sparsity offset : Nat) : Option (SparseFIRFilter Sample) :=
  if checks : 1 ≤ nonzeroCoeffs.length ∧ 1 ≤ sparsity then
    some
      { sparsity
        offset
        nonzeroCoeffs
        state :=
          List.replicate (sparsity * (nonzeroCoeffs.length - 1) + offset) 0
        present := checks.1
        sparse := checks.2
        size := List.length_replicate }
  else none

variable (filter : SparseFIRFilter Sample) (input : List Sample)

/-- An output; a read outside of the chunk, the state or the coefficients has no value. -/
def outputAt (i : Nat) : Option Sample := do
  let inInput (j : Nat) : Bool := filter.lag j ≤ i
  let indices := List.range filter.nonzeroCoeffs.length
  let out ←
    (indices.takeWhile inInput).foldlM
      (fun out j => do
        let sample ← input[i - j * filter.sparsity - filter.offset]?
        let coeff ← filter.nonzeroCoeffs[j]?
        return out + sample * coeff)
      0
  (indices.dropWhile inInput).foldlM
    (fun out j => do
      let sample ←
        filter.state[
          i + (filter.nonzeroCoeffs.length - j - 1) * filter.sparsity]?
      let coeff ← filter.nonzeroCoeffs[j]?
      return out + sample * coeff)
    out

/-- `SparseFIRFilter::Filter` -/
def process : Option (List Sample × SparseFIRFilter Sample) := do
  let out ← (List.range input.length).mapM (filter.outputAt input)
  match isState : filter.updateState input with
  | some state =>
      some (out,
        { filter with
          state
          size :=
            (filter.length_updateState input isState).trans filter.size })
  | none => none

/-! ## The outputs of a chunk -/

/-- A loop whose reads all have values adds up their products. -/
theorem foldlM_products
    {samples coeffs : Nat → Option Sample}
    {sampleOf coeffOf : Nat → Sample}
    {indices : List Nat}
    (readsSample : ∀ j ∈ indices, samples j = some (sampleOf j))
    (readsCoeff : ∀ j ∈ indices, coeffs j = some (coeffOf j))
    (start : Sample) :
    indices.foldlM
        (fun out j => do
          let sample ← samples j
          let coeff ← coeffs j
          return out + sample * coeff)
        start =
      some (start + (indices.map fun j => sampleOf j * coeffOf j).sum) := by
  induction indices generalizing start with
  | nil =>
      rw [List.map_nil, List.sum_nil, add_zero]
      rfl
  | cons j rest inductionHypothesis =>
      rw [List.forall_mem_cons] at readsSample readsCoeff
      rw [List.foldlM_cons, readsSample.1, readsCoeff.1, List.map_cons,
        List.sum_cons, ← add_assoc]
      exact inductionHypothesis readsSample.2 readsCoeff.2 _

/-- The filter has read a stream. -/
def Holds (filter : SparseFIRFilter Sample) (stream : List Sample) : Prop :=
  filter.state =
    DelayLine.push (List.replicate filter.state.length 0) stream

variable {filter : SparseFIRFilter Sample} {stream : List Sample}

/-- The kernel with a coefficient at each lag. -/
def kernel (filter : SparseFIRFilter Sample) : Nat → Sample :=
  Convolution.impulses filter.nonzeroCoeffs filter.lag

theorem coeff_eq
    {j : Nat}
    (inRange : j < filter.nonzeroCoeffs.length) :
    filter.nonzeroCoeffs[j]? = some (filter.nonzeroCoeffs.getD j 0) := by
  rw [List.getD_eq_getElem _ _ inRange]
  exact List.getElem?_eq_getElem inRange

/-- An output is that of the convolution of the stream. -/
theorem Holds.outputAt
    (holds : filter.Holds stream)
    {i : Nat}
    (inChunk : i < input.length) :
    filter.outputAt input i =
      some
        (Convolution.convolution (stream ++ input) filter.kernel
          (stream.length + i)) := by
  have recent :
      ∀ j ∈ (List.range filter.nonzeroCoeffs.length).takeWhile fun j =>
          decide (filter.lag j ≤ i),
        input[i - j * filter.sparsity - filter.offset]? =
            some
              (Convolution.delayed (stream ++ input) (stream.length + i)
                (filter.lag j)) ∧
          filter.nonzeroCoeffs[j]? =
            some (filter.nonzeroCoeffs.getD j 0) := by
    intro j member
    have inInput : filter.lag j ≤ i := by
      simpa using List.mem_takeWhile_imp member
    have inRange :=
      List.mem_range.mp ((List.takeWhile_prefix _).subset member)
    rw [Nat.sub_sub]
    exact ⟨Convolution.delayed_in_block inChunk inInput, coeff_eq inRange⟩
  have earlier :
      ∀ j ∈ (List.range filter.nonzeroCoeffs.length).dropWhile fun j =>
          decide (filter.lag j ≤ i),
        filter.state[
            i + (filter.nonzeroCoeffs.length - j - 1) * filter.sparsity]? =
            some
              (Convolution.delayed (stream ++ input) (stream.length + i)
                (filter.lag j)) ∧
          filter.nonzeroCoeffs[j]? =
            some (filter.nonzeroCoeffs.getD j 0) := by
    intro j member
    rw [List.range_eq_range'] at member
    obtain ⟨behind, -, inRange⟩ := lag_of_mem_dropWhile member
    rw [Nat.zero_add] at inRange
    obtain ⟨isIndex, held⟩ := @state_index _ _ i _ inRange
    refine ⟨?_, coeff_eq inRange⟩
    have line :=
      @Convolution.delayed_in_line Sample _ stream input _ i _ behind held
    rw [← holds, ← isIndex] at line
    exact line
  have sum :
      Convolution.convolution (stream ++ input) filter.kernel
          (stream.length + i) =
        ((List.range filter.nonzeroCoeffs.length).map fun j =>
          Convolution.delayed (stream ++ input) (stream.length + i)
              (filter.lag j) *
            filter.nonzeroCoeffs.getD j 0).sum := by
    rw [kernel, Convolution.convolution_impulses]
    exact Multiset.sum_coe _
  have first :=
    foldlM_products (fun j member => (recent j member).1)
      (fun j member => (recent j member).2) 0
  unfold SparseFIRFilter.outputAt
  dsimp only
  rw [first]
  refine
    (foldlM_products (fun j member => (earlier j member).1)
      (fun j member => (earlier j member).2) _).trans ?_
  rw [zero_add, ← List.sum_append, ← List.map_append,
    List.takeWhile_append_dropWhile, sum]

/-- A chunk gives its outputs of the convolution and is read. -/
theorem Holds.process
    (holds : filter.Holds stream)
    (input : List Sample) :
    ∃ next,
      filter.process input =
          some
            ((List.range input.length).map fun i =>
              Convolution.convolution (stream ++ input) filter.kernel
                (stream.length + i),
            next) ∧
        next.Holds (stream ++ input) ∧ next.kernel = filter.kernel := by
  have outputs :=
    mapM_of_forall fun i member =>
      holds.outputAt input (List.mem_range.mp member)
  unfold SparseFIRFilter.process
  rw [outputs]
  dsimp only [Option.bind_eq_bind, Option.bind_some]
  split
  next state isState =>
      refine ⟨_, rfl, ?_, rfl⟩
      unfold Holds
      dsimp only
      rw [filter.length_updateState input isState]
      rw [updateState_eq, holds, DelayLine.push_push] at isState
      exact (Option.some.inj isState).symm
  next isNone =>
      rw [updateState_eq] at isNone
      contradiction

/-! ## Streams -/

/-- The outputs of a stream that comes in chunks, one after another. -/
def processAll
    (filter : SparseFIRFilter Sample)
    (chunks : List (List Sample)) :
    Option (List Sample × SparseFIRFilter Sample) :=
  chunks.foldlM
    (fun (output, filter) chunk => do
      let (out, filter) ← filter.process chunk
      return (output ++ out, filter))
    ([], filter)

/-- After every chunk the outputs are those of the convolution of what has come. -/
theorem Holds.processAll
    (holds : filter.Holds [])
    (chunks : List (List Sample)) :
    ∃ last,
      filter.processAll chunks =
          some
            ((List.range chunks.flatten.length).map
              (Convolution.convolution chunks.flatten filter.kernel),
            last) ∧
        last.Holds chunks.flatten ∧ last.kernel = filter.kernel := by
  induction chunks using List.reverseRecOn with
  | nil =>
      exact ⟨filter, rfl, holds, rfl⟩
  | append_singleton chunks chunk inductionHypothesis =>
      obtain ⟨last, before, held, sameKernel⟩ := inductionHypothesis
      obtain ⟨next, processed, heldNext, keptKernel⟩ := held.process chunk
      refine ⟨next, ?_, by simpa using heldNext, keptKernel.trans sameKernel⟩
      have unchanged :
          (List.range chunks.flatten.length).map
              (Convolution.convolution chunks.flatten filter.kernel) =
            (List.range chunks.flatten.length).map
              (Convolution.convolution (chunks.flatten ++ chunk)
                filter.kernel) :=
        List.map_congr_left fun index member =>
          (Convolution.convolution_append (List.mem_range.mp member) _).symm
      unfold SparseFIRFilter.processAll at *
      rw [List.foldlM_append, before]
      dsimp only [Option.bind_eq_bind, Option.bind_some]
      rw [List.foldlM_cons, processed, sameKernel, unchanged,
        List.flatten_append, List.flatten_singleton, List.length_append,
        List.range_add, List.map_append, List.map_map]
      rfl

/-- However a stream is cut into chunks, the outputs are its convolution with the kernel
that has each coefficient at its lag, and nothing is read outside of the state. -/
theorem processAll_convolves
    (nonzeroCoeffs : List Sample)
    (sparsity offset : Nat)
    (present : 1 ≤ nonzeroCoeffs.length)
    (sparse : 1 ≤ sparsity)
    (chunks : List (List Sample)) :
    Returns
      (do
        let filter ← create nonzeroCoeffs sparsity offset
        filter.processAll chunks)
      fun (output, _) =>
        output =
          (List.range chunks.flatten.length).map
            (Convolution.convolution chunks.flatten
              (Convolution.impulses nonzeroCoeffs fun j =>
                j * sparsity + offset)) := by
  unfold create
  rw [dif_pos ⟨present, sparse⟩]
  dsimp only [Option.bind_eq_bind, Option.bind_some]
  have holds :
      Holds
        { sparsity
          offset
          nonzeroCoeffs
          state :=
            List.replicate (sparsity * (nonzeroCoeffs.length - 1) + offset)
              (0 : Sample)
          present
          sparse
          size := List.length_replicate } [] := by
    unfold Holds
    rw [DelayLine.push_nil, List.length_replicate]
  obtain ⟨last, processed, -, -⟩ := holds.processAll chunks
  exact ⟨_, processed, rfl⟩

/-- Two coefficients and a stream in three chunks, one of them empty. -/
theorem processAll_convolves_chunks :
    Returns
      (do
        let filter ← create [(1 : Int), 2] 2 1
        filter.processAll [[1], [], [2, 3, 4, 5]])
      fun (output, _) =>
        output =
          (List.range 5).map
            (Convolution.convolution [1, 2, 3, 4, 5]
              (Convolution.impulses [(1 : Int), 2] fun j => j * 2 + 1)) :=
  processAll_convolves [1, 2] 2 1 (by decide) (by decide)
    [[1], [], [2, 3, 4, 5]]

end SparseFIRFilter

end ApmSdk
