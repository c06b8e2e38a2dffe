import ApmSdk.ResamplerPush
import ApmSdk.ResamplerRuns

namespace ApmSdk.Resampler

/-!
# Passes of a resampler's filters

A pass puts out as many samples as its length says, of which only the beginning of its input
decides, and leaves what is behind them in its output.  A mode is a chain of passes.
-/

open ArrayCopies

variable {converters : Converters}

/-- What the memory of a filter is for. -/
abbrev kindOf (state : Option Filter) : Option (Option Converter) :=
  state.map fun filter => filter.memory.kind

/-- Over every input that begins with a list, a pass puts out the same samples. -/
def Puts
    (pass : Pass)
    (first : List Int)
    (state : Option Filter)
    (count : Nat) : Prop :=
  ∃ produced next,
    produced.length = count ∧
      kindOf next = kindOf state ∧
        ∀ input output,
          first <+: input →
          count ≤ output.length →
          pass input output state =
            some (produced ++ output.drop count, next)

theorem call_eq
    {routine : Routine}
    {filter : Filter}
    {input output block produced rest : List Int}
    {memory : FilterMemory}
    {start count offset : Nat}
    (isBlock : slice input start count = some block)
    (isRun :
      routine.run converters filter.memory block = some (produced, memory))
    (isOutput : overwrite output offset produced = some rest) :
    routine.call converters input start count output offset (some filter) =
      some (rest, some ⟨memory, filter.fed + count⟩) := by
  unfold Routine.call
  dsimp only [Option.bind_eq_bind, Option.bind_some]
  rw [isBlock, Option.bind_some, isRun]
  dsimp only [Option.bind_some]
  rw [isOutput]
  rfl

/-- A function that runs on a whole input puts out what it gives for it. -/
theorem puts_call
    {routine : Routine}
    {filter : Filter}
    {first produced : List Int}
    {memory : FilterMemory}
    {count : Nat}
    (isRun :
      routine.run converters filter.memory first = some (produced, memory))
    (isCount : produced.length = count)
    (sameKind : memory.kind = filter.memory.kind) :
    Puts
      (fun input output state =>
        routine.call converters input 0 first.length output 0 state)
      first (some filter) count := by
  refine ⟨produced, some ⟨memory, filter.fed + first.length⟩, isCount,
    congrArg some sameKind, ?_⟩
  intro input output isPrefix fits
  rw [← isCount] at fits ⊢
  exact call_eq (slice_of_leading isPrefix) isRun (overwrite_start fits)

/-- A filter by two is there. -/
theorem exists_by2
    {state : Option Filter}
    (isKind : kindOf state = some none) :
    ∃ filtState fed, state = some ⟨.by2 filtState, fed⟩ := by
  obtain ⟨⟨memory, fed⟩, rfl, isNone⟩ := Option.map_eq_some_iff.mp isKind
  cases memory with
  | by2 filtState =>
      exact ⟨filtState, fed, rfl⟩
  | converter which words =>
      contradiction

theorem puts_upsampleBy2
    {first : List Int}
    {state : Option Filter}
    {length count : Nat}
    (isKind : kindOf state = some none)
    (isLength : first.length = length)
    (isCount : 2 * length = count) :
    Puts (upsampleBy2 converters length) first state count := by
  obtain ⟨filtState, fed, rfl⟩ := exists_by2 isKind
  subst isLength isCount
  exact puts_call rfl (HalfBand.length_upsampleBy2 ..) rfl

theorem puts_downsampleBy2
    {first : List Int}
    {state : Option Filter}
    {length count : Nat}
    (isKind : kindOf state = some none)
    (isLength : first.length = length)
    (isCount : length / 2 = count) :
    Puts (downsampleBy2 converters length) first state count := by
  obtain ⟨filtState, fed, rfl⟩ := exists_by2 isKind
  subst isLength isCount
  exact puts_call rfl (HalfBand.length_downsampleBy2 ..) rfl

/-! ## Blocks -/

/-- A converter's state is there. -/
theorem exists_converter
    {state : Option Filter}
    {which : Converter}
    (isKind : kindOf state = some (some which)) :
    ∃ words fed, state = some ⟨.converter which words, fed⟩ := by
  obtain ⟨⟨memory, fed⟩, rfl, isSome⟩ := Option.map_eq_some_iff.mp isKind
  cases memory with
  | by2 filtState =>
      contradiction
  | converter other words =>
      obtain rfl : other = which := Option.some.inj isSome
      exact ⟨words, fed, rfl⟩

/-- After each turn of the loop the samples of its block have been put behind those of the
blocks before it. -/
theorem puts_turns
    {which : Converter}
    {offset : Nat → Nat}
    {first : List Int}
    {state : Option Filter}
    (isKind : kindOf state = some (some which))
    {turns : Nat}
    (enough : turns * which.inLength ≤ first.length)
    (offsets :
      ∀ turn < turns,
        offset (turn * which.inLength) = turn * which.outLength) :
    Puts (convertTurns converters which offset turns) first state
      (turns * which.outLength) := by
  induction turns with
  | zero =>
      refine ⟨[], state, ?_, rfl, ?_⟩
      · rw [Nat.zero_mul]
        rfl
      · intro input output _ _
        rw [Nat.zero_mul, List.drop_zero]
        rfl
  | succ turns inductionHypothesis =>
      rw [Nat.succ_mul] at enough
      obtain ⟨produced, next, isLength, sameKind, earlier⟩ :=
        inductionHypothesis (by omega) fun turn before =>
          offsets turn (by omega)
      obtain ⟨words, fed, rfl⟩ := exists_converter (sameKind.trans isKind)
      have inside :
          turns * which.inLength + which.inLength ≤ first.length :=
        enough
      generalize isBlock :
        (first.drop (turns * which.inLength)).take which.inLength =
          block at *
      have blockLength : block.length = which.inLength := by
        rw [← isBlock, List.length_take, List.length_drop]
        omega
      obtain ⟨later, words', isRun⟩ :
          ∃ later words', converters.run which words block = (later, words') :=
        ⟨_, _, rfl⟩
      have laterLength : later.length = which.outLength := by
        rw [← converters.length_run which words block blockLength, isRun]
      refine ⟨produced ++ later,
        some ⟨.converter which words', fed + which.inLength⟩, ?_, ?_, ?_⟩
      · rw [List.length_append, isLength, laterLength, Nat.succ_mul]
      · rw [isKind]
        rfl
      · intro input output isPrefix fits
        rw [Nat.succ_mul] at fits
        have before := earlier input output isPrefix (by omega)
        unfold convertTurns at before ⊢
        rw [List.range_succ, List.foldlM_append, before]
        dsimp only [Option.bind_eq_bind, Option.bind_some]
        have isBlock' :
            slice input (turns * which.inLength) which.inLength =
              some block := by
          rw [slice_within_leading isPrefix inside, isBlock]
        have isRun' :
            (Routine.convert which).run converters
                (.converter which words) block =
              some (later, .converter which words') := by
          rw [Routine.run, if_pos rfl, isRun]
        have isOutput :
            overwrite
                (produced ++ output.drop (turns * which.outLength))
                (offset (turns * which.inLength)) later =
              some
                (produced ++ later ++
                  output.drop ((turns + 1) * which.outLength)) := by
          rw [overwrite_next
              ((offsets turns (Nat.lt_succ_self _)).trans isLength.symm)
              (by rw [List.length_drop]; omega),
            List.drop_drop, laterLength, Nat.succ_mul]
        rw [List.foldlM_cons]
        exact
          congrArg (fun call => call >>= _)
            (call_eq isBlock' isRun' isOutput)

theorem puts_convertBlocks
    {which : Converter}
    {offset : Nat → Nat}
    {first : List Int}
    {state : Option Filter}
    {length count : Nat}
    (isKind : kindOf state = some (some which))
    (isLength : first.length = length)
    (turns : Nat)
    (whole : length = turns * which.inLength)
    (isCount : turns * which.outLength = count)
    (offsets :
      ∀ turn < turns,
        offset (turn * which.inLength) = turn * which.outLength) :
    Puts (convertBlocks converters which offset length) first state
      count := by
  have positive : 0 < which.inLength := by
    cases which <;> decide
  have isTurns :
      (length + which.inLength - 1) / which.inLength = turns := by
    rw [whole, Nat.add_sub_assoc positive, Nat.mul_comm,
      Nat.mul_add_div positive, Nat.div_eq_of_lt (by omega), Nat.add_zero]
  unfold convertBlocks
  rw [isTurns, ← isCount]
  exact puts_turns isKind (by omega) offsets

end ApmSdk.Resampler
