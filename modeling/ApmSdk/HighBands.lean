import ApmSdk.CheckedComputation
import ApmSdk.DelayLine
import ApmSdk.SuppressionFilter

namespace ApmSdk.Nsx

/-!
# The upper bands of the fixed-point suppressor

The upper bands are not analysed.  They are delayed by as much as the low band is, and a
frame of them has one gain in the time domain, from what the suppressor has found in the
upper half of the low band.  A frame whose windowed low band is all zero returns early, on
a path that moves the buffers of the upper bands by itself.
-/

namespace Band

/-- `blockLen10ms` -/
def blockLen10ms : Band → Nat
  | narrow => 80
  | wide => 160

/-- `anaLen` -/
def anaLen : Band → Nat
  | narrow => 128
  | wide => 256

/-- `anaLen2` -/
def anaLen2 (band : Band) : Nat :=
  band.anaLen / 2

/-- What of a block is still in the buffer when the next one comes. -/
def overlap (band : Band) : Nat :=
  band.anaLen - band.blockLen10ms

theorem overlap_add (band : Band) :
    band.overlap + band.blockLen10ms = band.anaLen := by
  cases band <;> rfl

/-- The bins of the second half of the second half of a spectrum. -/
def upperBins (band : Band) (values : List Int) : List Int :=
  (values.take band.anaLen2).drop (band.anaLen2 - band.anaLen2 / 4)

end Band

/-- A block of an upper band. -/
structure HighBlock (band : Band) where
  samples : List Int
  size : samples.length = band.blockLen10ms
  range : ∀ sample ∈ samples, -2 ^ 15 ≤ sample ∧ sample < 2 ^ 15

/-- A frame with its upper bands. -/
structure HighBandFrame (band : Band) (numHighBands : Nat) where
  low : SuppressionFrame band
  speechFrameHB : Fin numHighBands → HighBlock band

/-- `zeroInputSignal` -/
def HighBandFrame.ZeroInputSignal
    {band : Band}
    {numHighBands : Nat}
    (frame : HighBandFrame band numHighBands) : Prop :=
  frame.low.analysis.maxWinData = 0

instance
    {band : Band}
    {numHighBands : Nat}
    (frame : HighBandFrame band numHighBands) :
    Decidable frame.ZeroInputSignal :=
  inferInstanceAs (Decidable (_ = _))

/-- What a `NoiseSuppressionFixedC` keeps for the upper bands. -/
structure HighBandCore (numHighBands : Nat) where
  low : SuppressionCore
  dataBufHBFX : Fin numHighBands → List Int

/-- A call of the suppressor with upper bands. -/
inductive HighBandCall (band : Band) (numHighBands : Nat) where
  | setPolicy (mode : Int)
  | processCore (frame : HighBandFrame band numHighBands)

/-- The frame of a call, if it is one. -/
def HighBandCall.frame?
    {band : Band}
    {numHighBands : Nat} :
    HighBandCall band numHighBands → Option (HighBandFrame band numHighBands)
  | setPolicy _ => none
  | processCore frame => some frame

namespace HighBandCore

variable {band : Band} {numHighBands : Nat}

/-- The upper bands after `WebRtcNsx_InitCore`. -/
def initCore (band : Band) (numHighBands : Nat) :
    HighBandCore numHighBands where
  low := .initCore band
  dataBufHBFX := fun _ => List.replicate band.anaLen 0

variable (inst : HighBandCore numHighBands)
variable (frame : HighBandFrame band numHighBands)

/-- The buffers with the blocks of a frame. -/
def updateBuffers (i : Fin numHighBands) : List Int :=
  ((inst.dataBufHBFX i).drop band.blockLen10ms).take band.overlap ++
    (frame.speechFrameHB i).samples

/-! ## The gain of a frame -/

/-- `avgProbSpeechHB` -/
def avgProbSpeechHB : Int :=
  let tmpU16no1 :=
    uint16
      (band.upperBins
        (frame.low.analysis.bins.map fun bin => (bin.nonSpeechProb : Int))).sum
  int16 (4096 - tmpU16no1 >>> (band.stages - 7))

/-- `avgFilterGainHB` -/
def avgFilterGainHB : Int :=
  let tmpU32no1 :=
    uint32 (band.upperBins (inst.low.nextFilter frame.low)).sum
  int16 (tmpU32no1 >>> (band.stages - 3))

/-- `gainModHB` -/
def gainModHB : Int :=
  min (avgProbSpeechHB frame) 3607

/-- `gainTimeDomainHB` -/
def gainTimeDomainHB : Int :=
  let gain :=
    if avgProbSpeechHB frame < 2048 then
      int16
        (gainModHB frame * 2 +
          inst.avgFilterGainHB frame >>> (1 : Nat))
    else
      int16
        (int16 ((3 * inst.avgFilterGainHB frame) >>> (2 : Nat)) +
          gainModHB frame)
  sat 16384 gain (int16 inst.low.policy.denoiseBound)

/-- `outFrameHB`, on either path. -/
def outFrameHB (i : Fin numHighBands) : List Int :=
  let block := (inst.updateBuffers frame i).take band.blockLen10ms
  if frame.ZeroInputSignal then block
  else
    block.map fun sample =>
      int16 ((inst.gainTimeDomainHB frame * sample) >>> (14 : Nat))

/-- A frame with its upper bands. -/
def processCore : Option (HighBandCore numHighBands) := do
  let low ← inst.low.processCore frame.low
  return { low, dataBufHBFX := inst.updateBuffers frame }

end HighBandCore

/-! ## What is heard of the upper bands -/

/-- A frame, the bound of the gain it has been processed with, and its output. -/
structure HeardFrame (band : Band) (numHighBands : Nat) where
  frame : HighBandFrame band numHighBands
  denoiseBound : Int
  output : Fin numHighBands → List Int

/-- The gain that a frame may have. -/
def HeardFrame.MayHave
    {band : Band}
    {numHighBands : Nat}
    (heard : HeardFrame band numHighBands)
    (gain : Int) : Prop :=
  if heard.frame.ZeroInputSignal then gain = 16384
  else heard.denoiseBound ≤ gain ∧ gain ≤ 16384

/-- A suppressor and the frames it has processed. -/
structure HighBandRun (band : Band) (numHighBands : Nat) where
  inst : HighBandCore numHighBands
  heard : List (HeardFrame band numHighBands)

namespace HighBandRun

variable {band : Band} {numHighBands : Nat}

/-- No frame has been processed. -/
def start (band : Band) (numHighBands : Nat) :
    HighBandRun band numHighBands where
  inst := .initCore band numHighBands
  heard := []

/-- A call, with what is heard of it. -/
def perform
    (run : HighBandRun band numHighBands) :
    HighBandCall band numHighBands → Option (HighBandRun band numHighBands)
  | .setPolicy mode =>
      some { run with
        inst.low.policy := (setPolicyCore mode).getD run.inst.low.policy }
  | .processCore frame => do
      let inst ← run.inst.processCore frame
      return {
        inst
        heard :=
          run.heard ++
            [⟨frame, run.inst.low.policy.denoiseBound,
              run.inst.outFrameHB frame⟩] }

/-- The input of an upper band. -/
def input
    (run : HighBandRun band numHighBands)
    (i : Fin numHighBands) : List Int :=
  run.heard.flatMap fun heard => (heard.frame.speechFrameHB i).samples

/-- The output of an upper band. -/
def output
    (run : HighBandRun band numHighBands)
    (i : Fin numHighBands) : List Int :=
  run.heard.flatMap fun heard => heard.output i

/-- What must be heard: all the frames, each upper band delayed by the overlap of the
blocks and scaled by the gain of the frame. -/
structure Kept
    (calls : List (HighBandCall band numHighBands))
    (run : HighBandRun band numHighBands) : Prop where
  frames :
    run.heard.map HeardFrame.frame = calls.filterMap HighBandCall.frame?
  delayed :
    ∃ gains : List Int,
      List.Forall₂ HeardFrame.MayHave run.heard gains ∧
        ∀ i,
          run.output i =
            List.zipWith
              (fun gain sample : Int => (gain * sample) >>> (14 : Nat))
              (gains.flatMap (List.replicate band.blockLen10ms))
              (List.replicate band.overlap 0 ++ run.input i)

end HighBandRun

/-! ## One frame -/

section Frame

variable {band : Band} {numHighBands : Nat}
variable {inst : HighBandCore numHighBands}
variable {frame : HighBandFrame band numHighBands}

/-- The gain of a frame on the path that it takes. -/
def frameGain
    (inst : HighBandCore numHighBands)
    (frame : HighBandFrame band numHighBands) : Int :=
  if frame.ZeroInputSignal then 16384 else inst.gainTimeDomainHB frame

theorem gainTimeDomainHB_range :
    inst.low.policy.denoiseBound ≤ inst.gainTimeDomainHB frame ∧
      inst.gainTimeDomainHB frame ≤ 16384 := by
  have bound := inst.low.policy.denoiseRange
  have word : int16 inst.low.policy.denoiseBound = inst.low.policy.denoiseBound :=
    int16_of_bounds (by omega) (by omega)
  unfold HighBandCore.gainTimeDomainHB
  dsimp only
  rw [word]
  exact sat_range (by omega) _

theorem frameGain_range :
    0 ≤ frameGain inst frame ∧ frameGain inst frame ≤ 16384 := by
  unfold frameGain
  split
  next =>
      decide
  next =>
      have bound := inst.low.policy.denoiseRange
      have range :
          inst.low.policy.denoiseBound ≤ inst.gainTimeDomainHB frame ∧
            inst.gainTimeDomainHB frame ≤ 16384 :=
        gainTimeDomainHB_range
      omega

theorem frameGain_mayHave (output : Fin numHighBands → List Int) :
    (HeardFrame.mk frame inst.low.policy.denoiseBound output).MayHave
      (frameGain inst frame) := by
  unfold HeardFrame.MayHave frameGain
  dsimp only
  split
  next =>
      rfl
  next =>
      exact gainTimeDomainHB_range

/-- A gain of at most one keeps a sample in 16 bits. -/
theorem scaled_range
    {gain sample : Int}
    (isGain : 0 ≤ gain ∧ gain ≤ 16384)
    (isSample : -2 ^ 15 ≤ sample ∧ sample < 2 ^ 15) :
    int16 ((gain * sample) >>> (14 : Nat)) =
      (gain * sample) >>> (14 : Nat) := by
  have lower : gain * (-2 ^ 15) ≤ gain * sample :=
    mul_le_mul_of_nonneg_left isSample.1 isGain.1
  have upper : gain * sample ≤ gain * (2 ^ 15 - 1) :=
    mul_le_mul_of_nonneg_left (by omega) isGain.1
  rw [Int.shiftRight_eq_div_pow, Nat.cast_pow, Nat.cast_ofNat]
  exact int16_of_bounds (by omega) (by omega)

/-- Both paths scale the oldest block of the buffer by the gain of the frame. -/
theorem outFrameHB_eq
    (i : Fin numHighBands)
    (range :
      ∀ sample ∈ inst.updateBuffers frame i,
        -2 ^ 15 ≤ sample ∧ sample < 2 ^ 15) :
    inst.outFrameHB frame i =
      ((inst.updateBuffers frame i).take band.blockLen10ms).map fun sample =>
        (frameGain inst frame * sample) >>> (14 : Nat) := by
  unfold HighBandCore.outFrameHB
  dsimp only
  split
  next silent =>
      have isGain : frameGain inst frame = 16384 :=
        if_pos silent
      rw [isGain]
      refine ((List.map_id'' ?_ _).symm)
      intro sample
      rw [Int.shiftRight_eq_div_pow]
      omega
  next present =>
      have isGain : frameGain inst frame = inst.gainTimeDomainHB frame :=
        if_neg present
      refine List.map_congr_left fun sample member => ?_
      rw [← isGain]
      exact
        scaled_range frameGain_range
          (range sample (List.mem_of_mem_take member))

end Frame

/-! ## Runs -/

namespace HighBandRun

variable {band : Band} {numHighBands : Nat}
variable {run : HighBandRun band numHighBands}

/-- What a run keeps: the buffers are the delay lines of the input, and the output is the
delayed input with the gains so far. -/
structure Sound (run : HighBandRun band numHighBands) : Prop where
  buffers :
    ∀ i,
      run.inst.dataBufHBFX i =
        DelayLine.push (List.replicate band.anaLen 0) (run.input i)
  inputs :
    ∀ i, (run.input i).length = run.heard.length * band.blockLen10ms
  range : ∀ i, ∀ sample ∈ run.input i, -2 ^ 15 ≤ sample ∧ sample < 2 ^ 15
  delayed :
    ∃ gains : List Int,
      List.Forall₂ HeardFrame.MayHave run.heard gains ∧
        ∀ i,
          run.output i =
            List.zipWith
              (fun gain sample : Int => (gain * sample) >>> (14 : Nat))
              (gains.flatMap (List.replicate band.blockLen10ms))
              (List.replicate band.overlap 0 ++ run.input i)

theorem Sound.start : (start band numHighBands).Sound where
  buffers := fun _ => DelayLine.push_nil.symm
  inputs := fun _ => (Nat.zero_mul _).symm
  range := fun _ _ member => by contradiction
  delayed := ⟨[], .nil, fun _ => rfl⟩

/-- The buffers with the blocks of a frame are the delay lines with them. -/
theorem Sound.updateBuffers
    (sound : run.Sound)
    (frame : HighBandFrame band numHighBands)
    (i : Fin numHighBands) :
    run.inst.updateBuffers frame i =
      DelayLine.push (List.replicate band.anaLen 0)
        (run.input i ++ (frame.speechFrameHB i).samples) := by
  have size := (frame.speechFrameHB i).size
  have lengths := band.overlap_add
  have length : (run.inst.dataBufHBFX i).length = band.anaLen := by
    rw [sound.buffers, DelayLine.length_push, List.length_replicate]
  have whole :
      ((run.inst.dataBufHBFX i).drop band.blockLen10ms).take band.overlap =
        (run.inst.dataBufHBFX i).drop band.blockLen10ms := by
    apply List.take_of_length_le
    rw [List.length_drop]
    omega
  rw [HighBandCore.updateBuffers, whole, ← DelayLine.push_push,
    ← sound.buffers, DelayLine.push_of_le (by omega), size]

/-- The samples of a buffer are zeros or of the input. -/
theorem mem_push_range
    {entries : Nat}
    {stream : List Int}
    (range : ∀ sample ∈ stream, -2 ^ 15 ≤ sample ∧ sample < 2 ^ 15)
    {sample : Int}
    (member : sample ∈ DelayLine.push (List.replicate entries 0) stream) :
    -2 ^ 15 ≤ sample ∧ sample < 2 ^ 15 := by
  obtain isZero | inStream :=
    List.mem_append.mp (List.mem_of_mem_drop member)
  · rw [List.eq_of_mem_replicate isZero]
    decide
  · exact range sample inStream

theorem input_append
    {heard : HeardFrame band numHighBands}
    {inst : HighBandCore numHighBands}
    (i : Fin numHighBands) :
    input ⟨inst, run.heard ++ [heard]⟩ i =
      run.input i ++ (heard.frame.speechFrameHB i).samples := by
  simp [input]

theorem output_append
    {heard : HeardFrame band numHighBands}
    {inst : HighBandCore numHighBands}
    (i : Fin numHighBands) :
    output ⟨inst, run.heard ++ [heard]⟩ i =
      run.output i ++ heard.output i := by
  simp [output]

/-- One more frame keeps the run sound, on either path. -/
theorem Sound.processCore
    (sound : run.Sound)
    (frame : HighBandFrame band numHighBands)
    (low : SuppressionCore) :
    Sound
      ⟨⟨low, run.inst.updateBuffers frame⟩,
        run.heard ++
          [⟨frame, run.inst.low.policy.denoiseBound,
            run.inst.outFrameHB frame⟩]⟩ := by
  have range (i : Fin numHighBands) :
      ∀ sample ∈ run.input i ++ (frame.speechFrameHB i).samples,
        -2 ^ 15 ≤ sample ∧ sample < 2 ^ 15 := by
    intro sample member
    obtain inInput | inBlock := List.mem_append.mp member
    · exact sound.range i sample inInput
    · exact (frame.speechFrameHB i).range sample inBlock
  refine ⟨?buffers, ?inputs, ?range, ?delayed⟩
  case buffers =>
    intro i
    rw [input_append]
    exact sound.updateBuffers frame i
  case inputs =>
    intro i
    rw [input_append, List.length_append, sound.inputs,
      (frame.speechFrameHB i).size, List.length_append,
      List.length_singleton, Nat.add_mul, Nat.one_mul]
  case range =>
    intro i
    rw [input_append]
    exact range i
  case delayed =>
    obtain ⟨gains, mayHave, delayed⟩ := sound.delayed
    refine ⟨gains ++ [frameGain run.inst frame], ?_, ?_⟩
    · exact
        List.rel_append mayHave
          (.cons (frameGain_mayHave (run.inst.outFrameHB frame)) .nil)
    · intro i
      have expanded :
          (gains.flatMap (List.replicate band.blockLen10ms)).length =
            (run.input i).length := by
        rw [sound.inputs, mayHave.length_eq]
        simp [List.length_flatMap]
      have line :
          (run.inst.updateBuffers frame i).take band.blockLen10ms =
            ((List.replicate band.overlap 0 ++ run.input i ++
                  (frame.speechFrameHB i).samples).drop
                (run.input i).length).take band.blockLen10ms := by
        rw [sound.updateBuffers, ← band.overlap_add,
          ← (frame.speechFrameHB i).size, List.append_assoc]
        exact DelayLine.take_push
      have output :
          run.inst.outFrameHB frame i =
            ((run.inst.updateBuffers frame i).take band.blockLen10ms).map
              fun sample =>
                (frameGain run.inst frame * sample) >>> (14 : Nat) := by
        apply outFrameHB_eq
        rw [sound.updateBuffers]
        exact fun sample => mem_push_range (range i)
      rw [output_append, input_append, delayed]
      dsimp only
      rw [output, line, List.flatMap_append, List.flatMap_singleton, ← List.append_assoc,
        DelayLine.zipWith_append_replicate
          (by rw [expanded, List.length_append]; exact Nat.le_add_left _ _),
        expanded]

/-- Whatever the calls, all frames are heard. -/
theorem returns_heard (calls : List (HighBandCall band numHighBands)) :
    Returns (calls.foldlM perform (start band numHighBands)) fun run =>
      run.Sound ∧
        run.heard.map HeardFrame.frame =
          calls.filterMap HighBandCall.frame? := by
  induction calls using List.reverseRecOn with
  | nil =>
      exact .pure ⟨.start, rfl⟩
  | append_singleton calls call inductionHypothesis =>
      rw [List.foldlM_append]
      refine .bind inductionHypothesis fun run ⟨sound, frames⟩ => ?_
      cases call with
      | setPolicy mode =>
          refine .pure ⟨{ sound with }, ?_⟩
          rw [List.filterMap_append, ← frames]
          exact (List.append_nil _).symm
      | processCore frame =>
          obtain ⟨low, taken⟩ :=
            SuppressionCore.processCore_returns run.inst.low frame.low
          have next :
              run.perform (.processCore frame) =
                some
                  ⟨⟨low, run.inst.updateBuffers frame⟩,
                    run.heard ++
                      [⟨frame, run.inst.low.policy.denoiseBound,
                        run.inst.outFrameHB frame⟩]⟩ := by
            rw [perform, HighBandCore.processCore, taken]
            rfl
          rw [List.foldlM_cons, next]
          refine .pure ⟨sound.processCore frame low, ?_⟩
          rw [List.filterMap_append, List.map_append, frames]
          rfl

/-- In every run of frames, zero or not, and policies, each upper band is heard with the
delay of the low band and one gain for each frame. -/
theorem returns_kept
    (band : Band)
    (numHighBands : Nat)
    (calls : List (HighBandCall band numHighBands)) :
    Returns (calls.foldlM perform (start band numHighBands)) (Kept calls) :=
  (returns_heard calls).imp fun _ ⟨sound, frames⟩ =>
    ⟨frames, sound.delayed⟩

end HighBandRun

end ApmSdk.Nsx
