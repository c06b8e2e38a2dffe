import ApmSdk.GainTable
import ApmSdk.VadExactness

namespace ApmSdk.Agc

/-!
# The digital gain control

`WebRtcAgc_ProcessDigital` in its stages: the level of each millisecond from two envelope
followers, its gain by interpolation in the table, the gate, the limiter, and the gain
that is applied to every band.
-/

/-- `AGC_SCALEDIFF32`: `c` plus the 32 most significant bits of `a * b`. -/
def agcScaleDiff32 (a b c : Int) : Int :=
  int32 (c + (b >>> (16 : Nat)) * a + ((b % 2 ^ 16) * a) >>> (16 : Nat))

/-- `AGC_MUL32`: the 32 most significant bits of `a * b >> 13`. -/
def agcMul32 (a b : Int) : Int :=
  int32 (int32 ((b >>> (13 : Nat)) * a) +
    int32 ((b % 2 ^ 13) * a) >>> (13 : Nat))

/-- `DigitalAgc` -/
structure DigitalAgc where
  capacitorSlow : Int
  capacitorFast : Int
  gain : Int
  gainTable : List Int
  gatePrevious : Int
  agcMode : Int
  vadNearend : AgcVad
  vadFarend : AgcVad
  deriving Repr, DecidableEq

/-- `WebRtcAgc_InitDigital`; the table is left as it is. -/
def DigitalAgc.initDigital (stt : DigitalAgc) (agcMode : Int) : DigitalAgc :=
  { stt with
    -- the fixed mode starts at minimum, the others with 0 dB
    capacitorSlow := if agcMode = modeFixedDigital then 0 else 134217728
    capacitorFast := 0
    gain := 65536
    gatePrevious := 0
    agcMode
    vadNearend := .init
    vadFarend := .init }

/-! ## Levels -/

/-- The decision of the near end, with the one of the far end after its start. -/
def logratio (vadNearend vadFarend : AgcVad) : Int :=
  if 10 < vadFarend.counter then
    int16 ((3 * vadNearend.logRatio - vadFarend.logRatio) >>> (2 : Nat))
  else vadNearend.logRatio

/-- The decay factor of the slow envelope; the adaptive modes slow it down in silence. -/
def decayFactor
    (agcMode stdLongTerm logratio lowlevelSignal : Int) : Int :=
  let decay :=
    if 1024 < logratio then -65
    else if logratio < 0 then 0
    else int16 (((0 - logratio) * 65) >>> (10 : Nat))
  if agcMode = modeFixedDigital then decay
  else if lowlevelSignal ≠ 0 then 0
  else if stdLongTerm < 4000 then 0
  else if stdLongTerm < 8096 then
    int16 (((stdLongTerm - 4000) * decay) >>> (12 : Nat))
  else decay

/-- The two envelope followers. -/
structure Capacitors where
  fast : Int
  slow : Int
  deriving Repr, DecidableEq

namespace Capacitors

/-- The followers after a millisecond. -/
def follow (capacitors : Capacitors) (decay env : Int) : Capacitors :=
  let fast := agcScaleDiff32 (-1000) capacitors.fast capacitors.fast
  { fast := if fast < env then env else fast
    slow :=
      if capacitors.slow < env then
        agcScaleDiff32 500 (int32 (env - capacitors.slow)) capacitors.slow
      else agcScaleDiff32 decay capacitors.slow capacitors.slow }

/-- `cur_level` -/
def curLevel (capacitors : Capacitors) : Int :=
  if capacitors.slow < capacitors.fast then capacitors.fast
  else capacitors.slow

/-- The followers over a frame, and the level of each millisecond. -/
def followAll (decay : Int) : Capacitors → List Int → Capacitors × List Int
  | capacitors, [] => (capacitors, [])
  | capacitors, env :: rest =>
      let next := capacitors.follow decay env
      let (last, levels) := followAll decay next rest
      (last, next.curLevel :: levels)

end Capacitors

/-- The leading zeros of a level. -/
def levelZeros (level : Int) : Nat :=
  if level = 0 then 31 else normU32 (uint32 level)

/-- `frac`: the 12 bits after the leading one. -/
def levelFrac (level : Int) : Int :=
  (level * 2 ^ levelZeros level % 2 ^ 31) >>> (19 : Nat)

/-! ## Gains -/

/-- The gain at a level, by interpolation between two entries of the table. -/
def interpolatedGain (gainTable : List Int) (level : Int) : Int :=
  let zeros := levelZeros level
  let tmp32 :=
    int32
      (int32 (gainTable.getD (zeros - 1) 0 - gainTable.getD zeros 0) *
        levelFrac level)
  int32 (gainTable.getD zeros 0 + tmp32 >>> (12 : Nat))

/-- Leading zeros and fraction of a level in Q9. -/
def logLevel (level : Int) : Int :=
  int16 ((levelZeros level : Int) * 2 ^ 9 - levelFrac level >>> (3 : Nat))

/-- `gate`: positive while the level falls and the signal is steady; with the value that
is kept for the next frame. -/
def gateOf
    (gatePrevious stdShortTerm fast level : Int) : Int × Int :=
  let gate := int16 (1000 + logLevel fast - logLevel level - stdShortTerm)
  if gate < 0 then (gate, 0)
  else
    let gate := int16 ((gate + gatePrevious * 7) >>> (3 : Nat))
    (gate, gate)

/-- `178 + gain_adj`, in Q8. -/
def gateFactor (gate : Int) : Int :=
  178 + if gate < 2500 then (2500 - gate) >>> (5 : Nat) else 0

/-- A gain after the gate, which draws it towards the first entry of the table. -/
def gatedGain (lowest gate gain : Int) : Int :=
  if 0 < gate then
    let tmp32 :=
      if 8388608 < int32 (gain - lowest) then
        int32 (int32 (gain - lowest) >>> (8 : Nat) * gateFactor gate)
      else int32 (int32 (gain - lowest) * gateFactor gate) >>> (8 : Nat)
    int32 (lowest + tmp32)
  else gain

/-! ## The limiter -/

/-- `zeros` of the limiter: the shift that brings a gain to 16 bits. -/
def limitZeros (gain : Int) : Nat :=
  if 47453132 < gain then 16 - normW32 gain else 10

/-- The bound on the loudness at a shift. -/
def overloadBound (zeros : Nat) : Int :=
  shiftW32 32767 (2 * (1 - zeros + 10))

/-- The loudness of a millisecond: its envelope times the squared gain. -/
def loudness (env : Int) (zeros : Nat) (gain : Int) : Int :=
  let gain32 := int32 (gain >>> zeros + 1)
  agcMul32 (env >>> (12 : Nat) + 1) (int32 (gain32 * gain32))

/-- The gain times 253/256, which is -0.1 dB. -/
def reducedGain (gain : Int) : Int :=
  if 8388607 < gain then int32 (Int.tdiv gain 256 * 253)
  else Int.tdiv (int32 (gain * 253)) 256

/-- The `while` loop of the limiter. -/
def limitLoop (env : Int) (zeros : Nat) : Nat → Int → Option Int
  | 0, _ => none
  | fuel + 1, gain =>
      if overloadBound zeros < loudness env zeros gain then
        limitLoop env zeros fuel (reducedGain gain)
      else some gain

/-- A gain after the limiter.  A reduction makes a gain other than zero smaller, and zero
stays zero: where the loop has not ended when the magnitude of the gain is used up, it
never ends. -/
def limitedGain (env gain : Int) : Option Int :=
  limitLoop env (limitZeros gain) (gain.natAbs + 1) gain

/-- Reductions are done one millisecond earlier than increases. -/
def advanceReductions : List Int → List Int
  | gain :: next :: rest =>
      (if next < gain then next else gain) :: advanceReductions (next :: rest)
  | gains => gains

/-! ## The gain applied -/

/-- `gain32` at each sample of a millisecond, in Q20. -/
def gainRamp (start delta : Int) : Nat → Int
  | 0 => start
  | n + 1 => int32 (gainRamp start delta n + delta)

/-- `gain32` at a sample, between the gains of two milliseconds. -/
def gainAt (shift : Nat) (gain next : Int) (n : Nat) : Int :=
  gainRamp (int32 (gain * 2 ^ 4)) (int32 (int32 (next - gain) * 2 ^ shift)) n

/-- An output sample. -/
def gainedSample (sample gain32 : Int) : Int :=
  int16 (int32 (sample * gain32 >>> (4 : Nat)) >>> (16 : Nat))

/-- An output sample of the first millisecond, which saturates. -/
def gainedFirstSample (sample gain32 : Int) : Int :=
  let outTmp :=
    int32 (sample * int32 (gain32 + 127) >>> (7 : Nat)) >>> (16 : Nat)
  if 4095 < outTmp then 32767
  else if outTmp < -4096 then -32768
  else gainedSample sample gain32

/-- A band after the gain, for `samplesPerMs` samples a millisecond. -/
def applyGain
    (samplesPerMs : Nat)
    (gains band : List Int) : List Int :=
  (List.range 10).flatMap fun k =>
    (List.range samplesPerMs).map fun n =>
      let gain32 :=
        gainAt (if samplesPerMs = 8 then 1 else 0) (gains.getD k 0)
          (gains.getD (k + 1) 0) n
      let sample := band.getD (k * samplesPerMs + n) 0
      if k = 0 then gainedFirstSample sample gain32
      else gainedSample sample gain32

/-! ## A frame -/

/-- `L`: the samples of a millisecond; `none` for an unknown rate. -/
def samplesPerMs (fs : Int) : Option Nat :=
  if fs = 8000 then some 8
  else if fs = 16000 ∨ fs = 32000 ∨ fs = 48000 then some 16
  else none

/-- The low band of a frame with its rate; the bands above it do not enter the gains. -/
structure LowBand where
  samples : List Int
  samplesPerMs : Nat
  lowlevelSignal : Int
  deriving Repr, DecidableEq

namespace DigitalAgc

variable (stt : DigitalAgc) (low : LowBand)

/-- The detector of the near end after a frame. -/
def nearend : AgcVad :=
  stt.vadNearend.process low.samples (low.samplesPerMs * 10)

/-- `decay` of a frame. -/
def decay : Int :=
  decayFactor stt.agcMode (stt.nearend low).stdLongTerm
    (logratio (stt.nearend low) stt.vadFarend) low.lowlevelSignal

/-- `env`: the largest energy of a sample in each millisecond. -/
def envelope (low : LowBand) : List Int :=
  LegacyAgc.envelope low.samples low.samplesPerMs

/-- The envelope followers after a frame, and its levels. -/
def followed : Capacitors × List Int :=
  Capacitors.followAll (stt.decay low)
    ⟨stt.capacitorFast, stt.capacitorSlow⟩ (envelope low)

/-- `gate` of a frame, and what is kept of it. -/
def gate : Int × Int :=
  gateOf stt.gatePrevious (stt.nearend low).stdShortTerm
    (stt.followed low).1.fast ((stt.followed low).2.getLastD 0)

/-- `gains[1]` to `gains[10]` before the limiter. -/
def unlimitedGains : List Int :=
  (stt.followed low).2.map fun level =>
    gatedGain (stt.gainTable.getD 0 0) (stt.gate low).1
      (interpolatedGain stt.gainTable level)

/-- `gains[1]` to `gains[10]` after the limiter; `none` if its loop never ends. -/
def limitedGains : Option (List Int) :=
  ((envelope low).zip (stt.unlimitedGains low)).mapM fun (env, gain) =>
    limitedGain env gain

/-- `gains`, as they are applied. -/
def appliedGains (limited : List Int) : List Int :=
  stt.gain :: advanceReductions limited

/-- `WebRtcAgc_ProcessDigital`: the state, the bands and the code; `none` if the limiter
never ends. -/
def processDigital
    (inNear : List (List Int))
    (fs lowlevelSignal : Int) : Option (DigitalAgc × List (List Int) × Int) :=
  match samplesPerMs fs with
  | none => some (stt, inNear, -1)
  | some samplesPerMs =>
      let low := ⟨inNear.headD [], samplesPerMs, lowlevelSignal⟩
      (stt.limitedGains low).map fun limited =>
        let gains := stt.appliedGains limited
        ({ stt with
            capacitorSlow := (stt.followed low).1.slow
            capacitorFast := (stt.followed low).1.fast
            gain := gains.getD 10 0
            gatePrevious := (stt.gate low).2
            vadNearend := stt.nearend low },
          inNear.map (applyGain samplesPerMs gains), 0)

end DigitalAgc

/-! ## Runs -/

/-- A frame of one or more bands of 10 ms, with samples of 16 bits. -/
structure DigitalFrame where
  bands : List (List Int)
  fs : Int
  lowlevelSignal : Int
  perMs : Nat
  rate : samplesPerMs fs = some perMs
  nonempty : bands ≠ []
  size : ∀ band ∈ bands, band.length = 10 * perMs
  sampled : ∀ band ∈ bands, ∀ sample ∈ band, Fits16 sample

/-- The low band of a frame. -/
def DigitalFrame.low (frame : DigitalFrame) : LowBand where
  samples := frame.bands.headD []
  samplesPerMs := frame.perMs
  lowlevelSignal := frame.lowlevelSignal

/-- A call that reaches the digital gain control. -/
inductive DigitalCall where
  | init (agcMode : Int)
  | setConfig (agcConfig : AgcConfig)
  | addFarend (frame : VadFrame)
  | process (frame : DigitalFrame)

/-- The code of `WebRtcAgc_set_config` in a mode. -/
def configCode (agcMode : Int) (agcConfig : AgcConfig) : Int :=
  ({ LegacyAgc.blank with agcMode, initFlag := initCheck }.setConfig
    agcConfig).2

/-- A call on the digital gain control; `none` where it has no behaviour: the limiter
never ends, or the gain table reads past its generator table. -/
def DigitalAgc.perform
    (stt : DigitalAgc) : DigitalCall → Option DigitalAgc
  | .init agcMode =>
      (gainTableOf agcMode defaultConfig).map fun gainTable =>
        { stt.initDigital agcMode with gainTable }
  | .setConfig agcConfig =>
      if configCode stt.agcMode agcConfig = -1 then some stt
      else
        (gainTableOf stt.agcMode agcConfig).map fun gainTable =>
          { stt with gainTable }
  | .addFarend frame =>
      some
        { stt with
          vadFarend :=
            stt.vadFarend.process frame.samples frame.samples.length }
  | .process frame =>
      (stt.processDigital frame.bands frame.fs frame.lowlevelSignal).map
        (·.1)

/-- The digital gain control after `WebRtcAgc_Init`. -/
def DigitalAgc.started (agcMode : Int) (gainTable : List Int) : DigitalAgc where
  capacitorSlow := if agcMode = modeFixedDigital then 0 else 134217728
  capacitorFast := 0
  gain := 65536
  gainTable
  gatePrevious := 0
  agcMode
  vadNearend := .init
  vadFarend := .init

end ApmSdk.Agc
