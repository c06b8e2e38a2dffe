import ApmSdk.CIntegers

namespace ApmSdk.Agc

/-!
# Voice activity detection of the legacy gain control

The detector of `digital_agc.c` with the routines of the signal processing library
that it calls: the decimator, the energy sum and the square root.
-/

/-- `WEBRTC_SPL_SCALEDIFF32`: `c` plus the 32 most significant bits of `a * b`. -/
def scaleDiff32 (a b c : Int) : Int :=
  int32 (c + (b >>> (16 : Nat)) * a + uint32 ((b % 2 ^ 16) * a) >>> (16 : Nat))

/-- One `int32_t filterState[8]` of the decimator. -/
structure FilterState where
  state0 : Int
  state1 : Int
  state2 : Int
  state3 : Int
  state4 : Int
  state5 : Int
  state6 : Int
  state7 : Int
  deriving Repr, DecidableEq

/-- A filter state set to zero. -/
def FilterState.zero : FilterState :=
  ⟨0, 0, 0, 0, 0, 0, 0, 0⟩

/-- One pass of the loop of `WebRtcSpl_DownsampleBy2`, over two input samples. -/
def FilterState.decimate
    (filtState : FilterState)
    (first second : Int) : Int × FilterState :=
  -- lower allpass filter, `kResampleAllpass2`
  let lower := first * 2 ^ 10
  let tmp1 := scaleDiff32 12199 (lower - filtState.state1) filtState.state0
  let tmp2 := scaleDiff32 37471 (tmp1 - filtState.state2) filtState.state1
  let state3 := scaleDiff32 60255 (tmp2 - filtState.state3) filtState.state2
  -- upper allpass filter, `kResampleAllpass1`
  let upper := second * 2 ^ 10
  let tmp3 := scaleDiff32 3284 (upper - filtState.state5) filtState.state4
  let tmp4 := scaleDiff32 24441 (tmp3 - filtState.state6) filtState.state5
  let state7 := scaleDiff32 49528 (tmp4 - filtState.state7) filtState.state6
  (satW32ToW16 ((state3 + state7 + 1024) >>> (11 : Nat)),
    { state0 := lower
      state1 := tmp1
      state2 := tmp2
      state3
      state4 := upper
      state5 := tmp3
      state6 := tmp4
      state7 })

/-- `WebRtcSpl_DownsampleBy2` -/
def downsampleBy2 :
    List Int → FilterState → List Int × FilterState
  | first :: second :: rest, filtState =>
      let (sample, next) := filtState.decimate first second
      let (samples, last) := downsampleBy2 rest next
      (sample :: samples, last)
  | _, filtState => ([], filtState)

/-- `WebRtcSpl_DotProductWithScale` of a vector with itself. -/
def energyWithScale (vector : List Int) (scaling : Nat) : Int :=
  vector.foldl
    (fun (sum : Int) (sample : Int) => sum + (sample * sample) >>> scaling)
    0

/-- `WebRtcSpl_SqrtLocal` -/
def sqrtLocal (value : Int) : Int :=
  let b := Int.tdiv value 2 - 0x40000000
  let xHalf := int16 (b >>> (16 : Nat))
  let b := b + 0x40000000 + 0x40000000
  let x2 := xHalf * xHalf * 2
  let a := -x2
  let b := b + a >>> (1 : Nat)
  let a := (a >>> (16 : Nat)) * (a >>> (16 : Nat)) * 2
  let t16 := int16 (a >>> (16 : Nat))
  let b := b + -20480 * t16 * 2
  let a := xHalf * t16 * 2
  let t16 := int16 (a >>> (16 : Nat))
  let b := b + 28672 * t16 * 2
  let t16 := int16 (x2 >>> (16 : Nat))
  let a := xHalf * t16 * 2
  b + a >>> (1 : Nat) + 32768

/-- `WebRtcSpl_Sqrt` -/
def sqrt (value : Int) : Int :=
  if value = 0 then 0
  else
    let a :=
      if value < 0 then
        if value = -(2 ^ 31) then 2 ^ 31 - 1 else -value
      else value
    let sh := normW32 a
    let a := a * 2 ^ sh
    let a := if a < 2 ^ 31 - 1 - 32767 then a + 32768 else 2 ^ 31 - 1
    let xNorm := int16 (a >>> (16 : Nat))
    let nshift := sh / 2
    let a := sqrtLocal (xNorm * 2 ^ 16).natAbs
    let a :=
      if 2 * nshift = sh then
        let a := 23170 * int16 (a >>> (16 : Nat)) * 2 + 32768
        -- `A & 0x7fff0000`, then `A >>= 15`
        (a % 2 ^ 31 / 2 ^ 16 * 2 ^ 16) >>> (15 : Nat)
      else a >>> (16 : Nat)
    (a % 2 ^ 16) >>> nshift

/-- `AgcVad` -/
structure AgcVad where
  downState : FilterState
  hpState : Int
  counter : Int
  logRatio : Int
  meanLongTerm : Int
  varianceLongTerm : Int
  stdLongTerm : Int
  meanShortTerm : Int
  varianceShortTerm : Int
  stdShortTerm : Int
  deriving Repr, DecidableEq

namespace AgcVad

/-- `kAvgDecayTime` -/
abbrev avgDecayTime : Int := 250

/-- `WebRtcAgc_InitVad` -/
def init : AgcVad where
  downState := .zero
  hpState := 0
  counter := 3
  logRatio := 0
  meanLongTerm := 15 * 2 ^ 10
  varianceLongTerm := 500 * 2 ^ 8
  stdLongTerm := 0
  meanShortTerm := 15 * 2 ^ 10
  varianceShortTerm := 500 * 2 ^ 8
  stdShortTerm := 0

/-- The high pass filter and the energy of four samples at 4 kHz. -/
def highPass
    (samples : List Int)
    (hpState nrg : Int) : Int × Int :=
  samples.foldl
    (fun (hpState, nrg) sample =>
      let out : Int := sample + hpState
      (int16 ((600 * out) >>> (10 : Nat) - sample),
        int32 (nrg + int32 (out * out) >>> (6 : Nat))))
    (hpState, nrg)

/-- The samples of one subframe at 8 kHz: averages of pairs where the input is at 16 kHz. -/
def subframe
    (input : List Int)
    (nrSamples subfr : Nat) : List Int :=
  if nrSamples = 160 then
    (List.range 8).map fun k =>
      (input.getD (16 * subfr + 2 * k) 0 +
        input.getD (16 * subfr + 2 * k + 1) 0) >>> (1 : Nat)
  else
    (input.drop (8 * subfr)).take 8

/-- The ten subframes: the decimator, the high pass filter and the energy. -/
def subframes
    (downState : FilterState)
    (hpState : Int)
    (input : List Int)
    (nrSamples : Nat) : FilterState × Int × Int :=
  (List.range 10).foldl
    (fun (downState, hpState, nrg) subfr =>
      let (samples, downState) :=
        downsampleBy2 (subframe input nrSamples subfr) downState
      (downState, highPass samples hpState nrg))
    (downState, hpState, 0)

/-- The bounds on the voice activity measure. -/
def limitLogRatio (logRatio : Int) : Int :=
  if 2048 < logRatio then 2048
  else if logRatio < -2048 then -2048
  else logRatio

/-- `WebRtcAgc_ProcessVad` -/
def process
    (vad : AgcVad)
    (input : List Int)
    (nrSamples : Nat) : AgcVad :=
  let (downState, hpState, nrg) :=
    subframes vad.downState vad.hpState input nrSamples
  let dB := (15 - (leadingZeros 32 (uint32 nrg) : Int)) * 2 ^ 11
  let counter :=
    if vad.counter < avgDecayTime then vad.counter + 1 else vad.counter
  let meanShortTerm := int16 ((vad.meanShortTerm * 15 + dB) >>> (4 : Nat))
  let varianceShortTerm :=
    Int.tdiv ((dB * dB) >>> (12 : Nat) + vad.varianceShortTerm * 15) 16
  let stdShortTerm :=
    int16 (sqrt (int32
      (varianceShortTerm * 2 ^ 12 - meanShortTerm * meanShortTerm)))
  let meanLongTerm :=
    divW32W16ResW16 (vad.meanLongTerm * counter + dB) (addSatW16 counter 1)
  let varianceLongTerm :=
    divW32W16 ((dB * dB) >>> (12 : Nat) + vad.varianceLongTerm * counter)
      (addSatW16 counter 1)
  let stdLongTerm :=
    int16 (sqrt (int32
      (varianceLongTerm * 2 ^ 12 - meanLongTerm * meanLongTerm)))
  let tmp32 := divW32W16 (3 * 2 ^ 12 * int16 (dB - meanLongTerm)) stdLongTerm
  let tmp32 := int32 (tmp32 + (vad.logRatio * (13 * 2 ^ 12)) >>> (10 : Nat))
  { downState
    hpState
    counter
    logRatio := limitLogRatio (int16 (tmp32 >>> (6 : Nat)))
    meanLongTerm
    varianceLongTerm
    stdLongTerm
    meanShortTerm
    varianceShortTerm
    stdShortTerm }

end AgcVad

end ApmSdk.Agc
