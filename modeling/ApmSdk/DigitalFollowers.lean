import ApmSdk.DigitalGains

namespace ApmSdk.Agc

/-!
# The envelope followers over whole runs

Both followers start within the range of an envelope and never leave it: a decay rounds
towards minus infinity and so takes at most the whole level away, and a rise stops at the
envelope.  The level that a gain is looked up for is one of the two, so it has between 1
and 31 leading zeros.  The decay factor is free here, within the bounds that
`WebRtcAgc_ProcessDigital` computes it in.
-/

namespace Capacitors

/-- The followers after each millisecond of a frame. -/
def visited (decay : Int) : Capacitors → List Int → List Capacitors
  | _, [] => []
  | capacitors, env :: rest =>
      let next := capacitors.follow decay env
      next :: visited decay next rest

/-- The levels of a frame are those of the followers after each millisecond. -/
theorem followAll_levels
    (decay : Int)
    (capacitors : Capacitors)
    (envelopes : List Int) :
    (followAll decay capacitors envelopes).2 =
      (visited decay capacitors envelopes).map curLevel := by
  induction envelopes generalizing capacitors with
  | nil =>
      rfl
  | cons env rest inductionHypothesis =>
      unfold followAll visited
      dsimp only
      rw [inductionHypothesis, List.map_cons]

/-- Every decay and every rise of a frame stays in range. -/
theorem InRange.visited
    {capacitors later : Capacitors}
    {decay : Int}
    {envelopes : List Int}
    (inRange : capacitors.InRange)
    (lower : -65 ≤ decay)
    (upper : decay ≤ 0)
    (areEnvelopes : ∀ env ∈ envelopes, IsEnvelope env)
    (member : later ∈ visited decay capacitors envelopes) :
    later.InRange := by
  induction envelopes generalizing capacitors with
  | nil =>
      exact nomatch member
  | cons env rest inductionHypothesis =>
      rw [List.forall_mem_cons] at areEnvelopes
      have next := inRange.follow lower upper areEnvelopes.1
      rcases List.mem_cons.mp member with rfl | inRest
      · exact next
      · exact inductionHypothesis next areEnvelopes.2 inRest

/-- `capacitorFast` and `capacitorSlow` of `WebRtcAgc_InitDigital`. -/
def started (agcMode : Int) : Capacitors where
  fast := 0
  slow := if agcMode = modeFixedDigital then 0 else 134217728

theorem inRange_init (agcMode : Int) : (started agcMode).InRange := by
  have zero : IsEnvelope 0 := ⟨by decide, by decide⟩
  refine ⟨zero, ?_⟩
  unfold started
  dsimp only
  split
  · exact zero
  · exact ⟨by decide, by decide⟩

/-- Where followers stand, and which entries of a table of `size` gains their level is
looked up in. -/
structure LookupsInside (size : Nat) (capacitors : Capacitors) : Prop where
  fast : 0 ≤ capacitors.fast ∧ capacitors.fast ≤ 2 ^ 30
  slow : 0 ≤ capacitors.slow ∧ capacitors.slow ≤ 2 ^ 30
  zeros :
    1 ≤ levelZeros capacitors.curLevel ∧ levelZeros capacitors.curLevel ≤ 31
  zerosFast : 1 ≤ levelZeros capacitors.fast ∧ levelZeros capacitors.fast ≤ 31
  entry : levelZeros capacitors.curLevel < size
  entryBefore :
    0 ≤ (levelZeros capacitors.curLevel : Int) - 1 ∧
      (levelZeros capacitors.curLevel : Int) - 1 < size

theorem InRange.lookupsInside
    {capacitors : Capacitors}
    (inRange : capacitors.InRange) :
    LookupsInside 32 capacitors := by
  have zeros := levelZeros_bounds inRange.curLevel
  exact
    { fast := inRange.1
      slow := inRange.2
      zeros
      zerosFast := levelZeros_bounds inRange.1
      entry := by omega
      entryBefore := by omega }

end Capacitors

/-! ## Runs of the followers -/

/-- A low band of samples of 16 bits, with a decay factor for it. -/
structure DecayFrame where
  low : LowBand
  decay : Int
  lower : -65 ≤ decay
  upper : decay ≤ 0
  sampled : ∀ sample ∈ low.samples, Fits16 sample

namespace DecayFrame

theorem areEnvelopes (frame : DecayFrame) :
    ∀ env ∈ DigitalAgc.envelope frame.low, IsEnvelope env :=
  fun _ member => isEnvelope_envelope frame.sampled member

/-- The followers after a frame. -/
def follow (capacitors : Capacitors) (frame : DecayFrame) : Option Capacitors :=
  some
    (capacitors.followAll frame.decay (DigitalAgc.envelope frame.low)).1

/-- The lookups of every millisecond of a frame. -/
def LookupsInside (capacitors : Capacitors) (frame : DecayFrame) : Prop :=
  ∀ later ∈
      capacitors.visited frame.decay (DigitalAgc.envelope frame.low),
    later.LookupsInside 32

end DecayFrame

namespace DigitalAgc

/-- The followers before a frame. -/
def capacitors (stt : DigitalAgc) : Capacitors :=
  ⟨stt.capacitorFast, stt.capacitorSlow⟩

/-- The followers of `WebRtcAgc_ProcessDigital` over a frame: its decay factor, the levels
that it looks up, and the lookups in its table. -/
structure FollowersInside (stt : DigitalAgc) (low : LowBand) : Prop where
  decay : -65 ≤ stt.decay low ∧ stt.decay low ≤ 0
  levels :
    (stt.followed low).2 =
      (stt.capacitors.visited (stt.decay low) (envelope low)).map
        Capacitors.curLevel
  lookups :
    ∀ later ∈ stt.capacitors.visited (stt.decay low) (envelope low),
      later.LookupsInside stt.gainTable.length

/-- The followers of a call. -/
def CallFollowersInside (stt : DigitalAgc) : DigitalCall → Prop
  | .process frame => stt.FollowersInside frame.low
  | _ => True

theorem InRange.followersInside
    {stt : DigitalAgc}
    (inRange : stt.InRange)
    (frame : DigitalFrame) :
    stt.FollowersInside frame.low := by
  have decay :=
    decayFactor_bounds stt.agcMode (stt.nearend frame.low).stdLongTerm
      (logratio (stt.nearend frame.low) stt.vadFarend)
      frame.low.lowlevelSignal
  refine ⟨decay, Capacitors.followAll_levels _ _ _, ?_⟩
  intro later member
  rw [inRange.gainTable.length]
  have laterInRange :=
    inRange.capacitors.visited decay.1 decay.2
      (fun env isEnv => isEnvelope_envelope frame.low_sampled isEnv) member
  exact laterInRange.lookupsInside

/--
In every run of frames with decay factors from -65 to 0 from the followers of
`WebRtcAgc_InitDigital`, both followers stay from 0 to 2^30 after every millisecond, their
level has between 1 and 31 leading zeros, and both entries it is looked up in are inside
of the table.  The same holds of the frames of `WebRtcAgc_ProcessDigital` after an
initialisation, whatever calls are made in between.
-/
theorem run_followersInside :
    (∀ (agcMode : Int) (frames : List DecayFrame),
        AlongRun DecayFrame.follow DecayFrame.LookupsInside
          (Capacitors.started agcMode) frames) ∧
      ∀ (stt : DigitalAgc) (agcMode : Int) (calls : List DigitalCall),
        AlongRun perform CallFollowersInside stt (.init agcMode :: calls) := by
  constructor
  · intro agcMode frames
    refine
      AlongRun.of_invariant Capacitors.InRange ?_ ?_
        (Capacitors.inRange_init agcMode) frames
    · intro capacitors frame target inRange followed
      obtain rfl := Option.some.inj followed
      exact
        (inRange.followAll frame.lower frame.upper frame.areEnvelopes).1
    · intro capacitors frame inRange later member
      have laterInRange :=
        inRange.visited frame.lower frame.upper frame.areEnvelopes member
      exact laterInRange.lookupsInside
  · intro stt agcMode calls
    refine ⟨trivial, fun target performed => ?_⟩
    have inRange : target.InRange := by
      obtain ⟨gainTable, calculated, rfl⟩ :=
        Option.map_eq_some_iff.mp performed
      exact
        ⟨Capacitors.inRange_init agcMode,
          isGainTable_of_calculated calculated⟩
    refine
      AlongRun.of_invariant DigitalAgc.InRange InRange.perform ?_ inRange
        calls
    intro stt call inRange
    cases call with
    | process frame =>
        exact inRange.followersInside frame
    | init agcMode =>
        exact trivial
    | setConfig agcConfig =>
        exact trivial
    | addFarend frame =>
        exact trivial

end DigitalAgc

end ApmSdk.Agc
