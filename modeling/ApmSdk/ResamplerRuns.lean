import ApmSdk.LabelledPath
import ApmSdk.Resampler
import Mathlib.Algebra.Order.Ring.Int
import Mathlib.Tactic.Ring

namespace ApmSdk.Resampler

/-!
# Configurations of a resampler

A resampler is set to a mode when it has the filters of the mode, and for two channels two
slaves that have.  A call that only compares what a resampler was last asked for, in whole
kHz, is right where that request was for a supported ratio and for the same.
-/

/-- A channel works in a mode, with the filters for it. -/
structure Channel.IsSet
    (channel : Channel)
    (mode : ResamplerMode)
    (numChannels : Nat) : Prop where
  isMode : channel.myMode = mode
  numChannels : channel.numChannels = numChannels
  kinds : channel.states.kinds = mode.states.kinds

/-- A resampler works in a mode for one or two channels. -/
structure IsSet
    (resampler : Resampler)
    (mode : ResamplerMode)
    (numChannels : Nat) : Prop where
  whole : resampler.toChannel.IsSet mode numChannels
  number : numChannels = 1 ∨ numChannels = 2
  left :
    numChannels = 2 →
      ∃ slave, resampler.slaveLeft = some slave ∧ slave.IsSet mode 1
  right :
    numChannels = 2 →
      ∃ slave, resampler.slaveRight = some slave ∧ slave.IsSet mode 1

/-- A ratio is that of a mode. -/
def HasRatio (inFreq outFreq : Int) (mode : ResamplerMode) : Prop :=
  inFreq * mode.ratio.2 = outFreq * mode.ratio.1

/-- A resampler is configured for exactly a ratio and a number of channels. -/
def Configured
    (resampler : Resampler)
    (inFreq outFreq : Int)
    (numChannels : Nat) : Prop :=
  ∃ mode, HasRatio inFreq outFreq mode ∧ resampler.IsSet mode numChannels

/-! ## Ratios -/

theorem euclid_pos
    {turns : Nat}
    {a b : Int}
    (nonnegative : 0 ≤ a)
    (positive : 0 < b) :
    0 < euclid turns a b := by
  induction turns generalizing a b with
  | zero =>
      exact positive
  | succ turns inductionHypothesis =>
      have remainder : 0 ≤ a.tmod b := Int.tmod_nonneg b nonnegative
      unfold euclid
      dsimp only
      split
      next =>
          exact positive
      next isNonzero =>
          exact inductionHypothesis positive.le (by omega)

theorem gcd_ratio (mode : ResamplerMode) :
    Int.gcd mode.ratio.1 mode.ratio.2 = 1 := by
  cases mode <;> rfl

theorem ratio_pos (mode : ResamplerMode) :
    0 < (mode.ratio.1 : Int) ∧ 0 < (mode.ratio.2 : Int) := by
  cases mode <;> decide

/-- Frequencies in the ratio of a mode are that ratio but for a common factor. -/
theorem exists_scale
    {inFreq outFreq : Int}
    {mode : ResamplerMode}
    (hasRatio : HasRatio inFreq outFreq mode) :
    ∃ factor,
      inFreq = mode.ratio.1 * factor ∧ outFreq = mode.ratio.2 * factor := by
  unfold HasRatio at hasRatio
  obtain ⟨factor, isIn⟩ : (mode.ratio.1 : Int) ∣ inFreq :=
    Int.dvd_of_dvd_mul_left_of_gcd_one
      (hasRatio ▸ Int.dvd_mul_left ..) (gcd_ratio mode)
  refine ⟨factor, isIn, ?_⟩
  apply Int.eq_of_mul_eq_mul_right (ratio_pos mode).1.ne'
  rw [← hasRatio, isIn]
  ring

/-- Positive frequencies in the ratio of a mode are reduced to it. -/
theorem reduced_of_hasRatio
    {inFreq outFreq : Int}
    {mode : ResamplerMode}
    (inPositive : 0 < inFreq)
    (outPositive : 0 < outFreq)
    (hasRatio : HasRatio inFreq outFreq mode) :
    reduced inFreq outFreq = (↑mode.ratio.1, ↑mode.ratio.2) := by
  obtain ⟨factor, isIn, isOut⟩ := exists_scale hasRatio
  have positive : 0 < factor :=
    pos_of_mul_pos_right (isIn ▸ inPositive) (ratio_pos mode).1.le
  have isGcd :
      (euclid outFreq.natAbs inFreq outFreq).natAbs = factor.natAbs := by
    rw [natAbs_euclid le_rfl outPositive.ne', isIn, isOut,
      Int.gcd_mul_right, gcd_ratio, Nat.one_mul]
  have isFactor : euclid outFreq.natAbs inFreq outFreq = factor := by
    have := @euclid_pos outFreq.natAbs _ _ inPositive.le outPositive
    omega
  unfold reduced
  dsimp only
  rw [isFactor, isIn, isOut, Int.mul_tdiv_cancel _ positive.ne',
    Int.mul_tdiv_cancel _ positive.ne']

theorem modeOf_of_hasRatio
    {inFreq outFreq : Int}
    {mode : ResamplerMode}
    (inPositive : 0 < inFreq)
    (outPositive : 0 < outFreq)
    (hasRatio : HasRatio inFreq outFreq mode) :
    modeOf inFreq outFreq = some mode := by
  rw [modeOf, reduced_of_hasRatio inPositive outPositive hasRatio]
  exact mode.select_ratio

theorem eq_of_modeOf
    {inFreq outFreq : Int}
    {mode : ResamplerMode}
    (isMode : modeOf inFreq outFreq = some mode) :
    (reduced inFreq outFreq).1 = (reduced inFreq outFreq).2 ∧
        mode = .mode1To1 ∨
      (reduced inFreq outFreq).1 = mode.ratio.1 ∧
        (reduced inFreq outFreq).2 = mode.ratio.2 :=
  ResamplerMode.eq_of_select isMode

theorem hasRatio_of_modeOf
    {inFreq outFreq : Int}
    {mode : ResamplerMode}
    (nonzero : outFreq ≠ 0)
    (isMode : modeOf inFreq outFreq = some mode) :
    HasRatio inFreq outFreq mode := by
  obtain ⟨factor, -, -, isIn, isOut⟩ := @exists_factor inFreq _ nonzero
  have ratio := eq_of_modeOf isMode
  generalize (reduced inFreq outFreq).1 = scaledIn at *
  generalize (reduced inFreq outFreq).2 = scaledOut at *
  unfold HasRatio
  obtain ⟨same, rfl⟩ | ⟨first, second⟩ := ratio
  · rw [isIn, isOut, same]
    rfl
  · rw [isIn, isOut, first, second]
    ring

/-- The reduced frequencies, which the slaves are made with, have the same mode. -/
theorem modeOf_reduced
    {inFreq outFreq : Int}
    {mode : ResamplerMode}
    (nonzero : outFreq ≠ 0)
    (isMode : modeOf inFreq outFreq = some mode) :
    modeOf (reduced inFreq outFreq).1 (reduced inFreq outFreq).2 =
      some mode := by
  obtain ⟨same, rfl⟩ | ⟨first, second⟩ := eq_of_modeOf isMode
  · obtain ⟨factor, -, -, -, isOut⟩ := @exists_factor inFreq _ nonzero
    rw [same]
    generalize (reduced inFreq outFreq).2 = scaled at *
    have scaledNonzero : scaled ≠ 0 := by
      rintro rfl
      rw [Int.zero_mul] at isOut
      contradiction
    obtain ⟨turns, isTurns⟩ :=
      Nat.exists_eq_succ_of_ne_zero (Int.natAbs_ne_zero.mpr scaledNonzero)
    rw [modeOf, reduced, isTurns, euclid]
    simp [Int.tmod_self, Int.tdiv_self scaledNonzero, ResamplerMode.select]
  · rw [first, second]
    exact
      modeOf_of_hasRatio (ratio_pos mode).1 (ratio_pos mode).2
        (Int.mul_comm ..)

/-! ## Resets -/

/-- `Reset` of a channel succeeds where the ratio is supported. -/
theorem Channel.reset_of_some
    (channel : Channel)
    {inFreq outFreq : Int}
    {mode : ResamplerMode}
    (isMode : modeOf inFreq outFreq = some mode)
    (numChannels : Nat) :
    (channel.reset inFreq outFreq numChannels).1 = 0 ∧
      (channel.reset inFreq outFreq numChannels).2.IsSet mode
        numChannels := by
  unfold Channel.reset
  rw [isMode]
  exact ⟨rfl, rfl, rfl, rfl⟩

theorem Channel.reset_of_none
    (channel : Channel)
    {inFreq outFreq : Int}
    (isNone : modeOf inFreq outFreq = none)
    (numChannels : Nat) :
    (channel.reset inFreq outFreq numChannels).1 = -1 := by
  unfold Channel.reset
  rw [isNone]

/-- What was last asked for is kept, whether the ratio is supported or not. -/
theorem Channel.reset_keeps
    (channel : Channel)
    (inFreq outFreq : Int)
    (numChannels : Nat) :
    let next := (channel.reset inFreq outFreq numChannels).2
    next.myInFrequencyKhz = inFreq.tdiv 1000 ∧
      next.myOutFrequencyKhz = outFreq.tdiv 1000 ∧
        next.numChannels = numChannels := by
  unfold Channel.reset
  cases modeOf inFreq outFreq <;> exact ⟨rfl, rfl, rfl⟩

/-- `Reset` of one or two channels sets the mode of the ratio, if there is one. -/
theorem reset_spec
    (resampler : Resampler)
    {inFreq outFreq : Int}
    {numChannels : Nat}
    (number : numChannels = 1 ∨ numChannels = 2)
    (nonzero : outFreq ≠ 0) :
    ∃ next,
      resampler.reset inFreq outFreq numChannels =
          some
            ((resampler.toChannel.reset inFreq outFreq numChannels).1,
              next) ∧
        next.toChannel =
            (resampler.toChannel.reset inFreq outFreq numChannels).2 ∧
          ∀ mode, modeOf inFreq outFreq = some mode →
            next.IsSet mode numChannels := by
  unfold reset
  rw [if_neg (by omega), if_neg nonzero]
  refine ⟨_, rfl, rfl, ?_⟩
  intro mode isMode
  have slave :=
    Channel.reset_of_some .initial (modeOf_reduced nonzero isMode) 1
  refine ⟨(Channel.reset_of_some _ isMode _).2, number, ?_, ?_⟩
  all_goals
    intro two
    exact ⟨_, if_pos two, slave.2⟩

/-- A `Reset` that succeeds leaves the resampler set for what it was asked for. -/
theorem modeOf_of_reset
    {resampler next : Resampler}
    {inFreq outFreq : Int}
    {numChannels : Nat}
    (taken :
      resampler.reset inFreq outFreq numChannels = some (0, next)) :
    outFreq ≠ 0 ∧
      ∃ mode,
        modeOf inFreq outFreq = some mode ∧
          next.IsSet mode numChannels := by
  by_cases number : numChannels = 1 ∨ numChannels = 2
  · by_cases isZero : outFreq = 0
    · unfold reset at taken
      rw [if_neg (by omega), if_pos isZero] at taken
      contradiction
    · obtain ⟨other, isReset, -, isSet⟩ :=
        reset_spec resampler number isZero
      obtain ⟨succeeded, rfl⟩ :=
        Prod.mk.inj (Option.some.inj (taken.symm.trans isReset))
      refine ⟨isZero, ?_⟩
      cases isMode : modeOf inFreq outFreq with
      | some mode =>
          exact ⟨mode, rfl, isSet mode isMode⟩
      | none =>
          rw [Channel.reset_of_none _ isMode] at succeeded
          contradiction
  · unfold reset at taken
    rw [if_pos (by omega)] at taken
    have isResult := (Prod.mk.inj (Option.some.inj taken)).1
    contradiction

/-! ## Calls -/

/-- What is asked for: two positive frequencies and any number of channels. -/
structure Request where
  inFreq : Int
  outFreq : Int
  numChannels : Nat
  inPositive : 0 < inFreq
  outPositive : 0 < outFreq

/-- A call. -/
inductive Call where
  | reset (request : Request)
  | resetIfNeeded (request : Request)

/-- A resampler, and what was asked for by the last `Reset` past its check of the number of
channels, if there has been one. -/
structure Session where
  resampler : Resampler
  last : Option Request

/-- A request passes the first check of `Reset`. -/
def Request.Accepted (request : Request) : Prop :=
  request.numChannels = 1 ∨ request.numChannels = 2

instance (request : Request) : Decidable request.Accepted :=
  inferInstanceAs (Decidable (_ ∨ _))

/-- What a call returns, and the resampler behind it. -/
def Call.run (resampler : Resampler) : Call → Option (Int × Resampler)
  | reset request =>
      resampler.reset request.inFreq request.outFreq request.numChannels
  | resetIfNeeded request =>
      resampler.resetIfNeeded request.inFreq request.outFreq
        request.numChannels

/-- What `ResetIfNeeded` compares of a request: the frequencies in whole kHz and the number
of channels, all of them zero before the first `Reset`. -/
def compared : Option Request → Int × Int × Nat
  | some request =>
      (request.inFreq.tdiv 1000, request.outFreq.tdiv 1000,
        request.numChannels)
  | none => (0, 0, 0)

/-- A request is taken for the last one. -/
def Request.Matches (request : Request) (last : Option Request) : Prop :=
  compared (some request) = compared last

instance (request : Request) (last : Option Request) :
    Decidable (request.Matches last) :=
  inferInstanceAs (Decidable (_ = _))

/-- What was asked for last, after a call. -/
def Call.track (last : Option Request) : Call → Option Request
  | reset request => if request.Accepted then some request else last
  | resetIfNeeded request =>
      if request.Matches last then last
      else if request.Accepted then some request
      else last

/-- A session after a call. -/
def Session.next (session : Session) (call : Call) : Option Session := do
  let (_, resampler) ← call.run session.resampler
  return ⟨resampler, call.track session.last⟩

/-- No call has been made. -/
def Session.initial : Session :=
  ⟨Resampler.initial, none⟩

/-- A `ResetIfNeeded` that returns zero leaves the resampler configured for what it has been
asked for, and a `Reset` for that does not fail. -/
def Session.Kept (session : Session) : Call → Prop
  | .reset _ => True
  | .resetIfNeeded request =>
      ∀ next,
        session.resampler.resetIfNeeded request.inFreq request.outFreq
            request.numChannels =
          some (0, next) →
        next.Configured request.inFreq request.outFreq
            request.numChannels ∧
          ∀ earlier result failed,
            Resampler.reset earlier request.inFreq request.outFreq
                request.numChannels =
              some (result, failed) →
            result ≠ -1

/-- A `ResetIfNeeded` that matches the last request asks for the same ratio, and that ratio
is supported. -/
def Session.Clean (session : Session) : Call → Prop
  | .reset _ => True
  | .resetIfNeeded request =>
      request.Matches session.last →
        ∃ last,
          session.last = some last ∧
            request.inFreq * last.outFreq =
                request.outFreq * last.inFreq ∧
              (modeOf last.inFreq last.outFreq).isSome

/-- The fields are those of the last request, and where its ratio is supported the
resampler is set to it. -/
structure Session.Sound (session : Session) : Prop where
  fields :
    (session.resampler.myInFrequencyKhz,
        session.resampler.myOutFrequencyKhz,
        session.resampler.numChannels) =
      compared session.last
  isSet :
    ∀ last, session.last = some last →
      ∀ mode, modeOf last.inFreq last.outFreq = some mode →
        session.resampler.IsSet mode last.numChannels

/-! ## Runs -/

/-- `ResetIfNeeded` keeps a resampler that matches. -/
theorem resetIfNeeded_of_matches
    {session : Session}
    (sound : session.Sound)
    {request : Request}
    (isMatch : request.Matches session.last) :
    session.resampler.resetIfNeeded request.inFreq request.outFreq
        request.numChannels =
      some (0, session.resampler) := by
  have same := isMatch.trans sound.fields.symm
  simp only [compared, Prod.mk.injEq] at same
  unfold resetIfNeeded
  rw [if_neg]
  simp only [same, ne_eq, not_true_eq_false, or_self, not_false_eq_true]

/-- One that does not match is reset. -/
theorem resetIfNeeded_of_not_matches
    {session : Session}
    (sound : session.Sound)
    {request : Request}
    (differs : ¬ request.Matches session.last) :
    session.resampler.resetIfNeeded request.inFreq request.outFreq
        request.numChannels =
      session.resampler.reset request.inFreq request.outFreq
        request.numChannels := by
  unfold resetIfNeeded
  rw [if_pos]
  by_contra same
  simp only [ne_eq, not_or, not_not] at same
  apply differs
  unfold Request.Matches
  rw [← sound.fields, compared, same.1, same.2.1, same.2.2]

/-- A `Reset` keeps the session sound. -/
theorem Session.Sound.reset
    {session : Session}
    (sound : session.Sound)
    {request : Request}
    {result : Int}
    {next : Resampler}
    (taken :
      session.resampler.reset request.inFreq request.outFreq
          request.numChannels =
        some (result, next)) :
    Session.Sound
      ⟨next, if request.Accepted then some request else session.last⟩ := by
  by_cases accepted : request.Accepted
  · obtain ⟨other, isReset, isChannel, isSet⟩ :=
      reset_spec session.resampler accepted request.outPositive.ne'
    obtain ⟨-, rfl⟩ := Prod.mk.inj (Option.some.inj (taken.symm.trans isReset))
    rw [if_pos accepted]
    constructor
    · obtain ⟨isIn, isOut, isNumber⟩ :=
        Channel.reset_keeps session.resampler.toChannel request.inFreq
          request.outFreq request.numChannels
      rw [isChannel, isIn, isOut, isNumber, compared]
    · intro last isLast
      obtain rfl := Option.some.inj isLast
      exact isSet
  · rw [if_neg accepted]
    unfold Request.Accepted at accepted
    unfold Resampler.reset at taken
    rw [if_pos (by omega)] at taken
    obtain ⟨-, rfl⟩ := Prod.mk.inj (Option.some.inj taken)
    exact sound

/-- Every call keeps the session sound. -/
theorem Session.Sound.next
    {session next : Session}
    (sound : session.Sound)
    {call : Call}
    (taken : session.next call = some next) :
    next.Sound := by
  obtain ⟨⟨result, resampler⟩, isRun, isNext⟩ :=
    Option.bind_eq_some_iff.mp taken
  obtain rfl := Option.some.inj isNext
  cases call with
  | reset request =>
      exact sound.reset isRun
  | resetIfNeeded request =>
      dsimp only [Call.track]
      dsimp only [Call.run] at isRun
      by_cases isMatch : request.Matches session.last
      · rw [resetIfNeeded_of_matches sound isMatch] at isRun
        obtain ⟨-, rfl⟩ := Prod.mk.inj (Option.some.inj isRun)
        rw [if_pos isMatch]
        exact sound
      · rw [resetIfNeeded_of_not_matches sound isMatch] at isRun
        rw [if_neg isMatch]
        exact sound.reset isRun

theorem Session.sound_initial : Session.initial.Sound where
  fields := rfl
  isSet := fun last isLast => by contradiction

/-- Where the ratio is supported, a `Reset` of one or two channels succeeds. -/
theorem reset_succeeds
    {resampler next : Resampler}
    {request : Request}
    {mode : ResamplerMode}
    (accepted : request.Accepted)
    (isMode : modeOf request.inFreq request.outFreq = some mode)
    {result : Int}
    (taken :
      resampler.reset request.inFreq request.outFreq request.numChannels =
        some (result, next)) :
    result = 0 := by
  obtain ⟨other, isReset, -⟩ :=
    reset_spec resampler accepted request.outPositive.ne'
  obtain ⟨isResult, -⟩ :=
    Prod.mk.inj (Option.some.inj (taken.symm.trans isReset))
  rw [isResult]
  exact (Channel.reset_of_some _ isMode _).1

/-- A request in the ratio of another has its mode. -/
theorem modeOf_of_same_ratio
    {request last : Request}
    {mode : ResamplerMode}
    (isMode : modeOf last.inFreq last.outFreq = some mode)
    (sameRatio :
      request.inFreq * last.outFreq = request.outFreq * last.inFreq) :
    modeOf request.inFreq request.outFreq = some mode := by
  have lastRatio := hasRatio_of_modeOf last.outPositive.ne' isMode
  apply modeOf_of_hasRatio request.inPositive request.outPositive
  unfold HasRatio at *
  apply Int.eq_of_mul_eq_mul_right last.outPositive.ne'
  calc
    request.inFreq * mode.ratio.2 * last.outFreq =
        request.inFreq * last.outFreq * mode.ratio.2 := by
      ring
    _ = request.outFreq * (last.inFreq * mode.ratio.2) := by
      rw [sameRatio]
      ring
    _ = request.outFreq * mode.ratio.1 * last.outFreq := by
      rw [lastRatio]
      ring

/-- A call that meets the condition does as it should. -/
theorem Session.Sound.kept
    {session : Session}
    (sound : session.Sound)
    {call : Call}
    (clean : session.Clean call) :
    session.Kept call := by
  cases call with
  | reset request =>
      trivial
  | resetIfNeeded request =>
      intro next taken
      suffices isSet :
          ∃ mode,
            modeOf request.inFreq request.outFreq = some mode ∧
              next.IsSet mode request.numChannels by
        obtain ⟨mode, isMode, isSet⟩ := isSet
        refine
          ⟨⟨mode, hasRatio_of_modeOf request.outPositive.ne' isMode,
              isSet⟩,
            fun earlier result failed wasReset => ?_⟩
        rw [reset_succeeds isSet.number isMode wasReset]
        decide
      by_cases isMatch : request.Matches session.last
      · obtain ⟨last, isLast, sameRatio, supported⟩ := clean isMatch
        obtain ⟨mode, isMode⟩ := Option.isSome_iff_exists.mp supported
        have isSet := sound.isSet last isLast mode isMode
        rw [resetIfNeeded_of_matches sound isMatch] at taken
        obtain ⟨-, rfl⟩ := Prod.mk.inj (Option.some.inj taken)
        have sameNumber : request.numChannels = last.numChannels := by
          rw [isLast] at isMatch
          exact congrArg (fun fields => fields.2.2) isMatch
        rw [sameNumber]
        exact ⟨mode, modeOf_of_same_ratio isMode sameRatio, isSet⟩
      · rw [resetIfNeeded_of_not_matches sound isMatch] at taken
        exact (modeOf_of_reset taken).2

/-- In every run in which a `ResetIfNeeded` that is taken for the last request asks for the
ratio of it, and that is supported, each `ResetIfNeeded` that returns zero leaves the
resampler configured for what it has been asked for. -/
theorem resetIfNeeded_configures
    {calls : List Call}
    (clean :
      AlongRun Session.next Session.Clean Session.initial calls) :
    AlongRun Session.next Session.Kept Session.initial calls :=
  AlongRun.of_guard Session.Sound
    (fun sound _ taken => sound.next taken)
    (fun sound clean => sound.kept clean)
    Session.sound_initial clean

/-- A request of one channel from 8 kHz to 16 kHz. -/
def doubled : Request :=
  ⟨8000, 16000, 1, by decide, by decide⟩

/-- A request in a ratio that is not supported. -/
def unsupported : Request :=
  ⟨7000, 48000, 1, by decide, by decide⟩

/-- A failed request that is made again is taken for the last one. -/
theorem not_resetIfNeeded_configures_again :
    ¬ ∀ calls, AlongRun Session.next Session.Kept Session.initial calls := by
  intro all
  obtain ⟨-, again⟩ :=
    all [.resetIfNeeded unsupported, .resetIfNeeded unsupported]
  obtain ⟨kept, -⟩ := again _ rfl
  obtain ⟨-, succeeds⟩ := kept _ rfl
  exact succeeds .initial _ _ rfl rfl

/-- The request that is made twice is supported. -/
theorem resetIfNeeded_configures_doubled :
    AlongRun Session.next Session.Kept Session.initial
      [.resetIfNeeded doubled, .reset doubled, .resetIfNeeded doubled] := by
  apply resetIfNeeded_configures
  refine ⟨fun isMatch => ?_, fun first isFirst => ⟨trivial, ?_⟩⟩
  · contradiction
  · intro second isSecond
    obtain rfl : _ = first := Option.some.inj isFirst
    obtain rfl : _ = second := Option.some.inj isSecond
    exact ⟨fun _ => ⟨doubled, rfl, rfl, rfl⟩, fun _ _ => trivial⟩

end ApmSdk.Resampler
