import ApmSdk.LabelledPath
import Mathlib.Algebra.Order.Ring.Int
import Mathlib.Data.List.Basic
import Mathlib.Tactic.Common

namespace ApmSdk.EncoderTimestamps

/-!
# Presentation timestamps of the AAC encoder

`pushAudioFrameSync` files the timestamp of each input under `mLock`.  The
encoder thread pops the smallest one for each output of the codec, and makes
one up, outside the lock, when none is filed.  The codec may produce outputs in
any number and at any time.

The events below are one session of the encoder, after `startInner` has run.
-/

/-- The `TreeSet<Long>` of filed timestamps. -/
structure TreeSet where
  values : List Int64
  sorted : values.Pairwise (· < ·)
  deriving DecidableEq

namespace TreeSet

/-- The set that `startInner` creates. -/
def empty : TreeSet where
  values := []
  sorted := .nil

/-- Insert into a strictly increasing list unless present. -/
def insert (ptsUs : Int64) : List Int64 → List Int64
  | [] => [ptsUs]
  | first :: rest =>
      if ptsUs < first then
        ptsUs :: first :: rest
      else if ptsUs = first then
        first :: rest
      else
        first :: insert ptsUs rest

/-- Insertion adds exactly the new timestamp. -/
@[simp]
theorem mem_insert
    {ptsUs other : Int64}
    {values : List Int64} :
    other ∈ insert ptsUs values ↔ other = ptsUs ∨ other ∈ values := by
  induction values with
  | nil =>
      simp [insert]
  | cons first rest inductionHypothesis =>
      unfold insert
      split
      · simp
      · split
        · rename_i same
          simp [same]
        · simp only [List.mem_cons, inductionHypothesis]
          exact or_left_comm

/-- Insertion keeps the list strictly increasing. -/
theorem sorted_insert
    {ptsUs : Int64}
    {values : List Int64}
    (sorted : values.Pairwise (· < ·)) :
    (insert ptsUs values).Pairwise (· < ·) := by
  induction values with
  | nil =>
      simp [insert]
  | cons first rest inductionHypothesis =>
      obtain ⟨firstBelow, restSorted⟩ := List.pairwise_cons.mp sorted
      unfold insert
      split
      · rename_i before
        refine List.pairwise_cons.mpr ⟨?_, sorted⟩
        intro other member
        rcases List.mem_cons.mp member with isFirst | inRest
        · exact isFirst ▸ before
        · exact Int64.lt_trans before (firstBelow other inRest)
      · split
        · exact sorted
        · rename_i notBefore different
          have after : first < ptsUs :=
            Int64.lt_iff_le_and_ne.mpr
              ⟨Int64.not_lt.mp notBefore, Ne.symm different⟩
          refine List.pairwise_cons.mpr
            ⟨?_, inductionHypothesis restSorted⟩
          intro other member
          rcases mem_insert.mp member with isNew | inRest
          · exact isNew ▸ after
          · exact firstBelow other inRest

/-- `add` -/
def add
    (set : TreeSet)
    (ptsUs : Int64) : TreeSet where
  values := insert ptsUs set.values
  sorted := sorted_insert set.sorted

/-- `pollFirst`, or nothing if the set is empty. -/
def pollFirst (set : TreeSet) : Option (Int64 × TreeSet) :=
  match filed : set.values with
  | [] => none
  | first :: rest =>
      some (first,
        ⟨rest, (List.pairwise_cons.mp (filed ▸ set.sorted)).2⟩)

/-- Polling takes the head of the list. -/
theorem values_of_pollFirst
    {set rest : TreeSet}
    {first : Int64}
    (polled : set.pollFirst = some (first, rest)) :
    set.values = first :: rest.values := by
  unfold pollFirst at polled
  split at polled
  · simp at polled
  · rename_i head tail filed
    obtain ⟨rfl, rfl⟩ : head = first ∧ _ = rest := by
      simpa using polled
    exact filed

/-- Polling an empty set finds nothing. -/
theorem values_of_pollFirst_none
    {set : TreeSet}
    (polled : set.pollFirst = none) :
    set.values = [] := by
  unfold pollFirst at polled
  split at polled
  · assumption
  · simp at polled

end TreeSet

/-- Where the encoder thread is. -/
inductive OutputThread where
  /-- Before its next `dequeueOutputBuffer`. -/
  | waiting
  /-- In `calculateCurrentFramePTS`, behind the lock, having found no timestamp. -/
  | inventing (endOfStream : Bool)
  /-- After the end of the stream: nothing schedules it again. -/
  | stopped
  deriving Repr, DecidableEq

/-- The encoder's fields with what it has delivered to its listener. -/
structure Encoder where
  isEnd : Bool
  mLatey : Nat
  mAudioPtsSet : TreeSet
  mNewPts : Int64
  outputThread : OutputThread
  lastPush : Option Int64
  /-- One entry for each `onEncodeAAC`; `none` is a call with null arguments. -/
  delivered : List (Option Int64)
  deriving DecidableEq

/-- The encoder when `startInner` returns. -/
def started : Encoder where
  isEnd := false
  mLatey := 0
  mAudioPtsSet := .empty
  mNewPts := 0
  outputThread := .waiting
  lastPush := none
  delivered := []

/-- What the caller's thread and the encoder thread do. -/
inductive Event where
  /-- `pushAudioFrameSync` with a timestamp above the one before. -/
  | push (ptsUs : Int64) (isEnd : Bool)
  /-- `dequeueOutputBuffer` returns `INFO_TRY_AGAIN_LATER`. -/
  | tryAgainLater
  /-- `dequeueOutputBuffer` returns another negative status. -/
  | information
  /-- `dequeueOutputBuffer` returns a buffer. -/
  | buffer (codecConfig endOfStream : Bool) (size : Nat)
  /-- `calculateCurrentFramePTS` runs on behind the lock. -/
  | invent
  deriving Repr, DecidableEq

namespace Encoder

/-- `calculateCurrentFramePTS` has returned and the listener is called. -/
def deliver
    (encoder : Encoder)
    (ptsUs : Int64)
    (endOfStream : Bool) : Encoder :=
  { encoder with
    mNewPts := ptsUs
    delivered := encoder.delivered ++ [some ptsUs]
    outputThread := if endOfStream then .stopped else .waiting }

/-- The files of `pushAudioFrameSync`. -/
def push
    (encoder : Encoder)
    (ptsUs : Int64)
    (isEnd : Bool) : Encoder :=
  { encoder with
    isEnd
    mAudioPtsSet := encoder.mAudioPtsSet.add ptsUs
    lastPush := some ptsUs }

/-- `onDecodeOutput` when no output is ready. -/
def tryAgainLater (encoder : Encoder) : Encoder :=
  if encoder.isEnd ∧ 100 < encoder.mLatey + 1 then
    { encoder with
      delivered := encoder.delivered ++ [none]
      mLatey := 0
      isEnd := false }
  else
    { encoder with mLatey := encoder.mLatey + 1 }

/-- `onDecodeOutput` on a buffer, up to the end of the locked region. -/
def outputBuffer
    (encoder : Encoder)
    (codecConfig endOfStream : Bool)
    (size : Nat) : Encoder :=
  let size := if codecConfig then 0 else size
  if size = 0 then
    { encoder with
      outputThread := if endOfStream then .stopped else .waiting }
  else
    match encoder.mAudioPtsSet.pollFirst with
    | some (first, rest) =>
        { encoder with mAudioPtsSet := rest }.deliver first endOfStream
    | none =>
        { encoder with outputThread := .inventing endOfStream }

/-- The encoder after an event, if the event can happen. -/
def next
    (encoder : Encoder) : Event → Option Encoder
  | .push ptsUs isEnd =>
      if encoder.lastPush.all (· < ptsUs) then
        some (encoder.push ptsUs isEnd)
      else
        none
  | .tryAgainLater =>
      if encoder.outputThread = .waiting then
        some encoder.tryAgainLater
      else
        none
  | .information =>
      if encoder.outputThread = .waiting then
        some encoder
      else
        none
  | .buffer codecConfig endOfStream size =>
      if encoder.outputThread = .waiting then
        some (encoder.outputBuffer codecConfig endOfStream size)
      else
        none
  | .invent =>
      match encoder.outputThread with
      | .inventing endOfStream =>
          some (encoder.deliver (encoder.mNewPts + 100) endOfStream)
      | _ => none

/-- The timestamps delivered so far. -/
def timestamps (encoder : Encoder) : List Int64 :=
  encoder.delivered.filterMap id

end Encoder

/-- The transition relation of a session. -/
abbrev eventStep : Encoder → Event → Encoder → Prop :=
  stepOf Encoder.next

/-- The timestamps delivered downstream are strictly increasing. -/
def Increasing (encoder : Encoder) : Prop :=
  encoder.timestamps.Pairwise (· < ·)

/--
The events the code is right for: a timestamp is pushed before the encoder has
delivered, or decided on, one that reaches it; and the timestamp made up does
not wrap around.
-/
def InTime (encoder : Encoder) : Event → Prop
  | .push ptsUs _ =>
      (∀ timestamp ∈ encoder.timestamps, timestamp < ptsUs) ∧
        ∀ endOfStream,
          encoder.outputThread = .inventing endOfStream →
          encoder.mNewPts + 100 < ptsUs
  | .invent => encoder.mNewPts < encoder.mNewPts + 100
  | _ => True

/--
The invariant of the runs in time: filed timestamps are still ahead of
everything delivered and of the one about to be made up.
-/
structure Ahead (encoder : Encoder) : Prop where
  increasing : Increasing encoder
  newest :
    ∀ timestamp ∈ encoder.timestamps, timestamp ≤ encoder.mNewPts
  filedAhead :
    ∀ timestamp ∈ encoder.timestamps,
      ∀ filed ∈ encoder.mAudioPtsSet.values, timestamp < filed
  filedAheadOfInvented :
    ∀ endOfStream,
      encoder.outputThread = .inventing endOfStream →
      ∀ filed ∈ encoder.mAudioPtsSet.values,
        encoder.mNewPts + 100 < filed

/-- Nothing is delivered or filed when a session starts. -/
theorem ahead_started : Ahead started := by
  constructor <;>
    simp [Increasing, started, Encoder.timestamps, TreeSet.empty]

/-- A delivery appends one timestamp. -/
@[simp]
theorem timestamps_deliver
    (encoder : Encoder)
    (ptsUs : Int64)
    (endOfStream : Bool) :
    (encoder.deliver ptsUs endOfStream).timestamps =
      encoder.timestamps ++ [ptsUs] := by
  simp [Encoder.timestamps, Encoder.deliver]

/-- Delivering a timestamp between the delivered and the filed ones is in order. -/
theorem ahead_deliver
    {encoder : Encoder}
    {ptsUs : Int64}
    {endOfStream : Bool}
    (increasing : Increasing encoder)
    (later : ∀ timestamp ∈ encoder.timestamps, timestamp < ptsUs)
    (filedAhead :
      ∀ filed ∈ encoder.mAudioPtsSet.values, ptsUs < filed) :
    Ahead (encoder.deliver ptsUs endOfStream) := by
  constructor
  · rw [Increasing, timestamps_deliver, List.pairwise_append]
    refine ⟨increasing, List.pairwise_singleton _ _, ?_⟩
    simpa using later
  · intro timestamp member
    rw [timestamps_deliver, List.mem_append, List.mem_singleton]
      at member
    rcases member with earlier | isNew
    · exact Int64.le_of_lt (later timestamp earlier)
    · exact isNew ▸ Int64.le_refl _
  · intro timestamp member filed inSet
    rw [timestamps_deliver, List.mem_append, List.mem_singleton]
      at member
    rcases member with earlier | isNew
    · exact Int64.lt_trans (later timestamp earlier)
        (filedAhead filed inSet)
    · exact isNew ▸ filedAhead filed inSet
  · intro stream inventing
    cases endOfStream <;>
      simp [Encoder.deliver] at inventing

/-- A push in time files a timestamp that is still ahead. -/
theorem ahead_push
    {encoder : Encoder}
    {ptsUs : Int64}
    {isEnd : Bool}
    (ahead : Ahead encoder)
    (inTime : InTime encoder (.push ptsUs isEnd)) :
    Ahead (encoder.push ptsUs isEnd) := by
  refine ⟨ahead.increasing, ahead.newest, ?_, ?_⟩
  · intro timestamp member filed inSet
    rcases TreeSet.mem_insert.mp inSet with isNew | earlier
    · exact isNew ▸ inTime.1 timestamp member
    · exact ahead.filedAhead timestamp member filed earlier
  · intro endOfStream inventing filed inSet
    rcases TreeSet.mem_insert.mp inSet with isNew | earlier
    · exact isNew ▸ inTime.2 endOfStream inventing
    · exact ahead.filedAheadOfInvented endOfStream inventing
        filed earlier

/-- Waiting for the codec delivers no timestamp. -/
theorem ahead_tryAgainLater
    {encoder : Encoder}
    (ahead : Ahead encoder) :
    Ahead encoder.tryAgainLater := by
  unfold Encoder.tryAgainLater
  split
  · have same :
        ({ encoder with
          delivered := encoder.delivered ++ [none]
          mLatey := 0
          isEnd := false } : Encoder).timestamps =
        encoder.timestamps := by
      simp [Encoder.timestamps]
    refine ⟨?_, ?_, ?_, ahead.filedAheadOfInvented⟩
    · rw [Increasing, same]
      exact ahead.increasing
    · rw [same]
      exact ahead.newest
    · rw [same]
      exact ahead.filedAhead
  · exact ⟨ahead.increasing, ahead.newest, ahead.filedAhead,
      ahead.filedAheadOfInvented⟩

/-- An output takes the smallest filed timestamp, which is still ahead. -/
theorem ahead_outputBuffer
    {encoder : Encoder}
    {codecConfig endOfStream : Bool}
    {size : Nat}
    (ahead : Ahead encoder) :
    Ahead (encoder.outputBuffer codecConfig endOfStream size) := by
  by_cases noData : (if codecConfig then 0 else size) = 0
  · simp only [Encoder.outputBuffer, noData, if_true]
    refine ⟨ahead.increasing, ahead.newest, ahead.filedAhead, ?_⟩
    intro stream inventing
    cases endOfStream <;> simp at inventing
  · simp only [Encoder.outputBuffer, noData, if_false]
    cases polled : encoder.mAudioPtsSet.pollFirst with
    | none =>
        refine ⟨ahead.increasing, ahead.newest, ahead.filedAhead, ?_⟩
        intro stream inventing filed inSet
        simp [TreeSet.values_of_pollFirst_none polled] at inSet
    | some result =>
        obtain ⟨first, rest⟩ := result
        have values := TreeSet.values_of_pollFirst polled
        have sorted := encoder.mAudioPtsSet.sorted
        rw [values, List.pairwise_cons] at sorted
        apply ahead_deliver
        · exact ahead.increasing
        · intro timestamp member
          exact ahead.filedAhead timestamp member first
            (by simp [values])
        · exact sorted.1

/-- Every event in time keeps the filed timestamps ahead. -/
theorem ahead_next
    {source target : Encoder}
    {event : Event}
    (ahead : Ahead source)
    (inTime : InTime source event)
    (step : eventStep source event target) :
    Ahead target := by
  cases event with
  | push ptsUs isEnd =>
      simp only [stepOf, Encoder.next, Option.ite_none_right_eq_some,
        Option.some.injEq] at step
      exact step.2 ▸ ahead_push ahead inTime
  | tryAgainLater =>
      simp only [stepOf, Encoder.next, Option.ite_none_right_eq_some,
        Option.some.injEq] at step
      exact step.2 ▸ ahead_tryAgainLater ahead
  | information =>
      simp only [stepOf, Encoder.next, Option.ite_none_right_eq_some,
        Option.some.injEq] at step
      exact step.2 ▸ ahead
  | buffer codecConfig endOfStream size =>
      simp only [stepOf, Encoder.next, Option.ite_none_right_eq_some,
        Option.some.injEq] at step
      exact step.2 ▸ ahead_outputBuffer ahead
  | invent =>
      simp only [stepOf, Encoder.next] at step
      split at step
      · rename_i endOfStream inventing
        obtain rfl : source.deliver _ endOfStream = target := by
          simpa using step
        apply ahead_deliver ahead.increasing
        · intro timestamp member
          exact Int64.lt_of_le_of_lt (ahead.newest timestamp member)
            inTime
        · exact ahead.filedAheadOfInvented endOfStream inventing
      · simp at step

/--
In a session whose events are all in time, the delivered timestamps are
strictly increasing in every state.
-/
theorem run_increasing_of_inTime
    {moves : List (Move Encoder Event)}
    {final : Encoder}
    (path : Path eventStep started moves final)
    (inTime : ∀ move ∈ moves, InTime move.source move.label) :
    (∀ move ∈ moves, Increasing move.target) ∧ Increasing final := by
  obtain ⟨throughout, last⟩ :=
    Path.invariant_of_guard Ahead InTime
      (fun ahead event step => ahead_next ahead event step)
      ahead_started path inTime
  exact ⟨fun move member => (throughout move member).2.increasing,
    last.increasing⟩

/-- The rule at a session that makes up one timestamp. -/
theorem run_increasing_of_inTime_timely :
    Increasing
      (((started.push 0 false).outputBuffer false false 1).outputBuffer
        false false 1 |>.deliver 100 false) := by
  let pushed := started.push 0 false
  let delivered := pushed.outputBuffer false false 1
  let inventing := delivered.outputBuffer false false 1
  have path :
      Path eventStep started
        [⟨started, .push 0 false, pushed⟩,
          ⟨pushed, .buffer false false 1, delivered⟩,
          ⟨delivered, .buffer false false 1, inventing⟩,
          ⟨inventing, .invent, inventing.deliver 100 false⟩]
        (inventing.deliver 100 false) :=
    .cons _ (by decide +kernel) (.cons _ (by decide +kernel)
      (.cons _ (by decide +kernel)
        (.cons _ (by decide +kernel) (.nil _))))
  refine (run_increasing_of_inTime path ?_).2
  simp only [List.forall_mem_cons]
  have noWrap : (0 : Int64) < 0 + 100 := by
    decide
  refine ⟨⟨by simp [started, Encoder.timestamps], ?_⟩, trivial,
    trivial, noWrap, by simp⟩
  intro endOfStream idle
  cases idle

/-- One output while a timestamp is filed, one made up, then a late push. -/
def latePushEvents : List Event :=
  [.push 0 false, .buffer false false 1, .buffer false false 1,
    .invent, .push 50 false, .buffer false false 1]

/-- The session of these events ends with a timestamp below its predecessor. -/
theorem latePush_not_increasing :
    ∃ moves final,
      Path eventStep started moves final ∧
        moves.map Move.label = latePushEvents ∧
        final.timestamps = [0, 100, 50] ∧
        ¬ Increasing final := by
  have taken :
      (latePushEvents.foldlM Encoder.next started).map
          Encoder.timestamps =
        some [0, 100, 50] := by
    decide +kernel
  obtain ⟨final, followed, timestamps⟩ := Option.map_eq_some_iff.mp taken
  obtain ⟨moves, path, labels⟩ := Path.exists_of_foldlM followed
  refine ⟨moves, final, path, labels, timestamps, ?_⟩
  intro increasing
  have outOfOrder : (100 : Int64) < 50 := by
    rw [Increasing, timestamps] at increasing
    simp only [List.pairwise_cons] at increasing
    exact increasing.2.1 50 (List.mem_singleton_self 50)
  exact absurd outOfOrder (by decide)

end ApmSdk.EncoderTimestamps
