import ApmSdk.EncoderTimestamps
import Mathlib.Data.List.Range

namespace ApmSdk.PresentationClock

open EncoderTimestamps (Encoder Event)

/-!
# The presentation clock of the two activities

`MainActivity` and `EchoActivity` count the frames of a recording in the `int`
field `i` and hand each frame to the encoder with a timestamp made of its
number.  The product is formed and divided in `int`; only the quotient is
widened to `long`.
-/

/-- The next timestamp and the field `i` after the call. -/
def nextTimestamp (i : Int32) : Int64 × Int32 :=
  let result := (i * (480 * 1000 * 1000) / 48000).toInt64
  (result, i + 1)

/-- `MainActivity.getPTSUs` -/
def MainActivity.getPTSUs : Int32 → Int64 × Int32 :=
  nextTimestamp

/-- `EchoActivity.getPTSUs` -/
def EchoActivity.getPTSUs : Int32 → Int64 × Int32 :=
  nextTimestamp

/-- The activities that record. -/
inductive Activity where
  | mainActivity
  | echoActivity
  deriving Repr, DecidableEq

/-- The method `getPTSUs` of the activity. -/
def Activity.getPTSUs : Activity → Int32 → Int64 × Int32
  | .mainActivity => MainActivity.getPTSUs
  | .echoActivity => EchoActivity.getPTSUs

/-- The timestamps of the next `frames` frames of a recording. -/
def Activity.timestamps
    (activity : Activity) : (frames : Nat) → (i : Int32) → List Int64
  | 0, _ => []
  | frames + 1, i =>
      let (ptsUs, next) := activity.getPTSUs i
      ptsUs :: activity.timestamps frames next

/-- The timestamps of a recording, whose counter starts at zero. -/
def Activity.recording
    (activity : Activity)
    (frames : Nat) : List Int64 :=
  activity.timestamps frames 0

/-- The encoder's events of a recording. -/
def Activity.pushes
    (activity : Activity)
    (frames : Nat) : List Event :=
  (activity.recording frames).map (Event.push · false)

/-- The timestamp of frame `number`. -/
def timestampOf (number : Nat) : Int64 :=
  (nextTimestamp (Int32.ofNat number)).1

/-- The product wraps around before it is divided. -/
theorem toInt_timestampOf
    (number : Nat) :
    (timestampOf number).toInt =
      (((number : Int) * 480000000).bmod (2 ^ 32)).tdiv 48000 := by
  have product :
      (Int32.ofNat number * (480 * 1000 * 1000)).toInt =
        ((number : Int) * 480000000).bmod (2 ^ 32) := by
    rw [Int32.toInt_mul, Int32.toInt_ofNat']
    exact Int.bmod_mul_bmod
  simp only [timestampOf, nextTimestamp, Int32.toInt_toInt64]
  rw [Int32.toInt_div_of_ne_right _ _ (by decide), product]
  rfl

/-- Both activities number the frames of a recording in order. -/
theorem timestamps_eq
    (activity : Activity)
    (frames first : Nat) :
    activity.timestamps frames (Int32.ofNat first) =
      (List.range frames).map fun number =>
        timestampOf (first + number) := by
  induction frames generalizing first with
  | zero =>
      rfl
  | succ frames inductionHypothesis =>
      have next : Int32.ofNat first + 1 = Int32.ofNat (first + 1) :=
        (Int32.ofNat_add first 1).symm
      have head :
          activity.getPTSUs (Int32.ofNat first) =
            (timestampOf first, Int32.ofNat (first + 1)) := by
        cases activity <;>
          exact Prod.ext rfl next
      simp only [Activity.timestamps, head, inductionHypothesis,
        List.range_succ_eq_map, List.map_cons, List.map_map]
      simp [Function.comp_def, Nat.add_assoc, Nat.add_comm 1]

/-- A recording hands over the timestamps of its frames. -/
theorem recording_eq
    (activity : Activity)
    (frames : Nat) :
    activity.recording frames = (List.range frames).map timestampOf := by
  have numbered := timestamps_eq activity frames 0
  simp only [Nat.zero_add] at numbered
  exact numbered

/-- The timestamp is exact for the first five frames and for no other. -/
theorem timestampOf_exact_iff
    (number : Nat) :
    (timestampOf number).toInt = number * 10000 ↔ number < 5 := by
  rw [toInt_timestampOf]
  have lower :=
    Int.le_bmod (x := (number : Int) * 480000000) (m := 2 ^ 32) (by decide)
  have upper :=
    Int.bmod_lt (x := (number : Int) * 480000000) (m := 2 ^ 32) (by decide)
  constructor
  · intro exact
    -- The quotient of an `int` cannot reach the fifth timestamp.
    generalize ((number : Int) * 480000000).bmod (2 ^ 32) = wrapped at *
    have bound := Int.mul_tdiv_add_tmod wrapped 48000
    have rest := Int.tmod_lt_of_pos wrapped (by decide : (0 : Int) < 48000)
    have restAbove := Int.lt_tmod_of_pos wrapped (by decide : (0 : Int) < 48000)
    omega
  · intro early
    have noWrap :
        ((number : Int) * 480000000).bmod (2 ^ 32) = number * 480000000 :=
      Int.bmod_eq_of_le (by omega) (by omega)
    have multiple :
        (number : Int) * 480000000 = (number * 10000) * 48000 := by
      omega
    rw [noWrap, multiple]
    exact Int.mul_tdiv_cancel _ (by decide)

/-- The first five timestamps ascend, and the sixth is below the first. -/
theorem increasing_iff
    (frames : Nat) :
    ((List.range frames).map timestampOf).Pairwise (· < ·) ↔ frames ≤ 5 := by
  rw [List.pairwise_map]
  constructor
  · intro increasing
    by_contra long
    have sixth :
        (List.range 6).Pairwise
          (fun earlier later => timestampOf earlier < timestampOf later) :=
      increasing.sublist (List.range_sublist.mpr (by omega))
    exact absurd sixth (by decide +kernel)
  · intro short
    refine List.pairwise_lt_range.imp_of_mem ?_
    intro earlier later earlierIn laterIn before
    have earlierExact :=
      (timestampOf_exact_iff earlier).mpr
        (by have := List.mem_range.mp earlierIn; omega)
    have laterExact :=
      (timestampOf_exact_iff later).mpr
        (by have := List.mem_range.mp laterIn; omega)
    rw [Int64.lt_iff_toInt_lt, earlierExact, laterExact]
    omega

/-- The encoder takes pushes exactly if they ascend from the last one. -/
theorem isSome_foldlM_push_iff
    (values : List Int64)
    (encoder : Encoder) :
    ((values.map (Event.push · false)).foldlM
        Encoder.next encoder).isSome = true ↔
      values.Pairwise (· < ·) ∧
        ∀ last ∈ encoder.lastPush, ∀ value ∈ values, last < value := by
  induction values generalizing encoder with
  | nil =>
      simp
  | cons value rest inductionHypothesis =>
      rw [List.map_cons, List.foldlM_cons, List.pairwise_cons]
      by_cases accepted : encoder.lastPush.all (· < value)
      · have taken :
            encoder.next (.push value false) =
              some (encoder.push value false) :=
          if_pos accepted
        rw [taken, Option.bind_eq_bind, Option.bind_some,
          inductionHypothesis]
        simp only [Encoder.push, Option.mem_some_iff, forall_eq',
          List.forall_mem_cons]
        constructor
        · rintro ⟨restIncreasing, above⟩
          refine ⟨⟨above, restIncreasing⟩, ?_⟩
          intro last isLast
          have below : last < value := by
            simpa [Option.mem_def.mp isLast] using accepted
          exact ⟨below, fun later member =>
            Int64.lt_trans below (above later member)⟩
        · rintro ⟨⟨above, restIncreasing⟩, -⟩
          exact ⟨restIncreasing, above⟩
      · have refused : encoder.next (.push value false) = none :=
          if_neg accepted
        rw [refused, Option.bind_eq_bind, Option.bind_none]
        constructor
        · intro impossible
          cases impossible
        · rintro ⟨-, above⟩
          refine absurd ?_ accepted
          cases filed : encoder.lastPush with
          | none =>
              rfl
          | some last =>
              simpa using
                above last filed value (List.mem_cons_self ..)

/-- A recording is a session of the encoder exactly up to five frames. -/
theorem pushes_session_iff
    (activity : Activity)
    (frames : Nat) :
    ((activity.pushes frames).foldlM
        Encoder.next EncoderTimestamps.started).isSome = true ↔
      frames ≤ 5 := by
  rw [Activity.pushes, isSome_foldlM_push_iff, recording_eq,
    increasing_iff]
  simp [EncoderTimestamps.started]

/--
The timestamp of a frame is its time exactly for the first five frames, and the
timestamps of a recording are strictly increasing exactly up to five frames.
-/
theorem recording_exact_iff
    (activity : Activity) :
    (∀ number frames : Nat,
      number < frames →
        (((activity.recording frames)[number]?.map Int64.toInt =
          some ((number : Int) * 10000)) ↔ number < 5)) ∧
      ∀ frames : Nat,
        (activity.recording frames).Pairwise (· < ·) ↔ frames ≤ 5 := by
  constructor
  · intro number frames within
    rw [recording_eq, List.getElem?_map, List.getElem?_range within]
    simpa using timestampOf_exact_iff number
  · intro frames
    rw [recording_eq]
    exact increasing_iff frames

/-- The rule at a recording of four frames. -/
theorem recording_exact_iff_four :
    (Activity.mainActivity.recording 4)[3]?.map Int64.toInt =
      some ((3 : Nat) * 10000) :=
  ((recording_exact_iff .mainActivity).1 3 4 (by decide)).mpr (by decide)

/-- The sixth timestamp is negative. -/
theorem recording_six_not_increasing :
    (Activity.mainActivity.recording 6).map Int64.toInt =
        [0, 10000, 20000, 30000, 40000, -39478] ∧
      ¬ (Activity.mainActivity.recording 6).Pairwise (· < ·) := by
  decide +kernel

end ApmSdk.PresentationClock
