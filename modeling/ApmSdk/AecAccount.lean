import ApmSdk.AecCore
import Mathlib.Tactic.Ring

namespace ApmSdk.Echo

/-!
# The account of the far end

What the core does to its far-end buffer is additions and subtractions on five numbers.
`Account` keeps these alone, and every step of a frame does to the account of the
core what it does to the buffers.
-/

/-- The five numbers: partitions of far end and samples of near end in the buffers,
and the three delays. -/
structure Account where
  far : Int
  near : Int
  systemDelay : Int
  knownDelay : Int
  correction : Int
  deriving Repr, DecidableEq

namespace Account

/-- How far the read position of the far end moves when it is asked to. -/
def clip (account : Account) (elements : Int) : Int :=
  max (min elements account.far) (account.far - kBufSizePartitions)

/-- A move that the system delay takes part in. -/
def moveFar (account : Account) (elements : Int) : Account :=
  { account with
    far := account.far - account.clip elements
    systemDelay := account.systemDelay - account.clip elements * partLen }

/-- Step 1 of a frame. -/
def stuff (account : Account) (mult : Int) : Account :=
  if account.systemDelay < frameLen then
    account.moveFar (-(mult + 1))
  else
    account

/-- Step 2 a. -/
def follow (account : Account) (knownDelay : Int) : Account :=
  let moved :=
    account.clip ((account.knownDelay - knownDelay - 32).tdiv partLen)
  { account with
    far := account.far - moved
    knownDelay := account.knownDelay - moved * partLen }

/-- Step 2 b, for a correction that has been chosen. -/
def correct (account : Account) (elements : Int) : Account :=
  let moved := account.clip elements
  let corrected :=
    { account with
      far := account.far - moved
      correction := account.correction + moved }
  let difference := corrected.far - corrected.near / (partLen : Int)
  if difference < 0 then corrected.moveFar difference else corrected

/-- A partition comes in; one is flushed where there is no room for it. -/
def bufferPartition (account : Account) : Account :=
  let flushed :=
    if account.far < kBufSizePartitions then account else account.moveFar 1
  { flushed with far := flushed.far + 1 }

/-- What the near end, the delays and the correction leave of the far end. -/
def surplus (account : Account) : Int :=
  partLen * account.far - account.near - account.systemDelay -
      account.knownDelay +
    partLen * account.correction

/-- As many partitions as the buffer can hold. -/
structure Within (account : Account) : Prop where
  lower : 0 ≤ account.far
  upper : account.far ≤ kBufSizePartitions

theorem Within.moveFar
    {account : Account}
    (within : account.Within)
    (elements : Int) :
    (account.moveFar elements).Within := by
  have lower := within.lower
  have upper := within.upper
  constructor <;> unfold Account.moveFar clip <;> dsimp only <;> omega

theorem Within.stuff
    {account : Account}
    (within : account.Within)
    (mult : Int) :
    (account.stuff mult).Within := by
  unfold Account.stuff
  split
  · exact within.moveFar _
  · exact within

/-- A move is no longer than it is asked to be. -/
theorem Within.clip_bounds
    {account : Account}
    (within : account.Within)
    (elements : Int) :
    min elements 0 ≤ account.clip elements ∧
      account.clip elements ≤ max elements 0 := by
  have lower := within.lower
  have upper := within.upper
  unfold clip
  omega

variable (account : Account)

@[simp]
theorem surplus_moveFar (elements : Int) :
    (account.moveFar elements).surplus = account.surplus := by
  unfold moveFar surplus
  dsimp only
  ring

@[simp]
theorem surplus_stuff (mult : Int) :
    (account.stuff mult).surplus = account.surplus := by
  unfold stuff
  split
  · exact account.surplus_moveFar _
  · rfl

@[simp]
theorem surplus_follow (knownDelay : Int) :
    (account.follow knownDelay).surplus = account.surplus := by
  unfold follow surplus
  dsimp only
  ring

@[simp]
theorem surplus_correct (elements : Int) :
    (account.correct elements).surplus = account.surplus := by
  have corrected :
      ({ account with
          far := account.far - account.clip elements
          correction := account.correction + account.clip elements } :
        Account).surplus = account.surplus := by
    unfold surplus
    dsimp only
    ring
  unfold correct
  dsimp only
  split
  · rw [surplus_moveFar]
    exact corrected
  · exact corrected

@[simp]
theorem surplus_bufferPartition :
    account.bufferPartition.surplus = account.surplus + partLen := by
  have flushed :
      (if account.far < kBufSizePartitions then account
        else account.moveFar 1).surplus = account.surplus := by
    split
    · rfl
    · exact account.surplus_moveFar 1
  rw [← flushed]
  unfold bufferPartition surplus
  dsimp only
  ring

end Account

end ApmSdk.Echo
