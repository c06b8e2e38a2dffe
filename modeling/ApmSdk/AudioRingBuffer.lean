import ApmSdk.RingStream

namespace ApmSdk

/-!
# The ring buffer of several channels

`AudioRingBuffer` keeps a ring for every channel, and checks after each call that all of
it was done.  A check that fails leaves the call without a result, and so does an `int`
that overflows.
-/

/-- The samples of every channel. -/
abbrev Channels (count : Nat) (Sample : Type) :=
  Fin count → List Sample

/-- The results of all channels, where each has one. -/
def allChannels
    {count : Nat}
    {Result : Type}
    (results : Fin count → Option Result) : Option (Fin count → Result) :=
  if present : ∀ channel, (results channel).isSome then
    some fun channel => (results channel).get (present channel)
  else none

section AllChannels

variable {count : Nat} {Result : Type}
variable {results : Fin count → Option Result}

theorem allChannels_eq_some
    {values : Fin count → Result}
    (each : ∀ channel, results channel = some (values channel)) :
    allChannels results = some values := by
  obtain rfl : results = fun channel => some (values channel) := funext each
  exact dif_pos fun _ => rfl

theorem allChannels_eq_none
    {channel : Fin count}
    (missing : results channel = none) :
    allChannels results = none := by
  refine dif_neg fun present => ?_
  have isSome := present channel
  rw [missing] at isSome
  cases isSome

end AllChannels

/-- `AudioRingBuffer`; there is no ring without elements. -/
structure AudioRingBuffer (count : Nat) (Sample : Type) where
  buffers : Fin count → Option (RingBuffer Sample)

namespace AudioRingBuffer

variable {count : Nat} {Sample : Type}

/-- `AudioRingBuffer::AudioRingBuffer` -/
def create
    (count maxFrames : Nat)
    (zero : Sample) : AudioRingBuffer count Sample where
  buffers := fun _ => RingBuffer.createBuffer maxFrames zero

/-- A channel of `Write`. -/
def writeChannel
    (buffer : Option (RingBuffer Sample))
    (data : List Sample) : Option (Option (RingBuffer Sample)) :=
  match buffer with
  | none => if 0 = data.length then some none else none
  | some ring =>
      if (ring.writeBuffer data).2 = data.length then
        some (some (ring.writeBuffer data).1)
      else none

/-- A channel of `Read`. -/
def readChannel
    (buffer : Option (RingBuffer Sample))
    (frames : Nat) : Option (Option (RingBuffer Sample) × List Sample) :=
  match buffer with
  | none => if 0 = frames then some (none, []) else none
  | some ring =>
      (ring.readBuffer false frames).bind fun read =>
        if read.2.readCount = frames then some (some read.1, read.2.copied)
        else none

/-- A channel of `MoveReadPositionBackward`. -/
def moveBackChannel
    (buffer : Option (RingBuffer Sample))
    (frames : Nat) : Option (Option (RingBuffer Sample)) :=
  match buffer with
  | none => if 0 = frames then some none else none
  | some ring =>
      (checkedInt (-asInt frames)).bind fun steps =>
        (ring.moveReadPtr steps).bind fun result =>
          (checkedInt (-result.2)).bind fun moved =>
            if asSize moved = frames then some (some result.1) else none

/-- `AudioRingBuffer::Write` -/
def write
    (buffer : AudioRingBuffer count Sample)
    (data : Channels count Sample) : Option (AudioRingBuffer count Sample) :=
  (allChannels fun channel =>
      writeChannel (buffer.buffers channel) (data channel)).map
    mk

/-- `AudioRingBuffer::Read` -/
def read
    (buffer : AudioRingBuffer count Sample)
    (frames : Nat) :
    Option (AudioRingBuffer count Sample × Channels count Sample) :=
  (allChannels fun channel =>
      readChannel (buffer.buffers channel) frames).map
    fun results =>
      (⟨fun channel => (results channel).1⟩,
        fun channel => (results channel).2)

/-- `AudioRingBuffer::MoveReadPositionBackward` -/
def moveReadPositionBackward
    (buffer : AudioRingBuffer count Sample)
    (frames : Nat) : Option (AudioRingBuffer count Sample) :=
  (allChannels fun channel =>
      moveBackChannel (buffer.buffers channel) frames).map
    mk

/-- Every ring stands at the same position of the stream of its channel. -/
def CarriesAll
    (capacity : Nat)
    (buffer : AudioRingBuffer count Sample)
    (written : Channels count Sample)
    (position : Nat)
    (readPos : Int) : Prop :=
  ∀ channel,
    ∃ ring,
      buffer.buffers channel = some ring ∧
        ring.Carries capacity (written channel) position ∧
          ring.readPos = readPos

variable {capacity position : Nat} {readPos : Int}
variable {buffer : AudioRingBuffer count Sample}
variable {written : Channels count Sample}

/-- Created rings stand behind the zeros they are created with. -/
theorem carriesAll_create
    (zero : Sample)
    (positive : 0 < capacity) :
    (create count capacity zero).CarriesAll capacity
      (fun _ => List.replicate capacity zero) capacity 0 := by
  intro channel
  have created :
      ∃ ring,
        RingBuffer.createBuffer capacity zero = some ring ∧
          ring.readPos = 0 := by
    unfold RingBuffer.createBuffer
    rw [if_neg (by omega)]
    exact ⟨_, rfl, rfl⟩
  obtain ⟨ring, isRing, start⟩ := created
  exact
    ⟨ring, isRing, RingBuffer.carries_createBuffer isRing,
      by rw [start]; rfl⟩

/-- Without rings, nothing can be written. -/
theorem write_of_none
    {data : Channels count Sample}
    (none : ∀ channel, buffer.buffers channel = none)
    (nothing : ∀ channel, (data channel).length = 0) :
    buffer.write data = some ⟨fun _ => .none⟩ := by
  have each :
      ∀ channel,
        writeChannel (buffer.buffers channel) (data channel) = some .none := by
    intro channel
    rw [none channel]
    exact if_pos (nothing channel).symm
  unfold write
  rw [allChannels_eq_some each, Option.map_some]

/-- Without rings, there is nowhere to move back to. -/
theorem moveReadPositionBackward_of_none
    (none : ∀ channel, buffer.buffers channel = none) :
    buffer.moveReadPositionBackward 0 = some ⟨fun _ => .none⟩ := by
  have each :
      ∀ channel,
        moveBackChannel (buffer.buffers channel) 0 = some .none := by
    intro channel
    rw [none channel]
    rfl
  unfold moveReadPositionBackward
  rw [allChannels_eq_some each, Option.map_some]

namespace CarriesAll

/-- Writing frames that fit in every channel. -/
theorem write
    (carries : buffer.CarriesAll capacity written position readPos)
    {data : Channels count Sample}
    (fits :
      ∀ channel,
        (written channel).length + (data channel).length ≤
          position + capacity) :
    ∃ next,
      buffer.write data = some next ∧
        next.CarriesAll capacity
          (fun channel => written channel ++ data channel) position
          readPos := by
  choose ring isRing ringCarries start using carries
  refine
    ⟨⟨fun channel => some ((ring channel).writeBuffer (data channel)).1⟩,
      ?_, ?_⟩
  · unfold AudioRingBuffer.write
    have each :
        ∀ channel,
          writeChannel (buffer.buffers channel) (data channel) =
            some (some ((ring channel).writeBuffer (data channel)).1) := by
      intro channel
      rw [isRing channel]
      exact if_pos ((ringCarries channel).written_eq (fits channel))
    rw [allChannels_eq_some each, Option.map_some]
  · intro channel
    refine
      ⟨_, rfl, (ringCarries channel).writeBuffer (fits channel), ?_⟩
    rw [RingBuffer.readPos_writeBuffer, start channel]

/-- Reading frames that are there, to where an `int` can hold the positions. -/
theorem read
    (carries : buffer.CarriesAll capacity written position readPos)
    (isInt : capacity < 2 ^ 31)
    {frames : Nat}
    (fits : 0 < count → readPos + frames < 2 ^ 31)
    (enough : ∀ channel, position + frames ≤ (written channel).length) :
    ∃ next,
      buffer.read frames =
          some
            (next, fun channel => window (written channel) position frames) ∧
        next.CarriesAll capacity written (position + frames)
          (RingBuffer.wrapPos capacity (readPos + frames)) := by
  choose ring isRing ringCarries start using carries
  have reads :=
    fun channel =>
      (ringCarries channel).readBuffer_of_fits isInt
        (by
          have := start channel
          have := fits channel.pos
          omega)
        (enough channel)
  choose target result isRead count copied moved next using reads
  refine ⟨⟨fun channel => some (target channel)⟩, ?_, ?_⟩
  · unfold AudioRingBuffer.read
    have each :
        ∀ channel,
          readChannel (buffer.buffers channel) frames =
            some
              (some (target channel),
                window (written channel) position frames) := by
      intro channel
      rw [isRing channel, ← copied channel]
      unfold readChannel
      dsimp only
      rw [isRead channel]
      exact if_pos (count channel)
    rw [allChannels_eq_some each, Option.map_some]
  · intro channel
    refine ⟨_, rfl, next channel, ?_⟩
    rw [moved channel, start channel]

/-- Reading them to where no `int` can hold the positions. -/
theorem read_of_overflow
    (carries : buffer.CarriesAll capacity written position readPos)
    (channel : Fin count)
    (isInt : capacity < 2 ^ 31)
    {frames : Nat}
    (overflow : 2 ^ 31 ≤ readPos + frames)
    (enough : position + frames ≤ (written channel).length) :
    buffer.read frames = none := by
  obtain ⟨ring, isRing, ringCarries, start⟩ := carries channel
  have fails :=
    ringCarries.readBuffer_of_overflow isInt (by omega) enough
  have missing :
      readChannel (buffer.buffers channel) frames = none := by
    rw [isRing]
    unfold readChannel
    dsimp only
    rw [fails]
    rfl
  unfold AudioRingBuffer.read
  rw [allChannels_eq_none missing, Option.map_none]

/-- Moving back over frames that the rings still hold. -/
theorem moveReadPositionBackward
    (carries : buffer.CarriesAll capacity written position readPos)
    (isInt : capacity < 2 ^ 31)
    {frames : Nat}
    (kept :
      ∀ channel,
        (written channel).length + frames ≤ position + capacity)
    (inStream : ∀ channel, position ≤ (written channel).length) :
    ∃ next,
      buffer.moveReadPositionBackward frames = some next ∧
        next.CarriesAll capacity written (position - frames)
          (RingBuffer.wrapPos capacity (readPos - frames)) := by
  choose ring isRing ringCarries start using carries
  have moves :=
    fun channel =>
      (ringCarries channel).moveReadPtr_back_of_int isInt (kept channel)
  choose target isMoved moved next using moves
  refine ⟨⟨fun channel => some (target channel)⟩, ?_, ?_⟩
  · unfold AudioRingBuffer.moveReadPositionBackward
    have each :
        ∀ channel,
          moveBackChannel (buffer.buffers channel) frames =
            some (some (target channel)) := by
      intro channel
      have few : frames ≤ capacity := by
        have := kept channel
        have := inStream channel
        omega
      rw [isRing channel]
      unfold moveBackChannel
      dsimp only
      rw [asInt_of_lt (by omega), checkedInt_of_bounds (by omega) (by omega),
        Option.bind_some, isMoved channel, Option.bind_some, Int.neg_neg,
        checkedInt_of_bounds (by omega) (by omega), Option.bind_some,
        asSize_of_nonneg (by omega) (by omega), Int.toNat_natCast]
      exact if_pos rfl
    rw [allChannels_eq_some each, Option.map_some]
  · intro channel
    refine ⟨_, rfl, next channel, ?_⟩
    rw [moved channel, start channel]

end CarriesAll

end AudioRingBuffer

end ApmSdk
