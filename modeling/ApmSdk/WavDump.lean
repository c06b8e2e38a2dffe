import ApmSdk.JavaArrays

namespace ApmSdk

/-!
# The WAV dump

`TestUtils.dumpWAVFile` opens the file at `PATH_WAV` on its first call and
writes a 44-byte header before any PCM is there; every call then appends its
buffer, and `releaseWav` closes the file.  The header is never written again.
-/

namespace WavDump

/-- The four bytes of a `long` field, the lowest first. -/
def littleEndianBytes (value : Int) : List UInt8 :=
  [byteOf (value % 2 ^ 8),
    byteOf (value / 2 ^ 8 % 2 ^ 8),
    byteOf (value / 2 ^ 16 % 2 ^ 8),
    byteOf (value / 2 ^ 24 % 2 ^ 8)]

/-- `TestUtils.writeWaveFileHeader`, as the bytes it writes. -/
def writeWaveFileHeader
    (totalAudioLen totalDataLen sampleRate channels byteRate : Int) :
    List UInt8 :=
  -- "RIFF"
  [0x52, 0x49, 0x46, 0x46] ++
  littleEndianBytes totalDataLen ++
  -- "WAVE" and "fmt "
  [0x57, 0x41, 0x56, 0x45, 0x66, 0x6D, 0x74, 0x20] ++
  -- the size of the format chunk and the PCM format
  [16, 0, 0, 0, 1, 0] ++
  [byteOf channels, 0] ++
  littleEndianBytes sampleRate ++
  littleEndianBytes byteRate ++
  [byteOf (((channels * 16).bmod (2 ^ 32)).tdiv 8), 0] ++
  [16, 0] ++
  -- "data"
  [0x64, 0x61, 0x74, 0x61] ++
  littleEndianBytes totalAudioLen

/-- The stream and the file it writes. -/
structure TestUtils where
  /-- Whether `mWavFos` is not null. -/
  mWavFos : Bool
  /-- The contents of the file at `PATH_WAV`, if there is one. -/
  pathWav : Option (List UInt8)
  deriving Repr, DecidableEq

/-- The arguments of one `dumpWAVFile` call. -/
structure DumpCall where
  buffer : List UInt8
  mSampleRate : Int
  mChannels : Int
  deriving Repr, DecidableEq

/-- `TestUtils.dumpWAVFile`. -/
def dumpWAVFile (utils : TestUtils) (call : DumpCall) : TestUtils :=
  let opened : TestUtils :=
    if utils.mWavFos then
      utils
    else
      -- a file left from before is deleted
      { mWavFos := true
        pathWav := some (writeWaveFileHeader
          (1024 * 1000 * 1000) (1024 * 1000 * 1000 + 36)
          call.mSampleRate call.mChannels 16) }
  { opened with
    pathWav := some (opened.pathWav.getD [] ++ call.buffer) }

/-- `TestUtils.releaseWav`. -/
def releaseWav (utils : TestUtils) : TestUtils :=
  { utils with mWavFos := false }

/-- A sequence of dumps and the release that ends it. -/
def recordWav (utils : TestUtils) (calls : List DumpCall) : TestUtils :=
  releaseWav (calls.foldl dumpWAVFile utils)

/-- The PCM bytes of a sequence of dumps. -/
def pcm (calls : List DumpCall) : List UInt8 :=
  calls.flatMap DumpCall.buffer

/-- What the header of a PCM WAV file says. -/
structure WavHeader where
  riffSize : Nat
  channels : Nat
  sampleRate : Nat
  byteRate : Nat
  blockAlign : Nat
  bitsPerSample : Nat
  dataSize : Nat
  deriving Repr, DecidableEq

/-- The bytes of a file from `start` on, `size` of them. -/
def slice (file : List UInt8) (start size : Nat) : List UInt8 :=
  (file.drop start).take size

/-- A little-endian field of a file. -/
def field (file : List UInt8) (start size : Nat) : Nat :=
  (slice file start size).foldr
    (fun byte higher => byte.toNat + 2 ^ 8 * higher) 0

/-- Read the header of a WAV file with one format and one data chunk. -/
def readHeader (file : List UInt8) : Option WavHeader :=
  if slice file 0 4 = [0x52, 0x49, 0x46, 0x46] ∧
      slice file 8 8 =
        [0x57, 0x41, 0x56, 0x45, 0x66, 0x6D, 0x74, 0x20] ∧
      field file 16 4 = 16 ∧
      field file 20 2 = 1 ∧
      slice file 36 4 = [0x64, 0x61, 0x74, 0x61] ∧
      44 ≤ file.length then
    some {
      riffSize := field file 4 4
      channels := field file 22 2
      sampleRate := field file 24 4
      byteRate := field file 28 4
      blockAlign := field file 32 2
      bitsPerSample := field file 34 2
      dataSize := field file 40 4
    }
  else
    none

/-- A file is a well-formed WAV of the given PCM bytes and parameters. -/
structure WellFormed
    (file samples : List UInt8)
    (sampleRate channels : Int)
    (header : WavHeader) : Prop where
  headed : readHeader file = some header
  samplesFollow : file.drop 44 = samples
  dataSize : header.dataSize = samples.length
  riffSize : header.riffSize = samples.length + 36
  byteRate :
    (header.byteRate : Int) =
      sampleRate * channels * (header.bitsPerSample / 8 : Nat)
  blockAlign :
    (header.blockAlign : Int) =
      channels * (header.bitsPerSample / 8 : Nat)

/-- The header that a recording starts with. -/
def recordedHeader (sampleRate channels : Int) : WavHeader where
  riffSize := 1024000036
  channels := (channels % 256).toNat
  sampleRate := (sampleRate % 2 ^ 32).toNat
  byteRate := 16
  blockAlign := ((((channels * 16).bmod (2 ^ 32)).tdiv 8) % 256).toNat
  bitsPerSample := 16
  dataSize := 1024000000

/-- The first call opens the file, so a recording is its header and its PCM. -/
theorem recordWav_cons
    (pathWav : Option (List UInt8))
    (first : DumpCall)
    (rest : List DumpCall) :
    (recordWav ⟨false, pathWav⟩ (first :: rest)).pathWav =
      some (writeWaveFileHeader 1024000000 1024000036
        first.mSampleRate first.mChannels 16 ++ pcm (first :: rest)) := by
  have appended
      (calls : List DumpCall)
      (file : List UInt8) :
      (calls.foldl dumpWAVFile ⟨true, some file⟩).pathWav =
        some (file ++ pcm calls) := by
    induction calls generalizing file with
    | nil =>
        simp [pcm]
    | cons call calls inductionHypothesis =>
        simp only [List.foldl_cons, dumpWAVFile, if_true,
          Option.getD_some, inductionHypothesis, pcm,
          List.flatMap_cons, List.append_assoc]
  simp only [recordWav, releaseWav, List.foldl_cons, dumpWAVFile,
    Bool.false_eq_true, if_false, Option.getD_some, appended, pcm,
    List.flatMap_cons, List.append_assoc]
  rfl

/-- The header of a recording is read back as it was written. -/
theorem readHeader_recorded
    (sampleRate channels : Int)
    (samples : List UInt8) :
    readHeader (writeWaveFileHeader 1024000000 1024000036
        sampleRate channels 16 ++ samples) =
      some (recordedHeader sampleRate channels) := by
  have rate :
      (sampleRate % 256).toNat + 256 * ((sampleRate / 256 % 256).toNat +
          256 * ((sampleRate / 65536 % 256).toNat +
            256 * (sampleRate / 16777216 % 256).toNat)) =
        (sampleRate % 2 ^ 32).toNat := by
    omega
  simp [readHeader, field, slice, writeWaveFileHeader,
    littleEndianBytes, rate, recordedHeader]

/-- The header takes the first 44 bytes of the file. -/
theorem drop_writeWaveFileHeader
    (totalAudioLen totalDataLen sampleRate channels byteRate : Int)
    (samples : List UInt8) :
    (writeWaveFileHeader totalAudioLen totalDataLen sampleRate channels
        byteRate ++ samples).drop 44 = samples := by
  simp [writeWaveFileHeader, littleEndianBytes]

/-- Eight samples a second over all channels leave few channel counts. -/
theorem mChannels_bounds
    {call : DumpCall}
    (eight : call.mSampleRate * call.mChannels = 8) :
    -8 ≤ call.mChannels ∧ call.mChannels ≤ 8 ∧ call.mChannels ≠ 0 := by
  have divides : call.mChannels ∣ 8 :=
    ⟨call.mSampleRate, by rw [Int.mul_comm, eight]⟩
  have above := Int.le_of_dvd (by decide) divides
  have below := Int.le_of_dvd (by decide) (Int.neg_dvd.mpr divides)
  refine ⟨by omega, above, ?_⟩
  intro zero
  simp [zero] at eight

/-- The block size of a few channels survives the casts. -/
theorem blockAlign_of_bounds
    {channels : Int}
    (lower : -8 ≤ channels)
    (upper : channels ≤ 8) :
    ((channels * 16).bmod (2 ^ 32)).tdiv 8 = channels * 2 := by
  rw [Int.bmod_eq_of_le (by omega) (by omega),
    show channels * 16 = channels * 2 * 8 by omega,
    Int.mul_tdiv_cancel _ (by decide)]

/-- The header of a recording, read with the parameters of one of its calls. -/
theorem wellFormed_recorded_iff
    (first call : DumpCall)
    (samples : List UInt8) :
    (∃ file header,
        some (writeWaveFileHeader 1024000000 1024000036
          first.mSampleRate first.mChannels 16 ++ samples) = some file ∧
          WellFormed file samples call.mSampleRate call.mChannels
            header) ↔
      samples.length = 1024000000 ∧
        call.mSampleRate * call.mChannels = 8 ∧
          (((((first.mChannels * 16).bmod (2 ^ 32)).tdiv 8) % 256).toNat
            : Int) = call.mChannels * 2 := by
  constructor
  · rintro ⟨file, header, same, wellFormed⟩
    obtain rfl := Option.some.inj same
    have headed := wellFormed.headed
    rw [readHeader_recorded] at headed
    obtain rfl := Option.some.inj headed
    have byteRate := wellFormed.byteRate
    have blockAlign := wellFormed.blockAlign
    simp only [recordedHeader] at byteRate blockAlign
    exact ⟨wellFormed.dataSize.symm, by omega, blockAlign⟩
  · rintro ⟨dataSize, byteRate, blockAlign⟩
    refine ⟨_, recordedHeader first.mSampleRate first.mChannels, rfl, ?_⟩
    exact {
      headed := readHeader_recorded _ _ samples
      samplesFollow := drop_writeWaveFileHeader _ _ _ _ _ samples
      dataSize := dataSize.symm
      riffSize := by
        rw [dataSize]
        rfl
      byteRate := by
        simp only [recordedHeader]
        omega
      blockAlign := by
        simp only [recordedHeader]
        omega
    }

/--
A recording is a well-formed WAV for the parameters of each of its calls exactly
when its PCM has the size that the header was made with before any of it was
written, and the parameters are the few that go with a byte rate of 16.
-/
theorem recordWav_wellFormed_iff
    (pathWav : Option (List UInt8))
    (calls : List DumpCall) :
    (∀ call ∈ calls, ∃ file header,
        (recordWav ⟨false, pathWav⟩ calls).pathWav = some file ∧
          WellFormed file (pcm calls) call.mSampleRate call.mChannels
            header) ↔
      ∀ call ∈ calls,
        (pcm calls).length = 1024000000 ∧
          call.mSampleRate * call.mChannels = 8 ∧
            0 < call.mChannels ∧
              ∀ other ∈ calls, other.mChannels = call.mChannels := by
  cases calls with
  | nil =>
      simp
  | cons first rest =>
      simp only [recordWav_cons, wellFormed_recorded_iff]
      constructor
      · intro wellFormed
        obtain ⟨_, eight, blockAlign⟩ := wellFormed first (by simp)
        obtain ⟨lower, upper, nonzero⟩ := mChannels_bounds eight
        rw [blockAlign_of_bounds lower upper] at wellFormed blockAlign
        have sameChannels :
            ∀ call ∈ first :: rest, call.mChannels = first.mChannels := by
          intro call member
          have callBlockAlign := (wellFormed call member).2.2
          omega
        intro call member
        have same := sameChannels call member
        refine ⟨(wellFormed call member).1,
          (wellFormed call member).2.1, by omega, ?_⟩
        intro other otherMember
        rw [sameChannels other otherMember, same]
      · intro condition call member
        obtain ⟨size, eight, positive, same⟩ := condition call member
        obtain ⟨lower, upper, _⟩ := mChannels_bounds eight
        have firstSame := same first (by simp)
        refine ⟨size, eight, ?_⟩
        rw [firstSame, blockAlign_of_bounds lower upper]
        omega

/-- One call with two bytes of 48 kHz mono PCM. -/
def shortCall : DumpCall where
  buffer := [1, 0]
  mSampleRate := 48000
  mChannels := 1

/-- Two bytes of 48 kHz mono PCM end up under a header that announces a
gigabyte at 16 bytes a second. -/
theorem recordWav_shortCall :
    ((recordWav ⟨false, none⟩ [shortCall]).pathWav.bind readHeader =
        some {
          riffSize := 1024000036
          channels := 1
          sampleRate := 48000
          byteRate := 16
          blockAlign := 2
          bitsPerSample := 16
          dataSize := 1024000000
        }) ∧
      ¬ ∃ file header,
        (recordWav ⟨false, none⟩ [shortCall]).pathWav = some file ∧
          WellFormed file (pcm [shortCall]) shortCall.mSampleRate
            shortCall.mChannels header := by
  rw [recordWav_cons]
  constructor
  · rw [Option.bind_some, readHeader_recorded]
    rfl
  · rw [wellFormed_recorded_iff]
    rintro ⟨size, _⟩
    simp [pcm, shortCall] at size

end WavDump

end ApmSdk
