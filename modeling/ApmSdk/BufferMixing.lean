import ApmSdk.BufferUtils

namespace ApmSdk.BufferUtils

/-!
# Mixing two streams

`BufferUtils.mix` comes twice: on shorts, scaling its first array by the volume of
the video and its second by that of the background music, and on bytes, which
passes the two arrays on to it.
-/

/-- The operations on `float` that the mix uses. -/
structure FloatOperations (Value : Type) where
  ofShort : Short → Value
  add : Value → Value → Value
  mul : Value → Value → Value
  /-- The cast to `int`. -/
  toInt : Value → Int32

/-- Arithmetic without rounding: the cast truncates, and stays in the `int` range. -/
def FloatOperations.exact : FloatOperations Rat where
  ofShort value := value.toInt
  add := (· + ·)
  mul := (· * ·)
  toInt value := Int32.ofIntClamp (value.num.tdiv value.den)

/-- `MIN_VALUE` -/
def minValue : Int32 :=
  -0x8000

/-- `MAX_VALUE` -/
def maxValue : Int32 :=
  0x7FFF

/-- The correction of a mixed value that is beyond the range of a short. -/
def correct (mixed : Int32) : Short :=
  if maxValue < mixed then
    maxValue.toInt16
  else if mixed < minValue then
    minValue.toInt16
  else
    mixed.toInt16

/-- `mVideoVolume` and `mBGMVolume` -/
structure Volumes (Value : Type) where
  mVideoVolume : Value
  mBGMVolume : Value
  deriving Repr, DecidableEq

section Mix

variable {Value : Type}
variable (float : FloatOperations Value)
variable (volumes : Volumes Value)

/-- A sample scaled for the video and one scaled for the music, added up. -/
def mixSample (video music : Short) : Short :=
  correct
    (float.toInt
      (float.add
        (float.mul (float.ofShort video) volumes.mVideoVolume)
        (float.mul (float.ofShort music) volumes.mBGMVolume)))

/-- The loop of `mix` from index `i` on, over this many samples of `srcShorts`. -/
def mixLoop
    (bgmShorts : List Short) :
    (count i : Nat) → (mixedShorts : List Short) →
      Except JavaThrowable (List Short)
  | 0, _, mixedShorts => .ok mixedShorts
  | count + 1, i, mixedShorts =>
      match mixedShorts[i]?, bgmShorts[i]? with
      | some video, some music =>
          mixLoop bgmShorts count (i + 1)
            (mixedShorts.set i (mixSample float volumes video music))
      | _, _ => .error .arrayIndexOutOfBounds

/-- The loop keeps the length of the array it writes. -/
theorem length_of_mixLoop
    {bgmShorts mixedShorts result : List Short}
    {count i : Nat}
    (mixed :
      mixLoop float volumes bgmShorts count i mixedShorts = .ok result) :
    result.length = mixedShorts.length := by
  induction count generalizing i mixedShorts with
  | zero =>
      cases mixed
      rfl
  | succ count inductionHypothesis =>
      unfold mixLoop at mixed
      split at mixed
      · exact (inductionHypothesis mixed).trans List.length_set
      · cases mixed

/-- `BufferUtils.mix(short[], short[])`, which overwrites its first array. -/
def mixShorts
    (srcShorts bgmShorts : ShortArray) :
    Except JavaThrowable ShortArray :=
  match mixed :
      mixLoop float volumes bgmShorts.values srcShorts.length 0
        srcShorts.values with
  | .ok mixedShorts =>
      .ok ⟨mixedShorts, by
        rw [length_of_mixLoop float volumes mixed]
        exact srcShorts.lengthFits⟩
  | .error thrown => .error thrown

/-- A reference the code goes on with as if it were not null. -/
def dereference
    {α : Type}
    (reference : Option α) : Except JavaThrowable α :=
  match reference with
  | some value => .ok value
  | none => .error .nullPointer

/-- `BufferUtils.mix(byte[], byte[])` -/
def mixBytes
    (nativeOrder : ByteOrder)
    (srcByte bgmByte : Option JavaBytes) :
    Except JavaThrowable (Option JavaBytes) :=
  match srcByte, bgmByte with
  | none, some bgmByte => .ok (some bgmByte)
  | some srcByte, none => .ok (some srcByte)
  | none, none => .ok none
  | some srcByte, some bgmByte => do
      let processData ←
        getBuffer nativeOrder (some (.wrap srcByte)) srcByte.values.length
      let (processDatashorts, _) ← dereference processData
      let dataSys ←
        getBuffer nativeOrder (some (.wrap bgmByte)) bgmByte.values.length
      let (dataSysshorts, _) ← dereference dataSys
      let processResult ←
        mixShorts float volumes dataSysshorts processDatashorts
      let byteBufferResult ← wrapBuffer nativeOrder processResult
      let bytes ← byteBufferResult.getBytes byteBufferResult.remaining
      .ok (some bytes)

/-- The loop mixes sample by sample while the second array lasts. -/
theorem mixLoop_of_le
    {bgmShorts mixedShorts : List Short}
    {count i : Nat}
    (whole : i + count = mixedShorts.length)
    (covered : mixedShorts.length ≤ bgmShorts.length) :
    mixLoop float volumes bgmShorts count i mixedShorts =
      .ok (mixedShorts.take i ++
        List.zipWith (mixSample float volumes)
          (mixedShorts.drop i) (bgmShorts.drop i)) := by
  induction count generalizing i mixedShorts with
  | zero =>
      have done : mixedShorts.length ≤ i := by
        omega
      simp [mixLoop, List.take_of_length_le done,
        List.drop_eq_nil_of_le done]
  | succ count inductionHypothesis =>
      have inVideo : i < mixedShorts.length := by
        omega
      have inMusic : i < bgmShorts.length := by
        omega
      unfold mixLoop
      simp only [List.getElem?_eq_getElem inVideo,
        List.getElem?_eq_getElem inMusic]
      rw [inductionHypothesis (by rw [List.length_set]; omega)
        (by rw [List.length_set]; exact covered)]
      congr 1
      rw [List.drop_eq_getElem_cons inVideo,
        List.drop_eq_getElem_cons inMusic, List.zipWith_cons_cons,
        List.drop_set_of_lt (Nat.lt_succ_self i)]
      rw [List.take_succ_eq_append_getElem (by simpa using inVideo),
        List.getElem_set_self, List.take_set_of_le (Nat.le_refl i),
        List.append_assoc]
      rfl

/-- The loop runs off the second array where that is shorter. -/
theorem mixLoop_of_lt
    {bgmShorts mixedShorts : List Short}
    {count i : Nat}
    (whole : i + count = mixedShorts.length)
    (before : i ≤ bgmShorts.length)
    (short : bgmShorts.length < mixedShorts.length) :
    mixLoop float volumes bgmShorts count i mixedShorts =
      .error .arrayIndexOutOfBounds := by
  induction count generalizing i mixedShorts with
  | zero =>
      omega
  | succ count inductionHypothesis =>
      unfold mixLoop
      by_cases inMusic : i < bgmShorts.length
      · have inVideo : i < mixedShorts.length := by
          omega
        simp only [List.getElem?_eq_getElem inVideo,
          List.getElem?_eq_getElem inMusic]
        exact inductionHypothesis (by rw [List.length_set]; omega)
          inMusic (by rw [List.length_set]; exact short)
      · have ended : bgmShorts[i]? = none :=
          List.getElem?_eq_none (Nat.le_of_not_lt inMusic)
        rw [ended]
        cases mixedShorts[i]? <;>
          rfl

/-- A wrapped array gives its shorts. -/
theorem getBuffer_wrap
    (nativeOrder : ByteOrder)
    (array : JavaBytes) :
    ∃ shorts buffer,
      getBuffer nativeOrder (some (.wrap array)) array.values.length =
          .ok (some (shorts, buffer)) ∧
        shorts.values = nativeOrder.decode array.values := by
  have fits := array.lengthFits
  have half :
      (array.values.length : Int).tdiv 2 = (array.values.length / 2 : Nat) :=
    rfl
  have small : array.values.length / 2 < 2 ^ 31 := by
    omega
  have room :
      array.values.length / 2 ≤
        ((ByteBuffer.wrap array).setOrder nativeOrder).remaining / 2 :=
    Nat.le_refl _
  simp only [getBuffer, half]
  rw [ShortArray.allocate_of_lt small, Except.ok_bind,
    ByteBuffer.getShorts, if_pos (by simpa using room), Except.ok_bind]
  refine ⟨_, _, rfl, ?_⟩
  simp only [ByteBuffer.setOrder, ByteBuffer.wrap, List.drop_zero,
    ShortArray.length, List.length_replicate]
  exact List.take_of_length_le (by simp)

/-- Arrays of which the second covers the first are mixed sample by sample. -/
theorem mixShorts_of_le
    {srcShorts bgmShorts : ShortArray}
    (covered : srcShorts.length ≤ bgmShorts.length) :
    ∃ mixed,
      mixShorts float volumes srcShorts bgmShorts = .ok mixed ∧
        mixed.values =
          List.zipWith (mixSample float volumes)
            srcShorts.values bgmShorts.values := by
  have looped :=
    mixLoop_of_le float volumes (Nat.zero_add srcShorts.values.length) covered
  rw [List.take_zero, List.nil_append, List.drop_zero,
    List.drop_zero] at looped
  unfold mixShorts
  split
  · next mixedShorts mixed =>
      refine ⟨_, rfl, ?_⟩
      exact Except.ok.inj (mixed.symm.trans looped)
  · next thrown mixed =>
      exact absurd (mixed.symm.trans looped) (by simp)

/-- Arrays of which the second is shorter make the mix throw. -/
theorem mixShorts_of_lt
    {srcShorts bgmShorts : ShortArray}
    (short : bgmShorts.length < srcShorts.length) :
    mixShorts float volumes srcShorts bgmShorts =
      .error .arrayIndexOutOfBounds := by
  have looped :=
    mixLoop_of_lt float volumes (Nat.zero_add srcShorts.values.length)
      (Nat.zero_le _) short
  unfold mixShorts
  split
  · next mixedShorts mixed =>
      exact absurd (mixed.symm.trans looped) (by simp)
  · next thrown mixed =>
      exact congrArg Except.error
        (Except.error.inj (mixed.symm.trans looped))

variable (nativeOrder : ByteOrder)

/-- The mix scales the music for the video and the video for the music. -/
theorem mixBytes_of_le
    {src bgm : JavaBytes}
    (covered :
      (nativeOrder.decode bgm.values).length ≤
        (nativeOrder.decode src.values).length) :
    ∃ bytes,
      mixBytes float volumes nativeOrder (some src) (some bgm) =
          .ok (some bytes) ∧
        bytes.values =
          nativeOrder.encode
            (List.zipWith (mixSample float volumes)
              (nativeOrder.decode bgm.values)
              (nativeOrder.decode src.values)) := by
  obtain ⟨video, videoBuffer, videoRead, videoValues⟩ :=
    getBuffer_wrap nativeOrder src
  obtain ⟨music, musicBuffer, musicRead, musicValues⟩ :=
    getBuffer_wrap nativeOrder bgm
  have enough : music.length ≤ video.length := by
    simpa [videoValues, musicValues] using covered
  obtain ⟨mixed, looped, mixedValues⟩ :=
    mixShorts_of_le float volumes enough
  have few : mixed.length < 2 ^ 30 := by
    have fits := bgm.lengthFits
    rw [ShortArray.length, mixedValues, List.length_zipWith, musicValues,
      ByteOrder.length_decode]
    omega
  obtain ⟨returned, wrapped, holds, bytes⟩ :=
    wrapBuffer_of_lt nativeOrder few
  have all :
      returned.remaining = (nativeOrder.encode mixed.values).length := by
    rw [ByteBuffer.remaining, holds.position, holds.limit,
      ByteOrder.length_encode]
    rfl
  refine ⟨⟨nativeOrder.encode mixed.values, ?_⟩, ?_, ?_⟩
  · rw [ByteOrder.length_encode]
    simp only [ShortArray.length] at few
    omega
  · simp only [mixBytes, dereference]
    rw [videoRead, Except.ok_bind, Except.ok_bind, musicRead,
      Except.ok_bind, Except.ok_bind]
    simp only []
    rw [looped, Except.ok_bind, wrapped, Except.ok_bind,
      ByteBuffer.getBytes, if_pos (Nat.le_refl _), Except.ok_bind]
    simp only [holds.position, List.drop_zero, bytes, all,
      List.take_length]
  · exact congrArg nativeOrder.encode
      (by rw [mixedValues, musicValues, videoValues])

/-- The mix throws where the first array has fewer samples. -/
theorem mixBytes_of_lt
    {src bgm : JavaBytes}
    (short :
      (nativeOrder.decode src.values).length <
        (nativeOrder.decode bgm.values).length) :
    mixBytes float volumes nativeOrder (some src) (some bgm) =
      .error .arrayIndexOutOfBounds := by
  obtain ⟨video, videoBuffer, videoRead, videoValues⟩ :=
    getBuffer_wrap nativeOrder src
  obtain ⟨music, musicBuffer, musicRead, musicValues⟩ :=
    getBuffer_wrap nativeOrder bgm
  have fewer : video.length < music.length := by
    simpa [videoValues, musicValues] using short
  have looped := mixShorts_of_lt float volumes fewer
  simp only [mixBytes, dereference]
  rw [videoRead, Except.ok_bind, Except.ok_bind, musicRead,
    Except.ok_bind, Except.ok_bind]
  simp only []
  rw [looped, Except.error_bind]

/-- The mix as it should be: the shorter stream goes on in zeros. -/
def paddedMix (src bgm : List Short) : List Short :=
  (List.range (max src.length bgm.length)).map fun i =>
    mixSample float volumes (src.getD i 0) (bgm.getD i 0)

/-- The mix of the two arrays returns their padded mix. -/
def Mixes (src bgm : JavaBytes) : Prop :=
  ∃ bytes,
    mixBytes float volumes nativeOrder (some src) (some bgm) =
        .ok (some bytes) ∧
      nativeOrder.decode bytes.values =
        paddedMix float volumes
          (nativeOrder.decode src.values) (nativeOrder.decode bgm.values)

/--
As many whole samples in one array as in the other, each pair of which mixes to
the same value with the two volumes exchanged.
-/
def Interchangeable (src bgm : List Short) : Prop :=
  src.length = bgm.length ∧
    ∀ pair ∈ src.zip bgm,
      mixSample float volumes pair.2 pair.1 =
        mixSample float volumes pair.1 pair.2

/-- Streams of one length need no padding. -/
theorem paddedMix_of_length_eq
    {src bgm : List Short}
    (same : src.length = bgm.length) :
    paddedMix float volumes src bgm =
      List.zipWith (mixSample float volumes) src bgm := by
  apply List.ext_getElem
  · simp [paddedMix, same]
  · intro i inPadded inMixed
    have inSrc : i < src.length := by
      simp only [List.length_zipWith] at inMixed
      omega
    have inBgm : i < bgm.length := same ▸ inSrc
    simp [paddedMix, List.getElem?_eq_getElem inSrc,
      List.getElem?_eq_getElem inBgm]

/-- Two ways of mixing agree exactly if they agree on every pair of samples. -/
theorem zipWith_swap_eq_iff
    (src bgm : List Short) :
    List.zipWith (mixSample float volumes) bgm src =
        List.zipWith (mixSample float volumes) src bgm ↔
      ∀ pair ∈ src.zip bgm,
        mixSample float volumes pair.2 pair.1 =
          mixSample float volumes pair.1 pair.2 := by
  induction src generalizing bgm with
  | nil =>
      simp
  | cons video src inductionHypothesis =>
      cases bgm with
      | nil =>
          simp
      | cons music bgm =>
          simp [inductionHypothesis]

/-- The byte mix is right exactly for interchangeable arrays. -/
theorem mixBytes_mixes_iff
    (src bgm : JavaBytes) :
    Mixes float volumes nativeOrder src bgm ↔
      Interchangeable float volumes
        (nativeOrder.decode src.values) (nativeOrder.decode bgm.values) := by
  by_cases covered :
      (nativeOrder.decode bgm.values).length ≤
        (nativeOrder.decode src.values).length
  · obtain ⟨bytes, mixed, values⟩ :=
      mixBytes_of_le float volumes nativeOrder covered
    have decoded :
        nativeOrder.decode bytes.values =
          List.zipWith (mixSample float volumes)
            (nativeOrder.decode bgm.values)
            (nativeOrder.decode src.values) := by
      have read :=
        nativeOrder.decode_encode_append
          (List.zipWith (mixSample float volumes)
            (nativeOrder.decode bgm.values)
            (nativeOrder.decode src.values)) []
      rw [List.append_nil] at read
      rw [values, read]
      exact List.append_nil _
    have returned :
        Mixes float volumes nativeOrder src bgm ↔
          List.zipWith (mixSample float volumes)
              (nativeOrder.decode bgm.values)
              (nativeOrder.decode src.values) =
            paddedMix float volumes
              (nativeOrder.decode src.values)
              (nativeOrder.decode bgm.values) := by
      rw [Mixes, mixed, ← decoded]
      simp
    rw [returned]
    constructor
    · intro same
      have lengths := congrArg List.length same
      have equal :
          (nativeOrder.decode src.values).length =
            (nativeOrder.decode bgm.values).length := by
        simp only [paddedMix, List.length_zipWith, List.length_map,
          List.length_range] at lengths
        omega
      rw [paddedMix_of_length_eq float volumes equal] at same
      exact ⟨equal, (zipWith_swap_eq_iff float volumes _ _).mp same⟩
    · rintro ⟨equal, pairs⟩
      rw [paddedMix_of_length_eq float volumes equal]
      exact (zipWith_swap_eq_iff float volumes _ _).mpr pairs
  · refine iff_of_false ?_ fun same => covered (Nat.le_of_eq same.1.symm)
    rintro ⟨bytes, mixed, -⟩
    rw [mixBytes_of_lt float volumes nativeOrder
      (Nat.lt_of_not_le covered)] at mixed
    cases mixed

/-- With one volume for both streams only the numbers of samples matter. -/
theorem mixes_iff_of_sameVolume
    (commutes : ∀ x y, float.add x y = float.add y x)
    (sameVolume : volumes.mVideoVolume = volumes.mBGMVolume)
    (src bgm : JavaBytes) :
    Mixes float volumes nativeOrder src bgm ↔
      src.values.length / 2 = bgm.values.length / 2 := by
  rw [mixBytes_mixes_iff]
  simp only [Interchangeable, ByteOrder.length_decode, and_iff_left_iff_imp]
  intro _ pair _
  simp only [mixSample, sameVolume]
  rw [commutes]

end Mix

/-- A full volume for the video and a half for the music. -/
def videoFirst : Volumes Rat where
  mVideoVolume := 1
  mBGMVolume := 1 / 2

/--
A video sample of two and a music sample of four should give four and give five; a
music sample more makes the mix throw.
-/
theorem mixBytes_exchanges_volumes :
    ¬ Mixes .exact videoFirst .littleEndian
        ⟨[2, 0], by decide⟩ ⟨[4, 0], by decide⟩ ∧
      mixBytes .exact videoFirst .littleEndian
          (some ⟨[2, 0], by decide⟩) (some ⟨[4, 0], by decide⟩) =
        .ok (some ⟨[5, 0], by decide⟩) ∧
      mixBytes .exact videoFirst .littleEndian
          (some ⟨[2, 0], by decide⟩) (some ⟨[4, 0, 6, 0], by decide⟩) =
        .error .arrayIndexOutOfBounds := by
  have mixed :
      mixBytes .exact videoFirst .littleEndian
          (some ⟨[2, 0], by decide⟩) (some ⟨[4, 0], by decide⟩) =
        .ok (some ⟨[5, 0], by decide⟩) := by
    decide +kernel
  refine ⟨?_, mixed, by decide +kernel⟩
  rintro ⟨bytes, returned, values⟩
  rw [mixed] at returned
  cases returned
  exact absurd values (by decide +kernel)

end ApmSdk.BufferUtils
