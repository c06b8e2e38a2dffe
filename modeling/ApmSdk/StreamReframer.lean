import ApmSdk.FixedFrames
import ApmSdk.JavaArrays

namespace ApmSdk.StreamReframer

/-!
# The demo's 10 ms re-framer

`MainActivity.processStream` cuts the recorded (near) and decoded (far)
samples of one call into frames of `sampleRate / 100` samples and hands them
to the native processing object, near frame first.  Samples that do not fill a
frame are kept in `mRightSrcData` and `mRightBGMData` until the next call.

The frames handed over are logged in order; what the native code does with
them cannot reach the re-framer's fields.
-/

/-- The re-framer's fields, with the frames it has handed to the `Apm` object. -/
structure Session where
  mRightSrcData : Option ShortArray
  mRightBGMData : Option ShortArray
  nearFrames : List (List Short)
  farFrames : List (List Short)
  deriving Repr, DecidableEq

/-- The activity's fields before the first call. -/
def initialSession : Session where
  mRightSrcData := none
  mRightBGMData := none
  nearFrames := []
  farFrames := []

/-- Samples a residual field stands for: `null` stands for none. -/
def residual : Option ShortArray → List Short
  | none => []
  | some data => data.values

/-- Put the samples kept from the previous call in front of the new ones. -/
def merge
    (leftData : Option ShortArray)
    (srcData : ShortArray) : Except JavaThrowable ShortArray :=
  match leftData with
  | none => .ok srcData
  | some leftData =>
      if leftData.length = 0 then
        .ok srcData
      else do
        let merged ←
          ShortArray.allocate ((leftData.length + srcData.length : Nat) : Int)
        let merged ←
          ShortArray.arraycopy leftData 0 merged 0 leftData.length
        ShortArray.arraycopy
          srcData 0 merged leftData.length srcData.length

/-- The samples behind the last whole frame. -/
def getSRCRight
    (mergeShort : ShortArray)
    (loopCount sampleRate10ms : Nat) :
    Except JavaThrowable ShortArray := do
  let rest : Int := mergeShort.length - (loopCount * sampleRate10ms : Nat)
  let data ← ShortArray.allocate rest
  ShortArray.arraycopy
    mergeShort (loopCount * sampleRate10ms) data 0 rest.toNat

/-- Copy frame number `index` into a fresh array. -/
def copyFrame
    (mergeShort : ShortArray)
    (index sampleRate10ms : Nat) :
    Except JavaThrowable ShortArray := do
  let shorts ← ShortArray.allocate (sampleRate10ms : Int)
  ShortArray.arraycopy
    mergeShort (index * sampleRate10ms) shorts 0 sampleRate10ms

/--
The frame loop, with `remaining` iterations left from `index` on.  The near
frame of an iteration is handed over before the far frame is copied.
-/
def frameLoop
    (sampleRate10ms : Nat)
    (mergeShort mergeBGMShort : ShortArray) :
    (remaining index : Nat) →
      Session → Session × Option JavaThrowable
  | 0, _, session => (session, none)
  | remaining + 1, index, session =>
      match copyFrame mergeShort index sampleRate10ms with
      | .error thrown => (session, some thrown)
      | .ok shorts =>
          let session :=
            { session with
              nearFrames := session.nearFrames ++ [shorts.values] }
          match copyFrame mergeBGMShort index sampleRate10ms with
          | .error thrown => (session, some thrown)
          | .ok bgmShorts =>
              frameLoop sampleRate10ms mergeShort mergeBGMShort
                remaining (index + 1)
                { session with
                  farFrames := session.farFrames ++ [bgmShorts.values] }

/-- `MainActivity.processStream`, with the exception it ends in, if any. -/
def processStream
    (sampleRate : Nat)
    (srcShort bgmShort : ShortArray)
    (session : Session) : Session × Option JavaThrowable :=
  let sampleRate10ms := sampleRate / 100
  match merge session.mRightSrcData srcShort with
  | .error thrown => (session, some thrown)
  | .ok mergeShort =>
      if sampleRate10ms = 0 then
        (session, some .arithmetic)
      else
        let loopCount := mergeShort.length / sampleRate10ms
        let session := { session with mRightSrcData := none }
        match merge session.mRightBGMData bgmShort with
        | .error thrown => (session, some thrown)
        | .ok mergeBGMShort =>
            let session := { session with mRightBGMData := none }
            match frameLoop sampleRate10ms mergeShort mergeBGMShort
                loopCount 0 session with
            | (session, some thrown) => (session, some thrown)
            | (session, none) =>
                match getSRCRight mergeShort loopCount
                    sampleRate10ms with
                | .error thrown => (session, some thrown)
                | .ok data =>
                    let session :=
                      { session with mRightSrcData := some data }
                    match getSRCRight mergeBGMShort loopCount
                        sampleRate10ms with
                    | .error thrown => (session, some thrown)
                    | .ok data =>
                        ({ session with mRightBGMData := some data },
                          none)

/-! ## What each array operation returns -/

/-- A frame inside the merged array is copied unchanged. -/
theorem copyFrame_of_le
    (mergeShort : ShortArray)
    {index sampleRate10ms : Nat}
    (inBounds :
      (index + 1) * sampleRate10ms ≤ mergeShort.values.length) :
    ∃ shorts,
      copyFrame mergeShort index sampleRate10ms = .ok shorts ∧
        shorts.values =
          (mergeShort.values.drop (index * sampleRate10ms)).take
            sampleRate10ms :=
  ShortArray.allocate_arraycopy mergeShort
    (by rwa [← Nat.succ_mul])

/-- Only a frame that lies inside the merged array can be copied. -/
theorem le_of_copyFrame
    {mergeShort shorts : ShortArray}
    {index sampleRate10ms : Nat}
    (copied :
      copyFrame mergeShort index sampleRate10ms = .ok shorts) :
    (index + 1) * sampleRate10ms ≤ mergeShort.values.length := by
  obtain ⟨fresh, -, framed⟩ := Except.bind_eq_ok.mp copied
  by_contra outside
  rw [Nat.succ_mul, Nat.not_le] at outside
  simp only [ShortArray.arraycopy_of_lt outside, reduceCtorEq]
    at framed

/-- The residual of a whole number of frames is the rest of the merged array. -/
theorem getSRCRight_of_le
    (mergeShort : ShortArray)
    {loopCount sampleRate10ms : Nat}
    (inBounds :
      loopCount * sampleRate10ms ≤ mergeShort.values.length) :
    ∃ data,
      getSRCRight mergeShort loopCount sampleRate10ms = .ok data ∧
        data.values =
          mergeShort.values.drop (loopCount * sampleRate10ms) := by
  have restValue :
      (mergeShort.length : Int) - (loopCount * sampleRate10ms : Nat) =
        ((mergeShort.values.length - loopCount * sampleRate10ms : Nat) :
          Int) := by
    simp only [ShortArray.length]
    omega
  have restInBounds :
      loopCount * sampleRate10ms +
          (mergeShort.values.length - loopCount * sampleRate10ms) ≤
        mergeShort.values.length := by
    omega
  obtain ⟨data, copied, values⟩ :=
    ShortArray.allocate_arraycopy mergeShort restInBounds
  refine ⟨data, ?_, ?_⟩
  · simp only [getSRCRight, restValue, Int.toNat_natCast]
    exact copied
  · rw [values]
    apply List.take_of_length_le
    simp

/-- Merging succeeds while the merged length stays in the `int` range. -/
theorem merge_of_lt
    {leftData : Option ShortArray}
    {srcData : ShortArray}
    (fits :
      (residual leftData).length + srcData.values.length < 2 ^ 31) :
    ∃ merged,
      merge leftData srcData = .ok merged ∧
        merged.values = residual leftData ++ srcData.values := by
  cases leftData with
  | none =>
      exact ⟨srcData, rfl, rfl⟩
  | some leftData =>
      simp only [residual] at fits ⊢
      by_cases empty : leftData.values.length = 0
      · refine ⟨srcData, by simp [merge, empty], ?_⟩
        simp [List.length_eq_zero_iff.mp empty]
      · obtain ⟨half, leftCopied, halfValues⟩ :=
          ShortArray.arraycopy_of_le leftData 0
            ⟨List.replicate
              (leftData.values.length + srcData.values.length) 0,
              by simpa using fits⟩
            0 leftData.values.length (by simp) (by simp)
        obtain ⟨merged, srcCopied, mergedValues⟩ :=
          ShortArray.arraycopy_of_le srcData 0 half
            leftData.values.length srcData.values.length
            (by simp) (by simp [halfValues])
        refine ⟨merged, ?_, ?_⟩
        · simp only [merge, ShortArray.length, empty, if_false,
            ShortArray.allocate_of_lt fits, Except.ok_bind,
            leftCopied, srcCopied]
        · simp [mergedValues, halfValues]

/-- Merging throws once the merged length leaves the `int` range. -/
theorem merge_of_le
    {leftData : Option ShortArray}
    {srcData : ShortArray}
    (overflow :
      2 ^ 31 ≤ (residual leftData).length + srcData.values.length) :
    merge leftData srcData = .error .negativeArraySize := by
  have srcFits := srcData.lengthFits
  cases leftData with
  | none =>
      simp only [residual, List.length_nil] at overflow
      omega
  | some leftData =>
      have leftFits := leftData.lengthFits
      simp only [residual] at overflow
      have notEmpty : leftData.values.length ≠ 0 := by
        omega
      simp only [merge, ShortArray.length, notEmpty, if_false,
        ShortArray.allocate_of_overflow overflow (by omega),
        Except.error_bind]

/-- A merge that returns did not overflow and put the residual first. -/
theorem values_of_merge
    {leftData : Option ShortArray}
    {srcData merged : ShortArray}
    (returned : merge leftData srcData = .ok merged) :
    (residual leftData).length + srcData.values.length < 2 ^ 31 ∧
      merged.values = residual leftData ++ srcData.values := by
  by_cases fits :
      (residual leftData).length + srcData.values.length < 2 ^ 31
  · obtain ⟨expected, merges, values⟩ := merge_of_lt fits
    obtain rfl : expected = merged := by
      simpa [merges] using returned
    exact ⟨fits, values⟩
  · rw [merge_of_le (Nat.not_lt.mp fits)] at returned
    contradiction

/-! ## The frames of one call -/

/-- While both merged arrays cover the loop, it hands over all their frames. -/
theorem frameLoop_of_le
    {sampleRate10ms : Nat}
    {mergeShort mergeBGMShort : ShortArray}
    (remaining index : Nat)
    (nearInBounds :
      (index + remaining) * sampleRate10ms ≤
        mergeShort.values.length)
    (farInBounds :
      (index + remaining) * sampleRate10ms ≤
        mergeBGMShort.values.length)
    (session : Session) :
    frameLoop sampleRate10ms mergeShort mergeBGMShort
        remaining index session =
      ({ session with
          nearFrames :=
            session.nearFrames ++
              frames sampleRate10ms mergeShort.values
                remaining index
          farFrames :=
            session.farFrames ++
              frames sampleRate10ms mergeBGMShort.values
                remaining index },
        none) := by
  induction remaining generalizing index session with
  | zero =>
      simp [frameLoop, frames]
  | succ remaining inductionHypothesis =>
      have shift :
          index + (remaining + 1) = index + 1 + remaining := by
        omega
      have first :
          (index + 1) * sampleRate10ms ≤
            (index + 1 + remaining) * sampleRate10ms :=
        Nat.mul_le_mul_right _ (by omega)
      rw [shift] at nearInBounds farInBounds
      obtain ⟨shorts, nearCopied, nearValues⟩ :=
        copyFrame_of_le mergeShort (Nat.le_trans first nearInBounds)
      obtain ⟨bgmShorts, farCopied, farValues⟩ :=
        copyFrame_of_le mergeBGMShort (Nat.le_trans first farInBounds)
      simp only [frameLoop, nearCopied, farCopied,
        inductionHypothesis _ nearInBounds farInBounds, frames,
        nearValues, farValues, List.append_assoc,
        List.singleton_append]

/-- A loop that ends without an exception found all its far frames. -/
theorem le_of_frameLoop
    {sampleRate10ms : Nat}
    {mergeShort mergeBGMShort : ShortArray}
    {remaining index : Nat}
    {session : Session}
    (covered :
      index * sampleRate10ms ≤ mergeBGMShort.values.length)
    (returned :
      (frameLoop sampleRate10ms mergeShort mergeBGMShort
        remaining index session).2 = none) :
    (index + remaining) * sampleRate10ms ≤
      mergeBGMShort.values.length := by
  induction remaining generalizing index session with
  | zero =>
      simpa using covered
  | succ remaining inductionHypothesis =>
      cases nearCopied :
          copyFrame mergeShort index sampleRate10ms with
      | error thrown =>
          simp [frameLoop, nearCopied] at returned
      | ok shorts =>
          cases farCopied :
              copyFrame mergeBGMShort index sampleRate10ms with
          | error thrown =>
              simp [frameLoop, nearCopied, farCopied] at returned
          | ok bgmShorts =>
              simp only [frameLoop, nearCopied, farCopied]
                at returned
              have later :=
                inductionHypothesis (le_of_copyFrame farCopied)
                  returned
              rwa [Nat.add_right_comm, Nat.add_assoc] at later

/-! ## One whole call -/

/-- A call whose far samples cover the near loop keeps every sample. -/
theorem processStream_of_le
    {sampleRate : Nat}
    {srcShort bgmShort near far : ShortArray}
    {session : Session}
    (positive : sampleRate / 100 ≠ 0)
    (nearMerged : merge session.mRightSrcData srcShort = .ok near)
    (farMerged : merge session.mRightBGMData bgmShort = .ok far)
    (farCovered :
      near.values.length / (sampleRate / 100) * (sampleRate / 100) ≤
        far.values.length) :
    ∃ nearRest farRest,
      processStream sampleRate srcShort bgmShort session =
        ({ mRightSrcData := some nearRest
           mRightBGMData := some farRest
           nearFrames :=
             session.nearFrames ++
               frames (sampleRate / 100) near.values
                 (near.values.length / (sampleRate / 100)) 0
           farFrames :=
             session.farFrames ++
               frames (sampleRate / 100) far.values
                 (near.values.length / (sampleRate / 100)) 0 },
          none) ∧
      nearRest.values =
        near.values.drop
          (near.values.length / (sampleRate / 100) *
            (sampleRate / 100)) ∧
      farRest.values =
        far.values.drop
          (near.values.length / (sampleRate / 100) *
            (sampleRate / 100)) := by
  have nearCovered :
      near.values.length / (sampleRate / 100) * (sampleRate / 100) ≤
        near.values.length :=
    Nat.div_mul_le_self ..
  obtain ⟨nearRest, nearKept, nearValues⟩ :=
    getSRCRight_of_le near nearCovered
  obtain ⟨farRest, farKept, farValues⟩ :=
    getSRCRight_of_le far farCovered
  refine ⟨nearRest, farRest, ?_, nearValues, farValues⟩
  have loop :=
    frameLoop_of_le
      (near.values.length / (sampleRate / 100)) 0
      (by simpa using nearCovered) (by simpa using farCovered)
      { session with mRightSrcData := none, mRightBGMData := none }
  simp only [processStream, nearMerged, positive, if_false,
    ShortArray.length, farMerged, loop, nearKept, farKept]

/-- A call returns only if nothing overflowed and the far samples sufficed. -/
theorem le_of_processStream
    {sampleRate : Nat}
    {srcShort bgmShort : ShortArray}
    {session : Session}
    (returned :
      (processStream sampleRate srcShort bgmShort session).2 = none) :
    sampleRate / 100 ≠ 0 ∧
      ∃ near far,
        merge session.mRightSrcData srcShort = .ok near ∧
          merge session.mRightBGMData bgmShort = .ok far ∧
            near.values.length / (sampleRate / 100) *
                (sampleRate / 100) ≤
              far.values.length := by
  cases nearMerged : merge session.mRightSrcData srcShort with
  | error thrown =>
      simp [processStream, nearMerged] at returned
  | ok near =>
      by_cases positive : sampleRate / 100 = 0
      · simp [processStream, nearMerged, positive] at returned
      · cases farMerged : merge session.mRightBGMData bgmShort with
        | error thrown =>
            simp [processStream, nearMerged, positive, farMerged]
              at returned
        | ok far =>
            refine ⟨positive, near, far, rfl, rfl, ?_⟩
            cases looped :
                frameLoop (sampleRate / 100) near far
                  (near.values.length / (sampleRate / 100)) 0
                  { session with
                    mRightSrcData := none
                    mRightBGMData := none } with
            | mk session thrown =>
                cases thrown with
                | some thrown =>
                    simp [processStream, nearMerged, positive,
                      farMerged, looped] at returned
                | none =>
                    have covered :=
                      le_of_frameLoop (by simp)
                        (congrArg Prod.snd looped)
                    simpa using covered

/--
The calls that return: frames are not empty, neither merged array overflows,
and the far samples waiting cover the frames the near samples make up.
-/
structure Covered
    (sampleRate : Nat)
    (session : Session)
    (srcShort bgmShort : ShortArray) : Prop where
  positive : sampleRate / 100 ≠ 0
  nearFits :
    (residual session.mRightSrcData).length +
      srcShort.values.length < 2 ^ 31
  farFits :
    (residual session.mRightBGMData).length +
      bgmShort.values.length < 2 ^ 31
  farCovers :
    ((residual session.mRightSrcData).length +
          srcShort.values.length) /
        (sampleRate / 100) * (sampleRate / 100) ≤
      (residual session.mRightBGMData).length +
        bgmShort.values.length

/-- A call returns without an exception exactly if it is covered. -/
theorem processStream_returns_iff
    {sampleRate : Nat}
    {srcShort bgmShort : ShortArray}
    {session : Session} :
    (processStream sampleRate srcShort bgmShort session).2 = none ↔
      Covered sampleRate session srcShort bgmShort := by
  constructor
  · intro returned
    obtain ⟨positive, near, far, nearMerged, farMerged, covered⟩ :=
      le_of_processStream returned
    obtain ⟨nearFits, nearValues⟩ := values_of_merge nearMerged
    obtain ⟨farFits, farValues⟩ := values_of_merge farMerged
    refine ⟨positive, nearFits, farFits, ?_⟩
    simpa only [nearValues, farValues, List.length_append]
      using covered
  · intro covered
    obtain ⟨near, nearMerged, nearValues⟩ :=
      merge_of_lt covered.nearFits
    obtain ⟨far, farMerged, farValues⟩ := merge_of_lt covered.farFits
    obtain ⟨nearRest, farRest, called, -, -⟩ :=
      processStream_of_le covered.positive nearMerged farMerged
        (by
          simpa only [nearValues, farValues, List.length_append]
            using covered.farCovers)
    rw [called]

end ApmSdk.StreamReframer
