import ApmSdk.RecordLoop

namespace ApmSdk.RecordLoop

open StreamReframer (Covered processStream processStream_returns_iff)

/-!
# What the record loop makes of the decoded chunks

The loop serves the decoder if the far inputs of its calls are the decoded
chunks, one call each and in decoding order, and if the near samples of an
iteration are those the microphone reported.  Every step of either thread that
keeps this is described exactly.
-/

/--
The two threads so far: calls have taken a beginning of the decoded chunks,
each once and with its own samples, and what is left can still be taken.  A
chunk that has been overwritten, or that waits when the loop has ended, cannot.
-/
structure Served (recorder : Recorder) : Prop where
  inOrder :
    ∀ (position : Nat) (far : FarInput),
      recorder.farTaken[position]? = some far →
      far.index = position ∧
        recorder.decoded[position]?.map asShortBuffer =
          some far.samples.values
  oneWaiting :
    recorder.decoded.length ≤ recorder.farTaken.length + 1
  noneLeft :
    recorder.point = .finished →
    recorder.decoded.length ≤ recorder.farTaken.length
  nearReported :
    ∀ iteration ∈ recorder.iterations,
      iteration.near.values = asShortBuffer iteration.reported

/-- What holds of the slot and the calls in every run. -/
structure Consistent (recorder : Recorder) : Prop where
  slotNewest :
    ∀ chunk,
      recorder.bgmData = some chunk →
      recorder.decoded.length = chunk.index + 1 ∧
        recorder.decoded[chunk.index]? = some chunk.bytes
  slotKept :
    ∀ near,
      recorder.point = .wrapSlot near ∨
        recorder.point = .readSlot near →
      recorder.bgmData ≠ none
  samplesFit :
    ∀ far ∈ recorder.farTaken, far.samples.values.length ≤ 1024

/--
The steps the code is right for.  A chunk arrives only when all before it have
been taken and the loop still runs; a read fills the buffer; the slot's length
is read only for a chunk not yet taken, whose samples the microphone bytes
begin with; and the loop ends only with nothing waiting.
-/
def Clean (recorder : Recorder) : Step → Prop
  | .callback _ =>
      recorder.decoded.length = recorder.farTaken.length ∧
        recorder.point ≠ .finished
  | .leaveLoop =>
      recorder.decoded.length = recorder.farTaken.length
  | .read reported => reported.length = 2048
  | .advance =>
      match recorder.point with
      | .readSlot _ =>
          ∀ chunk,
            recorder.bgmData = some chunk →
            recorder.decoded.length = recorder.farTaken.length + 1 ∧
              chunk.bytes.length / 2 ≤ 1024 ∧
              (asShortBuffer recorder.buffer.bytes).take
                  (chunk.bytes.length / 2) =
                asShortBuffer chunk.bytes
      | .process near far =>
          Covered sampleRateInHz recorder.session near far.samples ∨
            recorder.decoded.length = recorder.farTaken.length
      | _ => True

/-! ## The two readings of the record buffer -/

/-- Taking shorts within the buffer succeeds. -/
theorem getBuffer_of_le
    (buffer : RecordBuffer)
    (length : Nat)
    (inBuffer : length / 2 ≤ 1024) :
    ∃ samples,
      getBuffer buffer length = .ok samples ∧
        samples.values =
          (asShortBuffer buffer.bytes).take (length / 2) := by
  have inShorts :
      length / 2 ≤ (asShortBuffer buffer.bytes).length := by
    simpa [buffer.length] using inBuffer
  exact ⟨_, dif_pos inShorts, rfl⟩

/-- Taking shorts beyond the buffer throws. -/
theorem getBuffer_of_lt
    (buffer : RecordBuffer)
    {length : Nat}
    (outside : 1024 < length / 2) :
    getBuffer buffer length = .error .bufferUnderflow := by
  have notInShorts :
      ¬ length / 2 ≤ (asShortBuffer buffer.bytes).length := by
    simpa [buffer.length] using outside
  exact dif_neg notInShorts

/-- A read makes its near samples of the whole buffer. -/
theorem read_eq
    (recorder : Recorder)
    (reported : List UInt8)
    (fits : reported.length ≤ 2048) :
    ∃ near,
      recorder.read reported fits =
        { recorder with
          buffer := Recorder.readInto recorder.buffer reported fits
          point := .testSlot near
          iterations := recorder.iterations ++ [⟨reported, near⟩] } ∧
      near.values =
        asShortBuffer
          (reported ++ recorder.buffer.bytes.drop reported.length) := by
  have size :=
    (Recorder.readInto recorder.buffer reported fits).length
  obtain ⟨near, taken, values⟩ :=
    getBuffer_of_le
      (Recorder.readInto recorder.buffer reported fits)
      2048 (by simp)
  refine ⟨near, ?_, ?_⟩
  · simp only [Recorder.read, size, taken]
  · rw [values]
    apply List.take_of_length_le
    simp [size]

/-- The near samples are those reported exactly if the read filled the buffer. -/
theorem near_reported_iff
    (buffer : RecordBuffer)
    {reported : List UInt8}
    (fits : reported.length ≤ 2048) :
    asShortBuffer (reported ++ buffer.bytes.drop reported.length) =
        asShortBuffer reported ↔
      reported.length = 2048 := by
  have size := buffer.length
  constructor
  · intro same
    have lengths := congrArg List.length same
    simp only [length_asShortBuffer, List.length_append,
      List.length_drop, size] at lengths
    omega
  · intro full
    have noTail : buffer.bytes.drop reported.length = [] :=
      List.drop_eq_nil_iff.mpr (by omega)
    rw [noTail, List.append_nil]

/-! ## One step -/

/-- No call takes a chunk that has not been decoded. -/
theorem Served.taken_le
    {recorder : Recorder}
    (served : Served recorder) :
    recorder.farTaken.length ≤ recorder.decoded.length := by
  by_contra more
  have last : recorder.decoded.length < recorder.farTaken.length := by
    omega
  have taken :=
    (served.inOrder recorder.decoded.length _
      (List.getElem?_eq_getElem last)).2
  simp at taken

/-- A callback is served exactly if nothing waits and the loop still runs. -/
theorem served_callback_iff
    {recorder : Recorder}
    (served : Served recorder)
    (chunk : List UInt8) :
    Served (recorder.callback chunk) ↔
      Clean recorder (.callback chunk) := by
  have taken := served.taken_le
  constructor
  · intro after
    have waiting := after.oneWaiting
    simp only [Recorder.callback_farTaken, Recorder.callback_decoded,
      List.length_append, List.length_singleton] at waiting
    refine ⟨by omega, ?_⟩
    intro finished
    have left := after.noneLeft finished
    simp only [Recorder.callback_farTaken, Recorder.callback_decoded,
      List.length_append, List.length_singleton] at left
    omega
  · rintro ⟨allTaken, running⟩
    refine ⟨?_, ?_, ?_, served.nearReported⟩
    · intro position far isTaken
      have bound : position < recorder.decoded.length := by
        have inTaken := (List.getElem?_eq_some_iff.mp isTaken).1
        rw [Recorder.callback_farTaken] at inTaken
        omega
      obtain ⟨index, samples⟩ := served.inOrder position far isTaken
      refine ⟨index, ?_⟩
      simpa [List.getElem?_append_left bound] using samples
    · simp [allTaken]
    · intro finished
      exact absurd finished running

/-- Moving the record thread between points with no call in flight. -/
theorem served_move
    {source target : Recorder}
    (served : Served source)
    (sameTaken : target.farTaken = source.farTaken)
    (sameDecoded : target.decoded = source.decoded)
    (sameIterations : target.iterations = source.iterations)
    (left :
      target.point = .finished →
      source.decoded.length = source.farTaken.length) :
    Served target := by
  refine ⟨?_, ?_, ?_, ?_⟩
  · rw [sameTaken, sameDecoded]
    exact served.inOrder
  · rw [sameTaken, sameDecoded]
    exact served.oneWaiting
  · intro finished
    rw [sameTaken, sameDecoded]
    exact Nat.le_of_eq (left finished)
  · rw [sameIterations]
    exact served.nearReported

/-- A finished loop is served only if nothing waits. -/
theorem Served.allTaken
    {source target : Recorder}
    (after : Served target)
    (sameTaken : target.farTaken = source.farTaken)
    (sameDecoded : target.decoded = source.decoded)
    (finished : target.point = .finished) :
    source.decoded.length = source.farTaken.length := by
  have left := after.noneLeft finished
  have taken := after.taken_le
  rw [sameTaken, sameDecoded] at left taken
  exact Nat.le_antisymm left taken

/-- Ending the loop is served exactly if nothing waits. -/
theorem served_finished_iff
    {source target : Recorder}
    (served : Served source)
    (sameTaken : target.farTaken = source.farTaken)
    (sameDecoded : target.decoded = source.decoded)
    (sameIterations : target.iterations = source.iterations)
    (finished : target.point = .finished) :
    Served target ↔
      source.decoded.length = source.farTaken.length :=
  ⟨fun after => after.allTaken sameTaken sameDecoded finished,
    fun allTaken => served_move served sameTaken sameDecoded
      sameIterations fun _ => allTaken⟩

/-- A read is served exactly if it fills the buffer. -/
theorem served_read_iff
    {recorder : Recorder}
    {reported : List UInt8}
    (served : Served recorder)
    (atHead : recorder.point = .loopHead)
    (fits : reported.length ≤ 2048) :
    Served (recorder.read reported fits) ↔
      reported.length = 2048 := by
  obtain ⟨near, read, values⟩ := read_eq recorder reported fits
  rw [← near_reported_iff recorder.buffer fits, ← values,
    read]
  have sameTaken :
      ({ recorder with
        buffer := Recorder.readInto recorder.buffer reported fits
        point := .testSlot near
        iterations := recorder.iterations ++ [⟨reported, near⟩] } :
          Recorder).farTaken =
        recorder.farTaken := by
    simp [Recorder.farTaken, Recorder.farInFlight, atHead]
  constructor
  · intro after
    exact after.nearReported ⟨reported, near⟩ (by simp)
  · intro same
    refine ⟨?_, ?_, by simp, ?_⟩
    · rw [sameTaken]
      exact served.inOrder
    · rw [sameTaken]
      exact served.oneWaiting
    · intro iteration member
      rcases List.mem_append.mp member with earlier | new
      · exact served.nearReported iteration earlier
      · rw [List.mem_singleton] at new
        rw [new]
        exact same

/-- The newest decoded chunk has been taken if nothing waits. -/
theorem Served.newestFits
    {recorder : Recorder}
    {chunk : Chunk}
    (served : Served recorder)
    (consistent : Consistent recorder)
    (inSlot : recorder.bgmData = some chunk)
    (allTaken :
      recorder.decoded.length = recorder.farTaken.length) :
    chunk.bytes.length / 2 ≤ 1024 := by
  obtain ⟨count, newest⟩ := consistent.slotNewest chunk inSlot
  have last : chunk.index < recorder.farTaken.length := by
    omega
  have samples :=
    (served.inOrder chunk.index _ (List.getElem?_eq_getElem last)).2
  rw [newest, Option.map_some, Option.some.injEq] at samples
  have fits :=
    consistent.samplesFit _ (List.getElem_mem last)
  rw [← samples, length_asShortBuffer] at fits
  exact fits

/--
Reading the slot's length is served exactly if the chunk waits, fits and is
what the microphone bytes begin with.
-/
theorem served_readSlot_iff
    {source target : Recorder}
    {near : ShortArray}
    (served : Served source)
    (consistent : Consistent source)
    (atSlot : source.point = .readSlot near)
    (advanced : source.advance = some target) :
    Served target ↔ Clean source .advance := by
  have noFlight : source.farInFlight = [] := by
    simp [Recorder.farInFlight, atSlot]
  have sourceTaken : source.farTaken = source.farInputs := by
    simp [Recorder.farTaken, noFlight]
  cases inSlot : source.bgmData with
  | none =>
      exact absurd inSlot (consistent.slotKept near (.inr atSlot))
  | some chunk =>
      obtain ⟨count, newest⟩ := consistent.slotNewest chunk inSlot
      simp only [Clean, atSlot, inSlot, Option.some.injEq,
        forall_eq']
      by_cases fits : chunk.bytes.length / 2 ≤ 1024
      · obtain ⟨samples, read, values⟩ :=
          getBuffer_of_le source.buffer chunk.bytes.length fits
        simp only [Recorder.advance, atSlot, inSlot, read,
          Option.some.injEq] at advanced
        have targetTaken :
            target.farTaken =
              source.farTaken ++ [⟨chunk.index, samples⟩] := by
          simp [← advanced, Recorder.farTaken, Recorder.farInFlight,
            atSlot]
        have sameDecoded : target.decoded = source.decoded := by
          simp [← advanced]
        constructor
        · intro after
          have order :=
            after.inOrder source.farTaken.length
              ⟨chunk.index, samples⟩ (by simp [targetTaken])
          obtain ⟨index, isChunk⟩ := order
          simp only at index isChunk
          rw [sameDecoded, ← index, newest, Option.map_some,
            Option.some.injEq] at isChunk
          exact ⟨by omega, fits, by rw [isChunk, values]⟩
        · rintro ⟨waits, -, begins⟩
          refine ⟨?_, ?_, ?_, ?_⟩
          · intro position far isTaken
            rw [sameDecoded]
            rw [targetTaken] at isTaken
            by_cases earlier : position < source.farTaken.length
            · rw [List.getElem?_append_left earlier] at isTaken
              exact served.inOrder position far isTaken
            · obtain ⟨atEnd, isNew⟩ :
                  position = source.farTaken.length ∧
                    ⟨chunk.index, samples⟩ = far := by
                have bound :=
                  (List.getElem?_eq_some_iff.mp isTaken).1
                simp only [List.length_append,
                  List.length_singleton] at bound
                have atEnd :
                    position = source.farTaken.length := by
                  omega
                subst atEnd
                exact ⟨rfl, by simpa using isTaken⟩
              have isIndex : position = chunk.index := by
                omega
              subst isNew
              refine ⟨isIndex.symm, ?_⟩
              rw [isIndex, newest, Option.map_some, values, begins]
          · rw [targetTaken, sameDecoded, List.length_append]
            omega
          · simp [← advanced]
          · simpa [← advanced] using served.nearReported
      · have read :=
          getBuffer_of_lt source.buffer (Nat.lt_of_not_le fits)
        simp only [Recorder.advance, atSlot, inSlot, read,
          Option.some.injEq] at advanced
        have targetTaken : target.farTaken = source.farTaken := by
          apply Recorder.farTaken_of_farInFlight <;>
            simp [← advanced, Recorder.farInFlight, atSlot]
        rw [served_finished_iff served targetTaken (by simp [← advanced])
          (by simp [← advanced]) (by simp [← advanced])]
        constructor
        · intro allTaken
          exact absurd (served.newestFits consistent inSlot allTaken)
            fits
        · rintro ⟨-, fits', -⟩
          exact absurd fits' fits

/-- A call is served exactly if it returns or nothing waits behind it. -/
theorem served_process_iff
    {source target : Recorder}
    {near : ShortArray}
    {far : FarInput}
    (served : Served source)
    (atCall : source.point = .process near far)
    (advanced : source.advance = some target) :
    Served target ↔ Clean source .advance := by
  have sameTaken : target.farTaken = source.farTaken := by
    simp only [Recorder.advance, atCall, Option.some.injEq]
      at advanced
    cases called :
        (processStream sampleRateInHz near far.samples
          source.session).2 <;>
      simp [← advanced, Recorder.farTaken, Recorder.farInFlight,
        atCall, called]
  simp only [Recorder.advance, atCall, Option.some.injEq] at advanced
  simp only [Clean, atCall]
  cases called :
      (processStream sampleRateInHz near far.samples
        source.session).2 with
  | none =>
      refine iff_of_true ?_ (.inl (processStream_returns_iff.mp called))
      exact served_move served sameTaken (by simp [← advanced])
        (by simp [← advanced]) (by simp [← advanced, called])
  | some thrown =>
      rw [served_finished_iff served sameTaken (by simp [← advanced])
        (by simp [← advanced]) (by simp [← advanced, called])]
      have notCovered :
          ¬ Covered sampleRateInHz source.session near
            far.samples := by
        rw [← processStream_returns_iff, called]
        simp
      simp [notCovered]

/-- Every step of either thread, exactly. -/
theorem served_next_iff
    {source target : Recorder}
    {step : Step}
    (served : Served source)
    (consistent : Consistent source)
    (taken : source.next step = some target) :
    Served target ↔ Clean source step := by
  cases step with
  | callback chunk =>
      obtain rfl : source.callback chunk = target := by
        simpa [Recorder.next] using taken
      exact served_callback_iff served chunk
  | leaveLoop =>
      simp only [Recorder.next, Option.ite_none_right_eq_some,
        Option.some.injEq] at taken
      obtain ⟨atHead, rfl⟩ := taken
      apply served_finished_iff served <;>
        simp [Recorder.farTaken, Recorder.farInFlight, atHead]
  | read reported =>
      simp only [Recorder.next] at taken
      split at taken
      · rename_i fits
        simp only [Option.ite_none_right_eq_some, Option.some.injEq]
          at taken
        obtain ⟨atHead, rfl⟩ := taken
        exact served_read_iff served atHead fits
      · simp at taken
  | advance =>
      simp only [Recorder.next] at taken
      cases point : source.point with
      | loopHead =>
          simp [Recorder.advance, point] at taken
      | testSlot near =>
          simp only [Recorder.advance, point] at taken
          refine iff_of_true ?_ (by simp [Clean, point])
          split at taken <;>
            obtain rfl := Option.some.inj taken <;>
            apply served_move served <;>
            simp [Recorder.farTaken, Recorder.farInFlight, point]
      | wrapSlot near =>
          simp only [Recorder.advance, point] at taken
          refine iff_of_true ?_ (by simp [Clean, point])
          split at taken
          · rename_i empty
            exact absurd empty (consistent.slotKept near (.inl point))
          · obtain rfl := Option.some.inj taken
            apply served_move served <;>
              simp [Recorder.farTaken, Recorder.farInFlight, point]
      | readSlot near =>
          exact served_readSlot_iff served consistent point taken
      | process near far =>
          exact served_process_iff served point taken
      | finished =>
          simp [Recorder.advance, point] at taken

/-! ## Whole runs -/

/-- Moving the record thread leaves the slot as it is. -/
theorem consistent_move
    {source target : Recorder}
    (consistent : Consistent source)
    (sameSlot : target.bgmData = source.bgmData)
    (sameDecoded : target.decoded = source.decoded)
    (slotKept :
      ∀ near,
        target.point = .wrapSlot near ∨
          target.point = .readSlot near →
        source.bgmData ≠ none)
    (samplesFit :
      ∀ far ∈ target.farTaken, far.samples.values.length ≤ 1024) :
    Consistent target := by
  refine ⟨?_, ?_, samplesFit⟩
  · rw [sameSlot, sameDecoded]
    exact consistent.slotNewest
  · rw [sameSlot]
    exact slotKept

/-- Reading the slot's length takes at most the buffer's shorts. -/
theorem consistent_readSlot
    {source target : Recorder}
    {near : ShortArray}
    (consistent : Consistent source)
    (atSlot : source.point = .readSlot near)
    (advanced : source.advance = some target) :
    Consistent target := by
  have earlier := consistent.samplesFit
  simp only [Recorder.farTaken, Recorder.farInFlight, atSlot,
    List.append_nil] at earlier
  cases inSlot : source.bgmData with
  | none =>
      exact absurd inSlot (consistent.slotKept near (.inr atSlot))
  | some chunk =>
      by_cases fits : chunk.bytes.length / 2 ≤ 1024
      · obtain ⟨samples, read, values⟩ :=
          getBuffer_of_le source.buffer chunk.bytes.length fits
        simp only [Recorder.advance, atSlot, inSlot, read,
          Option.some.injEq] at advanced
        apply consistent_move consistent <;>
          simp only [← advanced, inSlot, ne_eq, reduceCtorEq,
            not_false_eq_true, implies_true]
        simp only [Recorder.farTaken, Recorder.farInFlight,
          List.forall_mem_append, List.forall_mem_singleton, values,
          List.length_take]
        exact ⟨earlier, by omega⟩
      · have read :=
          getBuffer_of_lt source.buffer (Nat.lt_of_not_le fits)
        simp only [Recorder.advance, atSlot, inSlot, read,
          Option.some.injEq] at advanced
        apply consistent_move consistent <;>
          simp only [← advanced, inSlot, ne_eq, reduceCtorEq,
            not_false_eq_true, implies_true]
        simpa [Recorder.farTaken, Recorder.farInFlight] using earlier

/-- The slot holds the newest chunk in every run. -/
theorem consistent_next
    {source target : Recorder}
    {step : Step}
    (consistent : Consistent source)
    (taken : source.next step = some target) :
    Consistent target := by
  have earlier := consistent.samplesFit
  cases step with
  | callback chunk =>
      obtain rfl : source.callback chunk = target := by
        simpa [Recorder.next] using taken
      refine ⟨?_, ?_, earlier⟩
      · intro newest inSlot
        obtain rfl :
            ⟨source.decoded.length, chunk⟩ = newest := by
          simpa [Recorder.callback] using inSlot
        simp
      · simp [Recorder.callback]
  | leaveLoop =>
      simp only [Recorder.next, Option.ite_none_right_eq_some,
        Option.some.injEq] at taken
      obtain ⟨atHead, rfl⟩ := taken
      refine consistent_move consistent rfl rfl (by simp) ?_
      simpa [Recorder.farTaken, Recorder.farInFlight, atHead]
        using earlier
  | read reported =>
      simp only [Recorder.next] at taken
      split at taken
      · rename_i fits
        simp only [Option.ite_none_right_eq_some, Option.some.injEq]
          at taken
        obtain ⟨atHead, rfl⟩ := taken
        obtain ⟨near, read, -⟩ := read_eq source reported fits
        rw [read]
        refine consistent_move consistent rfl rfl (by simp) ?_
        simpa [Recorder.farTaken, Recorder.farInFlight, atHead]
          using earlier
      · simp at taken
  | advance =>
      simp only [Recorder.next] at taken
      cases point : source.point with
      | loopHead =>
          simp [Recorder.advance, point] at taken
      | testSlot near =>
          simp only [Recorder.advance, point] at taken
          split at taken <;>
            obtain rfl := Option.some.inj taken <;>
            apply consistent_move consistent <;>
            simp_all [Recorder.farTaken, Recorder.farInFlight]
      | wrapSlot near =>
          simp only [Recorder.advance, point] at taken
          split at taken <;>
            obtain rfl := Option.some.inj taken <;>
            apply consistent_move consistent <;>
            simp_all [Recorder.farTaken, Recorder.farInFlight]
      | readSlot near =>
          exact consistent_readSlot consistent point taken
      | process near far =>
          simp only [Recorder.advance, point, Option.some.injEq]
            at taken
          simp only [Recorder.farTaken, Recorder.farInFlight, point]
            at earlier
          cases called :
              (processStream sampleRateInHz near far.samples
                source.session).2 <;>
            apply consistent_move consistent <;>
            simp_all [← taken, Recorder.farTaken,
              Recorder.farInFlight]
      | finished =>
          simp [Recorder.advance, point] at taken

/-- Before the threads start nothing has been decoded. -/
theorem served_started : Served started := by
  constructor <;>
    simp [started, Recorder.farTaken, Recorder.farInFlight,
      -List.reduceReplicate]

/-- Before the threads start the slot is empty. -/
theorem consistent_started : Consistent started := by
  constructor <;>
    simp [started, Recorder.farTaken, Recorder.farInFlight,
      -List.reduceReplicate]

/--
In every interleaving of the two threads, the decoder is served in every state
exactly if every step is clean.
-/
theorem run_served_iff_clean
    {moves : List (Move Recorder Step)}
    {final : Recorder}
    (path : Path recorderStep started moves final) :
    (∀ move ∈ moves, Served move.target) ↔
      ∀ move ∈ moves, Clean move.source move.label := by
  have everywhere :=
    (Path.invariant Consistent
      (fun consistent taken => consistent_next consistent taken)
      consistent_started path).1
  rw [← Path.forall_target_iff_forall_guard
    (fun recorder => Served recorder ∧ Consistent recorder)
    Clean _ ⟨served_started, consistent_started⟩ path]
  · constructor
    · intro served move member
      exact ⟨served move member, (everywhere move member).2⟩
    · intro both move member
      exact (both move member).1
  · rintro source label target ⟨served, consistent⟩ taken
    have later := consistent_next consistent taken
    rw [← served_next_iff served consistent taken]
    exact ⟨fun both => both.1, fun after => ⟨after, later⟩⟩

/-- The microphone reports silence while the decoder delivers one sample. -/
def micForFarEndSteps : List Step :=
  [.callback [1, 0], .read (List.replicate 2048 0), .advance, .advance,
    .advance]

/-- The equivalence at that run. -/
theorem run_served_iff_clean_micForFarEnd :
    ∃ moves : List (Move Recorder Step),
      moves.map Move.label = micForFarEndSteps ∧
        ((∀ move ∈ moves, Served move.target) ↔
          ∀ move ∈ moves, Clean move.source move.label) := by
  have taken :
      (micForFarEndSteps.foldlM Recorder.next started).isSome := by
    decide +kernel
  obtain ⟨final, followed⟩ := Option.isSome_iff_exists.mp taken
  obtain ⟨moves, path, labels⟩ := Path.exists_of_foldlM followed
  exact ⟨moves, labels, run_served_iff_clean path⟩

/-- The far input of that run is the microphone's sample, not the decoder's. -/
theorem micForFarEnd_not_served :
    ∃ moves final,
      Path recorderStep started moves final ∧
        moves.map Move.label = micForFarEndSteps ∧
        final.decoded = [[1, 0]] ∧
        final.farTaken.map (fun far => far.samples.values) = [[0]] ∧
        ¬ ∀ move ∈ moves, Served move.target := by
  have taken :
      (micForFarEndSteps.foldlM Recorder.next started).map
          (fun final =>
            (final.decoded,
              final.farTaken.map fun far => far.samples.values)) =
        some ([[1, 0]], [[0]]) := by
    decide +kernel
  obtain ⟨final, followed, result⟩ := Option.map_eq_some_iff.mp taken
  obtain ⟨decoded, samples⟩ := Prod.mk.inj result
  obtain ⟨moves, path, labels⟩ := Path.exists_of_foldlM followed
  refine ⟨moves, final, path, labels, decoded, samples, ?_⟩
  intro served
  have last := path.holds_final served_started served
  obtain ⟨far, isTaken, values⟩ :
      ∃ far, final.farTaken = [far] ∧ far.samples.values = [0] := by
    simpa [List.map_eq_singleton_iff] using samples
  have genuine := (last.inOrder 0 far (by simp [isTaken])).2
  simp [decoded, values, asShortBuffer] at genuine

end ApmSdk.RecordLoop
