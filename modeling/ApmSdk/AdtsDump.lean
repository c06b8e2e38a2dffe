import ApmSdk.FramedStream
import ApmSdk.JavaArrays
import Mathlib.Tactic.IntervalCases

namespace ApmSdk

/-!
# The AAC dump

`TestUtils.dumpAACFile` puts a seven-byte ADTS header in front of every AAC
payload that the encoder hands out.  The header is built with Java `int`
arithmetic: `x >> k` is division by `2 ^ k` rounding down, `x & (2 ^ k - 1)` is
the remainder, and the cast to `byte` keeps the low eight bits.

The reader follows the ADTS layout: a 12-bit sync word, a 4-bit frequency
index, a 3-bit channel configuration, and a 13-bit frame length that counts
the header.
-/

namespace AdtsDump

/-- One output buffer of the encoder: its bytes up to the limit, and the size
that `MediaCodec.BufferInfo` announces. -/
structure EncodedPacket where
  encodedData : List UInt8
  size : Nat
  inLimit : size ≤ encodedData.length
  limitFits : encodedData.length < 2 ^ 31
  deriving Repr

namespace EncodedPacket

/-- The AAC payload: the announced number of bytes from the start. -/
def payload (packet : EncodedPacket) : List UInt8 :=
  packet.encodedData.take packet.size

/-- The payload has the announced size. -/
@[simp]
theorem length_payload
    (packet : EncodedPacket) :
    packet.payload.length = packet.size := by
  simp [payload, Nat.min_eq_left packet.inLimit]

/-- The frame length, header included, fits the 13-bit field. -/
def LengthFits (packet : EncodedPacket) : Prop :=
  packet.size + 7 < 2 ^ 13

instance (packet : EncodedPacket) : Decidable packet.LengthFits :=
  inferInstanceAs (Decidable (_ < _))

end EncodedPacket

/-- `TestUtils.getADTSHeader`; `packetLen` comes without the header. -/
def getADTSHeader
    (inSampleRate channelCount packetLen : Int) :
    Except JavaThrowable (List UInt8) := do
  let profile : Int := 2
  let freqIdx : Int ←
    if inSampleRate = 44100 then
      .ok 4
    else if inSampleRate = 48000 then
      .ok 3
    else
      .error (.illegalArgument "un support freq")
  let chanCfg := channelCount
  let packetLen := (packetLen + 7).bmod (2 ^ 32)
  .ok [
    byteOf 0xFF,
    byteOf 0xF9,
    byteOf ((profile - 1) * 2 ^ 6 + freqIdx * 2 ^ 2 + chanCfg / 2 ^ 2),
    byteOf (chanCfg % 2 ^ 2 * 2 ^ 6 + packetLen / 2 ^ 11),
    byteOf (packetLen % 2 ^ 11 / 2 ^ 3),
    byteOf (packetLen % 2 ^ 3 * 2 ^ 5 + 0x1F),
    byteOf 0xFC]

/--
`TestUtils.dumpAACFile`: the bytes written so far to `mAACFos`, if it is open,
and after the call.

The payload is read off the buffer first, then the header is made, and only
then is the file opened; a thrown exception leaves the file alone.
-/
def dumpAACFile
    (mAACFos : Option (List UInt8))
    (encodedData : List UInt8)
    (size sampleRate channels : Int) :
    Except JavaThrowable (Option (List UInt8)) := do
  let bytes ←
    if size < 0 then
      .error .negativeArraySize
    else if encodedData.length < size then
      .error .bufferUnderflow
    else
      .ok (encodedData.take size.toNat)
  let header ← getADTSHeader sampleRate channels size
  let written := mAACFos.getD []
  .ok (some (written ++ header ++ bytes))

/-- Dump every packet in turn; a call that throws leaves the file as it was. -/
def dumpPackets
    (sampleRate channels : Int) :
    Option (List UInt8) →
    List EncodedPacket →
    Option (List UInt8)
  | mAACFos, [] => mAACFos
  | mAACFos, packet :: packets =>
      match dumpAACFile mAACFos packet.encodedData packet.size
          sampleRate channels with
      | .ok written => dumpPackets sampleRate channels written packets
      | .error _ => dumpPackets sampleRate channels mAACFos packets

/-- What one ADTS frame says. -/
structure AdtsFrame where
  sampleRate : Nat
  channels : Nat
  payload : List UInt8
  deriving Repr, DecidableEq

/-- The sampling frequency of an ADTS frequency index. -/
def frequencyOfIndex : Nat → Option Nat
  | 0 => some 96000
  | 1 => some 88200
  | 2 => some 64000
  | 3 => some 48000
  | 4 => some 44100
  | 5 => some 32000
  | 6 => some 24000
  | 7 => some 22050
  | 8 => some 16000
  | 9 => some 12000
  | 10 => some 11025
  | 11 => some 8000
  | 12 => some 7350
  | _ => none

/-- The channel count of an ADTS channel configuration.  Configuration 0 leaves
the count to the payload. -/
def channelsOfConfiguration : Nat → Option Nat
  | 1 => some 1
  | 2 => some 2
  | 3 => some 3
  | 4 => some 4
  | 5 => some 5
  | 6 => some 6
  | 7 => some 8
  | _ => none

/-- Read one ADTS frame without a checksum off the front of a stream. -/
def readFrame : List UInt8 → Option (AdtsFrame × List UInt8)
  | b₀ :: b₁ :: b₂ :: b₃ :: b₄ :: b₅ :: _ :: rest => do
      let frameLength :=
        b₃.toNat % 4 * 2 ^ 11 + b₄.toNat * 2 ^ 3 + b₅.toNat / 2 ^ 5
      -- sync word, layer 0, and the bit that says no checksum follows
      guard (b₀.toNat = 0xFF ∧ b₁.toNat / 2 ^ 4 = 0xF ∧
        b₁.toNat % 8 = 1)
      guard (7 ≤ frameLength ∧ frameLength - 7 ≤ rest.length)
      let sampleRate ← frequencyOfIndex (b₂.toNat / 2 ^ 2 % 2 ^ 4)
      let channels ←
        channelsOfConfiguration
          (b₂.toNat % 2 * 2 ^ 2 + b₃.toNat / 2 ^ 6)
      some (⟨sampleRate, channels, rest.take (frameLength - 7)⟩,
        rest.drop (frameLength - 7))
  | _ => none

/-- Parse a whole ADTS stream. -/
def parseStream : List UInt8 → Option (List AdtsFrame) :=
  FramedStream.readAll readFrame

/-- The sampling rates that the dump accepts. -/
def SupportedRate (sampleRate : Int) : Prop :=
  sampleRate = 44100 ∨ sampleRate = 48000

instance (sampleRate : Int) : Decidable (SupportedRate sampleRate) :=
  inferInstanceAs (Decidable (_ ∨ _))

/-- The bytes of one header, none when the rate is refused. -/
def headerBytes (sampleRate channels : Int) (size : Nat) : List UInt8 :=
  (getADTSHeader sampleRate channels size).toOption.getD []

/-- The bytes that one dumped packet adds to the file. -/
def packetBytes
    (sampleRate channels : Int)
    (packet : EncodedPacket) : List UInt8 :=
  headerBytes sampleRate channels packet.size ++ packet.payload

/-- A supported rate always gets its header. -/
theorem getADTSHeader_of_supported
    {sampleRate : Int}
    (supported : SupportedRate sampleRate)
    (channels : Int)
    (size : Nat) :
    getADTSHeader sampleRate channels size =
      .ok (headerBytes sampleRate channels size) := by
  rcases supported with rfl | rfl <;> rfl

/-- A packet at a supported rate is always written, whatever its size. -/
theorem dumpAACFile_of_supported
    {sampleRate : Int}
    (supported : SupportedRate sampleRate)
    (channels : Int)
    (mAACFos : Option (List UInt8))
    (packet : EncodedPacket) :
    dumpAACFile mAACFos packet.encodedData packet.size
        sampleRate channels =
      .ok (some (mAACFos.getD [] ++
        packetBytes sampleRate channels packet)) := by
  have announced := packet.inLimit
  have nonnegative : ¬ (packet.size : Int) < 0 := by omega
  have inside :
      ¬ (packet.encodedData.length : Int) < packet.size := by
    omega
  simp only [dumpAACFile, nonnegative, inside, if_false,
    getADTSHeader_of_supported supported, Except.ok_bind,
    Int.toNat_natCast, packetBytes, EncodedPacket.payload,
    List.append_assoc]

/-- The file after a run holds every packet's bytes, in order. -/
theorem dumpPackets_of_supported
    {sampleRate : Int}
    (supported : SupportedRate sampleRate)
    (channels : Int)
    (packets : List EncodedPacket)
    (mAACFos : Option (List UInt8)) :
    (dumpPackets sampleRate channels mAACFos packets).getD [] =
      mAACFos.getD [] ++
        packets.flatMap (packetBytes sampleRate channels) := by
  induction packets generalizing mAACFos with
  | nil =>
      simp [dumpPackets]
  | cons packet packets inductionHypothesis =>
      simp only [dumpPackets,
        dumpAACFile_of_supported supported, inductionHypothesis,
        Option.getD_some, List.flatMap_cons, List.append_assoc]

/-- The frame that a reader should find for a dumped packet. -/
def frameOf
    (sampleRate channels : Int)
    (packet : EncodedPacket) : AdtsFrame :=
  ⟨sampleRate.toNat, channels.toNat, packet.payload⟩

/-- The frequency index of a supported rate. -/
def indexOfRate (sampleRate : Int) : Nat :=
  if sampleRate = 44100 then 4 else 3

/-- The index of a supported rate leads back to it. -/
theorem frequencyOfIndex_indexOfRate
    {sampleRate : Int}
    (supported : SupportedRate sampleRate) :
    frequencyOfIndex (indexOfRate sampleRate) =
      some sampleRate.toNat := by
  rcases supported with rfl | rfl <;> rfl

/-- Both supported indices fit in two bits of their own. -/
theorem indexOfRate_cases
    (sampleRate : Int) :
    indexOfRate sampleRate = 4 ∨ indexOfRate sampleRate = 3 := by
  by_cases at44100 : sampleRate = 44100
  · exact .inl (if_pos at44100)
  · exact .inr (if_neg at44100)

/-- The header of a packet whose length fits its field, before the casts. -/
theorem headerBytes_of_fits
    {sampleRate : Int}
    (supported : SupportedRate sampleRate)
    (channels : Int)
    {size : Nat}
    (fits : size + 7 < 2 ^ 13) :
    headerBytes sampleRate channels size =
      [byteOf 0xFF,
        byteOf 0xF9,
        byteOf (64 + indexOfRate sampleRate * 4 + channels / 4),
        byteOf (channels % 4 * 64 + (size + 7) / 2048),
        byteOf ((size + 7) % 2048 / 8),
        byteOf ((size + 7) % 8 * 32 + 31),
        byteOf 0xFC] := by
  have unwrapped : ((size : Int) + 7).bmod 4294967296 = size + 7 :=
    Int.bmod_eq_of_le (by omega) (by omega)
  rcases supported with rfl | rfl <;>
    simp [headerBytes, getADTSHeader, indexOfRate, unwrapped,
      Except.toOption]

/-- Read a header whose length fits: the rest of the frame is its payload, and
the channel configuration is what the field keeps of the channel count. -/
theorem readFrame_headerBytes
    {sampleRate : Int}
    (supported : SupportedRate sampleRate)
    (channels : Int)
    {size : Nat}
    (fits : size + 7 < 2 ^ 13)
    {payload : List UInt8}
    (announced : payload.length = size)
    (rest : List UInt8) :
    readFrame
        (headerBytes sampleRate channels size ++ (payload ++ rest)) =
      (do
        let sampleRate ←
          frequencyOfIndex
            ((64 + indexOfRate sampleRate * 4 + channels / 4) % 256
              / 4 % 16).toNat
        let channels ←
          channelsOfConfiguration (channels % 8).toNat
        some (⟨sampleRate, channels, payload⟩, rest)) := by
  have lengthField :
      (byteOf (channels % 4 * 64 + ((size : Int) + 7) / 2048)).toNat
            % 4 * 2 ^ 11 +
          (byteOf (((size : Int) + 7) % 2048 / 8)).toNat * 2 ^ 3 +
          (byteOf (((size : Int) + 7) % 8 * 32 + 31)).toNat / 2 ^ 5 =
        size + 7 := by
    simp only [toNat_byteOf]
    omega
  have rateField :
      (byteOf (64 + indexOfRate sampleRate * 4 + channels / 4)).toNat
          / 2 ^ 2 % 2 ^ 4 =
        ((64 + indexOfRate sampleRate * 4 + channels / 4) % 256
          / 4 % 16).toNat := by
    simp only [toNat_byteOf]
    omega
  have configurationField :
      (byteOf (64 + indexOfRate sampleRate * 4 + channels / 4)).toNat
            % 2 * 2 ^ 2 +
          (byteOf (channels % 4 * 64 + ((size : Int) + 7) / 2048)).toNat
            / 2 ^ 6 =
        (channels % 8).toNat := by
    simp only [toNat_byteOf]
    omega
  have syncWord :
      (byteOf 0xFF).toNat = 0xFF ∧
        (byteOf 0xF9).toNat / 2 ^ 4 = 0xF ∧
          (byteOf 0xF9).toNat % 8 = 1 := by
    decide
  have room :
      7 ≤ size + 7 ∧ size ≤ (payload ++ rest).length := by
    simp [announced]
  simp only [headerBytes_of_fits supported channels fits,
    List.cons_append, List.nil_append, readFrame, lengthField,
    rateField, configurationField, guard, syncWord, room, and_self,
    if_true, Option.pure_def, Option.bind_eq_bind, Option.bind_some,
    Nat.add_sub_cancel]
  rw [← announced, List.take_left, List.drop_left]

/-- A packet whose length fits is read back, with its rate and channels. -/
theorem readFrame_packetBytes
    {sampleRate channels : Int}
    (supported : SupportedRate sampleRate)
    (ownConfiguration : 1 ≤ channels ∧ channels ≤ 6)
    (packet : EncodedPacket)
    (fits : packet.LengthFits)
    (rest : List UInt8) :
    readFrame (packetBytes sampleRate channels packet ++ rest) =
      some (frameOf sampleRate channels packet, rest) := by
  have rateField :
      ((64 + (indexOfRate sampleRate : Int) * 4 + channels / 4) % 256
          / 4 % 16).toNat = indexOfRate sampleRate := by
    rcases indexOfRate_cases sampleRate with index | index <;>
      simp only [index] <;> omega
  have configurationField :
      channelsOfConfiguration (channels % 8).toNat =
        some channels.toNat := by
    obtain ⟨atLeast, atMost⟩ := ownConfiguration
    interval_cases channels <;> rfl
  rw [packetBytes, List.append_assoc,
    readFrame_headerBytes supported channels fits
      packet.length_payload rest,
    rateField, frequencyOfIndex_indexOfRate supported,
    configurationField]
  rfl

/-- A channel count that survives the three-bit field as its own configuration
is one of the first six. -/
theorem ownConfiguration_of_configuration
    {channels : Int}
    {count : Nat}
    (configured :
      channelsOfConfiguration (channels % 8).toNat = some count)
    (same : count = channels.toNat) :
    1 ≤ channels ∧ channels ≤ 6 := by
  have below : (channels % 8).toNat < 8 := by omega
  generalize low : (channels % 8).toNat = configuration
    at configured below
  interval_cases configuration <;>
    simp [channelsOfConfiguration] at configured <;> omega

/-- Whether a dump refuses a packet: it throws, whatever is in the file. -/
def Refuses
    (sampleRate channels : Int)
    (packet : EncodedPacket) : Prop :=
  ∀ mAACFos, ∃ thrown,
    dumpAACFile mAACFos packet.encodedData packet.size
      sampleRate channels = .error thrown

/-- What a dump is for: a packet too long for the length field is refused, and
the stream of the others parses back to them. -/
structure ParsesBack
    (sampleRate channels : Int)
    (packets : List EncodedPacket) : Prop where
  refused :
    ∀ packet ∈ packets,
      ¬ packet.LengthFits → Refuses sampleRate channels packet
  parsed :
    parseStream ((dumpPackets sampleRate channels none packets).getD []) =
      some ((packets.filter fun packet => packet.LengthFits).map
        (frameOf sampleRate channels))

/-- At a supported rate no packet is refused. -/
theorem not_refuses_of_supported
    {sampleRate : Int}
    (supported : SupportedRate sampleRate)
    (channels : Int)
    (packet : EncodedPacket) :
    ¬ Refuses sampleRate channels packet := by
  intro refused
  obtain ⟨thrown, threw⟩ := refused none
  simp [dumpAACFile_of_supported supported] at threw

/-- A dumped packet is at least its header long. -/
theorem packetBytes_ne_nil
    {sampleRate : Int}
    (supported : SupportedRate sampleRate)
    (channels : Int)
    (packet : EncodedPacket) :
    packetBytes sampleRate channels packet ≠ [] := by
  rcases supported with rfl | rfl <;>
    simp [packetBytes, headerBytes, getADTSHeader, Except.toOption]

/--
An AAC dump parses back to its payloads, and refuses the ones too long for the
length field, exactly when no payload is too long and the channel count is its
own ADTS channel configuration.
-/
theorem parsesBack_iff_lengthFits
    (sampleRate channels : Int)
    (supported : SupportedRate sampleRate)
    (packets : List EncodedPacket) :
    ParsesBack sampleRate channels packets ↔
      (∀ packet ∈ packets, packet.LengthFits) ∧
        (packets = [] ∨ 1 ≤ channels ∧ channels ≤ 6) := by
  have written :=
    dumpPackets_of_supported supported channels packets none
  simp only [Option.getD_none, List.nil_append] at written
  constructor
  · intro parsesBack
    have fits : ∀ packet ∈ packets, packet.LengthFits := by
      intro packet member
      by_contra tooLong
      exact not_refuses_of_supported supported channels packet
        (parsesBack.refused packet member tooLong)
    refine ⟨fits, ?_⟩
    have parsed := parsesBack.parsed
    rw [written] at parsed
    cases packets with
    | nil =>
        exact .inl rfl
    | cons packet packets =>
        have firstFits : packet.LengthFits :=
          fits packet (by simp)
        simp only [List.flatMap_cons, List.filter_cons,
          decide_eq_true firstFits, if_true, List.map_cons] at parsed
        obtain ⟨rest, firstRead⟩ :=
          FramedStream.readFrame_of_readAll_cons parsed
        rw [packetBytes, List.append_assoc,
          readFrame_headerBytes supported channels firstFits
            packet.length_payload] at firstRead
        simp only [Option.bind_eq_bind, Option.bind_eq_some_iff,
          Option.some.injEq, Prod.mk.injEq] at firstRead
        obtain ⟨_, _, count, configured, sameFrame, _⟩ := firstRead
        have sameCount : count = channels.toNat :=
          congrArg AdtsFrame.channels sameFrame
        exact .inr
          (ownConfiguration_of_configuration configured sameCount)
  · rintro ⟨fits, ownConfiguration⟩
    refine ⟨fun packet member tooLong =>
      absurd (fits packet member) tooLong, ?_⟩
    have kept :
        (packets.filter fun packet => packet.LengthFits) = packets :=
      List.filter_eq_self.mpr fun packet member =>
        decide_eq_true (fits packet member)
    rw [written, kept]
    rcases ownConfiguration with rfl | ownConfiguration
    · rfl
    · exact
        FramedStream.readAll_flatMap
          (fun packet rest packetFits =>
            readFrame_packetBytes supported ownConfiguration packet
              packetFits rest)
          (packetBytes_ne_nil supported channels) packets fits

/-- A payload of three bytes in a larger output buffer. -/
def smallPacket : EncodedPacket where
  encodedData := [0x21, 0x10, 0x05, 0xFF]
  size := 3
  inLimit := by decide
  limitFits := by decide

/-- A short payload at 44.1 kHz in stereo is read back. -/
theorem parsesBack_smallPacket :
    ParsesBack 44100 2 [smallPacket, smallPacket] :=
  (parsesBack_iff_lengthFits 44100 2 (by decide)
    [smallPacket, smallPacket]).mpr (by decide)

/-- The shortest payload whose frame length needs a fourteenth bit. -/
def tooLongPacket : EncodedPacket where
  encodedData := List.replicate 8185 0
  size := 8185
  inLimit := by rw [List.length_replicate]
  limitFits := by
    rw [List.length_replicate]
    decide

/-- The payload that is one byte too long is written, and with it in front the
stream no longer parses. -/
theorem not_parsesBack_tooLongPacket :
    ¬ tooLongPacket.LengthFits ∧
      ¬ Refuses 48000 1 tooLongPacket ∧
        (∀ packets, parseStream
          ((dumpPackets 48000 1 none (tooLongPacket :: packets)).getD [])
            = none) ∧
          ¬ ParsesBack 48000 1 [tooLongPacket] := by
  have supported : SupportedRate 48000 := by decide
  have notRefused := not_refuses_of_supported supported 1 tooLongPacket
  have tooLong : ¬ tooLongPacket.LengthFits := by decide
  refine ⟨tooLong, notRefused, ?_, ?_⟩
  · intro packets
    rw [dumpPackets_of_supported supported]
    rfl
  · intro parsesBack
    exact notRefused
      (parsesBack.refused tooLongPacket (by simp) tooLong)

end AdtsDump

end ApmSdk
