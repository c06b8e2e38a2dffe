import ApmSdk.CIntegers

namespace ApmSdk.Vad

/-!
# Hangover of the voice decision

A raw decision against speech is overruled for some frames after speech: `GmmProbability` ends
with a counter of speech frames in a row and a countdown that each speech frame sets anew.
-/

/-- Values for frames of 10, 20 and 30 ms. -/
structure ForLengths where
  tenMs : Int
  twentyMs : Int
  thirtyMs : Int
deriving Repr, DecidableEq

/-- The value for a frame length at 8 kHz. -/
def ForLengths.at_ (values : ForLengths) (frameLength : Nat) : Int :=
  if frameLength = 80 then values.tenMs
  else if frameLength = 160 then values.twentyMs
  else values.thirtyMs

/-- What `WebRtcVad_set_mode_core` copies for a mode. -/
structure ModeTables where
  overHangMax1 : ForLengths
  overHangMax2 : ForLengths
  individual : ForLengths
  total : ForLengths
deriving Repr, DecidableEq

/-- Mode 0, quality. -/
def modeQ : ModeTables :=
  ⟨⟨8, 4, 3⟩, ⟨14, 7, 5⟩, ⟨24, 21, 24⟩, ⟨57, 48, 57⟩⟩

/-- Mode 1, low bitrate. -/
def modeLBR : ModeTables :=
  ⟨⟨8, 4, 3⟩, ⟨14, 7, 5⟩, ⟨37, 32, 37⟩, ⟨100, 80, 100⟩⟩

/-- Mode 2, aggressive. -/
def modeAGG : ModeTables :=
  ⟨⟨6, 3, 2⟩, ⟨9, 5, 3⟩, ⟨82, 78, 82⟩, ⟨285, 260, 285⟩⟩

/-- Mode 3, very aggressive. -/
def modeVAG : ModeTables :=
  ⟨⟨6, 3, 2⟩, ⟨9, 5, 3⟩, ⟨94, 94, 94⟩, ⟨1100, 1050, 1100⟩⟩

/-- The tables of a mode. -/
def modeTables (mode : Int) : Option ModeTables :=
  if mode = 0 then some modeQ
  else if mode = 1 then some modeLBR
  else if mode = 2 then some modeAGG
  else if mode = 3 then some modeVAG
  else none

/-- What the hangover uses of the instance. -/
structure HangoverInst where
  tables : ModeTables
  overHang : Int
  numOfSpeech : Int
deriving Repr, DecidableEq

/-- `kMaxSpeechFrames` -/
def kMaxSpeechFrames : Int :=
  6

namespace HangoverInst

/-- `WebRtcVad_InitCore`, with mode 0 as the default. -/
def initCore : HangoverInst where
  tables := modeQ
  overHang := 0
  numOfSpeech := 0

/-- `WebRtcVad_set_mode_core` -/
def setModeCore (self : HangoverInst) (mode : Int) : Int × HangoverInst :=
  match modeTables mode with
  | some tables => (0, { self with tables })
  | none => (-1, self)

/-- The end of `GmmProbability`: the decision for a raw one, and the instance behind it. -/
def smooth
    (frameLength : Nat)
    (self : HangoverInst)
    (vadflag : Bool) : Int × HangoverInst :=
  let overhead1 := self.tables.overHangMax1.at_ frameLength
  let overhead2 := self.tables.overHangMax2.at_ frameLength
  if vadflag = false then
    if 0 < self.overHang then
      (int16 (2 + self.overHang),
        { self with overHang := int16 (self.overHang - 1), numOfSpeech := 0 })
    else (0, { self with numOfSpeech := 0 })
  else
    let numOfSpeech := int16 (self.numOfSpeech + 1)
    if kMaxSpeechFrames < numOfSpeech then
      (1, { self with numOfSpeech := kMaxSpeechFrames, overHang := overhead2 })
    else (1, { self with numOfSpeech, overHang := overhead1 })

end HangoverInst

/-! ## Runs of frames -/

section Runs

variable (start : HangoverInst) (frameLength : Nat) (raw : Nat → Bool)

/-- The instance after some frames with these raw decisions. -/
def afterFrames : Nat → HangoverInst
  | 0 => start
  | n + 1 => ((afterFrames n).smooth frameLength (raw n)).2

/-- The decision at a frame. -/
def decision (n : Nat) : Int :=
  ((afterFrames start frameLength raw n).smooth frameLength (raw n)).1

/-- How many of the frames right before a frame are raw speech frames in a row. -/
def speechRunBefore : Nat → Nat
  | 0 => 0
  | n + 1 => if raw n then speechRunBefore n + 1 else 0

/-- The overhang that a raw speech frame sets: `overhead2` where the run that ends with it is
longer than 6. -/
def overhangSetAt (m : Nat) : Int :=
  if 6 < speechRunBefore raw (m + 1) then start.tables.overHangMax2.at_ frameLength
  else start.tables.overHangMax1.at_ frameLength

/-- A frame is the latest raw speech frame before another. -/
structure IsLatestSpeech (m n : Nat) : Prop where
  before : m < n
  speech : raw m = true
  silent : ∀ k, m < k → k < n → raw k = false

end Runs

section

variable {raw : Nat → Bool} {m n : Nat}

/-- Behind a raw speech frame it is the latest one. -/
theorem isLatestSpeech_succ_of_speech
    (speech : raw n = true) :
    IsLatestSpeech raw m (n + 1) ↔ m = n := by
  constructor
  · intro latest
    by_contra differs
    have before := latest.before
    have silent := latest.silent n (by omega) (Nat.lt_succ_self n)
    rw [speech] at silent
    contradiction
  · rintro rfl
    exact ⟨Nat.lt_succ_self m, speech, fun k above below => by omega⟩

/-- Behind another frame the latest raw speech frame is the one before it. -/
theorem isLatestSpeech_succ_of_silent
    (silent : raw n = false) :
    IsLatestSpeech raw m (n + 1) ↔ IsLatestSpeech raw m n := by
  constructor
  · intro latest
    have differs : m ≠ n := by
      rintro rfl
      rw [latest.speech] at silent
      contradiction
    have before := latest.before
    exact ⟨by omega, latest.speech, fun k above below => latest.silent k above (by omega)⟩
  · intro latest
    refine ⟨Nat.lt_succ_of_lt latest.before, latest.speech, fun k above below => ?_⟩
    rcases Nat.lt_succ_iff_lt_or_eq.mp below with earlier | rfl
    · exact latest.silent k above earlier
    · exact silent

end

/-! ## What the counters hold -/

section Counters

variable {start : HangoverInst} {frameLength : Nat} {raw : Nat → Bool}

/-- The overhangs of a mode are small. -/
structure SmallOverhangs (tables : ModeTables) (frameLength : Nat) : Prop where
  first : 0 ≤ tables.overHangMax1.at_ frameLength ∧ tables.overHangMax1.at_ frameLength ≤ 14
  second : 0 ≤ tables.overHangMax2.at_ frameLength ∧ tables.overHangMax2.at_ frameLength ≤ 14

/-- What the counters of an instance hold after some frames. -/
structure Counts
    (start : HangoverInst)
    (frameLength : Nat)
    (raw : Nat → Bool)
    (n : Nat)
    (inst : HangoverInst) : Prop where
  tables : inst.tables = start.tables
  counted : inst.numOfSpeech = min (speechRunBefore raw n) 6
  range : 0 ≤ inst.overHang ∧ inst.overHang ≤ 14
  left :
    ∀ j : Nat, 0 < j →
      ((j : Int) ≤ inst.overHang ↔
        ∃ m, IsLatestSpeech raw m n ∧
          (n : Int) - m + j - 1 ≤ overhangSetAt start frameLength raw m)

theorem counts_start
    (hangs : start.overHang = 0)
    (none_ : start.numOfSpeech = 0) :
    Counts start frameLength raw 0 start where
  tables := rfl
  counted := none_
  range := by rw [hangs]; decide
  left j positive := by
    rw [hangs]
    constructor
    · intro notAbove
      omega
    · rintro ⟨m, latest, -⟩
      exact absurd latest.before (Nat.not_lt_zero m)

/-- A raw speech frame sets the overhang. -/
theorem counts_of_speech
    {inst : HangoverInst}
    (small : SmallOverhangs start.tables frameLength)
    (counts : Counts start frameLength raw n inst)
    (speech : raw n = true) :
    Counts start frameLength raw (n + 1) (inst.smooth frameLength true).2 := by
  have longer : speechRunBefore raw (n + 1) = speechRunBefore raw n + 1 := by
    rw [speechRunBefore, if_pos speech]
  have counted := counts.counted
  have next : int16 (inst.numOfSpeech + 1) = inst.numOfSpeech + 1 :=
    int16_of_bounds (by omega) (by omega)
  have set_ :
      (inst.smooth frameLength true).2.overHang =
        overhangSetAt start frameLength raw n ∧
      (inst.smooth frameLength true).2.numOfSpeech =
        min (speechRunBefore raw (n + 1)) 6 ∧
      (inst.smooth frameLength true).2.tables = start.tables := by
    simp only [HangoverInst.smooth, next, kMaxSpeechFrames, counts.tables, overhangSetAt,
      longer, Bool.true_eq_false, if_false]
    by_cases isLong : 6 < speechRunBefore raw n + 1
    · rw [if_pos (by omega), if_pos isLong]
      exact ⟨rfl, by dsimp only; omega, rfl⟩
    · rw [if_neg (by omega), if_neg isLong]
      exact ⟨rfl, by dsimp only; omega, rfl⟩
  obtain ⟨hangs, number, tables⟩ := set_
  refine ⟨tables, number, ?_, fun j positive => ?_⟩
  · rw [hangs, overhangSetAt]
    split
    · exact small.second
    · exact small.first
  · simp only [hangs, isLatestSpeech_succ_of_speech speech, exists_eq_left]
    push_cast
    constructor <;> intro notAbove <;> omega

/-- Another frame takes one off the overhang. -/
theorem counts_of_silent
    {inst : HangoverInst}
    (counts : Counts start frameLength raw n inst)
    (silent : raw n = false) :
    Counts start frameLength raw (n + 1) (inst.smooth frameLength false).2 := by
  obtain ⟨nonneg, notAbove⟩ := counts.range
  have ended : speechRunBefore raw (n + 1) = 0 := by
    rw [speechRunBefore, silent]
    rfl
  have next : int16 (inst.overHang - 1) = inst.overHang - 1 :=
    int16_of_bounds (by omega) (by omega)
  have after :
      (inst.smooth frameLength false).2 =
        { inst with overHang := max (inst.overHang - 1) 0, numOfSpeech := 0 } := by
    simp only [HangoverInst.smooth, next, if_true]
    by_cases hangs : 0 < inst.overHang
    · rw [if_pos hangs, Int.max_eq_left (by omega)]
    · rw [if_neg hangs, Int.max_eq_right (by omega)]
      have none_left : inst.overHang = 0 := by omega
      rw [HangoverInst.mk.injEq]
      exact ⟨rfl, none_left, rfl⟩
  rw [after]
  refine ⟨counts.tables, by rw [ended]; rfl, by dsimp only; omega, fun j positive => ?_⟩
  have before := counts.left (j + 1) (Nat.succ_pos j)
  simp only [isLatestSpeech_succ_of_silent silent]
  calc
    (j : Int) ≤ max (inst.overHang - 1) 0 ↔ ((j + 1 : Nat) : Int) ≤ inst.overHang := by
      omega
    _ ↔ _ := before
    _ ↔ _ := by
      refine exists_congr fun m => and_congr_right fun _ => ?_
      push_cast
      constructor <;> intro inTime <;> omega

/-- The counters along a run from the initialisation. -/
theorem counts_afterFrames
    (small : SmallOverhangs start.tables frameLength)
    (hangs : start.overHang = 0)
    (none_ : start.numOfSpeech = 0)
    (n : Nat) :
    Counts start frameLength raw n (afterFrames start frameLength raw n) := by
  induction n with
  | zero =>
      exact counts_start hangs none_
  | succ n inductionHypothesis =>
      rw [afterFrames]
      cases decided : raw n with
      | true =>
          exact counts_of_speech small inductionHypothesis decided
      | false =>
          exact counts_of_silent inductionHypothesis decided

/-- A decision is positive for raw speech, and else as long as there is some overhang. -/
theorem decision_pos
    {inst : HangoverInst}
    (range : 0 ≤ inst.overHang ∧ inst.overHang ≤ 14)
    (vadflag : Bool) :
    0 < (inst.smooth frameLength vadflag).1 ↔ vadflag = true ∨ 1 ≤ inst.overHang := by
  obtain ⟨nonneg, notAbove⟩ := range
  have held : int16 (2 + inst.overHang) = 2 + inst.overHang :=
    int16_of_bounds (by omega) (by omega)
  cases vadflag with
  | true =>
      simp only [HangoverInst.smooth, Bool.true_eq_false, if_false, true_or, iff_true]
      split <;> exact Int.one_pos
  | false =>
      simp only [HangoverInst.smooth, held, if_true, Bool.false_eq_true, false_or]
      split <;> dsimp only <;> omega

/-- An initialised instance in a mode, valid or not, has small overhangs and nothing counted. -/
theorem setModeCore_initCore (mode : Int) (frameLength : Nat) :
    let start := (HangoverInst.initCore.setModeCore mode).2
    SmallOverhangs start.tables frameLength ∧ start.overHang = 0 ∧ start.numOfSpeech = 0 := by
  have small :
      ∀ tables ∈ [modeQ, modeLBR, modeAGG, modeVAG], SmallOverhangs tables frameLength := by
    simp only [List.forall_mem_cons, List.not_mem_nil, false_implies, implies_true, and_true]
    refine ⟨?_, ?_, ?_, ?_⟩ <;> constructor <;>
      (unfold ForLengths.at_; split_ifs <;> decide)
  dsimp only
  unfold HangoverInst.setModeCore
  split
  next tables isMode =>
      refine ⟨small tables ?_, rfl, rfl⟩
      unfold modeTables at isMode
      split_ifs at isMode <;> simp [← Option.some.inj isMode]
  next =>
      exact ⟨small modeQ List.mem_cons_self, rfl, rfl⟩

/-- In a run of one mode and frame length a decision is positive if the raw one is speech or
the latest raw speech frame is no longer ago than the overhang that it set. -/
theorem decision_pos_iff
    (mode : Int)
    (frameLength : Nat)
    (raw : Nat → Bool)
    (n : Nat) :
    let start := (HangoverInst.initCore.setModeCore mode).2
    0 < decision start frameLength raw n ↔
      raw n = true ∨
        ∃ m, IsLatestSpeech raw m n ∧
          (n : Int) - m ≤ overhangSetAt start frameLength raw m := by
  intro start
  obtain ⟨small, hangs, none_⟩ := setModeCore_initCore mode frameLength
  have counts : Counts start frameLength raw n (afterFrames start frameLength raw n) :=
    counts_afterFrames small hangs none_ n
  have left := counts.left 1 Nat.one_pos
  rw [decision, decision_pos counts.range]
  refine or_congr_right (left.trans ?_)
  simp only [Int.natCast_one, Int.add_sub_cancel]

end Counters

end ApmSdk.Vad
