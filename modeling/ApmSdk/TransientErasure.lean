import Mathlib.Algebra.Order.Ring.Int
import Mathlib.Tactic.Common

namespace ApmSdk.TransientErasure

/-!
# Histories without transients

A history lists weighted entries, newest first.  Entries up to a threshold count as
nothing, and a run of entries above it counts as nothing either when it turns out to be
no longer than some width, which is seen at the entry that ends it.
-/

variable {Bin : Type*}

/-- A weight that is to be counted in a bin. -/
structure Entry (Bin : Type*) where
  weight : Int
  bin : Bin

/-- The entry without its weight. -/
def Entry.mute (entry : Entry Bin) : Entry Bin :=
  { entry with weight := 0 }

@[simp] theorem Entry.weight_mute (entry : Entry Bin) : entry.mute.weight = 0 :=
  rfl

@[simp] theorem Entry.bin_mute (entry : Entry Bin) : entry.mute.bin = entry.bin :=
  rfl

/-- Whether the newest entry, if there is one, is up to the threshold. -/
def Quiet (threshold : Int) (history : List (Entry Bin)) : Prop :=
  ∀ entry ∈ history.head?, entry.weight ≤ threshold

/-- The entries above the threshold since the last one that was not. -/
def activeRun (threshold : Int) (history : List (Entry Bin)) : Nat :=
  (history.takeWhile fun entry => threshold < entry.weight).length

/-- The history without the weights of its newest entries. -/
def muteNewest (count : Nat) (history : List (Entry Bin)) : List (Entry Bin) :=
  (history.take count).map Entry.mute ++ history.drop count

/-- The history after one more entry. -/
def record
    (threshold : Int)
    (width : Nat)
    (entry : Entry Bin)
    (history : List (Entry Bin)) : List (Entry Bin) :=
  if entry.weight ≤ threshold then
    entry.mute ::
      (if activeRun threshold history ≤ width then
        muteNewest (activeRun threshold history) history
      else
        history)
  else
    entry :: history

/-- What is left of the entries, newest first, when the transients are taken out. -/
def settled
    (threshold : Int)
    (width : Nat)
    (entries : List (Entry Bin)) : List (Entry Bin) :=
  entries.foldr (record threshold width) []

/-- The weight that a history has in one bin. -/
def tally [DecidableEq Bin] (bin : Bin) (history : List (Entry Bin)) : Int :=
  (history.map fun entry => if entry.bin = bin then entry.weight else 0).sum

/-- The weight that a history has in all bins. -/
def content (history : List (Entry Bin)) : Int :=
  (history.map Entry.weight).sum

variable {threshold : Int} {width : Nat}
variable {entries history run older : List (Entry Bin)}

section Runs

theorem activeRun_cons_of_le
    {entry : Entry Bin}
    (low : entry.weight ≤ threshold) :
    activeRun threshold (entry :: history) = 0 := by
  simp [activeRun, low]

theorem activeRun_cons_of_lt
    {entry : Entry Bin}
    (high : threshold < entry.weight) :
    activeRun threshold (entry :: history) = activeRun threshold history + 1 := by
  simp [activeRun, high]

theorem activeRun_le_length : activeRun threshold history ≤ history.length := by
  unfold activeRun
  exact (List.takeWhile_sublist _).length_le

/-- A run of high entries in front of a quiet history is all of its active run. -/
theorem activeRun_append
    (high : ∀ entry ∈ run, threshold < entry.weight)
    (quiet : Quiet threshold older) :
    activeRun threshold (run ++ older) = run.length := by
  induction run with
  | nil =>
      cases older with
      | nil =>
          rfl
      | cons entry rest =>
          exact activeRun_cons_of_le (quiet entry rfl)
  | cons entry rest inductionHypothesis =>
      rw [List.forall_mem_cons] at high
      rw [List.cons_append, activeRun_cons_of_lt high.1,
        inductionHypothesis high.2, List.length_cons]

end Runs

section Settled

@[simp] theorem settled_nil :
    settled threshold width ([] : List (Entry Bin)) = [] :=
  rfl

theorem settled_cons (entry : Entry Bin) :
    settled threshold width (entry :: entries) =
      record threshold width entry (settled threshold width entries) :=
  rfl

/-- Taking out transients leaves the run that is not over as it is. -/
theorem activeRun_settled (nonneg : 0 ≤ threshold) :
    activeRun threshold (settled threshold width entries) =
      activeRun threshold entries := by
  induction entries with
  | nil =>
      rfl
  | cons entry rest inductionHypothesis =>
      by_cases low : entry.weight ≤ threshold
      · rw [settled_cons, activeRun_cons_of_le low, record, if_pos low]
        exact activeRun_cons_of_le nonneg
      · rw [settled_cons, record, if_neg low,
          activeRun_cons_of_lt (not_le.mp low),
          activeRun_cons_of_lt (not_le.mp low),
          inductionHypothesis]

end Settled

section Specification

/-- The run that is not over counts, whatever its length. -/
theorem settled_append_of_high
    (high : ∀ entry ∈ run, threshold < entry.weight) :
    settled threshold width (run ++ older) = run ++ settled threshold width older := by
  induction run with
  | nil =>
      rfl
  | cons entry rest inductionHypothesis =>
      rw [List.forall_mem_cons] at high
      rw [List.cons_append, settled_cons, inductionHypothesis high.2, record,
        if_neg (not_le.mpr high.1), List.cons_append]

/-- A quiet history stays quiet. -/
theorem quiet_settled
    (nonneg : 0 ≤ threshold)
    (quiet : Quiet threshold older) :
    Quiet threshold (settled threshold width older) := by
  cases older with
  | nil =>
      exact quiet
  | cons entry rest =>
      have low := quiet entry rfl
      rw [settled_cons, record, if_pos low]
      intro muted isHead
      cases isHead
      exact nonneg

/-- Entries that are not above the threshold do not count. -/
theorem settled_append_of_low
    (nonneg : 0 ≤ threshold)
    (low : ∀ entry ∈ run, entry.weight ≤ threshold)
    (quiet : Quiet threshold older) :
    settled threshold width (run ++ older) =
      run.map Entry.mute ++ settled threshold width older := by
  induction run with
  | nil =>
      rfl
  | cons entry rest inductionHypothesis =>
      rw [List.forall_mem_cons] at low
      have restQuiet : Quiet threshold (rest ++ older) := by
        intro newest isHead
        cases rest with
        | nil =>
            exact quiet newest isHead
        | cons first others =>
            cases isHead
            exact low.2 newest (List.mem_cons_self ..)
      have notActive :
          activeRun threshold (settled threshold width (rest ++ older)) = 0 :=
        activeRun_append (List.forall_mem_nil _) (quiet_settled nonneg restQuiet)
      rw [List.cons_append, settled_cons, record, if_pos low.1, notActive,
        if_pos (Nat.zero_le width), muteNewest, List.take_zero, List.drop_zero,
        inductionHypothesis low.2]
      rfl

/--
A run that is over counts if it is longer than the width, and is taken out if it is not;
the entry that ends it does not count.
-/
theorem settled_closed_run
    {ending : Entry Bin}
    (nonneg : 0 ≤ threshold)
    (low : ending.weight ≤ threshold)
    (high : ∀ entry ∈ run, threshold < entry.weight)
    (quiet : Quiet threshold older) :
    settled threshold width (ending :: (run ++ older)) =
      ending.mute ::
        ((if run.length ≤ width then run.map Entry.mute else run) ++
          settled threshold width older) := by
  have counted :
      activeRun threshold (run ++ settled threshold width older) = run.length :=
    activeRun_append high (quiet_settled nonneg quiet)
  rw [settled_cons, settled_append_of_high high, record, if_pos low, counted]
  split
  · rw [muteNewest, List.take_left, List.drop_left]
  · rfl

end Specification

section Tallies

variable [DecidableEq Bin]

@[simp] theorem tally_nil (bin : Bin) : tally bin [] = 0 :=
  rfl

theorem tally_cons (bin : Bin) (entry : Entry Bin) :
    tally bin (entry :: history) =
      (if entry.bin = bin then entry.weight else 0) + tally bin history := by
  unfold tally
  rw [List.map_cons, List.sum_cons]

theorem tally_append (bin : Bin) :
    tally bin (run ++ older) = tally bin run + tally bin older := by
  unfold tally
  rw [List.map_append, List.sum_append]

omit [DecidableEq Bin] in
theorem content_cons (entry : Entry Bin) :
    content (entry :: history) = entry.weight + content history := by
  unfold content
  rw [List.map_cons, List.sum_cons]

omit [DecidableEq Bin] in
@[simp] theorem content_nil : content ([] : List (Entry Bin)) = 0 :=
  rfl

omit [DecidableEq Bin] in
theorem content_append :
    content (run ++ older) = content run + content older := by
  unfold content
  rw [List.map_append, List.sum_append]

end Tallies

section Weights

variable {allowed : Int → Prop}

/-- Muting keeps a property of weights that no weight has as well. -/
theorem weight_of_mem_muteNewest
    {count : Nat}
    {entry : Entry Bin}
    (zero : allowed 0)
    (within : ∀ entry ∈ history, allowed entry.weight)
    (member : entry ∈ muteNewest count history) :
    allowed entry.weight := by
  rcases List.mem_append.mp member with muted | kept
  · obtain ⟨given, -, rfl⟩ := List.mem_map.mp muted
    exact zero
  · exact within entry (List.mem_of_mem_drop kept)

/-- The weights that are left are given ones above the threshold, or nothing. -/
theorem weight_of_mem_settled
    (zero : allowed 0)
    (given : ∀ entry ∈ entries, threshold < entry.weight → allowed entry.weight) :
    ∀ entry ∈ settled threshold width entries, allowed entry.weight := by
  induction entries with
  | nil =>
      simp
  | cons newest rest inductionHypothesis =>
      rw [List.forall_mem_cons] at given
      have restWithin := inductionHypothesis given.2
      rw [settled_cons, record]
      split
      next low =>
          rw [List.forall_mem_cons]
          refine ⟨zero, fun entry member => ?_⟩
          split at member
          · exact weight_of_mem_muteNewest zero restWithin member
          · exact restWithin entry member
      next high =>
          rw [List.forall_mem_cons]
          exact ⟨given.1 (not_le.mp high), restWithin⟩

theorem tally_nonneg
    [DecidableEq Bin]
    (bin : Bin)
    (nonneg : ∀ entry ∈ history, 0 ≤ entry.weight) :
    0 ≤ tally bin history := by
  induction history with
  | nil =>
      exact le_rfl
  | cons entry rest inductionHypothesis =>
      rw [List.forall_mem_cons] at nonneg
      have restNonneg := inductionHypothesis nonneg.2
      rw [tally_cons]
      split
      · exact Int.add_nonneg nonneg.1 restNonneg
      · exact Int.add_nonneg le_rfl restNonneg

end Weights

end ApmSdk.TransientErasure
