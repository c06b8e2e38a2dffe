import Mathlib.Data.List.Forall2
import Mathlib.Tactic.Common

namespace ApmSdk

/-!
# Computations that can fail

A computation that checks its own steps returns an option.  The rules below show that it
returns, and with what, from the same about its parts.  Nothing here depends on a
particular computation.
-/

/-- A computation returns, with a value that meets a condition. -/
def Returns
    {α : Type*}
    (computation : Option α)
    (holds : α → Prop) : Prop :=
  ∃ value, computation = some value ∧ holds value

namespace Returns

universe u

variable {α β : Type u}

/-- A value is returned. -/
theorem pure
    {holds : α → Prop}
    {value : α}
    (meets : holds value) :
    Returns (some value) holds :=
  ⟨value, rfl, meets⟩

/-- A computation returns where its first part does, and the rest on what it returns. -/
theorem bind
    {first : Option α}
    {rest : α → Option β}
    {between : α → Prop}
    {holds : β → Prop}
    (begins : Returns first between)
    (ends : ∀ value, between value → Returns (rest value) holds) :
    Returns (first >>= rest) holds := by
  obtain ⟨value, rfl, meets⟩ := begins
  exact ends value meets

/-- A condition can be weakened. -/
theorem imp
    {computation : Option α}
    {holds weaker : α → Prop}
    (returns : Returns computation holds)
    (weakens : ∀ value, holds value → weaker value) :
    Returns computation weaker := by
  obtain ⟨value, returned, meets⟩ := returns
  exact ⟨value, returned, weakens value meets⟩

/-- A computation for every item of a list returns where each of them does. -/
theorem mapM
    {f : α → Option β}
    {items : List α}
    {holds : β → Prop}
    (each : ∀ item ∈ items, Returns (f item) holds) :
    Returns (items.mapM f) fun images =>
      images.length = items.length ∧ ∀ image ∈ images, holds image := by
  induction items with
  | nil =>
      exact pure ⟨rfl, by simp⟩
  | cons item rest inductionHypothesis =>
      rw [List.forall_mem_cons] at each
      rw [List.mapM_cons]
      refine bind each.1 fun image head => ?_
      refine bind (inductionHypothesis each.2) fun images tail => ?_
      refine pure ⟨by simp [tail.1], ?_⟩
      rw [List.forall_mem_cons]
      exact ⟨head, tail.2⟩

/-- A computation along a list returns where an invariant lets every step do so. -/
theorem foldlM
    {f : β → α → Option β}
    {items : List α}
    {start : β}
    (invariant : β → Prop)
    (initial : invariant start)
    (each :
      ∀ state, ∀ item ∈ items,
        invariant state → Returns (f state item) invariant) :
    Returns (items.foldlM f start) invariant := by
  induction items generalizing start with
  | nil =>
      exact pure initial
  | cons item rest inductionHypothesis =>
      rw [List.foldlM_cons]
      refine
        bind (each start item (List.mem_cons_self ..) initial)
          fun next kept => ?_
      exact
        inductionHypothesis kept
          fun state item member =>
            each state item (List.mem_cons_of_mem _ member)

end Returns

/-- Where each item has a value, the list has these. -/
theorem mapM_of_forall
    {α β : Type*}
    {f : α → Option β}
    {g : α → β}
    {items : List α}
    (each : ∀ item ∈ items, f item = some (g item)) :
    items.mapM f = some (items.map g) := by
  induction items with
  | nil =>
      rfl
  | cons item rest inductionHypothesis =>
      rw [List.forall_mem_cons] at each
      rw [List.mapM_cons, each.1, inductionHypothesis each.2]
      rfl

/-- What is computed for a list is computed item by item. -/
theorem forall₂_of_mapM
    {α β : Type*}
    {f : α → Option β}
    {items : List α}
    {images : List β}
    (mapped : items.mapM f = some images) :
    List.Forall₂ (fun item image => f item = some image) items images := by
  induction items generalizing images with
  | nil =>
      obtain rfl := Option.some.inj mapped
      exact .nil
  | cons item rest inductionHypothesis =>
      rw [List.mapM_cons] at mapped
      obtain ⟨image, isImage, later⟩ := Option.bind_eq_some_iff.mp mapped
      obtain ⟨restImages, restMapped, isImages⟩ :=
        Option.bind_eq_some_iff.mp later
      obtain rfl := Option.some.inj isImages
      exact .cons isImage (inductionHypothesis restMapped)

theorem length_of_mapM
    {α β : Type*}
    {f : α → Option β}
    {items : List α}
    {images : List β}
    (mapped : items.mapM f = some images) :
    images.length = items.length :=
  (forall₂_of_mapM mapped).length_eq.symm

theorem mem_of_mapM
    {α β : Type*}
    {f : α → Option β}
    {items : List α}
    {images : List β}
    (mapped : items.mapM f = some images)
    {image : β}
    (member : image ∈ images) :
    ∃ item ∈ items, f item = some image := by
  obtain ⟨place, rfl⟩ := List.get_of_mem member
  have inItems : place < items.length := by
    rw [← length_of_mapM mapped]
    exact place.isLt
  exact
    ⟨_, List.get_mem items ⟨place, inItems⟩,
      (forall₂_of_mapM mapped).get inItems place.isLt⟩

/-- A conversion that must keep its value. -/
def checked
    (convert : Int → Int)
    (value : Int) : Option Int :=
  if convert value = value then some value else none

/-- A checked conversion hands a value that fits on to the rest. -/
theorem Returns.checked
    {β : Type}
    {convert : Int → Int}
    {value : Int}
    {rest : Int → Option β}
    {holds : β → Prop}
    (fits : convert value = value)
    (ends : Returns (rest value) holds) :
    Returns (ApmSdk.checked convert value >>= rest) holds := by
  rw [ApmSdk.checked, if_pos fits]
  exact ends

/-! ## Computations in several modes -/

/-- In all modes that are admitted a computation returns one value, which meets a condition. -/
def Agreed
    {Mode : Type*}
    {α : Type*}
    (admitted : Mode → Prop)
    (computation : Mode → Option α)
    (holds : α → Prop) : Prop :=
  ∃ value, (∀ mode, admitted mode → computation mode = some value) ∧ holds value

namespace Agreed

universe u

variable {Mode : Type*}
variable {admitted : Mode → Prop}
variable {α β : Type u}

/-- A value does not depend on the mode. -/
theorem pure
    {holds : α → Prop}
    {value : α}
    (meets : holds value) :
    Agreed admitted (fun _ => some value) holds :=
  ⟨value, fun _ _ => rfl, meets⟩

/-- The modes agree where they do on the first part and on the rest behind it. -/
theorem bind
    {first : Mode → Option α}
    {rest : Mode → α → Option β}
    {between : α → Prop}
    {holds : β → Prop}
    (begins : Agreed admitted first between)
    (ends : ∀ value, between value → Agreed admitted (fun mode => rest mode value) holds) :
    Agreed admitted (fun mode => first mode >>= rest mode) holds := by
  obtain ⟨value, returns, meets⟩ := begins
  obtain ⟨last, later, holdsLast⟩ := ends value meets
  refine ⟨last, fun mode isAdmitted => ?_, holdsLast⟩
  have begun := returns mode isAdmitted
  exact (congrArg (· >>= rest mode) begun).trans (later mode isAdmitted)

/-- A condition can be weakened. -/
theorem imp
    {computation : Mode → Option α}
    {holds weaker : α → Prop}
    (agreed : Agreed admitted computation holds)
    (weakens : ∀ value, holds value → weaker value) :
    Agreed admitted computation weaker := by
  obtain ⟨value, returns, meets⟩ := agreed
  exact ⟨value, returns, weakens value meets⟩

/-- A computation that does not depend on the mode, and returns. -/
theorem of_returns
    {computation : Option α}
    {holds : α → Prop}
    (returns : Returns computation holds) :
    Agreed admitted (fun _ => computation) holds := by
  obtain ⟨value, returned, meets⟩ := returns
  exact ⟨value, fun _ _ => returned, meets⟩

/-- The modes agree on the images of a list where they do on that of every item. -/
theorem mapM
    {f : Mode → α → Option β}
    {items : List α}
    {holds : α → β → Prop}
    (each : ∀ item ∈ items, Agreed admitted (fun mode => f mode item) (holds item)) :
    Agreed admitted (fun mode => items.mapM (f mode)) (List.Forall₂ holds items) := by
  induction items with
  | nil =>
      exact pure .nil
  | cons item rest inductionHypothesis =>
      rw [List.forall_mem_cons] at each
      simp only [List.mapM_cons]
      refine bind each.1 fun image head => ?_
      exact bind (inductionHypothesis each.2) fun images tail => pure (.cons head tail)

/-- The modes agree along a list where what holds before each item lets them agree on its step,
and holds before the next one then. -/
theorem foldlM
    {f : Mode → β → α → Option β}
    {items : List α}
    {start : β}
    (holds : Nat → β → Prop)
    (initial : holds 0 start)
    (each :
      ∀ state position, ∀ inside : position < items.length,
        holds position state →
          Agreed admitted (fun mode => f mode state items[position]) (holds (position + 1))) :
    Agreed admitted (fun mode => items.foldlM (f mode) start) (holds items.length) := by
  induction items generalizing start holds with
  | nil =>
      exact pure initial
  | cons item rest inductionHypothesis =>
      simp only [List.foldlM_cons]
      refine bind (each start 0 (Nat.zero_lt_succ _) initial) fun next kept => ?_
      exact
        inductionHypothesis (fun position => holds (position + 1)) kept
          fun state position inside =>
            each state (position + 1) (Nat.succ_lt_succ inside)

end Agreed

end ApmSdk
