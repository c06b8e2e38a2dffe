import ApmSdk.LabelledPath
import Mathlib.Data.List.Basic
import Mathlib.Tactic.Common

namespace ApmSdk.NativeHandle

/-!
# The native object behind an `Apm`

The Java class keeps the address of its `ApmProcessing` object in the `long`
field `objData`.  The JNI functions read the field with `get_ctx` and follow it;
only `nativeCreateApmInstance` ever writes it.  The memory below keeps every
object ever allocated, so that a use of a freed one is seen.
-/

/-- An `ApmProcessing` object with what has happened to its storage. -/
structure ApmProcessing where
  isInit : Bool
  frees : Nat
  usesAfterFree : Nat
  deriving Repr, DecidableEq

/-- A new object on which `Init(48000, 1)` has run. -/
def ApmProcessing.created : ApmProcessing where
  isInit := true
  frees := 0
  usesAfterFree := 0

/-- Follow a pointer to the object. -/
def ApmProcessing.dereference
    (apm : ApmProcessing) : ApmProcessing :=
  if apm.frees = 0 then
    apm
  else
    { apm with usesAfterFree := apm.usesAfterFree + 1 }

/-- `apm->Release()`, which clears `isInit`, then `delete apm`. -/
def ApmProcessing.releaseAndDelete
    (apm : ApmProcessing) : ApmProcessing :=
  { apm.dereference with
    isInit := false
    frees := apm.dereference.frees + 1 }

/-- The `Apm` object's fields and the native memory. -/
structure Apm where
  memory : List ApmProcessing
  objData : Nat
  init : Bool
  objDataAllocated : objData < memory.length
  deriving Repr, DecidableEq

namespace Apm

/-- The object that `get_ctx` leads to. -/
def ctx (apm : Apm) : ApmProcessing :=
  apm.memory.get ⟨apm.objData, apm.objDataAllocated⟩

/-- Change the object that `get_ctx` leads to. -/
def modifyCtx
    (apm : Apm)
    (change : ApmProcessing → ApmProcessing) : Apm where
  memory := apm.memory.modify apm.objData change
  objData := apm.objData
  init := apm.init
  objDataAllocated := by
    simpa using apm.objDataAllocated

/--
`nativeCreateApmInstance`: allocate an object and store its address.  A failed
`new` does not return, so the result is always true.
-/
def nativeCreateApmInstance (apm : Apm) : Apm where
  memory := apm.memory ++ [.created]
  objData := apm.memory.length
  init := apm.init
  objDataAllocated := by
    simp

/-- `nativeFreeApmInstance`: the field keeps its value. -/
def nativeFreeApmInstance (apm : Apm) : Apm :=
  apm.modifyCtx .releaseAndDelete

/-- Any other native method: it follows the stored address. -/
def processingCall (apm : Apm) : Apm :=
  apm.modifyCtx .dereference

/-- `new Apm(..)`: a Java object of its own, created over the same memory. -/
def construct (memory : List ApmProcessing) : Apm where
  memory := memory ++ [.created]
  objData := memory.length
  init := true
  objDataAllocated := by
    simp

/-- `Apm.destroy`, which only looks at `init`. -/
def destroy (apm : Apm) : Apm :=
  if apm.init then
    { apm.nativeFreeApmInstance with init := false }
  else
    apm

/-- `MainActivity.onDestroy`, which frees without looking. -/
def onDestroy (apm : Apm) : Apm :=
  apm.nativeFreeApmInstance

end Apm

/-- What the application can do with its `Apm` object. -/
inductive Operation where
  | newApm
  | nativeCreate
  | nativeFree
  | destroy
  | onDestroy
  | processing
  deriving Repr, DecidableEq

/-- The effect of one operation. -/
def Operation.run : Operation → Apm → Apm
  | .newApm, apm => Apm.construct apm.memory
  | .nativeCreate, apm => apm.nativeCreateApmInstance
  | .nativeFree, apm => apm.nativeFreeApmInstance
  | .destroy, apm => apm.destroy
  | .onDestroy, apm => apm.onDestroy
  | .processing, apm => apm.processingCall

/-- The transition relation of the application. -/
def operationStep
    (source : Apm)
    (operation : Operation)
    (target : Apm) : Prop :=
  target = operation.run source

/-- The object was freed at most once and not used after that. -/
def ApmProcessing.Safe (apm : ApmProcessing) : Prop :=
  apm.frees ≤ 1 ∧ apm.usesAfterFree = 0

/-- Every native object was freed at most once and not used after that. -/
def Safe (apm : Apm) : Prop :=
  ∀ object ∈ apm.memory, object.Safe

/--
The operations the code is right for: what follows the stored address needs a
live object there, and `destroy` follows it only while `init` is set.
-/
def Live (apm : Apm) : Operation → Prop
  | .newApm => True
  | .nativeCreate => True
  | .nativeFree => apm.ctx.frees = 0
  | .destroy => apm.init = true → apm.ctx.frees = 0
  | .onDestroy => apm.ctx.frees = 0
  | .processing => apm.ctx.frees = 0

/-- Following a pointer to a safe object is safe exactly while it is not freed. -/
theorem safe_dereference_iff
    {apm : ApmProcessing}
    (safe : apm.Safe) :
    apm.dereference.Safe ↔ apm.frees = 0 := by
  unfold ApmProcessing.dereference
  split
  · exact ⟨fun _ => ‹_›, fun _ => safe⟩
  · simp [ApmProcessing.Safe, *]

/-- Freeing a safe object is safe exactly while it is not freed. -/
theorem safe_releaseAndDelete_iff
    {apm : ApmProcessing}
    (safe : apm.Safe) :
    apm.releaseAndDelete.Safe ↔ apm.frees = 0 := by
  unfold ApmProcessing.releaseAndDelete ApmProcessing.dereference
  split
  · simp [ApmProcessing.Safe, safe.2, *]
  · simp [ApmProcessing.Safe, *]

/-- Over a memory that is safe elsewhere, only the changed object matters. -/
theorem safe_modifyCtx_iff
    {apm : Apm}
    (safe : Safe apm)
    (change : ApmProcessing → ApmProcessing) :
    Safe (apm.modifyCtx change) ↔ (change apm.ctx).Safe := by
  constructor
  · intro after
    apply after
    refine List.mem_iff_getElem.mpr
      ⟨apm.objData, by simpa [Apm.modifyCtx]
        using apm.objDataAllocated, ?_⟩
    simp [Apm.modifyCtx, Apm.ctx]
  · intro changed object member
    obtain ⟨address, inRange, rfl⟩ := List.mem_iff_getElem.mp member
    simp only [Apm.modifyCtx, List.getElem_modify]
    split
    · subst address
      exact changed
    · exact safe _ (List.getElem_mem _)

/-- A new object is safe. -/
theorem safe_created : ApmProcessing.created.Safe := by
  simp [ApmProcessing.Safe, ApmProcessing.created]

/-- Allocating one more object keeps a memory safe. -/
theorem safe_append_created
    {memory : List ApmProcessing}
    (safe : ∀ object ∈ memory, object.Safe) :
    ∀ object ∈ memory ++ [.created], object.Safe := by
  rw [List.forall_mem_append]
  exact ⟨safe, by simpa using safe_created⟩

/-- The application state after the constructor has run. -/
def constructed : Apm :=
  Apm.construct []

/-- Nothing has been freed when the constructor returns. -/
theorem safe_constructed : Safe constructed :=
  safe_append_created (by simp)

/-- From a safe state, exactly the operations on a live object stay safe. -/
theorem safe_run_iff
    {apm : Apm}
    (safe : Safe apm)
    (operation : Operation) :
    Safe (operation.run apm) ↔ Live apm operation := by
  have contextSafe : apm.ctx.Safe :=
    safe _ (List.getElem_mem _)
  have freed :
      Safe apm.nativeFreeApmInstance ↔ apm.ctx.frees = 0 :=
    (safe_modifyCtx_iff safe _).trans
      (safe_releaseAndDelete_iff contextSafe)
  cases operation with
  | newApm =>
      exact iff_of_true (safe_append_created safe) trivial
  | nativeCreate =>
      exact iff_of_true (safe_append_created safe) trivial
  | nativeFree =>
      exact freed
  | destroy =>
      simp only [Operation.run, Apm.destroy, Live]
      cases initialised : apm.init with
      | true =>
          simpa [Safe] using freed
      | false =>
          simpa using safe
  | onDestroy =>
      exact freed
  | processing =>
      exact (safe_modifyCtx_iff safe _).trans
        (safe_dereference_iff contextSafe)

/-- Release the object explicitly, then let the activity be destroyed. -/
def freeThenOnDestroy : List (Move Apm Operation) :=
  [⟨constructed, .nativeFree, constructed.nativeFreeApmInstance⟩,
    ⟨constructed.nativeFreeApmInstance, .onDestroy,
      constructed.nativeFreeApmInstance.onDestroy⟩]

/-- Both frees are operations of the application. -/
theorem freeThenOnDestroy_path :
    Path operationStep constructed freeThenOnDestroy
      constructed.nativeFreeApmInstance.onDestroy :=
  .cons _ rfl (.cons _ rfl (.nil _))

end ApmSdk.NativeHandle
