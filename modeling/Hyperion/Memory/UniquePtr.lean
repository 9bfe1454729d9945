/-
The owning pointer of `Hyperion/memory/UniquePtr.h`, and programs over such pointers.

`m_ptr` is a `CompressedPair` of the pointer and its deleter; the pointer is `none`
where it is null.  The two specialisations, for `T` and for `T[]`, do the same to
their pair in every function given here.

A program runs over any number of these pointers.  What its deleters were called with
is on record, and so are the pointers that were adopted and the ones released, each
with the deleter at its side.
-/
import Hyperion.Lib.Custody
import Hyperion.Lib.Objects

namespace Hyperion

/-- What the pointer asks of its deleter: what a move leaves in the deleter moved from. -/
structure DeleterType (δ : Type) where
  moved : δ → δ

/-- `DefaultDeleter<T>` and `DefaultDeleter<T[]>` -/
inductive DefaultDeleter
  | mk

/-- `UniquePtr<T, Deleter>` -/
structure UniquePtr (π δ : Type) where
  first : Option π
  second : δ

/-- A call of a deleter. -/
structure Deletion (π δ : Type) where
  deleter : δ
  ptr : Option π
deriving DecidableEq

/-- The pointer a deleter was called with, if there was one, and the deleter. -/
def Deletion.disposed {π δ : Type} (c : Deletion π δ) : Option (π × δ) :=
  c.ptr.map fun p => (p, c.deleter)

namespace UniquePtr

variable {π δ : Type}

/-- `release()` -/
def release (u : UniquePtr π δ) : Option π × UniquePtr π δ := (u.first, { u with first := none })

/-- `reset(ptr)`: the deleter is called with whatever was there. -/
def reset (u : UniquePtr π δ) (ptr : Option π) : Deletion π δ × UniquePtr π δ :=
  (⟨u.second, u.first⟩, { u with first := ptr })

/-- `~UniquePtr()` -/
def destructor (u : UniquePtr π δ) : Deletion π δ × UniquePtr π δ := u.reset none

/-- `swap(ptr)` -/
def swap (u ptr : UniquePtr π δ) : UniquePtr π δ × UniquePtr π δ := (ptr, u)

/-- `UniquePtr(UniquePtr&& ptr)`: the new pointer, and the one moved from. -/
def move_construct (D : DeleterType δ) (ptr : UniquePtr π δ) : UniquePtr π δ × UniquePtr π δ :=
  let (p, ptr) := ptr.release
  (⟨p, ptr.second⟩, { ptr with second := D.moved ptr.second })

/-- `operator=(UniquePtr&& ptr)` from another pointer. -/
def move_assign (D : DeleterType δ) (u ptr : UniquePtr π δ) :
    Deletion π δ × UniquePtr π δ × UniquePtr π δ :=
  let (p, ptr) := ptr.release
  let (deletion, u) := u.reset p
  (deletion, { u with second := ptr.second }, { ptr with second := D.moved ptr.second })

/-- `get() != nullptr` -/
def manages (u : UniquePtr π δ) : Bool := u.first.isSome

/-- The pointer managed, with its deleter. -/
def managed (u : UniquePtr π δ) : Option (π × δ) := u.first.map fun p => (p, u.second)

end UniquePtr

/-! ### The deleter of `allocate_unique` -/

/-- What is done to a pointer. -/
inductive AllocatorUse
  | destroy (ptr : Option Nat)
  | deallocate (allocator : Nat) (ptr : Option Nat) (num_elements : Nat)
deriving DecidableEq

/-- The pointer it is done to. -/
def AllocatorUse.ptr : AllocatorUse → Option Nat
  | destroy ptr => ptr
  | deallocate _ ptr _ => ptr

/-- `AllocatorAwareDeleter<T>` and `AllocatorAwareDeleter<T[]>` -/
inductive AllocatorAwareDeleter
  | single (m_allocator : Nat)
  | array (m_allocator m_num_elements : Nat)
deriving DecidableEq

/-- `operator()(ptr)`, which does not ask whether there is a pointer. -/
def AllocatorAwareDeleter.call (ptr : Option Nat) : AllocatorAwareDeleter → List AllocatorUse
  | single m_allocator => [.destroy ptr, .deallocate m_allocator ptr 1]
  | array m_allocator m_num_elements => [.deallocate m_allocator ptr m_num_elements]

/-- A move of an allocator and a number leaves them as they are. -/
def AllocatorAwareDeleter.type : DeleterType AllocatorAwareDeleter := ⟨id⟩

/-! ### Programs -/

/-- The pointers of a program, and what was adopted, released and deleted so far. -/
structure Heap (δ : Type) where
  objects : Nat → Life (UniquePtr Nat δ)
  adopted : List (Nat × δ)
  released : List (Nat × δ)
  deletions : List (Deletion Nat δ)

namespace Heap

variable {δ : Type}

/-- Nothing was constructed yet. -/
def start : Heap δ := ⟨Objects.start, [], [], []⟩

/-- One statement; assignment of `nullptr` and `reset()` are `reset` to no pointer. -/
inductive Op (δ : Type)
  | construct (j : Nat) (ptr : Option Nat) (deleter : δ)
  | move_construct (j i : Nat)
  | move_assign (j i : Nat)
  | reset (j : Nat) (ptr : Option Nat)
  | release (j : Nat)
  | swap (j i : Nat)
  | destroy (j : Nat)

/-- One statement; `none` where it is none of a program's. -/
def step (D : DeleterType δ) (h : Heap δ) : Op δ → Option (Unit × Heap δ)
  | .construct j ptr deleter =>
      if Objects.free h.objects j then
        let u : UniquePtr Nat δ := ⟨ptr, deleter⟩
        some ((), { h with
          objects := Objects.put h.objects j u
          adopted := h.adopted ++ u.managed.toList })
      else none
  | .move_construct j i =>
      if Objects.free h.objects j then
        (Objects.get h.objects i).map fun ptr =>
          let (u, ptr) := ptr.move_construct D
          ((), { h with objects := Objects.put (Objects.put h.objects i ptr) j u })
      else none
  | .move_assign j i =>
      if j = i then (Objects.get h.objects i).map fun _ => ((), h)
      else
        (Objects.get h.objects j).bind fun u => (Objects.get h.objects i).map fun ptr =>
          let (deletion, u, ptr) := u.move_assign D ptr
          ((), { h with
            objects := Objects.put (Objects.put h.objects i ptr) j u
            deletions := h.deletions ++ [deletion] })
  | .reset j ptr =>
      (Objects.get h.objects j).map fun u =>
        let (deletion, u) := u.reset ptr
        ((), { h with
          objects := Objects.put h.objects j u
          adopted := h.adopted ++ u.managed.toList
          deletions := h.deletions ++ [deletion] })
  | .release j =>
      (Objects.get h.objects j).map fun u =>
        ((), { h with
          objects := Objects.put h.objects j u.release.2
          released := h.released ++ u.managed.toList })
  | .swap j i =>
      (Objects.get h.objects j).bind fun u => (Objects.get h.objects i).map fun ptr =>
        let (u, ptr) := u.swap ptr
        ((), { h with objects := Objects.put (Objects.put h.objects i ptr) j u })
  | .destroy j =>
      (Objects.get h.objects j).map fun u =>
        let (deletion, u) := u.destructor
        ((), { h with
          objects := Function.update h.objects j (.ended u)
          deletions := h.deletions ++ [deletion] })

/-- Every pointer adopted is a fresh one. -/
def Fresh (h : Heap δ) : Op δ → Prop
  | .construct _ ptr _ | .reset _ ptr => ∀ p ∈ ptr, p ∉ h.adopted.map Prod.fst
  | _ => True

instance (h : Heap δ) (op : Op δ) : Decidable (h.Fresh op) := by
  cases op <;> unfold Fresh <;> infer_instance

/-- The deleters a pointer was passed to, in order. -/
def passed (h : Heap δ) (p : Nat) : List δ :=
  (h.deletions.filter fun c => c.ptr = some p).map Deletion.deleter

/--
Each pointer adopted is managed by one `UniquePtr`, with the deleter it was adopted
with, and was passed to none; or was released, and passed to none; or was passed to
the deleter it was adopted with, once.  No deleter was called without a pointer.
-/
structure DeletedOnce (h : Heap δ) : Prop where
  managed : ∀ i u p, Objects.get h.objects i = some u → u.first = some p →
    (p, u.second) ∈ h.adopted ∧ h.passed p = [] ∧
      ∀ j v, Objects.get h.objects j = some v → v.first = some p → j = i
  released : ∀ p, p ∈ h.released.map Prod.fst → h.passed p = []
  deleted : ∀ p d, (p, d) ∈ h.adopted → p ∉ h.released.map Prod.fst →
    (∀ i u, Objects.get h.objects i = some u → u.first ≠ some p) → h.passed p = [d]
  something : ∀ c ∈ h.deletions, c.ptr ≠ none

end Heap

end Hyperion
