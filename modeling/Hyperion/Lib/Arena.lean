/-
Raw storage and the lifetimes of the objects in it.

An arena is one allocation: a number of slots, each of which may hold an object
that was constructed in it and not yet destroyed.  Objects are numbered in the
order of their construction, so that a ledger can say of each one whether, and how
often, it was destroyed.

Nothing here stops a program that misuses its storage.  What a sanitizer would
report is recorded instead: an access past the end in `oob`, and in `misuse` the
destruction, assignment, move or copy of a slot that holds no object, and the
construction of an object over one that is still alive.  "The program is memory
safe" is then the statement that these lists stay empty.
-/
import Mathlib.Logic.Function.Basic
import Mathlib.Data.List.Nodup

/-- One slot: what its bytes read as, and the number of the object alive in it. -/
structure Cell (α : Type) where
  value : Option α
  object : Option Nat

/-- What was done to a slot in the wrong state. -/
inductive Misuse
  | destroyed (slot : Nat)
  | assigned (slot : Nat)
  | moved (slot : Nat)
  | copied (slot : Nat)
  | overwritten (slot : Nat)
deriving DecidableEq, Repr

/-- An allocation, the ledger of the objects constructed in it, and what went wrong. -/
structure Arena (α : Type) where
  cell : Nat → Cell α
  slots : Nat
  born : Nat
  dead : List Nat
  oob : List (Nat × Nat)
  misuse : List Misuse

namespace Arena

variable {α : Type}

/-- A fresh allocation: no slot holds an object. -/
def fresh (n : Nat) : Arena α := ⟨fun _ => ⟨none, none⟩, n, 0, [], [], []⟩

/-- A second allocation of `n` slots while `a` is still there; the ledger goes on in it. -/
def beside (a : Arena α) (n : Nat) : Arena α :=
  { a with cell := fun _ => ⟨none, none⟩, slots := n, oob := [], misuse := [] }

/-- The old allocation is freed, and its objects with it, without being destroyed. -/
def retire (a old : Arena α) : Arena α :=
  { a with oob := old.oob ++ a.oob, misuse := old.misuse ++ a.misuse }

/-- Whether a slot holds a constructed, not yet destroyed object. -/
def holds (a : Arena α) (i : Nat) : Bool := (a.cell i).object.isSome

/-- What reading a slot gives; past the end there is nothing to read. -/
def read (a : Arena α) (i : Nat) : Option α := if i < a.slots then (a.cell i).value else none

/-- The use of index `i` where indices go up to `bound`. -/
def touch (a : Arena α) (i bound : Nat) : Arena α :=
  if i < bound then a else { a with oob := a.oob ++ [(i, bound)] }

/-- Record `m` when `bad` holds. -/
def note (a : Arena α) (bad : Bool) (m : Misuse) : Arena α :=
  if bad then { a with misuse := a.misuse ++ [m] } else a

/-- Construct an object in a slot. -/
def construct (a : Arena α) (i : Nat) (v : Option α) : Arena α :=
  let a := (a.touch i a.slots).note (a.holds i) (.overwritten i)
  { a with cell := Function.update a.cell i ⟨v, some a.born⟩, born := a.born + 1 }

/-- Destroy the object in a slot. -/
def destroy (a : Arena α) (i : Nat) : Arena α :=
  let a := (a.touch i a.slots).note (!a.holds i) (.destroyed i)
  { a with
    cell := Function.update a.cell i ⟨(a.cell i).value, none⟩
    dead := a.dead ++ (a.cell i).object.toList }

/-- A slot's storage is used again or given up, which ends an object in it undestroyed. -/
def release (a : Arena α) (i : Nat) : Arena α :=
  { a with
    cell := Function.update a.cell i ⟨(a.cell i).value, none⟩
    dead := a.dead ++ (a.cell i).object.toList }

/-- Assign to the object in a slot. -/
def assign (a : Arena α) (i : Nat) (v : Option α) : Arena α :=
  let a := (a.touch i a.slots).note (!a.holds i) (.assigned i)
  { a with cell := Function.update a.cell i ⟨v, (a.cell i).object⟩ }

/-- Move from the object in a slot, which leaves `f` of its value behind. -/
def moveFrom (f : α → α) (a : Arena α) (i : Nat) : Arena α :=
  let a := (a.touch i a.slots).note (!a.holds i) (.moved i)
  { a with cell := Function.update a.cell i ⟨(a.cell i).value.map f, (a.cell i).object⟩ }

/-- Copy from the object in a slot. -/
def copyFrom (a : Arena α) (i : Nat) : Arena α :=
  (a.touch i a.slots).note (!a.holds i) (.copied i)

/-! ### What each operation leaves alone -/

@[simp] theorem touch_cell (a : Arena α) (i b : Nat) : (a.touch i b).cell = a.cell := by
  unfold touch; split <;> rfl

@[simp] theorem touch_slots (a : Arena α) (i b : Nat) : (a.touch i b).slots = a.slots := by
  unfold touch; split <;> rfl

theorem touch_of_lt {a : Arena α} {i b : Nat} (h : i < b) : a.touch i b = a := if_pos h

@[simp] theorem note_false (a : Arena α) (m : Misuse) : a.note false m = a := rfl

@[simp] theorem note_cell (a : Arena α) (b : Bool) (m : Misuse) :
    (a.note b m).cell = a.cell := by
  unfold note; split <;> rfl

@[simp] theorem note_slots (a : Arena α) (b : Bool) (m : Misuse) :
    (a.note b m).slots = a.slots := by
  unfold note; split <;> rfl

@[simp] theorem note_oob (a : Arena α) (b : Bool) (m : Misuse) :
    (a.note b m).oob = a.oob := by
  unfold note; split <;> rfl

@[simp] theorem construct_slots (a : Arena α) (i : Nat) (v : Option α) :
    (a.construct i v).slots = a.slots := by simp [construct]

@[simp] theorem destroy_slots (a : Arena α) (i : Nat) : (a.destroy i).slots = a.slots := by
  simp [destroy]

@[simp] theorem assign_slots (a : Arena α) (i : Nat) (v : Option α) :
    (a.assign i v).slots = a.slots := by simp [assign]

@[simp] theorem moveFrom_slots (f : α → α) (a : Arena α) (i : Nat) :
    (a.moveFrom f i).slots = a.slots := by simp [moveFrom]

@[simp] theorem copyFrom_slots (a : Arena α) (i : Nat) : (a.copyFrom i).slots = a.slots := by
  simp [copyFrom]

@[simp] theorem copyFrom_cell (a : Arena α) (i : Nat) : (a.copyFrom i).cell = a.cell := by
  simp [copyFrom]

/-! ### What each operation does to the slots -/

theorem construct_cell (a : Arena α) (i : Nat) (v : Option α) :
    ∃ id, (a.construct i v).cell = Function.update a.cell i ⟨v, some id⟩ := by
  refine ⟨((a.touch i a.slots).note (a.holds i) (.overwritten i)).born, ?_⟩
  simp [construct]

@[simp] theorem destroy_cell (a : Arena α) (i : Nat) :
    (a.destroy i).cell = Function.update a.cell i ⟨(a.cell i).value, none⟩ := by
  simp [destroy]

@[simp] theorem release_cell (a : Arena α) (i : Nat) :
    (a.release i).cell = Function.update a.cell i ⟨(a.cell i).value, none⟩ := rfl

@[simp] theorem assign_cell (a : Arena α) (i : Nat) (v : Option α) :
    (a.assign i v).cell = Function.update a.cell i ⟨v, (a.cell i).object⟩ := by
  simp [assign]

@[simp] theorem moveFrom_cell (f : α → α) (a : Arena α) (i : Nat) :
    (a.moveFrom f i).cell
      = Function.update a.cell i ⟨(a.cell i).value.map f, (a.cell i).object⟩ := by
  simp [moveFrom]

/-- Arenas of one size that read the same in each slot. -/
theorem read_congr {a b : Arena α} (hslots : a.slots = b.slots)
    (hvalue : ∀ i, (a.cell i).value = (b.cell i).value) : a.read = b.read := by
  funext i
  rw [read, read, hslots, hvalue]

/-! ### Accesses out of bounds -/

theorem touch_oob (a : Arena α) (i b : Nat) :
    (a.touch i b).oob = a.oob ++ if i < b then [] else [(i, b)] := by
  unfold touch; split <;> simp

/-- What was used past the end stays on record. -/
theorem touch_oob_ne {a : Arena α} {i b : Nat} (h : a.oob ≠ [] ∨ b ≤ i) :
    (a.touch i b).oob ≠ [] := by
  rw [touch_oob]
  intro hnil
  obtain ⟨hbefore, hone⟩ := List.append_eq_nil_iff.mp hnil
  split at hone
  · rename_i hlt
    exact h.elim (· hbefore) fun hle => Nat.not_lt.mpr hle hlt
  · cases hone

theorem construct_oob_ne {a : Arena α} {i : Nat} (h : a.oob ≠ [] ∨ a.slots ≤ i)
    (v : Option α) : (a.construct i v).oob ≠ [] := by
  unfold construct
  simp only [note_oob]
  exact touch_oob_ne h

theorem assign_oob_ne {a : Arena α} {i : Nat} (h : a.oob ≠ [] ∨ a.slots ≤ i) (v : Option α) :
    (a.assign i v).oob ≠ [] := by
  unfold assign
  simp only [note_oob]
  exact touch_oob_ne h

/-! ### Accesses in bounds -/

/-- No access so far was past the end, and the allocation has `n` slots. -/
structure InBounds (n : Nat) (a : Arena α) : Prop where
  slots : a.slots = n
  oob : a.oob = []

theorem InBounds.construct {n : Nat} {a : Arena α} (h : InBounds n a) {i : Nat} (hi : i < n)
    (v : Option α) : InBounds n (a.construct i v) := by
  refine ⟨by simp [h.slots], ?_⟩
  simp [Arena.construct, touch_of_lt (h.slots ▸ hi : i < a.slots), h.oob]

theorem InBounds.destroy {n : Nat} {a : Arena α} (h : InBounds n a) {i : Nat} (hi : i < n) :
    InBounds n (a.destroy i) := by
  refine ⟨by simp [h.slots], ?_⟩
  simp [Arena.destroy, touch_of_lt (h.slots ▸ hi : i < a.slots), h.oob]

theorem InBounds.release {n : Nat} {a : Arena α} (h : InBounds n a) (i : Nat) :
    InBounds n (a.release i) := ⟨h.slots, h.oob⟩

theorem InBounds.assign {n : Nat} {a : Arena α} (h : InBounds n a) {i : Nat} (hi : i < n)
    (v : Option α) : InBounds n (a.assign i v) := by
  refine ⟨by simp [h.slots], ?_⟩
  simp [Arena.assign, touch_of_lt (h.slots ▸ hi : i < a.slots), h.oob]

theorem InBounds.moveFrom {n : Nat} {a : Arena α} (h : InBounds n a) {i : Nat} (hi : i < n)
    (f : α → α) : InBounds n (a.moveFrom f i) := by
  refine ⟨by simp [h.slots], ?_⟩
  simp [Arena.moveFrom, touch_of_lt (h.slots ▸ hi : i < a.slots), h.oob]

theorem InBounds.copyFrom {n : Nat} {a : Arena α} (h : InBounds n a) {i : Nat} (hi : i < n) :
    InBounds n (a.copyFrom i) := by
  refine ⟨by simp [h.slots], ?_⟩
  simp [Arena.copyFrom, touch_of_lt (h.slots ▸ hi : i < a.slots), h.oob]

theorem InBounds.touch {n : Nat} {a : Arena α} (h : InBounds n a) {i b : Nat} (hi : i < b) :
    InBounds n (a.touch i b) := by
  rw [touch_of_lt hi]; exact h

theorem InBounds.beside (a : Arena α) (m : Nat) : InBounds m (a.beside m) := ⟨rfl, rfl⟩

theorem InBounds.retire {n m : Nat} {a old : Arena α} (h : InBounds n a)
    (hold : InBounds m old) : InBounds n (a.retire old) :=
  ⟨h.slots, by simp [Arena.retire, h.oob, hold.oob]⟩

/-- Reading inside the allocation reads the slot. -/
theorem InBounds.read {n : Nat} {a : Arena α} (h : InBounds n a) {i : Nat} (hi : i < n) :
    a.read i = (a.cell i).value :=
  if_pos (h.slots ▸ hi : i < a.slots)

end Arena
