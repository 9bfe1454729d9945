/-
Sequences written through a buffer.

What is written at a place of a sequence goes over what is there, and past its end after a
gap that is filled.  A buffer takes writes that follow one another, and passes a part of
them on whenever it likes.  Reading the sequence with the buffer laid over it does not tell
what has been passed on, and what has been passed on is always the sequence with a part of
the last writes missing.
-/
import Mathlib.Data.List.Basic

/-- What was passed on, and what is still to be written at `start`. -/
structure Buffered (α : Type*) where
  stored : List α
  start : Nat
  pending : List α

namespace Buffered

variable {α : Type*}

/-- `xs` with `ys` written over it from place `k` on; a gap before `k` is filled. -/
def overwrite (fill : α) (xs : List α) (k : Nat) (ys : List α) : List α :=
  if ys.isEmpty then xs
  else xs.take k ++ List.replicate (k - xs.length) fill ++ ys ++ xs.drop (k + ys.length)

variable {xs ys zs : List α} {k : Nat}

@[simp] theorem overwrite_nil (fill : α) (xs : List α) (k : Nat) : overwrite fill xs k [] = xs :=
  rfl

/-- What stands before the place then. -/
def before (fill : α) (xs : List α) (k : Nat) : List α :=
  xs.take k ++ List.replicate (k - xs.length) fill

theorem length_before (fill : α) (xs : List α) (k : Nat) : (before fill xs k).length = k := by
  simp [before]
  omega

theorem overwrite_eq (fill : α) (xs : List α) (k : Nat) (h : ys ≠ []) :
    overwrite fill xs k ys = before fill xs k ++ ys ++ xs.drop (k + ys.length) := by
  rw [overwrite, if_neg (by simpa using h)]
  rfl

theorem length_overwrite (fill : α) (xs : List α) (k : Nat) (h : ys ≠ []) :
    (overwrite fill xs k ys).length = max xs.length (k + ys.length) := by
  rw [overwrite_eq fill xs k h, List.length_append, List.length_append, length_before,
    List.length_drop]
  omega

/-- Writing at the end appends. -/
theorem overwrite_end (fill : α) (xs ys : List α) :
    overwrite fill xs xs.length ys = xs ++ ys := by
  by_cases h : ys = []
  · simp [h]
  · rw [overwrite_eq fill xs _ h, before]
    simp

/-- What was written can be read back. -/
theorem take_drop_overwrite (fill : α) (xs ys : List α) (k : Nat) :
    ((overwrite fill xs k ys).drop k).take ys.length = ys := by
  by_cases h : ys = []
  · simp [h]
  · have hbefore := length_before fill xs k
    rw [overwrite_eq fill xs k h, List.append_assoc, List.drop_left' hbefore]
    exact List.take_left' rfl

/-- So nothing else of that length would have been written the same. -/
theorem overwrite_inj {fill : α} (hlength : ys.length = zs.length)
    (h : overwrite fill xs k ys = overwrite fill xs k zs) : ys = zs := by
  rw [← take_drop_overwrite fill xs ys k, h, hlength, take_drop_overwrite]

/-- Writes that follow one another are one. -/
theorem overwrite_overwrite (fill : α) (xs ys zs : List α) (k : Nat) :
    overwrite fill (overwrite fill xs k ys) (k + ys.length) zs
      = overwrite fill xs k (ys ++ zs) := by
  by_cases hys : ys = []
  · simp [hys]
  by_cases hzs : zs = []
  · simp [hzs]
  have hfront : (before fill xs k ++ ys).length = k + ys.length := by
    rw [List.length_append, length_before]
  have hbefore : before fill (overwrite fill xs k ys) (k + ys.length)
      = before fill xs k ++ ys := by
    have hgap : k + ys.length - (overwrite fill xs k ys).length = 0 := by
      rw [length_overwrite fill xs k hys]
      omega
    rw [before, hgap, overwrite_eq fill xs k hys, List.take_left' hfront]
    simp
  have hrest : (overwrite fill xs k ys).drop (k + ys.length + zs.length)
      = xs.drop (k + (ys ++ zs).length) := by
    rw [overwrite_eq fill xs k hys, ← List.drop_drop, List.drop_left' hfront, List.drop_drop,
      List.length_append, Nat.add_assoc]
  rw [overwrite_eq fill _ _ hzs, hbefore, hrest, overwrite_eq fill xs k (by simp [hys])]
  simp only [List.append_assoc]

/-! ### Writing through a buffer -/

variable {fill : α}

/-- The sequence with the buffer laid over it. -/
def view (fill : α) (b : Buffered α) : List α := overwrite fill b.stored b.start b.pending

/-- The place behind what is in the buffer. -/
def position (b : Buffered α) : Nat := b.start + b.pending.length

/-- The first elements of the buffer are passed on. -/
def transmit (fill : α) (n : Nat) (b : Buffered α) : Buffered α where
  stored := overwrite fill b.stored b.start (b.pending.take n)
  start := b.start + (b.pending.take n).length
  pending := b.pending.drop n

/-- All of the buffer is passed on, and the next place is `k`. -/
def move_to (fill : α) (k : Nat) (b : Buffered α) : Buffered α := ⟨b.view fill, k, []⟩

/-- More goes into the buffer. -/
def put (xs : List α) (b : Buffered α) : Buffered α := { b with pending := b.pending ++ xs }

/-- Passing on a part changes neither the sequence nor the place. -/
theorem view_transmit (n : Nat) (b : Buffered α) : (b.transmit fill n).view fill = b.view fill := by
  rw [view, transmit, overwrite_overwrite, List.take_append_drop]
  rfl

theorem position_transmit (n : Nat) (b : Buffered α) :
    (b.transmit fill n).position = b.position := by
  simp only [position, transmit, List.length_take, List.length_drop]
  omega

/-- What goes into the buffer is written behind what is there. -/
theorem view_put (xs : List α) (b : Buffered α) :
    (b.put xs).view fill = overwrite fill (b.view fill) b.position xs :=
  (overwrite_overwrite fill b.stored b.pending xs b.start).symm

theorem position_put (xs : List α) (b : Buffered α) :
    (b.put xs).position = b.position + xs.length := by
  simp only [position, put, List.length_append, Nat.add_assoc]

@[simp] theorem view_move_to (k : Nat) (b : Buffered α) :
    (b.move_to fill k).view fill = b.view fill := rfl

@[simp] theorem position_move_to (k : Nat) (b : Buffered α) :
    (b.move_to fill k).position = k := rfl

/-- Where the buffer stands at the end, the sequence is what was passed on with it behind. -/
theorem view_of_at_end {b : Buffered α} (h : b.start = b.stored.length) :
    b.view fill = b.stored ++ b.pending := by
  rw [view, h, overwrite_end]

/-- A buffer at the end stays there. -/
theorem at_end_transmit {b : Buffered α} (h : b.start = b.stored.length) (n : Nat) :
    (b.transmit fill n).start = (b.transmit fill n).stored.length := by
  simp only [transmit, h, overwrite_end, List.length_append]

end Buffered
