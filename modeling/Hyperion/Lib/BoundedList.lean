/-
Lists that hold at most so many elements.

The bound is a field and so is the proof that it is kept, so a list that overflows
cannot be built.  There are two ways to be full: `push` makes room by dropping the
front, which is what an overwriting buffer is for, and `tryPush` refuses, which is
what a queue with back pressure is for.
-/
import Mathlib.Data.List.Basic

/-- A list and the bound it never exceeds. -/
structure BoundedList (α : Type) where
  items : List α
  bound : Nat
  fits : items.length ≤ bound

namespace BoundedList

variable {α : Type}

def empty (n : Nat) : BoundedList α := ⟨[], n, Nat.zero_le n⟩

/-- All of `l`, with no room left. -/
def ofList (l : List α) : BoundedList α := ⟨l, l.length, Nat.le_refl _⟩

/-- Append, dropping the front if there is no room. -/
def push (b : BoundedList α) (v : α) : BoundedList α where
  items := (b.items ++ [v]).drop (b.items.length + 1 - b.bound)
  bound := b.bound
  fits := by
    have h := b.fits
    rw [List.length_drop, List.length_append, List.length_singleton]
    omega

/-- Append, unless there is no room. -/
def tryPush (b : BoundedList α) (v : α) : Bool × BoundedList α :=
  if h : b.items.length < b.bound then
    (true, ⟨b.items ++ [v], b.bound, by rw [List.length_append, List.length_singleton]; omega⟩)
  else (false, b)

def popFront (b : BoundedList α) : Option α × BoundedList α :=
  (b.items.head?, ⟨b.items.tail, b.bound, by
    have h := b.fits
    rw [List.length_tail]
    omega⟩)

def popBack (b : BoundedList α) : Option α × BoundedList α :=
  (b.items.getLast?, ⟨b.items.dropLast, b.bound, by
    have h := b.fits
    rw [List.length_dropLast]
    omega⟩)

def clear (b : BoundedList α) : BoundedList α := empty b.bound

/-- Insert before position `p`, dropping the last element if there is no room. -/
def insertAt (b : BoundedList α) (p : Nat) (v : α) : BoundedList α where
  items := (b.items.take p ++ v :: b.items.drop p).take b.bound
  bound := b.bound
  fits := List.length_take_le _ _

/-- Append, in the place of the last element if there is no room. -/
def forcePush (b : BoundedList α) (v : α) : BoundedList α where
  items := (b.items.take (b.bound - 1) ++ [v]).take b.bound
  bound := b.bound
  fits := List.length_take_le _ _

/-- Remove the elements from position `f` up to before position `l`. -/
def eraseRange (b : BoundedList α) (f l : Nat) : BoundedList α where
  items := b.items.take f ++ b.items.drop (max f l)
  bound := b.bound
  fits := by
    have h := b.fits
    rw [List.length_append, List.length_take, List.length_drop]
    omega

/-- The same elements under the same bound. -/
theorem eq_of_items {b c : BoundedList α} (hitems : b.items = c.items)
    (hbound : b.bound = c.bound) : b = c := by
  cases b
  cases c
  cases hitems
  cases hbound
  rfl

/-- Where there is room, `tryPush` appends. -/
theorem tryPush_of_lt {b : BoundedList α} (h : b.items.length < b.bound) (v : α) :
    (b.tryPush v).1 = true ∧ (b.tryPush v).2.items = b.items ++ [v] := by
  rw [tryPush, dif_pos h]
  exact ⟨rfl, rfl⟩

/-- Where there is none, it changes nothing. -/
theorem tryPush_of_full {b : BoundedList α} (h : ¬ b.items.length < b.bound) (v : α) :
    b.tryPush v = (false, b) := by
  rw [tryPush, dif_neg h]

theorem tryPush_bound (b : BoundedList α) (v : α) : (b.tryPush v).2.bound = b.bound := by
  unfold tryPush
  split <;> rfl

/-- A forced push with room appends. -/
theorem forcePush_of_lt {b : BoundedList α} (h : b.items.length < b.bound) (v : α) :
    b.forcePush v = (b.tryPush v).2 := by
  refine eq_of_items ?_ (tryPush_bound b v).symm
  show (b.items.take (b.bound - 1) ++ [v]).take b.bound = _
  rw [(tryPush_of_lt h v).2, List.take_of_length_le (Nat.le_sub_one_of_lt h)]
  refine List.take_of_length_le ?_
  rw [List.length_append, List.length_singleton]
  exact h

/-- A forced push without room replaces the last element. -/
theorem forcePush_of_full {b : BoundedList α} (h : b.items.length = b.bound) (hpos : 0 < b.bound)
    (v : α) : (b.forcePush v).items = b.items.dropLast ++ [v] := by
  show (b.items.take (b.bound - 1) ++ [v]).take b.bound = _
  rw [← h, ← List.dropLast_eq_take]
  refine List.take_of_length_le ?_
  rw [List.length_append, List.length_dropLast, List.length_singleton]
  omega

/-- An element after a forced push without room: the new one last, the others as they were. -/
theorem getElem?_forcePush_of_full {b : BoundedList α} (h : b.items.length = b.bound)
    (hpos : 0 < b.bound) (v : α) (j : Nat) :
    (b.forcePush v).items[j]? = if j + 1 = b.bound then some v else b.items[j]? := by
  rw [forcePush_of_full h hpos]
  by_cases hj : j + 1 < b.bound
  · rw [if_neg (by omega), List.getElem?_append_left (by rw [List.length_dropLast]; omega),
      List.getElem?_dropLast, if_pos (by omega)]
  · rw [List.getElem?_append_right (by rw [List.length_dropLast]; omega),
      List.getElem?_singleton, List.length_dropLast]
    by_cases hlast : j + 1 = b.bound
    · rw [if_pos hlast, if_pos (by omega)]
    · rw [if_neg hlast, if_neg (by omega), List.getElem?_eq_none (by omega)]

theorem length_forcePush_of_full {b : BoundedList α} (h : b.items.length = b.bound)
    (hpos : 0 < b.bound) (v : α) : (b.forcePush v).items.length = b.bound := by
  rw [forcePush_of_full h hpos, List.length_append, List.length_dropLast, List.length_singleton]
  omega

theorem push_bound (b : BoundedList α) (v : α) : (b.push v).bound = b.bound := rfl

/-- A push with room appends. -/
theorem push_of_lt {b : BoundedList α} (h : b.items.length < b.bound) (v : α) :
    (b.push v).items = b.items ++ [v] := by
  have hzero : b.items.length + 1 - b.bound = 0 := by omega
  show (b.items ++ [v]).drop (b.items.length + 1 - b.bound) = _
  rw [hzero, List.drop_zero]

/-- A push without room drops the front. -/
theorem push_of_full {b : BoundedList α} (h : b.items.length = b.bound) (v : α) :
    (b.push v).items = (b.items ++ [v]).tail := by
  have hone : b.items.length + 1 - b.bound = 1 := by omega
  show (b.items ++ [v]).drop (b.items.length + 1 - b.bound) = _
  rw [hone, List.drop_one]

theorem length_push_of_lt {b : BoundedList α} (h : b.items.length < b.bound) (v : α) :
    (b.push v).items.length = b.items.length + 1 := by
  rw [push_of_lt h, List.length_append, List.length_singleton]

theorem length_push_of_full {b : BoundedList α} (h : b.items.length = b.bound) (v : α) :
    (b.push v).items.length = b.items.length := by
  rw [push_of_full h, List.length_tail, List.length_append, List.length_singleton,
    Nat.add_sub_cancel]

/-- An element after a push with room: an old one where it was, or the new one last. -/
theorem getElem?_push_of_lt {b : BoundedList α} (h : b.items.length < b.bound) {v x : α} {j : Nat}
    (hx : (b.push v).items[j]? = some x) :
    b.items[j]? = some x ∨ (j = b.items.length ∧ x = v) := by
  rw [push_of_lt h] at hx
  by_cases hj : j < b.items.length
  · rw [List.getElem?_append_left hj] at hx
    exact Or.inl hx
  · rw [List.getElem?_append_right (by omega), List.getElem?_singleton] at hx
    split at hx
    · exact Or.inr ⟨by omega, (Option.some.inj hx).symm⟩
    · simp at hx

/-- An element after a push without room: an old one a place further down, or the new one last. -/
theorem getElem?_push_of_full {b : BoundedList α} (h : b.items.length = b.bound) {v x : α}
    {j : Nat} (hx : (b.push v).items[j]? = some x) :
    b.items[j + 1]? = some x ∨ (j + 1 = b.items.length ∧ x = v) := by
  rw [push_of_full h, List.getElem?_tail] at hx
  by_cases hj : j + 1 < b.items.length
  · rw [List.getElem?_append_left hj] at hx
    exact Or.inl hx
  · rw [List.getElem?_append_right (by omega), List.getElem?_singleton] at hx
    split at hx
    · exact Or.inr ⟨by omega, (Option.some.inj hx).symm⟩
    · simp at hx

/-- There is nothing to pop from an empty list. -/
theorem popFront_nil {b : BoundedList α} (h : b.items = []) : b.popFront = (none, b) := by
  obtain ⟨items, bound, fits⟩ := b
  subst h
  rfl

theorem popBack_nil {b : BoundedList α} (h : b.items = []) : b.popBack = (none, b) := by
  obtain ⟨items, bound, fits⟩ := b
  subst h
  rfl

/-! ### Inserting -/

variable {b : BoundedList α}

theorem length_insertAt (b : BoundedList α) (p : Nat) (v : α) :
    (b.insertAt p v).items.length = min b.bound (b.items.length + 1) := by
  have hsplit : (b.items.take p).length + (b.items.drop p).length = b.items.length := by
    rw [← List.length_append, List.take_append_drop]
  show ((b.items.take p ++ v :: b.items.drop p).take b.bound).length = _
  rw [List.length_take, List.length_append, List.length_cons]
  omega

/-- An element after an insertion: before the new one, the new one, or behind it. -/
theorem getElem?_insertAt {p j : Nat} {v : α} (hp : p ≤ b.items.length) (hj : j < b.bound) :
    (b.insertAt p v).items[j]? = if j < p then b.items[j]? else if j = p then some v
      else b.items[j - 1]? := by
  have hlength : (b.items.take p).length = p := by
    rw [List.length_take, Nat.min_eq_left hp]
  show ((b.items.take p ++ v :: b.items.drop p).take b.bound)[j]? = _
  rw [List.getElem?_take_of_lt hj]
  split
  · rename_i hlt
    rw [List.getElem?_append_left (by omega), List.getElem?_take_of_lt hlt]
  · rename_i hge
    rw [List.getElem?_append_right (by omega), hlength]
    split
    · rename_i heq
      rw [heq, Nat.sub_self, List.getElem?_cons_zero]
    · rename_i hne
      rw [show j - p = (j - 1 - p) + 1 by omega, List.getElem?_cons_succ, List.getElem?_drop,
        show p + (j - 1 - p) = j - 1 by omega]

/-- Inserted where there is room, the list is one longer. -/
theorem insertAt_of_lt (h : b.items.length < b.bound) (p : Nat) (v : α) :
    (b.insertAt p v).items = b.items.take p ++ v :: b.items.drop p := by
  have hlength := b.length_insertAt p v
  refine List.take_of_length_le ?_
  have hsplit : (b.items.take p).length + (b.items.drop p).length = b.items.length := by
    rw [← List.length_append, List.take_append_drop]
  rw [List.length_append, List.length_cons]
  omega

/-- Inserting at the end, where there is room, is pushing. -/
theorem insertAt_length (h : b.items.length < b.bound) (v : α) :
    b.insertAt b.items.length v = b.push v := by
  refine eq_of_items ?_ rfl
  rw [insertAt_of_lt h, push_of_lt h, List.take_length, List.drop_length]

/-! ### Removing -/

/-- Removing a range puts what was before it and what was behind it together. -/
theorem eraseRange_items {f l : Nat} (hfl : f ≤ l) :
    (b.eraseRange f l).items = b.items.take f ++ b.items.drop l := by
  show b.items.take f ++ b.items.drop (max f l) = _
  rw [Nat.max_eq_right hfl]

theorem length_eraseRange {f l : Nat} (hfl : f ≤ l) (hl : l ≤ b.items.length) :
    (b.eraseRange f l).items.length + (l - f) = b.items.length := by
  rw [eraseRange_items hfl, List.length_append, List.length_take, List.length_drop]
  omega

/-- An element after a removal: before the range where it was, behind it as much further on as
the range was long. -/
theorem getElem?_eraseRange {f l j : Nat} (hfl : f ≤ l) (hl : l ≤ b.items.length) :
    (b.eraseRange f l).items[j]? = b.items[if j < f then j else j + (l - f)]? := by
  have hlength : (b.items.take f).length = f := by
    rw [List.length_take, Nat.min_eq_left (Nat.le_trans hfl hl)]
  rw [eraseRange_items hfl]
  by_cases hj : j < f
  · rw [if_pos hj, List.getElem?_append_left (by omega), List.getElem?_take_of_lt hj]
  · rw [if_neg hj, List.getElem?_append_right (by omega), hlength, List.getElem?_drop]
    congr 1
    omega

end BoundedList
