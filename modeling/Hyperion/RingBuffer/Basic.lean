/-
The ring buffer of `Hyperion/RingBuffer.h`.

`m_buffer` is raw storage of `m_capacity` slots, one more than the buffer can hold,
so that the slot at `m_write_index` is always a spacer.  `m_constructed` remembers
which slots hold an object; for trivially destructible element types it is a stub
that remembers nothing and always answers `false`.

`usize` is a natural number with the wrapping sum and difference of 64-bit words.
Every function is `noexcept`, so an allocation that fails ends the program: a
function that allocates returns `none` there.

`std::move` of an element and a copy of one are told apart by what they leave in
the source, which `ElementType.moved` says.
-/
import Hyperion.Lib.Word
import Hyperion.Lib.Arena
import Hyperion.Lib.Loop

namespace Hyperion

/-- `a + b` on `usize`. -/
@[irreducible] def usize.add (a b : Nat) : Nat := Word.add 64 a b

/-- `a - b` on `usize`. -/
@[irreducible] def usize.sub (a b : Nat) : Nat := Word.sub 64 a b

theorem usize.add_eq {a b : Nat} (h : a + b < 2 ^ 64) : usize.add a b = a + b := by
  rw [usize.add, Word.add_eq h]

theorem usize.sub_eq {a b : Nat} (hab : b ≤ a) (ha : a < 2 ^ 64) : usize.sub a b = a - b := by
  rw [usize.sub, Word.sub_eq hab ha]

theorem usize.add_lt (a b : Nat) : usize.add a b < 2 ^ 64 := by
  rw [usize.add]
  exact Word.add_lt 64 a b

theorem usize.sub_lt (a b : Nat) : usize.sub a b < 2 ^ 64 := by
  rw [usize.sub]
  exact Word.sub_lt 64 a b

/-- What the container asks of its element type. -/
structure ElementType (α : Type) where
  /-- `std::is_trivially_destructible_v<T>` -/
  trivially_destructible : Bool
  /-- `concepts::NoexceptMoveAssignable<T>` -/
  noexcept_move_assignable : Bool
  /-- What a move leaves in the object moved from. -/
  moved : α → α

/--
How much the allocator can hand out: elements for `m_buffer`, and flags for the
`std::vector<bool>` of the bookkeeping.  No array spans half the address space.
-/
structure Allocator where
  max_size : Nat
  max_size_lt : max_size < 2 ^ 63
  max_flags : Nat
  max_flags_lt : max_flags < 2 ^ 63

/-- An element type that owns what its value refers to: a move leaves nothing behind. -/
def ElementType.owning : ElementType Nat := ⟨false, true, fun _ => 0⟩

/-- An element type of plain data. -/
def ElementType.plain : ElementType Nat := ⟨true, true, id⟩

/-- An allocator with room for every buffer of a small program. -/
def Allocator.large : Allocator := ⟨2 ^ 32, by decide, 2 ^ 32, by decide⟩

/-- `ConstructedChecker<T>`: one flag for each slot. -/
structure ConstructedChecker where
  m_flags : Nat → Bool
  size : Nat

/-- `ConstructedChecker(size)`; the specialisation for trivial types has no flags. -/
def ConstructedChecker.new {α : Type} (A : Allocator) (E : ElementType α) (size : Nat) :
    Option ConstructedChecker :=
  if E.trivially_destructible then some ⟨fun _ => false, 0⟩
  else if size ≤ A.max_flags then some ⟨fun _ => false, size⟩
  else none

/-- The slots and the flags that say which of them hold an object. -/
structure Storage (α : Type) where
  m_buffer : Arena α
  m_constructed : ConstructedChecker

namespace Storage

variable {α : Type}

/-- `m_constructed.is_constructed(index)` -/
def is_constructed (E : ElementType α) (s : Storage α) (index : Nat) : Bool × Storage α :=
  if E.trivially_destructible then (false, s)
  else (s.m_constructed.m_flags index,
    { s with m_buffer := s.m_buffer.touch index s.m_constructed.size })

/-- `m_constructed.set_constructed(index, constructed)` -/
def set_constructed (E : ElementType α) (s : Storage α) (index : Nat) (constructed : Bool) :
    Storage α :=
  if E.trivially_destructible then s
  else
    { m_buffer := s.m_buffer.touch index s.m_constructed.size
      m_constructed :=
        { s.m_constructed with
          m_flags := Function.update s.m_constructed.m_flags index constructed } }

/-- `allocator_traits::construct(m_allocator, std::addressof(m_buffer[index]), value)` -/
def construct (s : Storage α) (index : Nat) (value : Option α) : Storage α :=
  { s with m_buffer := s.m_buffer.construct index value }

/-- `allocator_traits::destroy(m_allocator, std::addressof(m_buffer[index]))` -/
def destroy (s : Storage α) (index : Nat) : Storage α :=
  { s with m_buffer := s.m_buffer.destroy index }

/-- `m_buffer[index] = value` -/
def assign (s : Storage α) (index : Nat) (value : Option α) : Storage α :=
  { s with m_buffer := s.m_buffer.assign index value }

/-- `std::move(m_buffer[index])`, read and left behind. -/
def move (E : ElementType α) (s : Storage α) (index : Nat) : Option α × Storage α :=
  (s.m_buffer.read index, { s with m_buffer := s.m_buffer.moveFrom E.moved index })

/-- `std::move(m_buffer[index])` where a move cannot throw, else `m_buffer[index]`. -/
def move_or_copy (E : ElementType α) (s : Storage α) (index : Nat) : Option α × Storage α :=
  if E.noexcept_move_assignable then s.move E index
  else (s.m_buffer.read index, { s with m_buffer := s.m_buffer.copyFrom index })

/-- `destroy` and clear the flag, which only happens for types with a destructor. -/
def destroy_if_needed (E : ElementType α) (s : Storage α) (index : Nat) : Storage α :=
  if E.trivially_destructible then s else (s.destroy index).set_constructed E index false

/--
The body of the four loops that shift elements, in `insert_internal`,
`insert_emplace_internal` and both overloads of `erase_internal`: the element in
`source` goes to `destination`, into an existing object or a new one, and the
object left in `source` is destroyed.  Nothing happens unless the flags say that
`source` holds an object.
-/
def shift_slot (E : ElementType α) (destination source : Nat) (s : Storage α) : Storage α :=
  let (destination_constructed, s) := s.is_constructed E destination
  let (source_constructed, s) := s.is_constructed E source
  if !destination_constructed then
    if source_constructed then
      let (value, s) := s.move_or_copy E source
      let s := (s.construct destination value).set_constructed E destination true
      s.destroy_if_needed E source
    else s
  else
    if source_constructed then
      let (value, s) := s.move_or_copy E source
      let s := s.assign destination value
      s.destroy_if_needed E source
    else s

/-! ### What they do to the slots -/

@[simp] theorem is_constructed_cell (E : ElementType α) (s : Storage α) (i : Nat) :
    (s.is_constructed E i).2.m_buffer.cell = s.m_buffer.cell := by
  unfold is_constructed; split <;> simp

@[simp] theorem set_constructed_cell (E : ElementType α) (s : Storage α) (i : Nat) (b : Bool) :
    (s.set_constructed E i b).m_buffer.cell = s.m_buffer.cell := by
  unfold set_constructed; split <;> simp

@[simp] theorem is_constructed_slots (E : ElementType α) (s : Storage α) (i : Nat) :
    (s.is_constructed E i).2.m_buffer.slots = s.m_buffer.slots := by
  unfold is_constructed; split <;> simp

@[simp] theorem set_constructed_slots (E : ElementType α) (s : Storage α) (i : Nat) (b : Bool) :
    (s.set_constructed E i b).m_buffer.slots = s.m_buffer.slots := by
  unfold set_constructed; split <;> simp

@[simp] theorem construct_slots (s : Storage α) (i : Nat) (v : Option α) :
    (s.construct i v).m_buffer.slots = s.m_buffer.slots := s.m_buffer.construct_slots i v

@[simp] theorem destroy_slots (s : Storage α) (i : Nat) :
    (s.destroy i).m_buffer.slots = s.m_buffer.slots := s.m_buffer.destroy_slots i

theorem construct_cell (s : Storage α) (i : Nat) (v : Option α) :
    ∃ id, (s.construct i v).m_buffer.cell = Function.update s.m_buffer.cell i ⟨v, some id⟩ :=
  s.m_buffer.construct_cell i v

@[simp] theorem destroy_cell (s : Storage α) (i : Nat) : (s.destroy i).m_buffer.cell
    = Function.update s.m_buffer.cell i ⟨(s.m_buffer.cell i).value, none⟩ :=
  s.m_buffer.destroy_cell i

/-! ### What is read afterwards -/

@[simp] theorem is_constructed_read (E : ElementType α) (s : Storage α) (i : Nat) :
    (s.is_constructed E i).2.m_buffer.read = s.m_buffer.read :=
  Arena.read_congr (s.is_constructed_slots E i) fun j => by rw [is_constructed_cell]

@[simp] theorem set_constructed_read (E : ElementType α) (s : Storage α) (i : Nat) (b : Bool) :
    (s.set_constructed E i b).m_buffer.read = s.m_buffer.read :=
  Arena.read_congr (s.set_constructed_slots E i b) fun j => by rw [set_constructed_cell]

/-- The bytes of a destroyed object are still there. -/
@[simp] theorem destroy_read (s : Storage α) (i : Nat) :
    (s.destroy i).m_buffer.read = s.m_buffer.read := by
  refine Arena.read_congr (s.destroy_slots i) fun j => ?_
  rw [destroy_cell, Function.update_apply]
  split
  · rename_i hj
    rw [hj]
  · rfl

/-- A move writes to the slot moved from and to no other. -/
theorem move_cell_ne (E : ElementType α) (s : Storage α) {i j : Nat} (h : j ≠ i) :
    (s.move E i).2.m_buffer.cell j = s.m_buffer.cell j := by
  simp [move, Function.update_of_ne h]

theorem destroy_if_needed_cell_ne (E : ElementType α) (s : Storage α) {i j : Nat} (h : j ≠ i) :
    (s.destroy_if_needed E i).m_buffer.cell j = s.m_buffer.cell j := by
  unfold destroy_if_needed
  split
  · rfl
  · rw [set_constructed_cell, destroy_cell, Function.update_of_ne h]

end Storage

/-- `RingBuffer<T>` -/
structure RingBuffer (α : Type) extends Storage α where
  m_write_index : Nat
  m_start_index : Nat
  m_capacity : Nat

namespace RingBuffer

variable {α : Type}

/-! ### Construction -/

/-- `allocate_unique<T[]>(m_allocator, num_elements)`: slots, and no elements in them. -/
def allocate_unique (A : Allocator) (num_elements : Nat) : Option (Arena α) :=
  if num_elements ≤ A.max_size then some (Arena.fresh num_elements) else none

/-- `RingBuffer(usize initial_capacity)` -/
def with_capacity (A : Allocator) (E : ElementType α) (initial_capacity : Nat) :
    Option (RingBuffer α) := do
  let m_capacity := usize.add initial_capacity 1
  let m_buffer ← allocate_unique A m_capacity
  let m_constructed ← ConstructedChecker.new A E m_capacity
  some { m_buffer, m_constructed, m_write_index := 0, m_start_index := 0, m_capacity }

/-- `RingBuffer(std::initializer_list<T> values)` -/
def of_values (A : Allocator) (E : ElementType α) (values : List α) : Option (RingBuffer α) := do
  let m_capacity := usize.add values.length 1
  let m_buffer ← allocate_unique A m_capacity
  let m_constructed ← ConstructedChecker.new A E m_capacity
  let fill := fun index (s : Storage α) =>
    (s.construct index values[index]?).set_constructed E index true
  some { loop fill values.length { m_buffer, m_constructed } with
    m_write_index := values.length, m_start_index := 0, m_capacity }

/-! ### Indices -/

/-- `get_adjusted_internal_index(index)` -/
def get_adjusted_internal_index (s : RingBuffer α) (index : Nat) : Nat :=
  usize.add s.m_start_index index % s.m_capacity

/-- `size()` -/
def size (s : RingBuffer α) : Nat :=
  if s.m_write_index ≥ s.m_start_index then usize.sub s.m_write_index s.m_start_index
  else usize.sub s.m_capacity (usize.sub s.m_start_index s.m_write_index)

/-- `empty()` -/
def empty (s : RingBuffer α) : Bool := s.m_write_index == s.m_start_index

/-- `full()` -/
def full (s : RingBuffer α) : Bool := s.size == usize.sub s.m_capacity 1

/-- `capacity()` -/
def capacity (s : RingBuffer α) : Nat := usize.sub s.m_capacity 1

/-- `increment_indices()` -/
def increment_indices (s : RingBuffer α) : RingBuffer α :=
  let s := { s with m_write_index := usize.add s.m_write_index 1 % s.m_capacity }
  -- the spacer for `end()` pushes the start forward
  if s.m_write_index = s.m_start_index then
    { s with m_start_index := usize.add s.m_start_index 1 % s.m_capacity }
  else s

/-- `increment_start()` -/
def increment_start (s : RingBuffer α) : RingBuffer α :=
  if s.m_start_index ≠ s.m_write_index then
    { s with m_start_index := usize.add s.m_start_index 1 % s.m_capacity }
  else s

/-- `decrement_write()` -/
def decrement_write (s : RingBuffer α) : RingBuffer α :=
  if s.m_write_index = 0 then { s with m_write_index := usize.sub s.m_capacity 1 }
  else { s with m_write_index := usize.sub s.m_write_index 1 }

/-- `decrement_write_n(n)` -/
def decrement_write_n (s : RingBuffer α) (n : Nat) : RingBuffer α :=
  if n > s.m_write_index then
    { s with
      m_write_index :=
        usize.sub (usize.sub s.m_capacity 1) (usize.sub n s.m_write_index) }
  else { s with m_write_index := usize.sub s.m_write_index n }

/-! ### Access -/

/-- `m_buffer[index]`, as a reference: the slot is named and what it holds is read. -/
def slot (s : RingBuffer α) (index : Nat) : Option α × RingBuffer α :=
  (s.m_buffer.read index, { s with m_buffer := s.m_buffer.touch index s.m_buffer.slots })

/-- `at(index)` -/
def at' (s : RingBuffer α) (index : Nat) : Option α × RingBuffer α :=
  s.slot (s.get_adjusted_internal_index index)

/-- `operator[](index)` -/
def subscript (s : RingBuffer α) (index : Nat) : Option α × RingBuffer α :=
  s.slot (s.get_adjusted_internal_index index)

/-- `front()` -/
def front (s : RingBuffer α) : Option α × RingBuffer α := s.slot s.m_start_index

/-- `back()` -/
def back (s : RingBuffer α) : Option α × RingBuffer α :=
  s.slot (s.get_adjusted_internal_index (usize.sub s.size 1))

/-! ### Iterators -/

/-- `Iterator`: the slot pointed to, and the index in the buffer. -/
structure Iterator where
  m_ptr : Nat
  m_current_index : Nat
deriving DecidableEq, Repr

/-- `begin()` -/
def begin' (s : RingBuffer α) : Iterator × RingBuffer α :=
  (⟨s.m_start_index, 0⟩, (s.slot s.m_start_index).2)

/-- `end()` -/
def end' (s : RingBuffer α) : Iterator × RingBuffer α :=
  (⟨s.m_write_index, s.size⟩, (s.slot s.m_write_index).2)

/-- `operator++()` -/
def Iterator.increment (it : Iterator) (s : RingBuffer α) : Iterator × RingBuffer α :=
  let index := usize.add it.m_current_index 1
  if index ≥ s.capacity then
    (⟨s.end'.1.m_ptr, s.capacity⟩, s.end'.2)
  else (⟨s.get_adjusted_internal_index index, index⟩, (s.subscript index).2)

/-- `operator+(diff)` for a `diff` that is not negative -/
def Iterator.plus (it : Iterator) (diff : Nat) (s : RingBuffer α) : Iterator × RingBuffer α :=
  let index := usize.add it.m_current_index diff
  if index > s.capacity then
    (⟨s.end'.1.m_ptr, s.capacity⟩, s.end'.2)
  else (⟨s.get_adjusted_internal_index index, index⟩, (s.subscript index).2)

/-- `for(; it != last; ++it) visit(*it)`, for as many rounds as `fuel` allows -/
def traverse (last : Iterator) : Nat → Iterator → RingBuffer α → List (Option α) × RingBuffer α
  | 0, _, s => ([], s)
  | fuel + 1, it, s =>
      if it.m_current_index = last.m_current_index then ([], s)
      else
        let visit := s.slot it.m_ptr
        let next := it.increment visit.2
        let rest := traverse last fuel next.1 next.2
        (visit.1 :: rest.1, rest.2)

/-- A range-based `for` over the buffer: one round for each index up to the capacity is enough. -/
def iterate (s : RingBuffer α) : List (Option α) × RingBuffer α :=
  let first := s.begin'
  let last := first.2.end'
  traverse last.1 s.m_capacity first.1 last.2

end RingBuffer

end Hyperion
