/-
The queue of `Hyperion/LockFreeQueue.h`.

Three counters that only go up, `m_read`, `m_write` and `m_max_read`, name positions,
and the element at a position is in the slot with the position's remainder by
`m_capacity`.  `m_size` is kept beside them, and is what admits a push.  All four are
32-bit words.

Each access to one of them is a function of its own here, because that is what is
atomic when several threads use the queue.  The member functions are their
composition, for one thread.

`freed` is not in the source.  It lists the allocations the queue has given back, with
the objects that were alive in them.  A null `m_buffer` is an allocation of no slots.
Three constructors do not compile when they are used, the one from a default value,
the one from an initializer list and the copy constructor, and are left out.
-/
import Hyperion.Lib.Word
import Hyperion.Lib.Ledger
import Hyperion.Lib.Loop
import Hyperion.Lib.Objects

namespace Hyperion

/-- `a + b` on `u32`. -/
@[irreducible] def u32.add (a b : Nat) : Nat := Word.add 32 a b

/-- `a - b` on `u32`. -/
@[irreducible] def u32.sub (a b : Nat) : Nat := Word.sub 32 a b

theorem u32.add_eq {a b : Nat} (h : a + b < 2 ^ 32) : u32.add a b = a + b := by
  rw [u32.add, Word.add_eq h]

theorem u32.sub_eq {a b : Nat} (hab : b ≤ a) (ha : a < 2 ^ 32) : u32.sub a b = a - b := by
  rw [u32.sub, Word.sub_eq hab ha]

/-- Counting a residue up. -/
theorem u32.add_mod_left (a b : Nat) : u32.add (a % 2 ^ 32) b = (a + b) % 2 ^ 32 := by
  rw [u32.add, Word.add_mod_left]

theorem u32.add_lt (a b : Nat) : u32.add a b < 2 ^ 32 := by
  rw [u32.add]
  exact Word.add_lt 32 a b

theorem u32.add_le (a b : Nat) : u32.add a b ≤ a + b := by
  rw [u32.add]
  exact Nat.mod_le _ _

theorem u32.sub_lt (a b : Nat) : u32.sub a b < 2 ^ 32 := by
  rw [u32.sub]
  exact Word.sub_lt 32 a b

theorem u32.add_add_mod (a b d : Nat) : (u32.add a b + d) % 2 ^ 32 = (a + b + d) % 2 ^ 32 := by
  rw [u32.add, Word.add_add_mod]

theorem u32.sub_add_mod (a b d : Nat) : (u32.sub a b + (b + d)) % 2 ^ 32 = (a + d) % 2 ^ 32 := by
  rw [u32.sub, Word.sub_add_mod]

/-- Taking one back undoes adding one, whether or not the sum wrapped. -/
theorem u32.sub_add_one {a : Nat} (h : a < 2 ^ 32) : u32.sub (u32.add a 1) 1 = a := by
  rw [u32.sub, u32.add, Word.sub_add_one h]

/-- Adding one undoes taking one back. -/
theorem u32.add_sub_one {a : Nat} (h : a < 2 ^ 32) : u32.add (u32.sub a 1) 1 = a := by
  rw [u32.sub, u32.add, Word.add_sub_one h]

/-- Counting a residue down. -/
theorem u32.sub_mod_left {a b : Nat} (h : b ≤ a) :
    u32.sub (a % 2 ^ 32) b = (a - b) % 2 ^ 32 := by
  rw [u32.sub, Word.sub_mod_left h]

/-- What the queue asks of its element type. -/
structure QueueElement (α : Type) where
  /-- `T()` -/
  default : α
  /-- What a move leaves in the object moved from. -/
  moved : α → α

/-- Numbers that a move sets to zero. -/
def QueueElement.owning : QueueElement Nat := ⟨0, fun _ => 0⟩

/-- `LockFreeQueue<T>` -/
structure LockFreeQueue (α : Type) where
  m_buffer : Arena α
  m_read : Nat
  m_write : Nat
  m_max_read : Nat
  m_size : Nat
  m_capacity : Nat
  freed : List (Arena α)

namespace LockFreeQueue

variable {α : Type}

/-- The loop of the constructors: `std::construct_at(std::addressof(m_buffer[index]))` -/
def construct_slots (T : QueueElement α) (n : Nat) (m_buffer : Arena α) : Arena α :=
  loop (fun index a => a.construct index (some T.default)) n m_buffer

/-- The loop of the constructors gives the arena its objects and keeps its size. -/
theorem construct_slots_slots (T : QueueElement α) (n : Nat) (a : Arena α) :
    (construct_slots T n a).slots = a.slots := by
  unfold construct_slots
  refine loop_keeps (fun t : Arena α => t.slots = a.slots) rfl ?_
  intro i t _ ht
  rw [Arena.construct_slots, ht]

/-- `LockFreeQueue(initial_capacity)` -/
def with_capacity (T : QueueElement α) (initial_capacity : Nat) : LockFreeQueue α :=
  ⟨construct_slots T initial_capacity (Arena.fresh initial_capacity), 0, 0, 0, 0,
    initial_capacity, []⟩

/-- `DEFAULT_CAPACITY` -/
def DEFAULT_CAPACITY : Nat := 16

/-- `LockFreeQueue()` -/
def default (T : QueueElement α) : LockFreeQueue α := with_capacity T DEFAULT_CAPACITY

/-- `set_all` -/
def set_all (q : LockFreeQueue α) (read write size : Nat) : LockFreeQueue α :=
  { q with m_read := read, m_write := write, m_size := size, m_max_read := size }

/-! ### One access -/

/-- `m_size.fetch_add(1)` -/
def size_fetch_add (q : LockFreeQueue α) : Nat × LockFreeQueue α :=
  (q.m_size, { q with m_size := u32.add q.m_size 1 })

/-- `m_size.fetch_sub(1)` -/
def size_fetch_sub (q : LockFreeQueue α) : LockFreeQueue α :=
  { q with m_size := u32.sub q.m_size 1 }

/-- `m_write.fetch_add(1)` -/
def write_fetch_add (q : LockFreeQueue α) : Nat × LockFreeQueue α :=
  (q.m_write, { q with m_write := u32.add q.m_write 1 })

/-- `m_max_read.fetch_add(1)` -/
def max_read_fetch_add (q : LockFreeQueue α) : LockFreeQueue α :=
  { q with m_max_read := u32.add q.m_max_read 1 }

/-- `m_max_read.fetch_sub(1)` -/
def max_read_fetch_sub (q : LockFreeQueue α) : Nat × LockFreeQueue α :=
  (q.m_max_read, { q with m_max_read := u32.sub q.m_max_read 1 })

/-- `m_buffer[write % m_capacity] = value` -/
def assign_slot (q : LockFreeQueue α) (write : Nat) (value : α) : LockFreeQueue α :=
  { q with m_buffer := q.m_buffer.assign (write % q.m_capacity) (some value) }

/-- `m_read + 1 > m_max_read` -/
def nothing_to_read (q : LockFreeQueue α) : Bool := q.m_max_read < u32.add q.m_read 1

/-- `read = m_read % m_capacity`, then `++m_read` -/
def read_increment (q : LockFreeQueue α) : Nat × LockFreeQueue α :=
  (q.m_read % q.m_capacity, { q with m_read := u32.add q.m_read 1 })

/-- `Some(std::move(m_buffer[read]))` -/
def move_slot (T : QueueElement α) (q : LockFreeQueue α) (read : Nat) :
    Option α × LockFreeQueue α :=
  (q.m_buffer.read read, { q with m_buffer := q.m_buffer.moveFrom T.moved read })

/-! ### The member functions -/

/-- `size` -/
def size (q : LockFreeQueue α) : Nat := q.m_size

/-- `empty` -/
def empty (q : LockFreeQueue α) : Bool := q.size = 0

/-- `full` -/
def full (q : LockFreeQueue α) : Bool := q.size = q.m_capacity

/-- `increment_size` -/
def increment_size (q : LockFreeQueue α) : Bool × LockFreeQueue α :=
  let (_size, q) := q.size_fetch_add
  if q.m_capacity ≤ _size then (false, q.size_fetch_sub) else (true, q)

/-- What a push does once it is admitted. -/
def push_admitted (q : LockFreeQueue α) (value : α) : LockFreeQueue α :=
  let (write, q) := q.write_fetch_add
  (q.assign_slot write value).max_read_fetch_add

/-- `push_back`; alone, a push that is not admitted waits forever. -/
def push_back (q : LockFreeQueue α) (value : α) : Option (LockFreeQueue α) :=
  let (admitted, q) := q.increment_size
  if admitted then some (q.push_admitted value) else none

/-- `try_push_back` -/
def try_push_back (q : LockFreeQueue α) (value : α) : Bool × LockFreeQueue α :=
  let (admitted, q) := q.increment_size
  if !admitted then (false, q) else (true, q.push_admitted value)

/-- `force_push_back` -/
def force_push_back (q : LockFreeQueue α) (value : α) : LockFreeQueue α :=
  let (admitted, q) := q.increment_size
  if !admitted then
    let (write, q) := q.max_read_fetch_sub
    (q.assign_slot write value).max_read_fetch_add
  else q.push_admitted value

/-- `emplace_back`: the element is constructed and assigned. -/
def emplace_back (q : LockFreeQueue α) (value : α) : Option (LockFreeQueue α) :=
  q.push_back value

/-- `try_emplace_back` -/
def try_emplace_back (q : LockFreeQueue α) (value : α) : Bool × LockFreeQueue α :=
  q.try_push_back value

/-- `force_emplace_back` -/
def force_emplace_back (q : LockFreeQueue α) (value : α) : LockFreeQueue α :=
  q.force_push_back value

/-- `front`: a copy of `m_buffer[m_read]`. -/
def front (q : LockFreeQueue α) : Option (Option α) × LockFreeQueue α :=
  if q.nothing_to_read then (none, q)
  else (some (q.m_buffer.read q.m_read), { q with m_buffer := q.m_buffer.copyFrom q.m_read })

/-- `pop_front` -/
def pop_front (T : QueueElement α) (q : LockFreeQueue α) :
    Option (Option α) × LockFreeQueue α :=
  if q.nothing_to_read then (none, q)
  else
    let (read, q) := q.read_increment
    let (ret, q) := q.move_slot T read
    (some ret, q.size_fetch_sub)

/-- The body of the loop of `reserve`: `span[i] = m_buffer[(read + i) % m_capacity]` -/
def reserve_slot (read m_capacity i : Nat) (buffers : Arena α × Arena α) :
    Arena α × Arena α :=
  let index := (read + i) % m_capacity
  (buffers.1.assign i (buffers.2.read index), buffers.2.copyFrom index)

/-- `reserve` -/
def reserve (q : LockFreeQueue α) (new_capacity : Nat) : LockFreeQueue α :=
  if q.m_capacity < new_capacity then
    let (temp, old) := loop (reserve_slot q.m_read q.m_capacity) q.m_capacity
      (Arena.fresh new_capacity, q.m_buffer)
    { q with
      m_buffer := temp
      m_read := 0
      m_capacity := new_capacity
      m_write := u32.sub q.m_capacity 1
      m_max_read := u32.sub q.m_capacity 1
      freed := q.freed ++ [old] }
  else q

/-- `clear` -/
def clear (q : LockFreeQueue α) : LockFreeQueue α :=
  { q with m_buffer := Arena.fresh q.m_capacity, freed := q.freed ++ [q.m_buffer] }.set_all 0 0 0

/-- `buffer.m_buffer = nullptr` after it was moved from. -/
def without_buffer (q : LockFreeQueue α) : LockFreeQueue α := { q with m_buffer := Arena.fresh 0 }

/-- `LockFreeQueue(LockFreeQueue&&)`: the other one keeps its capacity. -/
def move_construct (buffer : LockFreeQueue α) : LockFreeQueue α × LockFreeQueue α :=
  ({ buffer with freed := [] }.set_all buffer.m_read buffer.m_write buffer.m_size,
    buffer.without_buffer.set_all 0 0 0)

/-- `operator=(LockFreeQueue&&)` from another queue. -/
def move_assign (q buffer : LockFreeQueue α) : LockFreeQueue α × LockFreeQueue α :=
  ({ buffer with freed := q.freed ++ [q.m_buffer] }.set_all buffer.m_read buffer.m_write
      buffer.m_size,
    { buffer.without_buffer with m_capacity := 0 }.set_all 0 0 0)

/-- `operator=(LockFreeQueue&&)` from itself: the buffer just moved is freed. -/
def move_assign_self (q : LockFreeQueue α) : LockFreeQueue α :=
  ({ q.without_buffer with m_capacity := 0, freed := q.freed ++ [q.m_buffer] }.set_all 0 0 0).set_all
    q.m_read q.m_write q.m_size

/-- `~LockFreeQueue` -/
def destructor (q : LockFreeQueue α) : LockFreeQueue α :=
  { q with m_buffer := loop (fun index a => a.destroy index) q.m_capacity q.m_buffer }.set_all
    0 0 0

end LockFreeQueue

end Hyperion
