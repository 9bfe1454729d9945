/-
What a program can do to a ring buffer, and one step of such a program.

The functions are those of `Hyperion/RingBuffer.h`.  The two insertions share the
loop that opens a gap and the two erasures the loop that closes one, so each pair is
one definition applied twice; where the members of a pair differ, they keep their
own body.

The functions that add an element take references, and a reference may lead to an
element of the buffer itself.  `Argument` is what the element is made from, and it is
used where the source uses it: the insertions use it behind the loop that shifts the
elements.
-/
import Hyperion.RingBuffer.Basic
import Hyperion.Lib.Machine

namespace Hyperion.RingBuffer

variable {α : Type}

/-! ### Arguments -/

/--
What an element is made from: something outside the buffer, an element of the buffer that
a reference leads to, of which `make` is what the constructor makes, or an element of the
buffer that the caller gives away with `std::move`.
-/
inductive Argument (α : Type)
  | value (value : α)
  | element (index : Nat) (make : α → α)
  | rvalue (index : Nat)

instance : Coe α (Argument α) := ⟨.value⟩

namespace Argument

/-- Where in the buffer the argument leads to. -/
def index : Argument α → Option Nat
  | .value _ => none
  | .element index _ | .rvalue index => some index

/-- The same argument as a reference that counts from elsewhere. -/
def map_index (f : Nat → Nat) : Argument α → Argument α
  | .value v => .value v
  | .element index make => .element (f index) make
  | .rvalue index => .rvalue (f index)

/-- A named reference is an lvalue, whatever it was bound to. -/
def lvalue : Argument α → Argument α
  | .rvalue index => .element index id
  | arg => arg

/-- Nothing is moved from. -/
def Copies : Argument α → Prop
  | .rvalue _ => False
  | .value _ | .element _ _ => True

instance : (arg : Argument α) → Decidable arg.Copies
  | .rvalue _ => isFalse id
  | .value _ | .element _ _ => isTrue trivial

/-- What is made from the argument where `look` is what an element reads as. -/
def read (look : Nat → Option α) : Argument α → Option α
  | .value v => some v
  | .element index make => (look index).map make
  | .rvalue index => look index

/-- The storage once something was made from the argument. -/
def use (E : ElementType α) (st : Storage α) : Argument α → Storage α
  | .value _ => st
  | .element index _ => { st with m_buffer := st.m_buffer.copyFrom index }
  | .rvalue index => (st.move E index).2

end Argument

/-! ### At the ends -/

/-- The element of `push_back` and `emplace_back` is constructed in the spacer slot. -/
def construct_back (E : ElementType α) (args : Argument α) (s : RingBuffer α) : Storage α :=
  let (occupied, st) := s.is_constructed E s.m_write_index
  let st := if occupied then st.destroy s.m_write_index else st
  ((args.use E st).construct s.m_write_index (args.read st.m_buffer.read)).set_constructed E
    s.m_write_index true

/-- `push_back(value)` -/
def push_back (E : ElementType α) (value : Argument α) (s : RingBuffer α) : RingBuffer α :=
  increment_indices { s with toStorage := s.construct_back E value }

/-- `emplace_back(args...)` -/
def emplace_back (E : ElementType α) (args : Argument α) (s : RingBuffer α) :
    Option α × RingBuffer α :=
  let index := s.m_write_index
  let s := increment_indices { s with toStorage := s.construct_back E args }
  s.slot index

/-- `pop_back()` -/
def pop_back (E : ElementType α) (s : RingBuffer α) : Option (Option α) × RingBuffer α :=
  if s.size > 0 then
    let index := s.get_adjusted_internal_index (usize.sub s.size 1)
    let (value, st) := s.move E index
    let s := decrement_write { s with toStorage := st }
    (some value, { s with toStorage := s.destroy_if_needed E s.m_write_index })
  else (none, s)

/-- `pop_front()` -/
def pop_front (E : ElementType α) (s : RingBuffer α) : Option (Option α) × RingBuffer α :=
  if s.size > 0 then
    let (value, st) := s.move E s.m_start_index
    (some value,
      increment_start { s with toStorage := st.destroy_if_needed E s.m_start_index })
  else (none, s)

/-- `clear()` -/
def clear (E : ElementType α) (s : RingBuffer α) : RingBuffer α :=
  -- the destroyed slot is an internal index, the cleared flag an external one
  let body := fun index (st : Storage α) =>
    (st.destroy (s.get_adjusted_internal_index index)).set_constructed E index false
  let st := if E.trivially_destructible then s.toStorage else loop body s.size s.toStorage
  { s with toStorage := st, m_start_index := 0, m_write_index := 0 }

/-! ### Inside -/

/-- `emplace(position, args...)` -/
def emplace (E : ElementType α) (position : Nat) (value : α) (s : RingBuffer α) :
    Option α × RingBuffer α :=
  let index := s.get_adjusted_internal_index position
  let (occupied, st) := s.is_constructed E index
  -- the slot destroyed is the one at the write index
  let st := if occupied then st.destroy s.m_write_index else st
  let st := (st.construct index (some value)).set_constructed E index true
  slot { s with toStorage := st } index

/--
The shared beginning of `insert_internal` and `insert_emplace_internal`: elements
from `external_index` on are shifted towards the end, the last one dropping out of
a full buffer.  The internal index of the gap is returned with the storage.
-/
def open_gap (E : ElementType α) (external_index : Nat) (s : RingBuffer α) : Nat × Storage α :=
  let index := s.get_adjusted_internal_index external_index
  let size := s.size
  let num_to_move := usize.sub size external_index
  let source_index := usize.sub num_to_move 1
  let full := size = usize.sub s.m_capacity 1
  let index := if full then usize.add index 1 else index
  let source_index := if full then usize.sub source_index 1 else source_index
  let num_to_move := if full then usize.sub num_to_move 1 else num_to_move
  let body := fun i (st : Storage α) =>
    st.shift_slot E (s.get_adjusted_internal_index (usize.sub size i))
      (s.get_adjusted_internal_index (usize.add external_index (usize.sub source_index i)))
  (index, loop body num_to_move s.toStorage)

/-- The end of `insert_internal`: the element is assigned where the gap holds an object. -/
def fill_gap (E : ElementType α) (index : Nat) (elem : Argument α) (st : Storage α) :
    Storage α :=
  let (occupied, st) := st.is_constructed E index
  if occupied then
    -- an element moved into itself is left as a move leaves it
    elem.use E (st.assign index (elem.read st.m_buffer.read))
  else
    ((elem.use E st).construct index (elem.read st.m_buffer.read)).set_constructed E index true

/-- The end of `insert_emplace_internal`: an object in the gap is destroyed first. -/
def emplace_gap (E : ElementType α) (index : Nat) (args : Argument α) (st : Storage α) :
    Storage α :=
  let (occupied, st) := st.is_constructed E index
  let st := if occupied then st.destroy index else st.set_constructed E index true
  (args.use E st).construct index (args.read st.m_buffer.read)

/-- `insert_internal(external_index, elem)` -/
def insert_internal (E : ElementType α) (external_index : Nat) (elem : Argument α)
    (s : RingBuffer α) : RingBuffer α :=
  if s.get_adjusted_internal_index external_index = s.m_write_index then
    -- `elem` is not forwarded here, so nothing is moved from
    (s.emplace_back E elem.lvalue).2
  else
    let (index, st) := s.open_gap E external_index
    increment_indices { s with toStorage := fill_gap E index elem st }

/-- `insert_emplace_internal(external_index, args...)` -/
def insert_emplace_internal (E : ElementType α) (external_index : Nat) (args : Argument α)
    (s : RingBuffer α) : Option α × RingBuffer α :=
  if s.get_adjusted_internal_index external_index = s.m_write_index then
    s.emplace_back E args
  else
    let (index, st) := s.open_gap E external_index
    (increment_indices { s with toStorage := emplace_gap E index args st }).slot index

/-- The loop of both erasures: `num_to_move` elements go from one position to another. -/
def close_gap (E : ElementType α) (num_to_move pos_to_replace pos_to_move : Nat)
    (s : RingBuffer α) : Storage α :=
  let body := fun i (st : Storage α) =>
    st.shift_slot E (s.get_adjusted_internal_index (usize.add pos_to_replace i))
      (s.get_adjusted_internal_index (usize.add pos_to_move i))
  loop body num_to_move s.toStorage

/-- `erase_internal(external_index)` -/
def erase_internal (E : ElementType α) (external_index : Nat) (s : RingBuffer α) :
    Iterator × RingBuffer α :=
  if s.get_adjusted_internal_index external_index = s.m_write_index then s.end'
  else
    let num_to_move := usize.sub (usize.sub s.size 1) external_index
    let st := s.close_gap E num_to_move external_index (usize.add external_index 1)
    let first := (decrement_write { s with toStorage := st }).begin'
    first.1.plus external_index first.2

/-- The write index `erase_internal(first, last)` computes when `last` lies past the write index. -/
def retract_write (num_to_remove : Nat) (s : RingBuffer α) : RingBuffer α :=
  if s.m_write_index > s.m_start_index then s.decrement_write_n num_to_remove
  else if s.m_write_index < s.m_start_index then
    let num_after_start_index :=
      if s.m_write_index > num_to_remove then usize.sub s.m_write_index num_to_remove else 0
    let num_before_start_index := usize.sub num_to_remove num_after_start_index
    if num_after_start_index > 0 then
      { s with
        m_write_index :=
          usize.sub (usize.sub s.m_capacity 1) (usize.sub num_after_start_index 1) }
    else s.decrement_write_n num_before_start_index
  else s

/-- `erase_internal(first, last)` -/
def erase_internal_range (E : ElementType α) (first last : Nat) (s : RingBuffer α) :
    Iterator × RingBuffer α :=
  let size := s.size
  let num_to_remove := usize.sub last first
  if s.get_adjusted_internal_index last > s.m_write_index then
    (s.retract_write num_to_remove).end'
  else
    let st := s.close_gap E (usize.sub size last) first last
    let start := (decrement_write_n { s with toStorage := st } num_to_remove).begin'
    start.1.plus first start.2

/-- `erase(first, last)` -/
def erase_range (E : ElementType α) (first last : Iterator) (s : RingBuffer α) :
    Iterator × RingBuffer α :=
  if first.m_current_index ≥ last.m_current_index then (last, s)
  else s.erase_internal_range E first.m_current_index last.m_current_index

/-! ### The whole buffer -/

/-- One round of the loop in `reserve` that moves the elements over, `old` to `temp`. -/
def reserve_move (E : ElementType α) (s : RingBuffer α) (index : Nat)
    (buffers : Arena α × Arena α) : Arena α × Arena α :=
  let internal := s.get_adjusted_internal_index index
  (buffers.1.moveFrom E.moved internal, buffers.2.construct index (buffers.1.read internal))

/-- One round of the loop in `reserve` that copies the flags over. -/
def reserve_flag (E : ElementType α) (s : RingBuffer α) (index : Nat)
    (st : Storage α × ConstructedChecker) : Storage α × ConstructedChecker :=
  let (constructed, old) := st.1.is_constructed E (s.get_adjusted_internal_index index)
  ({ old with m_buffer := old.m_buffer.touch index st.2.size },
    { st.2 with m_flags := Function.update st.2.m_flags index constructed })

/-- `reserve(new_capacity)` -/
def reserve (A : Allocator) (E : ElementType α) (new_capacity : Nat) (s : RingBuffer α) :
    Option (RingBuffer α) :=
  if new_capacity > s.m_capacity then do
    let slots := usize.add new_capacity 1
    -- the allocation succeeds, and every index is inside the span over it
    if slots > A.max_size ∨ s.size > slots then none
    let (old, temp) := loop (s.reserve_move E) s.size (s.m_buffer, s.m_buffer.beside slots)
    let moved : Storage α := { m_buffer := temp.retire old, m_constructed := s.m_constructed }
    let st ← if E.trivially_destructible then some moved
      else do
        let checker ← ConstructedChecker.new A E new_capacity
        let (st, checker) := loop (s.reserve_flag E) s.size (moved, checker)
        some { st with m_constructed := checker }
    some { st with
      m_start_index := 0
      m_write_index := usize.sub s.m_capacity 1
      m_capacity := slots }
  else some s

/-- `~RingBuffer()` -/
def destruct (E : ElementType α) (s : RingBuffer α) : RingBuffer α :=
  let body := fun index (st : Storage α) =>
    let internal := s.get_adjusted_internal_index index
    let (constructed, st) := st.is_constructed E internal
    if constructed then st.destroy internal else st
  if E.trivially_destructible then s
  else { s with toStorage := loop body s.size s.toStorage }

/-! ### Steps -/

/--
A call of a member function; positions are the indices of iterators, and an argument that
leads into the buffer was obtained with `at`.  Only the insertions touch other elements
before they use their argument; to the other calls a reference to an element is as good as
its value.
-/
inductive Op (α : Type)
  | push_back (value : α)
  | emplace_back (value : α)
  | pop_front
  | pop_back
  | clear
  | emplace (position : Nat) (value : α)
  | insert (position : Nat) (elem : Argument α)
  | insert_emplace (position : Nat) (args : Argument α)
  | erase (position : Nat)
  | erase_range (first last : Nat)
  | reserve (new_capacity : Nat)
  | at' (index : Nat)
  | subscript (index : Nat)
  | front
  | back
  | iterate

/-- What a call returns. -/
inductive Output (α : Type)
  | done
  | popped (value : Option (Option α))
  | element (value : Option α)
  | position (index : Nat)
  | elements (values : List (Option α))
deriving DecidableEq, Repr

/-- The iterator at index `p`. -/
def iterator (s : RingBuffer α) (p : Nat) : Iterator := ⟨s.get_adjusted_internal_index p, p⟩

/-- An argument that leads to a position leads to the position's slot. -/
def reference (s : RingBuffer α) (arg : Argument α) : Argument α :=
  arg.map_index s.get_adjusted_internal_index

/-- One call. -/
def step (A : Allocator) (E : ElementType α) (s : RingBuffer α) :
    Op α → Option (Output α × RingBuffer α)
  | .push_back v => some (.done, s.push_back E v)
  | .emplace_back v => let (r, s) := s.emplace_back E v; some (.element r, s)
  | .pop_front => let (r, s) := s.pop_front E; some (.popped r, s)
  | .pop_back => let (r, s) := s.pop_back E; some (.popped r, s)
  | .clear => some (.done, s.clear E)
  | .emplace p v => let (r, s) := s.emplace E p v; some (.element r, s)
  | .insert p x => some (.done, s.insert_internal E p (s.reference x))
  | .insert_emplace p x =>
      let (r, s) := s.insert_emplace_internal E p (s.reference x); some (.element r, s)
  | .erase p => let (it, s) := s.erase_internal E p; some (.position it.m_current_index, s)
  | .erase_range f l =>
      let (it, s) := s.erase_range E (s.iterator f) (s.iterator l)
      some (.position it.m_current_index, s)
  | .reserve k => (s.reserve A E k).map fun s => (.done, s)
  | .at' i => let (r, s) := s.at' i; some (.element r, s)
  | .subscript i => let (r, s) := s.subscript i; some (.element r, s)
  | .front => let (r, s) := s.front; some (.element r, s)
  | .back => let (r, s) := s.back; some (.element r, s)
  | .iterate => let (r, s) := s.iterate; some (.elements r, s)

/-- Every iterator argument lies in `[begin(), end()]`, and a reference leads to an element. -/
def InRange (s : RingBuffer α) : Op α → Prop
  | .emplace p _ | .erase p => p ≤ s.size
  | .insert p x | .insert_emplace p x => p ≤ s.size ∧ ∀ j ∈ x.index, j < s.size
  | .erase_range f l => f ≤ s.size ∧ l ≤ s.size
  | _ => True

instance (s : RingBuffer α) : (op : Op α) → Decidable (s.InRange op)
  | .emplace _ _ | .erase _ => inferInstanceAs (Decidable (_ ≤ _))
  | .insert _ x | .insert_emplace _ x =>
      inferInstanceAs (Decidable (_ ∧ ∀ j ∈ x.index, j < s.size))
  | .erase_range _ _ => inferInstanceAs (Decidable (_ ∧ _))
  | .push_back _ | .emplace_back _ | .pop_front | .pop_back | .clear | .reserve _ | .at' _
  | .subscript _ | .front | .back | .iterate => isTrue trivial

end Hyperion.RingBuffer
