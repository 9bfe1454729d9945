/-
The tagged union of `Hyperion/Enum.h`.

The members of the union are slots of an arena, so that the lifetimes of the variants in
them are on record, and `m_current_index` is the tag, which is `SIZE` where there is no
variant.  Which variant a value goes to is decided when a program is compiled, by the type
of the expression: the first variant, from index 0 on, that can be made of it.

A type without a destructor is destroyed like the others here; all that happens then is that
its lifetime is over.
-/
import Hyperion.Lib.Ledger
import Hyperion.Lib.Objects
import Mathlib.Data.List.FinRange

namespace Hyperion

/-- How an expression refers to a variant. -/
inductive Category
  | const_lvalue
  | rvalue
  | const_rvalue
deriving DecidableEq

/--
The types of `SIZE` variants, whose values are all in `α`, and of the arguments `β` that
variants are constructed and assigned from.  Copying a variant to one of its type, or moving
it there, gives the value it had.
-/
structure VariantTypes (α β : Type) (SIZE : Nat) where
  /-- The variant is `detail::None`. -/
  is_none : Fin SIZE → Bool
  constructible : β → Fin SIZE → Bool
  nothrow_constructible : β → Fin SIZE → Bool
  constructed : β → Fin SIZE → α → α
  /-- What construction from it leaves in the object referred to. -/
  left : β → Fin SIZE → α → α
  assignable : β → Fin SIZE → Bool
  nothrow_assignable : β → Fin SIZE → Bool
  assigned : β → Fin SIZE → α → α
  default_constructible : Fin SIZE → Bool
  nothrow_default_constructible : Fin SIZE → Bool
  defaulted : α
  /-- `std::is_copy_assignable_v`, which is about the assignment to an lvalue. -/
  copy_assignable : Fin SIZE → Bool
  reference : Category → Fin SIZE → β
  constructed_self : ∀ c i v, constructed (reference c i) i v = v
  assigned_self : ∀ c i v, assigned (reference c i) i v = v

namespace VariantTypes

variable {α β : Type} {SIZE : Nat} (V : VariantTypes α β SIZE)

/-- The first index found that is not behind a `detail::None`, other than at the start. -/
def scan (found : Fin SIZE → Bool) : List (Fin SIZE) → Option (Fin SIZE)
  | [] => none
  | i :: rest =>
      if found i then some i
      else match rest with
        | [] => none
        | next :: _ => if V.is_none next then none else scan found rest

/-- `check_constructible<0, Args>().second` -/
def check_constructible (arg : β) : Option (Fin SIZE) :=
  V.scan (V.constructible arg) (List.finRange SIZE)

/-- `check_assignable<0, Arg>().second` -/
def check_assignable (arg : β) : Option (Fin SIZE) :=
  V.scan (V.assignable arg) (List.finRange SIZE)

/-- `noexcept` of `construct`, and of what calls it -/
def construct_noexcept (arg : β) : Bool := (List.finRange SIZE).any (V.nothrow_constructible arg)

/-- `noexcept` of `assign`, and of what calls it -/
def assign_noexcept (arg : β) : Bool := (List.finRange SIZE).any (V.nothrow_assignable arg)

/-- `noexcept` of `construct` without arguments -/
def default_noexcept : Bool := (List.finRange SIZE).any V.nothrow_default_constructible

/-- Classes that are constructed and assigned from themselves only, and may throw at that. -/
def unrelated (SIZE : Nat) : VariantTypes Nat (Category × Fin SIZE) SIZE where
  is_none _ := false
  constructible arg i := arg.2 == i
  nothrow_constructible _ _ := false
  constructed _ _ v := v
  left _ _ v := v
  assignable arg i := arg.2 == i
  nothrow_assignable _ _ := false
  assigned _ _ v := v
  default_constructible _ := true
  nothrow_default_constructible _ := false
  defaulted := 0
  copy_assignable _ := true
  reference category i := (category, i)
  constructed_self _ _ _ := rfl
  assigned_self _ _ _ := rfl

end VariantTypes

/-- Which functions of a variant throw when they are called next. -/
structure Throws where
  construct : Bool := false
  default : Bool := false
  assign : Bool := false

/-- `Enum<Types...>` -/
structure Enum (α : Type) where
  m_current_index : Nat
  storage : Arena α

namespace Enum

variable {α β : Type} {SIZE : Nat} (V : VariantTypes α β SIZE)

/-- An `Enum` before a variant was constructed in it. -/
def fresh (SIZE : Nat) : Enum α := ⟨SIZE, Arena.fresh SIZE⟩

/-- `is_valueless()` -/
def is_valueless (SIZE : Nat) (e : Enum α) : Bool := e.m_current_index == SIZE

/-- `set_index(index)` -/
def set_index (e : Enum α) (index : Nat) : Enum α := { e with m_current_index := index }

/-- What the member at `i` reads as. -/
def value (e : Enum α) (i : Nat) : Option α := (e.storage.cell i).value

/-- `destruct(get_index())` -/
def destruct (SIZE : Nat) (e : Enum α) : Enum α :=
  if e.is_valueless SIZE then e
  else { e with storage := e.storage.destroy e.m_current_index }.set_index SIZE

/-- `construct<Index, true>(arg)`; it throws where the variant does. -/
def construct (SIZE : Nat) (e : Enum α) (i : Fin SIZE) (v : Option α) (throws : Bool) :
    Bool × Enum α :=
  let e := if e.is_valueless SIZE then e else e.destruct SIZE
  if throws then (true, e.set_index SIZE)
  else (false, { e with storage := e.storage.construct i v }.set_index i)

/-- The assignment to the member at `i`, be it alive or not. -/
def assign_member (e : Enum α) (i : Fin SIZE) (arg : β) (v : Option α) (throws : Bool) :
    Bool × Enum α :=
  let e := { e with storage := e.storage.assign i (v.map (V.assigned arg i)) }
  if throws then (true, e.set_index SIZE) else (false, e.set_index i)

/-- `assign<Index, true>(arg)` -/
def assign (e : Enum α) (i : Fin SIZE) (arg : β) (v : Option α) (throws : Throws) :
    Bool × Enum α :=
  if e.m_current_index ≠ i then
    let e := e.destruct SIZE
    if V.constructible arg i then
      if throws.construct then (true, e.set_index SIZE)
      else
        (false, { e with
          storage := e.storage.construct i (v.map (V.constructed arg i)) }.set_index i)
    else if V.default_constructible i then
      if throws.default then (true, e.set_index SIZE)
      else
        assign_member V { e with storage := e.storage.construct i (some V.defaulted) } i arg v
          throws.assign
    else assign_member V e i arg v throws.assign
  else assign_member V e i arg v throws.assign

/-! ### Copying and moving -/

/--
`mpl::call_with_index<SIZE>(index, f)` of an `f` that gets the variant.  `SIZE` itself fails
its assertion; past that it is unreachable, or `get<0>` panics where there is one variant.
-/
def call_with_index (SIZE index : Nat) : Option (Fin SIZE) :=
  if h : index < SIZE then some ⟨index, h⟩ else none

/-- `Enum(const Enum& value)`: the new `Enum`, and the other one. -/
def copy_construct (value : Enum α) : Option (Enum α × Enum α) :=
  if value.is_valueless SIZE then some (fresh SIZE, value)
  else
    (call_with_index SIZE value.m_current_index).bind fun i =>
      let arg := V.reference .const_lvalue i
      (V.check_constructible arg).map fun j =>
        (((fresh SIZE).construct SIZE j ((value.value i).map (V.constructed arg j)) false).2,
          { value with storage := value.storage.copyFrom i })

/-- `Enum(Enum&& value)` -/
def move_construct (value : Enum α) : Option (Enum α × Enum α) :=
  if value.is_valueless SIZE then some (fresh SIZE, value)
  else
    (call_with_index SIZE value.m_current_index).bind fun i =>
      let arg := V.reference .rvalue i
      (V.check_constructible arg).map fun j =>
        (((fresh SIZE).construct SIZE j ((value.value i).map (V.constructed arg j)) false).2,
          { value with storage := value.storage.moveFrom (V.left arg j) i })

/-- `operator=(const Enum& value)` from another one -/
def copy_assign (this value : Enum α) : Option (Enum α × Enum α) :=
  (call_with_index SIZE value.m_current_index).bind fun i =>
    let arg := V.reference .const_lvalue i
    (V.check_assignable arg).map fun j =>
      ((assign V this j arg (value.value i) {}).2,
        { value with storage := value.storage.copyFrom i })

/--
`operator=(Enum&& value)` from another one.  The lambda keeps an `Enum` moved from `value`,
as a constant; `get` of it panics where it holds another variant.
-/
def move_assign (this value : Enum α) : Option (Enum α × Enum α) :=
  (move_construct V value).bind fun moved =>
    (call_with_index SIZE value.m_current_index).bind fun i =>
      if moved.1.m_current_index ≠ i then none
      else
        let arg := V.reference .const_rvalue i
        (V.check_assignable arg).map fun j =>
          ((assign V this j arg (moved.1.value i) {}).2, moved.2)

end Enum

end Hyperion
