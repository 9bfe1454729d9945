/-
The option of `Hyperion/Option.h` over the storage of `Hyperion/option/OptionData.h`.

The union of `m_some` and `m_none` is an arena of one slot, so that the lifetimes of
the payloads constructed in it are on record.  `m_is_some` is the tag.  `Option` adds
no data to `OptionData`, and its functions are given here as functions of the data.

`extracted` is not in the source.  It counts the calls of `extract`, which is how a
payload leaves an option.
-/
import Hyperion.Lib.Ledger
import Hyperion.Lib.Objects

namespace Hyperion

/-- What the unions ask of the type of a payload. -/
structure PayloadType (α : Type) where
  /-- `std::is_trivially_destructible_v<T>` -/
  trivially_destructible : Bool
  /-- `std::is_trivially_copy_assignable_v<T>` -/
  trivially_copy_assignable : Bool
  /-- What a move leaves in the object moved from. -/
  moved : α → α

/-- A payload that owns what its value refers to. -/
def PayloadType.owning : PayloadType Nat := ⟨false, false, fun _ => 0⟩

/-- A payload of plain data. -/
def PayloadType.plain : PayloadType Nat := ⟨true, true, id⟩

/-- How a member function ends; reading a member that is not active is undefined. -/
inductive Answer (γ : Type)
  | panic (message : String)
  | undefined
  | returns (c : γ)
deriving DecidableEq

def Answer.map {γ δ : Type} (f : γ → δ) : Answer γ → Answer δ
  | .panic message => .panic message
  | .undefined => .undefined
  | .returns c => .returns (f c)

/-- A program goes on after a call only where it returns. -/
def Answer.returning {γ β : Type} : Answer γ × β → Option (γ × β)
  | (.returns c, o) => some (c, o)
  | _ => none

/-- Whether a constructor or an assignment takes the other object as `const&` or `&&`. -/
inductive Transfer
  | copy
  | move
deriving DecidableEq

/-- `option::OptionData<T>` -/
structure OptionData (α : Type) where
  m_some : Arena α
  m_is_some : Bool
  extracted : Nat

namespace OptionData

variable {α γ ε : Type}

/-! ### The storage -/

/-- `OptionData()` and `OptionData(None)` -/
def none : OptionData α := ⟨Arena.fresh 1, false, 0⟩

/-- `OptionData(t)` -/
def some (t : Option α) : OptionData α := ⟨(Arena.fresh 1).construct 0 t, true, 0⟩

/-- What the bytes of `m_some` read as. -/
def value (data : OptionData α) : Option α := (data.m_some.cell 0).value

/-- `OptionData(const OptionData&)`: the new object, and the other one. -/
def copy (data : OptionData α) : OptionData α × OptionData α :=
  if data.m_is_some then
    (some data.value, { data with m_some := data.m_some.copyFrom 0 })
  else (none, data)

/-- `OptionData(OptionData&&)` -/
def move (T : PayloadType α) (data : OptionData α) : OptionData α × OptionData α :=
  if data.m_is_some then
    (some data.value, { data with m_some := data.m_some.moveFrom T.moved 0, m_is_some := false })
  else (none, data)

/-- `std::destroy_at(std::addressof(m_some))`, for types with a destructor. -/
def destroy_some (T : PayloadType α) (data : OptionData α) : OptionData α :=
  if T.trivially_destructible then data else { data with m_some := data.m_some.destroy 0 }

/-- `~OptionData` -/
def destructor (T : PayloadType α) (data : OptionData α) : OptionData α :=
  if data.m_is_some then data.destroy_some T else data

/-- `has_value` -/
def has_value (data : OptionData α) : Bool := data.m_is_some

/-- `get` -/
def get (data : OptionData α) : Answer α :=
  match data.m_is_some, data.value with
  | true, .some v => .returns v
  | _, _ => .undefined

/-- `extract`, which returns by value and leaves the tag as it is. -/
def extract (T : PayloadType α) (data : OptionData α) : Answer α × OptionData α :=
  (data.get,
    { data with m_some := data.m_some.moveFrom T.moved 0, extracted := data.extracted + 1 })

/-- `operator=(const_reference)`, `operator=(rvalue_reference)` -/
def assign_value (data : OptionData α) (t : Option α) : OptionData α :=
  if data.m_is_some then { data with m_some := data.m_some.assign 0 t }
  else { data with m_some := data.m_some.construct 0 t, m_is_some := true }

/-- `operator=(None)` -/
def assign_none (T : PayloadType α) (data : OptionData α) : OptionData α :=
  if data.m_is_some then { data.destroy_some T with m_is_some := false } else data

/-- `operator=(const OptionData&)` from another object. -/
def assign_copy (T : PayloadType α) (target data : OptionData α) :
    OptionData α × OptionData α :=
  if data.m_is_some then
    (target.assign_value data.value, { data with m_some := data.m_some.copyFrom 0 })
  else (target.assign_none T, data)

/-- `operator=(OptionData&&)` from another object: its tag is cleared first. -/
def assign_move (T : PayloadType α) (target data : OptionData α) :
    OptionData α × OptionData α :=
  if data.m_is_some then
    let data := { data with m_is_some := false }
    if T.trivially_copy_assignable then
      (target.assign_value data.value, { data with m_some := data.m_some.copyFrom 0 })
    else
      (target.assign_value data.value, { data with m_some := data.m_some.moveFrom T.moved 0 })
  else (target.assign_none T, data)

/-! ### The class `Option` -/

/-- `Option(Option&&)`: `OptionData(std::move(option))`, then `option = None()`. -/
def move_construct (T : PayloadType α) (option : OptionData α) : OptionData α × OptionData α :=
  let (data, option) := option.move T
  (data, option.assign_none T)

/-- `operator=(Option&&)` from another object, which is then assigned `None()`. -/
def move_assign (T : PayloadType α) (target option : OptionData α) :
    OptionData α × OptionData α :=
  let (target, option) := target.assign_move T option
  (target, option.assign_none T)

/-- `is_some` -/
def is_some (o : OptionData α) : Bool := o.has_value

/-- `is_none` -/
def is_none (o : OptionData α) : Bool := !o.is_some

/-- `map` -/
def map (o : OptionData α) (map_func : α → γ) : Answer (Option γ) :=
  if !o.is_some then .returns .none else (o.get.map map_func).map .some

/-- `map_or` -/
def map_or (o : OptionData α) (map_func : α → γ) (default_value : γ) : Answer γ :=
  if !o.is_some then .returns default_value else o.get.map map_func

/-- `map_or_else` -/
def map_or_else (o : OptionData α) (map_func : α → γ) (default_generator : Unit → γ) :
    Answer γ :=
  if !o.is_some then .returns (default_generator ()) else o.get.map map_func

/-- `match` -/
def match' (T : PayloadType α) (o : OptionData α) (some_func : α → γ) (none_func : Unit → γ) :
    Answer γ × OptionData α :=
  if !o.is_some then (.returns (none_func ()), o)
  else
    let (v, o) := o.extract T
    (v.map some_func, o)

/-- `and_then` -/
def and_then (T : PayloadType α) (o : OptionData α) (func : α → Option γ) :
    Answer (Option γ) × OptionData α :=
  if !o.is_some then (.returns .none, o)
  else
    let (v, o) := o.extract T
    (v.map func, o)

/-- `ok_or` -/
def ok_or (T : PayloadType α) (o : OptionData α) (error : ε) :
    Answer (Except ε α) × OptionData α :=
  if !o.is_some then (.returns (.error error), o)
  else
    let (v, o) := o.extract T
    (v.map .ok, o)

/-- `ok_or_else` -/
def ok_or_else (T : PayloadType α) (o : OptionData α) (error_generator : Unit → ε) :
    Answer (Except ε α) × OptionData α :=
  if !o.is_some then (.returns (.error (error_generator ())), o)
  else
    let (v, o) := o.extract T
    (v.map .ok, o)

/-- `unwrap` -/
def unwrap (T : PayloadType α) (o : OptionData α) : Answer α × OptionData α :=
  if !o.is_some then (.panic "Option::unwrap called on a None, terminating", o)
  else o.extract T

/-- `unwrap_or` -/
def unwrap_or (T : PayloadType α) (o : OptionData α) (default_value : α) :
    Answer α × OptionData α :=
  if !o.is_some then (.returns default_value, o) else o.unwrap T

/-- `unwrap_or_else` -/
def unwrap_or_else (T : PayloadType α) (o : OptionData α) (default_generator : Unit → α) :
    Answer α × OptionData α :=
  if !o.is_some then (.returns (default_generator ()), o) else o.unwrap T

/-- `expect` -/
def expect (T : PayloadType α) (o : OptionData α) (panic_message : String) :
    Answer α × OptionData α :=
  if !o.is_some then (.panic panic_message, o) else o.unwrap T

/-- `as_ref` -/
def as_ref (o : OptionData α) : Answer α :=
  if !o.is_some then .panic "Option::as_ref called on a None, terminating" else o.get

/-- `as_cref` -/
def as_cref (o : OptionData α) : Answer α :=
  if !o.is_some then .panic "Option::as_cref called on a None, terminating" else o.get

/-! ### Programs -/

/-- A call of a member function. -/
inductive Call (α γ ε : Type)
  | is_some
  | is_none
  | map (map_func : α → γ)
  | map_or (map_func : α → γ) (default_value : γ)
  | map_or_else (map_func : α → γ) (default_generator : Unit → γ)
  | match' (some_func : α → γ) (none_func : Unit → γ)
  | and_then (func : α → Option γ)
  | ok_or (error : ε)
  | ok_or_else (error_generator : Unit → ε)
  | unwrap
  | unwrap_or (default_value : α)
  | unwrap_or_else (default_generator : Unit → α)
  | expect (panic_message : String)
  | as_ref
  | as_cref
  | assign_value (some : α)
  | assign_none

/-- What a call returns. -/
inductive Output (α γ ε : Type)
  | nothing
  | flag (b : Bool)
  | payload (v : α)
  | value (c : γ)
  | option (o : Option γ)
  | result (r : Except ε α)

/-- One call, and the option after it. -/
def call (T : PayloadType α) (o : OptionData α) :
    Call α γ ε → Answer (Output α γ ε) × OptionData α
  | .is_some => (.returns (.flag o.is_some), o)
  | .is_none => (.returns (.flag o.is_none), o)
  | .map f => ((o.map f).map .option, o)
  | .map_or f c => ((o.map_or f c).map .value, o)
  | .map_or_else f g => ((o.map_or_else f g).map .value, o)
  | .match' f g => let (a, o) := o.match' T f g; (a.map .value, o)
  | .and_then f => let (a, o) := o.and_then T f; (a.map .option, o)
  | .ok_or e => let (a, o) := o.ok_or T e; (a.map .result, o)
  | .ok_or_else g => let (a, o) := o.ok_or_else T g; (a.map .result, o)
  | .unwrap => let (a, o) := o.unwrap T; (a.map .payload, o)
  | .unwrap_or v => let (a, o) := o.unwrap_or T v; (a.map .payload, o)
  | .unwrap_or_else g => let (a, o) := o.unwrap_or_else T g; (a.map .payload, o)
  | .expect m => let (a, o) := o.expect T m; (a.map .payload, o)
  | .as_ref => (o.as_ref.map .payload, o)
  | .as_cref => (o.as_cref.map .payload, o)
  | .assign_value v => (.returns .nothing, o.assign_value (.some v))
  | .assign_none => (.returns .nothing, o.assign_none T)

/--
`Option<T>` as a class: constructed from nothing or a value, and what its functions do.  A copy
is one that `Option(const Option&)` makes.  `Option<bool> b(a)`, of an `a` that is not const, runs
the explicit constructor from arguments of `T` instead, and is the construction of a value.
-/
def object_type (T : PayloadType α) :
    ObjectType (OptionData α) (Option α) Transfer (Call α γ ε) (Output α γ ε) where
  construct
    | .none => .some none
    | .some v => .some (some (.some v))
  construct_from
    | .copy, o => .some o.copy
    | .move, o => .some (o.move_construct T)
  assign_from
    | .copy, target, o => .some (target.assign_copy T o)
    | .move, target, o => .some (target.move_assign T o)
  assign_self _ o := .some o
  call u o := Answer.returning (o.call T u)
  destroy o := .some (o.destructor T)

end OptionData

end Hyperion
