/-
The result of `Hyperion/Result.h` over the storage of `Hyperion/result/ResultData.h`.

The union of `m_ok`, `m_err` and `m_none` is an arena of one slot that holds either
kind of payload, and `m_active` is the tag.  A payload that is constructed where one
without a destructor still lies ends the lifetime of that one; over any other it is
misuse.  `m_handled` only exists in builds with
`HYPERION_RESULT_PANICS_ON_DESTRUCTION_IF_UNHANDLED`; in the others it is written and
never looked at.

`ResultData(None())` means two things.  It is the disengaged storage, except where `T`
is itself `option::None`: that type has no such constructor, and the one that takes an
Ok payload is chosen.  `none_as_ok` is that payload.

`extracted` is not in the source.  It counts the calls of `extract` and `extract_err`.
`or_else(Result&&)` is left out: it calls the non-const `extract` on a const object and
does not compile when it is used.
-/
import Hyperion.Option.Basic

namespace Hyperion

/-- The payload types of a `Result<T, E>`, and the build it is part of. -/
structure ResultType (α ε : Type) where
  ok : PayloadType α
  err : PayloadType ε
  /-- The value `None()` of `T`, where `T` is `option::None`. -/
  none_as_ok : Option α
  none_trivial : none_as_ok.isSome = true → ok.trivially_destructible = true
  /-- `HYPERION_RESULT_PANICS_ON_DESTRUCTION_IF_UNHANDLED` -/
  panics_if_unhandled : Bool

/-- What a move leaves of either payload. -/
def ResultType.moved {α ε : Type} (T : ResultType α ε) : α ⊕ ε → α ⊕ ε :=
  Sum.map T.ok.moved T.err.moved

/-- A number or an error that owns something, in a build that does not check. -/
def ResultType.plain_ok : ResultType Nat Nat :=
  ⟨.plain, .owning, none, by simp, false⟩

/-- `ResultData::Active` -/
inductive Active
  | Ok
  | Err
  | None
deriving DecidableEq

/-- Whether the type of a member has no destructor; `option::None` has none. -/
def ResultType.trivially_destructible {α ε : Type} (T : ResultType α ε) : Active → Bool
  | .Ok => T.ok.trivially_destructible
  | .Err => T.err.trivially_destructible
  | .None => true

/-- Payloads that own what their values refer to, in a build that checks. -/
def ResultType.owning : ResultType Nat Nat :=
  ⟨.owning, .owning, none, by simp, true⟩

/-- `Result<None, E>` -/
def ResultType.of_none : ResultType Unit Nat :=
  ⟨⟨true, true, id⟩, .owning, some (), by simp, true⟩

/-- `result::ResultData<T, E>` -/
structure ResultData (α ε : Type) where
  m_union : Arena (α ⊕ ε)
  m_active : Active
  extracted : Nat

namespace ResultData

variable {α ε : Type}

/-- What the bytes of the union read as. -/
def value (data : ResultData α ε) : Option (α ⊕ ε) := (data.m_union.cell 0).value

/-- The member that holds an object, if one does. -/
def member (data : ResultData α ε) : Active :=
  match data.m_union.holds 0, data.value with
  | true, some (.inl _) => .Ok
  | true, some (.inr _) => .Err
  | _, _ => .None

/-- `ResultData()` -/
def empty : ResultData α ε := ⟨Arena.fresh 1, .None, 0⟩

/-- `ResultData(ok)`, from a value read as `ok`. -/
def of_ok (ok : Option (α ⊕ ε)) : ResultData α ε := ⟨(Arena.fresh 1).construct 0 ok, .Ok, 0⟩

/-- `ResultData(err)` -/
def of_err (err : Option (α ⊕ ε)) : ResultData α ε := ⟨(Arena.fresh 1).construct 0 err, .Err, 0⟩

/-- `ResultData(None())` -/
def of_none (T : ResultType α ε) : ResultData α ε :=
  match T.none_as_ok with
  | none => empty
  | some none_ => of_ok (some (.inl none_))

/-- `ResultData(const ResultData&)`: the new object, and the other one. -/
def copy (data : ResultData α ε) : ResultData α ε × ResultData α ε :=
  match data.m_active with
  | .Ok => (of_ok data.value, { data with m_union := data.m_union.copyFrom 0 })
  | .Err => (of_err data.value, { data with m_union := data.m_union.copyFrom 0 })
  | .None => (empty, data)

/-- `ResultData(ResultData&&)` -/
def move (T : ResultType α ε) (data : ResultData α ε) : ResultData α ε × ResultData α ε :=
  match data.m_active with
  | .Ok =>
      (of_ok data.value,
        { data with m_union := data.m_union.moveFrom T.moved 0, m_active := .None })
  | .Err =>
      (of_err data.value,
        { data with m_union := data.m_union.moveFrom T.moved 0, m_active := .None })
  | .None => (empty, { data with m_active := .None })

/-- `std::destroy_at` of the active member, for types with a destructor. -/
def destroy_active (T : ResultType α ε) (data : ResultData α ε) : ResultData α ε :=
  match data.m_active with
  | .Ok =>
      if T.ok.trivially_destructible then data
      else { data with m_union := data.m_union.destroy 0 }
  | .Err =>
      if T.err.trivially_destructible then data
      else { data with m_union := data.m_union.destroy 0 }
  | .None => data

/-- The union's bytes are used again or given up: a payload without a destructor ends there. -/
def release (T : ResultType α ε) (data : ResultData α ε) : Arena (α ⊕ ε) :=
  if T.trivially_destructible data.member then data.m_union.release 0 else data.m_union

/-- `~ResultData`, after which the storage is gone. -/
def destructor (T : ResultType α ε) (data : ResultData α ε) : ResultData α ε :=
  let data := data.destroy_active T
  { data with m_union := data.release T }

/-- `has_ok` -/
def has_ok (data : ResultData α ε) : Bool := data.m_active = .Ok

/-- `has_err` -/
def has_err (data : ResultData α ε) : Bool := data.m_active = .Err

/-- `is_empty` -/
def is_empty (data : ResultData α ε) : Bool := !data.has_ok && !data.has_err

/-- `get` reads `m_ok`. -/
def get (data : ResultData α ε) : Answer α :=
  match data.m_active, data.value with
  | .Ok, some (.inl ok) => .returns ok
  | _, _ => .undefined

/-- `get_err` reads `m_err`. -/
def get_err (data : ResultData α ε) : Answer ε :=
  match data.m_active, data.value with
  | .Err, some (.inr err) => .returns err
  | _, _ => .undefined

/-- `extract`: a reference to `m_ok` to move from; the tag stays. -/
def extract (data : ResultData α ε) : Answer α × ResultData α ε :=
  (data.get, { data with extracted := data.extracted + 1 })

/-- `extract_err` -/
def extract_err (data : ResultData α ε) : Answer ε × ResultData α ε :=
  (data.get_err, { data with extracted := data.extracted + 1 })

/-- `operator=(ok_const_reference)`, `operator=(ok_rvalue_reference)` -/
def assign_ok (T : ResultType α ε) (data : ResultData α ε) (t : Option (α ⊕ ε)) :
    ResultData α ε :=
  match data.m_active with
  | .Ok => { data with m_union := data.m_union.assign 0 t, m_active := .Ok }
  | _ =>
      let data := data.destroy_active T
      { data with m_union := (data.release T).construct 0 t, m_active := .Ok }

/-- `operator=(err_const_reference)`, `operator=(err_rvalue_reference)` -/
def assign_err (T : ResultType α ε) (data : ResultData α ε) (e : Option (α ⊕ ε)) :
    ResultData α ε :=
  match data.m_active with
  | .Err => { data with m_union := data.m_union.assign 0 e, m_active := .Err }
  | _ =>
      let data := data.destroy_active T
      { data with m_union := (data.release T).construct 0 e, m_active := .Err }

/-- The last branch of the assignments: the target becomes disengaged. -/
def assign_empty (T : ResultType α ε) (data : ResultData α ε) : ResultData α ε :=
  { data.destroy_active T with m_active := .None }

/-- `operator=(const ResultData&)` from another object. -/
def assign_copy (T : ResultType α ε) (target data : ResultData α ε) :
    ResultData α ε × ResultData α ε :=
  match data.m_active with
  | .Ok => (target.assign_ok T data.value, { data with m_union := data.m_union.copyFrom 0 })
  | .Err => (target.assign_err T data.value, { data with m_union := data.m_union.copyFrom 0 })
  | .None => (target.assign_empty T, data)

/-- `operator=(ResultData&&)` from another object: its tag is cleared first. -/
def assign_move (T : ResultType α ε) (target data : ResultData α ε) :
    ResultData α ε × ResultData α ε :=
  match data.m_active with
  | .Ok =>
      let data := { data with m_active := .None }
      (target.assign_ok T data.value, { data with m_union := data.m_union.moveFrom T.moved 0 })
  | .Err =>
      let data := { data with m_active := .None }
      (target.assign_err T data.value, { data with m_union := data.m_union.moveFrom T.moved 0 })
  | .None => (target.assign_empty T, data)

end ResultData

/-- A result that is returned: disengaged, or one of the two variants. -/
inductive Variant (α ε : Type)
  | empty
  | ok (v : α)
  | err (e : ε)
deriving DecidableEq

/-- `Result<T, E>` -/
structure Result (α ε : Type) extends ResultData α ε where
  m_handled : Bool

namespace Result

variable {α ε γ : Type}

/-- A result with new storage and the handled flag it had. -/
def with_data (r : Result α ε) (data : ResultData α ε) : Result α ε :=
  { r with toResultData := data }

/-- `Result()`, and the constructors from a `T`, an `E`, an `Ok` or an `Err`. -/
def construct : Variant α ε → Result α ε
  | .empty => ⟨ResultData.empty, false⟩
  | .ok ok => ⟨ResultData.of_ok (some (.inl ok)), false⟩
  | .err err => ⟨ResultData.of_err (some (.inr err)), false⟩

/-- `static_cast<ResultData&>(result) = ResultData(None())` -/
def disengage (T : ResultType α ε) (result : Result α ε) : Result α ε :=
  result.with_data (result.toResultData.assign_move T (ResultData.of_none T)).1

/-- `Result(const Result&)` -/
def copy_construct (result : Result α ε) : Result α ε × Result α ε :=
  let (data, source) := result.toResultData.copy
  (⟨data, result.m_handled⟩, ⟨source, true⟩)

/-- `Result(Result&&)` -/
def move_construct (T : ResultType α ε) (result : Result α ε) : Result α ε × Result α ε :=
  let (data, source) := result.toResultData.move T
  (⟨data, result.m_handled⟩, Result.disengage T ⟨source, true⟩)

/-- `operator=(const Result&)` from another object. -/
def copy_assign (T : ResultType α ε) (target result : Result α ε) : Result α ε × Result α ε :=
  let (data, source) := target.toResultData.assign_copy T result.toResultData
  (⟨data, result.m_handled⟩, ⟨source, true⟩)

/-- `operator=(Result&&)` from another object. -/
def move_assign (T : ResultType α ε) (target result : Result α ε) : Result α ε × Result α ε :=
  let (data, source) := target.toResultData.assign_move T result.toResultData
  (⟨data, result.m_handled⟩, Result.disengage T ⟨source, true⟩)

/-- `~Result`; `none` where it panics. -/
def destructor (T : ResultType α ε) (r : Result α ε) : Option (Result α ε) :=
  if T.panics_if_unhandled && !r.m_handled && !r.is_empty then none
  else some (r.with_data (r.toResultData.destructor T))

/-- `m_handled = true` -/
def handle (r : Result α ε) : Result α ε := { r with m_handled := true }

/-- What a move from the payload, or a callback that was given it, leaves of it. -/
def leave (r : Result α ε) (f : α ⊕ ε → α ⊕ ε) : Result α ε :=
  { r with m_union := r.m_union.moveFrom f 0 }

/-- `is_ok` -/
def is_ok (r : Result α ε) : Bool × Result α ε := (r.has_ok, r.handle)

/-- `is_err` -/
def is_err (r : Result α ε) : Bool × Result α ε := (r.has_err, r.handle)

/-- `as_ref` -/
def as_ref (r : Result α ε) : Answer α × Result α ε :=
  let r := r.handle
  if !r.has_ok then (.panic "Result::as_ref called on an Error result, terminating", r)
  else (r.get, r)

/-- `as_cref` -/
def as_cref (r : Result α ε) : Answer α × Result α ε :=
  let r := r.handle
  if !r.has_ok then (.panic "Result::as_cref called on an Error result, terminating", r)
  else (r.get, r)

/-- `extract`, and the value it refers to moved out. -/
def move_out (T : ResultType α ε) (r : Result α ε) : Answer α × Result α ε :=
  let (v, data) := r.extract
  (v, (r.with_data data).leave T.moved)

/-- `extract_err`, and the value it refers to moved out. -/
def move_out_err (T : ResultType α ε) (r : Result α ε) : Answer ε × Result α ε :=
  let (e, data) := r.extract_err
  (e, (r.with_data data).leave T.moved)

/-- `extract` for a callback, which returns and leaves something in the payload. -/
def call_ok (r : Result α ε) (func : α → γ × α) : Answer γ × Result α ε :=
  let (v, data) := r.extract
  (v.map fun ok => (func ok).1, (r.with_data data).leave (Sum.map (fun ok => (func ok).2) id))

/-- `extract_err` for a callback. -/
def call_err (r : Result α ε) (func : ε → γ × ε) : Answer γ × Result α ε :=
  let (e, data) := r.extract_err
  (e.map fun err => (func err).1, (r.with_data data).leave (Sum.map id fun err => (func err).2))

/-- `unwrap` -/
def unwrap (T : ResultType α ε) (r : Result α ε) : Answer α × Result α ε :=
  let r := r.handle
  if !r.has_ok then (.panic "Result::unwrap called on an Error result, terminating", r)
  else r.move_out T

/-- `unwrap_or` -/
def unwrap_or (T : ResultType α ε) (r : Result α ε) (default_value : α) :
    Answer α × Result α ε :=
  let r := r.handle
  if !r.has_ok then (.returns default_value, r) else r.unwrap T

/-- `unwrap_or_else` -/
def unwrap_or_else (T : ResultType α ε) (r : Result α ε) (default_generator : Unit → α) :
    Answer α × Result α ε :=
  let r := r.handle
  if !r.has_ok then (.returns (default_generator ()), r) else r.unwrap T

/-- `expect` -/
def expect (T : ResultType α ε) (r : Result α ε) (panic_message : String) :
    Answer α × Result α ε :=
  let r := r.handle
  if !r.has_ok then (.panic panic_message, r) else r.unwrap T

/-- `unwrap_err` -/
def unwrap_err (T : ResultType α ε) (r : Result α ε) : Answer ε × Result α ε :=
  let r := r.handle
  if !r.has_err then (.panic "Result::unwrap_err called on an Ok result, terminating", r)
  else r.move_out_err T

/-- `ok` -/
def ok (T : ResultType α ε) (r : Result α ε) : Answer (Option α) × Result α ε :=
  let r := r.handle
  if !r.has_ok then (.returns none, r)
  else
    let (v, r) := r.move_out T
    (v.map some, r)

/-- `err` -/
def err (T : ResultType α ε) (r : Result α ε) : Answer (Option ε) × Result α ε :=
  let r := r.handle
  if !r.has_err then (.returns none, r)
  else
    let (e, r) := r.move_out_err T
    (e.map some, r)

/-- `map` -/
def map (r : Result α ε) (map_func : α → γ) : Answer (Variant γ ε) × Result α ε :=
  let r := r.handle
  if !r.has_ok then (r.get_err.map .err, r) else (r.get.map fun v => .ok (map_func v), r)

/-- `map_or` -/
def map_or (r : Result α ε) (map_func : α → γ) (default_value : γ) : Answer γ × Result α ε :=
  let r := r.handle
  if !r.has_ok then (.returns default_value, r) else (r.get.map map_func, r)

/-- `map_or_else` -/
def map_or_else (r : Result α ε) (map_func : α → γ) (default_generator : Unit → γ) :
    Answer γ × Result α ε :=
  let r := r.handle
  if !r.has_ok then (.returns (default_generator ()), r) else (r.get.map map_func, r)

/-- `map_err` -/
def map_err (r : Result α ε) (map_func : ε → γ) : Answer (Variant α γ) × Result α ε :=
  let r := r.handle
  if !r.has_err then (r.get.map .ok, r) else (r.get_err.map fun e => .err (map_func e), r)

/-- `match` -/
def match' (r : Result α ε) (ok_func : α → γ × α) (err_func : ε → γ × ε) :
    Answer γ × Result α ε :=
  let r := r.handle
  if !r.has_ok then r.call_err err_func else r.call_ok ok_func

/-- `and_then` with a callback that returns no `Result`. -/
def and_then (T : ResultType α ε) (r : Result α ε) (func : α → γ × α) :
    Answer (Variant γ ε) × Result α ε :=
  let r := r.handle
  if !r.has_ok then
    let (e, r) := r.move_out_err T
    (e.map .err, r)
  else
    let (c, r) := r.call_ok func
    (c.map .ok, r)

/-- `and_then` with a callback that returns a `Result`. -/
def and_then_result (T : ResultType α ε) (r : Result α ε) (func : α → Variant γ ε × α) :
    Answer (Variant γ ε) × Result α ε :=
  let r := r.handle
  if !r.has_ok then
    let (e, r) := r.move_out_err T
    (e.map .err, r)
  else r.call_ok func

/-- `or_else` -/
def or_else (T : ResultType α ε) (r : Result α ε) (func : ε → Variant α γ × ε) :
    Answer (Variant α γ) × Result α ε :=
  let r := r.handle
  if !r.has_ok then r.call_err func
  else
    let (v, r) := r.move_out T
    (v.map .ok, r)

/-! ### Programs -/

/-- A call of a member function. -/
inductive Call (α ε γ : Type)
  | is_ok
  | is_err
  | operator_bool
  | as_ref
  | as_cref
  | unwrap
  | unwrap_or (default_value : α)
  | unwrap_or_else (default_generator : Unit → α)
  | expect (panic_message : String)
  | unwrap_err
  | ok
  | err
  | map (map_func : α → γ)
  | map_or (map_func : α → γ) (default_value : γ)
  | map_or_else (map_func : α → γ) (default_generator : Unit → γ)
  | map_err (map_func : ε → γ)
  | match' (ok_func : α → γ × α) (err_func : ε → γ × ε)
  | and_then (func : α → γ × α)
  | and_then_result (func : α → Variant γ ε × α)
  | or_else (func : ε → Variant α γ × ε)

/-- What a call returns. -/
inductive Output (α ε γ : Type)
  | flag (b : Bool)
  | payload (v : α)
  | error (e : ε)
  | value (c : γ)
  | option (o : Option α)
  | option_err (o : Option ε)
  | result (r : Variant γ ε)
  | result_err (r : Variant α γ)

/-- One call, and the result after it. -/
def call (T : ResultType α ε) (r : Result α ε) :
    Call α ε γ → Answer (Output α ε γ) × Result α ε
  | .is_ok => let (b, r) := r.is_ok; (.returns (.flag b), r)
  | .is_err => let (b, r) := r.is_err; (.returns (.flag b), r)
  | .operator_bool => let (b, r) := r.handle.is_ok; (.returns (.flag b), r)
  | .as_ref => let (a, r) := r.as_ref; (a.map .payload, r)
  | .as_cref => let (a, r) := r.as_cref; (a.map .payload, r)
  | .unwrap => let (a, r) := r.unwrap T; (a.map .payload, r)
  | .unwrap_or v => let (a, r) := r.unwrap_or T v; (a.map .payload, r)
  | .unwrap_or_else g => let (a, r) := r.unwrap_or_else T g; (a.map .payload, r)
  | .expect m => let (a, r) := r.expect T m; (a.map .payload, r)
  | .unwrap_err => let (a, r) := r.unwrap_err T; (a.map .error, r)
  | .ok => let (a, r) := r.ok T; (a.map .option, r)
  | .err => let (a, r) := r.err T; (a.map .option_err, r)
  | .map f => let (a, r) := r.map f; (a.map .result, r)
  | .map_or f c => let (a, r) := r.map_or f c; (a.map .value, r)
  | .map_or_else f g => let (a, r) := r.map_or_else f g; (a.map .value, r)
  | .map_err f => let (a, r) := r.map_err f; (a.map .result_err, r)
  | .match' f g => let (a, r) := r.match' f g; (a.map .value, r)
  | .and_then f => let (a, r) := r.and_then T f; (a.map .result, r)
  | .and_then_result f => let (a, r) := r.and_then_result T f; (a.map .result, r)
  | .or_else f => let (a, r) := r.or_else T f; (a.map .result_err, r)

/--
`Result<T, E>` as a class: constructed as a variant, and what its functions do.  A copy is one
that `Result(const Result&)` makes.  Where `T` or `E` can be constructed from a `Result<T, E>&`, as
a number can through `operator bool`, `Result<T, E> b(a)` of an `a` that is not const runs the
explicit constructor from arguments instead: it is a call of `operator bool`, and the construction
of a value.
-/
def object_type (T : ResultType α ε) :
    ObjectType (Result α ε) (Variant α ε) Transfer (Call α ε γ) (Output α ε γ) where
  construct k := some (Result.construct k)
  construct_from
    | .copy, r => some r.copy_construct
    | .move, r => some (r.move_construct T)
  assign_from
    | .copy, target, r => some (target.copy_assign T r)
    | .move, target, r => some (target.move_assign T r)
  assign_self _ r := some r
  call u r := Answer.returning (r.call T u)
  destroy r := r.destructor T

end Result

end Hyperion
