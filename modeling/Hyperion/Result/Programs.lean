/-
Programs of results.

To a program a result is a value or an error, with a note of whether somebody looked at it: it
is copied and moved, asked and mapped, and what its combinators return is what they return of
the value or the error.  The note goes with the value, the result that it went from is looked
at, and every call looks at the result it is made on.  A destructor ends a program in which
nobody did.

A result that was moved from is a third thing, which most combinators take for one of the other
two.  They read what is not there, and a program is over with that as with a panic.
-/
import Hyperion.Option.Programs
import Hyperion.Result.Lifetimes

namespace Hyperion

/-- A function for the value, and one for the error. -/
def Variant.both {α ε : Type} (f : α → α) (g : ε → ε) : Variant α ε → Variant α ε
  | .empty => .empty
  | .ok v => .ok (f v)
  | .err e => .err (g e)

def Variant.has_ok {α ε : Type} : Variant α ε → Bool
  | .ok _ => true
  | .empty | .err _ => false

def Variant.has_err {α ε : Type} : Variant α ε → Bool
  | .err _ => true
  | .empty | .ok _ => false

/-- The value, read where there is one. -/
def Variant.get {α ε : Type} : Variant α ε → Answer α
  | .ok v => .returns v
  | .empty | .err _ => .undefined

/-- The error, read where there is one. -/
def Variant.get_err {α ε : Type} : Variant α ε → Answer ε
  | .err e => .returns e
  | .empty | .ok _ => .undefined

namespace Result

variable {α ε γ : Type} {T : ResultType α ε} {r : Result α ε} {x : Variant α ε}

/-! ### A plain result -/

/-- What is left of a value or an error that was moved. -/
def moved (T : ResultType α ε) (x : Variant α ε) : Variant α ε := x.both T.ok.moved T.err.moved

/-- A call, and what is left of the result. -/
def plain_call (T : ResultType α ε) (x : Variant α ε) :
    Call α ε γ → Answer (Output α ε γ) × Variant α ε
  | .is_ok | .operator_bool =>
      match x with
      | .ok _ => (.returns (.flag true), x)
      | _ => (.returns (.flag false), x)
  | .is_err =>
      match x with
      | .err _ => (.returns (.flag true), x)
      | _ => (.returns (.flag false), x)
  | .as_ref =>
      match x with
      | .ok v => (.returns (.payload v), x)
      | _ => (.panic "Result::as_ref called on an Error result, terminating", x)
  | .as_cref =>
      match x with
      | .ok v => (.returns (.payload v), x)
      | _ => (.panic "Result::as_cref called on an Error result, terminating", x)
  | .unwrap =>
      match x with
      | .ok v => (.returns (.payload v), moved T x)
      | _ => (.panic "Result::unwrap called on an Error result, terminating", x)
  | .unwrap_or c =>
      match x with
      | .ok v => (.returns (.payload v), moved T x)
      | _ => (.returns (.payload c), x)
  | .unwrap_or_else g =>
      match x with
      | .ok v => (.returns (.payload v), moved T x)
      | _ => (.returns (.payload (g ())), x)
  | .expect message =>
      match x with
      | .ok v => (.returns (.payload v), moved T x)
      | _ => (.panic message, x)
  | .unwrap_err =>
      match x with
      | .err e => (.returns (.error e), moved T x)
      | _ => (.panic "Result::unwrap_err called on an Ok result, terminating", x)
  | .ok =>
      match x with
      | .ok v => (.returns (.option (some v)), moved T x)
      | _ => (.returns (.option none), x)
  | .err =>
      match x with
      | .err e => (.returns (.option_err (some e)), moved T x)
      | _ => (.returns (.option_err none), x)
  | .map f =>
      match x with
      | .empty => (.undefined, x)
      | .ok v => (.returns (.result (.ok (f v))), x)
      | .err e => (.returns (.result (.err e)), x)
  | .map_or f c =>
      match x with
      | .ok v => (.returns (.value (f v)), x)
      | _ => (.returns (.value c), x)
  | .map_or_else f g =>
      match x with
      | .ok v => (.returns (.value (f v)), x)
      | _ => (.returns (.value (g ())), x)
  | .map_err f =>
      match x with
      | .empty => (.undefined, x)
      | .ok v => (.returns (.result_err (.ok v)), x)
      | .err e => (.returns (.result_err (.err (f e))), x)
  | .match' f g =>
      match x with
      | .empty => (.undefined, x)
      | .ok v => (.returns (.value (f v).1), .ok (f v).2)
      | .err e => (.returns (.value (g e).1), .err (g e).2)
  | .and_then f =>
      match x with
      | .empty => (.undefined, x)
      | .ok v => (.returns (.result (.ok (f v).1)), .ok (f v).2)
      | .err e => (.returns (.result (.err e)), moved T x)
  | .and_then_result f =>
      match x with
      | .empty => (.undefined, x)
      | .ok v => (.returns (.result (f v).1), .ok (f v).2)
      | .err e => (.returns (.result (.err e)), moved T x)
  | .or_else f =>
      match x with
      | .empty => (.undefined, x)
      | .ok v => (.returns (.result_err (.ok v)), moved T x)
      | .err e => (.returns (.result_err (f e).1), .err (f e).2)

/-- What a result is that was moved from: `None()`, whatever that is for `T`. -/
def disengaged (T : ResultType α ε) : Variant α ε := T.none_as_ok.elim .empty .ok

/-- What is left where it was copied or moved from. -/
def left (T : ResultType α ε) : Transfer → Variant α ε → Variant α ε
  | .copy, x => x
  | .move, _ => disengaged T

/-- Plain results in programs, with the note of whether somebody looked at them. -/
def plain (T : ResultType α ε) :
    ObjectType (Variant α ε × Bool) (Variant α ε) Transfer (Call α ε γ) (Output α ε γ) where
  construct k := some (k, false)
  construct_from t x := some (x, (left T t x.1, true))
  assign_from t _ x := some (x, (left T t x.1, true))
  assign_self _ x := some x
  call u x := Answer.returning ((plain_call T x.1 u).1, ((plain_call T x.1 u).2, true))
  destroy x := if T.panics_if_unhandled && !x.2 && (x.1.has_ok || x.1.has_err) then none else some x

/-! ### What stands for it -/

/-- The tag names the payload there is, and the flag is the note. -/
structure Reads (r : Result α ε) (x : Variant α ε × Bool) : Prop where
  variant : r.variant = some x.1
  handled : r.m_handled = x.2

/-- What is done to a payload in its place. -/
theorem leave_variant (h : r.variant = some x) (f : α → α) (g : ε → ε) :
    (r.leave (Sum.map f g)).variant = some (x.both f g) := by
  have hvalue : (r.leave (Sum.map f g)).value = r.value.map (Sum.map f g) := by
    show ((r.m_union.moveFrom _ 0).cell 0).value = _
    rw [Arena.moveFrom_cell, Function.update_self]
    rfl
  have hactive : (r.leave (Sum.map f g)).m_active = r.m_active := rfl
  cases x with
  | empty => exact ResultData.variant_of_none (hactive.trans (ResultData.variant_eq_empty h))
  | ok v =>
      obtain ⟨hok, hv⟩ := ResultData.variant_eq_ok h
      rw [ResultData.variant, hactive, hok, hvalue, hv]
      rfl
  | err e =>
      obtain ⟨herr, he⟩ := ResultData.variant_eq_err h
      rw [ResultData.variant, hactive, herr, hvalue, he]
      rfl

/-- Moving the value or the error out leaves what the move leaves. -/
theorem move_out_variant (h : r.variant = some x) :
    (r.move_out T).2.variant = some (moved T x) ∧
      (r.move_out_err T).2.variant = some (moved T x) :=
  ⟨leave_variant h T.ok.moved T.err.moved, leave_variant h T.ok.moved T.err.moved⟩

@[simp] theorem handle_handle (r : Result α ε) : r.handle.handle = r.handle := rfl

@[simp] theorem handle_has_ok (r : Result α ε) : r.handle.has_ok = r.has_ok := rfl

@[simp] theorem handle_has_err (r : Result α ε) : r.handle.has_err = r.has_err := rfl

@[simp] theorem handle_get (r : Result α ε) : r.handle.get = r.get := rfl

@[simp] theorem handle_get_err (r : Result α ε) : r.handle.get_err = r.get_err := rfl

@[simp] theorem handle_variant (r : Result α ε) : r.handle.variant = r.variant := rfl

@[simp] theorem move_out_answer (r : Result α ε) : (r.move_out T).1 = r.get := rfl

@[simp] theorem move_out_err_answer (r : Result α ε) : (r.move_out_err T).1 = r.get_err := rfl

@[simp] theorem call_ok_answer (r : Result α ε) (func : α → γ × α) :
    (r.call_ok func).1 = r.get.map fun v => (func v).1 := rfl

@[simp] theorem call_err_answer (r : Result α ε) (func : ε → γ × ε) :
    (r.call_err func).1 = r.get_err.map fun e => (func e).1 := rfl

/-- What the tag and the payload say of a variant. -/
theorem asked (h : r.variant = some x) : r.has_ok = x.has_ok ∧ r.has_err = x.has_err ∧
    r.get = x.get ∧ r.get_err = x.get_err := by
  unfold ResultData.has_ok ResultData.has_err ResultData.get ResultData.get_err
  cases x with
  | empty =>
      rw [ResultData.variant_eq_empty h]
      exact ⟨rfl, rfl, rfl, rfl⟩
  | ok v =>
      obtain ⟨hactive, hvalue⟩ := ResultData.variant_eq_ok h
      rw [hactive, hvalue]
      exact ⟨rfl, rfl, rfl, rfl⟩
  | err e =>
      obtain ⟨hactive, hvalue⟩ := ResultData.variant_eq_err h
      rw [hactive, hvalue]
      exact ⟨rfl, rfl, rfl, rfl⟩

/-- **A call answers and leaves what it does of a plain result**, whichever it is. -/
theorem call_plain (h : r.variant = some x) (u : Call α ε γ) :
    (r.call T u).1 = (plain_call T x u).1 ∧
      (r.call T u).2.variant = some (plain_call T x u).2 := by
  obtain ⟨hok, herr, hget, hget_err⟩ := asked h
  have hkept : r.handle.variant = some x := h
  obtain ⟨hout, hout_err⟩ := move_out_variant (T := T) hkept
  have hcalled : ∀ {δ : Type} (f : α → δ × α),
      (r.handle.call_ok f).2.variant = some (x.both (fun v => (f v).2) id) := fun f =>
    leave_variant hkept (fun v => (f v).2) id
  have hcalled_err : ∀ {δ : Type} (f : ε → δ × ε),
      (r.handle.call_err f).2.variant = some (x.both id fun e => (f e).2) := fun f =>
    leave_variant hkept id fun e => (f e).2
  cases u <;> cases x <;> simp [call, plain_call, is_ok, is_err, as_ref, as_cref, unwrap,
    unwrap_or, unwrap_or_else, expect, unwrap_err, ok, err, map, map_or, map_or_else, map_err,
    match', and_then, and_then_result, or_else, hok, herr, hget, hget_err, h, hout, hout_err,
    hcalled, hcalled_err, Variant.has_ok, Variant.has_err, Variant.get, Variant.get_err, moved,
    Variant.both, Answer.map]

/-! ### What the class makes of it -/

/-- Assigning `None()` to what was moved from. -/
theorem disengage_variant (h : r.m_active = .None) :
    (disengage T r).variant = some (disengaged T) := by
  unfold disengaged
  cases hnone : T.none_as_ok with
  | none =>
      rw [disengage_eq hnone h]
      exact ResultData.variant_of_none h
  | some v =>
      rw [Result.disengage, ResultData.of_none, hnone]
      obtain ⟨hvariant, -⟩ := r.toResultData.assign_move_spec T (.of_ok (some (.inl v)))
      exact hvariant.trans (construct_variant (.ok v))

namespace Reads

variable {y : Variant α ε × Bool}

theorem construct_from (h : Reads r y) (t : Transfer) :
    Option.Rel (fun p q => Reads p.1 q.1 ∧ Reads p.2 q.2)
      ((object_type T : ObjectType _ _ _ (Call α ε γ) _).construct_from t r)
      ((plain T : ObjectType _ _ _ (Call α ε γ) _).construct_from t y) := by
  cases t with
  | copy =>
      obtain ⟨hnew, hsource⟩ := r.toResultData.copy_spec
      exact .some ⟨⟨hnew.trans h.variant, h.handled⟩, hsource.trans h.variant, rfl⟩
  | move =>
      obtain ⟨hnew, hactive⟩ := r.toResultData.move_spec T
      exact .some ⟨⟨hnew.trans h.variant, h.handled⟩, disengage_variant hactive, rfl⟩

theorem assign_from (h : Reads r y) (target : Result α ε) (x : Variant α ε × Bool)
    (t : Transfer) :
    Option.Rel (fun p q => Reads p.1 q.1 ∧ Reads p.2 q.2)
      ((object_type T : ObjectType _ _ _ (Call α ε γ) _).assign_from t target r)
      ((plain T : ObjectType _ _ _ (Call α ε γ) _).assign_from t x y) := by
  cases t with
  | copy =>
      obtain ⟨htarget, hsource⟩ :=
        ResultData.assign_copy_spec T target.toResultData r.toResultData
      exact .some ⟨⟨htarget.trans h.variant, h.handled⟩, hsource.trans h.variant, rfl⟩
  | move =>
      obtain ⟨htarget, hactive⟩ := target.toResultData.assign_move_spec T r.toResultData
      exact .some ⟨⟨htarget.trans h.variant, h.handled⟩, disengage_variant hactive, rfl⟩

theorem call (h : Reads r y) (u : Call α ε γ) :
    (r.call T u).1 = (plain_call T y.1 u).1 ∧
      Reads (r.call T u).2 ((plain_call T y.1 u).2, true) := by
  obtain ⟨hanswer, hleft⟩ := call_plain (T := T) h.variant u
  exact ⟨hanswer, hleft, (call_called T r u).handled⟩

/-- The destructor asks for the note and for the tag. -/
theorem destroy (h : Reads r y) :
    Option.Rel (fun _ _ => True) (r.destructor T)
      ((plain T : ObjectType _ _ _ (Call α ε γ) (Output α ε γ)).destroy y) := by
  obtain ⟨hok, herr, -, -⟩ := asked h.variant
  have hempty : (!r.is_empty) = (y.1.has_ok || y.1.has_err) := by
    rw [ResultData.is_empty, hok, herr, Bool.not_and, Bool.not_not, Bool.not_not]
  unfold Result.destructor
  rw [hempty, h.handled]
  show Option.Rel _ _ (if _ then _ else _)
  split
  · exact .none
  · exact .some trivial

end Reads

/-! ### Every program -/

/-- **A result is a plain result to a program.** -/
theorem mirrors (T : ResultType α ε) :
    Objects.Mirrors (object_type T : ObjectType _ _ _ (Call α ε γ) _) (plain T) Reads
      (fun _ => True) where
  construct v := .some ⟨construct_variant v, by cases v <;> rfl⟩
  construct_from t _ _ h := h.construct_from t
  assign_from t r _ x _ _ h := h.assign_from r x t
  assign_self _ _ _ h := .some h
  call u _ _ h := OptionData.returning_rel (h.call u)
  destroy _ _ h := h.destroy

/--
**Programs of results are programs of plain results.**  Every program over results that runs to
its end runs with plain results, returning the same, and the other way round; the results alive
then have the tags, the payloads and the flags of the plain ones.  So what panics, and what reads
a member that is not active, is the same too.
-/
theorem programs_of_results {ops : List (Objects.Op (Variant α ε) Transfer (Call α ε γ))}
    {outs : List (Option (Output α ε γ))} :
    (∀ w, Machine.Run (Objects.step (object_type T)) (fun _ _ => True) Objects.start ops outs w →
      ∃ v, Machine.Run (Objects.step (plain T)) (fun _ _ => True) Objects.start ops outs v ∧
        Objects.Alike Reads (fun _ => True) w v) ∧
    ∀ v, Machine.Run (Objects.step (plain T)) (fun _ _ => True) Objects.start ops outs v →
      ∃ w, Machine.Run (Objects.step (object_type T)) (fun _ _ => True) Objects.start ops outs w ∧
        Objects.Alike Reads (fun _ => True) w v :=
  (mirrors T).run Objects.alike_start

/-- An error is handed on by a move, mapped and taken out, and what it left is thrown away. -/
theorem programs_of_results_mapped : ∃ w,
    Machine.Run (Objects.step (object_type ResultType.owning)) (fun _ _ => True) Objects.start
      [.construct 0 (.err 3), .construct_from 1 0 .move, .call 1 (.map_err (· + 1)),
        .call 1 .unwrap_err, .call 1 .err, .destroy 1, .destroy 0]
      [none, none, some (.result_err (.err 4)), some (.error 3), some (.option_err (some 0)),
        none, (none : Option (Output Nat Nat Nat))] w := by
  have hplain : ∃ v, Machine.Run (Objects.step (plain ResultType.owning)) (fun _ _ => True)
      Objects.start
      [.construct 0 (.err 3), .construct_from 1 0 .move, .call 1 (.map_err (· + 1)),
        .call 1 .unwrap_err, .call 1 .err, .destroy 1, .destroy 0]
      [none, none, some (.result_err (.err 4)), some (.error 3), some (.option_err (some 0)),
        none, (none : Option (Output Nat Nat Nat))] v :=
    ⟨_, .cons trivial rfl (.cons trivial rfl (.cons trivial rfl (.cons trivial rfl
      (.cons trivial rfl (.cons trivial rfl (.single trivial rfl))))))⟩
  obtain ⟨v, hplain⟩ := hplain
  obtain ⟨w, hrun, -⟩ := programs_of_results.2 v hplain
  exact ⟨w, hrun⟩

end Result

end Hyperion
