/-
Programs of options.

To a program an option is nothing or a value: it is copied and moved, it is given a value or
`None()`, and its combinators return what they return of an option.  What is unlike a plain
option is the tag that stays set where the payload is handed out: an option that was consumed
still holds what the move left of the value.  With that said of it, no program can tell the
tag and the union from a plain option, whatever it does; neither can it tell by what panics.
-/
import Hyperion.Option.Lifetimes

namespace Hyperion.OptionData

variable {α γ ε : Type} {T : PayloadType α} {o : OptionData α} {x : Option α}

/-! ### A plain option -/

/-- A call, and what is left of the option. -/
def plain_call (T : PayloadType α) (x : Option α) :
    Call α γ ε → Answer (Output α γ ε) × Option α
  | .is_some => (.returns (.flag x.isSome), x)
  | .is_none => (.returns (.flag x.isNone), x)
  | .map f => (.returns (.option (x.map f)), x)
  | .map_or f c => (.returns (.value (x.elim c f)), x)
  | .map_or_else f g => (.returns (.value (x.elim (g ()) f)), x)
  | .match' f g => (.returns (.value (x.elim (g ()) f)), x.map T.moved)
  | .and_then f => (.returns (.option (x.bind f)), x.map T.moved)
  | .ok_or e => (.returns (.result (x.elim (.error e) .ok)), x.map T.moved)
  | .ok_or_else g => (.returns (.result (x.elim (.error (g ())) .ok)), x.map T.moved)
  | .unwrap =>
      (x.elim (.panic "Option::unwrap called on a None, terminating") fun v =>
        .returns (.payload v), x.map T.moved)
  | .unwrap_or c => (.returns (.payload (x.getD c)), x.map T.moved)
  | .unwrap_or_else g => (.returns (.payload (x.elim (g ()) id)), x.map T.moved)
  | .expect message =>
      (x.elim (.panic message) fun v => .returns (.payload v), x.map T.moved)
  | .as_ref =>
      (x.elim (.panic "Option::as_ref called on a None, terminating") fun v =>
        .returns (.payload v), x)
  | .as_cref =>
      (x.elim (.panic "Option::as_cref called on a None, terminating") fun v =>
        .returns (.payload v), x)
  | .assign_value v => (.returns .nothing, .some v)
  | .assign_none => (.returns .nothing, .none)

/-- What is left where it was copied or moved from. -/
def left : Transfer → Option α → Option α
  | .copy, x => x
  | .move, _ => .none

/-- Plain options in programs. -/
def plain (T : PayloadType α) :
    ObjectType (Option α) (Option α) Transfer (Call α γ ε) (Output α γ ε) where
  construct k := .some k
  construct_from t x := .some (x, left t x)
  assign_from t _ x := .some (x, left t x)
  assign_self _ x := .some x
  call u x := Answer.returning (plain_call T x u)
  destroy x := .some x

/-! ### What stands for it -/

/-- The tag says whether there is a value, and the payload is that. -/
structure Reads (o : OptionData α) (x : Option α) : Prop where
  tag : o.m_is_some = x.isSome
  value : ∀ v, x = .some v → o.value = .some v

namespace Reads

theorem of_some {v : α} (htag : o.m_is_some = true) (hvalue : o.value = .some v) :
    Reads o (.some v) := by
  refine ⟨htag, fun w hw => ?_⟩
  cases hw
  exact hvalue

theorem of_none (htag : o.m_is_some = false) : Reads o .none :=
  ⟨htag, fun v hv => by cases hv⟩

theorem new (t : Option α) : Reads (t.elim none fun v => some (.some v)) t := by
  cases t with
  | none => exact of_none rfl
  | some v =>
      refine of_some rfl ?_
      show ((Arena.construct _ 0 (.some v)).cell 0).value = _
      rw [Arena.construct_cell_born, Function.update_self]

/-- What a payload was moved from has what the move leaves. -/
theorem moveFrom {v : α} {f : α → α} {o' : OptionData α} (h : Reads o (.some v))
    (htag : o'.m_is_some = true) (hunion : o'.m_some = o.m_some.moveFrom f 0) :
    Reads o' (.some (f v)) := by
  refine of_some htag ?_
  rw [OptionData.value, hunion, Arena.moveFrom_cell, Function.update_self]
  show o.value.map f = _
  rw [h.value v rfl]
  rfl

/-- `extract` hands the payload out. -/
theorem extract {v : α} (h : Reads o (.some v)) :
    (o.extract T).1 = .returns v ∧ Reads (o.extract T).2 (.some (T.moved v)) := by
  have htag : o.m_is_some = true := h.tag
  refine ⟨?_, h.moveFrom htag rfl⟩
  simp [OptionData.extract, OptionData.get, htag, h.value v rfl]

theorem assign_value (o : OptionData α) (v : α) :
    Reads (o.assign_value (.some v)) (.some v) := by
  unfold OptionData.assign_value
  split
  · rename_i htag
    refine of_some htag ?_
    show ((o.m_some.assign 0 (.some v)).cell 0).value = _
    rw [Arena.assign_cell, Function.update_self]
  · refine of_some rfl ?_
    show ((o.m_some.construct 0 (.some v)).cell 0).value = _
    rw [Arena.construct_cell_born, Function.update_self]

theorem assign_none (T : PayloadType α) (o : OptionData α) :
    Reads (o.assign_none T) .none := by
  unfold OptionData.assign_none
  split
  · exact of_none rfl
  · rename_i htag
    exact of_none (Bool.eq_false_iff.mpr htag)

/-! ### What the class makes of it -/

theorem copied {v : α} (h : Reads o (.some v)) :
    Reads { o with m_some := o.m_some.copyFrom 0, m_is_some := true } (.some v) := by
  refine of_some rfl ?_
  show ((o.m_some.copyFrom 0).cell 0).value = _
  rw [Arena.copyFrom_cell]
  exact h.value v rfl

theorem copy (h : Reads o x) : Reads o.copy.1 x ∧ Reads o.copy.2 x := by
  unfold OptionData.copy
  rw [h.tag]
  cases x with
  | none => exact ⟨of_none rfl, h⟩
  | some v =>
      rw [Option.isSome_some, if_pos rfl, h.value v rfl]
      exact ⟨new (.some v), h.copied⟩

theorem move_construct (h : Reads o x) :
    Reads (o.move_construct T).1 x ∧ Reads (o.move_construct T).2 .none := by
  refine ⟨?_, assign_none T _⟩
  show Reads (o.move T).1 x
  unfold OptionData.move
  rw [h.tag]
  cases x with
  | none => exact of_none rfl
  | some v =>
      rw [Option.isSome_some, if_pos rfl, h.value v rfl]
      exact new (.some v)

theorem assign_copy (h : Reads o x) (target : OptionData α) :
    Reads (target.assign_copy T o).1 x ∧ Reads (target.assign_copy T o).2 x := by
  unfold OptionData.assign_copy
  rw [h.tag]
  cases x with
  | none => exact ⟨assign_none T target, h⟩
  | some v =>
      rw [Option.isSome_some, if_pos rfl, h.value v rfl]
      exact ⟨assign_value target v, h.copied⟩

theorem move_assign (h : Reads o x) (target : OptionData α) :
    Reads (target.move_assign T o).1 x ∧ Reads (target.move_assign T o).2 .none := by
  refine ⟨?_, assign_none T _⟩
  show Reads (target.assign_move T o).1 x
  unfold OptionData.assign_move
  rw [h.tag]
  cases x with
  | none => exact assign_none T target
  | some v =>
      have hvalue : OptionData.value { o with m_is_some := false } = .some v := h.value v rfl
      rw [Option.isSome_some, if_pos rfl]
      dsimp only
      rw [hvalue]
      split <;> exact assign_value target v

/-- **A call answers and leaves what it does of a plain option**, whichever it is. -/
theorem call (h : Reads o x) (u : Call α γ ε) :
    (o.call T u).1 = (plain_call T x u).1 ∧ Reads (o.call T u).2 (plain_call T x u).2 := by
  have htag : o.m_is_some = x.isSome := h.tag
  cases x with
  | none =>
      cases u with
      | assign_value v => exact ⟨rfl, assign_value o v⟩
      | assign_none => exact ⟨rfl, assign_none T o⟩
      | _ =>
          simp [OptionData.call, plain_call, is_some, is_none, has_value, map, map_or, map_or_else,
            match', and_then, ok_or, ok_or_else, unwrap, unwrap_or, unwrap_or_else, expect, as_ref,
            as_cref, htag, Answer.map, h]
  | some v =>
      have hget : o.get = .returns v := by
        simp [OptionData.get, htag, h.value v rfl]
      obtain ⟨hout, hleft⟩ := h.extract (T := T)
      cases u with
      | assign_value v => exact ⟨rfl, assign_value o v⟩
      | assign_none => exact ⟨rfl, assign_none T o⟩
      | _ =>
          simp [OptionData.call, plain_call, is_some, is_none, has_value, map, map_or, map_or_else,
            match', and_then, ok_or, ok_or_else, unwrap, unwrap_or, unwrap_or_else, expect, as_ref,
            as_cref, htag, hget, hout, hleft, Answer.map, h]

end Reads

/-! ### Every program -/

/-- Two calls that answer the same go on with what they leave. -/
theorem returning_rel {π ρ σ : Type} {S : ρ → σ → Prop} {p : Answer π × ρ} {q : Answer π × σ}
    (h : p.1 = q.1 ∧ S p.2 q.2) :
    Option.Rel (fun p q => p.1 = q.1 ∧ S p.2 q.2) (Answer.returning p) (Answer.returning q) := by
  obtain ⟨a, r⟩ := p
  obtain ⟨b, y⟩ := q
  obtain ⟨hanswer, hleft⟩ := h
  dsimp only at hanswer hleft
  subst hanswer
  cases a with
  | panic message => exact .none
  | undefined => exact .none
  | returns c => exact .some ⟨rfl, hleft⟩

/-- **An option is a plain option to a program.** -/
theorem mirrors (T : PayloadType α) :
    Objects.Mirrors (object_type T : ObjectType _ _ _ (Call α γ ε) _) (plain T) Reads
      (fun _ => True) where
  construct k := by
    cases k with
    | none => exact .some (Reads.new .none)
    | some v => exact .some (Reads.new (.some v))
  construct_from t o x h := by
    cases t with
    | copy => exact .some h.copy
    | move => exact .some h.move_construct
  assign_from t r o _ x _ h := by
    cases t with
    | copy => exact .some (h.assign_copy r)
    | move => exact .some (h.move_assign r)
  assign_self _ o x h := .some h
  call u o x h := returning_rel (h.call u)
  destroy o x _ := .some trivial

/--
**Programs of options are programs of plain options.**  Every program over options that runs to
its end runs with plain options, returning the same, and the other way round; the options alive
then have the tags and the values of the plain ones.
-/
theorem programs_of_options {ops : List (Objects.Op (Option α) Transfer (Call α γ ε))}
    {outs : List (Option (Output α γ ε))} :
    (∀ w, Machine.Run (Objects.step (object_type T)) (fun _ _ => True) Objects.start ops outs w →
      ∃ v, Machine.Run (Objects.step (plain T)) (fun _ _ => True) Objects.start ops outs v ∧
        Objects.Alike Reads (fun _ => True) w v) ∧
    ∀ v, Machine.Run (Objects.step (plain T)) (fun _ _ => True) Objects.start ops outs v →
      ∃ w, Machine.Run (Objects.step (object_type T)) (fun _ _ => True) Objects.start ops outs w ∧
        Objects.Alike Reads (fun _ => True) w v :=
  (mirrors T).run Objects.alike_start

/-- A payload that was moved on is unwrapped twice. -/
theorem programs_of_options_unwrapped : ∃ w,
    Machine.Run (Objects.step (object_type PayloadType.owning)) (fun _ _ => True) Objects.start
      [.construct 0 (.some 5), .construct_from 1 0 .move, .call 1 .unwrap, .call 1 .unwrap,
        .call 0 .is_some, .destroy 1]
      [.none, .none, .some (.payload 5), .some (.payload 0), .some (.flag false),
        (.none : Option (Output Nat Nat Nat))] w := by
  have hplain : ∃ v, Machine.Run (Objects.step (plain PayloadType.owning)) (fun _ _ => True)
      Objects.start
      [.construct 0 (.some 5), .construct_from 1 0 .move, .call 1 .unwrap, .call 1 .unwrap,
        .call 0 .is_some, .destroy 1]
      [.none, .none, .some (.payload 5), .some (.payload 0), .some (.flag false),
        (.none : Option (Output Nat Nat Nat))] v :=
    ⟨_, .cons trivial rfl (.cons trivial rfl (.cons trivial rfl (.cons trivial rfl
      (.cons trivial rfl (.single trivial rfl)))))⟩
  obtain ⟨v, hplain⟩ := hplain
  obtain ⟨w, hrun, -⟩ := programs_of_options.2 v hplain
  exact ⟨w, hrun⟩

end Hyperion.OptionData
