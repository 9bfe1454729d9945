/-
What is left of an option or a result that was consumed.

The functions that hand the payload out all do it through `extract`, which leaves the
tag as it is.  So an object is disengaged after them exactly when it was before, and
nothing was handed out.
-/
import Hyperion.Result.Lifetimes

namespace Hyperion

namespace OptionData

variable {α γ ε : Type} {T : PayloadType α}

/-- The calls documented to consume the option. -/
def Call.Consumes : Call α γ ε → Prop
  | .unwrap | .unwrap_or _ | .unwrap_or_else _ | .expect _ | .match' _ _ | .and_then _ | .ok_or _
  | .ok_or_else _ => True
  | _ => False

theorem Call.Consumes.not_assigns {u : Call α γ ε} (hu : u.Consumes) : ¬ u.Assigns := by
  cases u with
  | assign_value v => exact absurd hu id
  | assign_none => exact absurd hu id
  | _ => exact id

/-- A program that only goes on calling one option. -/
def call_step (T : PayloadType α) (o : OptionData α) (u : Call α γ ε) :
    Option (Output α γ ε × OptionData α) :=
  Answer.returning (o.call T u)

theorem call_step_eq {o o' : OptionData α} {u : Call α γ ε} {out : Output α γ ε}
    (h : call_step T o u = .some (out, o')) : o' = (o.call T u).2 := by
  unfold call_step Answer.returning at h
  split at h
  · rename_i hcall
    cases h
    rw [hcall]
  · cases h

/-- Consuming an option that holds nothing leaves it as it is. -/
theorem consumed_empty {o : OptionData α} (h : o.is_some = false) {u : Call α γ ε}
    (hu : u.Consumes) : (o.call T u).2 = o := by
  cases u with
  | unwrap | unwrap_or v | unwrap_or_else g | expect m | match' f g | and_then f | ok_or e
  | ok_or_else g =>
      simp [call, unwrap, unwrap_or, unwrap_or_else, expect, match', and_then, ok_or, ok_or_else, h]
  | _ => exact absurd hu id

/-- Calls that consume keep the tag. -/
theorem consuming_keeps_tag {us : List (Call α γ ε)} {outs : List (Output α γ ε)}
    {o o' : OptionData α} (hrun : Machine.Run (call_step T) (fun _ u => u.Consumes) o us outs o') :
    o'.is_some = o.is_some := by
  induction hrun with
  | nil o => rfl
  | cons hu hstep _ ih =>
      rw [ih, call_step_eq hstep]
      exact (call_called T _ hu.not_assigns).tag

theorem consuming_empty {us : List (Call α γ ε)} {outs : List (Output α γ ε)}
    {o o' : OptionData α} (hrun : Machine.Run (call_step T) (fun _ u => u.Consumes) o us outs o')
    (h : o.is_some = false) : o' = o := by
  induction hrun with
  | nil o => rfl
  | cons hu hstep _ ih =>
      have hmid := (call_step_eq hstep).trans (consumed_empty h hu)
      rw [ih (by rw [hmid]; exact h), hmid]

end OptionData

namespace Result

variable {α ε γ : Type} {T : ResultType α ε}

/-- The calls documented to consume the result. -/
def Call.Consumes : Call α ε γ → Prop
  | .unwrap | .unwrap_or _ | .unwrap_or_else _ | .expect _ | .unwrap_err | .ok | .err
  | .match' _ _ | .and_then _ | .and_then_result _ | .or_else _ => True
  | _ => False

/-- A program that only goes on calling one result. -/
def call_step (T : ResultType α ε) (r : Result α ε) (u : Call α ε γ) :
    Option (Output α ε γ × Result α ε) :=
  Answer.returning (r.call T u)

theorem call_step_eq {r r' : Result α ε} {u : Call α ε γ} {out : Output α ε γ}
    (h : call_step T r u = some (out, r')) :
    r' = (r.call T u).2 ∧ (r.call T u).1 ≠ .undefined := by
  unfold call_step Answer.returning at h
  split at h
  · rename_i hcall
    cases h
    rw [hcall]
    exact ⟨rfl, by simp⟩
  · cases h

/-- Consuming a result that holds nothing hands nothing out, where it returns. -/
theorem consumed_empty {r : Result α ε} (h : r.m_active = .None) {u : Call α ε γ}
    (hu : ¬ u.AssumesEngaged) : (r.call T u).2.extracted = r.extracted := by
  have hok : r.has_ok = false := by rw [ResultData.has_ok, h]; rfl
  have herr : r.has_err = false := by rw [ResultData.has_err, h]; rfl
  cases u with
  | map f | map_err f | match' f g | and_then f | and_then_result f | or_else f =>
      exact absurd trivial hu
  | _ =>
      simp [call, is_ok, is_err, as_ref, as_cref, unwrap, unwrap_or, unwrap_or_else, expect,
        unwrap_err, ok, err, map_or, map_or_else, handle, hok, herr]

/-- Calls keep the tag. -/
theorem consuming_keeps_tag {us : List (Call α ε γ)} {outs : List (Output α ε γ)}
    {r r' : Result α ε} (hrun : Machine.Run (call_step T) (fun _ u => u.Consumes) r us outs r') :
    r'.m_active = r.m_active := by
  induction hrun with
  | nil r => rfl
  | cons hu hstep _ ih =>
      rw [ih, (call_step_eq hstep).1]
      exact (call_called T _ _).active

theorem consuming_empty {us : List (Call α ε γ)} {outs : List (Output α ε γ)}
    {r r' : Result α ε} (hrun : Machine.Run (call_step T) (fun _ u => u.Consumes) r us outs r')
    (h : r.m_active = .None) : r'.extracted = r.extracted := by
  induction hrun with
  | nil r => rfl
  | cons hu hstep _ ih =>
      obtain ⟨hmid, hreturns⟩ := call_step_eq hstep
      have hkept := consumed_empty (T := T) h
        (fun hassumes => hreturns ((empty_call_undefined_iff h _).mpr hassumes))
      rw [ih (by rw [hmid, (call_called T _ _).active]; exact h), hmid, hkept]

theorem is_empty_congr {r r' : Result α ε} (h : r'.m_active = r.m_active) :
    r'.is_empty = r.is_empty := by
  rw [ResultData.is_empty, ResultData.is_empty, ResultData.has_ok, ResultData.has_ok,
    ResultData.has_err, ResultData.has_err, h]

theorem active_of_empty {r : Result α ε} (h : r.is_empty = true) : r.m_active = .None := by
  rw [ResultData.is_empty, ResultData.has_ok, ResultData.has_err] at h
  cases hactive : r.m_active with
  | Ok => rw [hactive] at h; cases h
  | Err => rw [hactive] at h; cases h
  | None => rfl

/--
**Consuming calls disengage nothing.**  After calls that consume an option or a result
the object reports its payload gone, and at most one payload was handed out, exactly
when it was disengaged to begin with.
-/
theorem consumed_iff :
    (∀ (S : PayloadType α) (us : List (OptionData.Call α γ ε)) outs (o o' : OptionData α),
      Machine.Run (OptionData.call_step S) (fun _ u => u.Consumes) o us outs o' →
      ((o'.is_some = false ∧ o'.extracted ≤ o.extracted + 1) ↔ o.is_some = false)) ∧
    (∀ (T : ResultType α ε) (us : List (Call α ε γ)) outs (r r' : Result α ε),
      Machine.Run (call_step T) (fun _ u => u.Consumes) r us outs r' →
      ((r'.is_empty = true ∧ r'.extracted ≤ r.extracted + 1) ↔ r.is_empty = true)) := by
  constructor
  · intro S us outs o o' hrun
    rw [OptionData.consuming_keeps_tag hrun]
    refine ⟨fun h => h.1, fun h => ⟨h, ?_⟩⟩
    rw [OptionData.consuming_empty hrun h]
    exact Nat.le_succ _
  · intro T us outs r r' hrun
    rw [is_empty_congr (consuming_keeps_tag hrun)]
    refine ⟨fun h => h.1, fun h => ⟨h, ?_⟩⟩
    rw [consuming_empty hrun (active_of_empty h)]
    exact Nat.le_succ _

/-- The default is returned by an option that holds nothing and by such a result. -/
theorem consumed_empty_once :
    (OptionData.none : OptionData Nat).is_some = false ∧
    (construct .empty : Result Nat Nat).handle.is_empty = true := by
  have hoption := (consumed_iff (ε := Nat) (γ := Nat)).1 PayloadType.owning [.unwrap_or 3] _
    OptionData.none OptionData.none (Machine.Run.single trivial rfl)
  have hresult := (consumed_iff (γ := Nat)).2 ResultType.owning [.unwrap_or 3] _
    (construct .empty) (construct .empty).handle (Machine.Run.single trivial rfl)
  exact ⟨(hoption.mpr rfl).1, (hresult.mpr rfl).1⟩

/-- `unwrap` twice hands the payload of an option out twice, and it still holds one. -/
theorem unwrapped_twice : ¬ ∀ (us : List (OptionData.Call Nat Nat Nat)) outs
    (o o' : OptionData Nat), us ≠ [] →
    Machine.Run (OptionData.call_step PayloadType.owning) (fun _ u => u.Consumes) o us outs o' →
    o'.is_some = false ∧ o'.extracted ≤ o.extracted + 1 := by
  intro hclaim
  have hfirst : OptionData.call_step PayloadType.owning (OptionData.some (some 5)) .unwrap
      = some ((.payload 5 : OptionData.Output Nat Nat Nat),
        ((OptionData.some (some 5)).extract PayloadType.owning).2) := rfl
  obtain ⟨htag, -⟩ := hclaim [.unwrap, .unwrap] _ _ _ (by simp)
    (Machine.Run.cons trivial hfirst (Machine.Run.single trivial rfl))
  cases htag

end Result

end Hyperion
