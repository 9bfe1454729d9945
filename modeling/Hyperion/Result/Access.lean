/-
Which member a call reads.

The tag has three values and most combinators test it for two.  In every state a
program can reach the tag says which payload the union holds, so a call reads an
inactive member exactly when it takes "not Ok" to mean Err, or "not Err" to mean Ok,
on a result that is neither.
-/
import Hyperion.Result.Ownership

namespace Hyperion

namespace ResultData

variable {α ε : Type} {T : ResultType α ε}

theorem variant_eq_ok {data : ResultData α ε} {v : α} (h : data.variant = some (.ok v)) :
    data.m_active = .Ok ∧ data.value = some (.inl v) := by
  unfold variant at h
  split at h
  · cases h
  · rename_i hactive hvalue; cases h; exact ⟨hactive, hvalue⟩
  · cases h
  · cases h

theorem variant_eq_err {data : ResultData α ε} {e : ε} (h : data.variant = some (.err e)) :
    data.m_active = .Err ∧ data.value = some (.inr e) := by
  unfold variant at h
  split at h
  · cases h
  · cases h
  · rename_i hactive hvalue; cases h; exact ⟨hactive, hvalue⟩
  · cases h

theorem variant_eq_empty {data : ResultData α ε} (h : data.variant = some .empty) :
    data.m_active = .None := by
  unfold variant at h
  split at h
  · rename_i hactive; exact hactive
  · cases h
  · cases h
  · cases h

/-- Copies have the variant of what they copy, which keeps it. -/
theorem copy_spec (data : ResultData α ε) :
    data.copy.1.variant = data.variant ∧ data.copy.2.variant = data.variant := by
  unfold copy
  split
  · rename_i h
    exact ⟨variant_congr h.symm (value_of_ok _), variant_congr rfl (by simp [value])⟩
  · rename_i h
    exact ⟨variant_congr h.symm (value_of_err _), variant_congr rfl (by simp [value])⟩
  · rename_i h
    exact ⟨variant_of_none h ▸ rfl, rfl⟩

theorem assign_copy_spec (T : ResultType α ε) (target data : ResultData α ε) :
    (target.assign_copy T data).1.variant = data.variant ∧
      (target.assign_copy T data).2.variant = data.variant := by
  unfold assign_copy
  split
  · rename_i h
    obtain ⟨hactive, hvalue⟩ := target.assign_ok_spec T data.value
    exact ⟨variant_congr (hactive.trans h.symm) hvalue, variant_congr rfl (by simp [value])⟩
  · rename_i h
    obtain ⟨hactive, hvalue⟩ := target.assign_err_spec T data.value
    exact ⟨variant_congr (hactive.trans h.symm) hvalue, variant_congr rfl (by simp [value])⟩
  · rename_i h
    exact ⟨variant_of_none h ▸ rfl, rfl⟩

end ResultData

namespace Result

variable {α ε γ δ : Type} {T : ResultType α ε}

/-! ### What every call leaves -/

/-- A call sets the handled flag and moves from the payload at most. -/
structure Called (r r' : Result α ε) : Prop where
  active : r'.m_active = r.m_active
  handled : r'.m_handled = true
  union : r'.m_union = r.m_union ∨
    ∃ f g, r'.m_union = r.m_union.moveFrom (Sum.map f g) 0

theorem Called.handle (r : Result α ε) : Called r r.handle := ⟨rfl, rfl, .inl rfl⟩

theorem Called.move_out (r : Result α ε) : Called r (r.handle.move_out T).2 :=
  ⟨rfl, rfl, .inr ⟨_, _, rfl⟩⟩

theorem Called.move_out_err (r : Result α ε) : Called r (r.handle.move_out_err T).2 :=
  ⟨rfl, rfl, .inr ⟨_, _, rfl⟩⟩

theorem Called.call_ok (r : Result α ε) (func : α → γ × α) :
    Called r (r.handle.call_ok func).2 :=
  ⟨rfl, rfl, .inr ⟨_, _, rfl⟩⟩

theorem Called.call_err (r : Result α ε) (func : ε → γ × ε) :
    Called r (r.handle.call_err func).2 :=
  ⟨rfl, rfl, .inr ⟨_, _, rfl⟩⟩

/-- `unwrap` after the check, with the flag already set. -/
theorem unwrap_of_ok {r : Result α ε} (h : r.has_ok = true) :
    r.handle.unwrap T = r.handle.move_out T := by
  rw [unwrap]
  exact if_neg (by simp [show r.handle.handle.has_ok = r.has_ok from rfl, h])

/-- **What a call leaves**, whichever it is. -/
theorem call_called (T : ResultType α ε) (r : Result α ε) (u : Call α ε γ) :
    Called r (r.call T u).2 := by
  have hok : ∀ b : Bool, (!r.handle.has_ok) = b → r.has_ok = !b := by
    intro b hb
    rw [← hb, Bool.not_not]
    rfl
  cases u with
  | is_ok | is_err | operator_bool => exact Called.handle r
  | as_ref => simp only [call, as_ref]; split <;> exact Called.handle r
  | as_cref => simp only [call, as_cref]; split <;> exact Called.handle r
  | unwrap =>
      simp only [call, unwrap]
      split
      · exact Called.handle r
      · exact Called.move_out r
  | unwrap_or v =>
      simp only [call, unwrap_or]
      split
      · exact Called.handle r
      · rename_i h
        rw [unwrap_of_ok (hok false (Bool.eq_false_iff.mpr h))]
        exact Called.move_out r
  | unwrap_or_else g =>
      simp only [call, unwrap_or_else]
      split
      · exact Called.handle r
      · rename_i h
        rw [unwrap_of_ok (hok false (Bool.eq_false_iff.mpr h))]
        exact Called.move_out r
  | expect m =>
      simp only [call, expect]
      split
      · exact Called.handle r
      · rename_i h
        rw [unwrap_of_ok (hok false (Bool.eq_false_iff.mpr h))]
        exact Called.move_out r
  | unwrap_err =>
      simp only [call, unwrap_err]
      split
      · exact Called.handle r
      · exact Called.move_out_err r
  | ok =>
      simp only [call, ok]
      split
      · exact Called.handle r
      · exact Called.move_out r
  | err =>
      simp only [call, err]
      split
      · exact Called.handle r
      · exact Called.move_out_err r
  | map f => simp only [call, map]; split <;> exact Called.handle r
  | map_or f c => simp only [call, map_or]; split <;> exact Called.handle r
  | map_or_else f g => simp only [call, map_or_else]; split <;> exact Called.handle r
  | map_err f => simp only [call, map_err]; split <;> exact Called.handle r
  | match' f g =>
      simp only [call, match']
      split
      · exact Called.call_err r g
      · exact Called.call_ok r f
  | and_then f =>
      simp only [call, and_then]
      split
      · exact Called.move_out_err r
      · exact Called.call_ok r f
  | and_then_result f =>
      simp only [call, and_then_result]
      split
      · exact Called.move_out_err r
      · exact Called.call_ok r f
  | or_else f =>
      simp only [call, or_else]
      split
      · exact Called.call_err r f
      · exact Called.move_out r

/-! ### The tag is right -/

/-- The tag says which payload the union holds. -/
def Tagged (r : Result α ε) : Prop := r.variant.isSome = true

theorem Tagged.of_eq {r : Result α ε} {v : Variant α ε} (h : r.variant = some v) : Tagged r := by
  rw [Tagged, h]
  rfl

theorem Tagged.congr {r r' : Result α ε} (h : Tagged r) (hr : r'.variant = r.variant) :
    Tagged r' := by
  rw [Tagged, hr]
  exact h

theorem Tagged.called {r r' : Result α ε} (h : Tagged r) (hcalled : Called r r') :
    Tagged r' := by
  obtain ⟨v, hv⟩ := Option.isSome_iff_exists.mp h
  rcases hcalled.union with hunion | ⟨f, g, hunion⟩
  · exact h.congr (ResultData.variant_congr hcalled.active (by
      rw [ResultData.value, hunion]; rfl))
  · have hvalue : r'.value = r.value.map (Sum.map f g) := by
      rw [ResultData.value, hunion, Arena.moveFrom_cell, Function.update_self]
      rfl
    cases v with
    | empty =>
        exact .of_eq (ResultData.variant_of_none
          (hcalled.active.trans (ResultData.variant_eq_empty hv)))
    | ok a =>
        obtain ⟨hactive, ha⟩ := ResultData.variant_eq_ok hv
        refine .of_eq (v := .ok (f a)) ?_
        rw [ResultData.variant, hcalled.active, hactive, hvalue, ha]
        rfl
    | err e =>
        obtain ⟨hactive, he⟩ := ResultData.variant_eq_err hv
        refine .of_eq (v := .err (g e)) ?_
        rw [ResultData.variant, hcalled.active, hactive, hvalue, he]
        rfl

/-- Disengaging leaves no tag, or that of the payload `None()`. -/
theorem Tagged.disengage (T : ResultType α ε) {r : Result α ε} (h : r.m_active = .None) :
    Tagged (disengage T r) := by
  cases hnone : T.none_as_ok with
  | none =>
      rw [disengage_eq hnone h]
      exact .of_eq (ResultData.variant_of_none h)
  | some v =>
      refine .of_eq (v := .ok v) ?_
      rw [Result.disengage, ResultData.of_none, hnone]
      obtain ⟨hvariant, -⟩ := r.toResultData.assign_move_spec T (.of_ok (some (.inl v)))
      exact hvariant.trans (construct_variant (.ok v))

theorem keeps_tagged (T : ResultType α ε) :
    Objects.Keeps (object_type T : ObjectType _ _ _ (Call α ε γ) _) .always Tagged
      (fun _ => True) where
  construct v r _ hr := by cases hr; exact .of_eq (construct_variant v)
  construct_from t s p hs _ hp := by
    cases t with
    | copy =>
        cases hp
        obtain ⟨hnew, hsource⟩ := s.toResultData.copy_spec
        exact ⟨hs.congr hnew, hs.congr hsource⟩
    | move =>
        cases hp
        obtain ⟨hnew, hactive⟩ := s.toResultData.move_spec T
        exact ⟨hs.congr hnew, .disengage T hactive⟩
  assign_from t r s p hr hs _ hp := by
    cases t with
    | copy =>
        cases hp
        obtain ⟨htarget, hsource⟩ := ResultData.assign_copy_spec T r.toResultData s.toResultData
        exact ⟨hs.congr htarget, hs.congr hsource⟩
    | move =>
        cases hp
        obtain ⟨htarget, hactive⟩ := r.toResultData.assign_move_spec T s.toResultData
        exact ⟨hs.congr htarget, .disengage T hactive⟩
  assign_self t r r' hr _ hr' := by cases hr'; exact hr
  call u r p hr _ hp := by
    simp only [object_type, Answer.returning] at hp
    split at hp
    · rename_i hcall
      cases hp
      exact hr.called (by simpa [hcall] using call_called T r u)
    · cases hp
  destroy r r' _ _ _ := trivial

/-! ### What a call reads -/

/-- The calls that take every result for an Ok or an Err. -/
def Call.AssumesEngaged : Call α ε γ → Prop
  | .map _ | .map_err _ | .match' _ _ | .and_then _ | .and_then_result _ | .or_else _ => True
  | _ => False

theorem ok_call_defined {r : Result α ε} {v : α} (h : r.variant = some (.ok v))
    (u : Call α ε γ) : (r.call T u).1 ≠ .undefined := by
  obtain ⟨hactive, hvalue⟩ := ResultData.variant_eq_ok h
  have hok : r.has_ok = true := by rw [ResultData.has_ok, hactive]; rfl
  have herr : r.has_err = false := by rw [ResultData.has_err, hactive]; rfl
  have hget : r.get = .returns v := by rw [ResultData.get, hactive, hvalue]
  cases u <;> simp [call, is_ok, is_err, as_ref, as_cref, unwrap, unwrap_or, unwrap_or_else, expect,
    unwrap_err, ok, err, map, map_or, map_or_else, map_err, match', and_then, and_then_result,
    or_else, move_out, call_ok, ResultData.extract, handle, hok, herr, hget, Answer.map]

theorem err_call_defined {r : Result α ε} {e : ε} (h : r.variant = some (.err e))
    (u : Call α ε γ) : (r.call T u).1 ≠ .undefined := by
  obtain ⟨hactive, hvalue⟩ := ResultData.variant_eq_err h
  have hok : r.has_ok = false := by rw [ResultData.has_ok, hactive]; rfl
  have herr : r.has_err = true := by rw [ResultData.has_err, hactive]; rfl
  have hget : r.get_err = .returns e := by rw [ResultData.get_err, hactive, hvalue]
  cases u <;> simp [call, is_ok, is_err, as_ref, as_cref, unwrap, unwrap_or, unwrap_or_else, expect,
    unwrap_err, ok, err, map, map_or, map_or_else, map_err, match', and_then, and_then_result,
    or_else, move_out_err, call_err, ResultData.extract_err, handle, hok, herr, hget, Answer.map]

/-- On a result that is neither, a call reads a member exactly when it tests for one of two. -/
theorem empty_call_undefined_iff {r : Result α ε} (h : r.m_active = .None) (u : Call α ε γ) :
    (r.call T u).1 = .undefined ↔ u.AssumesEngaged := by
  have hok : r.has_ok = false := by rw [ResultData.has_ok, h]; rfl
  have herr : r.has_err = false := by rw [ResultData.has_err, h]; rfl
  have hget : r.get = .undefined := by simp [ResultData.get, h]
  have hget' : r.get_err = .undefined := by simp [ResultData.get_err, h]
  cases u <;> simp [call, is_ok, is_err, as_ref, as_cref, unwrap, unwrap_or, unwrap_or_else, expect,
    unwrap_err, ok, err, map, map_or, map_or_else, map_err, match', and_then, and_then_result,
    or_else, move_out_err, call_err, ResultData.extract_err, handle, hok, herr, hget, hget',
    Answer.map, Call.AssumesEngaged]

/--
**Calls read the active member only**, in every state a program reaches and for every
callback, except the combinators that test for one of two variants, on a result that is
neither.
-/
theorem reads_active_iff {ops : List (Objects.Op (Variant α ε) Transfer (Call α ε γ))}
    {outs : List (Option (Output α ε γ))} {w : Nat → Life (Result α ε)}
    (hrun : Machine.Run (Objects.step (object_type T)) (fun _ _ => True) Objects.start ops outs w)
    {i : Nat} {r : Result α ε} (hr : Objects.get w i = some r) (u : Call α ε δ) :
    (r.call T u).1 ≠ .undefined ↔ ¬ (r.is_empty = true ∧ u.AssumesEngaged) := by
  have htagged : Tagged r :=
    ((keeps_tagged T).run (fun _ _ _ => Objects.Guard.always_admits _ _) hrun).get hr
  obtain ⟨v, hv⟩ := Option.isSome_iff_exists.mp htagged
  cases v with
  | empty =>
      have hactive := ResultData.variant_eq_empty hv
      have hempty : r.is_empty = true := by
        simp [ResultData.is_empty, ResultData.has_ok, ResultData.has_err, hactive]
      rw [Ne, empty_call_undefined_iff hactive, hempty]
      simp
  | ok a =>
      have hok := (ResultData.has_ok_iff hv).mpr ⟨a, rfl⟩
      exact iff_of_true (ok_call_defined hv u) (by simp [ResultData.is_empty, hok])
  | err e =>
      have herr := (ResultData.has_err_iff hv).mpr ⟨e, rfl⟩
      exact iff_of_true (err_call_defined hv u) (by simp [ResultData.is_empty, herr])

/-- `unwrap_or` on a result that was moved from takes the default. -/
theorem unwrap_or_moved_defined : ∃ r : Result Nat Nat, r.is_empty = true ∧
    (r.call ResultType.owning (.unwrap_or 3 : Call Nat Nat Nat)).1 ≠ .undefined := by
  have hfirst : Objects.step (object_type ResultType.owning) Objects.start
      (.construct 0 (.ok 1)) = some ((none : Option (Output Nat Nat Nat)),
        Objects.put Objects.start 0 (construct (.ok 1))) := rfl
  refine ⟨((construct (.ok 1)).move_construct ResultType.owning).2, by decide, ?_⟩
  exact (reads_active_iff (Machine.Run.cons trivial hfirst
    (Machine.Run.single (i := .construct_from 1 0 .move) trivial rfl)) (i := 0) rfl
      (.unwrap_or 3)).mpr (fun h => h.2)

/-- `map` on a default-constructed result of a number or a text copies its error member. -/
theorem map_default_undefined : ¬ ∀ (T : ResultType Nat String)
    (ops : List (Objects.Op (Variant Nat String) Transfer (Call Nat String Nat))) outs w i r
    (u : Call Nat String Nat),
    Machine.Run (Objects.step (object_type T)) (fun _ _ => True) Objects.start
      ops outs w → Objects.get w i = some r → (r.call T u).1 ≠ .undefined := by
  intro hclaim
  let T : ResultType Nat String := ⟨.plain, ⟨false, false, fun _ => ""⟩, none, by simp, true⟩
  exact hclaim T [.construct 0 .empty] [none] _ 0 (construct .empty) (.map id)
    (Machine.Run.single trivial rfl) rfl rfl

end Result

end Hyperion
