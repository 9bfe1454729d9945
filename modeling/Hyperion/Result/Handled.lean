/-
Unhandled results.

Every value a result is constructed with is owed an inspection.  A copy or a move
hands the obligation on, a call on the result that has it discharges it.  In a build
that checks, a result panics in its destructor exactly when it still owes one.  The
check is in the destructor and nowhere else: an assignment looks at neither flag nor
tag of the result it overwrites, and what that one owed is forgotten.
-/
import Hyperion.Result.Access

namespace Hyperion.Result

variable {α ε γ : Type} {T : ResultType α ε}

/-- Who owes an inspection, and whether a value was destroyed that was owed one. -/
structure Obligations where
  owed : Nat → Bool
  lost : Bool

namespace Obligations

/-- Nobody owes anything. -/
def none : Obligations := ⟨fun _ => false, false⟩

/-- `j` takes over what `i` owes. -/
def pass (o : Obligations) (j i : Nat) : Obligations :=
  { o with owed := Function.update (Function.update o.owed i false) j (o.owed i) }

/-- What one statement makes of the obligations. -/
def step (o : Obligations) : Objects.Op (Variant α ε) Transfer (Call α ε γ) → Obligations
  | .construct j .empty => { o with owed := Function.update o.owed j false }
  | .construct j _ => { o with owed := Function.update o.owed j true }
  | .construct_from j i _ => o.pass j i
  | .assign_from j i _ => if j = i then o else o.pass j i
  | .call i _ => { o with owed := Function.update o.owed i false }
  | .destroy i => ⟨Function.update o.owed i false, o.lost || o.owed i⟩

end Obligations

/-- A value nobody has looked at. -/
def unhandled (r : Result α ε) : Bool := !r.m_handled && !r.is_empty

theorem unhandled_congr {r s : Result α ε} (hactive : r.m_active = s.m_active)
    (hhandled : r.m_handled = s.m_handled) : r.unhandled = s.unhandled := by
  rw [unhandled, unhandled, ResultData.is_empty, ResultData.is_empty, ResultData.has_ok,
    ResultData.has_ok, ResultData.has_err, ResultData.has_err, hactive, hhandled]

theorem unhandled_of_handled {r : Result α ε} (h : r.m_handled = true) : r.unhandled = false := by
  rw [unhandled, h]
  rfl

theorem destructor_panics_iff (hflag : T.panics_if_unhandled = true) (r : Result α ε) :
    r.destructor T = none ↔ r.unhandled = true := by
  rw [destructor, hflag, Bool.true_and]
  show (if r.unhandled = true then none else _) = none ↔ _
  split
  · rename_i h; exact iff_of_true rfl h
  · rename_i h; exact iff_of_false (by simp) h

/-! ### What copies and moves do to the flag -/

/-- The flag goes with the tag, and the source counts as handled. -/
theorem construct_from_handled {t : Transfer} {s : Result α ε} {p : Result α ε × Result α ε}
    (h : (object_type T : ObjectType _ _ _ (Call α ε γ) _).construct_from t s = some p) :
    p.1.unhandled = s.unhandled ∧ p.2.m_handled = true := by
  cases t with
  | copy =>
      cases h
      refine ⟨unhandled_congr ?_ rfl, rfl⟩
      show s.toResultData.copy.1.m_active = s.m_active
      unfold ResultData.copy
      split <;> rename_i hs <;> exact hs.symm
  | move =>
      cases h
      refine ⟨unhandled_congr ?_ rfl, rfl⟩
      show (s.toResultData.move T).1.m_active = s.m_active
      unfold ResultData.move
      split <;> rename_i hs <;> exact hs.symm

theorem assign_from_handled {t : Transfer} {r s : Result α ε} {p : Result α ε × Result α ε}
    (h : (object_type T : ObjectType _ _ _ (Call α ε γ) _).assign_from t r s = some p) :
    p.1.unhandled = s.unhandled ∧ p.2.m_handled = true := by
  cases t with
  | copy =>
      cases h
      refine ⟨unhandled_congr ?_ rfl, rfl⟩
      show (r.toResultData.assign_copy T s.toResultData).1.m_active = s.m_active
      unfold ResultData.assign_copy
      split <;> rename_i hs
      · exact (r.toResultData.assign_ok_spec T _).1.trans hs.symm
      · exact (r.toResultData.assign_err_spec T _).1.trans hs.symm
      · exact hs.symm
  | move =>
      cases h
      refine ⟨unhandled_congr ?_ rfl, rfl⟩
      show (r.toResultData.assign_move T s.toResultData).1.m_active = s.m_active
      unfold ResultData.assign_move
      split <;> rename_i hs
      · exact (r.toResultData.assign_ok_spec T _).1.trans hs.symm
      · exact (r.toResultData.assign_err_spec T _).1.trans hs.symm
      · exact hs.symm

/-! ### Obligations along a program -/

/-- Those that owe an inspection are the results nobody has looked at, and none was lost. -/
structure Kept (w : Nat → Life (Result α ε)) (o : Obligations) : Prop where
  owed : ∀ i r, Objects.get w i = some r → o.owed i = r.unhandled
  lost : o.lost = false

namespace Kept

variable {w : Nat → Life (Result α ε)} {o : Obligations}

theorem put (h : Kept w o) {j : Nat} {r : Result α ε} {b : Bool} (hr : b = r.unhandled) :
    Kept (Objects.put w j r) { o with owed := Function.update o.owed j b } := by
  refine ⟨?_, h.lost⟩
  intro i s hs
  rw [Objects.get_put] at hs
  simp only [Function.update_apply]
  split at hs
  · rename_i hi
    rw [if_pos hi, ← Option.some.inj hs]
    exact hr
  · rename_i hi
    rw [if_neg hi]
    exact h.owed i s hs

theorem pass (h : Kept w o) {j i : Nat} {r s s' : Result α ε} (hs : Objects.get w i = some s)
    (hr : r.unhandled = s.unhandled) (hs' : s'.m_handled = true) :
    Kept (Objects.put (Objects.put w i s') j r) (o.pass j i) :=
  (h.put (unhandled_of_handled hs').symm).put ((h.owed i s hs).trans hr.symm)

/-- **One statement.** -/
theorem step (hflag : T.panics_if_unhandled = true) (h : Kept w o)
    {op : Objects.Op (Variant α ε) Transfer (Call α ε γ)} {out : Option (Output α ε γ)}
    {w' : Nat → Life (Result α ε)}
    (hstep : Objects.step (object_type T) w op = some (out, w')) : Kept w' (o.step op) := by
  cases Objects.steps_of_step hstep with
  | @construct j v r hfree hr =>
      cases hr
      cases v with
      | empty => exact h.put rfl
      | ok a => exact h.put rfl
      | err e => exact h.put rfl
  | construct_from hfree hs hp =>
      obtain ⟨hnew, hsource⟩ := construct_from_handled hp
      exact h.pass hs hnew hsource
  | assign_self hr hr' =>
      cases hr'
      rw [Obligations.step, if_pos rfl, Objects.put, ← Objects.get_eq hr,
        Function.update_eq_self]
      exact h
  | assign_from hji hr hs hp =>
      obtain ⟨htarget, hsource⟩ := assign_from_handled hp
      rw [Obligations.step, if_neg hji]
      exact h.pass hs htarget hsource
  | @call i u r p hr hp =>
      have hhandled : p.2.m_handled = true := by
        simp only [object_type, Answer.returning] at hp
        split at hp
        · rename_i hcall
          cases hp
          simpa [hcall] using (call_called T r u).handled
        · cases hp
      exact h.put (unhandled_of_handled hhandled).symm
  | @destroy i r r' hr hr' =>
      -- a result that owes something does not get past its destructor
      have hnothing : o.owed i = false := by
        rw [h.owed i r hr, Bool.eq_false_iff]
        intro howes
        have hpanic : r.destructor T = none := (destructor_panics_iff hflag r).mpr howes
        exact absurd (hpanic.symm.trans hr') (by simp)
      refine ⟨?_, by rw [Obligations.step, h.lost, hnothing]; rfl⟩
      intro x s hs
      simp only [Obligations.step, Function.update_apply]
      by_cases hx : x = i
      · rw [Objects.get, hx, Function.update_self] at hs
        cases hs
      · rw [if_neg hx]
        refine h.owed x s ?_
        rw [Objects.get, Function.update_of_ne hx] at hs
        exact hs

end Kept

/--
**An unhandled result is noticed when it is destroyed.**  Over any program, no value was
destroyed that was owed an inspection, and destroying a result panics exactly when it
owes one.
-/
theorem unhandled_noticed (hflag : T.panics_if_unhandled = true)
    {ops : List (Objects.Op (Variant α ε) Transfer (Call α ε γ))}
    {outs : List (Option (Output α ε γ))} {w : Nat → Life (Result α ε)}
    (hrun : Machine.Run (Objects.step (object_type T)) (fun _ _ => True) Objects.start
      ops outs w) :
    (ops.foldl Obligations.step Obligations.none).lost = false ∧
    ∀ i r, Objects.get w i = some r → (r.destructor T = none ↔
      (ops.foldl Obligations.step Obligations.none).owed i = true) := by
  have hkept : Kept w (ops.foldl Obligations.step Obligations.none) :=
    hrun.follows (fun _ _ _ _ _ h _ hstep => h.step hflag hstep)
      ⟨fun _ _ h => (by cases h), rfl⟩
  refine ⟨hkept.lost, ?_⟩
  intro i r hr
  rw [destructor_panics_iff hflag, hkept.owed i r hr]

/-- An error that was only copied on: the copy panics, the original does not. -/
theorem copied_error_noticed : ∃ w : Nat → Life (Result Nat Nat),
    (∃ r, Objects.get w 0 = some r ∧ r.destructor ResultType.owning ≠ none) ∧
    ∃ r, Objects.get w 1 = some r ∧ r.destructor ResultType.owning = none := by
  have hfirst : Objects.step (object_type ResultType.owning) Objects.start
      (.construct 0 (.err 1)) = some ((none : Option (Output Nat Nat Nat)),
        Objects.put Objects.start 0 (construct (.err 1))) := rfl
  obtain ⟨-, hiff⟩ := unhandled_noticed rfl (Machine.Run.cons trivial hfirst
    (Machine.Run.single (i := .construct_from 1 0 .copy) trivial rfl))
  refine ⟨Objects.put (Objects.put (Objects.put Objects.start 0 (construct (.err 1))) 0
    (construct (.err 1)).copy_construct.2) 1 (construct (.err 1)).copy_construct.1, ?_, ?_⟩
  · exact ⟨_, rfl, fun h => absurd ((hiff 0 _ rfl).mp h) (by decide)⟩
  · exact ⟨_, rfl, (hiff 1 _ rfl).mpr (by decide)⟩

/-- The statement throws away a value that is owed an inspection. -/
def Discards (o : Obligations) : Objects.Op (Variant α ε) Transfer (Call α ε γ) → Prop
  | .assign_from j i _ => j ≠ i ∧ o.owed j = true
  | .destroy i => o.owed i = true
  | _ => False

/-- An error overwritten by an assignment is thrown away without a panic. -/
theorem overwritten_error_unnoticed : ¬ ∀ (ops : List (Objects.Op (Variant Nat Nat) Transfer
    (Call Nat Nat Nat))) outs w (op : Objects.Op (Variant Nat Nat) Transfer (Call Nat Nat Nat)),
    Machine.Run (Objects.step (object_type ResultType.owning)) (fun _ _ => True) Objects.start
      ops outs w → Discards (ops.foldl Obligations.step Obligations.none) op →
    Objects.step (object_type ResultType.owning) w op = none := by
  intro hclaim
  have hfirst : Objects.step (object_type ResultType.owning) Objects.start
      (.construct 0 (.err 1)) = some ((none : Option (Output Nat Nat Nat)),
        Objects.put Objects.start 0 (construct (.err 1))) := rfl
  have hnone := hclaim [.construct 0 (.err 1), .construct 1 (.ok 2)] _ _
    (.assign_from 0 1 .copy)
    (Machine.Run.cons trivial hfirst (Machine.Run.single trivial rfl)) ⟨by decide, rfl⟩
  cases hnone

end Hyperion.Result
