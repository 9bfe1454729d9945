/-
Objects whose operations take effect at once.

Threads share an object and call its operations.  A real operation is many steps, and
the steps of the threads come in any order; all that is seen from outside are the calls
and the returns.  The implementation is linearizable when everything that is seen of it
could have been seen of an object whose operations happen at one moment each, somewhere
between the call and the return.

That object is a machine of its own here: a thread calls, later its operation happens,
and later it returns what that gave.  To show that an implementation is linearizable is
to say, for each of its steps, which of these it is.
-/
import Mathlib.Logic.Function.Basic
import Hyperion.Lib.Machine

namespace Atomic

/-- What is seen of the threads. -/
inductive Event (θ Op Ret : Type)
  | call (t : θ) (op : Op)
  | ret (t : θ) (r : Ret)

/-- Where a thread is in an operation. -/
inductive Place (Op Ret : Type)
  | idle
  /-- called, and it has not happened -/
  | called (op : Op)
  /-- it has happened, and gave this -/
  | answered (r : Ret)

/-- The object and the threads that use it. -/
structure Config (θ Op Ret σ : Type) where
  object : σ
  place : θ → Place Op Ret

variable {θ Op Ret σ : Type}

/-- Nobody has called anything. -/
def start (object : σ) : Config θ Op Ret σ := ⟨object, fun _ => .idle⟩

variable [DecidableEq θ] {spec : σ → Op → Option (Ret × σ)}

/--
What can happen, and what is seen of it.  An operation that the object answers with
`none` has to wait.
-/
inductive Step (spec : σ → Op → Option (Ret × σ)) :
    Config θ Op Ret σ → List (Event θ Op Ret) → Config θ Op Ret σ → Prop
  | call {c : Config θ Op Ret σ} {t : θ} (op : Op) (h : c.place t = .idle) :
      Step spec c [.call t op] ⟨c.object, Function.update c.place t (.called op)⟩
  | happen {c : Config θ Op Ret σ} {t : θ} {op : Op} {r : Ret} {object : σ}
      (h : c.place t = .called op) (hspec : spec c.object op = some (r, object)) :
      Step spec c [] ⟨object, Function.update c.place t (.answered r)⟩
  | ret {c : Config θ Op Ret σ} {t : θ} {r : Ret} (h : c.place t = .answered r) :
      Step spec c [.ret t r] ⟨c.object, Function.update c.place t .idle⟩

/-- Any number of steps, and what is seen of them. -/
inductive Steps (spec : σ → Op → Option (Ret × σ)) :
    Config θ Op Ret σ → List (Event θ Op Ret) → Config θ Op Ret σ → Prop
  | refl (c : Config θ Op Ret σ) : Steps spec c [] c
  | tail {c mid c' : Config θ Op Ret σ} {h hs : List (Event θ Op Ret)}
      (hrest : Steps spec c h mid) (hstep : Step spec mid hs c') : Steps spec c (h ++ hs) c'

theorem Steps.single {c c' : Config θ Op Ret σ} {h : List (Event θ Op Ret)}
    (hstep : Step spec c h c') : Steps spec c h c' :=
  Steps.tail (.refl c) hstep

theorem Steps.trans {c mid c' : Config θ Op Ret σ} {h hs : List (Event θ Op Ret)}
    (h₁ : Steps spec c h mid) (h₂ : Steps spec mid hs c') : Steps spec c (h ++ hs) c' := by
  induction h₂ with
  | refl =>
      rw [List.append_nil]
      exact h₁
  | tail _ hstep ih =>
      rw [← List.append_assoc]
      exact Steps.tail ih hstep

/-- An operation happens and returns. -/
theorem Steps.answer {c : Config θ Op Ret σ} {t : θ} {op : Op} {r : Ret} {object : σ}
    (h : c.place t = .called op) (hspec : spec c.object op = some (r, object)) :
    Steps spec c [.ret t r] ⟨object, Function.update c.place t .idle⟩ := by
  have hhappen := Steps.single (Step.happen h hspec)
  have hret := hhappen.tail (.ret (Function.update_self ..))
  rwa [Function.update_idem] at hret

/-- An operation is called, happens and returns. -/
theorem Steps.whole {c : Config θ Op Ret σ} {t : θ} (op : Op) {r : Ret} {object : σ}
    (h : c.place t = .idle) (hspec : spec c.object op = some (r, object)) :
    Steps spec c [.call t op, .ret t r] ⟨object, c.place⟩ := by
  have hcall : Steps spec c [.call t op] ⟨c.object, Function.update c.place t (.called op)⟩ :=
    .single (.call op h)
  have hret := hcall.trans (.answer (Function.update_self ..) hspec)
  rw [Function.update_idem, ← h, Function.update_eq_self] at hret
  exact hret

/-- **What was seen could have been seen of an object whose operations happen at once.** -/
def Linearizable (spec : σ → Op → Option (Ret × σ)) (object : σ)
    (history : List (Event θ Op Ret)) : Prop :=
  ∃ c, Steps spec (start object) history c

/-- What every step does is something the object and its threads can do. -/
def Simulates {τ ι : Type} (spec : σ → Op → Option (Ret × σ))
    (step : τ → ι → Option (List (Event θ Op Ret) × τ)) (guard : τ → ι → Prop)
    (R : τ → Config θ Op Ret σ → Prop) : Prop :=
  ∀ s c i h s', R s c → guard s i → step s i = some (h, s') → ∃ c', Steps spec c h c' ∧ R s' c'

/-- **What every step is, every run is.** -/
theorem Simulates.run {τ ι : Type} {step : τ → ι → Option (List (Event θ Op Ret) × τ)}
    {guard : τ → ι → Prop} {R : τ → Config θ Op Ret σ → Prop}
    (hkeep : Simulates spec step guard R) {s s' : τ} {is : List ι}
    {hs : List (List (Event θ Op Ret))} (hrun : Machine.Run step guard s is hs s') :
    ∀ {c : Config θ Op Ret σ}, R s c → ∃ c', Steps spec c hs.flatten c' ∧ R s' c' := by
  induction hrun with
  | nil s =>
      intro c hR
      exact ⟨c, .refl c, hR⟩
  | cons hguard hstep _ ih =>
      intro c hR
      obtain ⟨mid, hfirst, hmid⟩ := hkeep _ _ _ _ _ hR hguard hstep
      obtain ⟨c', hrest, hlast⟩ := ih hmid
      exact ⟨c', hfirst.trans hrest, hlast⟩

/-- Then what is seen of a run is linearizable. -/
theorem Simulates.linearizable {τ ι : Type} {step : τ → ι → Option (List (Event θ Op Ret) × τ)}
    {guard : τ → ι → Prop} {R : τ → Config θ Op Ret σ → Prop}
    (hkeep : Simulates spec step guard R) {s s' : τ} {is : List ι}
    {hs : List (List (Event θ Op Ret))} (hrun : Machine.Run step guard s is hs s') {object : σ}
    (hstart : R s (start object)) : Linearizable spec object hs.flatten := by
  obtain ⟨c', hsteps, -⟩ := hkeep.run hrun hstart
  exact ⟨c', hsteps⟩

/-! ### The order in which the operations happened -/

/-- The operations one after the other, with what each returns. -/
inductive Legal (spec : σ → Op → Option (Ret × σ)) : σ → List (θ × Op × Ret) → σ → Prop
  | nil (object : σ) : Legal spec object [] object
  | snoc {first mid last : σ} {t : θ} {op : Op} {r : Ret} {order : List (θ × Op × Ret)}
      (hrest : Legal spec first order mid) (hspec : spec mid op = some (r, last)) :
      Legal spec first (order ++ [(t, op, r)]) last

/-- The calls and returns of one thread. -/
def Event.thread : Event θ Op Ret → θ
  | .call t _ => t
  | .ret t _ => t

/-- What is seen of one thread. -/
def seen_of (t : θ) (history : List (Event θ Op Ret)) : List (Event θ Op Ret) :=
  history.filter fun e => e.thread = t

/-- The operations of one thread. -/
def ops_of (t : θ) (order : List (θ × Op × Ret)) : List (Op × Ret) :=
  (order.filter fun o => o.1 = t).map Prod.snd

/-- What is seen of operations that a thread calls one after the other. -/
def in_turn (t : θ) (ops : List (Op × Ret)) : List (Event θ Op Ret) :=
  ops.flatMap fun o => [.call t o.1, .ret t o.2]

/-- What is seen of a thread is its operations in their order, and the call it is in. -/
def Accounts (t : θ) (ops : List (Op × Ret)) (history : List (Event θ Op Ret)) :
    Place Op Ret → Prop
  | .idle => history = in_turn t ops
  | .called op => history = in_turn t ops ++ [.call t op]
  | .answered r => ∃ before op, ops = before ++ [(op, r)] ∧
      history = in_turn t before ++ [.call t op]

theorem seen_of_append (t : θ) (h hs : List (Event θ Op Ret)) :
    seen_of t (h ++ hs) = seen_of t h ++ seen_of t hs := List.filter_append ..

theorem seen_of_self {t : θ} {e : Event θ Op Ret} (h : e.thread = t) : seen_of t [e] = [e] :=
  List.filter_cons_of_pos (decide_eq_true h)

theorem seen_of_other {t : θ} {e : Event θ Op Ret} (h : e.thread ≠ t) : seen_of t [e] = [] :=
  List.filter_cons_of_neg (by simpa using h)

theorem ops_of_self (t : θ) (order : List (θ × Op × Ret)) (op : Op) (r : Ret) :
    ops_of t (order ++ [(t, op, r)]) = ops_of t order ++ [(op, r)] := by
  rw [ops_of, List.filter_append, List.map_append]
  simp [ops_of]

theorem ops_of_other {t u : θ} (h : u ≠ t) (order : List (θ × Op × Ret)) (op : Op) (r : Ret) :
    ops_of t (order ++ [(u, op, r)]) = ops_of t order := by
  rw [ops_of, List.filter_append, List.map_append]
  simp [ops_of, h]

/-- A thread that did not move. -/
theorem accounts_other {c : Config θ Op Ret σ} {t u : θ} {place : Place Op Ret}
    {ops : List (Op × Ret)} {history : List (Event θ Op Ret)} (hne : u ≠ t)
    (h : Accounts u ops history (c.place u)) :
    Accounts u ops history (Function.update c.place t place u) := by
  rw [Function.update_of_ne hne]
  exact h

/--
**There is one order of the operations** in which the object gives what was returned, and
in which the operations of each thread are in the order of its calls.
-/
theorem Steps.sequential {object : σ} {h : List (Event θ Op Ret)} {c : Config θ Op Ret σ}
    (hsteps : Steps spec (start object) h c) : ∃ order, Legal spec object order c.object ∧
    ∀ t, Accounts t (ops_of t order) (seen_of t h) (c.place t) := by
  induction hsteps with
  | refl => exact ⟨[], .nil object, fun _ => rfl⟩
  | @tail mid c' h hs _ hstep ih =>
      obtain ⟨order, hlegal, haccounts⟩ := ih
      cases hstep with
      | @call t op hplace =>
          refine ⟨order, hlegal, fun u => ?_⟩
          rw [seen_of_append]
          by_cases hu : u = t
          · subst hu
            have hbefore := haccounts u
            rw [hplace] at hbefore
            rw [seen_of_self (t := u) (e := .call u op) rfl, hbefore]
            show Accounts u _ _ (Function.update mid.place u (.called op) u)
            rw [Function.update_self]
            rfl
          · rw [seen_of_other (Ne.symm hu), List.append_nil]
            exact accounts_other hu (haccounts u)
      | @happen t op r object' hplace hspec =>
          refine ⟨order ++ [(t, op, r)], .snoc hlegal hspec, fun u => ?_⟩
          rw [List.append_nil]
          by_cases hu : u = t
          · subst hu
            have hbefore := haccounts u
            rw [hplace] at hbefore
            show Accounts u _ _ (Function.update mid.place u (.answered r) u)
            rw [Function.update_self, ops_of_self]
            exact ⟨ops_of u order, op, rfl, hbefore⟩
          · rw [ops_of_other (Ne.symm hu)]
            exact accounts_other hu (haccounts u)
      | @ret t r hplace =>
          refine ⟨order, hlegal, fun u => ?_⟩
          rw [seen_of_append]
          by_cases hu : u = t
          · subst hu
            have hbefore := haccounts u
            rw [hplace] at hbefore
            obtain ⟨before, op, hops, hseen⟩ := hbefore
            rw [seen_of_self (t := u) (e := .ret u r) rfl, hseen, hops]
            show Accounts u _ _ (Function.update mid.place u .idle u)
            rw [Function.update_self]
            show in_turn u before ++ [.call u op] ++ [.ret u r] = in_turn u (before ++ [(op, r)])
            rw [List.append_assoc, in_turn, in_turn, List.flatMap_append]
            rfl
          · rw [seen_of_other (Ne.symm hu), List.append_nil]
            exact accounts_other hu (haccounts u)

end Atomic
