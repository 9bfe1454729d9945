/-
Expressions that chain combinators.

In `a.and_then(f).map(g).unwrap_or(c)` every call is made on a temporary that the call before
returned, of types that may change from call to call, and the temporaries are destroyed at the
end of the expression, the last one first.  In a build that checks, each of these destructors
looks for a result nobody handled.

As far as its value goes an expression is what the same combinators make of `Except`.  Every
temporary but the last was handled by the call made on it, so only an expression that ends
without a call, and is thrown away, can panic.
-/
import Hyperion.Result.Programs

namespace Hyperion

/-- As an Ok or an Err. -/
def Variant.of {α ε : Type} : Except ε α → Variant α ε
  | .ok v => .ok v
  | .error e => .err e

namespace Result

variable {α ε γ δ ζ π : Type}

/--
What is done in an expression with a `Result<T, E>`: it is thrown away, it is kept, a last
function is called on it, or a combinator whose result the rest of the expression is about.
Callbacks return an Ok or an Err nobody has looked at, and leave something in what they are
given.
-/
inductive Chain (π : Type) : Type → Type → Type 1
  | discard {α ε : Type} (c : π) : Chain π α ε
  | keep {α ε : Type} (k : Variant α ε → π) : Chain π α ε
  | last {α ε γ : Type} (u : Call α ε γ) (k : Output α ε γ → π) : Chain π α ε
  | map {α ε γ : Type} (S : ResultType γ ε) (f : α → γ) (rest : Chain π γ ε) : Chain π α ε
  | map_err {α ε γ : Type} (S : ResultType α γ) (f : ε → γ) (rest : Chain π α γ) : Chain π α ε
  | and_then {α ε γ : Type} (S : ResultType γ ε) (f : α → γ × α) (rest : Chain π γ ε) :
      Chain π α ε
  | and_then_result {α ε γ : Type} (S : ResultType γ ε) (f : α → Except ε γ × α)
      (rest : Chain π γ ε) : Chain π α ε
  | or_else {α ε γ : Type} (S : ResultType α γ) (f : ε → Except γ α × ε) (rest : Chain π α γ) :
      Chain π α ε

/-- How an expression ends, and whether every temporary destroyed in it destroyed its payload
once. -/
structure Evaluation (π : Type) where
  answer : Answer π
  tidy : Prop

/-- The panic of `~Result`. -/
def unhandled_panic : Answer π :=
  .panic "Unhandled Result that must be handled being destroyed, terminating"

/-- A temporary is destroyed after the rest of the expression, where that returned. -/
def destroyed (T : ResultType α ε) (r : Result α ε) (rest : Evaluation π) : Evaluation π :=
  match rest.answer, r.destructor T with
  | .returns c, some r => ⟨.returns c, rest.tidy ∧ r.toResultData.Gone⟩
  | .returns _, none => ⟨unhandled_panic, rest.tidy⟩
  | answer, _ => ⟨answer, rest.tidy⟩

/-- A call on a temporary, and the rest of the expression about what it returned. -/
def go_on (T : ResultType α ε) (p : Answer δ × Result α ε) (rest : δ → Evaluation π) :
    Evaluation π :=
  match p with
  | (.returns v, r) => destroyed T r (rest v)
  | (.panic message, _) => ⟨.panic message, True⟩
  | (.undefined, _) => ⟨.undefined, True⟩

/-- The value of an expression, from a temporary on. -/
def evaluate {α ε : Type} (T : ResultType α ε) (r : Result α ε) : Chain π α ε → Evaluation π
  | .discard c => destroyed T r ⟨.returns c, True⟩
  | .keep k => ⟨r.variant.elim .undefined fun v => .returns (k v), True⟩
  | .last u k => go_on T (r.call T u) fun o => ⟨.returns (k o), True⟩
  | .map S f rest => go_on T (r.map f) fun v => evaluate S (construct v) rest
  | .map_err S f rest => go_on T (r.map_err f) fun v => evaluate S (construct v) rest
  | .and_then S f rest => go_on T (r.and_then T f) fun v => evaluate S (construct v) rest
  | .and_then_result S f rest =>
      go_on T (r.and_then_result T fun v => (.of (f v).1, (f v).2))
        fun v => evaluate S (construct v) rest
  | .or_else S f rest =>
      go_on T (r.or_else T fun e => (.of (f e).1, (f e).2))
        fun v => evaluate S (construct v) rest

/-- What the same combinators make of `Except`. -/
def value {α ε : Type} (T : ResultType α ε) (x : Except ε α) : Chain π α ε → Answer π
  | .discard c => if T.panics_if_unhandled then unhandled_panic else .returns c
  | .keep k => .returns (k (.of x))
  | .last u k => (plain_call T (.of x) u).1.map k
  | .map S f rest => value S (x.map f) rest
  | .map_err S f rest => value S (x.mapError f) rest
  | .and_then S f rest => value S (x.map fun v => (f v).1) rest
  | .and_then_result S f rest => value S (x.bind fun v => (f v).1) rest
  | .or_else S f rest =>
      value S (match x with | .ok v => .ok v | .error e => (f e).1) rest

/-! ### One call on a temporary -/

section

variable {T : ResultType α ε} {x : Except ε α} {r : Result α ε} {p : Answer δ × Result α ε}
  {rest : δ → Evaluation π} {v : δ}

/-- A result that was handled is destroyed without a panic. -/
theorem destructor_of_handled (h : r.m_handled = true) :
    r.destructor T = some (r.with_data (r.toResultData.destructor T)) := by
  unfold Result.destructor
  rw [h, Bool.not_true, Bool.and_false, Bool.false_and, if_neg Bool.false_ne_true]

/-- A handled temporary does not change the value of the rest. -/
theorem destroyed_answer (h : r.m_handled = true) (e : Evaluation π) :
    (destroyed T r e).answer = e.answer := by
  unfold destroyed
  rw [destructor_of_handled h]
  cases he : e.answer with
  | returns c => rfl
  | panic message => rfl
  | undefined => rfl

theorem destroyed_tidy (hhandled : r.m_handled = true) (hsound : Sound T r) {e : Evaluation π}
    (h : e.tidy) : (destroyed T r e).tidy := by
  unfold destroyed
  rw [destructor_of_handled hhandled]
  cases he : e.answer with
  | returns c => exact ⟨h, ResultData.Sound.destructor hsound⟩
  | panic message => exact h
  | undefined => exact h

theorem go_on_eq (hreturns : p.1 = .returns v) : go_on T p rest = destroyed T p.2 (rest v) := by
  obtain ⟨a, r⟩ := p
  dsimp only at hreturns
  subst hreturns
  rfl

theorem sound_construct (v : Variant α ε) : Sound T (construct v) :=
  (keeps_sound T : Objects.Keeps (object_type T : ObjectType _ _ _ (Call α ε Unit) _) _ _ _)
    |>.construct v _ trivial rfl

/-- A temporary that holds an Ok or an Err answers every call. -/
theorem engaged_call_defined (x : Except ε α) (u : Call α ε γ) :
    ((construct (.of x)).call T u).1 ≠ .undefined := by
  cases x with
  | ok v => exact ok_call_defined (construct_variant (.ok v)) u
  | error e => exact err_call_defined (construct_variant (.err e)) u

/-- A call leaves the temporary handled, and sound. -/
theorem temporary_called (x : Except ε α) (u : Call α ε γ) :
    ((construct (.of x)).call T u).2.m_handled = true ∧
      Sound T ((construct (.of x)).call T u).2 :=
  ⟨(call_called T _ u).handled, (sound_construct (.of x)).called (engaged_call_defined x u)⟩

/-- What an expression is to be that goes on after a call. -/
structure Ends (e : Evaluation π) (answer : Answer π) : Prop where
  answer : e.answer = answer
  tidy : e.tidy

/-- **A call in the middle of an expression.** -/
theorem Ends.go_on {S : ResultType γ ζ} {d : Chain π γ ζ}
    {p : Answer (Variant γ ζ) × Result α ε} {y : Except ζ γ} {answer : Answer π}
    (hreturns : p.1 = .returns (.of y)) (hhandled : p.2.m_handled = true)
    (hsound : Sound T p.2) (hrest : Ends (evaluate S (construct (.of y)) d) answer) :
    Ends (go_on T p fun v => evaluate S (construct v) d) answer where
  answer := by
    rw [go_on_eq hreturns, destroyed_answer hhandled]
    exact hrest.answer
  tidy := by
    rw [go_on_eq hreturns]
    exact destroyed_tidy hhandled hsound hrest.tidy

end

/-! ### Whole expressions -/

/-- An expression that is thrown away panics in a build that checks. -/
theorem discard_ends (T : ResultType α ε) (x : Except ε α) (c : π) :
    Ends (evaluate T (construct (.of x)) (.discard c)) (value T x (.discard c)) := by
  have hunhandled : (construct (.of x)).m_handled = false := by cases x <;> rfl
  have hengaged : (construct (.of x)).is_empty = false := by cases x <;> rfl
  simp only [evaluate, value, destroyed, Result.destructor, hunhandled, hengaged, Bool.not_false,
    Bool.and_true]
  cases T.panics_if_unhandled with
  | true => exact ⟨rfl, trivial⟩
  | false => exact ⟨rfl, trivial, ResultData.Sound.destructor (sound_construct (.of x))⟩

/-- An expression ends with what its last call answers. -/
theorem last_ends (T : ResultType α ε) (x : Except ε α) (u : Call α ε γ) (k : Output α ε γ → π) :
    Ends (evaluate T (construct (.of x)) (.last u k)) (value T x (.last u k)) := by
  obtain ⟨hhandled, hsound⟩ := temporary_called (T := T) x u
  have hanswer := (call_plain (T := T) (construct_variant (.of x)) u).1
  simp only [evaluate, value]
  rw [← hanswer]
  generalize (construct (.of x)).call T u = p at hhandled hsound
  obtain ⟨a, r⟩ := p
  dsimp only at hhandled hsound
  cases a with
  | panic message => exact ⟨rfl, trivial⟩
  | undefined => exact ⟨rfl, trivial⟩
  | returns o => exact ⟨destroyed_answer hhandled _, destroyed_tidy hhandled hsound trivial⟩

/-- **By induction on the expression**, whatever its temporary holds. -/
theorem evaluate_ends {α ε : Type} (c : Chain π α ε) (T : ResultType α ε) (x : Except ε α) :
    Ends (evaluate T (construct (.of x)) c) (value T x c) := by
  induction c with
  | discard c => exact discard_ends T x c
  | keep k =>
      simp only [evaluate, value]
      rw [construct_variant]
      exact ⟨rfl, trivial⟩
  | last u k => exact last_ends T x u k
  | map S f rest ih =>
      obtain ⟨hhandled, hsound⟩ := temporary_called (T := T) x (.map f)
      refine Ends.go_on (y := x.map f) ?_ hhandled hsound (ih S (x.map f))
      cases x <;> rfl
  | map_err S f rest ih =>
      obtain ⟨hhandled, hsound⟩ := temporary_called (T := T) x (.map_err f)
      refine Ends.go_on (y := x.mapError f) ?_ hhandled hsound (ih S (x.mapError f))
      cases x <;> rfl
  | and_then S f rest ih =>
      obtain ⟨hhandled, hsound⟩ := temporary_called (T := T) x (.and_then f)
      refine Ends.go_on ?_ hhandled hsound (ih S (x.map fun v => (f v).1))
      cases x <;> rfl
  | and_then_result S f rest ih =>
      obtain ⟨hhandled, hsound⟩ := temporary_called (T := T) x
        (.and_then_result fun v => (.of (f v).1, (f v).2))
      refine Ends.go_on ?_ hhandled hsound (ih S (x.bind fun v => (f v).1))
      cases x <;> rfl
  | or_else S f rest ih =>
      obtain ⟨hhandled, hsound⟩ := temporary_called (T := T) x
        (.or_else fun e => (.of (f e).1, (f e).2))
      refine Ends.go_on ?_ hhandled hsound (ih S _)
      cases x <;> rfl

/--
**An expression is what its combinators make of `Except`.**  Whatever is chained, on results of
whatever types, the value of the expression is that of the same chain over `Except`: no
temporary that was called on panics when it is destroyed at the end, and one at the end that
nobody called on panics exactly in a build that checks.  Where the types have destructors, every
temporary has destroyed its payload once.
-/
theorem expressions_of_results {α ε : Type} (T : ResultType α ε) (x : Except ε α)
    (c : Chain π α ε) :
    (evaluate T (construct (.of x)) c).answer = value T x c ∧
      (evaluate T (construct (.of x)) c).tidy :=
  ⟨(evaluate_ends c T x).answer, (evaluate_ends c T x).tidy⟩

/-- An error is mapped, tried again and taken for the default. -/
example : (evaluate ResultType.owning (construct (.err 3))
    (.map_err ResultType.owning (· + 1)
      (.or_else ResultType.owning (fun e => (.error (e + 1), 0))
        (.last (.unwrap_or 7 : Call Nat Nat Nat) fun o => match o with
          | .payload v => v
          | _ => 0)))).answer = .returns 7 := rfl

end Result

end Hyperion
