/-
Loops.

`for(i = 0; i < n; ++i) body(i)` over an explicit state, and the one induction its
proofs use: a property indexed by the number of iterations done.

`while(true) body` with a `return` in its body, by fuel: a loop that never returns has
no result for any fuel.
-/

/-- Run `body 0`, then `body 1`, up to `body (n - 1)`. -/
def loop {σ : Type} (body : Nat → σ → σ) : Nat → σ → σ
  | 0, s => s
  | n + 1, s => body n (loop body n s)

/-- **A property that each iteration carries to the next holds after the last.** -/
theorem loop_induction {σ : Type} {body : Nat → σ → σ} (P : Nat → σ → Prop) {n : Nat} {s : σ}
    (hinit : P 0 s) (hstep : ∀ i t, i < n → P i t → P (i + 1) (body i t)) :
    P n (loop body n s) := by
  induction n with
  | zero => exact hinit
  | succ n ih =>
      exact hstep n _ (Nat.lt_succ_self n)
        (ih fun i t hi ht => hstep i t (Nat.lt_succ_of_lt hi) ht)

/-- What every iteration keeps, the loop keeps. -/
theorem loop_keeps {σ : Type} {body : Nat → σ → σ} (P : σ → Prop) {n : Nat} {s : σ}
    (hinit : P s) (hstep : ∀ i t, i < n → P t → P (body i t)) : P (loop body n s) :=
  loop_induction (fun _ => P) hinit hstep

/-- Two bodies that agree on every iteration run to the same state. -/
theorem loop_congr {σ : Type} {body body' : Nat → σ → σ} {n : Nat} {s : σ}
    (h : ∀ i t, i < n → body i t = body' i t) : loop body n s = loop body' n s := by
  induction n with
  | zero => rfl
  | succ n ih =>
      rw [loop, loop, ih fun i t hi => h i t (Nat.lt_succ_of_lt hi)]
      exact h n _ (Nat.lt_succ_self n)

/-! ### Loops that return -/

/-- Run `body` until it returns, `fuel` times at most: it gives the next state or the result. -/
def loop_until {σ ρ : Type} (body : σ → σ ⊕ ρ) : Nat → σ → Option ρ
  | 0, _ => none
  | fuel + 1, s =>
      match body s with
      | .inl t => loop_until body fuel t
      | .inr r => some r

/-- A body that returns at once. -/
theorem loop_until_return {σ ρ : Type} {body : σ → σ ⊕ ρ} {s : σ} {r : ρ} (h : body s = .inr r)
    (fuel : Nat) : loop_until body (fuel + 1) s = some r := by
  rw [loop_until, h]

/-- **A loop that keeps what keeps it going never returns.** -/
theorem loop_until_never {σ ρ : Type} {body : σ → σ ⊕ ρ} (P : σ → Prop)
    (hstep : ∀ s, P s → ∃ t, body s = .inl t ∧ P t) {s : σ} (h : P s) (fuel : Nat) :
    loop_until body fuel s = none := by
  induction fuel generalizing s with
  | zero => rfl
  | succ fuel ih =>
      obtain ⟨t, hbody, ht⟩ := hstep s h
      rw [loop_until, hbody]
      exact ih ht
