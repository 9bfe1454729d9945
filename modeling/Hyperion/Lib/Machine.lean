/-
Runs of a machine.

A machine is a step function that may stop: `step s i` is `none` when the program
ends there instead of reaching a next state.  A run is a list of inputs, the
outputs they gave and the state at the end, and a guard restricts it to inputs
the state before them admits.  Two inductions are packaged here and used
everywhere: an invariant kept by every guarded step holds at the end of every
run, and a relation to a second machine kept by every guarded step gives equal
outputs over the whole run.
-/

namespace Machine

variable {σ ι ο τ : Type}

/-- Runs whose every input the guard admits. -/
inductive Run (step : σ → ι → Option (ο × σ)) (guard : σ → ι → Prop) :
    σ → List ι → List ο → σ → Prop
  | nil (s : σ) : Run step guard s [] [] s
  | cons {s mid final : σ} {i : ι} {o : ο} {is : List ι} {os : List ο}
      (hguard : guard s i) (hstep : step s i = some (o, mid))
      (hrest : Run step guard mid is os final) : Run step guard s (i :: is) (o :: os) final

variable {step : σ → ι → Option (ο × σ)} {guard : σ → ι → Prop}

/-- **What every guarded step keeps, every run keeps.** -/
theorem Run.invariant {P : σ → Prop}
    (hkeep : ∀ s i o s', P s → guard s i → step s i = some (o, s') → P s')
    {s s' : σ} {is : List ι} {os : List ο} (hrun : Run step guard s is os s') (h : P s) :
    P s' := by
  induction hrun with
  | nil s => exact h
  | cons hguard hstep _ ih => exact ih (hkeep _ _ _ _ h hguard hstep)

/-- A run under a guard is a run under any weaker one, as far as an invariant carries it. -/
theorem Run.weaken {P : σ → Prop} {guard' : σ → ι → Prop}
    (hkeep : ∀ s i o s', P s → guard s i → step s i = some (o, s') → P s')
    (hweak : ∀ s i, P s → guard s i → guard' s i)
    {s s' : σ} {is : List ι} {os : List ο} (hrun : Run step guard s is os s') (h : P s) :
    Run step guard' s is os s' := by
  induction hrun with
  | nil s => exact Run.nil s
  | cons hguard hstep _ ih =>
      exact Run.cons (hweak _ _ h hguard) hstep (ih (hkeep _ _ _ _ h hguard hstep))

/-- A run under a guard is a run under any weaker one. -/
theorem Run.mono {guard' : σ → ι → Prop} (hweak : ∀ s i, guard s i → guard' s i) {s s' : σ}
    {is : List ι} {os : List ο} (hrun : Run step guard s is os s') :
    Run step guard' s is os s' :=
  hrun.weaken (P := fun _ => True) (fun _ _ _ _ _ _ _ => trivial) (fun s i _ => hweak s i) trivial

theorem Run.any {s s' : σ} {is : List ι} {os : List ο} (hrun : Run step guard s is os s') :
    Run step (fun _ _ => True) s is os s' :=
  hrun.mono fun _ _ _ => trivial

/--
Backwards: what holds after a step held before it, and gave the step a stronger guard.
Then it held all along a run that ends in it.
-/
theorem Run.backward {P Q : σ → Prop} {guard' : σ → ι → Prop}
    (hkeep : ∀ s i o s', P s → guard s i → step s i = some (o, s') → P s')
    (hback : ∀ s i o s', P s → guard s i → step s i = some (o, s') → Q s' → Q s ∧ guard' s i)
    {s s' : σ} {is : List ι} {os : List ο} (hrun : Run step guard s is os s') (hstart : P s)
    (h : Q s') : Q s ∧ Run step guard' s is os s' := by
  induction hrun with
  | nil s => exact ⟨h, Run.nil s⟩
  | cons hguard hstep _ ih =>
      obtain ⟨hmid, hrest⟩ := ih (hkeep _ _ _ _ hstart hguard hstep) h
      obtain ⟨hbefore, hguard'⟩ := hback _ _ _ _ hstart hguard hstep hmid
      exact ⟨hbefore, Run.cons hguard' hstep hrest⟩

/--
**A run is good in the end exactly if every step of it was**, when each step keeps what
is good exactly under the guard.
-/
theorem Run.good_iff {P Q : σ → Prop} {good : σ → ι → Prop}
    (hkeep : ∀ s i o s', P s → guard s i → step s i = some (o, s') → P s')
    (hstep : ∀ s i o s', P s → guard s i → step s i = some (o, s') → (Q s' ↔ Q s ∧ good s i))
    {s s' : σ} {is : List ι} {os : List ο} (hrun : Run step guard s is os s') (hP : P s)
    (hQ : Q s) : Q s' ↔ Run step (fun s i => guard s i ∧ good s i) s is os s' := by
  constructor
  · intro h
    refine (hrun.backward hkeep (fun s i o s' hs hguard hone hafter => ?_) hP h).2
    obtain ⟨hbefore, hgood⟩ := (hstep s i o s' hs hguard hone).mp hafter
    exact ⟨hbefore, hguard, hgood⟩
  · intro hgood
    refine (hgood.invariant (P := fun s => P s ∧ Q s) (fun s i o s' hs hboth hone => ?_)
      ⟨hP, hQ⟩).2
    exact ⟨hkeep s i o s' hs.1 hboth.1 hone,
      (hstep s i o s' hs.1 hboth.1 hone).mpr ⟨hs.2, hboth.2⟩⟩

/-- Whatever the step returns, `Q` holds after it. -/
def leadsTo (step : σ → ι → Option (ο × σ)) (Q : σ → Prop) (s : σ) (i : ι) : Prop :=
  ∀ r ∈ step s i, Q r.2

/--
**`Q` holds after every step of a run exactly if every step of it was good**, when a step
from where `Q` holds leads to where it holds exactly if it is good.
-/
theorem Run.leadsTo_iff {Q : σ → Prop} {good : σ → ι → Prop}
    (hstep : ∀ s i o s', Q s → step s i = some (o, s') → (Q s' ↔ good s i))
    {s s' : σ} {is : List ι} {os : List ο} (hrun : Run step guard s is os s') (h : Q s) :
    Run step (leadsTo step Q) s is os s' ↔ Run step good s is os s' := by
  induction hrun with
  | nil s => exact ⟨fun _ => Run.nil s, fun _ => Run.nil s⟩
  | @cons s mid final i o is os hguard hone _ ih =>
      have hnext : leadsTo step Q s i ↔ Q mid := by
        simp only [leadsTo, hone, Option.mem_some_iff, forall_eq']
      constructor
      · intro hrun
        cases hrun with
        | cons hleads hone' hrest =>
            rw [hone] at hone'
            cases hone'
            have hmid := hnext.mp hleads
            exact Run.cons ((hstep _ _ _ _ h hone).mp hmid) hone ((ih hmid).mp hrest)
      · intro hrun
        cases hrun with
        | cons hgood hone' hrest =>
            rw [hone] at hone'
            cases hone'
            have hmid := (hstep _ _ _ _ h hone).mpr hgood
            exact Run.cons (hnext.mpr hmid) hone ((ih hmid).mpr hrest)

theorem Run.append {s mid s' : σ} {is js : List ι} {os ps : List ο}
    (h₁ : Run step guard s is os mid) (h₂ : Run step guard mid js ps s') :
    Run step guard s (is ++ js) (os ++ ps) s' := by
  induction h₁ with
  | nil s => exact h₂
  | cons hguard hstep _ ih => exact Run.cons hguard hstep (ih h₂)

/-- A run over two lists of inputs is a run over the first and one over the second. -/
theorem Run.of_append {js : List ι} {s' : σ} {ps : List ο} {is : List ι} :
    ∀ {s : σ} {os : List ο}, is.length = os.length →
      Run step guard s (is ++ js) (os ++ ps) s' →
      ∃ mid, Run step guard s is os mid ∧ Run step guard mid js ps s' := by
  induction is with
  | nil =>
      intro s os hlength hrun
      rw [List.eq_nil_of_length_eq_zero hlength.symm] at hrun ⊢
      exact ⟨s, Run.nil s, hrun⟩
  | cons i is ih =>
      intro s os hlength hrun
      obtain ⟨o, os, rfl⟩ := List.exists_cons_of_length_eq_add_one hlength.symm
      cases hrun with
      | cons hguard hstep hrest =>
          obtain ⟨mid, hfirst, hsecond⟩ := ih (Nat.succ.inj hlength) hrest
          exact ⟨mid, Run.cons hguard hstep hfirst, hsecond⟩

/-- A run of one input. -/
theorem Run.single {s s' : σ} {i : ι} {o : ο} (hguard : guard s i)
    (hstep : step s i = some (o, s')) : Run step guard s [i] [o] s' :=
  Run.cons hguard hstep (Run.nil s')

/-- **What a run reached, one more admitted step reaches.** -/
theorem Run.snoc {s mid s' : σ} {is : List ι} {os : List ο} {i : ι} {o : ο}
    (h : Run step guard s is os mid) (hguard : guard mid i) (hstep : step mid i = some (o, s')) :
    Run step guard s (is ++ [i]) (os ++ [o]) s' :=
  h.append (Run.single hguard hstep)

/-- Some run leads there. -/
def Reaches (step : σ → ι → Option (ο × σ)) (guard : σ → ι → Prop) (s s' : σ) : Prop :=
  ∃ is os, Run step guard s is os s'

theorem Reaches.refl (s : σ) : Reaches step guard s s := ⟨[], [], Run.nil s⟩

theorem Reaches.tail {s mid s' : σ} (h : Reaches step guard s mid) {i : ι} {o : ο}
    (hguard : guard mid i) (hstep : step mid i = some (o, s')) : Reaches step guard s s' := by
  obtain ⟨is, os, hrun⟩ := h
  exact ⟨_, _, hrun.snoc hguard hstep⟩

theorem Reaches.trans {s mid s' : σ} (h₁ : Reaches step guard s mid)
    (h₂ : Reaches step guard mid s') : Reaches step guard s s' := by
  obtain ⟨is, os, hrun₁⟩ := h₁
  obtain ⟨js, ps, hrun₂⟩ := h₂
  exact ⟨_, _, hrun₁.append hrun₂⟩

/-! ### Runs that end -/

/--
From `s` on no run is longer than `n`, and none is stuck where `Q` does not hold: whoever
chooses the inputs, the machine gets to where `Q` holds.
-/
structure EndsWithin (step : σ → ι → Option (ο × σ)) (guard : σ → ι → Prop) (Q : σ → Prop)
    (n : Nat) (s : σ) : Prop where
  bounded : ∀ is os s', Run step guard s is os s' → is.length ≤ n
  goes_on : ∀ is os s', Run step guard s is os s' → ¬ Q s' →
    ∃ i o s'', guard s' i ∧ step s' i = some (o, s'')

/-- A run is no longer than a variant that every step of it drops. -/
theorem Run.length_le {P : σ → Prop} {variant : σ → Nat}
    (hkeep : ∀ s i o s', P s → guard s i → step s i = some (o, s') → P s')
    (hdrop : ∀ s i o s', P s → guard s i → step s i = some (o, s') → variant s' < variant s)
    {s s' : σ} {is : List ι} {os : List ο} (hrun : Run step guard s is os s') (h : P s) :
    is.length + variant s' ≤ variant s := by
  induction hrun with
  | nil s => exact Nat.le_of_eq (Nat.zero_add _)
  | cons hguard hstep _ ih =>
      have hrest := ih (hkeep _ _ _ _ h hguard hstep)
      have hlt := hdrop _ _ _ _ h hguard hstep
      rw [List.length_cons]
      omega

/-- **A variant that every step drops, and a step wherever `Q` does not hold.** -/
theorem endsWithin_of_variant {P Q : σ → Prop} {variant : σ → Nat}
    (hkeep : ∀ s i o s', P s → guard s i → step s i = some (o, s') → P s')
    (hdrop : ∀ s i o s', P s → guard s i → step s i = some (o, s') → variant s' < variant s)
    (hgo : ∀ s, P s → ¬ Q s → ∃ i o s', guard s i ∧ step s i = some (o, s')) {s : σ} (h : P s)
    {n : Nat} (hn : variant s ≤ n) : EndsWithin step guard Q n s where
  bounded is os s' hrun := by
    have hle := hrun.length_le hkeep hdrop h
    omega
  goes_on is os s' hrun := hgo s' (hrun.invariant hkeep h)

/-- A machine that can always make another step has runs of every length. -/
theorem exists_run_of_length {P : σ → Prop}
    (hgo : ∀ s, P s → ∃ i o s', guard s i ∧ step s i = some (o, s') ∧ P s') (n : Nat) :
    ∀ {s : σ}, P s → ∃ is os s', Run step guard s is os s' ∧ is.length = n := by
  induction n with
  | zero => exact fun {s} _ => ⟨[], [], s, .nil s, rfl⟩
  | succ n ih =>
      intro s h
      obtain ⟨i, o, mid, hguard, hstep, hmid⟩ := hgo s h
      obtain ⟨is, os, s', hrun, hlength⟩ := ih hmid
      exact ⟨i :: is, o :: os, s', .cons hguard hstep hrun, congrArg (· + 1) hlength⟩

/--
**Somebody who chooses well gets to where `Q` holds**, when wherever it does not some
admitted step drops a variant.
-/
theorem exists_reaches {P Q : σ → Prop} {variant : σ → Nat}
    (hgo : ∀ s, P s → ¬ Q s → ∃ i o s', guard s i ∧ step s i = some (o, s') ∧ P s' ∧
      variant s' < variant s) (s : σ) (h : P s) :
    ∃ s', Reaches step guard s s' ∧ P s' ∧ Q s' := by
  by_cases hQ : Q s
  · exact ⟨s, .refl s, h, hQ⟩
  · obtain ⟨i, o, mid, hguard, hstep, hmid, hlt⟩ := hgo s h hQ
    obtain ⟨s', hrest, hend⟩ := exists_reaches hgo mid hmid
    exact ⟨s', ((Reaches.refl s).tail hguard hstep).trans hrest, hend⟩
termination_by variant s

/-- What leads back to where it started can be done any number of times. -/
theorem Run.cycle {s : σ} {is : List ι} {os : List ο} (h : Run step guard s is os s) (n : Nat) :
    Run step guard s (List.replicate n is).flatten (List.replicate n os).flatten s := by
  induction n with
  | zero => exact Run.nil s
  | succ n ih =>
      rw [List.replicate_succ, List.replicate_succ, List.flatten_cons, List.flatten_cons]
      exact h.append ih

/-- Of the inputs that are `mine`, no `n` come without one of them being answered. -/
def AnswersWithin (step : σ → ι → Option (ο × σ)) (guard : σ → ι → Prop) (mine : ι → Bool)
    (answers : ο → Bool) (n : Nat) (s : σ) : Prop :=
  ∀ is os s', Run step guard s is os s' → n ≤ is.countP mine →
    ∃ r ∈ is.zip os, mine r.1 = true ∧ answers r.2 = true

/-- **Inputs of mine drop a variant that the others leave alone.** -/
theorem answersWithin_of_variant {P : σ → Prop} (variant : σ → Nat) {mine : ι → Bool}
    {answers : ο → Bool} (hpos : ∀ s, P s → 0 < variant s)
    (hmine : ∀ s i o s', P s → mine i = true → step s i = some (o, s') → answers o = false →
      P s' ∧ variant s' < variant s)
    (hother : ∀ s i o s', P s → mine i = false → step s i = some (o, s') →
      P s' ∧ variant s' = variant s) {s : σ} (h : P s) {n : Nat} (hn : variant s ≤ n) :
    AnswersWithin step guard mine answers n s := by
  intro is os s' hrun hcount
  induction hrun generalizing n with
  | nil s =>
      have hvariant := hpos s h
      rw [List.countP_nil] at hcount
      omega
  | @cons s mid final i o is os hguard hstep _ ih =>
      rw [List.countP_cons] at hcount
      have hlater : ∀ {m}, P mid → variant mid ≤ m → m ≤ is.countP mine →
          ∃ r ∈ (i :: is).zip (o :: os), mine r.1 = true ∧ answers r.2 = true := by
        intro m hmid hm hrest
        obtain ⟨r, hr, hanswer⟩ := ih hmid hm hrest
        exact ⟨r, List.mem_cons_of_mem _ hr, hanswer⟩
      cases hi : mine i with
      | false =>
          obtain ⟨hmid, hsame⟩ := hother s i o mid h hi hstep
          rw [hi] at hcount
          exact hlater hmid (hsame ▸ hn) hcount
      | true =>
          cases ho : answers o with
          | true => exact ⟨(i, o), List.mem_cons_self, hi, ho⟩
          | false =>
              obtain ⟨hmid, hlt⟩ := hmine s i o mid h hi hstep ho
              rw [hi] at hcount
              exact hlater hmid (Nat.le_sub_one_of_lt (Nat.lt_of_lt_of_le hlt hn))
                (Nat.sub_le_of_le_add hcount)

/-- The outputs and the last state of a total second machine. -/
def trace (astep : τ → ι → ο × τ) : τ → List ι → List ο × τ
  | t, [] => ([], t)
  | t, i :: is =>
      let (o, t') := astep t i
      let (os, t'') := trace astep t' is
      (o :: os, t'')

/-- What every step of the second machine keeps, its trace keeps. -/
theorem trace_keeps {astep : τ → ι → ο × τ} {P : τ → Prop} (hkeep : ∀ t i, P t → P (astep t i).2)
    (is : List ι) : ∀ {t : τ}, P t → P (trace astep t is).2 := by
  induction is with
  | nil => exact fun h => h
  | cons i is ih => exact fun h => ih (hkeep _ i h)

/-- What the second machine returns last, after a list of inputs and one more. -/
theorem trace_snoc (astep : τ → ι → ο × τ) (i : ι) (is : List ι) (t : τ) :
    (trace astep t (is ++ [i])).1
      = (trace astep t is).1 ++ [(astep (trace astep t is).2 i).1] := by
  induction is generalizing t with
  | nil => rfl
  | cons j rest ih =>
      simp only [List.cons_append, trace]
      rw [ih]

/--
**Refinement.**  When every guarded step gives what the second machine gives and
keeps the relation between the two states, every run gives what the second machine
gives, and ends in related states.
-/
theorem Run.refines {astep : τ → ι → ο × τ} {R : σ → τ → Prop}
    (hkeep : ∀ s t i o s', R s t → guard s i → step s i = some (o, s') →
      o = (astep t i).1 ∧ R s' (astep t i).2)
    {s s' : σ} {is : List ι} {os : List ο} (hrun : Run step guard s is os s') :
    ∀ {t : τ}, R s t → os = (trace astep t is).1 ∧ R s' (trace astep t is).2 := by
  induction hrun with
  | nil s => intro t h; exact ⟨rfl, h⟩
  | @cons s mid final i o is os hguard hstep _ ih =>
      intro t h
      obtain ⟨ho, hR⟩ := hkeep _ _ _ _ _ h hguard hstep
      obtain ⟨hos, hfinal⟩ := ih hR
      exact ⟨by simp only [trace]; rw [ho, hos], hfinal⟩

/-- A run carries along what a second machine, which returns nothing, makes of its inputs. -/
theorem Run.follows {astep : τ → ι → τ} {R : σ → τ → Prop}
    (hkeep : ∀ s t i o s', R s t → guard s i → step s i = some (o, s') → R s' (astep t i))
    {s s' : σ} {is : List ι} {os : List ο} (hrun : Run step guard s is os s') :
    ∀ {t : τ}, R s t → R s' (is.foldl astep t) := by
  induction hrun with
  | nil s => intro t h; exact h
  | cons hguard hstep _ ih => intro t h; exact ih (hkeep _ _ _ _ _ h hguard hstep)

/-- An invariant that may speak about the inputs so far. -/
theorem Run.history {R : σ → List ι → Prop}
    (hkeep : ∀ s is i o s', R s is → guard s i → step s i = some (o, s') → R s' (is ++ [i]))
    {s s' : σ} {is : List ι} {os : List ο} (hrun : Run step guard s is os s') :
    ∀ {before : List ι}, R s before → R s' (before ++ is) := by
  induction hrun with
  | nil s =>
      intro before h
      rw [List.append_nil]
      exact h
  | @cons s mid final i o is os hguard hstep _ ih =>
      intro before h
      have hall := ih (hkeep _ _ _ _ _ h hguard hstep)
      rwa [List.append_assoc] at hall

/--
Two machines given the same inputs return the same, when every step they take
together returns the same and keeps the relation between their states.
-/
theorem Run.lockstep {step' : τ → ι → Option (ο × τ)} {guard' : τ → ι → Prop}
    {R : σ → τ → Prop}
    (hkeep : ∀ s t i o o' s' t', R s t → guard s i → guard' t i → step s i = some (o, s') →
      step' t i = some (o', t') → o = o' ∧ R s' t')
    {s s' : σ} {is : List ι} {os : List ο} (hrun : Run step guard s is os s') :
    ∀ {t t' : τ} {os' : List ο}, Run step' guard' t is os' t' → R s t → os = os' ∧ R s' t' := by
  induction hrun with
  | nil s =>
      intro t t' os' hrun' h
      cases hrun'
      exact ⟨rfl, h⟩
  | cons hguard hstep _ ih =>
      intro t t' os' hrun' h
      cases hrun' with
      | cons hguard' hstep' hrest' =>
          obtain ⟨ho, hmid⟩ := hkeep _ _ _ _ _ _ _ h hguard hguard' hstep hstep'
          obtain ⟨hos, hfinal⟩ := ih hrest' hmid
          exact ⟨by rw [ho, hos], hfinal⟩

/-- Running a list of inputs, stopping at one the guard does not admit. -/
def exec (step : σ → ι → Option (ο × σ)) (guard : σ → ι → Prop)
    [∀ s i, Decidable (guard s i)] : σ → List ι → Option (List ο × σ)
  | s, [] => some ([], s)
  | s, i :: is =>
      if guard s i then
        match step s i with
        | none => none
        | some (o, mid) => (exec step guard mid is).map fun r => (o :: r.1, r.2)
      else none

/-- Executing gives a run. -/
theorem run_of_exec [∀ s i, Decidable (guard s i)] {is : List ι} :
    ∀ {s s' : σ} {os : List ο}, exec step guard s is = some (os, s') →
      Run step guard s is os s' := by
  induction is with
  | nil =>
      intro s s' os h
      simp only [exec, Option.some.injEq, Prod.mk.injEq] at h
      obtain ⟨rfl, rfl⟩ := h
      exact Run.nil s
  | cons i rest ih =>
      intro s s' os h
      simp only [exec] at h
      split at h
      · rename_i hguard
        split at h
        · simp at h
        · rename_i o mid hstep
          obtain ⟨⟨os', s''⟩, hrest, hpair⟩ := Option.map_eq_some_iff.mp h
          simp only [Prod.mk.injEq] at hpair
          obtain ⟨rfl, rfl⟩ := hpair
          exact Run.cons hguard hstep (ih hrest)
      · simp at h

/-- Executing from a state that is constructed first shows what some run ends in. -/
theorem exists_run (step : σ → ι → Option (ο × σ)) (guard : σ → ι → Prop)
    [∀ s i, Decidable (guard s i)] (start : Option σ) (is : List ι) (p : List ο × σ → Bool)
    (h : (start.bind fun s => exec step guard s is).any p = true) :
    ∃ s os s', start = some s ∧ Run step guard s is os s' ∧ p (os, s') = true := by
  rw [Option.any_eq_true] at h
  obtain ⟨⟨os, s'⟩, hexec, hp⟩ := h
  obtain ⟨s, hstart, hexec⟩ := Option.bind_eq_some_iff.mp hexec
  exact ⟨s, os, s', hstart, run_of_exec hexec, hp⟩

end Machine
