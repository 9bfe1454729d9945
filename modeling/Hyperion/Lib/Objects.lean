/-
Programs over named objects.

The objects of one class, each under a name of its own that is never used again: not
constructed yet, alive, or destroyed.  An `ObjectType` says what the class's
constructors, assignments, member functions and destructor do to the one or two
objects they are about, each of them possibly ending the program.  What every one of
them keeps, every program keeps of all its objects, and what the destructor makes of
it holds of the objects that are gone.
-/
import Hyperion.Lib.Machine
import Mathlib.Logic.Function.Basic
import Mathlib.Logic.Equiv.Basic

/-- The life of an object. -/
inductive Life (ρ : Type)
  | unborn
  | alive (r : ρ)
  | ended (r : ρ)

/--
What a class does: constructors from values, constructors and assignments from
another object of the class, assignment of an object to itself, member functions,
and the destructor.  The second component of a pair is the other object afterwards.
-/
structure ObjectType (ρ κ τ υ ο : Type) where
  construct : κ → Option ρ
  construct_from : τ → ρ → Option (ρ × ρ)
  assign_from : τ → ρ → ρ → Option (ρ × ρ)
  assign_self : τ → ρ → Option ρ
  call : υ → ρ → Option (ο × ρ)
  destroy : ρ → Option ρ

namespace Objects

variable {ρ κ τ υ ο : Type}

/-- One statement of a program. -/
inductive Op (κ τ υ : Type)
  | construct (j : Nat) (k : κ)
  | construct_from (j i : Nat) (t : τ)
  | assign_from (j i : Nat) (t : τ)
  | call (i : Nat) (u : υ)
  | destroy (i : Nat)

/-- The object alive under a name. -/
def get (w : Nat → Life ρ) (i : Nat) : Option ρ :=
  match w i with
  | .alive r => some r
  | _ => none

/-- Whether a name was not used so far. -/
def free (w : Nat → Life ρ) (j : Nat) : Bool :=
  match w j with
  | .unborn => true
  | _ => false

/-- The object under a name becomes `r`. -/
def put (w : Nat → Life ρ) (j : Nat) (r : ρ) : Nat → Life ρ := Function.update w j (.alive r)

/-- No object was constructed yet. -/
def start : Nat → Life ρ := fun _ => .unborn

/-- One statement; `none` where it ends the program or is none of a program's. -/
def step (C : ObjectType ρ κ τ υ ο) (w : Nat → Life ρ) :
    Op κ τ υ → Option (Option ο × (Nat → Life ρ))
  | .construct j k =>
      if free w j then (C.construct k).map fun r => (none, put w j r) else none
  | .construct_from j i t =>
      if free w j then
        (get w i).bind fun s => (C.construct_from t s).map fun p => (none, put (put w i p.2) j p.1)
      else none
  | .assign_from j i t =>
      if j = i then
        (get w i).bind fun r => (C.assign_self t r).map fun r' => (none, put w i r')
      else
        (get w j).bind fun r => (get w i).bind fun s =>
          (C.assign_from t r s).map fun p => (none, put (put w i p.2) j p.1)
  | .call i u => (get w i).bind fun r => (C.call u r).map fun p => (some p.1, put w i p.2)
  | .destroy i =>
      (get w i).bind fun r => (C.destroy r).map fun r' => (none, Function.update w i (.ended r'))

/-- A condition on a statement, in terms of the objects it is about. -/
structure Guard (ρ κ τ υ : Type) where
  construct : κ → Prop := fun _ => True
  construct_from : τ → ρ → Prop := fun _ _ => True
  assign_from : τ → ρ → ρ → Prop := fun _ _ _ => True
  assign_self : τ → ρ → Prop := fun _ _ => True
  call : υ → ρ → Prop := fun _ _ => True
  destroy : ρ → Prop := fun _ => True

/-- The statement meets the condition. -/
def Guard.admits (G : Guard ρ κ τ υ) (w : Nat → Life ρ) : Op κ τ υ → Prop
  | .construct _ k => G.construct k
  | .construct_from _ i t => ∀ s ∈ get w i, G.construct_from t s
  | .assign_from j i t =>
      if j = i then ∀ r ∈ get w i, G.assign_self t r
      else ∀ r ∈ get w j, ∀ s ∈ get w i, G.assign_from t r s
  | .call i u => ∀ r ∈ get w i, G.call u r
  | .destroy i => ∀ r ∈ get w i, G.destroy r

instance (G : Guard ρ κ τ υ) [∀ k, Decidable (G.construct k)]
    [∀ t s, Decidable (G.construct_from t s)] [∀ t r s, Decidable (G.assign_from t r s)]
    [∀ t r, Decidable (G.assign_self t r)] [∀ u r, Decidable (G.call u r)]
    [∀ r, Decidable (G.destroy r)] (w : Nat → Life ρ) (op : Op κ τ υ) :
    Decidable (G.admits w op) := by
  cases op <;> unfold Guard.admits <;> infer_instance

/-- `P` holds of every object alive and `Q` of every one that is gone. -/
structure Each (P Q : ρ → Prop) (w : Nat → Life ρ) : Prop where
  alive : ∀ i r, w i = .alive r → P r
  ended : ∀ i r, w i = .ended r → Q r

/-- Everything the class does keeps `P`, and its destructor makes `Q` of it. -/
structure Keeps (C : ObjectType ρ κ τ υ ο) (G : Guard ρ κ τ υ) (P Q : ρ → Prop) : Prop where
  construct : ∀ k r, G.construct k → C.construct k = some r → P r
  construct_from : ∀ t s p, P s → G.construct_from t s → C.construct_from t s = some p →
    P p.1 ∧ P p.2
  assign_from : ∀ t r s p, P r → P s → G.assign_from t r s → C.assign_from t r s = some p →
    P p.1 ∧ P p.2
  assign_self : ∀ t r r', P r → G.assign_self t r → C.assign_self t r = some r' → P r'
  call : ∀ u r p, P r → G.call u r → C.call u r = some p → P p.2
  destroy : ∀ r r', P r → G.destroy r → C.destroy r = some r' → Q r'

theorem get_eq {w : Nat → Life ρ} {i : Nat} {r : ρ} (h : get w i = some r) : w i = .alive r := by
  unfold get at h
  split at h
  · rename_i hw; rw [hw, Option.some.inj h]
  · cases h

@[simp] theorem get_start (i : Nat) : get (start : Nat → Life ρ) i = none := rfl

@[simp] theorem get_put (w : Nat → Life ρ) (j i : Nat) (r : ρ) :
    get (put w j r) i = if i = j then some r else get w i := by
  by_cases h : i = j
  · rw [if_pos h, h, get, put, Function.update_self]
  · rw [if_neg h, get, put, Function.update_of_ne h]
    rfl

@[simp] theorem get_end (w : Nat → Life ρ) (j i : Nat) (r : ρ) :
    get (Function.update w j (.ended r)) i = if i = j then none else get w i := by
  by_cases h : i = j
  · rw [if_pos h, h, get, Function.update_self]
  · rw [if_neg h, get, Function.update_of_ne h]
    rfl

/-- Nothing is alive under a name that was not used. -/
theorem get_of_free {w : Nat → Life ρ} {j : Nat} (h : free w j = true) : get w j = none := by
  unfold free at h
  unfold get
  cases hw : w j with
  | unborn => rfl
  | alive r => rw [hw] at h; cases h
  | ended r => rfl

/-! ### What a statement does -/

/-- What one statement does where it does something, case by case. -/
inductive Steps (C : ObjectType ρ κ τ υ ο) (w : Nat → Life ρ) :
    Op κ τ υ → Option ο → (Nat → Life ρ) → Prop
  | construct {j : Nat} {k : κ} {r : ρ} (hfree : free w j = true) (hr : C.construct k = some r) :
      Steps C w (.construct j k) none (put w j r)
  | construct_from {j i : Nat} {t : τ} {s : ρ} {p : ρ × ρ} (hfree : free w j = true)
      (hs : get w i = some s) (hp : C.construct_from t s = some p) :
      Steps C w (.construct_from j i t) none (put (put w i p.2) j p.1)
  | assign_self {i : Nat} {t : τ} {r r' : ρ} (hr : get w i = some r)
      (hr' : C.assign_self t r = some r') : Steps C w (.assign_from i i t) none (put w i r')
  | assign_from {j i : Nat} {t : τ} {r s : ρ} {p : ρ × ρ} (hji : j ≠ i) (hr : get w j = some r)
      (hs : get w i = some s) (hp : C.assign_from t r s = some p) :
      Steps C w (.assign_from j i t) none (put (put w i p.2) j p.1)
  | call {i : Nat} {u : υ} {r : ρ} {p : ο × ρ} (hr : get w i = some r)
      (hp : C.call u r = some p) : Steps C w (.call i u) (some p.1) (put w i p.2)
  | destroy {i : Nat} {r r' : ρ} (hr : get w i = some r) (hr' : C.destroy r = some r') :
      Steps C w (.destroy i) none (Function.update w i (.ended r'))

/-- **Every step is one of these.** -/
theorem steps_of_step {C : ObjectType ρ κ τ υ ο} {w w' : Nat → Life ρ} {op : Op κ τ υ}
    {o : Option ο} (hstep : step C w op = some (o, w')) : Steps C w op o w' := by
  cases op with
  | construct j k =>
      simp only [Objects.step] at hstep
      split at hstep
      · rename_i hfree
        obtain ⟨r, hr, heq⟩ := Option.map_eq_some_iff.mp hstep
        cases heq
        exact .construct hfree hr
      · cases hstep
  | construct_from j i t =>
      simp only [Objects.step] at hstep
      split at hstep
      · rename_i hfree
        obtain ⟨s, hs, hstep⟩ := Option.bind_eq_some_iff.mp hstep
        obtain ⟨p, hp, heq⟩ := Option.map_eq_some_iff.mp hstep
        cases heq
        exact .construct_from hfree hs hp
      · cases hstep
  | assign_from j i t =>
      simp only [Objects.step] at hstep
      split at hstep
      · rename_i hji
        subst hji
        obtain ⟨r, hr, hstep⟩ := Option.bind_eq_some_iff.mp hstep
        obtain ⟨r', hr', heq⟩ := Option.map_eq_some_iff.mp hstep
        cases heq
        exact .assign_self hr hr'
      · rename_i hji
        obtain ⟨r, hr, hstep⟩ := Option.bind_eq_some_iff.mp hstep
        obtain ⟨s, hs, hstep⟩ := Option.bind_eq_some_iff.mp hstep
        obtain ⟨p, hp, heq⟩ := Option.map_eq_some_iff.mp hstep
        cases heq
        exact .assign_from hji hr hs hp
  | call i u =>
      obtain ⟨r, hr, hstep⟩ := Option.bind_eq_some_iff.mp hstep
      obtain ⟨p, hp, heq⟩ := Option.map_eq_some_iff.mp hstep
      cases heq
      exact .call hr hp
  | destroy i =>
      obtain ⟨r, hr, hstep⟩ := Option.bind_eq_some_iff.mp hstep
      obtain ⟨r', hr', heq⟩ := Option.map_eq_some_iff.mp hstep
      cases heq
      exact .destroy hr hr'

/-! ### What the objects keep -/

section Keeping

variable {π : Type} {w : Nat → Life ρ} {f : ρ → Option π}

theorem keeps_get {i : Nat} {r : ρ} (hr : get w i = some r) : (get w i).bind f = f r := by
  rw [hr]
  rfl

/-- Nothing is kept under a name that was not used. -/
theorem keeps_free {j : Nat} (hfree : free w j = true) : (get w j).bind f = none := by
  rw [get_of_free hfree]
  rfl

theorem keeps_put (j : Nat) (r : ρ) :
    (fun k => (get (put w j r) k).bind f)
      = Function.update (fun k => (get w k).bind f) j (f r) := by
  funext k
  rw [get_put, Function.update_apply]
  split <;> rfl

theorem keeps_end (j : Nat) (r : ρ) :
    (fun k => (get (Function.update w j (.ended r)) k).bind f)
      = Function.update (fun k => (get w k).bind f) j none := by
  funext k
  rw [get_end, Function.update_apply]
  split <;> rfl

/-- Two objects that keep what the other one kept have exchanged it. -/
theorem keeps_exchange {j i : Nat} {r s : ρ} (hr : f r = (get w i).bind f)
    (hs : f s = (get w j).bind f) :
    (fun k => (get (put (put w i s) j r) k).bind f)
      = (fun k => (get w k).bind f) ∘ Equiv.swap j i := by
  by_cases hij : i = j
  · subst hij
    rw [keeps_put, keeps_put, Function.update_idem, hr, Function.update_eq_self, Equiv.swap_self]
    rfl
  · rw [keeps_put, keeps_put, hr, hs, Equiv.comp_swap_eq_update, Function.update_comm hij]

/-- One object keeps what another one kept, which keeps nothing now. -/
theorem keeps_handover {j i : Nat} (hji : j ≠ i) {r s : ρ} (hr : f r = (get w i).bind f)
    (hs : f s = none) :
    (fun k => (get (put (put w i s) j r) k).bind f)
      = Function.update (fun k => (get w k).bind f) j none ∘ Equiv.swap j i := by
  rw [keeps_put, keeps_put, hr, hs, Equiv.comp_swap_eq_update, Function.update_self,
    Function.update_of_ne hji.symm, Function.update_comm hji, Function.update_idem]

end Keeping

theorem Each.start {P Q : ρ → Prop} : Each P Q (start : Nat → Life ρ) :=
  ⟨(fun _ _ h => by cases h), (fun _ _ h => by cases h)⟩

theorem Each.get {P Q : ρ → Prop} {w : Nat → Life ρ} (h : Each P Q w) {i : Nat} {r : ρ}
    (hr : get w i = some r) : P r :=
  h.alive i r (get_eq hr)

theorem Each.put {P Q : ρ → Prop} {w : Nat → Life ρ} (h : Each P Q w) {j : Nat} {r : ρ}
    (hr : P r) : Each P Q (put w j r) := by
  refine ⟨?_, ?_⟩ <;> intro i s hi <;> rw [Objects.put, Function.update_apply] at hi <;>
    split at hi
  · exact Life.alive.inj hi ▸ hr
  · exact h.alive i s hi
  · cases hi
  · exact h.ended i s hi

theorem Each.end {P Q : ρ → Prop} {w : Nat → Life ρ} (h : Each P Q w) {j : Nat} {r : ρ}
    (hr : Q r) : Each P Q (Function.update w j (.ended r)) := by
  refine ⟨?_, ?_⟩ <;> intro i s hi <;> rw [Function.update_apply] at hi <;> split at hi
  · cases hi
  · exact h.alive i s hi
  · exact Life.ended.inj hi ▸ hr
  · exact h.ended i s hi

/-- **What the class keeps, a statement keeps of all objects.** -/
theorem Keeps.step {C : ObjectType ρ κ τ υ ο} {G : Guard ρ κ τ υ} {P Q : ρ → Prop}
    (hkeeps : Keeps C G P Q) {w w' : Nat → Life ρ} {op : Op κ τ υ} {o : Option ο}
    (h : Each P Q w) (hguard : G.admits w op) (hstep : step C w op = some (o, w')) :
    Each P Q w' := by
  cases steps_of_step hstep with
  | construct hfree hr => exact h.put (hkeeps.construct _ _ hguard hr)
  | construct_from hfree hs hp =>
      obtain ⟨hnew, hsource⟩ := hkeeps.construct_from _ _ _ (h.get hs) (hguard _ hs) hp
      exact (h.put hsource).put hnew
  | assign_self hr hr' =>
      rw [Guard.admits, if_pos rfl] at hguard
      exact h.put (hkeeps.assign_self _ _ _ (h.get hr) (hguard _ hr) hr')
  | assign_from hji hr hs hp =>
      rw [Guard.admits, if_neg hji] at hguard
      obtain ⟨htarget, hsource⟩ :=
        hkeeps.assign_from _ _ _ _ (h.get hr) (h.get hs) (hguard _ hr _ hs) hp
      exact (h.put hsource).put htarget
  | call hr hp => exact h.put (hkeeps.call _ _ _ (h.get hr) (hguard _ hr) hp)
  | destroy hr hr' => exact h.end (hkeeps.destroy _ _ (h.get hr) (hguard _ hr) hr')

/-! ### Conditions that are exact -/

/-- What the class makes has `P`, and what its destructor leaves has `Q`, exactly where the
condition is met. -/
structure Exactly (C : ObjectType ρ κ τ υ ο) (G : Guard ρ κ τ υ) (P Q : ρ → Prop) : Prop where
  construct : ∀ k r, C.construct k = some r → (P r ↔ G.construct k)
  construct_from : ∀ t s p, P s → C.construct_from t s = some p →
    (P p.1 ∧ P p.2 ↔ G.construct_from t s)
  assign_from : ∀ t r s p, P r → P s → C.assign_from t r s = some p →
    (P p.1 ∧ P p.2 ↔ G.assign_from t r s)
  assign_self : ∀ t r r', P r → C.assign_self t r = some r' → (P r' ↔ G.assign_self t r)
  call : ∀ u r p, P r → C.call u r = some p → (P p.2 ↔ G.call u r)
  destroy : ∀ r r', P r → C.destroy r = some r' → (Q r' ↔ G.destroy r)

theorem Each.put_iff {P Q : ρ → Prop} {w : Nat → Life ρ} (h : Each P Q w) {j : Nat} {r : ρ} :
    Each P Q (Objects.put w j r) ↔ P r := by
  refine ⟨fun hput => hput.get (i := j) ?_, h.put⟩
  rw [get_put, if_pos rfl]

theorem Each.put_put_iff {P Q : ρ → Prop} {w : Nat → Life ρ} (h : Each P Q w) {i j : Nat}
    (hij : i ≠ j) {r s : ρ} :
    Each P Q (Objects.put (Objects.put w i s) j r) ↔ P r ∧ P s := by
  constructor
  · intro hput
    refine ⟨hput.get (i := j) ?_, hput.get (i := i) ?_⟩
    · rw [get_put, if_pos rfl]
    · rw [get_put, if_neg hij, get_put, if_pos rfl]
  · rintro ⟨hr, hs⟩
    exact (h.put hs).put hr

theorem Each.end_iff {P Q : ρ → Prop} {w : Nat → Life ρ} (h : Each P Q w) {j : Nat} {r : ρ} :
    Each P Q (Function.update w j (.ended r)) ↔ Q r :=
  ⟨fun hend => hend.ended j r (Function.update_self ..), h.end⟩

/-- **A statement keeps what is to hold of all objects exactly if it meets the condition.** -/
theorem Exactly.step {C : ObjectType ρ κ τ υ ο} {G : Guard ρ κ τ υ} {P Q : ρ → Prop}
    (hexact : Exactly C G P Q) {w w' : Nat → Life ρ} {op : Op κ τ υ} {o : Option ο}
    (h : Each P Q w) (hstep : step C w op = some (o, w')) :
    Each P Q w' ↔ G.admits w op := by
  cases steps_of_step hstep with
  | construct hfree hr => exact h.put_iff.trans (hexact.construct _ _ hr)
  | @construct_from j i t s p hfree hs hp =>
      have hij : i ≠ j := by
        rintro rfl
        rw [get_of_free hfree] at hs
        cases hs
      simp only [Guard.admits, hs, Option.mem_some_iff, forall_eq']
      exact (h.put_put_iff hij).trans (hexact.construct_from t s p (h.get hs) hp)
  | assign_self hr hr' =>
      simp only [Guard.admits, if_true, hr, Option.mem_some_iff, forall_eq']
      exact h.put_iff.trans (hexact.assign_self _ _ _ (h.get hr) hr')
  | assign_from hji hr hs hp =>
      simp only [Guard.admits, if_neg hji, hr, hs, Option.mem_some_iff, forall_eq']
      exact (h.put_put_iff (Ne.symm hji)).trans
        (hexact.assign_from _ _ _ _ (h.get hr) (h.get hs) hp)
  | call hr hp =>
      simp only [Guard.admits, hr, Option.mem_some_iff, forall_eq']
      exact h.put_iff.trans (hexact.call _ _ _ (h.get hr) hp)
  | destroy hr hr' =>
      simp only [Guard.admits, hr, Option.mem_some_iff, forall_eq']
      exact h.end_iff.trans (hexact.destroy _ _ (h.get hr) hr')

/-- **All objects are as they are to be after every step of a program exactly if its
statements meet the condition.** -/
theorem Exactly.run {C : ObjectType ρ κ τ υ ο} {G : Guard ρ κ τ υ} {P Q : ρ → Prop}
    (hexact : Exactly C G P Q) {guard : (Nat → Life ρ) → Op κ τ υ → Prop} {w : Nat → Life ρ}
    {ops : List (Op κ τ υ)} {outs : List (Option ο)}
    (hrun : Machine.Run (Objects.step C) guard start ops outs w) :
    Machine.Run (Objects.step C) (Machine.leadsTo (Objects.step C) (Each P Q)) start ops outs w ↔
      Machine.Run (Objects.step C) G.admits start ops outs w :=
  hrun.leadsTo_iff (fun _ _ _ _ h hstep => hexact.step h hstep) Each.start

/-- The condition every statement meets. -/
def Guard.always : Guard ρ κ τ υ := {}

theorem Guard.always_admits (w : Nat → Life ρ) (op : Op κ τ υ) : Guard.always.admits w op := by
  cases op with
  | construct j k => exact trivial
  | construct_from j i t => exact fun _ _ => trivial
  | assign_from j i t =>
      show if j = i then _ else _
      split
      · exact fun _ _ => trivial
      · exact fun _ _ _ _ => trivial
  | call i u => exact fun _ _ => trivial
  | destroy i => exact fun _ _ => trivial

/-- **What the class keeps, a program keeps of all objects.** -/
theorem Keeps.run {C : ObjectType ρ κ τ υ ο} {G : Guard ρ κ τ υ} {P Q : ρ → Prop}
    (hkeeps : Keeps C G P Q) {guard : (Nat → Life ρ) → Op κ τ υ → Prop}
    (hguard : ∀ w op, guard w op → G.admits w op) {w : Nat → Life ρ} {ops : List (Op κ τ υ)}
    {outs : List (Option ο)} (hrun : Machine.Run (Objects.step C) guard start ops outs w) :
    Each P Q w :=
  hrun.invariant (fun _ _ _ _ h hop hstep => hkeeps.step h (hguard _ _ hop) hstep) Each.start

/-! ### One class for another -/

section Simulation

variable {σ : Type}

/--
Class `C` does what class `D` does, wherever `D` says what that is: it returns the same, and
its objects stand for those of `D`.  Of what its destructor leaves, `Q` holds.
-/
structure Implements (C : ObjectType ρ κ τ υ ο) (D : ObjectType σ κ τ υ ο) (R : ρ → σ → Prop)
    (Q : ρ → Prop) : Prop where
  construct : ∀ k x, D.construct k = some x → ∃ r, C.construct k = some r ∧ R r x
  construct_from : ∀ t s y q, R s y → D.construct_from t y = some q →
    ∃ p, C.construct_from t s = some p ∧ R p.1 q.1 ∧ R p.2 q.2
  assign_from : ∀ t r s x y q, R r x → R s y → D.assign_from t x y = some q →
    ∃ p, C.assign_from t r s = some p ∧ R p.1 q.1 ∧ R p.2 q.2
  assign_self : ∀ t r x x', R r x → D.assign_self t x = some x' →
    ∃ r', C.assign_self t r = some r' ∧ R r' x'
  call : ∀ u r x q, R r x → D.call u x = some q →
    ∃ p, C.call u r = some p ∧ p.1 = q.1 ∧ R p.2 q.2
  destroy : ∀ r x x', R r x → D.destroy x = some x' → ∃ r', C.destroy r = some r' ∧ Q r'

/-- At the same point of their lives. -/
inductive Life.Like (R : ρ → σ → Prop) (Q : ρ → Prop) : Life ρ → Life σ → Prop
  | unborn : Like R Q .unborn .unborn
  | alive {r : ρ} {x : σ} (h : R r x) : Like R Q (.alive r) (.alive x)
  | ended {r : ρ} {x : σ} (h : Q r) : Like R Q (.ended r) (.ended x)

/-- Name by name. -/
def Alike (R : ρ → σ → Prop) (Q : ρ → Prop) (w : Nat → Life ρ) (v : Nat → Life σ) : Prop :=
  ∀ i, Life.Like R Q (w i) (v i)

variable {C : ObjectType ρ κ τ υ ο} {D : ObjectType σ κ τ υ ο} {R : ρ → σ → Prop} {Q : ρ → Prop}
  {w : Nat → Life ρ} {v : Nat → Life σ}

theorem Alike.get (h : Alike R Q w v) {i : Nat} {x : σ} (hx : get v i = some x) :
    ∃ r, Objects.get w i = some r ∧ R r x := by
  have hlike := h i
  rw [get_eq hx] at hlike
  unfold Objects.get
  cases hw : w i with
  | alive r =>
      rw [hw] at hlike
      cases hlike with
      | alive hr => exact ⟨r, rfl, hr⟩
  | unborn | ended r =>
      rw [hw] at hlike
      cases hlike

theorem Alike.free (h : Alike R Q w v) (j : Nat) : free w j = free v j := by
  have hlike := h j
  unfold Objects.free
  generalize w j = l at hlike ⊢
  generalize v j = m at hlike ⊢
  cases hlike <;> rfl

theorem Alike.put (h : Alike R Q w v) (j : Nat) {r : ρ} {x : σ} (hr : R r x) :
    Alike R Q (put w j r) (put v j x) := by
  intro i
  unfold Objects.put
  rw [Function.update_apply, Function.update_apply]
  by_cases hi : i = j
  · rw [if_pos hi, if_pos hi]
    exact .alive hr
  · rw [if_neg hi, if_neg hi]
    exact h i

theorem Alike.end (h : Alike R Q w v) (j : Nat) {r : ρ} {x : σ} (hr : Q r) :
    Alike R Q (Function.update w j (.ended r)) (Function.update v j (.ended x)) := by
  intro i
  rw [Function.update_apply, Function.update_apply]
  by_cases hi : i = j
  · rw [if_pos hi, if_pos hi]
    exact .ended hr
  · rw [if_neg hi, if_neg hi]
    exact h i

/-- **A statement on the one class's objects can be made on the other's, and returns the
same.** -/
theorem Implements.step (himpl : Implements C D R Q) (h : Alike R Q w v) {op : Op κ τ υ}
    {o : Option ο} {v' : Nat → Life σ} (hstep : step D v op = some (o, v')) :
    ∃ w', Objects.step C w op = some (o, w') ∧ Alike R Q w' v' := by
  cases steps_of_step hstep with
  | @construct j k x hfree hx =>
      obtain ⟨r, hr, hrel⟩ := himpl.construct k x hx
      refine ⟨_, ?_, h.put j hrel⟩
      simp only [Objects.step, h.free, hfree, if_true, hr, Option.map_some]
  | @construct_from j i t y q hfree hy hq =>
      obtain ⟨s, hs, hrel⟩ := h.get hy
      obtain ⟨p, hp, hnew, hsource⟩ := himpl.construct_from t s y q hrel hq
      refine ⟨_, ?_, (h.put i hsource).put j hnew⟩
      simp only [Objects.step, h.free, hfree, if_true, hs, Option.bind_some, hp, Option.map_some]
  | @assign_self i t x x' hx hx' =>
      obtain ⟨r, hr, hrel⟩ := h.get hx
      obtain ⟨r', hr', hafter⟩ := himpl.assign_self t r x x' hrel hx'
      refine ⟨_, ?_, h.put i hafter⟩
      simp only [Objects.step, if_true, hr, Option.bind_some, hr', Option.map_some]
  | @assign_from j i t x y q hji hx hy hq =>
      obtain ⟨r, hr, hrel⟩ := h.get hx
      obtain ⟨s, hs, hrel'⟩ := h.get hy
      obtain ⟨p, hp, htarget, hsource⟩ := himpl.assign_from t r s x y q hrel hrel' hq
      refine ⟨_, ?_, (h.put i hsource).put j htarget⟩
      simp only [Objects.step, if_neg hji, hr, hs, Option.bind_some, hp, Option.map_some]
  | @call i u x q hx hq =>
      obtain ⟨r, hr, hrel⟩ := h.get hx
      obtain ⟨p, hp, hout, hafter⟩ := himpl.call u r x q hrel hq
      refine ⟨_, ?_, h.put i hafter⟩
      simp only [Objects.step, hr, Option.bind_some, hp, Option.map_some, hout]
  | @destroy i x x' hx hx' =>
      obtain ⟨r, hr, hrel⟩ := h.get hx
      obtain ⟨r', hr', hgone⟩ := himpl.destroy r x x' hrel hx'
      refine ⟨_, ?_, h.end i hgone⟩
      simp only [Objects.step, hr, Option.bind_some, hr', Option.map_some]

/-- **So can a program.** -/
theorem Implements.run (himpl : Implements C D R Q) {guard : (Nat → Life σ) → Op κ τ υ → Prop}
    {ops : List (Op κ τ υ)} {outs : List (Option ο)} {v' : Nat → Life σ}
    (hrun : Machine.Run (Objects.step D) guard v ops outs v') (h : Alike R Q w v) :
    ∃ w', Machine.Run (Objects.step C) (fun _ _ => True) w ops outs w' ∧ Alike R Q w' v' := by
  induction hrun generalizing w with
  | nil v => exact ⟨w, .nil w, h⟩
  | cons _ hstep _ ih =>
      obtain ⟨mid, hone, hmid⟩ := himpl.step h hstep
      obtain ⟨w', hrest, hend⟩ := ih hmid
      exact ⟨w', .cons trivial hone hrest, hend⟩

theorem alike_start : Alike R Q (start : Nat → Life ρ) (start : Nat → Life σ) := fun _ => .unborn

/-! ### Two classes that are the same to a program -/

/-- Class `C` does what class `D` does, and ends the program where `D` does. -/
structure Mirrors (C : ObjectType ρ κ τ υ ο) (D : ObjectType σ κ τ υ ο) (R : ρ → σ → Prop)
    (Q : ρ → Prop) : Prop where
  construct : ∀ k, Option.Rel R (C.construct k) (D.construct k)
  construct_from : ∀ t s y, R s y → Option.Rel (fun p q => R p.1 q.1 ∧ R p.2 q.2)
    (C.construct_from t s) (D.construct_from t y)
  assign_from : ∀ t r s x y, R r x → R s y → Option.Rel (fun p q => R p.1 q.1 ∧ R p.2 q.2)
    (C.assign_from t r s) (D.assign_from t x y)
  assign_self : ∀ t r x, R r x → Option.Rel R (C.assign_self t r) (D.assign_self t x)
  call : ∀ u r x, R r x → Option.Rel (fun p q => p.1 = q.1 ∧ R p.2 q.2) (C.call u r) (D.call u x)
  destroy : ∀ r x, R r x → Option.Rel (fun r' _ => Q r') (C.destroy r) (D.destroy x)

theorem rel_some {π π' : Type} {S : π → π' → Prop} {a : Option π} {b : Option π'} {y : π'}
    (h : Option.Rel S a b) (hb : b = some y) : ∃ x, a = some x ∧ S x y := by
  cases h with
  | some hxy =>
      cases hb
      exact ⟨_, rfl, hxy⟩
  | none => cases hb

theorem some_rel {π π' : Type} {S : π → π' → Prop} {a : Option π} {b : Option π'} {x : π}
    (h : Option.Rel S a b) (ha : a = some x) : ∃ y, b = some y ∧ S x y := by
  cases h with
  | some hxy =>
      cases ha
      exact ⟨_, rfl, hxy⟩
  | none => cases ha

theorem Mirrors.implements (h : Mirrors C D R Q) : Implements C D R Q where
  construct k _ hx := rel_some (h.construct k) hx
  construct_from t s y _ hs hq := rel_some (h.construct_from t s y hs) hq
  assign_from t r s x y _ hr hs hq := rel_some (h.assign_from t r s x y hr hs) hq
  assign_self t r x _ hr hx' := rel_some (h.assign_self t r x hr) hx'
  call u r x _ hr hq := rel_some (h.call u r x hr) hq
  destroy r x _ hr hx' := rel_some (h.destroy r x hr) hx'

/-- The other way round, without what holds of the objects that are gone. -/
theorem Mirrors.implemented (h : Mirrors C D R Q) :
    Implements D C (fun x r => R r x) (fun _ => True) where
  construct k _ hr := some_rel (h.construct k) hr
  construct_from t s y _ hs hp := some_rel (h.construct_from t y s hs) hp
  assign_from t r s x y _ hr hs hp := some_rel (h.assign_from t x y r s hr hs) hp
  assign_self t r x _ hr hr' := some_rel (h.assign_self t x r hr) hr'
  call u r x p hr hp := by
    obtain ⟨q, hq, hout, hafter⟩ := some_rel (h.call u x r hr) hp
    exact ⟨q, hq, hout.symm, hafter⟩
  destroy r x _ hr hr' := by
    obtain ⟨x', hx', -⟩ := some_rel (h.destroy x r hr) hr'
    exact ⟨x', hx', trivial⟩

theorem Alike.swap (h : Alike R Q w v) : Alike (fun x r => R r x) (fun _ => True) v w := by
  intro i
  have hlike := h i
  generalize w i = l at hlike ⊢
  generalize v i = m at hlike ⊢
  cases hlike with
  | unborn => exact .unborn
  | alive hr => exact .alive hr
  | ended => exact .ended trivial

/-- **The programs of the two classes are the same**, and return the same. -/
theorem Mirrors.run (h : Mirrors C D R Q) {ops : List (Op κ τ υ)} {outs : List (Option ο)}
    (halike : Alike R Q w v) :
    (∀ w', Machine.Run (Objects.step C) (fun _ _ => True) w ops outs w' →
      ∃ v', Machine.Run (Objects.step D) (fun _ _ => True) v ops outs v' ∧ Alike R Q w' v') ∧
    ∀ v', Machine.Run (Objects.step D) (fun _ _ => True) v ops outs v' →
      ∃ w', Machine.Run (Objects.step C) (fun _ _ => True) w ops outs w' ∧ Alike R Q w' v' := by
  have himpl := h.implements
  refine ⟨fun w' hrun => ?_, fun v' hrun => himpl.run hrun halike⟩
  obtain ⟨v', hrun', -⟩ := h.implemented.run hrun halike.swap
  refine ⟨v', hrun', (hrun.lockstep ?_ hrun' halike).2⟩
  intro s t op o o' s' t' hst _ _ hstep hstep'
  obtain ⟨s'', hs'', hafter⟩ := himpl.step hst hstep'
  rw [hstep] at hs''
  cases hs''
  exact ⟨rfl, hafter⟩

end Simulation

end Objects
