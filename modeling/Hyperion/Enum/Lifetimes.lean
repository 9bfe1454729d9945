/-
Variants whose constructors and assignment operators throw.

Whatever throws in `construct` and `assign`, the index is set to `SIZE` on the way out.  That
is right where the old variant was destroyed and the new one never came to be, and wrong
where a variant is alive all the same: the one held, or one default constructed to be
assigned to.  Nobody destroys that one any more, and an index of `SIZE` says that there is
none.  Apart from this, an `Enum` is as its index says after every statement.
-/
import Hyperion.Enum.Basic

namespace Hyperion

/-- A function that is `noexcept` does not throw. -/
def Throws.may {α β : Type} {SIZE : Nat} (V : VariantTypes α β SIZE) (arg : β) (i : Fin SIZE)
    (throws : Throws) : Throws where
  construct := throws.construct && !V.nothrow_constructible arg i
  default := throws.default && !V.nothrow_default_constructible i
  assign := throws.assign && !V.nothrow_assignable arg i

namespace Enum

variable {α β : Type} {SIZE : Nat} (V : VariantTypes α β SIZE)

/-! ### The class -/

/-- How an `Enum` is constructed from a value. -/
inductive Source (α β : Type) (SIZE : Nat)
  | default
  | value (arg : β) (v : α)
  | tag (i : Fin SIZE) (arg : β) (v : α)

/-- What is done to an `Enum`. -/
inductive Change (α β : Type) (SIZE : Nat)
  | emplace (i : Fin SIZE) (arg : β) (v : α)
  | assign (arg : β) (v : α)

/-- What is thrown out of a `noexcept` function ends the program. -/
def leave (is_noexcept : Bool) (r : Bool × Enum α) : Option (Bool × Enum α) :=
  if r.1 && is_noexcept then none else some r

/-- `construct<Index, true>(arg)`, where it compiles -/
def construct_from (e : Enum α) (throws : Throws) (i : Fin SIZE) (arg : β) (v : α) :
    Option (Bool × Enum α) :=
  if V.constructible arg i then
    leave (V.construct_noexcept arg) (e.construct SIZE i (some (V.constructed arg i v))
      (throws.may V arg i).construct)
  else none

/-- `construct<Index, true>()`, where it compiles -/
def construct_default (e : Enum α) (throws : Throws) (i : Fin SIZE) : Option (Bool × Enum α) :=
  if V.default_constructible i then
    leave V.default_noexcept (e.construct SIZE i (some V.defaulted)
      (throws.default && !V.nothrow_default_constructible i))
  else none

/--
The constructors.  One that throws leaves no `Enum`, which is here one without a variant:
what is done to it is none of a program's, and does no harm.
-/
def make (throws : Throws) : Source α β SIZE → Option (Bool × Enum α)
  | .default => if h : 0 < SIZE then construct_default V (fresh SIZE) throws ⟨0, h⟩ else none
  | .value arg v =>
      (V.check_constructible arg).bind fun i => construct_from V (fresh SIZE) throws i arg v
  | .tag i arg v => construct_from V (fresh SIZE) throws i arg v

/-- `emplace<i>(arg)` -/
def emplace (e : Enum α) (throws : Throws) (i : Fin SIZE) (arg : β) (v : α) :
    Option (Bool × Enum α) :=
  construct_from V (if e.is_valueless SIZE then e else e.destruct SIZE) throws i arg v

/-- `operator=(arg)` of a value -/
def operator_assign (e : Enum α) (throws : Throws) (arg : β) (v : α) : Option (Bool × Enum α) :=
  (V.check_assignable arg).bind fun i =>
    leave (V.assign_noexcept arg) (assign V e i arg (some v) (throws.may V arg i))

def change (e : Enum α) (throws : Throws) : Change α β SIZE → Option (Bool × Enum α)
  | .emplace i arg v => emplace V e throws i arg v
  | .assign arg v => operator_assign V e throws arg v

/-- `Enum` among the values it is constructed from and assigned. -/
def type : ObjectType (Enum α) (Throws × Source α β SIZE) Empty (Throws × Change α β SIZE) Bool
    where
  construct k := (make V k.1 k.2).map Prod.snd
  construct_from t _ := nomatch t
  assign_from t _ _ := nomatch t
  assign_self t _ := nomatch t
  call u e := change V e u.1 u.2
  destroy e := some (e.destruct SIZE)

/-! ### The variant alive is the one the index says -/

/-- The variant at the index is alive, and no other, and nothing was done to one that is not. -/
structure Sound (SIZE : Nat) (e : Enum α) : Prop where
  index_le : e.m_current_index ≤ SIZE
  storage : e.storage.Kept SIZE fun i => decide (i < SIZE ∧ i = e.m_current_index)

/-- What is left when an `Enum` is gone. -/
def Gone (e : Enum α) : Prop := e.storage.misuse = [] ∧ e.storage.DestroyedOnce

@[simp] theorem set_index_index (e : Enum α) (index : Nat) :
    (e.set_index index).m_current_index = index := rfl

@[simp] theorem set_index_storage (e : Enum α) (index : Nat) :
    (e.set_index index).storage = e.storage := rfl

theorem valueless_iff {e : Enum α} : e.is_valueless SIZE = true ↔ e.m_current_index = SIZE := by
  rw [is_valueless, beq_iff_eq]

theorem destruct_of_valueless {e : Enum α} (h : e.m_current_index = SIZE) :
    e.destruct SIZE = e :=
  if_pos (valueless_iff.mpr h)

@[simp] theorem destruct_index (e : Enum α) : (e.destruct SIZE).m_current_index = SIZE := by
  unfold destruct
  split
  · rename_i h
    exact valueless_iff.mp h
  · rfl

/-- Destroying the variant where there is one, before another one is constructed. -/
theorem destruct_guarded (e : Enum α) :
    (if e.is_valueless SIZE then e else e.destruct SIZE) = e.destruct SIZE := by
  split
  · rename_i h
    rw [destruct_of_valueless (valueless_iff.mp h)]
  · rfl

theorem sound_fresh (SIZE : Nat) : Sound SIZE (fresh SIZE : Enum α) := by
  refine ⟨Nat.le_refl SIZE, (Arena.Kept.fresh SIZE).congr fun i => ?_⟩
  exact (decide_eq_false fun h => Nat.lt_irrefl _ (h.2 ▸ h.1)).symm

theorem Sound.destruct {e : Enum α} (h : Sound SIZE e) :
    (e.destruct SIZE).storage.Kept SIZE fun _ => false := by
  unfold Enum.destruct
  split
  · rename_i hvalueless
    have hindex := valueless_iff.mp hvalueless
    refine h.storage.congr fun i => decide_eq_false ?_
    rintro ⟨hlt, heq⟩
    omega
  · rename_i hvalueless
    have hlt : e.m_current_index < SIZE :=
      Nat.lt_of_le_of_ne h.index_le (hvalueless ∘ valueless_iff.mpr)
    refine (h.storage.destroy hlt (decide_eq_true ⟨hlt, rfl⟩)).congr fun i => ?_
    rw [Function.update_apply]
    split
    · rfl
    · rename_i hne
      exact decide_eq_false fun hi => hne hi.2

/-- Storage that holds nothing is as an index of `SIZE` says. -/
theorem Sound.of_none {e : Enum α} (hindex : e.m_current_index = SIZE)
    (h : e.storage.Kept SIZE fun _ => false) : Sound SIZE e := by
  refine ⟨Nat.le_of_eq hindex, h.congr fun i => (decide_eq_false ?_).symm⟩
  rintro ⟨hlt, heq⟩
  omega

/-- Storage that holds the variant at `i` only is as that index says. -/
theorem Sound.of_one {e : Enum α} {i : Fin SIZE} (hindex : e.m_current_index = i)
    (h : e.storage.Kept SIZE fun j => decide (j = i.val)) : Sound SIZE e := by
  refine ⟨hindex ▸ Nat.le_of_lt i.isLt, h.congr fun j => ?_⟩
  rw [hindex]
  exact decide_eq_decide.mpr ⟨fun hj => ⟨hj ▸ i.isLt, hj⟩, fun hj => hj.2⟩

theorem Sound.one {e : Enum α} (h : Sound SIZE e) {i : Fin SIZE}
    (hindex : e.m_current_index = i) : e.storage.Kept SIZE fun j => decide (j = i.val) := by
  refine h.storage.congr fun j => ?_
  rw [hindex]
  exact decide_eq_decide.mpr ⟨fun hj => hj.2, fun hj => ⟨hj ▸ i.isLt, hj⟩⟩

/-- Constructing in storage that holds nothing. -/
theorem kept_one {a : Arena α} (h : a.Kept SIZE fun _ => false) (i : Fin SIZE)
    (v : Option α) : (a.construct i v).Kept SIZE fun j => decide (j = i.val) := by
  refine (h.construct i.isLt rfl v).congr fun j => ?_
  rw [Function.update_apply]
  split
  · rename_i hj; exact (decide_eq_true hj).symm
  · rename_i hj; exact (decide_eq_false hj).symm

/-- **`construct` leaves the variant, or none where it throws.** -/
theorem Sound.construct {e : Enum α} (h : Sound SIZE e) (i : Fin SIZE) (v : Option α)
    (throws : Bool) : Sound SIZE (e.construct SIZE i v throws).2 := by
  unfold Enum.construct
  rw [destruct_guarded]
  cases throws with
  | true => exact .of_none rfl h.destruct
  | false => exact .of_one rfl (kept_one h.destruct i v)

/-- **Assigning to the variant alive leaves it behind where it throws.** -/
theorem assign_member_sound {e : Enum α} {i : Fin SIZE}
    (h : e.storage.Kept SIZE fun j => decide (j = i.val)) (arg : β) (v : Option α)
    (throws : Bool) : Sound SIZE (assign_member V e i arg v throws).2 ↔ throws = false := by
  have hkept := h.assign i.isLt (decide_eq_true rfl) (v.map (V.assigned arg i))
  cases throws with
  | true =>
      refine iff_of_false (fun hsound => ?_) (by decide)
      -- the variant at `i` is alive, and an index of `SIZE` says that it is not
      have hnone := (hkept.holds i).symm.trans (hsound.storage.holds i)
      rw [decide_eq_true rfl] at hnone
      exact Nat.lt_irrefl _ ((of_decide_eq_true hnone.symm).2 ▸ i.isLt)
  | false => exact iff_of_true (.of_one rfl hkept) rfl

/-- Assigning to a variant that is not alive is never right. -/
theorem assign_member_misuse {e : Enum α} {i : Fin SIZE} (h : e.storage.holds i = false)
    (arg : β) (v : Option α) (throws : Bool) :
    ¬ Sound SIZE (assign_member V e i arg v throws).2 := by
  intro hsound
  have hmisuse : (assign_member V e i arg v throws).2.storage
      = e.storage.assign i (v.map (V.assigned arg i)) := by
    cases throws <;> rfl
  have hnil := hsound.storage.misuse
  rw [hmisuse] at hnil
  simp only [Arena.assign, h, Bool.not_false, Arena.note_misuse, Arena.touch_misuse,
    if_true, List.append_eq_nil_iff, List.cons_ne_self, and_false] at hnil

/-! ### What an assignment may throw -/

/--
Nothing throws while a variant is alive that the assignment was to go to: neither the one
held, nor one default constructed for it because it cannot be constructed from the value.
-/
def Spared (e : Enum α) (i : Fin SIZE) (arg : β) (throws : Throws) : Prop :=
  if e.m_current_index = i then throws.assign = false
  else if V.constructible arg i then True
  else if V.default_constructible i then throws.default = true ∨ throws.assign = false
  else False

instance (e : Enum α) (i : Fin SIZE) (arg : β) (throws : Throws) :
    Decidable (Spared V e i arg throws) := by
  unfold Spared; infer_instance

/-- **What `assign` leaves is as its index says exactly if no such variant is alive.** -/
theorem assign_sound_iff {e : Enum α} (h : Sound SIZE e) (i : Fin SIZE) (arg : β)
    (v : Option α) (throws : Throws) :
    Sound SIZE (assign V e i arg v throws).2 ↔ Spared V e i arg throws := by
  unfold assign Spared
  by_cases hindex : e.m_current_index = i
  · rw [if_neg (not_not_intro hindex), if_pos hindex]
    exact assign_member_sound V (h.one hindex) arg v throws.assign
  · rw [if_pos hindex, if_neg hindex]
    have hnone := h.destruct
    by_cases hconstructible : V.constructible arg i = true
    · simp only [if_pos hconstructible]
      refine iff_of_true ?_ trivial
      split
      · exact .of_none rfl hnone
      · exact .of_one rfl (kept_one hnone i _)
    · simp only [if_neg hconstructible]
      by_cases hdefault : V.default_constructible i = true
      · simp only [if_pos hdefault]
        cases hthrows : throws.default with
        | true => exact iff_of_true (.of_none rfl hnone) (.inl rfl)
        | false =>
            rw [if_neg Bool.false_ne_true,
              assign_member_sound V (kept_one hnone i _) arg v throws.assign]
            exact ⟨.inr, fun hor => hor.resolve_left Bool.false_ne_true⟩
      · simp only [if_neg hdefault]
        exact iff_of_false (assign_member_misuse V (hnone.holds i) arg v throws.assign) id

/-! ### Every program -/

/-- The condition on a statement. -/
def spared : Objects.Guard (Enum α) (Throws × Source α β SIZE) Empty
    (Throws × Change α β SIZE) where
  call u e :=
    match u.2 with
    | .emplace _ _ _ => True
    | .assign arg _ => ∀ i ∈ V.check_assignable arg, Spared V e i arg (u.1.may V arg i)

theorem leave_eq {is_noexcept : Bool} {r p : Bool × Enum α}
    (h : leave is_noexcept r = some p) : r = p := by
  unfold leave at h
  split at h
  · cases h
  · exact Option.some.inj h

theorem Sound.construct_from {e : Enum α} (h : Sound SIZE e) {throws : Throws} {i : Fin SIZE}
    {arg : β} {v : α} {p : Bool × Enum α} (hp : construct_from V e throws i arg v = some p) :
    Sound SIZE p.2 := by
  unfold Enum.construct_from at hp
  split at hp
  · rw [← leave_eq hp]
    exact h.construct i _ _
  · cases hp

theorem sound_make {throws : Throws} {source : Source α β SIZE} {p : Bool × Enum α}
    (hp : make V throws source = some p) : Sound SIZE p.2 := by
  cases source with
  | default =>
      simp only [make] at hp
      split at hp
      · unfold construct_default at hp
        split at hp
        · rw [← leave_eq hp]
          exact (sound_fresh SIZE).construct _ _ _
        · cases hp
      · cases hp
  | value arg v =>
      obtain ⟨i, -, hp⟩ := Option.bind_eq_some_iff.mp hp
      exact (sound_fresh SIZE).construct_from V hp
  | tag i arg v => exact (sound_fresh SIZE).construct_from V hp

/-- **An `Enum` is as its index says exactly under the condition.** -/
theorem exactly_spared : Objects.Exactly (type V) (spared V) (Sound SIZE) Gone := by
  refine ⟨?_, (fun t => nomatch t), (fun t => nomatch t), (fun t => nomatch t), ?_, ?_⟩
  · intro k e h
    obtain ⟨p, hp, rfl⟩ := Option.map_eq_some_iff.mp h
    exact iff_of_true (sound_make V hp) trivial
  · rintro ⟨throws, change⟩ e p he h
    cases change with
    | emplace i arg v =>
        refine iff_of_true ?_ trivial
        replace h : emplace V e throws i arg v = some p := h
        unfold emplace at h
        rw [destruct_guarded] at h
        exact (Sound.of_none (destruct_index e) he.destruct).construct_from V h
    | assign arg v =>
        obtain ⟨i, hi, h⟩ := Option.bind_eq_some_iff.mp h
        rw [← leave_eq h, assign_sound_iff V he]
        show _ ↔ ∀ j ∈ V.check_assignable arg, Spared V e j arg (throws.may V arg j)
        rw [hi]
        simp only [Option.mem_some_iff, forall_eq']
  · intro e e' he h
    cases h
    exact iff_of_true ⟨he.destruct.misuse, he.destruct.destroyed_once fun _ => rfl⟩ trivial

/--
**Every `Enum` has the variant alive that its index names, and none at an index of `SIZE`,
and one that is gone has destroyed each variant once,** after every statement of exactly
those programs in which no assignment throws while a variant it was to go to is alive.
-/
theorem sound_throughout_iff {ops : List (Objects.Op (Throws × Source α β SIZE) Empty
      (Throws × Change α β SIZE))} {outs : List (Option Bool)} {w : Nat → Life (Enum α)}
    (hrun : Machine.Run (Objects.step (type V)) (fun _ _ => True) Objects.start ops outs w) :
    Machine.Run (Objects.step (type V)) (Machine.leadsTo (Objects.step (type V))
        (Objects.Each (Sound SIZE) Gone)) Objects.start ops outs w ↔
      Machine.Run (Objects.step (type V)) (spared V).admits Objects.start ops outs w :=
  (exactly_spared V).run hrun

instance (k : Throws × Source α β SIZE) : Decidable ((spared V).construct k) :=
  inferInstanceAs (Decidable True)

instance (t : Empty) (e : Enum α) : Decidable ((spared V).construct_from t e) :=
  inferInstanceAs (Decidable True)

instance (t : Empty) (e e' : Enum α) : Decidable ((spared V).assign_from t e e') :=
  inferInstanceAs (Decidable True)

instance (t : Empty) (e : Enum α) : Decidable ((spared V).assign_self t e) :=
  inferInstanceAs (Decidable True)

instance (u : Throws × Change α β SIZE) (e : Enum α) : Decidable ((spared V).call u e) :=
  match u with
  | (_, .emplace _ _ _) => inferInstanceAs (Decidable True)
  | (throws, .assign arg _) =>
      inferInstanceAs (Decidable (∀ i ∈ V.check_assignable arg,
        Spared V e i arg (throws.may V arg i)))

instance (e : Enum α) : Decidable ((spared V).destroy e) := inferInstanceAs (Decidable True)

/-- A constructor throws in an assignment, and what is left is emplaced in and destroyed. -/
theorem sound_throughout_thrown : ∃ (outs : List (Option Bool)) (w : Nat → Life (Enum Nat)),
    Machine.Run (Objects.step (type (.unrelated 2)))
      (Machine.leadsTo (Objects.step (type (.unrelated 2))) (Objects.Each (Sound 2) Gone))
      Objects.start
      [.construct 0 ({}, .tag 0 (.rvalue, 0) 5),
        .call 0 ({ construct := true }, .assign (.rvalue, 1) 6),
        .call 0 ({}, .emplace 0 (.rvalue, 0) 7), .destroy 0] outs w := by
  obtain ⟨s, outs, w, hs, hrun, -⟩ := Machine.exists_run
    (Objects.step (type (.unrelated 2))) (spared (.unrelated 2)).admits (some Objects.start)
    [.construct 0 ({}, .tag 0 (.rvalue, 0) 5),
      .call 0 ({ construct := true }, .assign (.rvalue, 1) 6),
      .call 0 ({}, .emplace 0 (.rvalue, 0) 7), .destroy 0]
    (fun _ => true) (by decide)
  cases hs
  exact ⟨outs, w, (sound_throughout_iff (.unrelated 2) hrun.any).mpr hrun⟩

/-- An assignment operator that throws leaves its variant alive, with an index of `SIZE`. -/
theorem assignment_leaks : ¬ ∀ (ops : List (Objects.Op
      (Throws × Source Nat (Category × Fin 2) 2) Empty
      (Throws × Change Nat (Category × Fin 2) 2))) (outs : List (Option Bool))
    (w : Nat → Life (Enum Nat)),
    Machine.Run (Objects.step (type (.unrelated 2))) (fun _ _ => True) Objects.start ops outs
      w →
    Objects.Each (Sound 2) Gone w := by
  intro hclaim
  obtain ⟨s, outs, w, hs, hrun, hget⟩ := Machine.exists_run
    (Objects.step (type (.unrelated 2))) (fun _ _ => True) (some Objects.start)
    [.construct 0 ({}, .tag 0 (.rvalue, 0) 5),
      .call 0 ({ assign := true }, .assign (.rvalue, 0) 6)]
    (fun r => (Objects.get r.2 0).any fun e => e.m_current_index == 2 && e.storage.holds 0)
    (by decide)
  cases hs
  obtain ⟨e, he, hheld⟩ := (Option.any_eq_true _ _).mp hget
  rw [Bool.and_eq_true, beq_iff_eq] at hheld
  have hholds := ((hclaim _ _ _ hrun).get he).storage.holds 0
  rw [hheld.1, hheld.2] at hholds
  exact absurd hholds (by decide)

end Enum

end Hyperion
