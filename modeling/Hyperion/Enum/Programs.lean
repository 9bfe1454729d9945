/-
A program's values of variant types.

To a program that uses `Enum`s, each of them is a value and the index of its type, or none
where an exception was in the way: it is made of a value, copied, moved, assigned, looked at
by index, and matched, and the function given to `match` is called with the value there is, at
its type.  `Tagged` is that, with nothing of the union, of the lifetimes in it, or of the way
the index is found again at compile time.

An `Enum` does what a `Tagged` does where each variant's type is the first that can be made
of it and assigned from it, so that what is copied from a variant arrives as that variant.
A `Tagged` says nothing of an assignment operator that throws where its variant is alive.
Copies and moves from one `Enum` to another do not throw here: one that does ends the program,
because the function given to `call_with_index` is `noexcept`.  A program also ends where it
assigns from another `Enum` that holds none, whose index is none to call with.
-/
import Hyperion.Enum.Transfers

namespace Hyperion

open VariantTypes

variable {α β γ : Type} {SIZE : Nat} (V : VariantTypes α β SIZE)

/-- Copying or moving another `Enum`. -/
inductive Motion
  | copy
  | move

namespace Enum

/-! ### The member functions that look at a variant -/

/-- `is_variant<i>()` -/
def is_variant (e : Enum α) (i : Fin SIZE) : Bool := e.m_current_index == i.val

/-- `get<i>()`, which panics where that variant is not held -/
def get (e : Enum α) (i : Fin SIZE) : Option α := if e.is_variant i then e.value i else none

/-- `get_if<i>()`, and what it points to -/
def get_if (e : Enum α) (i : Fin SIZE) : Option (Option α) :=
  if e.is_variant i then (e.value i).map some else some none

/-- `match(function)`; `get_with_index` is `get`. -/
def match' (e : Enum α) (function : Fin SIZE → α → γ) : Option γ :=
  (call_with_index SIZE e.m_current_index).bind fun i => (e.get i).map (function i)

/-! ### Programs -/

/-- A call on an `Enum`. -/
inductive Use (α β γ : Type) (SIZE : Nat)
  | emplace (throws : Throws) (i : Fin SIZE) (arg : β) (v : α)
  | assign (throws : Throws) (arg : β) (v : α)
  | index
  | is_variant (i : Fin SIZE)
  | is_valueless
  | get (i : Fin SIZE)
  | get_if (i : Fin SIZE)
  | match' (function : Fin SIZE → α → γ)

/-- What it returns, or whether it throws. -/
inductive Reply (α γ : Type)
  | done (thrown : Bool)
  | index (n : Nat)
  | yes (b : Bool)
  | value (v : α)
  | pointer (target : Option α)
  | result (r : γ)
deriving DecidableEq

/-- A call; `none` where it panics. -/
def use (e : Enum α) : Use α β γ SIZE → Option (Reply α γ × Enum α)
  | .emplace throws i arg v => (emplace V e throws i arg v).map fun r => (.done r.1, r.2)
  | .assign throws arg v => (operator_assign V e throws arg v).map fun r => (.done r.1, r.2)
  | .index => some (.index e.m_current_index, e)
  | .is_variant i => some (.yes (e.is_variant i), e)
  | .is_valueless => some (.yes (e.is_valueless SIZE), e)
  | .get i => (e.get i).map fun v => (.value v, e)
  | .get_if i => (e.get_if i).map fun v => (.pointer v, e)
  | .match' function => (e.match' function).map fun r => (.result r, e)

/-- `Enum` among the values it is made of and the other ones. -/
def program :
    ObjectType (Enum α) (Throws × Source α β SIZE) Motion (Use α β γ SIZE) (Reply α γ) where
  construct k := (make V k.1 k.2).map Prod.snd
  construct_from
    | .copy, value => copy_construct V value
    | .move, value => move_construct V value
  assign_from
    | .copy, this, value => copy_assign V this value
    | .move, this, value => move_assign V this value
  assign_self _ e := some e
  call u e := use V e u
  destroy e := some (e.destruct SIZE)

end Enum

/-! ### What it is about -/

/-- A value of one of the types, or none. -/
abbrev Tagged (α : Type) (SIZE : Nat) : Type := Option (Fin SIZE × α)

namespace Tagged

open Enum

/-- What is thrown out of a `noexcept` function ends the program. -/
def leave (is_noexcept : Bool) (r : Bool × Tagged α SIZE) : Option (Bool × Tagged α SIZE) :=
  if r.1 && is_noexcept then none else some r

/-- A new value of variant `i`, or none where making it throws. -/
def tag (i : Fin SIZE) (v : α) (throws : Bool) : Bool × Tagged α SIZE :=
  if throws then (true, none) else (false, some (i, v))

/-- Made as variant `i`. -/
def made (throws : Throws) (i : Fin SIZE) (arg : β) (v : α) : Option (Bool × Tagged α SIZE) :=
  if V.constructible arg i then
    leave (V.construct_noexcept arg)
      (tag i (V.constructed arg i v) (throws.may V arg i).construct)
  else none

/-- Made of a value, of the variant whose type that value can be. -/
def make (throws : Throws) : Source α β SIZE → Option (Bool × Tagged α SIZE)
  | .default =>
      if h : 0 < SIZE then
        if V.default_constructible ⟨0, h⟩ then
          leave V.default_noexcept
            (tag ⟨0, h⟩ V.defaulted (throws.default && !V.nothrow_default_constructible ⟨0, h⟩))
        else none
      else none
  | .value arg v => (V.check_constructible arg).bind fun i => made V throws i arg v
  | .tag i arg v => made V throws i arg v

/-- What is left where it was copied or moved from. -/
def left : Motion → Tagged α SIZE → Tagged α SIZE
  | .copy, x => x
  | .move, x => x.map fun iv => (iv.1, V.left (V.reference .rvalue iv.1) iv.1 iv.2)

/--
The assignment of `v` to variant `i`, but for an assignment operator that throws where its
variant is alive.
-/
def assigned (x : Tagged α SIZE) (throws : Throws) (i : Fin SIZE) (arg : β) (v : α) :
    Option (Bool × Tagged α SIZE) :=
  if x.map Prod.fst = some i then
    if throws.assign then none else some (false, some (i, V.assigned arg i v))
  else if V.constructible arg i then some (tag i (V.constructed arg i v) throws.construct)
  else if V.default_constructible i then
    if throws.default then some (true, none)
    else if throws.assign then none
    else some (false, some (i, V.assigned arg i v))
  else none

/-- The value, where it is of variant `i`. -/
def at_variant (x : Tagged α SIZE) (i : Fin SIZE) : Option α :=
  x.bind fun iv => if iv.1 = i then some iv.2 else none

def use (x : Tagged α SIZE) : Use α β γ SIZE → Option (Reply α γ × Tagged α SIZE)
  | .emplace throws i arg v => (made V throws i arg v).map fun r => (.done r.1, r.2)
  | .assign throws arg v =>
      (V.check_assignable arg).bind fun i =>
        ((x.assigned V (throws.may V arg i) i arg v).bind (leave (V.assign_noexcept arg))).map
          fun r => (.done r.1, r.2)
  | .index => some (.index (x.elim SIZE fun iv => iv.1), x)
  | .is_variant i => some (.yes (x.map Prod.fst = some i), x)
  | .is_valueless => some (.yes x.isNone, x)
  | .get i => (x.at_variant i).map fun v => (.value v, x)
  | .get_if i => some (.pointer (x.at_variant i), x)
  | .match' function => x.map fun iv => (.result (function iv.1 iv.2), x)

/-- Assigning from none ends the program: it is no index to call with. -/
def program :
    ObjectType (Tagged α SIZE) (Throws × Source α β SIZE) Motion (Use α β γ SIZE) (Reply α γ)
    where
  construct k := (make V k.1 k.2).map Prod.snd
  construct_from t value := some (value, left V t value)
  assign_from t _ value := value.map fun iv => (some iv, left V t (some iv))
  assign_self _ x := some x
  call u x := use V x u
  destroy x := some x

end Tagged

namespace Enum

/-- Each variant is the first that can be constructed from a reference to it, and assigned. -/
structure Separate : Prop where
  constructs : ∀ c i, V.check_constructible (V.reference c i) = some i
  assigns : ∀ c i, V.check_assignable (V.reference c i) = some i

/-- The `Enum` has the variant and the value. -/
structure Holds (e : Enum α) (x : Tagged α SIZE) : Prop where
  sound : Sound SIZE e
  index : e.m_current_index = x.elim SIZE fun iv => iv.1
  value : ∀ i v, x = some (i, v) → e.value i = some v

namespace Holds

variable {V} {e : Enum α} {x : Tagged α SIZE}

/-- An `Enum` that holds variant `i`. -/
theorem some_iff {i : Fin SIZE} {v : α} : Holds e (some (i, v)) ↔
    Sound SIZE e ∧ e.m_current_index = i ∧ e.value i = some v := by
  constructor
  · intro h
    exact ⟨h.sound, h.index, h.value i v rfl⟩
  · rintro ⟨hsound, hindex, hvalue⟩
    refine ⟨hsound, hindex, fun j w hj => ?_⟩
    cases hj
    exact hvalue

theorem none_iff : Holds e (none : Tagged α SIZE) ↔ Sound SIZE e ∧ e.m_current_index = SIZE :=
  ⟨fun h => ⟨h.sound, h.index⟩, fun h => ⟨h.1, h.2, fun i v hv => by cases hv⟩⟩

/-- It is variant `i` that is held exactly where the value is of that variant. -/
theorem is_variant (h : Holds e x) (i : Fin SIZE) :
    e.is_variant i = decide (x.map Prod.fst = some i) := by
  unfold Enum.is_variant
  cases x with
  | none =>
      rw [(none_iff.mp h).2]
      refine (beq_eq_false_iff_ne.mpr (Nat.ne_of_gt i.isLt)).trans (decide_eq_false ?_).symm
      exact fun hi => by cases hi
  | some iv =>
      rw [h.index]
      show (iv.1.val == i.val) = decide (some iv.1 = some i)
      rw [Bool.eq_iff_iff, beq_iff_eq, decide_eq_true_iff, Option.some.injEq, Fin.ext_iff]

theorem get (h : Holds e x) (i : Fin SIZE) : e.get i = x.at_variant i := by
  unfold Enum.get
  rw [h.is_variant]
  cases x with
  | none => rfl
  | some iv =>
      obtain ⟨j, v⟩ := iv
      by_cases hj : j = i
      · subst hj
        simp [Tagged.at_variant, h.value j v rfl]
      · simp [Tagged.at_variant, hj]

theorem get_if (h : Holds e x) (i : Fin SIZE) : e.get_if i = some (x.at_variant i) := by
  unfold Enum.get_if
  rw [h.is_variant]
  cases x with
  | none => rfl
  | some iv =>
      obtain ⟨j, v⟩ := iv
      by_cases hj : j = i
      · subst hj
        simp [Tagged.at_variant, h.value j v rfl]
      · simp [Tagged.at_variant, hj]

/-- **`match` calls the function with the value there is, as the variant it is.** -/
theorem match' (h : Holds e x) (function : Fin SIZE → α → γ) :
    e.match' function = x.map fun iv => function iv.1 iv.2 := by
  unfold Enum.match'
  cases x with
  | none =>
      rw [(none_iff.mp h).2, call_with_index_valueless]
      rfl
  | some iv =>
      obtain ⟨i, v⟩ := iv
      rw [call_with_index_of_eq (i := i) h.index, Option.bind_some, h.get]
      simp [Tagged.at_variant]

/-- What is constructed is held. -/
theorem construct (h : Sound SIZE e) (i : Fin SIZE) (v : α) :
    Holds (e.construct SIZE i (some v) false).2 (some (i, v)) :=
  some_iff.mpr ⟨h.construct i (some v) false, construct_index e i (some v),
    construct_value e i (some v)⟩

/-- A variant that was copied from is as before. -/
theorem copied {i : Fin SIZE} {v : α} (h : Holds e (some (i, v))) :
    Holds { e with storage := e.storage.copyFrom i } (some (i, v)) := by
  obtain ⟨hsound, hindex, hvalue⟩ := some_iff.mp h
  have hkept := (hsound.one hindex).copyFrom i.isLt (decide_eq_true rfl)
  refine some_iff.mpr ⟨.of_one hindex hkept, hindex, ?_⟩
  show ((e.storage.copyFrom i).cell i).value = some v
  rw [Arena.copyFrom_cell]
  exact hvalue

/-- One that was moved from has what the move left. -/
theorem moved {i : Fin SIZE} {v : α} (h : Holds e (some (i, v))) (f : α → α) :
    Holds { e with storage := e.storage.moveFrom f i } (some (i, f v)) := by
  obtain ⟨hsound, hindex, hvalue⟩ := some_iff.mp h
  have hkept := (hsound.one hindex).moveFrom i.isLt (decide_eq_true rfl) f
  refine some_iff.mpr ⟨.of_one hindex hkept, hindex, ?_⟩
  show ((e.storage.moveFrom f i).cell i).value = some (f v)
  rw [Arena.moveFrom_cell, Function.update_self]
  show (e.value i).map f = some (f v)
  rw [hvalue]
  rfl

/-- Construction leaves the value, or none where it throws. -/
theorem construct_tag (h : Sound SIZE e) (i : Fin SIZE) (v : α) (throws : Bool) :
    (e.construct SIZE i (some v) throws).1 = (Tagged.tag i v throws).1 ∧
      Holds (e.construct SIZE i (some v) throws).2 (Tagged.tag i v throws).2 := by
  cases throws with
  | true => exact ⟨rfl, none_iff.mpr ⟨h.construct i (some v) true, rfl⟩⟩
  | false => exact ⟨rfl, Holds.construct h i v⟩

/-- **An assignment leaves what it leaves of the value.** -/
theorem assign (h : Holds e x) {throws : Throws} {i : Fin SIZE} {arg : β} {v : α}
    {q : Bool × Tagged α SIZE} (hq : x.assigned V throws i arg v = some q) :
    (assign V e i arg (some v) throws).1 = q.1 ∧
      Holds (assign V e i arg (some v) throws).2 q.2 := by
  have hheld : e.m_current_index = i ↔ x.map Prod.fst = some i := by
    have hsame := h.is_variant i
    unfold Enum.is_variant at hsame
    rw [← beq_iff_eq, hsame, decide_eq_true_iff]
  have hsound := (assign_sound_iff V h.sound i arg (some v) throws).mpr
  unfold Tagged.assigned at hq
  unfold Spared at hsound
  unfold Enum.assign at hsound ⊢
  by_cases hi : e.m_current_index = i
  · rw [if_pos (hheld.mp hi)] at hq
    rw [if_pos hi, if_neg (not_not_intro hi)] at hsound
    rw [if_neg (not_not_intro hi)]
    cases hassign : throws.assign with
    | true =>
        rw [hassign] at hq
        cases hq
    | false =>
        rw [hassign] at hq hsound
        cases hq
        exact ⟨rfl, some_iff.mpr ⟨hsound rfl, rfl, assign_member_value V e i arg (some v)⟩⟩
  · rw [if_neg (hi ∘ hheld.mpr)] at hq
    rw [if_neg hi, if_pos hi] at hsound
    rw [if_pos hi]
    dsimp only at hsound ⊢
    by_cases hc : V.constructible arg i = true
    · rw [if_pos hc] at hq
      rw [if_pos hc, if_pos hc] at hsound
      rw [if_pos hc]
      cases hq
      cases hconstruct : throws.construct with
      | true =>
          rw [hconstruct] at hsound
          exact ⟨rfl, none_iff.mpr ⟨hsound trivial, rfl⟩⟩
      | false =>
          rw [hconstruct] at hsound
          refine ⟨rfl, some_iff.mpr ⟨hsound trivial, rfl, ?_⟩⟩
          show ((Arena.construct _ _ _).cell i).value = _
          rw [Arena.construct_cell_born, Function.update_self]
          rfl
    · rw [if_neg hc] at hq
      rw [if_neg hc, if_neg hc] at hsound
      rw [if_neg hc]
      by_cases hd : V.default_constructible i = true
      · rw [if_pos hd] at hq
        rw [if_pos hd, if_pos hd] at hsound
        rw [if_pos hd]
        cases hdefault : throws.default with
        | true =>
            rw [hdefault] at hq hsound
            cases hq
            exact ⟨rfl, none_iff.mpr ⟨hsound (.inl rfl), rfl⟩⟩
        | false =>
            rw [hdefault] at hq hsound
            cases hassign : throws.assign with
            | true =>
                rw [hassign] at hq
                cases hq
            | false =>
                rw [hassign] at hq hsound
                cases hq
                exact ⟨rfl, some_iff.mpr ⟨hsound (.inr rfl), rfl,
                  assign_member_value V _ i arg (some v)⟩⟩
      · rw [if_neg hd] at hq
        cases hq

theorem is_valueless (h : Holds e x) : e.is_valueless SIZE = x.isNone := by
  unfold Enum.is_valueless
  rw [h.index]
  cases x with
  | none => exact beq_self_eq_true SIZE
  | some iv => exact beq_eq_false_iff_ne.mpr (Nat.ne_of_lt iv.1.isLt)

/-! ### What each function makes of it -/

/-- A function returns, throws, or ends the program for both. -/
theorem leave {is_noexcept : Bool} {r : Bool × Enum α} {p q : Bool × Tagged α SIZE}
    (hq : Tagged.leave is_noexcept p = some q) (hthrown : r.1 = p.1) (h : Holds r.2 p.2) :
    leave is_noexcept r = some r ∧ r.1 = q.1 ∧ Holds r.2 q.2 := by
  unfold Tagged.leave at hq
  unfold Enum.leave
  rw [hthrown]
  split at hq
  · cases hq
  · rename_i hreturns
    cases hq
    exact ⟨if_neg hreturns, rfl, h⟩

/-- `construct` from a value, where it compiles. -/
theorem construct_from (h : Sound SIZE e) {throws : Throws} {i : Fin SIZE} {arg : β} {v : α}
    {q : Bool × Tagged α SIZE} (hq : Tagged.made V throws i arg v = some q) :
    ∃ p, construct_from V e throws i arg v = some p ∧ p.1 = q.1 ∧ Holds p.2 q.2 := by
  unfold Tagged.made at hq
  unfold Enum.construct_from
  split at hq
  · rename_i hc
    rw [if_pos hc]
    obtain ⟨hthrown, hheld⟩ := Holds.construct_tag h i (V.constructed arg i v)
      (throws.may V arg i).construct
    exact ⟨_, Holds.leave hq hthrown hheld⟩
  · cases hq

theorem make {throws : Throws} {source : Source α β SIZE} {q : Bool × Tagged α SIZE}
    (hq : Tagged.make V throws source = some q) :
    ∃ p, make V throws source = some p ∧ p.1 = q.1 ∧ Holds p.2 q.2 := by
  cases source with
  | default =>
      simp only [Tagged.make] at hq
      split at hq
      · rename_i hpos
        split at hq
        · rename_i hd
          simp only [Enum.make, dif_pos hpos, construct_default, if_pos hd]
          obtain ⟨hthrown, hheld⟩ := Holds.construct_tag (sound_fresh SIZE) ⟨0, hpos⟩ V.defaulted
            (throws.default && !V.nothrow_default_constructible ⟨0, hpos⟩)
          exact ⟨_, Holds.leave hq hthrown hheld⟩
        · cases hq
      · cases hq
  | value arg v =>
      obtain ⟨i, hi, hq⟩ := Option.bind_eq_some_iff.mp hq
      obtain ⟨p, hp, hheld⟩ := Holds.construct_from (sound_fresh SIZE) hq
      refine ⟨p, ?_, hheld⟩
      simp only [Enum.make, hi, Option.bind_some]
      exact hp
  | tag i arg v => exact Holds.construct_from (sound_fresh SIZE) hq

theorem emplace (h : Holds e x) {throws : Throws} {i : Fin SIZE} {arg : β} {v : α}
    {q : Bool × Tagged α SIZE} (hq : Tagged.made V throws i arg v = some q) :
    ∃ p, emplace V e throws i arg v = some p ∧ p.1 = q.1 ∧ Holds p.2 q.2 := by
  unfold Enum.emplace
  rw [destruct_guarded]
  exact Holds.construct_from (Sound.of_none (destruct_index e) h.sound.destruct) hq

theorem operator_assign (h : Holds e x) {throws : Throws} {i : Fin SIZE} {arg : β} {v : α}
    {q : Bool × Tagged α SIZE} (hi : V.check_assignable arg = some i)
    (hq : (x.assigned V (throws.may V arg i) i arg v).bind
      (Tagged.leave (V.assign_noexcept arg)) = some q) :
    ∃ p, operator_assign V e throws arg v = some p ∧ p.1 = q.1 ∧ Holds p.2 q.2 := by
  obtain ⟨r, hr, hq⟩ := Option.bind_eq_some_iff.mp hq
  obtain ⟨hthrown, hheld⟩ := h.assign hr
  unfold Enum.operator_assign
  rw [hi, Option.bind_some]
  exact ⟨_, Holds.leave hq hthrown hheld⟩

/-! ### Copies and moves -/

/-- What is assigned from a variant is its value. -/
theorem assigned_reference (hseparate : Separate V) (x : Tagged α SIZE) (c : Category)
    (i : Fin SIZE) (v : α) :
    x.assigned V {} i (V.reference c i) v = some (false, some (i, v)) := by
  unfold Tagged.assigned
  split
  · rw [V.assigned_self]
    rfl
  · rw [if_pos (V.first_of_scan (hseparate.constructs c i)).here, V.constructed_self]
    rfl

theorem copy_construct (hseparate : Separate V) (h : Holds e x) :
    ∃ p, copy_construct V e = some p ∧ Holds p.1 x ∧ Holds p.2 (Tagged.left V .copy x) := by
  unfold Enum.copy_construct
  cases x with
  | none =>
      obtain ⟨hsound, hindex⟩ := none_iff.mp h
      rw [if_pos (valueless_iff.mpr hindex)]
      exact ⟨_, rfl, none_iff.mpr ⟨sound_fresh SIZE, rfl⟩, h⟩
  | some iv =>
      obtain ⟨i, v⟩ := iv
      obtain ⟨-, hindex, hvalue⟩ := some_iff.mp h
      rw [if_neg (not_valueless hindex), call_with_index_of_eq hindex, Option.bind_some]
      simp only [hseparate.constructs, Option.map_some, hvalue, V.constructed_self]
      exact ⟨_, rfl, Holds.construct (sound_fresh SIZE) i v, h.copied⟩

theorem move_construct (hseparate : Separate V) (h : Holds e x) :
    ∃ p, move_construct V e = some p ∧ Holds p.1 x ∧ Holds p.2 (Tagged.left V .move x) := by
  cases x with
  | none =>
      obtain ⟨hsound, hindex⟩ := none_iff.mp h
      unfold Enum.move_construct
      rw [if_pos (valueless_iff.mpr hindex)]
      exact ⟨_, rfl, none_iff.mpr ⟨sound_fresh SIZE, rfl⟩, h⟩
  | some iv =>
      obtain ⟨i, v⟩ := iv
      obtain ⟨-, hindex, hvalue⟩ := some_iff.mp h
      rw [move_construct_eq V hindex (hseparate.constructs .rvalue i), map_constructed, hvalue]
      exact ⟨_, rfl, Holds.construct (sound_fresh SIZE) i v, h.moved _⟩

theorem copy_assign (hseparate : Separate V) (h : Holds e x) {s : Enum α} {i : Fin SIZE} {v : α}
    (hs : Holds s (some (i, v))) :
    ∃ p, copy_assign V e s = some p ∧ Holds p.1 (some (i, v)) ∧
      Holds p.2 (Tagged.left V .copy (some (i, v))) := by
  obtain ⟨-, hindex, hvalue⟩ := some_iff.mp hs
  unfold Enum.copy_assign
  rw [call_with_index_of_eq hindex, Option.bind_some]
  simp only [hseparate.assigns, Option.map_some, hvalue]
  exact ⟨_, rfl, (h.assign (assigned_reference hseparate x .const_lvalue i v)).2, hs.copied⟩

/-- **A move assignment goes by way of an `Enum` that holds what was moved out.** -/
theorem move_assign (hseparate : Separate V) (h : Holds e x) {s : Enum α} {i : Fin SIZE} {v : α}
    (hs : Holds s (some (i, v))) :
    ∃ p, move_assign V e s = some p ∧ Holds p.1 (some (i, v)) ∧
      Holds p.2 (Tagged.left V .move (some (i, v))) := by
  obtain ⟨p, hp, hmoved, hleft⟩ := Holds.move_construct hseparate hs
  obtain ⟨-, hindex, -⟩ := some_iff.mp hs
  obtain ⟨-, hthere, hvalue⟩ := some_iff.mp hmoved
  unfold Enum.move_assign
  rw [hp, Option.bind_some, call_with_index_of_eq hindex, Option.bind_some,
    if_neg (not_not_intro hthere)]
  simp only [hseparate.assigns, Option.map_some, hvalue]
  exact ⟨_, rfl, (h.assign (assigned_reference hseparate x .const_rvalue i v)).2, hleft⟩

end Holds

/-! ### Every program -/

/-- A call returns the same, and leaves the same. -/
theorem Holds.use {e : Enum α} {x : Tagged α SIZE} (h : Holds e x)
    {u : Use α β γ SIZE} {q : Reply α γ × Tagged α SIZE} (hq : Tagged.use V x u = some q) :
    ∃ p, use V e u = some p ∧ p.1 = q.1 ∧ Holds p.2 q.2 := by
  cases u with
  | emplace throws i arg v =>
      obtain ⟨r, hr, rfl⟩ := Option.map_eq_some_iff.mp hq
      obtain ⟨p, hp, hthrown, hheld⟩ := h.emplace hr
      refine ⟨(.done p.1, p.2), ?_, congrArg Reply.done hthrown, hheld⟩
      simp only [Enum.use, hp, Option.map_some]
  | assign throws arg v =>
      obtain ⟨i, hi, hq⟩ := Option.bind_eq_some_iff.mp hq
      obtain ⟨r, hr, rfl⟩ := Option.map_eq_some_iff.mp hq
      obtain ⟨p, hp, hthrown, hheld⟩ := h.operator_assign hi hr
      refine ⟨(.done p.1, p.2), ?_, congrArg Reply.done hthrown, hheld⟩
      simp only [Enum.use, hp, Option.map_some]
  | index =>
      cases hq
      exact ⟨_, rfl, congrArg Reply.index h.index, h⟩
  | is_variant i =>
      cases hq
      exact ⟨_, rfl, congrArg Reply.yes (h.is_variant i), h⟩
  | is_valueless =>
      cases hq
      exact ⟨_, rfl, congrArg Reply.yes h.is_valueless, h⟩
  | get i =>
      obtain ⟨v, hv, rfl⟩ := Option.map_eq_some_iff.mp hq
      refine ⟨(.value v, e), ?_, rfl, h⟩
      simp only [Enum.use, h.get, hv, Option.map_some]
  | get_if i =>
      cases hq
      refine ⟨(.pointer (x.at_variant i), e), ?_, rfl, h⟩
      simp only [Enum.use, h.get_if, Option.map_some]
  | match' function =>
      obtain ⟨iv, rfl, rfl⟩ := Option.map_eq_some_iff.mp hq
      refine ⟨(.result (function iv.1 iv.2), e), ?_, rfl, h⟩
      simp only [Enum.use, h.match', Option.map_some]

/-- **An `Enum` of types that are not made of one another is a value of one of them.** -/
theorem implements (hseparate : Separate V) :
    Objects.Implements
      (program V : ObjectType (Enum α) _ _ (Use α β γ SIZE) (Reply α γ)) (Tagged.program V)
      Holds Gone := by
  refine ⟨?_, ?_, ?_, ?_, ?_, ?_⟩
  · intro k x hx
    obtain ⟨q, hq, rfl⟩ := Option.map_eq_some_iff.mp hx
    obtain ⟨p, hp, -, hheld⟩ := Holds.make hq
    exact ⟨p.2, congrArg (Option.map Prod.snd) hp, hheld⟩
  · intro t s y q h hq
    cases hq
    cases t with
    | copy => exact h.copy_construct hseparate
    | move => exact h.move_construct hseparate
  · intro t r s x y q hr hs hq
    obtain ⟨iv, rfl, rfl⟩ := Option.map_eq_some_iff.mp hq
    cases t with
    | copy => exact hr.copy_assign hseparate hs
    | move => exact hr.move_assign hseparate hs
  · intro t r x x' h hx
    cases hx
    exact ⟨r, rfl, h⟩
  · intro u r x q h hq
    exact h.use V hq
  · intro r x x' h _
    exact ⟨r.destruct SIZE, rfl, h.sound.destruct.misuse,
      h.sound.destruct.destroyed_once fun _ => rfl⟩

end Enum

end Hyperion
