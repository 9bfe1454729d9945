/-
What the ledger of an arena says.

Objects are numbered as they are constructed, `dead` lists the ones destroyed or
released, and each slot names the object alive in it.  Whatever a program does, no
object is destroyed twice, none is alive after its destruction and none is alive in two
slots.  As long as nothing was misused none is lost either: each object is dead or alive
somewhere.  An arena that was never misused and holds nothing at the end has therefore
destroyed, or released, each object constructed in it exactly once.
-/
import Hyperion.Lib.Arena
import Mathlib.Data.List.Count

namespace Arena

variable {α : Type} {a : Arena α}

/-! ### What each operation does to the ledger -/

@[simp] theorem touch_born (a : Arena α) (i b : Nat) : (a.touch i b).born = a.born := by
  unfold touch; split <;> rfl

@[simp] theorem touch_dead (a : Arena α) (i b : Nat) : (a.touch i b).dead = a.dead := by
  unfold touch; split <;> rfl

@[simp] theorem touch_misuse (a : Arena α) (i b : Nat) : (a.touch i b).misuse = a.misuse := by
  unfold touch; split <;> rfl

@[simp] theorem note_born (a : Arena α) (b : Bool) (m : Misuse) :
    (a.note b m).born = a.born := by
  unfold note; split <;> rfl

@[simp] theorem note_dead (a : Arena α) (b : Bool) (m : Misuse) :
    (a.note b m).dead = a.dead := by
  unfold note; split <;> rfl

theorem note_misuse (a : Arena α) (b : Bool) (m : Misuse) :
    (a.note b m).misuse = a.misuse ++ if b then [m] else [] := by
  unfold note; cases b <;> simp

@[simp] theorem construct_born (a : Arena α) (i : Nat) (v : Option α) :
    (a.construct i v).born = a.born + 1 := by simp [construct]

@[simp] theorem construct_dead (a : Arena α) (i : Nat) (v : Option α) :
    (a.construct i v).dead = a.dead := by simp [construct]

/-- The object constructed has the next number. -/
theorem construct_cell_born (a : Arena α) (i : Nat) (v : Option α) :
    (a.construct i v).cell = Function.update a.cell i ⟨v, some a.born⟩ := by simp [construct]

@[simp] theorem destroy_born (a : Arena α) (i : Nat) : (a.destroy i).born = a.born := by
  simp [destroy]

@[simp] theorem destroy_dead (a : Arena α) (i : Nat) :
    (a.destroy i).dead = a.dead ++ (a.cell i).object.toList := by simp [destroy]

@[simp] theorem release_born (a : Arena α) (i : Nat) : (a.release i).born = a.born := rfl

@[simp] theorem release_dead (a : Arena α) (i : Nat) :
    (a.release i).dead = a.dead ++ (a.cell i).object.toList := rfl

@[simp] theorem release_misuse (a : Arena α) (i : Nat) : (a.release i).misuse = a.misuse := rfl

/-! ### Which slots hold an object -/

@[simp] theorem construct_holds (a : Arena α) (i j : Nat) (v : Option α) :
    (a.construct i v).holds j = if j = i then true else a.holds j := by
  simp only [holds, construct_cell_born, Function.update_apply]
  split <;> rfl

@[simp] theorem destroy_holds (a : Arena α) (i j : Nat) :
    (a.destroy i).holds j = if j = i then false else a.holds j := by
  simp only [holds, destroy_cell, Function.update_apply]
  split <;> rfl

@[simp] theorem release_holds (a : Arena α) (i j : Nat) :
    (a.release i).holds j = if j = i then false else a.holds j := by
  simp only [holds, release_cell, Function.update_apply]
  split <;> rfl

@[simp] theorem assign_holds (a : Arena α) (i j : Nat) (v : Option α) :
    (a.assign i v).holds j = a.holds j := by
  simp only [holds, assign_cell, Function.update_apply]
  split
  · rename_i h; rw [h]
  · rfl

@[simp] theorem moveFrom_holds (f : α → α) (a : Arena α) (i j : Nat) :
    (a.moveFrom f i).holds j = a.holds j := by
  simp only [holds, moveFrom_cell, Function.update_apply]
  split
  · rename_i h; rw [h]
  · rfl

@[simp] theorem copyFrom_holds (a : Arena α) (i j : Nat) :
    (a.copyFrom i).holds j = a.holds j := by simp [holds]

/-! ### Operations on slots in the right state -/

theorem construct_misuse (h : a.holds i = false) (v : Option α) :
    (a.construct i v).misuse = a.misuse := by
  simp [construct, h]

theorem destroy_misuse (h : a.holds i = true) : (a.destroy i).misuse = a.misuse := by
  simp [destroy, h]

theorem assign_misuse (h : a.holds i = true) (v : Option α) :
    (a.assign i v).misuse = a.misuse := by
  simp [assign, h]

theorem moveFrom_misuse (f : α → α) (h : a.holds i = true) :
    (a.moveFrom f i).misuse = a.misuse := by
  simp [moveFrom, h]

theorem copyFrom_misuse (h : a.holds i = true) : (a.copyFrom i).misuse = a.misuse := by
  simp [copyFrom, h]

/-! ### Operations on slots in the wrong state -/

/-- What was misused stays on record. -/
theorem note_misuse_ne {b : Bool} (h : a.misuse ≠ [] ∨ b = true) (m : Misuse) :
    (a.note b m).misuse ≠ [] := by
  rw [note_misuse]
  intro hnil
  obtain ⟨hbefore, hone⟩ := List.append_eq_nil_iff.mp hnil
  rcases h with h | rfl
  · exact h hbefore
  · cases hone

theorem construct_misuse_ne (h : a.misuse ≠ [] ∨ a.holds i = true) (v : Option α) :
    (a.construct i v).misuse ≠ [] :=
  note_misuse_ne (a := a.touch i a.slots) (touch_misuse a i _ ▸ h) _

theorem assign_misuse_ne (h : a.misuse ≠ [] ∨ a.holds i = false) (v : Option α) :
    (a.assign i v).misuse ≠ [] :=
  note_misuse_ne (a := a.touch i a.slots)
    (touch_misuse a i _ ▸ h.imp_right fun hi => by rw [hi]; rfl) _

theorem copyFrom_misuse_ne (h : a.misuse ≠ [] ∨ a.holds i = false) :
    (a.copyFrom i).misuse ≠ [] :=
  note_misuse_ne (a := a.touch i a.slots)
    (touch_misuse a i _ ▸ h.imp_right fun hi => by rw [hi]; rfl) _

/-! ### The invariant -/

/-- What the ledger says, whatever was done to the slots. -/
structure Ledger (a : Arena α) : Prop where
  once : a.dead.Nodup
  dead_lt : ∀ x, x ∈ a.dead → x < a.born
  alive_lt : ∀ i x, (a.cell i).object = some x → x < a.born
  alive_not_dead : ∀ i x, (a.cell i).object = some x → x ∉ a.dead
  one_place : ∀ i j x, (a.cell i).object = some x → (a.cell j).object = some x → i = j
  none_lost : a.misuse = [] → ∀ x, x < a.born → x ∈ a.dead ∨ ∃ i, (a.cell i).object = some x

namespace Ledger

theorem fresh (n : Nat) : Ledger (Arena.fresh n : Arena α) := by
  refine ⟨List.nodup_nil, ?_, ?_, ?_, ?_, ?_⟩
  · intro x hx; cases hx
  · intro i x hx; cases hx
  · intro i x hx; cases hx
  · intro i j x hx; cases hx
  · intro _ x hx; exact absurd hx (Nat.not_lt_zero x)

/-- Operations that leave the objects where they are keep the ledger. -/
theorem same_objects (h : Ledger a) {b : Arena α} (hborn : b.born = a.born)
    (hdead : b.dead = a.dead) (hobject : ∀ i, (b.cell i).object = (a.cell i).object)
    (hmisuse : b.misuse = [] → a.misuse = []) : Ledger b := by
  refine ⟨?_, ?_, ?_, ?_, ?_, ?_⟩
  · rw [hdead]; exact h.once
  · rw [hdead, hborn]; exact h.dead_lt
  · intro i x; rw [hobject, hborn]; exact h.alive_lt i x
  · intro i x; rw [hobject, hdead]; exact h.alive_not_dead i x
  · intro i j x; rw [hobject, hobject]; exact h.one_place i j x
  · intro hnil x hx
    rw [hborn] at hx
    rcases h.none_lost (hmisuse hnil) x hx with hd | ⟨i, hi⟩
    · left; rw [hdead]; exact hd
    · right; exact ⟨i, by rw [hobject]; exact hi⟩

theorem touch (h : Ledger a) (i b : Nat) : Ledger (a.touch i b) :=
  h.same_objects (by simp) (by simp) (by simp) (by simp)

theorem note (h : Ledger a) (b : Bool) (m : Misuse) : Ledger (a.note b m) :=
  h.same_objects (by simp) (by simp) (by simp)
    (fun hnil => (List.append_eq_nil_iff.mp (note_misuse a b m ▸ hnil)).1)

theorem assign (h : Ledger a) (i : Nat) (v : Option α) : Ledger (a.assign i v) :=
  ((h.touch i a.slots).note (!a.holds i) (.assigned i)).same_objects rfl rfl
    (fun j => by
      rw [assign_cell, Function.update_apply]
      split
      · rename_i hj; rw [hj]; simp
      · simp)
    id

theorem moveFrom (h : Ledger a) (f : α → α) (i : Nat) : Ledger (a.moveFrom f i) :=
  ((h.touch i a.slots).note (!a.holds i) (.moved i)).same_objects rfl rfl
    (fun j => by
      rw [moveFrom_cell, Function.update_apply]
      split
      · rename_i hj; rw [hj]; simp
      · simp)
    id

theorem copyFrom (h : Ledger a) (i : Nat) : Ledger (a.copyFrom i) :=
  (h.touch i a.slots).note (!a.holds i) (.copied i)

/-- The new object has a number no other has; one it replaces is lost, which is misuse. -/
theorem construct (h : Ledger a) (i : Nat) (v : Option α) : Ledger (a.construct i v) := by
  have hcell : ∀ j x, ((a.construct i v).cell j).object = some x →
      (j = i ∧ x = a.born) ∨ (j ≠ i ∧ (a.cell j).object = some x) := by
    intro j x hx
    rw [construct_cell_born, Function.update_apply] at hx
    split at hx
    · exact .inl ⟨‹_›, (Option.some.inj hx).symm⟩
    · exact .inr ⟨‹_›, hx⟩
  refine ⟨?_, ?_, ?_, ?_, ?_, ?_⟩
  · rw [construct_dead]; exact h.once
  · intro x hx
    rw [construct_dead] at hx
    rw [construct_born]
    exact Nat.lt_succ_of_lt (h.dead_lt x hx)
  · intro j x hx
    rw [construct_born]
    rcases hcell j x hx with ⟨-, rfl⟩ | ⟨-, hx⟩
    · exact Nat.lt_succ_self _
    · exact Nat.lt_succ_of_lt (h.alive_lt j x hx)
  · intro j x hx hmem
    rw [construct_dead] at hmem
    rcases hcell j x hx with ⟨-, rfl⟩ | ⟨-, hx⟩
    · exact absurd (h.dead_lt _ hmem) (Nat.lt_irrefl _)
    · exact h.alive_not_dead j x hx hmem
  · intro j k x hj hk
    rcases hcell j x hj with ⟨hji, hx⟩ | ⟨-, hjx⟩ <;> rcases hcell k x hk with ⟨hki, hx'⟩ | ⟨-, hkx⟩
    · rw [hji, hki]
    · exact absurd (h.alive_lt k x hkx) (hx ▸ Nat.lt_irrefl _)
    · exact absurd (h.alive_lt j x hjx) (hx' ▸ Nat.lt_irrefl _)
    · exact h.one_place j k x hjx hkx
  · intro hnil x hx
    have hempty : a.holds i = false := by
      by_contra hholds
      rw [Bool.not_eq_false] at hholds
      simp [Arena.construct, Arena.note, hholds] at hnil
    rw [construct_misuse hempty] at hnil
    rw [construct_born] at hx
    rw [construct_dead]
    rcases Nat.lt_succ_iff_lt_or_eq.mp hx with hlt | rfl
    · rcases h.none_lost hnil x hlt with hd | ⟨j, hj⟩
      · exact .inl hd
      · refine .inr ⟨j, ?_⟩
        have hne : j ≠ i := by
          rintro rfl
          simp [holds, hj] at hempty
        rw [construct_cell_born, Function.update_of_ne hne]
        exact hj
    · exact .inr ⟨i, by rw [construct_cell_born, Function.update_self]⟩

/-- The object released goes from its slot to the list of the dead. -/
theorem release (h : Ledger a) (i : Nat) : Ledger (a.release i) := by
  have hcell : ∀ j x, ((a.release i).cell j).object = some x →
      j ≠ i ∧ (a.cell j).object = some x := by
    intro j x hx
    rw [release_cell, Function.update_apply] at hx
    split at hx
    · cases hx
    · exact ⟨‹_›, hx⟩
  have hdead : ∀ x, x ∈ (a.release i).dead ↔ x ∈ a.dead ∨ (a.cell i).object = some x := by
    intro x
    rw [release_dead, List.mem_append, Option.mem_toList]
  refine ⟨?_, ?_, ?_, ?_, ?_, ?_⟩
  · rw [release_dead]
    cases hobject : (a.cell i).object with
    | none => rw [Option.toList_none, List.append_nil]; exact h.once
    | some x =>
        refine h.once.append (List.nodup_singleton x) ?_
        intro y hy hyx
        rw [Option.toList_some, List.mem_singleton] at hyx
        exact h.alive_not_dead i x hobject (hyx ▸ hy)
  · intro x hx
    rw [release_born]
    rcases (hdead x).mp hx with hx | hx
    · exact h.dead_lt x hx
    · exact h.alive_lt i x hx
  · intro j x hx
    rw [release_born]
    exact h.alive_lt j x (hcell j x hx).2
  · intro j x hx hmem
    obtain ⟨hne, hx⟩ := hcell j x hx
    rcases (hdead x).mp hmem with hmem | hi
    · exact h.alive_not_dead j x hx hmem
    · exact hne (h.one_place j i x hx hi)
  · intro j k x hj hk
    exact h.one_place j k x (hcell j x hj).2 (hcell k x hk).2
  · intro hnil x hx
    rw [release_born] at hx
    rw [hdead]
    rcases h.none_lost hnil x hx with hd | ⟨j, hj⟩
    · exact .inl (.inl hd)
    · by_cases hji : j = i
      · exact .inl (.inr (hji ▸ hj))
      · exact .inr ⟨j, by rw [release_cell, Function.update_of_ne hji]; exact hj⟩

/-- Destroying an object is a note, and its release. -/
theorem destroy (h : Ledger a) (i : Nat) : Ledger (a.destroy i) :=
  ((h.touch i a.slots).note (!a.holds i) (.destroyed i)).release i

end Ledger

/-- Each object ever constructed here was destroyed, or released, exactly once. -/
def DestroyedOnce (a : Arena α) : Prop := ∀ x, x < a.born → a.dead.count x = 1

/-- **An arena that holds nothing and was never misused has destroyed each object once.** -/
theorem Ledger.destroyed_once (h : Ledger a) (hmisuse : a.misuse = [])
    (hnone : ∀ i, a.holds i = false) : DestroyedOnce a := by
  intro x hx
  rcases h.none_lost hmisuse x hx with hdead | ⟨i, hi⟩
  · exact List.count_eq_one_of_mem h.once hdead
  · have := hnone i
    simp [holds, hi] at this

/-- An object still alive was not destroyed. -/
theorem Ledger.not_destroyed_once (h : Ledger a) {i : Nat} (hi : a.holds i = true) :
    ¬ DestroyedOnce a := by
  obtain ⟨x, hx⟩ := Option.isSome_iff_exists.mp hi
  intro hall
  have hcount := hall x (h.alive_lt i x hx)
  rw [List.count_eq_zero_of_not_mem (h.alive_not_dead i x hx)] at hcount
  exact absurd hcount (by decide)

/-! ### Storage used properly -/

/--
Storage of `n` slots that was used properly so far, and in which the slots in `p` are
the ones that hold an object.
-/
structure Kept (n : Nat) (p : Nat → Bool) (a : Arena α) : Prop where
  ledger : Ledger a
  misuse : a.misuse = []
  bounds : InBounds n a
  holds : ∀ i, a.holds i = p i

namespace Kept

variable {n i : Nat} {p : Nat → Bool}

theorem fresh (n : Nat) : Kept n (fun _ => false) (Arena.fresh n : Arena α) :=
  ⟨.fresh n, rfl, ⟨rfl, rfl⟩, fun _ => rfl⟩

theorem congr (h : Kept n p a) {p' : Nat → Bool} (hp : ∀ i, p i = p' i) : Kept n p' a :=
  ⟨h.ledger, h.misuse, h.bounds, fun i => (h.holds i).trans (hp i)⟩

theorem construct (h : Kept n p a) (hi : i < n) (hp : p i = false) (v : Option α) :
    Kept n (Function.update p i true) (a.construct i v) := by
  refine ⟨h.ledger.construct i v, ?_, h.bounds.construct hi v, ?_⟩
  · rw [construct_misuse ((h.holds i).trans hp)]; exact h.misuse
  · intro j
    rw [construct_holds, Function.update_apply, h.holds]

theorem destroy (h : Kept n p a) (hi : i < n) (hp : p i = true) :
    Kept n (Function.update p i false) (a.destroy i) := by
  refine ⟨h.ledger.destroy i, ?_, h.bounds.destroy hi, ?_⟩
  · rw [destroy_misuse ((h.holds i).trans hp)]; exact h.misuse
  · intro j
    rw [destroy_holds, Function.update_apply, h.holds]

theorem release (h : Kept n p a) (i : Nat) :
    Kept n (Function.update p i false) (a.release i) := by
  refine ⟨h.ledger.release i, h.misuse, h.bounds.release i, ?_⟩
  intro j
  rw [release_holds, Function.update_apply, h.holds]

theorem assign (h : Kept n p a) (hi : i < n) (hp : p i = true) (v : Option α) :
    Kept n p (a.assign i v) := by
  refine ⟨h.ledger.assign i v, ?_, h.bounds.assign hi v, ?_⟩
  · rw [assign_misuse ((h.holds i).trans hp)]; exact h.misuse
  · intro j
    rw [assign_holds]; exact h.holds j

theorem moveFrom (h : Kept n p a) (hi : i < n) (hp : p i = true) (f : α → α) :
    Kept n p (a.moveFrom f i) := by
  refine ⟨h.ledger.moveFrom f i, ?_, h.bounds.moveFrom hi f, ?_⟩
  · rw [moveFrom_misuse f ((h.holds i).trans hp)]; exact h.misuse
  · intro j
    rw [moveFrom_holds]; exact h.holds j

theorem copyFrom (h : Kept n p a) (hi : i < n) (hp : p i = true) :
    Kept n p (a.copyFrom i) := by
  refine ⟨h.ledger.copyFrom i, ?_, h.bounds.copyFrom hi, ?_⟩
  · rw [copyFrom_misuse ((h.holds i).trans hp)]; exact h.misuse
  · intro j
    rw [copyFrom_holds]; exact h.holds j

/-- Copying an object leaves the storage as it is. -/
theorem copyFrom_eq (h : Kept n p a) (hi : i < n) (hp : p i = true) : a.copyFrom i = a := by
  rw [Arena.copyFrom, touch_of_lt (h.bounds.slots ▸ hi), h.holds, hp]
  rfl

/-- Empty storage has destroyed all it ever held. -/
theorem destroyed_once (h : Kept n p a) (hp : ∀ i, p i = false) : DestroyedOnce a :=
  h.ledger.destroyed_once h.misuse fun i => (h.holds i).trans (hp i)

/-- Storage in which something is alive has not. -/
theorem not_destroyed_once (h : Kept n p a) (hp : p i = true) : ¬ DestroyedOnce a :=
  h.ledger.not_destroyed_once ((h.holds i).trans hp)

end Kept

/-- Storage for one object, which is there or is not. -/
def Holding (a : Arena α) (occupied : Bool) : Prop :=
  Kept 1 (fun i => decide (i = 0) && occupied) a

namespace Holding

theorem fresh : Holding (Arena.fresh 1 : Arena α) false :=
  (Kept.fresh 1).congr fun _ => (Bool.and_false _).symm

theorem construct (h : Holding a false) (v : Option α) : Holding (a.construct 0 v) true := by
  refine (Kept.construct h Nat.one_pos rfl v).congr fun i => ?_
  rw [Function.update_apply]
  by_cases hi : i = 0
  · rw [if_pos hi, decide_eq_true hi]; rfl
  · rw [if_neg hi, decide_eq_false hi]; rfl

theorem destroy (h : Holding a true) : Holding (a.destroy 0) false := by
  refine (Kept.destroy h Nat.one_pos rfl).congr fun i => ?_
  rw [Function.update_apply]
  by_cases hi : i = 0
  · rw [if_pos hi, Bool.and_false]
  · rw [if_neg hi, decide_eq_false hi]; rfl

/-- Whether or not there was an object, there is none once the storage is released. -/
theorem release {occupied : Bool} (h : Holding a occupied) : Holding (a.release 0) false := by
  refine (Kept.release h 0).congr fun i => ?_
  rw [Function.update_apply]
  by_cases hi : i = 0
  · rw [if_pos hi, Bool.and_false]
  · rw [if_neg hi, decide_eq_false hi]; rfl

theorem assign (h : Holding a true) (v : Option α) : Holding (a.assign 0 v) true :=
  Kept.assign h Nat.one_pos rfl v

theorem moveFrom (h : Holding a true) (f : α → α) : Holding (a.moveFrom f 0) true :=
  Kept.moveFrom h Nat.one_pos rfl f

theorem copyFrom (h : Holding a true) : Holding (a.copyFrom 0) true :=
  Kept.copyFrom h Nat.one_pos rfl

theorem destroyed_once (h : Holding a false) : DestroyedOnce a :=
  Kept.destroyed_once h fun _ => Bool.and_false _

end Holding

end Arena
