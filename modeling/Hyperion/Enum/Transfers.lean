/-
Copying and moving one `Enum` to another.

Which variant the target gets is decided by the type of the reference to the source's, and
is the first that can be made of it: another one than the source's where one before that can
be made of it too.  The assignments look at no index of `SIZE` first, and assign to a variant
that is not alive where it can be neither copied nor made of nothing.
-/
import Mathlib.Algebra.Group.Nat.Defs
import Hyperion.Enum.Lifetimes

namespace Hyperion

namespace VariantTypes

variable {α β : Type} {SIZE : Nat} (V : VariantTypes α β SIZE)

/-! ### Which variant is found -/

/-- What `scan` finds is the first there is. -/
theorem find_of_scan {found : Fin SIZE → Bool} {l : List (Fin SIZE)} {i : Fin SIZE}
    (h : V.scan found l = some i) : l.find? found = some i := by
  induction l with
  | nil => cases h
  | cons j rest ih =>
      unfold scan at h
      cases hfound : found j with
      | true =>
          rw [if_pos hfound] at h
          rw [List.find?_cons_of_pos hfound]
          exact h
      | false =>
          rw [if_neg (Bool.eq_false_iff.mp hfound)] at h
          rw [List.find?_cons_of_neg (Bool.eq_false_iff.mp hfound)]
          split at h
          · cases h
          · split at h
            · cases h
            · exact ih h

/-- `i` is found, and none before it. -/
structure First (found : Fin SIZE → Bool) (i : Fin SIZE) : Prop where
  here : found i = true
  before : ∀ j < i, found j = false

theorem First.unique {found : Fin SIZE → Bool} {i j : Fin SIZE} (hi : First found i)
    (hj : First found j) : i = j := by
  rcases lt_trichotomy i j with h | h | h
  · exact absurd hi.here (Bool.eq_false_iff.mp (hj.before i h))
  · exact h
  · exact absurd hj.here (Bool.eq_false_iff.mp (hi.before j h))

theorem First.eq_iff {found : Fin SIZE → Bool} {i j : Fin SIZE} (hj : First found j) :
    j = i ↔ First found i :=
  ⟨fun h => h ▸ hj, hj.unique⟩

theorem first_of_scan {found : Fin SIZE → Bool} {i : Fin SIZE}
    (h : V.scan found (List.finRange SIZE) = some i) : First found i := by
  obtain ⟨hfound, k, hk, hki, hbefore⟩ :=
    List.find?_eq_some_iff_getElem.mp (V.find_of_scan h)
  rw [List.getElem_finRange] at hki
  refine ⟨hfound, fun j hj => ?_⟩
  have hjk : j.val < k := by
    rw [← hki] at hj
    exact hj
  have hnot := hbefore j.val hjk
  rwa [List.getElem_finRange, Bool.not_eq_true'] at hnot

end VariantTypes

namespace Enum

open VariantTypes

variable {α β : Type} {SIZE : Nat} (V : VariantTypes α β SIZE)

/-! ### The four operations -/

/-- What makes an `Enum` of another one, or gives it to one there is. -/
inductive Transfer (α : Type)
  | copy_construct
  | move_construct
  | copy_assign (target : Enum α)
  | move_assign (target : Enum α)
  | assign_self

/-- The target afterwards, and the source. -/
def transfer (value : Enum α) : Transfer α → Option (Enum α × Enum α)
  | .copy_construct => copy_construct V value
  | .move_construct => move_construct V value
  | .copy_assign target => copy_assign V target value
  | .move_assign target => move_assign V target value
  | .assign_self => some (value, value)

/-- The constructor from another `Enum` compiles, as far as a reference to any variant goes. -/
def ConstructorCompiles (category : Category) : Prop :=
  ∀ i, V.constructible (V.reference category i) i = true ∧
    (V.check_constructible (V.reference category i)).isSome = true

/-- So does the assignment, where `check_assignable` finds a variant for each of them. -/
def AssignmentCompiles (category : Category) : Prop :=
  ∀ i, (V.check_assignable (V.reference category i)).isSome = true

/-- The operation compiles. -/
def Compiles : Transfer α → Prop
  | .copy_construct => ConstructorCompiles V .const_lvalue
  | .move_construct => ConstructorCompiles V .rvalue
  | .copy_assign _ => (∀ i, V.copy_assignable i = true) ∧ AssignmentCompiles V .const_lvalue
  | .move_assign _ => ConstructorCompiles V .rvalue ∧ AssignmentCompiles V .const_rvalue
  | .assign_self => True

/-- The `Enum` the operation is given to, where there is one. -/
def Transfer.TargetSound (SIZE : Nat) : Transfer α → Prop
  | .copy_assign target | .move_assign target => Sound SIZE target
  | .copy_construct | .move_construct | .assign_self => True

/-- The target has the index of the source and the value of its variant, or no variant too. -/
def Received (SIZE : Nat) (value : Enum α) (r : Option (Enum α × Enum α)) : Prop :=
  ∃ target source, r = some (target, source) ∧ Sound SIZE target ∧
    target.m_current_index = value.m_current_index ∧
    ∀ i : Fin SIZE, value.m_current_index = i → target.value i = value.value i

/-- An assignment to `i` finds a variant alive, or makes one. -/
def Ready (target : Enum α) (i : Fin SIZE) (arg : β) : Prop :=
  target.m_current_index = i ∨ V.constructible arg i = true ∨ V.default_constructible i = true

/-- No variant before the source's can be constructed from a reference to it. -/
def ConstructsSame (category : Category) (i : Fin SIZE) : Prop :=
  ∀ j < i, V.constructible (V.reference category i) j = false

/-- The source's variant is the first that can be assigned from a reference to it. -/
def AssignsSame (category : Category) (target : Enum α) (i : Fin SIZE) : Prop :=
  First (V.assignable (V.reference category i)) i ∧ Ready V target i (V.reference category i)

/-- The condition on the types, and on what the source and the target hold. -/
def Preserving (value : Enum α) : Transfer α → Prop
  | .copy_construct =>
      ∀ i : Fin SIZE, value.m_current_index = i → ConstructsSame V .const_lvalue i
  | .move_construct => ∀ i : Fin SIZE, value.m_current_index = i → ConstructsSame V .rvalue i
  | .copy_assign target =>
      ∃ i : Fin SIZE, value.m_current_index = i ∧ AssignsSame V .const_lvalue target i
  | .move_assign target =>
      ∃ i : Fin SIZE, value.m_current_index = i ∧ ConstructsSame V .rvalue i ∧
        AssignsSame V .const_rvalue target i
  | .assign_self => True

/-! ### What they leave -/

/-- A sound `Enum` has a variant, or an index of `SIZE`. -/
theorem Sound.cases {value : Enum α} (h : Sound SIZE value) :
    value.m_current_index = SIZE ∨ ∃ i : Fin SIZE, value.m_current_index = i := by
  rcases Nat.lt_or_eq_of_le h.index_le with hlt | heq
  · exact .inr ⟨⟨_, hlt⟩, rfl⟩
  · exact .inl heq

theorem call_with_index_of_eq {index : Nat} {i : Fin SIZE} (h : index = i) :
    call_with_index SIZE index = some i := by
  subst h
  exact dif_pos i.isLt

theorem call_with_index_valueless : call_with_index SIZE SIZE = none :=
  dif_neg (Nat.lt_irrefl SIZE)

/-- A target that is sound under a condition, with variant `j`. -/
theorem received_iff {value target source : Enum α} {i j : Fin SIZE} {S : Prop}
    (hi : value.m_current_index = i) (hindex : target.m_current_index = j)
    (hsound : Sound SIZE target ↔ S) (hvalue : j = i → target.value i = value.value i) :
    Received SIZE value (some (target, source)) ↔ j = i ∧ S := by
  constructor
  · rintro ⟨t, s, heq, ht, hsame, -⟩
    cases heq
    exact ⟨Fin.ext (hindex.symm.trans (hsame.trans hi)), hsound.mp ht⟩
  · rintro ⟨rfl, hS⟩
    refine ⟨target, source, rfl, hsound.mpr hS, hindex.trans hi.symm, fun k hk => ?_⟩
    rw [← Fin.ext (hi.symm.trans hk)]
    exact hvalue rfl

/-- A value constructed from a reference to a variant of its type is the same. -/
theorem map_constructed (category : Category) (i : Fin SIZE) (v : Option α) :
    v.map (V.constructed (V.reference category i) i) = v := by
  cases v with
  | none => rfl
  | some v => exact congrArg some (V.constructed_self category i v)

theorem map_assigned (category : Category) (i : Fin SIZE) (v : Option α) :
    v.map (V.assigned (V.reference category i) i) = v := by
  cases v with
  | none => rfl
  | some v => exact congrArg some (V.assigned_self category i v)

theorem construct_index (e : Enum α) (i : Fin SIZE) (v : Option α) :
    (e.construct SIZE i v false).2.m_current_index = i := rfl

/-- What `construct` constructs is read back. -/
theorem construct_value (e : Enum α) (i : Fin SIZE) (v : Option α) :
    (e.construct SIZE i v false).2.value i = v := by
  show ((Arena.construct _ _ v).cell i).value = v
  rw [Arena.construct_cell_born, Function.update_self]

theorem assign_member_value (e : Enum α) (i : Fin SIZE) (arg : β) (v : Option α) :
    (assign_member V e i arg v false).2.value i = v.map (V.assigned arg i) := by
  show ((Arena.assign _ _ _).cell i).value = _
  rw [Arena.assign_cell, Function.update_self]

theorem assign_index (e : Enum α) (i : Fin SIZE) (arg : β) (v : Option α) :
    (assign V e i arg v {}).2.m_current_index = i := by
  unfold assign
  split
  · dsimp only
    split
    · rfl
    · split <;> rfl
  · rfl

/-- **What was assigned from a reference to a variant is read back there.** -/
theorem assign_value (e : Enum α) (category : Category) (i : Fin SIZE) (v : Option α) :
    (assign V e i (V.reference category i) v {}).2.value i = v := by
  have hmember : ∀ e : Enum α,
      (assign_member V e i (V.reference category i) v false).2.value i = v := fun e =>
    (assign_member_value V e i _ v).trans (map_assigned V category i v)
  unfold assign
  split
  · dsimp only
    split
    · rw [map_constructed]
      show ((Arena.construct _ _ v).cell i).value = v
      rw [Arena.construct_cell_born, Function.update_self]
    · split
      · exact hmember _
      · exact hmember _
  · exact hmember e

/-- Without exceptions, an assignment is right where a variant is ready for it. -/
theorem spared_iff_ready (target : Enum α) (i : Fin SIZE) (arg : β) :
    Spared V target i arg {} ↔ Ready V target i arg := by
  unfold Spared Ready
  split
  · rename_i h
    exact iff_of_true rfl (.inl h)
  · rename_i hindex
    split
    · rename_i h
      exact iff_of_true trivial (.inr (.inl h))
    · rename_i hconstructible
      split
      · rename_i h
        exact iff_of_true (.inr rfl) (.inr (.inr h))
      · rename_i hdefault
        exact iff_of_false id fun h => h.elim hindex fun h => h.elim hconstructible hdefault

/-! ### Each of them -/

theorem constructs_same_iff {category : Category} (hcompiles : ConstructorCompiles V category)
    {i j : Fin SIZE} (hj : V.check_constructible (V.reference category i) = some j) :
    j = i ↔ ConstructsSame V category i :=
  (V.first_of_scan hj).eq_iff.trans ⟨First.before, fun h => ⟨(hcompiles i).1, h⟩⟩

/-- What a constructor leaves where the source has a variant. -/
theorem constructed_iff {value source : Enum α} {category : Category} {i j : Fin SIZE}
    (hcompiles : ConstructorCompiles V category) (hi : value.m_current_index = i)
    (hj : V.check_constructible (V.reference category i) = some j) :
    Received SIZE value (some (((fresh SIZE).construct SIZE j
        ((value.value i).map (V.constructed (V.reference category i) j)) false).2, source)) ↔
      ConstructsSame V category i := by
  rw [received_iff (S := True) hi rfl
    (iff_of_true ((sound_fresh SIZE).construct j _ false) trivial), and_true]
  · exact constructs_same_iff V hcompiles hj
  · rintro rfl
    rw [construct_value]
    exact map_constructed V category j (value.value j)

/-- A valueless target from a valueless source. -/
theorem received_valueless {value source : Enum α} (h : value.m_current_index = SIZE) :
    Received SIZE value (some (fresh SIZE, source)) := by
  refine ⟨fresh SIZE, source, rfl, sound_fresh SIZE, h.symm, fun i hi => ?_⟩
  exact absurd (hi.symm.trans h) (Nat.ne_of_lt i.isLt)

theorem not_valueless {value : Enum α} {i : Fin SIZE} (hi : value.m_current_index = i) :
    ¬ value.is_valueless SIZE = true := fun h =>
  Nat.ne_of_lt i.isLt (hi.symm.trans (valueless_iff.mp h))

theorem copy_construct_iff {value : Enum α} (hvalue : Sound SIZE value)
    (hcompiles : ConstructorCompiles V .const_lvalue) :
    Received SIZE value (copy_construct V value) ↔
      ∀ i : Fin SIZE, value.m_current_index = i → ConstructsSame V .const_lvalue i := by
  unfold copy_construct
  rcases hvalue.cases with hnone | ⟨i, hi⟩
  · rw [if_pos (valueless_iff.mpr hnone)]
    refine iff_of_true (received_valueless hnone) fun i hi => ?_
    exact absurd (hi.symm.trans hnone) (Nat.ne_of_lt i.isLt)
  · obtain ⟨j, hj⟩ := Option.isSome_iff_exists.mp (hcompiles i).2
    rw [if_neg (not_valueless hi), call_with_index_of_eq hi, Option.bind_some]
    simp only [hj, Option.map_some]
    rw [constructed_iff V hcompiles hi hj]
    exact ⟨fun h k hk => Fin.ext (hi.symm.trans hk) ▸ h, fun h => h i hi⟩

/-- What `Enum(Enum&& value)` is where the source has a variant. -/
theorem move_construct_eq {value : Enum α} {i j : Fin SIZE} (hi : value.m_current_index = i)
    (hj : V.check_constructible (V.reference .rvalue i) = some j) :
    move_construct V value = some (((fresh SIZE).construct SIZE j
        ((value.value i).map (V.constructed (V.reference .rvalue i) j)) false).2,
      { value with storage := value.storage.moveFrom (V.left (V.reference .rvalue i) j) i }) := by
  unfold move_construct
  rw [if_neg (not_valueless hi), call_with_index_of_eq hi, Option.bind_some]
  simp only [hj, Option.map_some]

theorem move_construct_iff {value : Enum α} (hvalue : Sound SIZE value)
    (hcompiles : ConstructorCompiles V .rvalue) :
    Received SIZE value (move_construct V value) ↔
      ∀ i : Fin SIZE, value.m_current_index = i → ConstructsSame V .rvalue i := by
  rcases hvalue.cases with hnone | ⟨i, hi⟩
  · unfold move_construct
    rw [if_pos (valueless_iff.mpr hnone)]
    refine iff_of_true (received_valueless hnone) fun i hi => ?_
    exact absurd (hi.symm.trans hnone) (Nat.ne_of_lt i.isLt)
  · obtain ⟨j, hj⟩ := Option.isSome_iff_exists.mp (hcompiles i).2
    rw [move_construct_eq V hi hj, constructed_iff V hcompiles hi hj]
    exact ⟨fun h k hk => Fin.ext (hi.symm.trans hk) ▸ h, fun h => h i hi⟩

/-- What an assignment of the source's value leaves. -/
theorem assigned_iff {value target source : Enum α} {category : Category} {i j : Fin SIZE}
    (htarget : Sound SIZE target) (hi : value.m_current_index = i)
    (hj : V.check_assignable (V.reference category i) = some j) :
    Received SIZE value (some ((assign V target j (V.reference category i) (value.value i)
        {}).2, source)) ↔ AssignsSame V category target i := by
  rw [received_iff hi (assign_index V target j _ _)
    ((assign_sound_iff V htarget j _ _ {}).trans (spared_iff_ready V target j _))]
  · rw [AssignsSame, ← (V.first_of_scan hj).eq_iff]
    exact and_congr_right fun h => h ▸ Iff.rfl
  · rintro rfl
    exact assign_value V target category j _

theorem copy_assign_iff {value target : Enum α} (hvalue : Sound SIZE value)
    (htarget : Sound SIZE target) (hcompiles : AssignmentCompiles V .const_lvalue) :
    Received SIZE value (copy_assign V target value) ↔
      ∃ i : Fin SIZE, value.m_current_index = i ∧ AssignsSame V .const_lvalue target i := by
  unfold copy_assign
  rcases hvalue.cases with hnone | ⟨i, hi⟩
  · rw [hnone, call_with_index_valueless, Option.bind_none]
    refine iff_of_false (fun h => ?_) (fun h => ?_)
    · obtain ⟨target, source, heq, -⟩ := h
      cases heq
    · obtain ⟨i, hi, -⟩ := h
      exact Nat.ne_of_lt i.isLt hi.symm
  · obtain ⟨j, hj⟩ := Option.isSome_iff_exists.mp (hcompiles i)
    rw [call_with_index_of_eq hi, Option.bind_some]
    simp only [hj, Option.map_some]
    rw [assigned_iff V htarget hi hj]
    refine ⟨fun h => ⟨i, hi, h⟩, fun h => ?_⟩
    obtain ⟨k, hk, h⟩ := h
    exact Fin.ext (hi.symm.trans hk) ▸ h

theorem move_assign_iff {value target : Enum α} (hvalue : Sound SIZE value)
    (htarget : Sound SIZE target) (hconstructor : ConstructorCompiles V .rvalue)
    (hcompiles : AssignmentCompiles V .const_rvalue) :
    Received SIZE value (move_assign V target value) ↔
      ∃ i : Fin SIZE, value.m_current_index = i ∧ ConstructsSame V .rvalue i ∧
        AssignsSame V .const_rvalue target i := by
  have hnone_left : ¬ Received SIZE value none := by
    rintro ⟨target, source, heq, -⟩
    cases heq
  unfold move_assign
  rcases hvalue.cases with hnone | ⟨i, hi⟩
  · rw [hnone, call_with_index_valueless]
    simp only [Option.bind_none, Option.bind_fun_none]
    refine iff_of_false hnone_left fun h => ?_
    obtain ⟨i, hi, -⟩ := h
    exact Nat.ne_of_lt i.isLt hi.symm
  · have hone : (∃ k : Fin SIZE, value.m_current_index = k ∧ ConstructsSame V .rvalue k ∧
        AssignsSame V .const_rvalue target k) ↔
        ConstructsSame V .rvalue i ∧ AssignsSame V .const_rvalue target i := by
      refine ⟨fun h => ?_, fun h => ⟨i, hi, h⟩⟩
      obtain ⟨k, hk, h⟩ := h
      exact Fin.ext (hi.symm.trans hk) ▸ h
    obtain ⟨j, hj⟩ := Option.isSome_iff_exists.mp (hconstructor i).2
    obtain ⟨k, hk⟩ := Option.isSome_iff_exists.mp (hcompiles i)
    have hsame := constructs_same_iff V hconstructor hj
    rw [hone, move_construct_eq V hi hj, Option.bind_some, call_with_index_of_eq hi,
      Option.bind_some]
    by_cases hji : j = i
    · subst hji
      simp only [construct_index, ne_eq, not_true_eq_false, if_false, hk, Option.map_some,
        construct_value, map_constructed]
      rw [assigned_iff V htarget hi hk, and_iff_right (hsame.mp rfl)]
    · have hne : j.val ≠ i.val := hji ∘ Fin.ext
      simp only [construct_index, ne_eq, hne, not_false_eq_true, if_true]
      exact iff_of_false hnone_left fun h => hji (hsame.mpr h.1)

/-! ### All of them -/

/--
**Copying and moving an `Enum` gives the target the source's variant and its value**, where
the operation compiles, exactly if no variant before the source's can be made of a reference
to it; for an assignment, if besides the source has a variant and the target's is alive when
it is assigned to.
-/
theorem received_transfer_iff {value : Enum α} (op : Transfer α) (hvalue : Sound SIZE value)
    (htarget : op.TargetSound SIZE) (hcompiles : Compiles V op) :
    Received SIZE value (transfer V value op) ↔ Preserving V value op := by
  cases op with
  | copy_construct => exact copy_construct_iff V hvalue hcompiles
  | move_construct => exact move_construct_iff V hvalue hcompiles
  | copy_assign target => exact copy_assign_iff V hvalue htarget hcompiles.2
  | move_assign target => exact move_assign_iff V hvalue htarget hcompiles.1 hcompiles.2
  | assign_self => exact iff_of_true ⟨value, value, rfl, hvalue, rfl, fun _ _ => rfl⟩ trivial

/-- Of two classes that have nothing to do with each other, the second is copy-assigned. -/
theorem received_unrelated :
    Received 2 ((fresh 2).construct 2 1 (some 5) false).2
      (transfer (.unrelated 2) ((fresh 2).construct 2 1 (some 5) false).2
        (.copy_assign ((fresh 2).construct 2 0 (some 6) false).2)) := by
  have hassignment : AssignmentCompiles (.unrelated 2) .const_lvalue := by
    unfold AssignmentCompiles
    decide
  exact (received_transfer_iff (.unrelated 2) (.copy_assign _)
    ((sound_fresh 2).construct 1 (some 5) false) ((sound_fresh 2).construct 0 (some 6) false)
    ⟨fun _ => rfl, hassignment⟩).mpr ⟨1, rfl, ⟨rfl, by decide⟩, .inr (.inl rfl)⟩

end Enum

/-- `u32` and `u64`, which are constructed from each other, and are not assigned to as rvalues. -/
def VariantTypes.u32_u64 : VariantTypes Nat (Category × Fin 2) 2 where
  is_none _ := false
  constructible _ _ := true
  nothrow_constructible _ _ := true
  constructed arg i v := if arg.2 = i then v else if i.val = 0 then v % 2 ^ 32 else v
  left _ _ v := v
  assignable _ _ := false
  nothrow_assignable _ _ := false
  assigned _ _ v := v
  default_constructible _ := true
  nothrow_default_constructible _ := true
  defaulted := 0
  copy_assignable _ := true
  reference category i := (category, i)
  constructed_self _ _ _ := if_pos rfl
  assigned_self _ _ _ := rfl

namespace Enum

/-- The copy of an `Enum<u32, u64>` that holds a `u64` holds a `u32`. -/
theorem narrowed_copy : ¬ ∀ (α β : Type) (SIZE : Nat) (V : VariantTypes α β SIZE)
    (value : Enum α) (op : Transfer α), Sound SIZE value → op.TargetSound SIZE →
    Compiles V op → Received SIZE value (transfer V value op) := by
  intro hclaim
  obtain ⟨target, source, heq, -, hindex, -⟩ := hclaim Nat (Category × Fin 2) 2 .u32_u64
    ((fresh 2).construct 2 1 (some 5) false).2 .copy_construct
    ((sound_fresh 2).construct 1 _ false) trivial (fun i => ⟨rfl, by revert i; decide⟩)
  have hcopied := congrArg (Option.map fun p : Enum Nat × Enum Nat => p.1.m_current_index) heq
  rw [Option.map_some, hindex] at hcopied
  exact absurd hcopied (by decide)

end Enum

end Hyperion
