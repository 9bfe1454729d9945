/-
A move consumes its source.

What the programs of constructions and moves are for is said by an abstract machine
that knows nothing of unions and tags: each outcome is given to one object, and a
move hands it on.  The results follow it exactly as long as `ResultData(None())` is
the disengaged storage.  For a `T` that is `option::None` itself it is an Ok, so the
source of every move ends up holding one nobody gave it.
-/
import Hyperion.Result.Basic

namespace Hyperion

namespace ResultData

variable {α ε : Type} (T : ResultType α ε)

@[simp] theorem value_empty : (empty : ResultData α ε).value = none := rfl

@[simp] theorem value_of_ok (v : Option (α ⊕ ε)) : (of_ok v).value = v := by
  rw [value, of_ok, Arena.construct_cell_born, Function.update_self]

@[simp] theorem value_of_err (v : Option (α ⊕ ε)) : (of_err v).value = v := by
  rw [value, of_err, Arena.construct_cell_born, Function.update_self]

theorem assign_ok_spec (data : ResultData α ε) (t : Option (α ⊕ ε)) :
    (data.assign_ok T t).m_active = .Ok ∧ (data.assign_ok T t).value = t := by
  unfold assign_ok value
  split
  · exact ⟨rfl, by simp⟩
  · exact ⟨rfl, by simp [Arena.construct_cell_born]⟩

theorem assign_err_spec (data : ResultData α ε) (e : Option (α ⊕ ε)) :
    (data.assign_err T e).m_active = .Err ∧ (data.assign_err T e).value = e := by
  unfold assign_err value
  split
  · exact ⟨rfl, by simp⟩
  · exact ⟨rfl, by simp [Arena.construct_cell_born]⟩

/-- What a result holds, read through its tag. -/
def variant (data : ResultData α ε) : Option (Variant α ε) :=
  match data.m_active, data.value with
  | .None, _ => some .empty
  | .Ok, some (.inl v) => some (.ok v)
  | .Err, some (.inr e) => some (.err e)
  | _, _ => none

theorem variant_of_none {data : ResultData α ε} (h : data.m_active = .None) :
    data.variant = some .empty := by
  rw [variant, h]

theorem variant_congr {data data' : ResultData α ε} (hactive : data.m_active = data'.m_active)
    (hvalue : data.value = data'.value) : data.variant = data'.variant := by
  rw [variant, variant, hactive, hvalue]

theorem has_ok_iff {data : ResultData α ε} {v : Variant α ε} (h : data.variant = some v) :
    data.has_ok = true ↔ ∃ a, v = .ok a := by
  rw [has_ok, decide_eq_true_iff]
  unfold variant at h
  split at h
  · rename_i hactive; cases h; simp [hactive]
  · rename_i hactive _; cases h; simp [hactive]
  · rename_i hactive _; cases h; simp [hactive]
  · cases h

theorem has_err_iff {data : ResultData α ε} {v : Variant α ε} (h : data.variant = some v) :
    data.has_err = true ↔ ∃ e, v = .err e := by
  rw [has_err, decide_eq_true_iff]
  unfold variant at h
  split at h
  · rename_i hactive; cases h; simp [hactive]
  · rename_i hactive _; cases h; simp [hactive]
  · rename_i hactive _; cases h; simp [hactive]
  · cases h

/-- The new object takes tag and payload, the other one is left without a tag. -/
theorem move_spec (data : ResultData α ε) :
    (data.move T).1.variant = data.variant ∧ (data.move T).2.m_active = .None := by
  unfold move
  split
  · rename_i h
    exact ⟨variant_congr h.symm (value_of_ok _), rfl⟩
  · rename_i h
    exact ⟨variant_congr h.symm (value_of_err _), rfl⟩
  · rename_i h
    exact ⟨variant_of_none h ▸ rfl, rfl⟩

theorem assign_move_spec (target data : ResultData α ε) :
    (target.assign_move T data).1.variant = data.variant ∧
      (target.assign_move T data).2.m_active = .None := by
  unfold assign_move
  split
  · rename_i h
    obtain ⟨hactive, hvalue⟩ := target.assign_ok_spec T data.value
    exact ⟨variant_congr (hactive.trans h.symm) hvalue, rfl⟩
  · rename_i h
    obtain ⟨hactive, hvalue⟩ := target.assign_err_spec T data.value
    exact ⟨variant_congr (hactive.trans h.symm) hvalue, rfl⟩
  · rename_i h
    exact ⟨variant_of_none h ▸ rfl, h⟩

end ResultData

namespace Result

variable {α ε γ : Type} {T : ResultType α ε}

/-- A result holds what it was constructed as. -/
theorem construct_variant (v : Variant α ε) : (construct v).variant = some v := by
  cases v <;> simp [construct, ResultData.variant, ResultData.empty, ResultData.of_ok,
    ResultData.of_err, ResultData.value, Arena.construct_cell_born]

/-- Where `None()` is no payload, disengaging leaves a result without a tag as it is. -/
theorem disengage_eq (hnone : T.none_as_ok = none) {r : Result α ε} (h : r.m_active = .None) :
    disengage T r = r := by
  have hdata : r.toResultData.destroy_active T = r.toResultData := by
    rw [ResultData.destroy_active, h]
  rw [disengage, ResultData.of_none, hnone]
  show { r with toResultData := { r.toResultData.destroy_active T with m_active := .None } } = r
  rw [hdata, ← h]

/-- Where it is one, the source becomes an Ok. -/
theorem disengage_ok {v : α} (hnone : T.none_as_ok = some v) (r : Result α ε) :
    (disengage T r).m_active = .Ok := by
  rw [disengage, ResultData.of_none, hnone]
  exact (r.toResultData.assign_ok_spec T (ResultData.of_ok (some (.inl v))).value).1

theorem move_construct_variant (hnone : T.none_as_ok = none) (r : Result α ε) :
    (r.move_construct T).1.variant = r.variant ∧
      (r.move_construct T).2.variant = some .empty := by
  obtain ⟨hvariant, hactive⟩ := r.toResultData.move_spec T
  refine ⟨hvariant, ?_⟩
  have hsource : (r.move_construct T).2 = ⟨(r.toResultData.move T).2, true⟩ :=
    disengage_eq hnone hactive
  rw [hsource]
  exact ResultData.variant_of_none hactive

theorem move_assign_variant (hnone : T.none_as_ok = none) (target r : Result α ε) :
    (target.move_assign T r).1.variant = r.variant ∧
      (target.move_assign T r).2.variant = some .empty := by
  obtain ⟨hvariant, hactive⟩ := target.toResultData.assign_move_spec T r.toResultData
  refine ⟨hvariant, ?_⟩
  have hsource : (target.move_assign T r).2
      = ⟨(target.toResultData.assign_move T r.toResultData).2, true⟩ :=
    disengage_eq hnone hactive
  rw [hsource]
  exact ResultData.variant_of_none hactive

/-! ### Outcomes and their owners -/

/-- The outcomes given so far, and which of them each object holds. -/
structure Owners (α ε : Type) where
  outcomes : List (Variant α ε)
  held : Nat → Option Nat

namespace Owners

/-- Nobody holds anything. -/
def none : Owners α ε := ⟨[], fun _ => .none⟩

/-- What an object holds. -/
def outcome (o : Owners α ε) (i : Nat) : Variant α ε :=
  match o.held i with
  | .none => .empty
  | .some k => o.outcomes.getD k .empty

/-- `j` takes what `i` holds. -/
def pass (o : Owners α ε) (j i : Nat) : Owners α ε :=
  { o with held := Function.update (Function.update o.held i .none) j (o.held i) }

/-- A construction gives an outcome, a move hands one on. -/
def step (o : Owners α ε) : Objects.Op (Variant α ε) Transfer (Call α ε γ) → Owners α ε
  | .construct j .empty => { o with held := Function.update o.held j .none }
  | .construct j v =>
      ⟨o.outcomes ++ [v], Function.update o.held j (some o.outcomes.length)⟩
  | .construct_from j i _ => o.pass j i
  | .assign_from j i _ => if j = i then o else o.pass j i
  | .call _ _ | .destroy _ => o

end Owners

/-- Constructions and moves. -/
def OnlyMoves : Objects.Op (Variant α ε) Transfer (Call α ε γ) → Prop
  | .construct _ _ | .construct_from _ _ .move | .assign_from _ _ .move => True
  | _ => False

/-- What the abstract machine promises of the objects and of itself. -/
structure Owned (w : Nat → Life (Result α ε)) (o : Owners α ε) : Prop where
  holds : ∀ i r, Objects.get w i = some r → r.variant = some (o.outcome i)
  given : ∀ i k, o.held i = some k → k < o.outcomes.length
  one_owner : ∀ i j k, o.held i = some k → o.held j = some k → i = j

namespace Owned

variable {w : Nat → Life (Result α ε)} {o : Owners α ε}

theorem start : Owned (Objects.start : Nat → Life (Result α ε)) Owners.none :=
  ⟨fun _ _ h => (by cases h), fun _ _ h => (by cases h), fun _ _ _ h => (by cases h)⟩

/-- An object constructed without an outcome holds none. -/
theorem put_empty (h : Owned w o) {j : Nat} {r : Result α ε} (hr : r.variant = some .empty) :
    Owned (Objects.put w j r) { o with held := Function.update o.held j none } := by
  refine ⟨?_, ?_, ?_⟩
  · intro i s hs
    rw [Objects.get_put] at hs
    simp only [Owners.outcome, Function.update_apply]
    split at hs
    · rename_i hi
      rw [if_pos hi, ← Option.some.inj hs]
      exact hr
    · rename_i hi
      rw [if_neg hi]
      exact h.holds i s hs
  · intro i k hk
    simp only [Function.update_apply] at hk
    split at hk
    · cases hk
    · exact h.given i k hk
  · intro i i' k hi hi'
    simp only [Function.update_apply] at hi hi'
    split at hi
    · cases hi
    · split at hi'
      · cases hi'
      · exact h.one_owner i i' k hi hi'

/-- An object constructed with a new outcome is its only owner. -/
theorem put_new (h : Owned w o) {j : Nat} {r : Result α ε} {v : Variant α ε}
    (hr : r.variant = some v) :
    Owned (Objects.put w j r)
      ⟨o.outcomes ++ [v], Function.update o.held j (some o.outcomes.length)⟩ := by
  have hheld : ∀ x, (⟨o.outcomes ++ [v], Function.update o.held j (some o.outcomes.length)⟩ :
      Owners α ε).held x = if x = j then some o.outcomes.length else o.held x := by
    intro x
    simp only [Function.update_apply]
  refine ⟨?_, ?_, ?_⟩
  · intro i s hs
    rw [Objects.get_put] at hs
    rw [Owners.outcome, hheld]
    split at hs
    · rename_i hi
      rw [if_pos hi, ← Option.some.inj hs, hr]
      simp
    · rename_i hi
      rw [if_neg hi, h.holds i s hs, Owners.outcome]
      cases hk : o.held i with
      | none => rfl
      | some k =>
          show some (o.outcomes.getD k .empty) = some ((o.outcomes ++ [v]).getD k .empty)
          rw [List.getD_eq_getElem?_getD, List.getD_eq_getElem?_getD,
            List.getElem?_append_left (h.given i k hk)]
  · intro i k hk
    rw [hheld] at hk
    rw [List.length_append, List.length_singleton]
    split at hk
    · cases hk; exact Nat.lt_succ_self _
    · exact Nat.lt_succ_of_lt (h.given i k hk)
  · intro i i' k hi hi'
    rw [hheld] at hi hi'
    split at hi <;> split at hi'
    · rename_i hij hij'
      rw [hij, hij']
    · cases hi
      exact absurd (h.given i' _ hi') (Nat.lt_irrefl _)
    · cases hi'
      exact absurd (h.given i _ hi) (Nat.lt_irrefl _)
    · exact h.one_owner i i' k hi hi'

/-- After a move between two objects the target owns what the source did. -/
theorem pass (h : Owned w o) {j i : Nat} {r s s' : Result α ε}
    (hs : Objects.get w i = some s) (hr : r.variant = s.variant)
    (hs' : s'.variant = some .empty) :
    Owned (Objects.put (Objects.put w i s') j r) (o.pass j i) := by
  have hheld : ∀ x, (o.pass j i).held x
      = if x = j then o.held i else if x = i then none else o.held x := by
    intro x
    simp only [Owners.pass, Function.update_apply]
  refine ⟨?_, ?_, ?_⟩
  · intro x t ht
    rw [Objects.get_put, Objects.get_put] at ht
    rw [Owners.outcome, hheld]
    split at ht
    · rename_i hx
      rw [if_pos hx, ← Option.some.inj ht, hr, h.holds i s hs]
      rfl
    · rename_i hx
      rw [if_neg hx]
      split at ht
      · rename_i hxi
        rw [if_pos hxi, ← Option.some.inj ht]
        exact hs'
      · rename_i hxi
        rw [if_neg hxi]
        exact h.holds x t ht
  · intro x k hk
    rw [hheld] at hk
    split at hk
    · exact h.given i k hk
    · split at hk
      · cases hk
      · exact h.given x k hk
  · intro x y k hx hy
    rw [hheld] at hx hy
    split at hx <;> split at hy
    · rename_i hxj hyj
      rw [hxj, hyj]
    · split at hy
      · cases hy
      · rename_i hyi
        exact absurd (h.one_owner y i k hy hx) hyi
    · split at hx
      · cases hx
      · rename_i hxi
        exact absurd (h.one_owner x i k hx hy) hxi
    · split at hx
      · cases hx
      · split at hy
        · cases hy
        · exact h.one_owner x y k hx hy

/-- **One construction or move.** -/
theorem step (hnone : T.none_as_ok = none) (h : Owned w o)
    {op : Objects.Op (Variant α ε) Transfer (Call α ε γ)} (hop : OnlyMoves op)
    {out : Option (Output α ε γ)} {w' : Nat → Life (Result α ε)}
    (hstep : Objects.step (object_type T) w op = some (out, w')) : Owned w' (o.step op) := by
  cases Objects.steps_of_step hstep with
  | @construct j v r hfree hr =>
      cases hr
      cases v with
      | empty => exact h.put_empty (construct_variant .empty)
      | ok a => exact h.put_new (construct_variant (.ok a))
      | err e => exact h.put_new (construct_variant (.err e))
  | @construct_from j i t s p hfree hs hp =>
      cases t with
      | copy => exact absurd hop id
      | move =>
          cases hp
          obtain ⟨hnew, hsource⟩ := move_construct_variant hnone s
          exact h.pass hs hnew hsource
  | @assign_self i t r r' hr hr' =>
      cases t with
      | copy => exact absurd hop id
      | move =>
          cases hr'
          have hput : Objects.put w i r = w := by
            rw [Objects.put, ← Objects.get_eq hr, Function.update_eq_self]
          rw [Owners.step, if_pos rfl, hput]
          exact h
  | @assign_from j i t r s p hji hr hs hp =>
      cases t with
      | copy => exact absurd hop id
      | move =>
          cases hp
          rw [Owners.step, if_neg hji]
          obtain ⟨htarget, hsource⟩ := move_assign_variant hnone r s
          exact h.pass hs htarget hsource
  | call hr hp => exact absurd hop id
  | destroy hr hr' => exact absurd hop id

end Owned

/--
Every object holds and reports exactly the outcome it owns, and no outcome has two
owners.
-/
structure Follows (w : Nat → Life (Result α ε)) (o : Owners α ε) : Prop where
  holds : ∀ i r, Objects.get w i = some r → r.variant = some (o.outcome i)
  reports_ok : ∀ i r, Objects.get w i = some r → (r.is_ok.1 = true ↔ ∃ v, o.outcome i = .ok v)
  reports_err : ∀ i r, Objects.get w i = some r →
    (r.is_err.1 = true ↔ ∃ e, o.outcome i = .err e)
  one_owner : ∀ i j k, o.held i = some k → o.held j = some k → i = j

theorem Owned.follows {w : Nat → Life (Result α ε)} {o : Owners α ε} (h : Owned w o) :
    Follows w o := by
  refine ⟨h.holds, ?_, ?_, h.one_owner⟩
  · intro i r hr
    rw [← ResultData.has_ok_iff (h.holds i r hr)]
    rfl
  · intro i r hr
    rw [← ResultData.has_err_iff (h.holds i r hr)]
    rfl

/--
**A move consumes its source**, in every sequence of constructions and moves among any
number of results, exactly when `None()` is no value of `T`.
-/
theorem moves_consume_iff (T : ResultType α ε) :
    (∀ (ops : List (Objects.Op (Variant α ε) Transfer (Call α ε γ))) outs w,
      Machine.Run (Objects.step (object_type T)) (fun _ op => OnlyMoves op) Objects.start
        ops outs w → Follows w (ops.foldl Owners.step Owners.none))
      ↔ T.none_as_ok = none := by
  constructor
  · intro hall
    cases hok : T.none_as_ok with
    | none => rfl
    | some v =>
        -- an Ok moved from object 0 to object 1
        have hfirst : Objects.step (object_type T) Objects.start (.construct 0 (.ok v))
            = some ((none : Option (Output α ε γ)),
              Objects.put Objects.start 0 (construct (.ok v))) := rfl
        have hsecond := hall [.construct 0 (.ok v), .construct_from 1 0 .move] _ _
          (Machine.Run.cons trivial hfirst (Machine.Run.single trivial rfl))
        have hsource := hsecond.reports_ok 0 _ rfl
        have hempty := hsource.mp (decide_eq_true (disengage_ok hok _))
        obtain ⟨a, ha⟩ := hempty
        cases ha
  · intro hnone ops outs w hrun
    exact (hrun.follows (fun _ _ _ _ _ h hop hstep => h.step hnone hop hstep)
      Owned.start).follows

/-- Moving the Ok of a `Result<None, E>` leaves an Ok behind. -/
theorem moved_none_is_ok : ¬ ∀ (T : ResultType Unit Nat)
    (ops : List (Objects.Op (Variant Unit Nat) Transfer (Call Unit Nat Nat))) outs w,
    Machine.Run (Objects.step (object_type T)) (fun _ op => OnlyMoves op) Objects.start
      ops outs w → Follows w (ops.foldl Owners.step Owners.none) := by
  intro hclaim
  have hfirst : Objects.step (object_type ResultType.of_none) Objects.start
      (.construct 0 (.ok ())) = some ((none : Option (Output Unit Nat Nat)),
        Objects.put Objects.start 0 (construct (.ok ()))) := rfl
  have hfollows := hclaim ResultType.of_none [.construct 0 (.ok ()), .construct_from 1 0 .move]
    _ _ (Machine.Run.cons trivial hfirst (Machine.Run.single trivial rfl))
  obtain ⟨a, ha⟩ := (hfollows.reports_ok 0 _ rfl).mp (by decide)
  cases ha

end Result

end Hyperion
