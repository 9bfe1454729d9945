/-
What the operations of a result do to the payload in it.

The same as for an option, member by member: where `T` has a destructor or `E` has one, or
both, the tag says whether a payload of that type is alive, and a result that is gone has
destroyed each of them exactly once, as long as none was moved from one result into
another.  Payloads of a type without a destructor may stay behind under a tag that does
not mention them, and end with their storage.
-/
import Hyperion.Result.Access
import Hyperion.Option.Lifetimes

namespace Hyperion

namespace ResultData

variable {α ε : Type} {T : ResultType α ε}

/--
The member the tag names is alive, any other that is alive has no destructor, and nothing was
done to a payload that was not alive.
-/
structure Sound (T : ResultType α ε) (data : ResultData α ε) : Prop where
  kept : data.m_union.Holding (data.m_union.holds 0)
  named : data.m_active ≠ .None → data.member = data.m_active
  unnamed : T.trivially_destructible data.member = false → data.member = data.m_active

/-- What is left when a result is gone. -/
def Gone (data : ResultData α ε) : Prop :=
  data.m_union.misuse = [] ∧ data.m_union.DestroyedOnce

/-! ### Which member is alive -/

/-- The member a payload is stored in. -/
def member_of : α ⊕ ε → Active
  | .inl _ => .Ok
  | .inr _ => .Err

theorem member_eq {data : ResultData α ε} {v : α ⊕ ε} (hholds : data.m_union.holds 0 = true)
    (hvalue : data.value = some v) : data.member = member_of v := by
  rw [member, hholds, hvalue]
  cases v <;> rfl

theorem member_of_holds_false {data : ResultData α ε} (h : data.m_union.holds 0 = false) :
    data.member = .None := by
  rw [member, h]

/-- A member that is alive is that of the value in the slot. -/
theorem exists_value {data : ResultData α ε} {member : Active} (h : data.member = member)
    (hmember : member ≠ .None) :
    data.m_union.holds 0 = true ∧ ∃ v, data.value = some v ∧ member_of v = member := by
  unfold ResultData.member at h
  split at h
  · rename_i v hholds hvalue; exact ⟨hholds, _, hvalue, h⟩
  · rename_i v hholds hvalue; exact ⟨hholds, _, hvalue, h⟩
  · exact absurd h.symm hmember

/-- Payloads in the slot under the tag of their member. -/
theorem sound_of_holding {data : ResultData α ε} {v : α ⊕ ε} (hheld : data.m_union.Holding true)
    (hvalue : data.value = some v) (hactive : data.m_active = member_of v) : Sound T data := by
  have hholds : data.m_union.holds 0 = true := hheld.holds 0
  have hmember := (member_eq hholds hvalue).trans hactive.symm
  exact ⟨hholds ▸ hheld, fun _ => hmember, fun _ => hmember⟩

/-- Whatever lies in the slot of a disengaged result has no destructor. -/
theorem sound_of_none {data : ResultData α ε}
    (hheld : data.m_union.Holding (data.m_union.holds 0)) (hactive : data.m_active = .None)
    (htrivial : T.trivially_destructible data.member = true) : Sound T data :=
  ⟨hheld, fun h => absurd hactive h, fun h => absurd (h.symm.trans htrivial) nofun⟩

/-! ### Operations on the storage -/

theorem sound_empty : Sound T (empty : ResultData α ε) :=
  sound_of_none Arena.Holding.fresh rfl rfl

theorem sound_of_ok (v : α) : Sound T (of_ok (some (.inl v)) : ResultData α ε) :=
  sound_of_holding ((Arena.Holding.fresh).construct _) (value_of_ok _) rfl

theorem sound_of_err (e : ε) : Sound T (of_err (some (.inr e)) : ResultData α ε) :=
  sound_of_holding ((Arena.Holding.fresh).construct _) (value_of_err _) rfl

namespace Sound

variable {data : ResultData α ε}

/-- The payload an Ok tag names. -/
theorem ok_value (h : Sound T data) (hactive : data.m_active = .Ok) :
    data.m_union.Holding true ∧ ∃ v, data.value = some (.inl v) := by
  obtain ⟨hholds, v, hvalue, hv⟩ := exists_value (h.named (by rw [hactive]; nofun)) (by
    rw [hactive]; nofun)
  rw [hactive] at hv
  refine ⟨hholds ▸ h.kept, ?_⟩
  cases v with
  | inl v => exact ⟨v, hvalue⟩
  | inr e => cases hv

/-- The payload an Err tag names. -/
theorem err_value (h : Sound T data) (hactive : data.m_active = .Err) :
    data.m_union.Holding true ∧ ∃ e, data.value = some (.inr e) := by
  obtain ⟨hholds, v, hvalue, hv⟩ := exists_value (h.named (by rw [hactive]; nofun)) (by
    rw [hactive]; nofun)
  rw [hactive] at hv
  refine ⟨hholds ▸ h.kept, ?_⟩
  cases v with
  | inl v => cases hv
  | inr e => exact ⟨e, hvalue⟩

/-- Destroying the active member leaves none that has a destructor. -/
theorem destroyed (h : Sound T data) :
    (data.destroy_active T).m_union.Holding ((data.destroy_active T).m_union.holds 0) ∧
      T.trivially_destructible (data.destroy_active T).member = true := by
  have hdestroy : data.m_union.Holding true →
      (data.m_union.destroy 0).Holding ((data.m_union.destroy 0).holds 0) ∧
        T.trivially_destructible { data with m_union := data.m_union.destroy 0 }.member = true := by
    intro hheld
    have hholds : (data.m_union.destroy 0).holds 0 = false := hheld.destroy.holds 0
    refine ⟨hholds ▸ hheld.destroy, ?_⟩
    rw [member_of_holds_false hholds]
    rfl
  unfold destroy_active
  split
  · rename_i hactive
    split
    · rename_i htrivial
      exact ⟨h.kept, by rw [h.named (by rw [hactive]; nofun), hactive]; exact htrivial⟩
    · exact hdestroy (h.ok_value hactive).1
  · rename_i hactive
    split
    · rename_i htrivial
      exact ⟨h.kept, by rw [h.named (by rw [hactive]; nofun), hactive]; exact htrivial⟩
    · exact hdestroy (h.err_value hactive).1
  · rename_i hactive
    refine ⟨h.kept, ?_⟩
    -- a member with a destructor would be the one the tag names
    by_contra hdestructor
    have hmember := h.unnamed (Bool.eq_false_iff.mpr hdestructor)
    rw [hmember, hactive] at hdestructor
    exact hdestructor rfl

/-- Once the active member is destroyed, the bytes of the union can be used again. -/
theorem released (h : Sound T data) :
    ((data.destroy_active T).release T).Holding false := by
  obtain ⟨hheld, htrivial⟩ := h.destroyed
  rw [ResultData.release, if_pos htrivial]
  exact hheld.release

theorem assign_ok (h : Sound T data) (t : α) : Sound T (data.assign_ok T (some (.inl t))) := by
  obtain ⟨hactive, hvalue⟩ := assign_ok_spec T data (some (.inl t))
  refine sound_of_holding ?_ hvalue hactive
  unfold ResultData.assign_ok
  split
  · rename_i hok; exact (h.ok_value hok).1.assign _
  · exact h.released.construct _

theorem assign_err (h : Sound T data) (e : ε) :
    Sound T (data.assign_err T (some (.inr e))) := by
  obtain ⟨hactive, hvalue⟩ := assign_err_spec T data (some (.inr e))
  refine sound_of_holding ?_ hvalue hactive
  unfold ResultData.assign_err
  split
  · rename_i herr; exact (h.err_value herr).1.assign _
  · exact h.released.construct _

theorem assign_empty (h : Sound T data) : Sound T (data.assign_empty T) :=
  sound_of_none h.destroyed.1 rfl h.destroyed.2

theorem destructor (h : Sound T data) : Gone (data.destructor T) :=
  ⟨h.released.misuse, h.released.destroyed_once⟩

/-- Copying the payload leaves the storage as it is. -/
theorem copied (h : Sound T data) (hactive : data.m_active ≠ .None) :
    Sound T { data with m_union := data.m_union.copyFrom 0 } := by
  have hholds := (exists_value (h.named hactive) hactive).1
  have hsame : data.m_union.copyFrom 0 = data.m_union :=
    Arena.Kept.copyFrom_eq (hholds ▸ h.kept : data.m_union.Holding true) Nat.one_pos rfl
  rw [hsame]
  exact h

/-- A payload that something was moved out of is still there. -/
theorem moveFrom (h : Sound T data) (hactive : data.m_active ≠ .None) (f : α → α) (g : ε → ε) :
    (data.m_union.moveFrom (Sum.map f g) 0).Holding true ∧
      ({ data with m_union := data.m_union.moveFrom (Sum.map f g) 0 } : ResultData α ε).member
        = data.m_active := by
  obtain ⟨hholds, v, hvalue, hv⟩ := exists_value (h.named hactive) hactive
  have hheld : (data.m_union.moveFrom (Sum.map f g) 0).Holding true :=
    Arena.Holding.moveFrom (hholds ▸ h.kept) _
  refine ⟨hheld, ?_⟩
  rw [← hv, member_eq (v := Sum.map f g v) (hheld.holds 0)]
  · cases v <;> rfl
  · rw [value, Arena.moveFrom_cell, Function.update_self]
    exact congrArg (Option.map (Sum.map f g)) hvalue

/-- A payload without a destructor may stay where it was moved from. -/
theorem moved (h : Sound T data) (hactive : data.m_active ≠ .None)
    (htrivial : T.trivially_destructible data.m_active = true) :
    Sound T { data with m_union := data.m_union.moveFrom T.moved 0, m_active := .None } := by
  obtain ⟨hheld, hmember⟩ := h.moveFrom hactive T.ok.moved T.err.moved
  have hholds := hheld.holds 0
  exact sound_of_none (hholds.symm ▸ hheld) rfl (hmember ▸ htrivial)

end Sound

end ResultData

namespace Result

variable {α ε γ : Type} {T : ResultType α ε}

/-- A call on a disengaged result that reads nothing leaves the union as it is. -/
theorem empty_call_union {r : Result α ε} (h : r.m_active = .None) {u : Call α ε γ}
    (hu : ¬ u.AssumesEngaged) : (r.call T u).2.m_union = r.m_union := by
  have hok : r.has_ok = false := by rw [ResultData.has_ok, h]; rfl
  have herr : r.has_err = false := by rw [ResultData.has_err, h]; rfl
  cases u with
  | map f | map_err f | match' f g | and_then f | and_then_result f | or_else f =>
      exact absurd trivial hu
  | _ =>
      simp [call, is_ok, is_err, as_ref, as_cref, unwrap, unwrap_or, unwrap_or_else, expect,
        unwrap_err, ok, err, map_or, map_or_else, handle, hok, herr]

/-- The tag and the union agree. -/
def Sound (T : ResultType α ε) (r : Result α ε) : Prop := r.toResultData.Sound T

/-- A call that returns does nothing to a payload that is not there. -/
theorem Sound.called {r : Result α ε} (h : Sound T r) {u : Call α ε γ}
    (hreturns : (r.call T u).1 ≠ .undefined) : Sound T (r.call T u).2 := by
  have hcalled := call_called T r u
  have hkept : (r.call T u).2.m_union = r.m_union → Sound T (r.call T u).2 := by
    intro hunion
    have hmember : (r.call T u).2.member = r.member := by
      simp only [ResultData.member, ResultData.value, hunion]
    refine ⟨?_, ?_, ?_⟩
    · rw [hunion]; exact h.kept
    · rw [hmember, hcalled.active]; exact h.named
    · rw [hmember, hcalled.active]; exact h.unnamed
  by_cases hactive : r.m_active = .None
  · have hu : ¬ u.AssumesEngaged := fun hu =>
      hreturns ((empty_call_undefined_iff hactive u).mpr hu)
    exact hkept (empty_call_union hactive hu)
  · rcases hcalled.union with hsame | ⟨f, g, hmoved⟩
    · exact hkept hsame
    · obtain ⟨hheld, hmember⟩ := ResultData.Sound.moveFrom h hactive f g
      have hmember : (r.call T u).2.member = (r.call T u).2.m_active := by
        rw [hcalled.active, ← hmember]
        simp only [ResultData.member, ResultData.value, hmoved]
      refine ⟨?_, fun _ => hmember, fun _ => hmember⟩
      have hholds := hheld.holds 0
      rw [hmoved]
      exact hholds.symm ▸ hheld

/-- Moves are from results that hold nothing, or a payload without a destructor. -/
def moves_trivial (T : ResultType α ε) :
    Objects.Guard (Result α ε) (Variant α ε) Transfer (Call α ε γ) where
  construct_from t r := t = .copy ∨ T.trivially_destructible r.m_active = true
  assign_from t _ r := t = .copy ∨ T.trivially_destructible r.m_active = true

section

variable {target data : ResultData α ε}

theorem copy_sound (h : data.Sound T) : data.copy.1.Sound T ∧ data.copy.2.Sound T := by
  unfold ResultData.copy
  split
  · rename_i hactive
    obtain ⟨-, v, hvalue⟩ := h.ok_value hactive
    exact ⟨hvalue ▸ ResultData.sound_of_ok v, h.copied (by rw [hactive]; nofun)⟩
  · rename_i hactive
    obtain ⟨-, e, hvalue⟩ := h.err_value hactive
    exact ⟨hvalue ▸ ResultData.sound_of_err e, h.copied (by rw [hactive]; nofun)⟩
  · exact ⟨ResultData.sound_empty, h⟩

theorem assign_copy_sound (h : target.Sound T) (hdata : data.Sound T) :
    (target.assign_copy T data).1.Sound T ∧ (target.assign_copy T data).2.Sound T := by
  unfold ResultData.assign_copy
  split
  · rename_i hactive
    obtain ⟨-, v, hvalue⟩ := hdata.ok_value hactive
    exact ⟨hvalue ▸ h.assign_ok v, hdata.copied (by rw [hactive]; nofun)⟩
  · rename_i hactive
    obtain ⟨-, e, hvalue⟩ := hdata.err_value hactive
    exact ⟨hvalue ▸ h.assign_err e, hdata.copied (by rw [hactive]; nofun)⟩
  · exact ⟨h.assign_empty, hdata⟩

theorem move_sound (h : data.Sound T) (htrivial : T.trivially_destructible data.m_active = true) :
    (data.move T).1.Sound T ∧ (data.move T).2.Sound T := by
  unfold ResultData.move
  split
  · rename_i hactive
    obtain ⟨-, v, hvalue⟩ := h.ok_value hactive
    exact ⟨hvalue ▸ ResultData.sound_of_ok v, h.moved (by rw [hactive]; nofun) htrivial⟩
  · rename_i hactive
    obtain ⟨-, e, hvalue⟩ := h.err_value hactive
    exact ⟨hvalue ▸ ResultData.sound_of_err e, h.moved (by rw [hactive]; nofun) htrivial⟩
  · rename_i hactive
    exact ⟨ResultData.sound_empty, by rw [← hactive]; exact h⟩

theorem assign_move_sound (h : target.Sound T) (hdata : data.Sound T)
    (htrivial : T.trivially_destructible data.m_active = true) :
    (target.assign_move T data).1.Sound T ∧ (target.assign_move T data).2.Sound T := by
  unfold ResultData.assign_move
  split
  · rename_i hactive
    obtain ⟨-, v, hvalue⟩ := hdata.ok_value hactive
    refine ⟨?_, hdata.moved (by rw [hactive]; nofun) htrivial⟩
    show (target.assign_ok T data.value).Sound T
    rw [hvalue]
    exact h.assign_ok v
  · rename_i hactive
    obtain ⟨-, e, hvalue⟩ := hdata.err_value hactive
    refine ⟨?_, hdata.moved (by rw [hactive]; nofun) htrivial⟩
    show (target.assign_err T data.value).Sound T
    rw [hvalue]
    exact h.assign_err e
  · exact ⟨h.assign_empty, hdata⟩

/-- `None()` is the empty storage, or a payload without a destructor. -/
theorem of_none_sound (T : ResultType α ε) :
    (ResultData.of_none T).Sound T ∧
      T.trivially_destructible (ResultData.of_none T).m_active = true := by
  unfold ResultData.of_none
  split
  · exact ⟨ResultData.sound_empty, rfl⟩
  · rename_i none_ hnone
    exact ⟨ResultData.sound_of_ok none_, T.none_trivial (by rw [hnone]; rfl)⟩

theorem disengage_sound (h : data.Sound T) (handled : Bool) :
    Sound T (disengage T ⟨data, handled⟩) :=
  (assign_move_sound h (of_none_sound T).1 (of_none_sound T).2).1

end

/-- **Every operation keeps the payloads accounted for** when it moves none with a destructor. -/
theorem keeps_sound (T : ResultType α ε) :
    Objects.Keeps (object_type T : ObjectType _ _ _ (Call α ε γ) _) (moves_trivial T) (Sound T)
      (fun r => r.toResultData.Gone) where
  construct v r _ hr := by
    cases hr
    cases v with
    | empty => exact ResultData.sound_empty
    | ok a => exact ResultData.sound_of_ok a
    | err e => exact ResultData.sound_of_err e
  construct_from t s p hs hguard hp := by
    cases t with
    | copy => cases hp; exact copy_sound hs
    | move =>
        cases hp
        obtain ⟨hnew, hsource⟩ := move_sound hs (hguard.resolve_left nofun)
        exact ⟨hnew, disengage_sound hsource true⟩
  assign_from t r s p hr hs hguard hp := by
    cases t with
    | copy => cases hp; exact assign_copy_sound hr hs
    | move =>
        cases hp
        obtain ⟨htarget, hsource⟩ := assign_move_sound hr hs (hguard.resolve_left nofun)
        exact ⟨htarget, disengage_sound hsource true⟩
  assign_self t r r' hr _ hr' := by cases hr'; exact hr
  call u r p hr _ hp := by
    simp only [object_type, Answer.returning] at hp
    split at hp
    · rename_i c r' hcall
      cases hp
      have hreturns : (r.call T u).1 ≠ .undefined := by rw [hcall]; simp
      simpa [hcall] using hr.called hreturns
    · cases hp
  destroy r r' hr _ hr' := by
    simp only [object_type, destructor] at hr'
    split at hr'
    · cases hr'
    · cases hr'
      exact ResultData.Sound.destructor hr

/--
**Payloads live as long as the tag says, and are destroyed once**, in every program over
options of a type with a destructor that moves from disengaged options only, and in every
program over results, of whatever types, that moves from a result only where it is
disengaged or its payload has no destructor.
-/
theorem payloads_destroyed_once :
    (∀ (S : PayloadType α) (ops : List (Objects.Op (Option α) Transfer
        (OptionData.Call α γ ε))) (outs : List (Option (OptionData.Output α γ ε)))
        (w : Nat → Life (OptionData α)), S.trivially_destructible = false →
      Machine.Run (Objects.step (OptionData.object_type S)) OptionData.moves_nothing.admits
        Objects.start ops outs w → Objects.Each OptionData.Sound OptionData.Gone w) ∧
    (∀ (T : ResultType α ε) (ops : List (Objects.Op (Variant α ε) Transfer (Call α ε γ)))
        (outs : List (Option (Output α ε γ))) (w : Nat → Life (Result α ε)),
      Machine.Run (Objects.step (object_type T)) (moves_trivial T).admits Objects.start
        ops outs w → Objects.Each (Sound T) (fun r => r.toResultData.Gone) w) := by
  constructor
  · intro S ops outs w hS hrun
    exact (OptionData.keeps_sound hS).run (fun _ _ h => h) hrun
  · intro T ops outs w hrun
    exact (keeps_sound T).run (fun _ _ h => h) hrun

/-- A number is moved to another result and destroyed there. -/
theorem payloads_destroyed_once_moved :
    (OptionData.some (some 5)).Sound ∧ ∃ r : Result Nat Nat, r.m_union.born = 1 ∧
      r.toResultData.Gone := by
  have hoption := (payloads_destroyed_once (ε := Nat) (γ := Nat)).1 PayloadType.owning
    [.construct 0 (some 5)] _ _ rfl (Machine.Run.single trivial rfl)
  have hfirst : Objects.step (object_type ResultType.plain_ok) Objects.start
      (.construct 0 (.ok 5)) = some ((none : Option (Output Nat Nat Nat)),
        Objects.put Objects.start 0 (construct (.ok 5))) := rfl
  have hresult := payloads_destroyed_once.2 ResultType.plain_ok
    [.construct 0 (.ok 5), .construct_from 1 0 .move, .destroy 1] _ _
    (Machine.Run.cons trivial hfirst
      (Machine.Run.cons (fun _ hs => Or.inr (Option.some.inj hs ▸ rfl)) rfl
        (Machine.Run.single (fun _ _ => trivial) rfl)))
  exact ⟨hoption.alive 0 _ rfl, _, rfl, hresult.ended 1 _ rfl⟩

/-- The payload of an option that was moved from is never destroyed. -/
theorem moved_payload_not_destroyed : ¬ ∀ (S : PayloadType Nat)
    (ops : List (Objects.Op (Option Nat) Transfer (OptionData.Call Nat Nat Nat)))
    (outs : List (Option (OptionData.Output Nat Nat Nat))) (w : Nat → Life (OptionData Nat)),
    S.trivially_destructible = false →
    Machine.Run (Objects.step (OptionData.object_type S)) (fun _ _ => True) Objects.start
      ops outs w → Objects.Each OptionData.Sound OptionData.Gone w := by
  intro hclaim
  have hfirst : Objects.step (OptionData.object_type PayloadType.owning) Objects.start
      (.construct 0 (some 5)) = some ((none : Option (OptionData.Output Nat Nat Nat)),
        Objects.put Objects.start 0 (OptionData.some (some 5))) := rfl
  have heach := hclaim PayloadType.owning
    [.construct 0 (some 5), .construct_from 1 0 .move] _ _ rfl
    (Machine.Run.cons trivial hfirst (Machine.Run.single trivial rfl))
  -- the source holds an object its tag does not mention
  have hslot := (heach.alive 0 _ rfl).holds 0
  revert hslot
  decide

end Result

end Hyperion
