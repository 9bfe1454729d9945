/-
What the operations of an option do to the payload in it.

As long as no payload is moved out of an option into another one, the tag says whether
the union holds a payload, and an option that is gone has destroyed each payload it
ever held exactly once.  The two moves between options clear the tag of the source and
leave its payload alive, which nobody destroys any more.
-/
import Hyperion.Option.Basic

namespace Hyperion.OptionData

variable {α γ ε : Type} {T : PayloadType α}

/-! ### What every call leaves -/

/-- A call that is no assignment keeps the tag, and moves from a payload at most. -/
structure Called (o o' : OptionData α) : Prop where
  tag : o'.m_is_some = o.m_is_some
  some : o'.m_some = o.m_some ∨ (o.m_is_some = true ∧ ∃ f, o'.m_some = o.m_some.moveFrom f 0)

theorem Called.refl (o : OptionData α) : Called o o := ⟨rfl, .inl rfl⟩

theorem Called.extract {o : OptionData α} (h : ¬ (!o.is_some) = true) :
    Called o (o.extract T).2 := by
  refine ⟨rfl, .inr ⟨?_, _, rfl⟩⟩
  rw [Bool.not_eq_true, Bool.not_eq_false'] at h
  exact h

theorem Called.unwrap (T : PayloadType α) (o : OptionData α) : Called o (o.unwrap T).2 := by
  unfold OptionData.unwrap
  split
  · exact Called.refl o
  · rename_i h; exact Called.extract h

/-- The calls that give the option another payload, or take its payload away. -/
def Call.Assigns : Call α γ ε → Prop
  | .assign_value _ | .assign_none => True
  | _ => False

/-- **What a call leaves**, whichever it is. -/
theorem call_called (T : PayloadType α) (o : OptionData α) {u : Call α γ ε}
    (hu : ¬ u.Assigns) : Called o (o.call T u).2 := by
  cases u with
  | is_some | is_none | map f | map_or f c | map_or_else f g | as_ref | as_cref =>
      exact Called.refl o
  | match' f g =>
      simp only [call, match']
      split
      · exact Called.refl o
      · rename_i h; exact Called.extract h
  | and_then f =>
      simp only [call, and_then]
      split
      · exact Called.refl o
      · rename_i h; exact Called.extract h
  | ok_or e =>
      simp only [call, ok_or]
      split
      · exact Called.refl o
      · rename_i h; exact Called.extract h
  | ok_or_else g =>
      simp only [call, ok_or_else]
      split
      · exact Called.refl o
      · rename_i h; exact Called.extract h
  | unwrap => exact Called.unwrap T o
  | unwrap_or v =>
      simp only [call, unwrap_or]
      split
      · exact Called.refl o
      · exact Called.unwrap T o
  | unwrap_or_else g =>
      simp only [call, unwrap_or_else]
      split
      · exact Called.refl o
      · exact Called.unwrap T o
  | expect m =>
      simp only [call, expect]
      split
      · exact Called.refl o
      · exact Called.unwrap T o
  | assign_value v => exact absurd trivial hu
  | assign_none => exact absurd trivial hu

/-! ### Lifetimes -/

/-- The tag says whether a payload is alive, and nothing was done to a payload that is not. -/
def Sound (o : OptionData α) : Prop := o.m_some.Holding o.m_is_some

/-- What is left when an option is gone. -/
def Gone (o : OptionData α) : Prop := o.m_some.misuse = [] ∧ o.m_some.DestroyedOnce

theorem sound_none : Sound (none : OptionData α) := Arena.Holding.fresh

theorem sound_some (t : Option α) : Sound (some t) := (Arena.Holding.fresh).construct t

theorem Sound.assign_value {o : OptionData α} (h : Sound o) (t : Option α) :
    Sound (o.assign_value t) := by
  unfold OptionData.assign_value
  unfold Sound at h
  split
  · rename_i htag
    rw [htag] at h
    show Arena.Holding _ o.m_is_some
    rw [htag]
    exact h.assign t
  · rename_i htag
    rw [Bool.not_eq_true] at htag
    rw [htag] at h
    exact h.construct t

theorem Sound.assign_none (hT : T.trivially_destructible = false) {o : OptionData α}
    (h : Sound o) : Sound (o.assign_none T) := by
  unfold OptionData.assign_none
  split
  · rename_i htag
    rw [destroy_some, hT]
    unfold Sound at h
    rw [htag] at h
    exact h.destroy
  · exact h

theorem Sound.copied {o : OptionData α} (h : Sound o) (htag : o.m_is_some = true) :
    Sound { o with m_some := o.m_some.copyFrom 0 } := by
  unfold Sound at h ⊢
  rw [htag] at h
  show Arena.Holding _ o.m_is_some
  rw [htag]
  exact h.copyFrom

theorem Sound.called {o o' : OptionData α} (h : Sound o) (hcalled : Called o o') : Sound o' := by
  unfold Sound at h ⊢
  rw [hcalled.tag]
  rcases hcalled.some with hsame | ⟨htag, f, hmoved⟩
  · rw [hsame]; exact h
  · rw [hmoved, htag]
    rw [htag] at h
    exact h.moveFrom f

theorem Sound.destructor (hT : T.trivially_destructible = false) {o : OptionData α}
    (h : Sound o) : Gone (o.destructor T) := by
  unfold OptionData.destructor
  unfold Sound at h
  split
  · rename_i htag
    rw [destroy_some, hT]
    rw [htag] at h
    exact ⟨h.destroy.misuse, h.destroy.destroyed_once⟩
  · rename_i htag
    rw [Bool.not_eq_true] at htag
    rw [htag] at h
    exact ⟨h.misuse, h.destroyed_once⟩

/-- Moves are from options that hold nothing. -/
def moves_nothing : Objects.Guard (OptionData α) (Option α) Transfer (Call α γ ε) where
  construct_from t o := t = .copy ∨ o.m_is_some = false
  assign_from t _ o := t = .copy ∨ o.m_is_some = false

/-- **Every operation keeps the payloads accounted for** when it moves no payload. -/
theorem keeps_sound (hT : T.trivially_destructible = false) :
    Objects.Keeps (object_type T : ObjectType _ _ _ (Call α γ ε) _) moves_nothing Sound Gone where
  construct k r _ hr := by
    cases k with
    | none => cases hr; exact sound_none
    | some v => cases hr; exact sound_some (.some v)
  construct_from t o p ho hguard hp := by
    cases t with
    | copy =>
        cases hp
        unfold copy
        split
        · rename_i htag; exact ⟨sound_some _, ho.copied htag⟩
        · exact ⟨sound_none, ho⟩
    | move =>
        cases hp
        have htag : o.m_is_some = false := hguard.resolve_left (by decide)
        unfold move_construct move
        rw [htag]
        exact ⟨sound_none, ho.assign_none hT⟩
  assign_from t r o p hr ho hguard hp := by
    cases t with
    | copy =>
        cases hp
        unfold assign_copy
        split
        · rename_i htag; exact ⟨hr.assign_value _, ho.copied htag⟩
        · exact ⟨hr.assign_none hT, ho⟩
    | move =>
        cases hp
        have htag : o.m_is_some = false := hguard.resolve_left (by decide)
        unfold move_assign assign_move
        rw [htag]
        exact ⟨hr.assign_none hT, ho.assign_none hT⟩
  assign_self t r r' hr _ hr' := by cases hr'; exact hr
  call u r p hr _ hp := by
    by_cases hu : u.Assigns
    · cases u with
      | assign_value v => cases hp; exact hr.assign_value (.some v)
      | assign_none => cases hp; exact hr.assign_none hT
      | _ => exact absurd hu id
    · simp only [object_type, Answer.returning] at hp
      split at hp
      · rename_i hcall
        cases hp
        exact hr.called (by simpa [hcall] using call_called T r hu)
      · cases hp
  destroy r r' hr _ hr' := by cases hr'; exact hr.destructor hT

end Hyperion.OptionData
