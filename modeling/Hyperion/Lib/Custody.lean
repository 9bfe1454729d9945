/-
Who keeps what.

Resources are adopted by holders, exchanged between them, let go, and disposed of.
Each resource has an identity that is adopted once only.  Whatever the holders do, a
resource that was adopted is kept by one holder, or was let go once, or was disposed
of once, and never two of these: that is `Settled`, and every move keeps it.
-/
import Mathlib.Logic.Function.Basic
import Mathlib.Logic.Equiv.Basic
import Mathlib.Data.List.Nodup

/-- What each holder keeps, and what became of the resources so far, in order. -/
structure Custody (κ π : Type) where
  held : κ → Option π
  adopted : List π
  released : List π
  disposed : List π

namespace Custody

variable {κ π ι : Type}

/-- Nobody keeps anything yet. -/
def empty : Custody κ π := ⟨fun _ => none, [], [], []⟩

section

variable [DecidableEq κ]

/-- A holder that keeps nothing adopts a resource, or nothing. -/
def adopt (c : Custody κ π) (k : κ) (p : Option π) : Custody κ π :=
  { c with held := Function.update c.held k p, adopted := c.adopted ++ p.toList }

/-- Two holders exchange what they keep. -/
def exchange (c : Custody κ π) (i j : κ) : Custody κ π :=
  { c with held := c.held ∘ Equiv.swap i j }

/-- A holder lets go of what it keeps. -/
def release (c : Custody κ π) (k : κ) : Custody κ π :=
  { c with
    held := Function.update c.held k none
    released := c.released ++ (c.held k).toList }

/-- A holder disposes of what it keeps. -/
def dispose (c : Custody κ π) (k : κ) : Custody κ π :=
  { c with
    held := Function.update c.held k none
    disposed := c.disposed ++ (c.held k).toList }

end

/-- Every resource is with one holder, or was let go once, or was disposed of once. -/
structure Settled (identity : π → ι) (c : Custody κ π) : Prop where
  distinct : (c.adopted.map identity).Nodup
  once : (c.released ++ c.disposed).Nodup
  gone_adopted : ∀ p, p ∈ c.released ++ c.disposed → p ∈ c.adopted
  held_adopted : ∀ k p, c.held k = some p → p ∈ c.adopted
  held_not_gone : ∀ k p, c.held k = some p → p ∉ c.released ++ c.disposed
  one_holder : ∀ i j p, c.held i = some p → c.held j = some p → i = j
  none_lost : ∀ p, p ∈ c.adopted → p ∈ c.released ++ c.disposed ∨ ∃ k, c.held k = some p

namespace Settled

variable {identity : π → ι} {c : Custody κ π}

theorem empty : Settled identity (empty : Custody κ π) := by
  refine ⟨List.nodup_nil, List.nodup_nil, ?_, ?_, ?_, ?_, ?_⟩
  · intro p hp; cases hp
  · intro k p hp; cases hp
  · intro k p hp; cases hp
  · intro i j p hp; cases hp
  · intro p hp; cases hp

/-- Resources with one identity are one resource. -/
theorem identity_inj (h : Settled identity c) {p q : π} (hp : p ∈ c.adopted)
    (hq : q ∈ c.adopted) (heq : identity p = identity q) : p = q :=
  List.inj_on_of_nodup_map h.distinct hp hq heq

variable [DecidableEq κ]

omit [DecidableEq κ] in
theorem congr (h : Settled identity c) {d : Custody κ π} (hheld : ∀ k, d.held k = c.held k)
    (hadopted : d.adopted = c.adopted) (hreleased : d.released = c.released)
    (hdisposed : d.disposed = c.disposed) : Settled identity d := by
  obtain ⟨held, adopted, released, disposed⟩ := d
  cases hadopted
  cases hreleased
  cases hdisposed
  cases funext hheld
  exact h

theorem exchange (h : Settled identity c) (i j : κ) : Settled identity (c.exchange i j) := by
  refine ⟨h.distinct, h.once, h.gone_adopted, ?_, ?_, ?_, ?_⟩
  · intro k p hp
    exact h.held_adopted _ p hp
  · intro k p hp
    exact h.held_not_gone _ p hp
  · intro k l p hk hl
    exact (Equiv.swap i j).injective (h.one_holder _ _ p hk hl)
  · intro p hp
    rcases h.none_lost p hp with hgone | ⟨k, hk⟩
    · exact .inl hgone
    · refine .inr ⟨Equiv.swap i j k, ?_⟩
      show c.held (Equiv.swap i j (Equiv.swap i j k)) = some p
      rw [Equiv.swap_apply_self]
      exact hk

theorem adopt (h : Settled identity c) {k : κ} (hk : c.held k = none) {p : Option π}
    (hfresh : ∀ q ∈ p, identity q ∉ c.adopted.map identity) :
    Settled identity (c.adopt k p) := by
  cases p with
  | none =>
      have hheld : Function.update c.held k none = c.held := by
        rw [← hk, Function.update_eq_self]
      rw [Custody.adopt, hheld, Option.toList_none, List.append_nil]
      exact h
  | some q =>
      have hq := hfresh q rfl
      have hnew : q ∉ c.adopted := fun hmem => hq (List.mem_map_of_mem hmem)
      have hheld : ∀ {l p}, (c.adopt k (some q)).held l = some p →
          (l = k ∧ p = q) ∨ (l ≠ k ∧ c.held l = some p) := by
        intro l p hp
        simp only [Custody.adopt, Function.update_apply] at hp
        split at hp
        · rename_i hl
          exact .inl ⟨hl, (Option.some.inj hp).symm⟩
        · rename_i hl
          exact .inr ⟨hl, hp⟩
      refine ⟨?_, h.once, ?_, ?_, ?_, ?_, ?_⟩
      · show ((c.adopted ++ [q]).map identity).Nodup
        rw [List.map_append, List.nodup_append]
        refine ⟨h.distinct, List.nodup_singleton _, ?_⟩
        rintro a ha b hb rfl
        rw [List.map_singleton, List.mem_singleton] at hb
        exact hq (hb ▸ ha)
      · intro p hp
        exact List.mem_append_left _ (h.gone_adopted p hp)
      · intro l p hp
        rcases hheld hp with ⟨-, rfl⟩ | ⟨-, hold⟩
        · exact List.mem_append_right _ (List.mem_singleton_self _)
        · exact List.mem_append_left _ (h.held_adopted l p hold)
      · intro l p hp
        rcases hheld hp with ⟨-, rfl⟩ | ⟨-, hold⟩
        · exact fun hgone => hnew (h.gone_adopted _ hgone)
        · exact h.held_not_gone l p hold
      · intro i j p hi hj
        rcases hheld hi with ⟨rfl, rfl⟩ | ⟨-, hold⟩
        · rcases hheld hj with ⟨rfl, -⟩ | ⟨-, hold⟩
          · rfl
          · exact absurd (h.held_adopted j _ hold) hnew
        · rcases hheld hj with ⟨-, rfl⟩ | ⟨-, hold'⟩
          · exact absurd (h.held_adopted i _ hold) hnew
          · exact h.one_holder i j p hold hold'
      · intro p hp
        rcases List.mem_append.mp hp with hp | hp
        · rcases h.none_lost p hp with hgone | ⟨l, hl⟩
          · exact .inl hgone
          · refine .inr ⟨l, ?_⟩
            show Function.update c.held k (some q) l = some p
            rw [Function.update_of_ne _, hl]
            rintro rfl
            rw [hk] at hl
            cases hl
        · refine .inr ⟨k, ?_⟩
          rw [show p = q from List.mem_singleton.mp hp]
          exact Function.update_self _ _ _

/-- Letting go and disposing are alike: what the holder kept joins what is gone. -/
theorem gone (h : Settled identity c) (k : κ) {d : Custody κ π}
    (hheld : d.held = Function.update c.held k none) (hadopted : d.adopted = c.adopted)
    (hgone : (d.released ++ d.disposed).Perm
      (c.released ++ c.disposed ++ (c.held k).toList)) : Settled identity d := by
  have hmem : ∀ p, p ∈ d.released ++ d.disposed ↔
      p ∈ c.released ++ c.disposed ∨ c.held k = some p := by
    intro p
    rw [hgone.mem_iff, List.mem_append, Option.mem_toList]
  have hother : ∀ {l p}, d.held l = some p → l ≠ k ∧ c.held l = some p := by
    intro l p hp
    rw [hheld, Function.update_apply] at hp
    split at hp
    · cases hp
    · rename_i hl
      exact ⟨hl, hp⟩
  refine ⟨?_, ?_, ?_, ?_, ?_, ?_, ?_⟩
  · rw [hadopted]
    exact h.distinct
  · rw [hgone.nodup_iff, List.nodup_append]
    refine ⟨h.once, ?_, ?_⟩
    · cases c.held k with
      | none => exact List.nodup_nil
      | some p => exact List.nodup_singleton p
    · rintro p hp q hq rfl
      rw [Option.mem_toList] at hq
      exact h.held_not_gone k p hq hp
  · intro p hp
    rw [hadopted]
    rcases (hmem p).mp hp with hp | hp
    · exact h.gone_adopted p hp
    · exact h.held_adopted k p hp
  · intro l p hp
    rw [hadopted]
    exact h.held_adopted l p (hother hp).2
  · intro l p hp hdisposed
    obtain ⟨hl, hp⟩ := hother hp
    rcases (hmem p).mp hdisposed with hbefore | hk
    · exact h.held_not_gone l p hp hbefore
    · exact hl (h.one_holder l k p hp hk)
  · intro i j p hi hj
    exact h.one_holder i j p (hother hi).2 (hother hj).2
  · intro p hp
    rw [hadopted] at hp
    rcases h.none_lost p hp with hbefore | ⟨l, hl⟩
    · exact .inl ((hmem p).mpr (.inl hbefore))
    · by_cases hlk : l = k
      · exact .inl ((hmem p).mpr (.inr (hlk ▸ hl)))
      · refine .inr ⟨l, ?_⟩
        rw [hheld, Function.update_of_ne hlk, hl]

theorem release (h : Settled identity c) (k : κ) : Settled identity (c.release k) := by
  refine h.gone k rfl rfl ?_
  show (c.released ++ (c.held k).toList ++ c.disposed).Perm _
  rw [List.append_assoc, List.append_assoc]
  exact List.perm_append_comm.append_left _

theorem dispose (h : Settled identity c) (k : κ) : Settled identity (c.dispose k) := by
  refine h.gone k rfl rfl ?_
  show (c.released ++ (c.disposed ++ (c.held k).toList)).Perm _
  rw [List.append_assoc]

end Settled

end Custody
