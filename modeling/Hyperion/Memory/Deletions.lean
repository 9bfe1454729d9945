/-
Every pointer is deleted once, with its own deleter.

Who manages what is a matter of custody: each statement of a program exchanges what
two pointers manage, or disposes of, releases or adopts something, the deleter always
going along.  What holds of custody in general is then read back in terms of the
deleters that were called.

`reset` calls the deleter without asking whether there is a pointer, and the
destructor, the assignments and `reset()` all go through it.  So a deleter is called
with a null pointer exactly where one of these meets a `UniquePtr` that manages
nothing.
-/
import Hyperion.Memory.UniquePtr

namespace Hyperion.Heap

variable {δ : Type} {D : DeleterType δ} {h h' : Heap δ}

/-! ### Custody -/

/-- The pointers passed to a deleter, with it. -/
def disposed (h : Heap δ) : List (Nat × δ) := h.deletions.filterMap Deletion.disposed

/-- Each `UniquePtr` keeps the pointer it manages, with its deleter. -/
def custody (h : Heap δ) : Custody Nat (Nat × δ) :=
  ⟨fun i => (Objects.get h.objects i).bind UniquePtr.managed, h.adopted, h.released, h.disposed⟩

/-- No pointer is kept twice or lost. -/
abbrev Settled (h : Heap δ) : Prop := h.custody.Settled Prod.fst

theorem custody_held {i : Nat} {u : UniquePtr Nat δ} (hu : Objects.get h.objects i = some u) :
    h.custody.held i = u.managed :=
  Objects.keeps_get hu

theorem custody_held_some {i : Nat} {p : Nat × δ} (hp : h.custody.held i = some p) :
    ∃ u, Objects.get h.objects i = some u ∧ u.first = some p.1 ∧ u.second = p.2 := by
  obtain ⟨u, hu, hmanaged⟩ := Option.bind_eq_some_iff.mp hp
  obtain ⟨q, hq, rfl⟩ := Option.map_eq_some_iff.mp hmanaged
  exact ⟨u, hu, hq, rfl⟩

/-- What is called with a pointer is disposed of. -/
theorem custody_disposed {j : Nat} {u : UniquePtr Nat δ} (hu : Objects.get h.objects j = some u) :
    (h.deletions ++ [(⟨u.second, u.first⟩ : Deletion Nat δ)]).filterMap Deletion.disposed
      = h.custody.disposed ++ (h.custody.held j).toList := by
  rw [custody_held hu, List.filterMap_append]
  cases hfirst : u.first <;> simp [custody, disposed, UniquePtr.managed, Deletion.disposed, hfirst]

/-- A `UniquePtr` that manages a fresh pointer, or none, adopts what it manages. -/
theorem fresh_managed {ptr : Option Nat} (hfresh : ∀ p ∈ ptr, p ∉ h.adopted.map Prod.fst)
    (deleter : δ) : ∀ q ∈ (⟨ptr, deleter⟩ : UniquePtr Nat δ).managed,
      q.1 ∉ h.custody.adopted.map Prod.fst := by
  intro q hq
  obtain ⟨p, hp, rfl⟩ := Option.map_eq_some_iff.mp hq
  exact hfresh p hp

/-- A move assignment disposes of what the target managed, and then hands over. -/
theorem Settled.move_assign (hs : h.Settled) {j i : Nat} (hji : j ≠ i) {u ptr : UniquePtr Nat δ}
    (hu : Objects.get h.objects j = some u) (hptr : Objects.get h.objects i = some ptr) :
    Settled { h with
      objects := Objects.put (Objects.put h.objects i (u.move_assign D ptr).2.2) j
        (u.move_assign D ptr).2.1
      deletions := h.deletions ++ [(u.move_assign D ptr).1] } := by
  have hheld := Objects.keeps_handover (f := UniquePtr.managed) hji
    (r := (u.move_assign D ptr).2.1) (s := (u.move_assign D ptr).2.2)
    (Objects.keeps_get hptr).symm rfl
  exact ((hs.dispose j).exchange j i).congr (congrFun hheld) rfl rfl (custody_disposed hu)

/-- **Every statement keeps each pointer with one of them**, or lets it go for good. -/
theorem Settled.step (hs : h.Settled) {op : Op δ} (hfresh : h.Fresh op)
    (hstep : h.step D op = some ((), h')) : h'.Settled := by
  cases op with
  | construct j ptr deleter =>
      simp only [Heap.step] at hstep
      split at hstep
      · rename_i hfree
        cases hstep
        exact (hs.adopt (Objects.keeps_free hfree) (fresh_managed hfresh deleter)).congr
          (congrFun (Objects.keeps_put j _)) rfl rfl rfl
      · cases hstep
  | move_construct j i =>
      simp only [Heap.step] at hstep
      split at hstep
      · rename_i hfree
        obtain ⟨ptr, hptr, heq⟩ := Option.map_eq_some_iff.mp hstep
        cases heq
        exact (hs.exchange j i).congr (congrFun (Objects.keeps_exchange
          (Objects.keeps_get hptr).symm (Objects.keeps_free hfree).symm)) rfl rfl rfl
      · cases hstep
  | move_assign j i =>
      simp only [Heap.step] at hstep
      split at hstep
      · obtain ⟨ptr, hptr, heq⟩ := Option.map_eq_some_iff.mp hstep
        cases heq
        exact hs
      · rename_i hji
        obtain ⟨u, hu, hstep⟩ := Option.bind_eq_some_iff.mp hstep
        obtain ⟨ptr, hptr, heq⟩ := Option.map_eq_some_iff.mp hstep
        cases heq
        exact hs.move_assign hji hu hptr
  | reset j ptr =>
      obtain ⟨u, hu, heq⟩ := Option.map_eq_some_iff.mp hstep
      cases heq
      have hcustody := (hs.dispose j).adopt (Function.update_self _ _ _)
        (fresh_managed hfresh u.second)
      refine hcustody.congr (fun k => ?_) rfl rfl (custody_disposed hu)
      rw [Custody.adopt, Custody.dispose, Function.update_idem]
      exact congrFun (Objects.keeps_put j _) k
  | release j =>
      obtain ⟨u, hu, heq⟩ := Option.map_eq_some_iff.mp hstep
      cases heq
      refine (hs.release j).congr (congrFun (Objects.keeps_put j _)) rfl ?_ rfl
      rw [Custody.release, custody_held hu]
      rfl
  | swap j i =>
      obtain ⟨u, hu, hstep⟩ := Option.bind_eq_some_iff.mp hstep
      obtain ⟨ptr, hptr, heq⟩ := Option.map_eq_some_iff.mp hstep
      cases heq
      exact (hs.exchange j i).congr (congrFun (Objects.keeps_exchange
        (Objects.keeps_get hptr).symm (Objects.keeps_get hu).symm)) rfl rfl rfl
  | destroy j =>
      obtain ⟨u, hu, heq⟩ := Option.map_eq_some_iff.mp hstep
      cases heq
      exact (hs.dispose j).congr (congrFun (Objects.keeps_end j _)) rfl rfl (custody_disposed hu)

/-- What the record of the calls says of one pointer. -/
theorem passed_eq (h : Heap δ) (p : Nat) :
    h.passed p = (h.disposed.filter fun q => q.1 = p).map Prod.snd := by
  unfold passed disposed
  induction h.deletions with
  | nil => rfl
  | cons c rest ih =>
      cases hc : c.ptr with
      | none => simp [Deletion.disposed, hc, ih]
      | some q => by_cases hq : q = p <;> simp [Deletion.disposed, hc, hq, ih]

/-- Nothing was called with a pointer of an adoption that is not disposed of. -/
theorem Settled.not_passed (hs : h.Settled) {p : Nat} {d : δ} (hp : (p, d) ∈ h.adopted)
    (hnot : (p, d) ∉ h.disposed) : h.passed p = [] := by
  rw [passed_eq, List.map_eq_nil_iff, List.filter_eq_nil_iff]
  intro q hq hfirst
  have hq' := hs.gone_adopted q (List.mem_append_right _ hq)
  have heq := hs.identity_inj hq' hp (of_decide_eq_true hfirst)
  exact hnot (heq ▸ hq)

/-- What was disposed of was passed to its own deleter, once. -/
theorem Settled.passed_once (hs : h.Settled) {p : Nat} {d : δ} (hp : (p, d) ∈ h.disposed) :
    h.passed p = [d] := by
  have honce : h.disposed.Nodup := (List.nodup_append.mp hs.once).2.1
  have hadopted : ∀ q, q ∈ h.disposed → q ∈ h.adopted :=
    fun q hq => hs.gone_adopted q (List.mem_append_right _ hq)
  obtain ⟨before, after, hsplit⟩ := List.append_of_mem hp
  have hother : ∀ q, q ∈ before ++ after → ¬ q.1 = p := by
    intro q hq hfirst
    have hmem : q ∈ h.disposed := by
      rw [hsplit]
      rcases List.mem_append.mp hq with hq | hq
      · exact List.mem_append_left _ hq
      · exact List.mem_append_right _ (List.mem_cons_of_mem _ hq)
    have heq := hs.identity_inj (hadopted q hmem) (hadopted _ hp) hfirst
    rw [hsplit, List.nodup_middle, List.nodup_cons] at honce
    exact honce.1 (heq ▸ hq)
  have hbefore : before.filter (fun q => q.1 = p) = [] := by
    rw [List.filter_eq_nil_iff]
    intro q hq
    rw [decide_eq_true_iff]
    exact hother q (List.mem_append_left _ hq)
  have hafter : after.filter (fun q => q.1 = p) = [] := by
    rw [List.filter_eq_nil_iff]
    intro q hq
    rw [decide_eq_true_iff]
    exact hother q (List.mem_append_right _ hq)
  rw [passed_eq, hsplit, List.filter_append, hbefore, List.nil_append, List.filter_cons, hafter]
  simp

/-- **What custody says**, as far as the deleters called had a pointer. -/
theorem Settled.deletedOnce (hs : h.Settled) (hsomething : ∀ c ∈ h.deletions, c.ptr ≠ none) :
    h.DeletedOnce := by
  refine ⟨?_, ?_, ?_, hsomething⟩
  · intro i u p hu hp
    have hheld : h.custody.held i = some (p, u.second) := by
      rw [custody_held hu, UniquePtr.managed, hp]
      rfl
    have hadopted := hs.held_adopted i _ hheld
    refine ⟨hadopted, hs.not_passed hadopted ?_, ?_⟩
    · exact fun hgone => hs.held_not_gone i _ hheld (List.mem_append_right _ hgone)
    · intro j v hv hq
      have hheld' : h.custody.held j = some (p, v.second) := by
        rw [custody_held hv, UniquePtr.managed, hq]
        rfl
      have heq := hs.identity_inj (hs.held_adopted j _ hheld') hadopted rfl
      exact hs.one_holder j i _ (heq ▸ hheld') hheld
  · intro p hp
    obtain ⟨⟨q, d⟩, hq, rfl⟩ := List.mem_map.mp hp
    have hadopted := hs.gone_adopted _ (List.mem_append_left _ hq)
    refine hs.not_passed hadopted fun hgone => ?_
    exact (List.nodup_append.mp hs.once).2.2 _ hq _ hgone rfl
  · intro p d hp hnot hkept
    refine hs.passed_once ?_
    rcases hs.none_lost _ hp with hgone | ⟨i, hi⟩
    · rcases List.mem_append.mp hgone with hgone | hgone
      · exact absurd (List.mem_map_of_mem (f := Prod.fst) hgone) hnot
      · exact hgone
    · obtain ⟨u, hu, hfirst, -⟩ := custody_held_some hi
      exact absurd hfirst (hkept i u hu)

/-! ### Deleters called without a pointer -/

/-- No statement destroys, resets or assigns to a `UniquePtr` that manages nothing. -/
def Managing (h : Heap δ) : Op δ → Prop
  | .reset j _ | .destroy j => ∀ u ∈ Objects.get h.objects j, u.manages = true
  | .move_assign j i => j ≠ i → ∀ u ∈ Objects.get h.objects j, u.manages = true
  | _ => True

instance (h : Heap δ) : (op : Op δ) → Decidable (h.Managing op)
  | .reset j _ | .destroy j =>
      inferInstanceAs (Decidable (∀ u ∈ Objects.get h.objects j, u.manages = true))
  | .move_assign _ _ => inferInstanceAs (Decidable (_ → ∀ u ∈ Objects.get h.objects _, _))
  | .construct _ _ _ | .move_construct _ _ | .release _ | .swap _ _ => isTrue trivial

/-- A deletion has a pointer exactly if there was one to delete. -/
theorem something_append {l : List (Deletion Nat δ)} (u : UniquePtr Nat δ) :
    (∀ c ∈ l ++ [(⟨u.second, u.first⟩ : Deletion Nat δ)], c.ptr ≠ none) ↔
      (∀ c ∈ l, c.ptr ≠ none) ∧ u.manages = true := by
  have hmanages : u.manages = true ↔ u.first ≠ none := by
    rw [UniquePtr.manages, Option.isSome_iff_ne_none]
  rw [List.forall_mem_append, List.forall_mem_singleton, hmanages]

/-- **One statement calls no deleter without a pointer exactly if what it resets manages one.** -/
theorem something_step {op : Op δ} (hstep : h.step D op = some ((), h')) :
    (∀ c ∈ h'.deletions, c.ptr ≠ none) ↔ (∀ c ∈ h.deletions, c.ptr ≠ none) ∧ h.Managing op := by
  cases op with
  | construct j ptr deleter =>
      simp only [Heap.step] at hstep
      split at hstep
      · cases hstep
        exact (and_iff_left trivial).symm
      · cases hstep
  | move_construct j i =>
      simp only [Heap.step] at hstep
      split at hstep
      · obtain ⟨ptr, hptr, heq⟩ := Option.map_eq_some_iff.mp hstep
        cases heq
        exact (and_iff_left trivial).symm
      · cases hstep
  | move_assign j i =>
      simp only [Heap.step] at hstep
      split at hstep
      · rename_i hji
        obtain ⟨ptr, hptr, heq⟩ := Option.map_eq_some_iff.mp hstep
        cases heq
        exact (and_iff_left fun hne => absurd hji hne).symm
      · rename_i hji
        obtain ⟨u, hu, hstep⟩ := Option.bind_eq_some_iff.mp hstep
        obtain ⟨ptr, hptr, heq⟩ := Option.map_eq_some_iff.mp hstep
        cases heq
        simp only [Managing, hu, Option.mem_some_iff, forall_eq', ne_eq, hji, not_false_iff,
          forall_const]
        exact something_append u
  | reset j ptr =>
      obtain ⟨u, hu, heq⟩ := Option.map_eq_some_iff.mp hstep
      cases heq
      simp only [Managing, hu, Option.mem_some_iff, forall_eq']
      exact something_append u
  | release j =>
      obtain ⟨u, hu, heq⟩ := Option.map_eq_some_iff.mp hstep
      cases heq
      exact (and_iff_left trivial).symm
  | swap j i =>
      obtain ⟨u, hu, hstep⟩ := Option.bind_eq_some_iff.mp hstep
      obtain ⟨ptr, hptr, heq⟩ := Option.map_eq_some_iff.mp hstep
      cases heq
      exact (and_iff_left trivial).symm
  | destroy j =>
      obtain ⟨u, hu, heq⟩ := Option.map_eq_some_iff.mp hstep
      cases heq
      simp only [Managing, hu, Option.mem_some_iff, forall_eq']
      exact something_append u

/-! ### Every program -/

/-- A program that adopts fresh pointers keeps each with one `UniquePtr`. -/
theorem settled_of_run {ops : List (Op δ)} {outs : List Unit}
    (hrun : Machine.Run (step D) Fresh start ops outs h) : h.Settled :=
  hrun.invariant (fun _ _ _ _ hs hfresh hstep => hs.step hfresh hstep)
    (Custody.Settled.empty.congr (fun _ => rfl) rfl rfl rfl)

/--
**Each pointer is deleted once, with its own deleter, and no deleter is called without
one**, in exactly those programs that never destroy, reset or assign to a `UniquePtr`
that manages nothing.  In those an `AllocatorAwareDeleter` is never given null.
-/
theorem deleted_once_iff {ops : List (Op δ)} {outs : List Unit}
    (hrun : Machine.Run (step D) Fresh start ops outs h) :
    (h.DeletedOnce ↔
      Machine.Run (step D) (fun h op => h.Fresh op ∧ h.Managing op) start ops outs h) ∧
    ∀ g : Heap AllocatorAwareDeleter, g.DeletedOnce →
      ∀ c ∈ g.deletions, ∀ use ∈ c.deleter.call c.ptr, use.ptr ≠ none := by
  refine ⟨?_, ?_⟩
  · have hgood := hrun.good_iff (P := fun _ => True) (Q := fun h => ∀ c ∈ h.deletions, c.ptr ≠ none)
      (fun _ _ _ _ _ _ _ => trivial) (fun _ _ _ _ _ _ hstep => something_step hstep) trivial
      (fun c hc => by cases hc)
    exact ⟨fun hdeleted => hgood.mp hdeleted.something,
      fun hmanaging => (settled_of_run hrun).deletedOnce (hgood.mpr hmanaging)⟩
  · intro g hdeleted c hc use huse
    have hptr := hdeleted.something c hc
    cases hdeleter : c.deleter with
    | single m =>
        rw [hdeleter] at huse
        simp only [AllocatorAwareDeleter.call, List.mem_cons, List.not_mem_nil, or_false] at huse
        rcases huse with rfl | rfl
        · exact hptr
        · exact hptr
    | array m n =>
        rw [hdeleter] at huse
        rw [List.mem_singleton.mp huse]
        exact hptr

/-- A pointer that was moved on is deleted by the `UniquePtr` it was moved to. -/
theorem deleted_once_moved : ∃ (outs : List Unit) (h : Heap AllocatorAwareDeleter),
    Machine.Run (step AllocatorAwareDeleter.type) Fresh start
      [.construct 0 (some 7) (.array 1 5), .move_construct 1 0, .destroy 1] outs h ∧
    h.DeletedOnce := by
  obtain ⟨s, outs, h, hs, hrun, -⟩ := Machine.exists_run (step AllocatorAwareDeleter.type)
    (fun h op => h.Fresh op ∧ h.Managing op) (some start)
    [.construct 0 (some 7) (.array 1 5), .move_construct 1 0, .destroy 1] (fun _ => true)
    (by decide)
  cases hs
  have hfresh : Machine.Run (step AllocatorAwareDeleter.type) Fresh start _ outs h :=
    hrun.mono fun _ _ hguard => hguard.1
  exact ⟨outs, h, hfresh, (deleted_once_iff hfresh).1.mpr hrun⟩

/-- A `UniquePtr` that was moved from passes null to its deleter when it is destroyed. -/
theorem null_deleted : ¬ ∀ (ops : List (Op AllocatorAwareDeleter)) (outs : List Unit)
    (h : Heap AllocatorAwareDeleter),
    Machine.Run (step AllocatorAwareDeleter.type) Fresh start ops outs h → h.DeletedOnce := by
  intro hclaim
  obtain ⟨s, outs, h, hs, hrun, hnull⟩ := Machine.exists_run (step AllocatorAwareDeleter.type)
    Fresh (some start) [.construct 0 (some 7) (.single 1), .move_construct 1 0, .destroy 0]
    (fun r => r.2.deletions.any fun c => c.ptr.isNone) (by decide)
  cases hs
  obtain ⟨c, hc, hptr⟩ := List.any_eq_true.mp hnull
  exact (hclaim _ _ _ hrun).something c hc (Option.isNone_iff_eq_none.mp hptr)

end Hyperion.Heap
