/-
The lock of `Hyperion/synchronization/ReadWriteLock.h`, and the guards of
`ScopedLockGuard.h`.

A `ReadWriteLock` owns its data and a `std::shared_mutex`, and gives access to the data
through guards: any number of read guards, or one write guard.  A guard holds a reference
to the data and a `std::shared_lock` or `std::unique_lock`, which its destructor unlocks.
A guard can be moved, and keeps its reference when its lock is moved out.  A read guard
can be copied, which locks the mutex once more.

The threads of a program create, use and destroy guards in any order; a guard is known by
its name here.  The mutex is the standard library's: `lock` waits until nobody has it,
`lock_shared` until nobody has it exclusively, and `try_lock` may fail for no reason.

`operator=(ReadWriteLock&&)` is left out: it locks a `ReadWriteLock` where it means its
mutex, and does not compile when it is used.
-/
import Hyperion.Lib.Machine
import Hyperion.Lib.Threads
import Hyperion.Error.Errno

namespace Hyperion

/-- `std::unique_lock` and `std::shared_lock` -/
inductive LockType
  | unique_lock
  | shared_lock
deriving DecidableEq

/-- `std::shared_mutex`: whether it is locked, and how often it is locked shared. -/
structure SharedMutex where
  locked : Bool
  shared : Nat

namespace SharedMutex

def unlocked : SharedMutex := ⟨false, 0⟩

/-- `lock`, or `none` where it has to wait -/
def lock (m : SharedMutex) : Option SharedMutex :=
  if m.locked = false ∧ m.shared = 0 then some { m with locked := true } else none

/-- `lock_shared`, or `none` where it has to wait -/
def lock_shared (m : SharedMutex) : Option SharedMutex :=
  if m.locked = false then some { m with shared := m.shared + 1 } else none

def unlock (m : SharedMutex) : SharedMutex := { m with locked := false }

def unlock_shared (m : SharedMutex) : SharedMutex := { m with shared := m.shared - 1 }

/-- The constructor of a lock. -/
def acquire (m : SharedMutex) : LockType → Option SharedMutex
  | .unique_lock => m.lock
  | .shared_lock => m.lock_shared

/-- The destructor of a lock that owns the mutex. -/
def release (m : SharedMutex) : LockType → SharedMutex
  | .unique_lock => m.unlock
  | .shared_lock => m.unlock_shared

end SharedMutex

/-- `ScopedLockGuard<T, Lock>`: the type of `m_lock`, `m_lock.mutex()` and `m_lock.owns_lock()` -/
structure ScopedLockGuard where
  type : LockType
  mutex : Bool
  owns_lock : Bool
deriving DecidableEq

namespace ScopedLockGuard

/-- A guard that was constructed with a lock of the mutex. -/
def locked (type : LockType) : ScopedLockGuard := ⟨type, true, true⟩

/-- What is left of a guard whose lock was moved out. -/
def moved_from (guard : ScopedLockGuard) : ScopedLockGuard :=
  { guard with mutex := false, owns_lock := false }

/-- `~ScopedLockGuard` -/
def destructor (guard : ScopedLockGuard) (m_mutex : SharedMutex) : SharedMutex :=
  if guard.owns_lock then m_mutex.release guard.type else m_mutex

end ScopedLockGuard

/-- A `ReadWriteLock` and the guards there are. -/
structure ReadWriteLock (γ α : Type) where
  m_data : α
  m_mutex : SharedMutex
  guard : γ → Option ScopedLockGuard

namespace ReadWriteLock

variable {γ α : Type}

/-- `ReadWriteLock(data)` -/
def construct (data : α) : ReadWriteLock γ α := ⟨data, .unlocked, fun _ => none⟩

/-- What a program may do with a lock and its guards. -/
inductive Action (γ α : Type)
  | read (g : γ)
  | try_read (g : γ) (spurious : Bool)
  | write (g : γ)
  | try_write (g : γ) (spurious : Bool)
  | copy (g h : γ)
  | move (g h : γ)
  | destroy (g : γ)
  /-- `read()`, `operator*`, `operator->` or `operator T()` of a guard -/
  | get (g : γ)
  /-- `write(newValue)` or `operator=` of a write guard -/
  | set (g : γ) (value : α)
  /-- `ReadWriteLock(ReadWriteLock&&)`, from this one -/
  | move_construct

/-- What it gives. -/
inductive Event (α : Type)
  | done
  /-- `Err(error::SystemError(..))` -/
  | err (code : CErrno)
  | value (data : α)

variable [DecidableEq γ]

/-- The guard `g` is constructed. -/
def constructed (s : ReadWriteLock γ α) (g : γ) (type : LockType) (m : SharedMutex) :
    ReadWriteLock γ α :=
  { s with m_mutex := m, guard := Function.update s.guard g (some (.locked type)) }

/-- Constructs a guard with a lock of the mutex, and waits for it. -/
def lock_guard (s : ReadWriteLock γ α) (g : γ) (type : LockType) :
    Option (Event α × ReadWriteLock γ α) :=
  match s.guard g with
  | none => (s.m_mutex.acquire type).map fun m => (.done, s.constructed g type m)
  | some _ => none

/-- The same, without waiting. -/
def try_lock_guard (s : ReadWriteLock γ α) (g : γ) (type : LockType) (spurious : Bool) :
    Option (Event α × ReadWriteLock γ α) :=
  match s.guard g with
  | none =>
      match (if spurious then none else s.m_mutex.acquire type) with
      | none => some (.err .EWOULDBLOCK, s)
      | some m => some (.done, s.constructed g type m)
  | some _ => none

/-- `read` -/
def read (s : ReadWriteLock γ α) (g : γ) := s.lock_guard g .shared_lock

/-- `try_read` -/
def try_read (s : ReadWriteLock γ α) (g : γ) (spurious : Bool) :=
  s.try_lock_guard g .shared_lock spurious

/-- `write` -/
def write (s : ReadWriteLock γ α) (g : γ) := s.lock_guard g .unique_lock

/-- `try_write` -/
def try_write (s : ReadWriteLock γ α) (g : γ) (spurious : Bool) :=
  s.try_lock_guard g .unique_lock spurious

/-- The guard `h` is constructed from `g`, a read guard with a mutex to lock. -/
def copy (s : ReadWriteLock γ α) (g h : γ) : Option (Event α × ReadWriteLock γ α) :=
  match s.guard g with
  | some guard =>
      if guard.type = .shared_lock ∧ guard.mutex = true then s.lock_guard h .shared_lock else none
  | none => none

/-- The guard `h` is constructed with the lock of `g`. -/
def move (s : ReadWriteLock γ α) (g h : γ) : Option (Event α × ReadWriteLock γ α) :=
  match s.guard g, s.guard h with
  | some guard, none => some (.done, { s with
      guard := Function.update (Function.update s.guard g (some guard.moved_from)) h (some guard) })
  | _, _ => none

/-- The guard `g` is destroyed. -/
def destroy (s : ReadWriteLock γ α) (g : γ) : Option (Event α × ReadWriteLock γ α) :=
  match s.guard g with
  | some guard => some (.done, { s with
      m_mutex := guard.destructor s.m_mutex, guard := Function.update s.guard g none })
  | none => none

/-- The data, through the guard `g`. -/
def get (s : ReadWriteLock γ α) (g : γ) : Option (Event α × ReadWriteLock γ α) :=
  match s.guard g with
  | some _ => some (.value s.m_data, s)
  | none => none

/-- The data is assigned, through the write guard `g`. -/
def set (s : ReadWriteLock γ α) (g : γ) (value : α) : Option (Event α × ReadWriteLock γ α) :=
  match s.guard g with
  | some guard =>
      if guard.type = .unique_lock then some (.done, { s with m_data := value }) else none
  | none => none

/-- The data is moved out, under a lock of its own. -/
def move_construct (moved : α → α) (s : ReadWriteLock γ α) :
    Option (Event α × ReadWriteLock γ α) :=
  s.m_mutex.lock.map fun m =>
    (.value s.m_data, { s with m_data := moved s.m_data, m_mutex := m.unlock })

/-- One step; `none` waits, or is no step of a program without undefined behaviour. -/
def step (moved : α → α) (s : ReadWriteLock γ α) :
    Action γ α → Option (Event α × ReadWriteLock γ α)
  | .read g => s.read g
  | .try_read g spurious => s.try_read g spurious
  | .write g => s.write g
  | .try_write g spurious => s.try_write g spurious
  | .copy g h => s.copy g h
  | .move g h => s.move g h
  | .destroy g => s.destroy g
  | .get g => s.get g
  | .set g value => s.set g value
  | .move_construct => s.move_construct moved

/-- What a step can do. -/
inductive Change (moved : α → α) (s : ReadWriteLock γ α) :
    Action γ α → ReadWriteLock γ α → Prop
  | constructed {a g type m} (hfresh : s.guard g = none) (hm : s.m_mutex.acquire type = some m) :
      Change moved s a (s.constructed g type m)
  | kept {a} : Change moved s a s
  | moved {g h guard} (hg : s.guard g = some guard) (hfresh : s.guard h = none) :
      Change moved s (.move g h) { s with
        guard := Function.update (Function.update s.guard g (some guard.moved_from)) h (some guard) }
  | destroyed {g guard} (hg : s.guard g = some guard) :
      Change moved s (.destroy g) { s with
        m_mutex := guard.destructor s.m_mutex, guard := Function.update s.guard g none }
  | set {g guard value} (hg : s.guard g = some guard) (htype : guard.type = .unique_lock) :
      Change moved s (.set g value) { s with m_data := value }
  | moved_out {m} (hm : s.m_mutex.lock = some m) : Change moved s .move_construct
      { s with m_data := moved s.m_data, m_mutex := m.unlock }

variable {moved : α → α} {s s' : ReadWriteLock γ α} {e : Event α}

theorem lock_guard_cases {a : Action γ α} {g : γ} {type : LockType}
    (h : s.lock_guard g type = some (e, s')) : Change moved s a s' := by
  unfold lock_guard at h
  split at h
  · rename_i hfresh
    obtain ⟨m, hm, hpair⟩ := Option.map_eq_some_iff.mp h
    cases hpair
    exact .constructed hfresh hm
  · cases h

theorem try_lock_guard_cases {a : Action γ α} {g : γ} {type : LockType} {spurious : Bool}
    (h : s.try_lock_guard g type spurious = some (e, s')) : Change moved s a s' := by
  unfold try_lock_guard at h
  split at h
  · rename_i hfresh
    split at h
    · cases h
      exact .kept
    · rename_i m hm
      cases h
      cases spurious with
      | true => cases hm
      | false => exact .constructed hfresh hm
  · cases h

/-- **Every step is one of these changes.** -/
theorem step_cases {a : Action γ α} (h : step moved s a = some (e, s')) :
    Change moved s a s' := by
  cases a with
  | read g => exact lock_guard_cases h
  | write g => exact lock_guard_cases h
  | try_read g spurious => exact try_lock_guard_cases h
  | try_write g spurious => exact try_lock_guard_cases h
  | copy g g' =>
      simp only [step, copy] at h
      split at h
      · split at h
        · exact lock_guard_cases h
        · cases h
      · cases h
  | move g g' =>
      simp only [step, move] at h
      split at h
      · rename_i guard hg hfresh
        cases h
        exact .moved hg hfresh
      · cases h
  | destroy g =>
      simp only [step, destroy] at h
      split at h
      · rename_i guard hg
        cases h
        exact .destroyed hg
      · cases h
  | get g =>
      simp only [step, get] at h
      split at h
      · cases h
        exact .kept
      · cases h
  | set g value =>
      simp only [step, set] at h
      split at h
      · rename_i guard hg
        split at h
        · rename_i htype
          cases h
          exact .set hg htype
        · cases h
      · cases h
  | move_construct =>
      obtain ⟨m, hm, hpair⟩ := Option.map_eq_some_iff.mp h
      cases hpair
      exact .moved_out hm

/-! ### Who has access -/

/-- A guard that owns the mutex with a lock of that type. -/
def owner (type : LockType) : Option ScopedLockGuard → Bool
  | some guard => guard.owns_lock && decide (guard.type = type)
  | none => false

/-- A guard that owns the mutex. -/
def Owns (s : ReadWriteLock γ α) (g : γ) (type : LockType) : Prop :=
  owner type (s.guard g) = true

theorem toNat_pos {b : Bool} (h : 0 < b.toNat) : b = true := by
  cases b
  · cases h
  · rfl

/-- **The mutex counts the guards that own it**, and one that owns it exclusively is alone. -/
structure Exclusion [Fintype γ] (s : ReadWriteLock γ α) : Prop where
  locked : Threads.count (owner .unique_lock) s.guard = s.m_mutex.locked.toNat
  shared : Threads.count (owner .shared_lock) s.guard = s.m_mutex.shared
  apart : s.m_mutex.locked = true → s.m_mutex.shared = 0

variable [Fintype γ]

omit [DecidableEq γ] in
theorem exclusion_construct (data : α) : Exclusion (construct data : ReadWriteLock γ α) where
  locked := Threads.count_eq_zero fun _ => rfl
  shared := Threads.count_eq_zero fun _ => rfl
  apart h := by cases h

omit [DecidableEq γ] in
/-- A guard that owns the mutex exclusively is the only one that owns it. -/
theorem Exclusion.alone (h : Exclusion s) {g g' : γ} {type : LockType}
    (hg : s.Owns g .unique_lock) (hg' : s.Owns g' type) : g' = g := by
  have hlocked := h.locked
  have hone := Bool.toNat_le s.m_mutex.locked
  cases type with
  | unique_lock => exact Threads.eq_of_count_le_one (hlocked.trans_le hone) hg' hg
  | shared_lock =>
      have hpos := Threads.count_pos hg
      have hreader := Threads.count_pos hg'
      rw [h.locked] at hpos
      rw [h.shared] at hreader
      have hzero := h.apart (toNat_pos hpos)
      omega

/-- One guard changes, and the mutex counts the change. -/
theorem Exclusion.update (h : Exclusion s) {g : γ} {guard : Option ScopedLockGuard}
    (hguard : s'.guard = Function.update s.guard g guard)
    (hlocked : s'.m_mutex.locked.toNat + (owner .unique_lock (s.guard g)).toNat
      = s.m_mutex.locked.toNat + (owner .unique_lock guard).toNat)
    (hshared : s'.m_mutex.shared + (owner .shared_lock (s.guard g)).toNat
      = s.m_mutex.shared + (owner .shared_lock guard).toNat)
    (hapart : s'.m_mutex.locked = true → s'.m_mutex.shared = 0) : Exclusion s' := by
  have hunique := Threads.count_update (owner .unique_lock) s.guard g guard
  have hreaders := Threads.count_update (owner .shared_lock) s.guard g guard
  have hwas := h.locked
  have hwere := h.shared
  refine ⟨?_, ?_, hapart⟩
  · rw [hguard]
    omega
  · rw [hguard]
    omega

/-- A guard is constructed. -/
theorem Exclusion.constructed (h : Exclusion s) {g : γ} {type : LockType} {m : SharedMutex}
    (hfresh : s.guard g = none) (hm : s.m_mutex.acquire type = some m) :
    Exclusion (s.constructed g type m) := by
  cases type with
  | unique_lock =>
      simp only [SharedMutex.acquire, SharedMutex.lock] at hm
      split at hm
      · rename_i hfree
        cases hm
        refine h.update rfl ?_ ?_ fun _ => hfree.2
        · rw [hfresh, hfree.1]
          rfl
        · rw [hfresh]
          rfl
      · cases hm
  | shared_lock =>
      simp only [SharedMutex.acquire, SharedMutex.lock_shared] at hm
      split at hm
      · rename_i hfree
        cases hm
        refine h.update rfl ?_ ?_ fun hlocked => ?_
        · rw [hfresh]
          rfl
        · rw [hfresh]
          rfl
        · rw [show s.m_mutex.locked = true from hlocked] at hfree
          cases hfree
      · cases hm

/-- A guard is destroyed, and unlocks the mutex if it owns it. -/
theorem Exclusion.destroyed (h : Exclusion s) {g : γ} {guard : ScopedLockGuard}
    (hg : s.guard g = some guard) : Exclusion { s with
      m_mutex := guard.destructor s.m_mutex, guard := Function.update s.guard g none } := by
  obtain ⟨type, mutex, owns⟩ := guard
  cases owns with
  | false =>
      refine h.update rfl ?_ ?_ h.apart
      · rw [hg]
        rfl
      · rw [hg]
        rfl
  | true =>
      cases type with
      | unique_lock =>
          have howner : owner .unique_lock (s.guard g) = true := by rw [hg]; rfl
          have hpos := Threads.count_pos howner
          have hlocked : s.m_mutex.locked = true := by
            rw [h.locked] at hpos
            exact toNat_pos hpos
          refine h.update rfl ?_ ?_ nofun
          · rw [howner, hlocked]
            rfl
          · rw [hg]
            rfl
      | shared_lock =>
          have howner : owner .shared_lock (s.guard g) = true := by rw [hg]; rfl
          have hpos := Threads.count_pos howner
          rw [h.shared] at hpos
          refine h.update rfl ?_ ?_ fun hlocked => ?_
          · rw [hg]
            rfl
          · rw [howner]
            show s.m_mutex.shared - 1 + 1 = s.m_mutex.shared + 0
            omega
          · have hzero := h.apart hlocked
            omega

/-- A lock is moved from one guard to another. -/
theorem Exclusion.lock_moved (h : Exclusion s) {g g' : γ} {guard : ScopedLockGuard}
    (hg : s.guard g = some guard) (hfresh : s.guard g' = none) : Exclusion { s with
      guard := Function.update (Function.update s.guard g (some guard.moved_from)) g'
        (some guard) } := by
  have hne : g' ≠ g := by
    intro heq
    rw [heq, hg] at hfresh
    cases hfresh
  have hnone : ∀ type, owner type (some guard.moved_from) = false := fun type => rfl
  have hcount : ∀ type, Threads.count (owner type) (Function.update
      (Function.update s.guard g (some guard.moved_from)) g' (some guard))
      = Threads.count (owner type) s.guard := by
    intro type
    have hfirst := Threads.count_update (owner type) s.guard g (some guard.moved_from)
    have hsecond := Threads.count_update (owner type)
      (Function.update s.guard g (some guard.moved_from)) g' (some guard)
    rw [Function.update_of_ne hne, hfresh] at hsecond
    rw [hg, hnone] at hfirst
    simp only [owner, Bool.toNat_false] at hfirst hsecond
    omega
  exact ⟨(hcount _).trans h.locked, (hcount _).trans h.shared, h.apart⟩

/-- **Every step keeps the guards apart.** -/
theorem Exclusion.step (h : Exclusion s) {a : Action γ α} (hchange : Change moved s a s') :
    Exclusion s' := by
  cases hchange with
  | constructed hfresh hm => exact h.constructed hfresh hm
  | kept => exact h
  | moved hg hfresh => exact h.lock_moved hg hfresh
  | destroyed hg => exact h.destroyed hg
  | set => exact ⟨h.locked, h.shared, h.apart⟩
  | moved_out hm =>
      simp only [SharedMutex.lock] at hm
      split at hm
      · rename_i hfree
        cases hm
        refine ⟨?_, h.shared, nofun⟩
        rw [h.locked, hfree.1]
        rfl
      · cases hm

theorem exclusion_run {data : α} {as : List (Action γ α)} {es : List (Event α)}
    {s : ReadWriteLock γ α}
    (hrun : Machine.Run (step moved) (fun _ _ => True) (construct data) as es s) :
    Exclusion s :=
  hrun.invariant (fun _ _ _ _ h _ hstep => h.step (step_cases hstep)) (exclusion_construct data)

/-! ### What a guard is for -/

omit [DecidableEq γ] [Fintype γ] in
/-- A mutex that nobody has can be locked. -/
theorem acquire_of_free {m : SharedMutex} (hlocked : m.locked = false) (hshared : m.shared = 0)
    (type : LockType) : (m.acquire type).isSome = true := by
  cases type with
  | unique_lock =>
      rw [SharedMutex.acquire, SharedMutex.lock, if_pos ⟨hlocked, hshared⟩]
      rfl
  | shared_lock =>
      rw [SharedMutex.acquire, SharedMutex.lock_shared, if_pos hlocked]
      rfl

omit [DecidableEq γ] in
/-- When no guard owns the mutex, nobody waits for it. -/
theorem Exclusion.free (h : Exclusion s) (hnone : ∀ g type, ¬ s.Owns g type) (type : LockType) :
    (s.m_mutex.acquire type).isSome = true := by
  have hno : ∀ t, Threads.count (owner t) s.guard = 0 := fun t =>
    Threads.count_eq_zero fun g => Bool.eq_false_iff.mpr (hnone g t)
  refine acquire_of_free ?_ (h.shared.symm.trans (hno _)) type
  have hlocked := h.locked.symm.trans (hno _)
  cases hl : s.m_mutex.locked with
  | false => rfl
  | true =>
      rw [hl] at hlocked
      cases hlocked

/--
A step that leaves `g` alone: it does not destroy it or move its lock away, nor assign
through it; and it assigns only through a guard that owns the mutex.
-/
def respects (g : γ) (s : ReadWriteLock γ α) : Action γ α → Prop
  | .destroy g' | .move g' _ => g' ≠ g
  | .set g' _ => g' ≠ g ∧ s.Owns g' .unique_lock
  | _ => True

/-- The guard `g` owns the mutex, and the data is what it was. -/
structure Holding (g : γ) (type : LockType) (data : α) (s : ReadWriteLock γ α) : Prop where
  exclusion : Exclusion s
  owns : s.Owns g type
  data : s.m_data = data

/-- **Under a guard that owns the mutex nobody else changes the data.** -/
theorem Holding.step {g : γ} {type : LockType} {data : α} (h : Holding g type data s)
    {a : Action γ α} (hguard : respects g s a) (hchange : Change moved s a s') :
    Holding g type data s' := by
  have hnext := h.exclusion.step hchange
  have howns := h.owns
  have hsome : ∀ {g'}, s.guard g' = none → g ≠ g' := by
    intro g' hfresh heq
    rw [Owns, heq, hfresh] at howns
    cases howns
  cases hchange with
  | @constructed _ g' type' m hfresh hm =>
      refine ⟨hnext, ?_, h.data⟩
      show owner type (Function.update s.guard g' (some (.locked type')) g) = true
      rw [Function.update_of_ne (hsome hfresh)]
      exact howns
  | kept => exact h
  | @moved g' h' guard hg hfresh =>
      refine ⟨hnext, ?_, h.data⟩
      show owner type (Function.update (Function.update s.guard g' _) h' _ g) = true
      rw [Function.update_of_ne (hsome hfresh), Function.update_of_ne (Ne.symm hguard)]
      exact howns
  | @destroyed g' guard hg =>
      refine ⟨hnext, ?_, h.data⟩
      show owner type (Function.update s.guard g' none g) = true
      rw [Function.update_of_ne (Ne.symm hguard)]
      exact howns
  | set hg htype => exact absurd (h.exclusion.alone hguard.2 howns).symm hguard.1
  | moved_out hm =>
      -- nobody owned the mutex then
      simp only [SharedMutex.lock] at hm
      split at hm
      · rename_i hfree
        have hpos := Threads.count_pos howns
        cases type with
        | unique_lock =>
            rw [h.exclusion.locked, hfree.1] at hpos
            cases hpos
        | shared_lock =>
            rw [h.exclusion.shared, hfree.2] at hpos
            cases hpos
      · cases hm

/--
**What the guards promise, over every program's run.**  A guard that owns the mutex
exclusively is the only one that owns it; when none does nobody has to wait; and as long as
a guard owns it, read or write, nobody else changes the data.
-/
theorem guards_protect {data : α} {as : List (Action γ α)} {es : List (Event α)}
    {s : ReadWriteLock γ α}
    (hrun : Machine.Run (step moved) (fun _ _ => True) (construct data) as es s) :
    (∀ g g' type, s.Owns g .unique_lock → s.Owns g' type → g' = g) ∧
      ((∀ g type, ¬ s.Owns g type) → ∀ type, (s.m_mutex.acquire type).isSome = true) ∧
      ∀ g type, s.Owns g type → ∀ bs es' s', Machine.Run (step moved) (respects g) s bs es' s' →
        s'.Owns g type ∧ s'.m_data = s.m_data := by
  have hexclusion := exclusion_run hrun
  refine ⟨fun g g' type => hexclusion.alone, hexclusion.free, ?_⟩
  intro g type howns bs es' s' hrun'
  have hholding : Holding g type s.m_data s' := hrun'.invariant
    (fun _ _ _ _ h hguard hstep => h.step hguard (step_cases hstep)) ⟨hexclusion, howns, rfl⟩
  exact ⟨hholding.owns, hholding.data⟩

/-- A reader, and a writer that gets in after it. -/
theorem guards_protect_two : ∃ s : ReadWriteLock (Fin 2) Nat, s.m_data = 7 ∧
    ∀ g type, s.Owns g type → ∀ bs es' s', Machine.Run (step id) (respects g) s bs es' s' →
      s'.Owns g type ∧ s'.m_data = s.m_data := by
  obtain ⟨s, es, s', hs, hrun, hdata⟩ := Machine.exists_run (step (id : Nat → Nat))
    (fun _ _ => True) (some (construct 5))
    [.read (0 : Fin 2), .try_write 1 false, .destroy 0, .write 1, .set 1 7]
    (fun r => r.2.m_data == 7) (by decide)
  cases hs
  exact ⟨s', eq_of_beq hdata, (guards_protect hrun).2.2⟩

/-- Without its lock a guard still has its reference: the data changes under a reader. -/
theorem moved_from_guard_writes : ∃ (s s' : ReadWriteLock (Fin 4) Nat) (es : List (Event Nat)),
    s.Owns 3 .shared_lock ∧ s'.Owns 3 .shared_lock ∧
      Machine.Run (step id) (fun _ _ => True) s [.set 0 7] es s' ∧ s'.m_data ≠ s.m_data := by
  obtain ⟨s, es, s', hs, hrun, hlast⟩ := Machine.exists_run (step (id : Nat → Nat))
    (fun _ _ => True) (some (construct 5))
    [.write (0 : Fin 4), .move 0 1, .destroy 1, .read 3]
    (fun r => (r.2.m_data == 5 && owner .shared_lock (r.2.guard 3)) &&
      decide (r.2.guard 0 = some ⟨.unique_lock, false, false⟩)) (by decide)
  cases hs
  obtain ⟨hlast, hguard⟩ := Bool.and_eq_true_iff.mp hlast
  obtain ⟨hdata, howns⟩ := Bool.and_eq_true_iff.mp hlast
  have hguard : s'.guard 0 = some ⟨.unique_lock, false, false⟩ := of_decide_eq_true hguard
  have hdata : s'.m_data = 5 := eq_of_beq hdata
  have hset : s'.step id (.set 0 7) = some (.done, { s' with m_data := 7 }) := by
    simp only [step, set, hguard]
    rfl
  refine ⟨s', { s' with m_data := 7 }, [.done], howns, howns, .single trivial hset, ?_⟩
  show 7 ≠ s'.m_data
  rw [hdata]
  decide

end ReadWriteLock

end Hyperion
