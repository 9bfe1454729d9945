/-
A code and its generic equivalent: errors on both sides, or on neither.

Each domain has a rule for errors and a table of generic equivalents.  Two things decide:
the table gives `Success` for the code that is no error, and for no other.  `NTDomain`
calls every code but zero an error, and gives `Success` for every code that is not negative.
-/
import Hyperion.Error.Domains

namespace Hyperion

/-- The domains whose codes have generic equivalents. -/
inductive ConvertibleDomain
  | Posix
  | Win32
  | NT
  | Queue
  | Logger
deriving DecidableEq

namespace ConvertibleDomain

/-- The width of the codes. -/
def width : ConvertibleDomain → Nat
  | Posix => 64
  | Win32 => 32
  | NT => 32
  | Queue => 8
  | Logger => 8

/-- `is_error(code)` -/
def is_error (P : Platform) : (d : ConvertibleDomain) → BitVec d.width → Bool
  | Posix => PosixDomain.is_error
  | Win32 => Win32Domain.is_error
  | NT => NTDomain.is_error
  | Queue => (QueueErrorDomain P).is_error
  | Logger => (LoggerErrorDomain P).is_error

/-- `as_generic_code(code)` -/
def as_generic_code (P : Platform) : (d : ConvertibleDomain) → BitVec d.width → BitVec 32
  | Posix => fun code => (PosixDomain.to_generic_code P code).value P
  | Win32 => fun code => (Win32Domain.to_generic_code code).value P
  | NT => fun code => (NTDomain.to_generic_code code).value P
  | Queue => (QueueErrorDomain P).to_generic_code_function
  | Logger => (LoggerErrorDomain P).to_generic_code_function

end ConvertibleDomain

namespace Errno

/-- An enumerator is an error unless it is `Success`. -/
theorem is_error_value (P : Platform) (e : Errno) :
    GenericDomain.is_error P (e.value P) = decide (e ≠ .Success) := by
  rw [GenericDomain.is_error, Bool.eq_iff_iff, bne_iff_ne, decide_eq_true_iff]
  exact not_congr (value_eq_zero P e)

end Errno

/-- A switch none of whose cases is `Success` gives another enumerator. -/
theorem switch_ne_success {ν : Type} [DecidableEq ν] {cases : List (ν × Errno)}
    (hcases : ∀ c ∈ cases, c.2 ≠ .Success) (code : ν) : switch cases .Unknown code ≠ .Success := by
  rcases switch_cases cases .Unknown code with hdefault | ⟨c, hc, -, heq⟩
  · rw [hdefault]
    decide
  · rw [heq]
    exact hcases c hc

/-- **A switch gives `Success` for the code of its first case only**, where no other is. -/
theorem switch_success_iff {ν : Type} [DecidableEq ν] {cases : List (ν × Errno)}
    (hcases : ∀ c ∈ cases, c.2 ≠ .Success) (zero code : ν) :
    switch ((zero, .Success) :: cases) .Unknown code = .Success ↔ code = zero := by
  rw [switch_cons]
  split
  · rename_i hzero
    exact iff_of_true rfl hzero.symm
  · rename_i hzero
    exact iff_of_false (switch_ne_success hcases code) (Ne.symm hzero)

/-! ### The tables -/

theorem PosixDomain.to_generic_success (P : Platform) (code : BitVec 64) :
    to_generic_code P code = .Success ↔ code = 0 := by
  refine switch_success_iff (fun c hc => ?_) 0 code
  obtain ⟨d, hd, rfl⟩ := List.mem_map.mp hc
  have htable : ∀ d ∈ cases, d.2 ≠ .Success := by decide
  exact htable d (List.mem_of_mem_filter hd)

theorem Win32Domain.to_generic_success (code : BitVec 32) :
    to_generic_code code = .Success ↔ code = 0 :=
  switch_success_iff (show ∀ c ∈ cases.tail, c.2 ≠ .Success by decide) 0 code

/-- No code that is negative is a success, and every other one is. -/
theorem NTDomain.to_generic_success (code : BitVec 32) :
    to_generic_code code = .Success ↔ 0 ≤ code.toInt := by
  unfold to_generic_code
  split
  · rename_i hsle
    exact iff_of_true rfl (by simpa [BitVec.sle] using hsle)
  · rename_i hsle
    refine iff_of_false (switch_ne_success (by decide) _) fun hle => hsle ?_
    simpa [BitVec.sle] using hle

/-- An enumerator that is `Success` for the code zero only is an error where the code is. -/
theorem Errno.is_error_iff {w : Nat} (P : Platform) {e : Errno} {code : BitVec w}
    (h : e = .Success ↔ code = 0) : (code != 0) = GenericDomain.is_error P (e.value P) := by
  rw [is_error_value, Bool.eq_iff_iff, bne_iff_ne, decide_eq_true_iff]
  exact not_congr h.symm

theorem PosixDomain.generic_error (P : Platform) (code : BitVec 64) :
    is_error code = GenericDomain.is_error P ((to_generic_code P code).value P) :=
  Errno.is_error_iff P (to_generic_success P code)

theorem Win32Domain.generic_error (P : Platform) (code : BitVec 32) :
    is_error code = GenericDomain.is_error P ((to_generic_code code).value P) :=
  Errno.is_error_iff P (to_generic_success code)

/-- The positive codes are errors that are converted to a success. -/
theorem NTDomain.generic_error (P : Platform) (code : BitVec 32) :
    is_error code = GenericDomain.is_error P ((to_generic_code code).value P) ↔
      code.toInt ≤ 0 := by
  have hzero : code = 0 ↔ code.toInt = 0 := by
    rw [← BitVec.toInt_inj]
    rfl
  rw [Errno.is_error_value, is_error, Bool.eq_iff_iff, bne_iff_ne, decide_eq_true_iff, ne_eq,
    ne_eq, to_generic_success, not_iff_not, hzero]
  constructor
  · intro h
    exact Int.not_lt.mp fun hpos => absurd (h.mpr (le_of_lt hpos)) (ne_of_gt hpos)
  · intro h
    exact ⟨fun heq => le_of_eq heq.symm, fun hle => le_antisymm h hle⟩

/-- The conversion of an enumeration keeps what is an error. -/
theorem to_generic_category_error (P : Platform) (code : BitVec 8) :
    (code != 0) = GenericDomain.is_error P (to_generic_category P 0 (-1) code) := by
  unfold to_generic_category
  split
  · rename_i hcase
    rcases hcase with rfl | rfl <;> rfl
  · rename_i hcase
    rw [Errno.is_error_value, Bool.eq_iff_iff, bne_iff_ne]
    exact iff_of_true (fun hzero => hcase (.inl hzero)) rfl

/-! ### Every domain -/

open ConvertibleDomain in
/--
**A code is an error in its domain exactly if its generic equivalent is one**, for every
code of every domain but the positive codes of `NTDomain`.
-/
theorem generic_error_iff (P : Platform) (d : ConvertibleDomain) (code : BitVec d.width) :
    is_error P d code = GenericDomain.is_error P (as_generic_code P d code) ↔
      (d = NT → code.toInt ≤ 0) := by
  cases d with
  | Posix => exact iff_of_true (PosixDomain.generic_error P code) (fun h => by cases h)
  | Win32 => exact iff_of_true (Win32Domain.generic_error P code) (fun h => by cases h)
  | NT => exact (NTDomain.generic_error P code).trans ⟨fun h _ => h, fun h => h rfl⟩
  | Queue => exact iff_of_true (to_generic_category_error P code) (fun h => by cases h)
  | Logger => exact iff_of_true (to_generic_category_error P code) (fun h => by cases h)

/-- `STATUS_PENDING` is an error, and what it is converted to is a success. -/
theorem pending_succeeds : ¬ ∀ (P : Platform) (d : ConvertibleDomain) (code : BitVec d.width),
    d.is_error P code = GenericDomain.is_error P (d.as_generic_code P code) := by
  intro hclaim
  have hpending := (generic_error_iff .linux .NT 0x103).mp (hclaim .linux .NT 0x103) rfl
  revert hpending
  decide

end Hyperion
