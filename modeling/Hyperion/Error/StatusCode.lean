/-
Status codes of `Hyperion/error/StatusCode.h`, and what they ask of a domain.

A domain gives the codes of its value type their meaning, and a `StatusCode` is such a
code with an object of its domain.
-/

namespace Hyperion

/-- `StatusCode<Domain>`, of domain objects `δ` and codes `ν`. -/
structure StatusCode (δ ν : Type) where
  m_domain : δ
  m_code : ν
deriving DecidableEq

/-- What a type makes of what is moved from, and of what is moved onto itself. -/
structure MoveType (α : Type) where
  moved : α → α
  self_moved : α → α

/-- A scalar stays as it is. -/
def MoveType.scalar {α : Type} : MoveType α := ⟨id, id⟩

/-- What the codes ask of their domain, of whose enumerations `η` is the disjoint union. -/
structure CodeDomain (δ ν η : Type) where
  make_status_code_domain : δ
  is_error : δ → StatusCode δ ν → Bool
  is_success : δ → StatusCode δ ν → Bool
  success_value : ν
  of_enum : η → ν
  move_domain : MoveType δ
  move_code : MoveType ν

namespace StatusCode

variable {δ ν η : Type}

/-- `StatusCode(code)` of an enumerator, and `make_status_code(code)`. -/
def make (D : CodeDomain δ ν η) (code : η) : StatusCode δ ν :=
  ⟨D.make_status_code_domain, D.of_enum code⟩

/-- `assign(code)` of a value -/
def assign (this : StatusCode δ ν) (code : ν) : StatusCode δ ν := { this with m_code := code }

/-- `assign(code)` of an enumerator, which makes a whole status code of it -/
def assign_enum (D : CodeDomain δ ν η) (_this : StatusCode δ ν) (code : η) : StatusCode δ ν :=
  make D code

/-- `clear()` -/
def clear (D : CodeDomain δ ν η) (this : StatusCode δ ν) : StatusCode δ ν :=
  { this with m_code := D.success_value }

/-- `is_error()` -/
def is_error (D : CodeDomain δ ν η) (this : StatusCode δ ν) : Bool :=
  D.is_error this.m_domain this

/-- `is_success()` -/
def is_success (D : CodeDomain δ ν η) (this : StatusCode δ ν) : Bool :=
  D.is_success this.m_domain this

/-- What a move leaves. -/
def moved (D : CodeDomain δ ν η) (this : StatusCode δ ν) : StatusCode δ ν :=
  ⟨D.move_domain.moved this.m_domain, D.move_code.moved this.m_code⟩

/-- What a move onto itself leaves. -/
def self_moved (D : CodeDomain δ ν η) (this : StatusCode δ ν) : StatusCode δ ν :=
  ⟨D.move_domain.self_moved this.m_domain, D.move_code.self_moved this.m_code⟩

/-- The domain calls the code an error or a success. -/
def decided (D : CodeDomain δ ν η) (this : StatusCode δ ν) : Bool :=
  this.is_error D || this.is_success D

end StatusCode

end Hyperion
