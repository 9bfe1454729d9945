/-
Error codes of `Hyperion/error/StatusCode.h`.

An `ErrorCode` is a `StatusCode` with constructors and an assignment of its own, which
panic where the code is a success; but `assign` and `clear` are inherited as they are, and
ask nothing.
-/
import Hyperion.Error.Domains
import Hyperion.Lib.Objects

namespace Hyperion

namespace ErrorCode

variable {δ ν η : Type}

/-- The check of the constructors and the assignment: a success is a panic. -/
def checked (D : CodeDomain δ ν η) (this : StatusCode δ ν) : Option (StatusCode δ ν) :=
  if this.is_success D then none else some this

/-- What an `ErrorCode` is constructed from. -/
inductive Source (δ ν η : Type)
  | value (code : ν) (domain : δ)
  | enum (code : η)

/-- `ErrorCode(code, domain)` and `ErrorCode(code)` -/
def construct (D : CodeDomain δ ν η) : Source δ ν η → Option (StatusCode δ ν)
  | .value code domain => checked D ⟨domain, code⟩
  | .enum code => checked D { StatusCode.make D code with m_code := D.of_enum code }

/-- `operator=(code)` of an enumerator -/
def assign_enum (D : CodeDomain δ ν η) (this : StatusCode δ ν) (code : η) :
    Option (StatusCode δ ν) :=
  checked D { this with m_code := D.of_enum code }

/-- Copying or moving. -/
inductive Transfer
  | copy
  | move

/-- The member functions that change an `ErrorCode`, its own and the inherited ones. -/
inductive Use (ν η : Type)
  | operator_assign (code : η)
  | assign (code : ν)
  | assign_enum (code : η)
  | clear

/-- The class; a panic ends the program. -/
def type (D : CodeDomain δ ν η) :
    ObjectType (StatusCode δ ν) (Source δ ν η) Transfer (Use ν η) Unit where
  construct := construct D
  construct_from
    | .copy, code => some (code, code)
    | .move, code => some (code, code.moved D)
  assign_from
    | .copy, _, code => some (code, code)
    | .move, _, code => some (code, code.moved D)
  assign_self
    | .copy, this => some this
    | .move, this => some (this.self_moved D)
  call
    | .operator_assign code, this => (assign_enum D this code).map fun this => ((), this)
    | .assign code, this => some ((), this.assign code)
    | .assign_enum code, this => some ((), this.assign_enum D code)
    | .clear, this => some ((), this.clear D)
  destroy this := some this

/--
The domain decides what is checked, what is moved from stays an error, and the inherited
member functions are given an error.
-/
def cautious (D : CodeDomain δ ν η) :
    Objects.Guard (StatusCode δ ν) (Source δ ν η) Transfer (Use ν η) where
  construct
    | .value code domain => StatusCode.decided D ⟨domain, code⟩ = true
    | .enum code => (StatusCode.make D code).decided D = true
  construct_from
    | .copy, _ => True
    | .move, code => (code.moved D).is_error D = true
  assign_from
    | .copy, _, _ => True
    | .move, _, code => (code.moved D).is_error D = true
  assign_self
    | .copy, _ => True
    | .move, this => (this.self_moved D).is_error D = true
  call
    | .operator_assign code, this => (this.assign (D.of_enum code)).decided D = true
    | .assign code, this => (this.assign code).is_error D = true
    | .assign_enum code, _ => (StatusCode.make D code).is_error D = true
    | .clear, this => (this.assign D.success_value).is_error D = true

/-- What passes the check is an error where the domain decides it. -/
theorem checked_iff {D : CodeDomain δ ν η} {this code : StatusCode δ ν}
    (h : checked D this = some code) : code.is_error D = true ↔ this.decided D = true := by
  unfold checked at h
  split at h
  · cases h
  · rename_i hsuccess
    cases h
    rw [StatusCode.decided, Bool.eq_false_iff.mpr hsuccess, Bool.or_false]

/-- **What the class makes is an error exactly under the condition.** -/
theorem exactly_cautious (D : CodeDomain δ ν η) :
    Objects.Exactly (type D) (cautious D) (fun code => code.is_error D = true)
      fun _ => True := by
  refine ⟨?_, ?_, ?_, ?_, ?_, fun _ _ _ _ => iff_of_true trivial trivial⟩
  · intro source code h
    cases source with
    | value code domain => exact checked_iff h
    | enum code => exact checked_iff h
  · intro transfer code p hcode h
    cases transfer with
    | copy =>
        cases h
        exact iff_of_true ⟨hcode, hcode⟩ trivial
    | move =>
        cases h
        exact and_iff_right hcode
  · intro transfer this code p _ hcode h
    cases transfer with
    | copy =>
        cases h
        exact iff_of_true ⟨hcode, hcode⟩ trivial
    | move =>
        cases h
        exact and_iff_right hcode
  · intro transfer this this' hthis h
    cases transfer with
    | copy =>
        cases h
        exact iff_of_true hthis trivial
    | move =>
        cases h
        exact Iff.rfl
  · intro use this p _ h
    cases use with
    | operator_assign code =>
        obtain ⟨this', hchecked, rfl⟩ := Option.map_eq_some_iff.mp h
        exact checked_iff hchecked
    | assign code =>
        cases h
        exact Iff.rfl
    | assign_enum code =>
        cases h
        exact Iff.rfl
    | clear =>
        cases h
        exact Iff.rfl

/-! ### Lawful domains -/

/-- A domain as its documentation has it, of scalar codes. -/
structure Lawful (D : CodeDomain δ ν η) : Prop where
  error_iff : ∀ code : StatusCode δ ν, code.is_error D = !code.is_success D
  success : ∀ domain, StatusCode.is_success D ⟨domain, D.success_value⟩ = true
  domains : D.move_domain = .scalar
  codes : D.move_code = .scalar

/-- What is left to ask of a statement there: nothing of what `ErrorCode` itself declares. -/
def Inherits (D : CodeDomain δ ν η) (w : Nat → Life (StatusCode δ ν)) :
    Objects.Op (Source δ ν η) Transfer (Use ν η) → Prop
  | .call i (.assign code) => ∀ this ∈ Objects.get w i, (this.assign code).is_error D = true
  | .call i (.assign_enum code) =>
      ∀ _this ∈ Objects.get w i, (StatusCode.make D code).is_error D = true
  | .call i .clear => Objects.get w i = none
  | _ => True

/-- **In a lawful domain only `clear` and an inherited `assign` of a success go wrong.** -/
theorem Lawful.admits_iff {D : CodeDomain δ ν η} (hD : Lawful D)
    {w : Nat → Life (StatusCode δ ν)}
    (herrors : Objects.Each (fun code => code.is_error D = true) (fun _ => True) w)
    (op : Objects.Op (Source δ ν η) Transfer (Use ν η)) :
    (cautious D).admits w op ↔ Inherits D w op := by
  have hdecided : ∀ code : StatusCode δ ν, code.decided D = true := by
    intro code
    rw [StatusCode.decided, hD.error_iff, Bool.not_or_self]
  have hmoved : ∀ code : StatusCode δ ν, code.moved D = code := by
    intro code
    rw [StatusCode.moved, hD.domains, hD.codes]
    rfl
  have hself : ∀ code : StatusCode δ ν, code.self_moved D = code := by
    intro code
    rw [StatusCode.self_moved, hD.domains, hD.codes]
    rfl
  cases op with
  | construct j source =>
      cases source with
      | value code domain => exact iff_of_true (hdecided _) trivial
      | enum code => exact iff_of_true (hdecided _) trivial
  | construct_from j i transfer =>
      refine iff_of_true (fun code hcode => ?_) trivial
      cases transfer with
      | copy => exact trivial
      | move =>
          show (code.moved D).is_error D = true
          rw [hmoved]
          exact herrors.get hcode
  | assign_from j i transfer =>
      refine iff_of_true ?_ trivial
      show if j = i then _ else _
      split
      · intro this hthis
        cases transfer with
        | copy => exact trivial
        | move =>
            show (this.self_moved D).is_error D = true
            rw [hself]
            exact herrors.get hthis
      · intro this _ code hcode
        cases transfer with
        | copy => exact trivial
        | move =>
            show (code.moved D).is_error D = true
            rw [hmoved]
            exact herrors.get hcode
  | call i use =>
      cases use with
      | operator_assign code => exact iff_of_true (fun _ _ => hdecided _) trivial
      | assign code => exact Iff.rfl
      | assign_enum code => exact Iff.rfl
      | clear =>
          show (∀ this ∈ Objects.get w i, _) ↔ Objects.get w i = none
          cases hget : Objects.get w i with
          | none => exact iff_of_true (fun this hthis => by cases hthis) rfl
          | some this =>
              refine iff_of_false (fun hall => ?_) (fun h => by cases h)
              have herror := hall this rfl
              rw [show (cautious D).call .clear this
                = ((this.assign D.success_value).is_error D = true) from rfl, hD.error_iff,
                show (this.assign D.success_value).is_success D = true from hD.success _] at herror
              cases herror
  | destroy i => exact iff_of_true (fun _ _ => trivial) trivial

/-- A domain of scalars whose only success is a value of its own is lawful. -/
theorem Lawful.of_success [DecidableEq ν] {D : CodeDomain δ ν η}
    (herror : ∀ d code, D.is_error d code = (code.m_code != D.success_value))
    (hsuccess : ∀ d code, D.is_success d code = (code.m_code == D.success_value))
    (hdomains : D.move_domain = .scalar) (hcodes : D.move_code = .scalar) : Lawful D := by
  refine ⟨fun code => ?_, fun domain => ?_, hdomains, hcodes⟩
  · rw [StatusCode.is_error, StatusCode.is_success, herror, hsuccess]
    rfl
  · rw [StatusCode.is_success, hsuccess]
    exact beq_self_eq_true _

/-- **All domains here are lawful.** -/
theorem lawful_domains (P : Platform) :
    Lawful (GenericDomain.codes P) ∧ Lawful PosixDomain.codes ∧ Lawful Win32Domain.codes ∧
      Lawful NTDomain.codes ∧ Lawful (QueueErrorDomain P).codes ∧
      Lawful (LoggerErrorDomain P).codes :=
  ⟨.of_success (fun _ _ => rfl) (fun _ _ => rfl) rfl rfl,
    .of_success (fun _ _ => rfl) (fun _ _ => rfl) rfl rfl,
    .of_success (fun _ _ => rfl) (fun _ _ => rfl) rfl rfl,
    .of_success (fun _ _ => rfl) (fun _ _ => rfl) rfl rfl,
    .of_success (fun _ _ => rfl) (fun _ _ => rfl) rfl rfl,
    .of_success (fun _ _ => rfl) (fun _ _ => rfl) rfl rfl⟩

/-! ### Every program -/

/--
**Every `ErrorCode` is an error after every statement** of exactly those programs that
meet the condition throughout; in a lawful domain, exactly those that never call `clear`
and give the inherited `assign` errors only.
-/
theorem error_throughout_iff {D : CodeDomain δ ν η}
    {ops : List (Objects.Op (Source δ ν η) Transfer (Use ν η))} {outs : List (Option Unit)}
    {w : Nat → Life (StatusCode δ ν)}
    (hrun : Machine.Run (Objects.step (type D)) (fun _ _ => True) Objects.start ops outs w) :
    (Machine.Run (Objects.step (type D)) (Machine.leadsTo (Objects.step (type D))
        (Objects.Each (fun code => code.is_error D = true) fun _ => True)) Objects.start
        ops outs w ↔
      Machine.Run (Objects.step (type D)) (cautious D).admits Objects.start ops outs w) ∧
    (Lawful D → (Machine.Run (Objects.step (type D)) (Machine.leadsTo (Objects.step (type D))
        (Objects.Each (fun code => code.is_error D = true) fun _ => True)) Objects.start
        ops outs w ↔
      Machine.Run (Objects.step (type D)) (Inherits D) Objects.start ops outs w)) :=
  ⟨(exactly_cautious D).run hrun, fun hD => hrun.leadsTo_iff (fun _ op _ _ herrors hstep =>
    ((exactly_cautious D).step herrors hstep).trans (hD.admits_iff herrors op))
    Objects.Each.start⟩

section Decidable

variable (D : CodeDomain δ ν η)

instance (source : Source δ ν η) : Decidable ((cautious D).construct source) :=
  match source with
  | .value _ _ | .enum _ => inferInstanceAs (Decidable (_ = true))

instance (transfer : Transfer) (code : StatusCode δ ν) :
    Decidable ((cautious D).construct_from transfer code) :=
  match transfer with
  | .copy => inferInstanceAs (Decidable True)
  | .move => inferInstanceAs (Decidable (_ = true))

instance (transfer : Transfer) (this code : StatusCode δ ν) :
    Decidable ((cautious D).assign_from transfer this code) :=
  match transfer with
  | .copy => inferInstanceAs (Decidable True)
  | .move => inferInstanceAs (Decidable (_ = true))

instance (transfer : Transfer) (this : StatusCode δ ν) :
    Decidable ((cautious D).assign_self transfer this) :=
  match transfer with
  | .copy => inferInstanceAs (Decidable True)
  | .move => inferInstanceAs (Decidable (_ = true))

instance (use : Use ν η) (this : StatusCode δ ν) : Decidable ((cautious D).call use this) :=
  match use with
  | .operator_assign _ | .assign _ | .assign_enum _ | .clear =>
      inferInstanceAs (Decidable (_ = true))

instance (this : StatusCode δ ν) : Decidable ((cautious D).destroy this) :=
  inferInstanceAs (Decidable True)

end Decidable

/-- A code of the C library that is assigned another error and moved stays an error. -/
theorem error_throughout_moved : ∃ (outs : List (Option Unit))
    (w : Nat → Life (StatusCode (BitVec 64) (BitVec 64))),
    Machine.Run (Objects.step (type PosixDomain.codes)) (Machine.leadsTo
      (Objects.step (type PosixDomain.codes))
      (Objects.Each (fun code => code.is_error PosixDomain.codes = true) fun _ => True))
      Objects.start
      [.construct 0 (.value 2 0), .call 0 (.assign 13), .construct_from 1 0 .move] outs w ∧
    Machine.Run (Objects.step (type PosixDomain.codes)) (Inherits PosixDomain.codes)
      Objects.start
      [.construct 0 (.value 2 0), .call 0 (.assign 13), .construct_from 1 0 .move] outs w := by
  obtain ⟨s, outs, w, hs, hrun, -⟩ := Machine.exists_run
    (Objects.step (type PosixDomain.codes)) (cautious PosixDomain.codes).admits
    (some Objects.start)
    [.construct 0 (.value 2 0), .call 0 (.assign 13), .construct_from 1 0 .move]
    (fun _ => true) (by decide)
  cases hs
  obtain ⟨hcautious, hlawful⟩ := error_throughout_iff hrun.any
  have hleads := hcautious.mpr hrun
  exact ⟨outs, w, hleads, (hlawful (lawful_domains .linux).2.1).mp hleads⟩

/-- `clear` makes an `ErrorCode` a success. -/
theorem cleared_success : ¬ ∀ (ops : List (Objects.Op (Source (BitVec 64) (BitVec 64) Empty)
      Transfer (Use (BitVec 64) Empty))) (outs : List (Option Unit))
    (w : Nat → Life (StatusCode (BitVec 64) (BitVec 64))),
    Machine.Run (Objects.step (type PosixDomain.codes)) (fun _ _ => True) Objects.start ops outs
      w →
    Objects.Each (fun code => code.is_error PosixDomain.codes = true) (fun _ => True) w := by
  intro hclaim
  obtain ⟨s, outs, w, hs, hrun, hget⟩ := Machine.exists_run
    (Objects.step (type PosixDomain.codes)) (fun _ _ => True) (some Objects.start)
    [.construct 0 (.value 2 0), .call 0 .clear]
    (fun r => (Objects.get r.2 0).any fun code => code.is_success PosixDomain.codes) (by decide)
  cases hs
  obtain ⟨code, hcode, hsuccess⟩ := (Option.any_eq_true _ _).mp hget
  have herror : code.is_error PosixDomain.codes = true := (hclaim _ _ _ hrun).get hcode
  rw [(lawful_domains .linux).2.1.error_iff, hsuccess] at herror
  cases herror

end ErrorCode

end Hyperion
