/-
Equality of status codes.

`operator==` asks the domain of its left operand, and each domain has an `are_equivalent`
of its own.  All of them are written around a concept, `ConvertibleToGenericStatusCode`:
where both codes have generic equivalents, those are to be compared.  The concept asks for
a member of a reference type, which no reference type has, and so it holds of no code.

What is left is this.  A generic code equals nothing.  Any other code equals one of a domain
of the same UUID whose value is equal, if neither value is the unknown one of its domain.
-/
import Hyperion.Error.Domains

namespace Hyperion

/--
The values that codes have, and C++'s `==` of them, where it compiles.  It compiles within
classes of comparable types, and is reflexive and symmetric; integers of mixed signs keep it
from being transitive.
-/
structure ValueTypes where
  Value : Type
  equal : Value → Value → Option Bool
  i64 : BitVec 64 → Value
  errno : BitVec 32 → Value
  minus_one : Value
  equal_symm : ∀ x y, equal x y = equal y x
  equal_self : ∀ x, equal x x = some true
  comparable : ∀ x y z, equal x y ≠ none → equal y z ≠ none → equal x z ≠ none
  equal_minus_one : ∀ x, equal (i64 x) minus_one = some (x == -1)

/-- What an expression has come to: it may not compile, or never end. -/
inductive Outcome (α : Type)
  | ill_formed
  | endless
  | returns (a : α)
deriving DecidableEq

/-- A `StatusCode` of `GenericDomain`, of `PosixDomain`, or of a domain the macro generates. -/
inductive Code (V : ValueTypes)
  | generic (m_uuid : BitVec 64) (m_code : BitVec 32)
  | posix (m_uuid : BitVec 64) (m_code : BitVec 64)
  | generated (M : MacroDomain V.Value) (m_uuid : BitVec 64) (m_code : V.Value)
      (typed : V.equal m_code M.unknown_value ≠ none)

namespace Code

variable {V : ValueTypes}

/-! ### The concept -/

/-- The classes of the codes. -/
inductive Class
  | generic
  | posix
  | generated

/-- Types made of these classes. -/
inductive CppType
  | class_type (c : Class)
  | const (t : CppType)
  | reference (t : CppType)

/-- The member type `domain_type`: a reference type has no members. -/
def CppType.domain_type : CppType → Option Class
  | .class_type c => some c
  | .const t => t.domain_type
  | .reference _ => none

/-- What the member `as_generic_code` of a domain is. -/
inductive Member
  | static_function
  | function
  | function_template
deriving DecidableEq

/-- `as_generic_code`, as the domains declare it. -/
def Class.as_generic_code : Class → Member
  | .generic => .function_template
  | .posix => .function
  | .generated => .function_template

/--
`ConvertibleToGenericStatusCode`, of `decltype(code)` for a `const Code& code`.  Only a
static function has a `decltype` by its name alone.
-/
def ConvertibleToGenericStatusCode (c : Class) : Bool :=
  match (CppType.reference (.const (.class_type c))).domain_type with
  | none => false
  | some d => d.as_generic_code = .static_function

/-- **The concept holds of no code.** -/
theorem never_convertible (c : Class) : ConvertibleToGenericStatusCode c = false := rfl

/-! ### Comparing -/

/-- The class of a code. -/
def type : Code V → Class
  | generic _ _ => .generic
  | posix _ _ => .posix
  | generated _ _ _ _ => .generated

/-- `domain().id()` -/
def id : Code V → BitVec 64
  | generic m_uuid _ => m_uuid
  | posix m_uuid _ => m_uuid
  | generated _ m_uuid _ _ => m_uuid

/-- `code()` -/
def value : Code V → V.Value
  | generic _ m_code => V.errno m_code
  | posix _ m_code => V.i64 m_code
  | generated _ _ m_code _ => m_code

/-- The value that `are_equivalent` of a domain takes for an unknown one. -/
def unknown_value : Code V → Option V.Value
  | generic _ _ => none
  | posix _ _ => some V.minus_one
  | generated M _ _ _ => some M.unknown_value

/-- Comparing the values, within a domain of one UUID; it has to compile in any case. -/
def by_value (lhs rhs : Code V) (unknown : V.Value) : Outcome Bool :=
  match V.equal lhs.value rhs.value, V.equal lhs.value unknown, V.equal rhs.value unknown with
  | some equal, some lhs_unknown, some rhs_unknown =>
      .returns (rhs.id == lhs.id && equal && !lhs_unknown && !rhs_unknown)
  | _, _, _ => .ill_formed

/-- `as_generic_code()`: that of a generic code asks its domain, which asks the domain of the
code, which is the same. -/
def as_generic_code (P : Platform) : Nat → Code V → Outcome (BitVec 32)
  | 0, _ => .endless
  | n + 1, generic m_uuid m_code => as_generic_code P n (generic m_uuid m_code)
  | _ + 1, posix _ m_code => .returns ((PosixDomain.to_generic_code P m_code).value P)
  | _ + 1, generated M _ m_code _ =>
      if M.IsConvertibleToGenericStatusCode then .returns (M.to_generic_code_function m_code)
      else .ill_formed

/-- `is_equivalent(rhs)`, which is `operator==`, by so many calls of one another. -/
def is_equivalent (P : Platform) : Nat → Code V → Code V → Outcome Bool
  | 0, _, _ => .endless
  | n + 1, generic _ lhs_code, rhs =>
      if ConvertibleToGenericStatusCode rhs.type then
        match as_generic_code P n rhs with
        | .returns code =>
            .returns (lhs_code == code && lhs_code != Errno.Unknown.value P &&
              code != Errno.Unknown.value P)
        | .ill_formed => .ill_formed
        | .endless => .endless
      else .returns false
  | n + 1, posix m_uuid m_code, rhs =>
      if ConvertibleToGenericStatusCode rhs.type then
        match as_generic_code P n rhs with
        | .returns code =>
            is_equivalent P n
              (generic GenericDomain.ID ((PosixDomain.to_generic_code P m_code).value P))
              (generic GenericDomain.ID code)
        | .ill_formed => .ill_formed
        | .endless => .endless
      else by_value (posix m_uuid m_code) rhs V.minus_one
  | n + 1, generated M m_uuid m_code typed, rhs =>
      let values := by_value (generated M m_uuid m_code typed) rhs M.unknown_value
      if M.IsConvertibleToGenericStatusCode ∧ ConvertibleToGenericStatusCode rhs.type then
        -- What comes after the `return` is compiled with it.
        match values, as_generic_code P n rhs with
        | .ill_formed, _ | _, .ill_formed => .ill_formed
        | _, .returns code =>
            is_equivalent P n (generic GenericDomain.ID (M.to_generic_code_function m_code))
              (generic GenericDomain.ID code)
        | _, .endless => .endless
      else values

/-- **What the comparison comes to**, since the concept never holds. -/
theorem is_equivalent_succ (P : Platform) (n : Nat) (lhs rhs : Code V) :
    is_equivalent P (n + 1) lhs rhs
      = match lhs.unknown_value with
        | none => .returns false
        | some unknown => by_value lhs rhs unknown := by
  cases lhs with
  | generic m_uuid m_code => rfl
  | posix m_uuid m_code => rfl
  | generated M m_uuid m_code typed =>
      simp only [is_equivalent, never_convertible, Bool.false_eq_true, and_false, if_false,
        unknown_value]

/-- The comparison compiles. -/
def WellFormed (P : Platform) (lhs rhs : Code V) : Prop :=
  ∀ n, is_equivalent P n lhs rhs ≠ .ill_formed

/-- The comparison gives `true`. -/
def Equivalent (P : Platform) (lhs rhs : Code V) : Prop :=
  ∃ n, is_equivalent P n lhs rhs = .returns true

/-- The generic equivalent of a code. -/
def generic_equivalent (P : Platform) : Code V → Option (BitVec 32)
  | generic _ m_code => some m_code
  | posix _ m_code => some ((PosixDomain.to_generic_code P m_code).value P)
  | generated M _ m_code _ =>
      if M.IsConvertibleToGenericStatusCode then some (M.to_generic_code_function m_code) else none

/-- The laws of equality, for three codes. -/
structure Lawful (P : Platform) (a b c : Code V) : Prop where
  terminates : WellFormed P a b → ∃ n equal, is_equivalent P n a b = .returns equal
  reflexive : WellFormed P a a → ∀ code ∈ generic_equivalent P a, code ≠ Errno.Unknown.value P →
    Equivalent P a a
  symmetric : WellFormed P b a → Equivalent P a b → Equivalent P b a
  transitive : WellFormed P a c → Equivalent P a b → Equivalent P b c → Equivalent P a c
  unknown : Equivalent P a b → ∀ code ∈ [generic_equivalent P a, generic_equivalent P b],
    code ≠ some (Errno.Unknown.value P)

/-! ### What the values say -/

/-- The values are equal. -/
def Equal (x y : V.Value) : Prop := V.equal x y = some true

/-- The domains have one UUID, and the values are equal and not an unknown one. -/
def Same (a b : Code V) (unknown : V.Value) : Prop :=
  b.id = a.id ∧ Equal a.value b.value ∧ ¬ Equal a.value unknown ∧ ¬ Equal b.value unknown

theorem equal_symm {x y : V.Value} (h : Equal x y) : Equal y x := (V.equal_symm y x).trans h

/-- The value of a code compares with the unknown one of its domain. -/
theorem unknown_comparable {a : Code V} {unknown : V.Value} (h : a.unknown_value = some unknown) :
    V.equal a.value unknown ≠ none := by
  cases a with
  | generic m_uuid m_code => cases h
  | posix m_uuid m_code =>
      cases h
      rw [value, V.equal_minus_one]
      exact Option.some_ne_none _
  | generated M m_uuid m_code typed =>
      cases h
      exact typed

theorem by_value_true {a b : Code V} {unknown : V.Value} :
    by_value a b unknown = .returns true ↔
      b.id = a.id ∧ V.equal a.value b.value = some true ∧ V.equal a.value unknown = some false ∧
        V.equal b.value unknown = some false := by
  unfold by_value
  split
  · rename_i equal lhs_unknown rhs_unknown hequal hlhs hrhs
    rw [hequal, hlhs, hrhs]
    simp only [Outcome.returns.injEq, Bool.and_eq_true, beq_iff_eq, Bool.not_eq_true',
      Option.some.injEq, and_assoc]
  · rename_i hnone
    refine iff_of_false (fun h => by cases h) ?_
    rintro ⟨-, hequal, hlhs, hrhs⟩
    exact hnone _ _ _ hequal hlhs hrhs

theorem by_value_ill_formed {a b : Code V} {unknown : V.Value} :
    by_value a b unknown ≠ .ill_formed ↔
      V.equal a.value b.value ≠ none ∧ V.equal a.value unknown ≠ none ∧
        V.equal b.value unknown ≠ none := by
  unfold by_value
  split
  · rename_i equal lhs_unknown rhs_unknown hequal hlhs hrhs
    rw [hequal, hlhs, hrhs]
    exact iff_of_true (by simp) (by simp)
  · rename_i hnone
    refine iff_of_false (fun h => h rfl) ?_
    rintro ⟨hequal, hlhs, hrhs⟩
    obtain ⟨x, hx⟩ := Option.ne_none_iff_exists'.mp hequal
    obtain ⟨y, hy⟩ := Option.ne_none_iff_exists'.mp hlhs
    obtain ⟨z, hz⟩ := Option.ne_none_iff_exists'.mp hrhs
    exact hnone _ _ _ hx hy hz

/-- A comparison that compiles and is not `true` is `false`. -/
theorem equal_false {x y : V.Value} (hcompiles : V.equal x y ≠ none) :
    V.equal x y = some false ↔ ¬ Equal x y := by
  unfold Equal
  cases h : V.equal x y with
  | none => exact absurd h hcompiles
  | some equal => cases equal <;> simp

variable {P : Platform} {a b c : Code V}

/-- **Two codes are equivalent exactly if the values are the same known ones.** -/
theorem equivalent_iff : Equivalent P a b ↔ ∃ unknown ∈ a.unknown_value, Same a b unknown := by
  have hcalls : Equivalent P a b ↔ is_equivalent P 1 a b = .returns true := by
    constructor
    · rintro ⟨n, hn⟩
      cases n with
      | zero => cases hn
      | succ n =>
          exact (is_equivalent_succ P 0 a b).trans ((is_equivalent_succ P n a b).symm.trans hn)
    · exact fun h => ⟨1, h⟩
  rw [hcalls, is_equivalent_succ]
  cases hunknown : a.unknown_value with
  | none => exact iff_of_false (fun h => by cases h) (fun ⟨_, h, _⟩ => by cases h)
  | some unknown =>
      simp only [Option.mem_some_iff, exists_eq_left']
      rw [by_value_true]
      have ha := unknown_comparable hunknown
      constructor
      · rintro ⟨hid, hequal, hleft, hright⟩
        refine ⟨hid, hequal, (equal_false ha).mp hleft, ?_⟩
        exact (equal_false (by rw [hright]; exact Option.some_ne_none _)).mp hright
      · rintro ⟨hid, hequal, hleft, hright⟩
        refine ⟨hid, hequal, (equal_false ha).mpr hleft, (equal_false ?_).mpr hright⟩
        refine V.comparable _ _ _ ?_ ha
        rw [equal_symm hequal]
        exact Option.some_ne_none _

/-- Equal values of the same kinds compare with whatever one of them compares with. -/
theorem comparable_of_equal {x y z : V.Value} (hequal : Equal x y) (h : V.equal y z ≠ none) :
    V.equal x z ≠ none := by
  refine V.comparable _ _ _ ?_ h
  rw [hequal]
  exact Option.some_ne_none _

theorem wellFormed_of_comparable
    (h : ∀ unknown ∈ a.unknown_value, V.equal a.value b.value ≠ none ∧
      V.equal b.value unknown ≠ none) : WellFormed P a b := by
  intro n
  cases n with
  | zero => exact fun h => by cases h
  | succ n =>
      rw [is_equivalent_succ]
      cases hunknown : a.unknown_value with
      | none => exact fun h => by cases h
      | some unknown =>
          obtain ⟨hvalues, hright⟩ := h unknown hunknown
          exact by_value_ill_formed.mpr ⟨hvalues, unknown_comparable hunknown, hright⟩

theorem wellFormed_self (P : Platform) (a : Code V) : WellFormed P a a := by
  refine wellFormed_of_comparable fun unknown hunknown => ⟨?_, unknown_comparable hunknown⟩
  rw [V.equal_self]
  exact Option.some_ne_none _

theorem terminates (h : WellFormed P a b) : ∃ n equal, is_equivalent P n a b = .returns equal := by
  have hone := h 1
  refine ⟨1, ?_⟩
  rw [is_equivalent_succ] at hone ⊢
  cases hunknown : a.unknown_value with
  | none => exact ⟨_, rfl⟩
  | some unknown =>
      rw [hunknown] at hone
      simp only [by_value] at hone ⊢
      split
      · exact ⟨_, rfl⟩
      · rename_i hnone
        split at hone
        · rename_i hequal hlhs hrhs
          exact absurd hrhs (hnone _ _ _ hequal hlhs)
        · exact absurd rfl hone

/-- What is unknown to POSIX has no generic equivalent but `Unknown`. -/
theorem posix_unknown (P : Platform) : PosixDomain.to_generic_code P (-1) = .Unknown := by
  rcases switch_cases ((0, .Success) :: (PosixDomain.cases.filter (PosixDomain.included P)).map
    fun c => ((P.value c.1).signExtend 64, c.2)) Errno.Unknown (-1) with
    hdefault | ⟨c, hc, hcode, -⟩
  · exact hdefault
  · rcases List.mem_cons.mp hc with rfl | hc
    · exact absurd hcode (by decide)
    · obtain ⟨d, -, rfl⟩ := List.mem_map.mp hc
      have hpositive := P.positive d.1
      have hint := congrArg BitVec.toInt hcode
      rw [BitVec.toInt_signExtend_of_le (by decide)] at hint
      rw [BitVec.slt, hint] at hpositive
      exact absurd hpositive (by decide)

/--
What the laws come to.  A generic code is `Unknown`, since it does not equal itself; and so
is the generic equivalent of a value that its domain takes for an unknown one.  Of two codes
of the same known value, the other is no generic one, the value is known to its domain as
well, and neither has the generic equivalent `Unknown`.  And a third code that has the value
of the second has that of the first.
-/
structure Consistent (P : Platform) (a b c : Code V) : Prop where
  generic : ∀ m_uuid m_code, a = .generic m_uuid m_code → m_code = Errno.Unknown.value P
  generated : ∀ M m_uuid m_code typed, a = .generated M m_uuid m_code typed →
    M.IsConvertibleToGenericStatusCode = true → Equal m_code M.unknown_value →
    M.to_generic_code_function m_code = Errno.Unknown.value P
  known : ∀ unknown ∈ a.unknown_value, Same a b unknown →
    ∃ other ∈ b.unknown_value, ¬ Equal a.value other ∧ ¬ Equal b.value other
  third : ∀ unknown ∈ a.unknown_value, Same a b unknown →
    ∀ other ∈ b.unknown_value, Same b c other → Equal a.value c.value ∧ ¬ Equal c.value unknown
  unknown : ∀ unknown ∈ a.unknown_value, Same a b unknown →
    ∀ code ∈ [generic_equivalent P a, generic_equivalent P b],
      code ≠ some (Errno.Unknown.value P)

/-- A code of its own equals itself unless it is an unknown one. -/
theorem same_self {unknown : V.Value} : Same a a unknown ↔ ¬ Equal a.value unknown :=
  ⟨fun h => h.2.2.1, fun h => ⟨rfl, V.equal_self _, h, h⟩⟩

/-- The same values compare in the other order, too. -/
theorem Same.wellFormed {unknown : V.Value} (h : Same a b unknown) : WellFormed P b a := by
  refine wellFormed_of_comparable fun other hother => ⟨?_, ?_⟩
  · rw [equal_symm h.2.1]
    exact Option.some_ne_none _
  · exact comparable_of_equal h.2.1 (unknown_comparable hother)

theorem Lawful.consistent (h : Lawful P a b c) : Consistent P a b c := by
  refine ⟨?_, ?_, ?_, ?_, ?_⟩
  · rintro m_uuid m_code rfl
    by_contra hknown
    obtain ⟨unknown, hunknown, -⟩ :=
      equivalent_iff.mp (h.reflexive (wellFormed_self P _) m_code rfl hknown)
    cases hunknown
  · rintro M m_uuid m_code typed rfl hconvertible hequal
    by_contra hknown
    have hself := h.reflexive (wellFormed_self P _) (M.to_generic_code_function m_code)
      (by rw [generic_equivalent, if_pos hconvertible]; rfl) hknown
    obtain ⟨unknown, hunknown, hsame⟩ := equivalent_iff.mp hself
    cases hunknown
    exact same_self.mp hsame hequal
  · intro unknown hunknown hsame
    obtain ⟨other, hother, hback⟩ := equivalent_iff.mp
      (h.symmetric hsame.wellFormed (equivalent_iff.mpr ⟨unknown, hunknown, hsame⟩))
    exact ⟨other, hother, hback.2.2.2, hback.2.2.1⟩
  · intro unknown hunknown hsame other hother hsame'
    have hcompiles : WellFormed P a c := by
      refine wellFormed_of_comparable fun u hu => ⟨?_, ?_⟩
      · refine comparable_of_equal hsame.2.1 ?_
        rw [hsame'.2.1]
        exact Option.some_ne_none _
      · refine comparable_of_equal (equal_symm hsame'.2.1) ?_
        exact comparable_of_equal (equal_symm hsame.2.1) (unknown_comparable hu)
    obtain ⟨u, hu, hac⟩ := equivalent_iff.mp (h.transitive hcompiles
      (equivalent_iff.mpr ⟨unknown, hunknown, hsame⟩)
      (equivalent_iff.mpr ⟨other, hother, hsame'⟩))
    cases hu.symm.trans hunknown
    exact ⟨hac.2.1, hac.2.2.2⟩
  · intro unknown hunknown hsame
    exact h.unknown (equivalent_iff.mpr ⟨unknown, hunknown, hsame⟩)

theorem Consistent.lawful (h : Consistent P a b c) : Lawful P a b c := by
  refine ⟨terminates, ?_, ?_, ?_, ?_⟩
  · intro _ code hcode hknown
    refine equivalent_iff.mpr ?_
    cases a with
    | generic m_uuid m_code =>
        cases hcode
        exact absurd (h.generic _ _ rfl) hknown
    | posix m_uuid m_code =>
        cases hcode
        refine ⟨V.minus_one, rfl, same_self.mpr fun hequal => hknown ?_⟩
        have hminus := (V.equal_minus_one m_code).symm.trans hequal
        rw [Option.some.injEq, beq_iff_eq] at hminus
        rw [hminus, posix_unknown]
    | generated M m_uuid m_code typed =>
        refine ⟨M.unknown_value, rfl, same_self.mpr fun hequal => hknown ?_⟩
        simp only [generic_equivalent] at hcode
        split at hcode
        · rename_i hconvertible
          cases hcode
          exact h.generated M m_uuid m_code typed rfl hconvertible hequal
        · cases hcode
  · intro _ hab
    obtain ⟨unknown, hunknown, hsame⟩ := equivalent_iff.mp hab
    obtain ⟨other, hother, hleft, hright⟩ := h.known unknown hunknown hsame
    exact equivalent_iff.mpr
      ⟨other, hother, hsame.1.symm, equal_symm hsame.2.1, hright, hleft⟩
  · intro _ hab hbc
    obtain ⟨unknown, hunknown, hsame⟩ := equivalent_iff.mp hab
    obtain ⟨other, hother, hsame'⟩ := equivalent_iff.mp hbc
    obtain ⟨hequal, hright⟩ := h.third unknown hunknown hsame other hother hsame'
    exact equivalent_iff.mpr
      ⟨unknown, hunknown, hsame'.1.trans hsame.1, hequal, hsame.2.2.1, hright⟩
  · intro hab
    obtain ⟨unknown, hunknown, hsame⟩ := equivalent_iff.mp hab
    exact h.unknown unknown hunknown hsame

/-- **The comparisons of three codes are lawful exactly if their values are consistent.** -/
theorem lawful_iff (V : ValueTypes) (P : Platform) (a b c : Code V) :
    Lawful P a b c ↔ Consistent P a b c :=
  ⟨Lawful.consistent, Consistent.lawful⟩

end Code

/-! ### The values of the built-in types -/

/-- An integer of some signedness and width, or a value of a scoped enumeration. -/
inductive BuiltinValue
  | integer (is_signed : Bool) (width : Nat) (value : Int)
  | enumerator (enum : String) (value : Int)

namespace BuiltinValue

/-- Integers narrower than an `int` become one. -/
def promoted (t : Bool × Nat) : Bool × Nat := if t.2 < 32 then (true, 32) else t

/-- The type that integers of two types are compared in. -/
def common (s t : Bool × Nat) : Bool × Nat :=
  if s.1 = t.1 then (s.1, max s.2 t.2)
  else if s.1 then (if s.2 ≤ t.2 then t else s)
  else (if t.2 ≤ s.2 then s else t)

/-- A value in a type that may be unsigned. -/
def converted (t : Bool × Nat) (value : Int) : Int := if t.1 then value else value % 2 ^ t.2

/-- `==`, which no scoped enumeration has with values of other types. -/
def equal : BuiltinValue → BuiltinValue → Option Bool
  | integer s m x, integer t n y =>
      let type := common (promoted (s, m)) (promoted (t, n))
      some (converted type x == converted type y)
  | enumerator e x, enumerator f y => if e = f then some (x == y) else none
  | _, _ => none

theorem common_comm (s t : Bool × Nat) : common s t = common t s := by
  obtain ⟨s, m⟩ := s
  obtain ⟨t, n⟩ := t
  cases s <;> cases t <;> simp [common, max_comm]

theorem equal_symm : ∀ x y, equal x y = equal y x
  | integer s m x, integer t n y => by
      simp only [equal, common_comm (promoted (t, n))]
      rw [BEq.comm]
  | enumerator e x, enumerator f y => by
      simp only [equal, eq_comm (a := f)]
      rw [BEq.comm]
  | integer _ _ _, enumerator _ _ => rfl
  | enumerator _ _, integer _ _ _ => rfl

theorem equal_self : ∀ x, equal x x = some true
  | integer s m x => by simp [equal]
  | enumerator e x => by simp [equal]

/-- Integers compare with integers, and enumerators with those of their enumeration. -/
theorem comparable : ∀ x y z, equal x y ≠ none → equal y z ≠ none → equal x z ≠ none
  | integer _ _ _, integer _ _ _, integer _ _ _ => fun _ _ => Option.some_ne_none _
  | enumerator e x, enumerator f y, enumerator g z => by
      simp only [equal]
      intro hxy hyz
      by_cases hef : e = f
      · by_cases hfg : f = g
        · rw [if_pos (hef.trans hfg)]
          exact Option.some_ne_none _
        · exact absurd (if_neg hfg) hyz
      · exact absurd (if_neg hef) hxy
  | integer _ _ _, enumerator _ _, _ => fun hxy _ => absurd rfl hxy
  | enumerator _ _, integer _ _ _, _ => fun hxy _ => absurd rfl hxy
  | integer _ _ _, integer _ _ _, enumerator _ _ => fun _ hyz => absurd rfl hyz
  | enumerator _ _, enumerator _ _, integer _ _ _ => fun _ hyz => absurd rfl hyz

/-- An `i64` is compared with the literal `-1` as it is. -/
theorem equal_minus_one (x : BitVec 64) :
    equal (integer true 64 x.toInt) (integer true 32 (-1)) = some (x == -1) := by
  simp only [equal, promoted, common, converted, Option.some.injEq]
  rw [Bool.eq_iff_iff, beq_iff_eq, beq_iff_eq, ← BitVec.toInt_inj]
  exact Iff.rfl

/-- The built-in types of C++, in which `Errno` is a scoped enumeration. -/
def types : ValueTypes where
  Value := BuiltinValue
  equal := equal
  i64 x := integer true 64 x.toInt
  errno e := enumerator "Errno" e.toInt
  minus_one := integer true 32 (-1)
  equal_symm := equal_symm
  equal_self := equal_self
  comparable := comparable
  equal_minus_one := equal_minus_one

end BuiltinValue

/-- A generic code that is not `Unknown` does not equal itself. -/
theorem generic_unequal : ¬ ∀ (V : ValueTypes) (P : Platform) (a b c : Code V),
    Code.Lawful P a b c := by
  intro hclaim
  have hlawful := hclaim BuiltinValue.types .linux (.generic GenericDomain.ID 2)
    (.generic GenericDomain.ID 2) (.generic GenericDomain.ID 2)
  have hunknown := (Code.lawful_iff _ _ _ _ _).mp hlawful |>.generic GenericDomain.ID 2 rfl
  revert hunknown
  decide

end Hyperion
