/-
The mode strings that `validate_open_options` makes of its options.

A mode string asks for an access type and some flags, and so do options, unless they have a
bit that is no flag.  A test of the code that masks flags out accepts every subset of them,
where the mode it gives asks for them all: a request for fewer gets more than it asked for,
or a mode where it should be refused.

Three flags with `+` are given `w+xb`, which the C standard has as `w+bx` and `wb+x` only;
what a C library takes it for is its own.
-/
import Hyperion.Filesystem.File

namespace Hyperion

/-- What a file is to be opened for. -/
structure OpenMode where
  type : AccessType
  append : Bool
  truncate : Bool
  binary : Bool
  fail_if_exists : Bool
deriving DecidableEq

namespace OpenMode

/-- The mode strings of the C standard; `w` truncates. -/
def standard : List (String × OpenMode) := [
    ("r", ⟨.Read, false, false, false, false⟩), ("rb", ⟨.Read, false, false, true, false⟩),
    ("w", ⟨.Write, false, true, false, false⟩), ("wb", ⟨.Write, false, true, true, false⟩),
    ("wx", ⟨.Write, false, true, false, true⟩), ("wbx", ⟨.Write, false, true, true, true⟩),
    ("a", ⟨.Write, true, false, false, false⟩), ("ab", ⟨.Write, true, false, true, false⟩),
    ("r+", ⟨.ReadWrite, false, false, false, false⟩),
    ("r+b", ⟨.ReadWrite, false, false, true, false⟩),
    ("rb+", ⟨.ReadWrite, false, false, true, false⟩),
    ("w+", ⟨.ReadWrite, false, true, false, false⟩),
    ("w+b", ⟨.ReadWrite, false, true, true, false⟩),
    ("wb+", ⟨.ReadWrite, false, true, true, false⟩),
    ("w+x", ⟨.ReadWrite, false, true, false, true⟩),
    ("w+bx", ⟨.ReadWrite, false, true, true, true⟩),
    ("wb+x", ⟨.ReadWrite, false, true, true, true⟩),
    ("a+", ⟨.ReadWrite, true, false, false, false⟩),
    ("a+b", ⟨.ReadWrite, true, false, true, false⟩),
    ("ab+", ⟨.ReadWrite, true, false, true, false⟩)]

/-- What options ask for; a bit that is no flag asks for nothing. -/
def requested (options : OpenOptions) : Option OpenMode :=
  let flags := AccessModifier.Append ||| AccessModifier.Truncate ||| AccessModifier.Binary |||
    AccessModifier.FailIfExists
  let has := fun flag => decide (options.modifier &&& flag ≠ 0)
  if options.modifier &&& ~~~flags = 0 then
    some ⟨options.type, has AccessModifier.Append, has AccessModifier.Truncate,
      has AccessModifier.Binary, has AccessModifier.FailIfExists⟩
  else none

/-- The options that ask for a mode. -/
def options (m : OpenMode) : OpenOptions where
  type := m.type
  modifier :=
    (if m.append then AccessModifier.Append else AccessModifier.None) |||
      (if m.truncate then AccessModifier.Truncate else AccessModifier.None) |||
      (if m.binary then AccessModifier.Binary else AccessModifier.None) |||
      (if m.fail_if_exists then AccessModifier.FailIfExists else AccessModifier.None)

end OpenMode

/-- How a C library takes mode strings: those of the standard as it says, others as it likes. -/
structure CLibrary where
  mode : String → Option OpenMode
  agrees : ∀ m ∈ OpenMode.standard, mode m.1 = some m.2

namespace CLibrary

/-- A mode string asks for what the options do. -/
def Denotes (C : CLibrary) (mode : String) (options : OpenOptions) : Prop :=
  ∃ m, C.mode mode = some m ∧ OpenMode.requested options = some m

/-- Some mode string of the standard asks for what the options do. -/
def Denoted (options : OpenOptions) : Prop :=
  ∃ m ∈ OpenMode.standard, OpenMode.requested options = some m.2

/--
The mode that the options are given asks for what they do, and they are refused if no mode
string does.
-/
structure Exact (C : CLibrary) (options : OpenOptions) : Prop where
  denotes : ∀ mode, validate_open_options options = .ok mode → C.Denotes mode options
  refused : (∃ e, validate_open_options options = .error e) ↔ ¬ Denoted options

/-- A library that takes the mode strings of the standard only. -/
def strict : CLibrary where
  mode s := (OpenMode.standard.find? fun m => m.1 = s).map (·.2)
  agrees := by decide +kernel

end CLibrary

/-! ### Modifiers of flags only -/

namespace OpenMode

/-- The access types and the modifiers that have no bit but flags. -/
def flag_options : List OpenOptions :=
  [AccessType.Read, .Write, .ReadWrite].flatMap fun type =>
    (List.range 16).map fun k => ⟨type, BitVec.ofNat 32 k⟩

theorem mem_flag_options {options : OpenOptions} (h : options.modifier &&& ~~~15 = 0) :
    options ∈ flag_options := by
  have hflags : options.modifier = options.modifier &&& 15 := by
    have hsplit : options.modifier &&& 15 ||| options.modifier &&& ~~~15 = options.modifier := by
      rw [← BitVec.and_or_distrib_left]
      exact BitVec.and_allOnes
    rw [h] at hsplit
    simpa using hsplit.symm
  have hlt : options.modifier.toNat < 16 := by
    rw [hflags, BitVec.toNat_and]
    exact Nat.lt_succ_of_le Nat.and_le_right
  have htype : options.type ∈ [AccessType.Read, .Write, .ReadWrite] := by
    cases options.type <;> decide
  refine List.mem_flatMap.mpr ⟨options.type, htype, List.mem_map.mpr ?_⟩
  refine ⟨options.modifier.toNat, List.mem_range.mpr hlt, ?_⟩
  rw [BitVec.ofNat_toNat, BitVec.setWidth_eq]

/-- A mask that leaves a bit of the modifier is no reason to accept it. -/
theorem masked_ne_zero {modifier mask : BitVec 32} (h : modifier &&& ~~~15 ≠ 0)
    (hmask : mask &&& ~~~15 = ~~~15) : modifier &&& mask ≠ 0 := by
  intro hzero
  apply h
  rw [← hmask, ← BitVec.and_assoc, hzero]
  exact BitVec.zero_and

theorem flags_ne {modifier flags : BitVec 32} (h : modifier &&& ~~~15 ≠ 0)
    (hflags : flags &&& ~~~15 = 0) : modifier ≠ flags := by
  rintro rfl
  exact h hflags

/-- Where a bit is no flag, the options are refused. -/
theorem refused_of_undefined {options : OpenOptions} (h : options.modifier &&& ~~~15 ≠ 0) :
    validate_open_options options = .error .EINVAL := by
  unfold validate_open_options
  cases options.type <;> simp (disch := decide) only [masked_ne_zero h, flags_ne h, if_false]

/-! ### What the code gives -/

/-- The mode that the options are given. -/
def given (options : OpenOptions) : Option String := (validate_open_options options).toOption

theorem given_eq_some {options : OpenOptions} {mode : String} :
    given options = some mode ↔ validate_open_options options = .ok mode := by
  unfold given
  cases validate_open_options options <;> simp [Except.toOption]

theorem given_eq_none {options : OpenOptions} :
    given options = none ↔ ∃ e, validate_open_options options = .error e := by
  unfold given
  cases validate_open_options options <;> simp [Except.toOption]

/-- Whether the mode that the options are given is right, with `w+xb` taken for `w+bx`. -/
def right (options : OpenOptions) : Bool :=
  match given options with
  | some mode => standard.any fun m =>
      requested options = some m.2 && (m.1 = mode || mode = "w+xb")
  | none => standard.all fun m => requested options ≠ some m.2

/-- The modifiers that get through a mask for more flags than they have. -/
def subsets : List (BitVec 32) :=
  [AccessModifier.None, AccessModifier.Append, AccessModifier.Truncate, AccessModifier.Binary,
    AccessModifier.FailIfExists, AccessModifier.Binary ||| AccessModifier.FailIfExists]

/-- All flags but `Append`. -/
def all_but_append : BitVec 32 :=
  AccessModifier.Truncate ||| AccessModifier.Binary ||| AccessModifier.FailIfExists

/-- What the code does with modifiers of flags only. -/
theorem of_flags : ∀ o ∈ flag_options,
    (right o = true ↔ o.type = .Read ∨ o.modifier ∉ subsets) ∧
      (right o = true ∧ given o = some "w+xb" ↔
        o.type = .ReadWrite ∧ o.modifier = all_but_append) ∧
      (∀ mode ∈ given o, mode = "w+xb" ∨ ∃ m ∈ standard, m.1 = mode) ∧
      ∀ m ∈ requested o, m.options.type = o.type ∧ m.options.modifier = o.modifier := by
  decide +kernel

variable {o : OpenOptions}

theorem given_undefined (h : o.modifier &&& ~~~15 ≠ 0) : given o = none :=
  given_eq_none.mpr ⟨_, refused_of_undefined h⟩

theorem requested_undefined (h : o.modifier &&& ~~~15 ≠ 0) : requested o = none := by
  have hflags : AccessModifier.Append ||| AccessModifier.Truncate ||| AccessModifier.Binary |||
      AccessModifier.FailIfExists = 15 := by decide
  simp only [requested, hflags, if_neg h]

theorem right_iff (o : OpenOptions) :
    right o = true ↔ o.type = .Read ∨ o.modifier ∉ subsets := by
  by_cases h : o.modifier &&& ~~~15 = 0
  · exact (of_flags o (mem_flag_options h)).1
  · refine iff_of_true ?_ (.inr fun hmem => h ?_)
    · rw [right, given_undefined h, requested_undefined h]
      rfl
    · have hflags : (subsets.all fun modifier => modifier &&& ~~~15 = 0) = true := by decide
      exact of_decide_eq_true (List.all_eq_true.mp hflags o.modifier hmem)

theorem right_wxb_iff (o : OpenOptions) : right o = true ∧ given o = some "w+xb" ↔
    o.type = .ReadWrite ∧ o.modifier = all_but_append := by
  by_cases h : o.modifier &&& ~~~15 = 0
  · exact (of_flags o (mem_flag_options h)).2.1
  · refine iff_of_false (fun hright => ?_) (fun hall => h ?_)
    · rw [given_undefined h] at hright
      cases hright.2
    · rw [hall.2]
      decide

/-- The mode that is given is one of the standard, or `w+xb`. -/
theorem given_listed {mode : String} (hgiven : given o = some mode) :
    mode = "w+xb" ∨ ∃ m ∈ standard, m.1 = mode := by
  by_cases h : o.modifier &&& ~~~15 = 0
  · exact (of_flags o (mem_flag_options h)).2.2.1 mode hgiven
  · rw [given_undefined h] at hgiven
    cases hgiven

/-- Options that ask for the same are the same. -/
theorem options_of_requested {m : OpenMode} (hm : requested o = some m) : m.options = o := by
  by_cases h : o.modifier &&& ~~~15 = 0
  · obtain ⟨htype, hmodifier⟩ := (of_flags o (mem_flag_options h)).2.2.2 m hm
    cases o
    cases hoptions : m.options
    rw [hoptions] at htype hmodifier
    exact congrArg₂ OpenOptions.mk htype hmodifier
  · rw [requested_undefined h] at hm
    cases hm

end OpenMode

/-! ### What a library makes of it -/

namespace CLibrary

open OpenMode

variable {C : CLibrary} {o : OpenOptions}

theorem exact_of_error (hgiven : given o = none) : C.Exact o ↔ ¬ Denoted o := by
  have herror := given_eq_none.mp hgiven
  constructor
  · intro h
    exact h.refused.mp herror
  · intro h
    refine ⟨fun mode hmode => ?_, iff_of_true herror h⟩
    rw [← given_eq_some, hgiven] at hmode
    cases hmode

theorem exact_of_mode {mode : String} (hgiven : given o = some mode) :
    C.Exact o ↔ C.Denotes mode o ∧ Denoted o := by
  have hnone : ¬ ∃ e, validate_open_options o = .error e := by
    rw [← given_eq_none, hgiven]
    exact Option.some_ne_none mode
  constructor
  · intro h
    exact ⟨h.denotes mode (given_eq_some.mp hgiven),
      Classical.not_not.mp fun hnot => hnone (h.refused.mpr hnot)⟩
  · rintro ⟨hdenotes, hdenoted⟩
    refine ⟨fun mode' hmode' => ?_, iff_of_false hnone fun hnot => hnot hdenoted⟩
    rw [← given_eq_some, hgiven] at hmode'
    cases hmode'
    exact hdenotes

/-- A mode string of the standard asks for one thing only. -/
theorem denotes_standard {m : String × OpenMode} (hm : m ∈ standard) :
    C.Denotes m.1 o ↔ requested o = some m.2 := by
  constructor
  · rintro ⟨m', hmode, hrequested⟩
    rw [C.agrees m hm] at hmode
    rw [hrequested, hmode]
  · intro h
    exact ⟨m.2, C.agrees m hm, h⟩

/-- What is right for every library, and what depends on `w+xb`. -/
theorem exact_iff_right (C : CLibrary) (o : OpenOptions) :
    C.Exact o ↔ right o = true ∧ (given o = some "w+xb" → C.Denotes "w+xb" o) := by
  cases hgiven : given o with
  | none =>
      rw [exact_of_error hgiven, right, hgiven]
      simp [Denoted]
  | some mode =>
      rw [exact_of_mode hgiven, right, hgiven]
      by_cases hmode : mode = "w+xb"
      · simp [hmode, Denoted, and_comm]
      · obtain ⟨m, hm, rfl⟩ := (given_listed hgiven).resolve_left hmode
        rw [denotes_standard hm]
        simp only [hmode, decide_false, Bool.or_false, List.any_eq_true, Bool.and_eq_true,
          decide_eq_true_eq, Option.some.injEq, false_imp_iff, and_true]
        constructor
        · rintro ⟨hrequested, -⟩
          exact ⟨m, hm, hrequested, rfl⟩
        · rintro ⟨m', hm', hrequested, heq⟩
          have hsame := (C.agrees m' hm').symm.trans ((congrArg C.mode heq).trans (C.agrees m hm))
          rw [← Option.some.inj hsame]
          exact ⟨hrequested, m', hm', hrequested⟩

theorem denotes_wxb (ho : o.type = .ReadWrite ∧ o.modifier = all_but_append) :
    C.Denotes "w+xb" o ↔ C.mode "w+xb" = some ⟨.ReadWrite, false, true, true, true⟩ := by
  have hrequested : requested o = some ⟨.ReadWrite, false, true, true, true⟩ := by
    have ho' : o = ⟨.ReadWrite, all_but_append⟩ := by
      obtain ⟨htype, hmodifier⟩ := ho
      rw [← htype, ← hmodifier]
    rw [ho']
    decide +kernel
  rw [Denotes, hrequested]
  constructor
  · rintro ⟨m, hmode, heq⟩
    rw [hmode, heq]
  · intro hmode
    exact ⟨_, hmode, rfl⟩

/-- Two requests that are given one mode are the same, if that is right for both. -/
theorem eq_of_exact {o' : OpenOptions} (h : C.Exact o) (h' : C.Exact o') {mode : String}
    (hmode : validate_open_options o = .ok mode) (hmode' : validate_open_options o' = .ok mode) :
    o = o' := by
  obtain ⟨m, hm, hrequested⟩ := h.denotes mode hmode
  obtain ⟨m', hm', hrequested'⟩ := h'.denotes mode hmode'
  have hsame : m = m' := Option.some.inj (hm.symm.trans hm')
  rw [← options_of_requested hrequested, ← options_of_requested hrequested', hsame]

/--
**Options are treated right exactly if they read, or their modifier gets through no mask for
more flags than it has**, where the library takes `w+xb` for `w+bx`; and then no others are
given their mode.
-/
theorem mode_exact_iff (C : CLibrary) :
    (∀ o, C.Exact o ↔ (o.type = .Read ∨ o.modifier ∉ subsets) ∧
        (o.type = .ReadWrite ∧ o.modifier = all_but_append →
          C.mode "w+xb" = some ⟨.ReadWrite, false, true, true, true⟩)) ∧
      ∀ o o', C.Exact o → C.Exact o' → ∀ mode,
        validate_open_options o = .ok mode → validate_open_options o' = .ok mode → o = o' := by
  refine ⟨fun o => ?_, fun o o' h h' mode => eq_of_exact h h'⟩
  rw [exact_iff_right, right_iff]
  refine and_congr_right fun hright => ?_
  have hwxb : given o = some "w+xb" ↔ o.type = .ReadWrite ∧ o.modifier = all_but_append := by
    rw [← right_wxb_iff, and_iff_right ((right_iff o).mpr hright)]
  rw [hwxb]
  exact imp_congr_right denotes_wxb

/-- Appending in binary is what `a+b` is for. -/
theorem append_binary_exact :
    strict.Exact ⟨.ReadWrite, AccessModifier.Append ||| AccessModifier.Binary⟩ :=
  ((mode_exact_iff strict).1 _).mpr ⟨by decide, by decide⟩

/-- No flags are asked for, and the file is opened to append. -/
theorem none_appends : ¬ ∀ (C : CLibrary) (o : OpenOptions), C.Exact o := by
  intro hclaim
  have hgiven : given ⟨.ReadWrite, AccessModifier.None⟩ = some "a+b" := by decide +kernel
  have hlisted : ("a+b", ⟨.ReadWrite, true, false, true, false⟩) ∈ standard := by decide +kernel
  have h := (hclaim strict _).denotes "a+b" (given_eq_some.mp hgiven)
  have hrequested := (denotes_standard hlisted).mp h
  revert hrequested
  decide +kernel

end CLibrary

end Hyperion
