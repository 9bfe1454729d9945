/-
Reading from a `File`: `read` and `read_line` of `filesystem/File.cpp`.

A stream gives the bytes of its file one after another and then `EOF`.  Reading a byte may
fail, which gives `EOF` as well and sets the error indicator, and nothing here clears it.

`read` makes a string of the length it is asked for and gives all of it back: past the end
of the file the zeros that the string was made of are left.  `read_line` reads one byte
before its loop and none in it, so that the loop ends with the first round or never.
-/
import Hyperion.Filesystem.File
import Hyperion.Lib.Loop
import Mathlib.Algebra.Ring.Nat

namespace Hyperion

/-- A stream to read from: the bytes of its file, and at which of them reading fails. -/
structure InputStream where
  content : List (BitVec 8)
  fault : Nat → Bool
  position : Nat
  error : Bool

namespace InputStream

/-- `fgetc(file)`; `EOF` is none. -/
def fgetc (s : InputStream) : Option (BitVec 8) × InputStream :=
  if s.fault s.position = true then (none, { s with error := true })
  else
    match s.content[s.position]? with
    | some c => (some c, { s with position := s.position + 1 })
    | none => (none, s)

/-- `fread(ptr, 1, count, file)`: as many calls of `fgetc`, up to the first `EOF`. -/
def fread (s : InputStream) : Nat → List (BitVec 8) × InputStream
  | 0 => ([], s)
  | count + 1 =>
      match s.fgetc with
      | (some c, s) => (c :: (s.fread count).1, (s.fread count).2)
      | (none, s) => ([], s)

/-- The bytes from the position to the end of the file. -/
def remaining (s : InputStream) : List (BitVec 8) := s.content.drop s.position

/-- The stream some bytes further on. -/
def advance (s : InputStream) (n : Nat) : InputStream := { s with position := s.position + n }

end InputStream

/-- What reading fails with: a code of its own, or the last error of the system. -/
inductive ReadError
  | EPERM
  | last_error

namespace File

/-- `read(num_chars)` of a `File` with these options and this stream. -/
def read (m_options : OpenOptions) (m_file : InputStream) (num_chars : Nat) :
    Except ReadError (List (BitVec 8)) × InputStream :=
  if m_options.type = .Write then (.error .EPERM, m_file)
  else
    let str := List.replicate num_chars 0
    let (stored, m_file) := m_file.fread num_chars
    if stored.length < num_chars ∧ m_file.error = true then (.error .last_error, m_file)
    else (.ok (stored ++ str.drop stored.length), m_file)

/-- `'\n'` -/
def newline : BitVec 8 := 10

/-- One round of the loop of `read_line`, which goes on with `c` as it was. -/
def read_line_round : Option (BitVec 8) × List (BitVec 8) × InputStream →
    (Option (BitVec 8) × List (BitVec 8) × InputStream) ⊕
      (Except ReadError (List (BitVec 8)) × InputStream)
  | (c, str, m_file) =>
      if c = some newline then .inr (.ok str, m_file)
      else if c = none then
        if m_file.error = true then .inr (.error .last_error, m_file) else .inr (.ok str, m_file)
      else .inl (c, str, m_file)

/-- `read_line()` -/
def read_line (fuel : Nat) (m_options : OpenOptions) (m_file : InputStream) :
    Option (Except ReadError (List (BitVec 8)) × InputStream) :=
  if m_options.type = .Write ∨ m_options.modifier = AccessModifier.Binary then
    some (.error .EPERM, m_file)
  else loop_until read_line_round fuel (m_file.fgetc.1, [], m_file.fgetc.2)

/-- Reads one after another, up to the first that fails. -/
def reads (m_options : OpenOptions) :
    InputStream → List Nat → Except ReadError (List (BitVec 8)) × InputStream
  | m_file, [] => (.ok [], m_file)
  | m_file, n :: rest =>
      match read m_options m_file n with
      | (.error e, m_file) => (.error e, m_file)
      | (.ok str, m_file) =>
          ((reads m_options m_file rest).1.map (str ++ ·), (reads m_options m_file rest).2)

end File

/-! ### What the stream gives -/

namespace InputStream

variable {s : InputStream}

@[simp] theorem remaining_advance (s : InputStream) (n : Nat) :
    (s.advance n).remaining = s.remaining.drop n := by
  simp [remaining, advance]

theorem advance_zero (s : InputStream) : s.advance 0 = s := rfl

theorem advance_advance (s : InputStream) (m n : Nat) :
    (s.advance m).advance n = s.advance (m + n) := by
  simp [advance, Nat.add_assoc]

/-- The byte at the position is the first that remains. -/
theorem getElem?_position (s : InputStream) : s.content[s.position]? = s.remaining.head? :=
  List.head?_drop.symm

theorem fgetc_fault (h : s.fault s.position = true) :
    s.fgetc = (none, { s with error := true }) := by
  rw [fgetc, if_pos h]

theorem fgetc_nil (hfault : s.fault s.position = false) (h : s.remaining = []) :
    s.fgetc = (none, s) := by
  rw [fgetc, getElem?_position, h, hfault]
  rfl

theorem fgetc_cons (hfault : s.fault s.position = false) {c : BitVec 8} {rest : List (BitVec 8)}
    (h : s.remaining = c :: rest) : s.fgetc = (some c, s.advance 1) := by
  rw [fgetc, getElem?_position, h, hfault]
  rfl

/-- What a call of `fgetc` does: it fails, it is at the end, or it gives the next byte. -/
theorem fgetc_cases (s : InputStream) :
    (s.fault s.position = true ∧ s.fgetc = (none, { s with error := true })) ∨
      (s.fault s.position = false ∧ s.remaining = [] ∧ s.fgetc = (none, s)) ∨
      (s.fault s.position = false ∧
        ∃ c rest, s.remaining = c :: rest ∧ s.fgetc = (some c, s.advance 1)) := by
  cases hfault : s.fault s.position with
  | true => exact .inl ⟨rfl, fgetc_fault hfault⟩
  | false =>
      cases hremaining : s.remaining with
      | nil => exact .inr (.inl ⟨rfl, rfl, fgetc_nil hfault hremaining⟩)
      | cons c rest => exact .inr (.inr ⟨rfl, c, rest, rfl, fgetc_cons hfault hremaining⟩)

/-- Reading fails before `n` bytes are read, or the end is found. -/
def FailsIn (s : InputStream) (n : Nat) : Prop :=
  s.error = true ∨ ∃ i, i < n ∧ i ≤ s.remaining.length ∧ s.fault (s.position + i) = true

theorem failsIn_mono {m n : Nat} (hmn : m ≤ n) (h : s.FailsIn m) : s.FailsIn n := by
  rcases h with herror | ⟨i, hi, hle, hfault⟩
  · exact .inl herror
  · exact .inr ⟨i, Nat.lt_of_lt_of_le hi hmn, hle, hfault⟩

/-- A failure further on is one from where the stream got to. -/
theorem failsIn_advance {k n : Nat} (hk : k ≤ s.remaining.length) :
    s.FailsIn (k + n) ↔ s.FailsIn k ∨ (s.advance k).FailsIn n := by
  have hlength : (s.advance k).remaining.length = s.remaining.length - k := by simp
  constructor
  · rintro (herror | ⟨i, hi, hle, hfault⟩)
    · exact .inl (.inl herror)
    · by_cases hik : i < k
      · exact .inl (.inr ⟨i, hik, hle, hfault⟩)
      · refine .inr (.inr ⟨i - k, by omega, by omega, ?_⟩)
        have hposition : (s.advance k).position + (i - k) = s.position + i := by
          show s.position + k + (i - k) = s.position + i
          omega
        rw [hposition]
        exact hfault
  · rintro (h | herror | ⟨i, hi, hle, hfault⟩)
    · exact failsIn_mono (Nat.le_add_right k n) h
    · exact .inl herror
    · refine .inr ⟨k + i, by omega, by omega, ?_⟩
      rw [← Nat.add_assoc]
      exact hfault

/-- Where the next byte can be read and no other is to be, only an earlier failure is one. -/
theorem failsIn_first (hfault : s.fault s.position = false) {n : Nat}
    (hfirst : ∀ i, i < n → i ≤ s.remaining.length → i = 0) : s.FailsIn n ↔ s.error = true := by
  constructor
  · rintro (herror | ⟨i, hi, hle, h⟩)
    · exact herror
    · rw [hfirst i hi hle, Nat.add_zero, hfault] at h
      cases h
  · exact .inl

/-- Where reading does not fail the error indicator is clear, and stays so further on. -/
theorem clear_of_not_failsIn {n : Nat} (h : ¬ s.FailsIn n) (k : Nat) :
    (s.advance k).error = false :=
  Bool.eq_false_iff.mpr fun herror => h (.inl herror)

/-- Reading `m` bytes and then `n` fails if either part does. -/
theorem failsIn_add (s : InputStream) (m n : Nat) :
    s.FailsIn (m + n) ↔
      s.FailsIn m ∨ (s.advance (min m s.remaining.length)).FailsIn n := by
  by_cases hm : m ≤ s.remaining.length
  · rw [Nat.min_eq_left hm]
    exact failsIn_advance hm
  · rw [Nat.min_eq_right (by omega)]
    constructor
    · rintro (herror | ⟨i, -, hle, hfault⟩)
      · exact .inl (.inl herror)
      · exact .inl (.inr ⟨i, by omega, hle, hfault⟩)
    · intro h
      -- The second part has nothing to read but the end, which the first got to as well.
      refine failsIn_mono (Nat.le_add_right m n) (h.elim id ?_)
      rintro (herror | ⟨i, -, hle, hfault⟩)
      · exact .inl herror
      · have hi : i = 0 := by simpa using hle
        rw [hi] at hfault
        exact .inr ⟨s.remaining.length, by omega, Nat.le_refl _, hfault⟩

/-- `fread` sets the error indicator, or gives the next bytes as far as there are any. -/
theorem fread_cases (s : InputStream) (n : Nat) :
    (s.FailsIn n ∧ (s.fread n).2.error = true) ∨
      (¬ s.FailsIn n ∧
        s.fread n = (s.remaining.take n, s.advance (min n s.remaining.length))) := by
  induction n generalizing s with
  | zero =>
      cases herror : s.error with
      | true => exact .inl ⟨.inl herror, herror⟩
      | false =>
          refine .inr ⟨?_, by simp [fread, advance_zero]⟩
          rintro (h | ⟨i, hi, -⟩)
          · rw [herror] at h
            cases h
          · exact Nat.not_lt_zero i hi
  | succ n ih =>
      rcases fgetc_cases s with ⟨hfault, hfgetc⟩ | ⟨hfault, hnil, hfgetc⟩ |
        ⟨hfault, c, rest, hcons, hfgetc⟩
      · have hfread : s.fread (n + 1) = ([], { s with error := true }) := by rw [fread, hfgetc]
        exact .inl ⟨.inr ⟨0, Nat.succ_pos n, Nat.zero_le _, hfault⟩, by rw [hfread]⟩
      · have hfread : s.fread (n + 1) = ([], s) := by rw [fread, hfgetc]
        have hfirst : ∀ i, i < n + 1 → i ≤ s.remaining.length → i = 0 := by simp [hnil]
        rw [failsIn_first hfault hfirst, hfread]
        cases herror : s.error with
        | true => exact .inl ⟨rfl, rfl⟩
        | false => exact .inr ⟨Bool.false_ne_true, by simp [hnil, advance_zero]⟩
      · have hfread : s.fread (n + 1) =
            (c :: ((s.advance 1).fread n).1, ((s.advance 1).fread n).2) := by
          rw [fread, hfgetc]
        have hfails : s.FailsIn (n + 1) ↔ (s.advance 1).FailsIn n := by
          rw [Nat.add_comm, failsIn_advance (by simp [hcons]),
            failsIn_first hfault fun i hi _ => Nat.lt_one_iff.mp hi]
          exact or_iff_right_of_imp .inl
        rw [hfails, hfread]
        rcases ih (s.advance 1) with ⟨hin, herror⟩ | ⟨hin, hrest⟩
        · exact .inl ⟨hin, herror⟩
        · refine .inr ⟨hin, ?_⟩
          have hmin : min (n + 1) (rest.length + 1) = 1 + min n rest.length := by omega
          rw [hrest, advance_advance]
          simp [hcons, hmin]

end InputStream

/-! ### Reading some bytes -/

namespace File

variable {m_options : OpenOptions} {s : InputStream}

/-- What reading `n` bytes is to give where no read fails: the next ones, and no others. -/
def ReadsPrefix (s : InputStream) (n : Nat)
    (r : Except ReadError (List (BitVec 8)) × InputStream) : Prop :=
  r.2.error = false → r = (.ok (s.remaining.take n), s.advance (min n s.remaining.length))

/--
What reading `n` bytes does: it fails, or it gives a string of `n` characters, which are the
next ones where there are as many.
-/
def Gives (s : InputStream) (n : Nat)
    (r : Except ReadError (List (BitVec 8)) × InputStream) : Prop :=
  (s.FailsIn n ∧ r.2.error = true) ∨
    (¬ s.FailsIn n ∧ ∃ str, r = (.ok str, s.advance (min n s.remaining.length)) ∧
      str.length = n ∧ (n ≤ s.remaining.length → str = s.remaining.take n))

/-- What is given is what there is to read unless it is too long for that. -/
theorem reads_prefix_of_gives {n : Nat} {r : Except ReadError (List (BitVec 8)) × InputStream}
    (h : Gives s n r) : ReadsPrefix s n r ↔ n ≤ s.remaining.length ∨ s.FailsIn n := by
  rcases h with ⟨hin, herror⟩ | ⟨hin, str, rfl, hlength, htake⟩
  · refine iff_of_true (fun hclear => ?_) (.inr hin)
    rw [herror] at hclear
    cases hclear
  · rw [or_iff_left hin]
    constructor
    · intro h
      have hok := h (InputStream.clear_of_not_failsIn hin _)
      have hstr := congrArg List.length (Except.ok.inj (Prod.mk.inj hok).1)
      rw [hlength, List.length_take] at hstr
      omega
    · intro hle _
      rw [htake hle]

/-- `read` gives the string that it made, with what was stored at its start. -/
theorem read_gives (hread : m_options.type ≠ .Write) (s : InputStream) (n : Nat) :
    Gives s n (read m_options s n) := by
  rw [read, if_neg hread]
  rcases s.fread_cases n with ⟨hin, herror⟩ | ⟨hin, hfread⟩
  · refine .inl ⟨hin, ?_⟩
    dsimp only
    split <;> exact herror
  · rw [hfread]
    refine .inr ⟨hin, s.remaining.take n ++ List.replicate (n - s.remaining.length) 0, ?_, ?_,
      fun hle => ?_⟩
    · have hdrop : n - min n s.remaining.length = n - s.remaining.length := by omega
      simp [InputStream.clear_of_not_failsIn hin, hdrop]
    · simp
      omega
    · rw [Nat.sub_eq_zero_of_le hle]
      simp

/-- Two reads give what one read of both lengths would. -/
theorem gives_append {m n : Nat} {str : List (BitVec 8)}
    (hin : ¬ s.FailsIn m) (hlength : str.length = m)
    (htake : m ≤ s.remaining.length → str = s.remaining.take m)
    {r : Except ReadError (List (BitVec 8)) × InputStream}
    (h : Gives (s.advance (min m s.remaining.length)) n r) :
    Gives s (m + n) (r.1.map (str ++ ·), r.2) := by
  rw [Gives, s.failsIn_add, or_iff_right hin]
  rcases h with ⟨hrest, herror⟩ | ⟨hrest, others, rfl, hothers, hnext⟩
  · exact .inl ⟨hrest, herror⟩
  · refine .inr ⟨hrest, str ++ others, ?_, ?_, fun hle => ?_⟩
    · have hmin : min m s.remaining.length + min n (s.remaining.length - min m s.remaining.length) =
          min (m + n) s.remaining.length := by omega
      rw [InputStream.advance_advance, InputStream.remaining_advance, List.length_drop, hmin]
      rfl
    · rw [List.length_append, hlength, hothers]
    · have hm : min m s.remaining.length = m := by omega
      rw [hm, InputStream.remaining_advance, List.length_drop] at hnext
      rw [htake (by omega), hnext (by omega), List.take_add]

/-- Reads one after another give what one read of all their lengths would. -/
theorem reads_gives (hread : m_options.type ≠ .Write) (s : InputStream) (ns : List Nat) :
    Gives s ns.sum (reads m_options s ns) := by
  induction ns generalizing s with
  | nil =>
      rcases s.fread_cases 0 with ⟨hin, herror⟩ | ⟨hin, -⟩
      · exact .inl ⟨hin, herror⟩
      · exact .inr ⟨hin, [], by simp [reads, InputStream.advance_zero], rfl, fun _ => rfl⟩
  | cons n rest ih =>
      rw [List.sum_cons]
      rcases hresult : read m_options s n with ⟨result, after⟩
      have hgives := read_gives hread s n
      rw [hresult] at hgives
      rcases hgives with ⟨hin, herror⟩ | ⟨hin, str, heq, hlength, htake⟩
      · refine .inl ⟨(s.failsIn_add n rest.sum).mpr (.inl hin), ?_⟩
        cases result with
        | error e => simpa [reads, hresult] using herror
        | ok str =>
            rcases ih after with ⟨-, hrest⟩ | ⟨hnot, -⟩
            · simpa [reads, hresult] using hrest
            · exact absurd (.inl herror) hnot
      · obtain ⟨rfl, rfl⟩ := Prod.mk.inj heq
        rw [reads, hresult]
        exact gives_append hin hlength htake (ih _)

/--
**A read is right exactly if it asks for no more than there is to read**, or fails; and so
are reads one after another, which give what one read of all their lengths would.
-/
theorem read_prefix_iff (hread : m_options.type ≠ .Write) (s : InputStream) :
    (∀ n, ReadsPrefix s n (read m_options s n) ↔ n ≤ s.remaining.length ∨ s.FailsIn n) ∧
      ∀ ns : List Nat, ReadsPrefix s ns.sum (reads m_options s ns) ↔
        ns.sum ≤ s.remaining.length ∨ s.FailsIn ns.sum :=
  ⟨fun n => reads_prefix_of_gives (read_gives hread s n),
    fun ns => reads_prefix_of_gives (reads_gives hread s ns)⟩

/-- The two bytes of a file, in two reads. -/
theorem read_whole : ReadsPrefix ⟨[104, 105], fun _ => false, 0, false⟩ 2
    (reads {} ⟨[104, 105], fun _ => false, 0, false⟩ [1, 1]) :=
  ((read_prefix_iff (by decide) _).2 [1, 1]).mpr (.inl (by decide))

/-- Three bytes of a file of two: the third is a zero. -/
theorem read_zero : ¬ ∀ (m_options : OpenOptions) (s : InputStream) (n : Nat),
    m_options.type ≠ .Write → ReadsPrefix s n (read m_options s n) := by
  intro hclaim
  have h := hclaim {} ⟨[104, 105], fun _ => false, 0, false⟩ 3 (by decide) rfl
  have hstr : ([104, 105, 0] : List (BitVec 8)) = [104, 105] := Except.ok.inj (Prod.mk.inj h).1
  revert hstr
  decide

/-! ### Reading a line -/

/-- The bytes of the next line, without the newline. -/
def line (s : InputStream) : List (BitVec 8) := s.remaining.takeWhile (· != newline)

/-- The stream just after the next line and its newline. -/
def after_line (s : InputStream) : InputStream :=
  s.advance (min ((line s).length + 1) s.remaining.length)

/-- Reading a line comes to an end, and gives the next one where no read fails. -/
structure ReadsLine (s : InputStream)
    (run : Nat → Option (Except ReadError (List (BitVec 8)) × InputStream)) : Prop where
  terminates : ∃ fuel r, run fuel = some r
  right : ∀ fuel r, run fuel = some r → r.2.error = false → r = (.ok (line s), after_line s)

/-- The loop goes on for as long as its first byte is one of a line. -/
theorem read_line_never {c : BitVec 8} (hc : c ≠ newline) (str : List (BitVec 8))
    (m_file : InputStream) (fuel : Nat) :
    loop_until read_line_round fuel (some c, str, m_file) = none := by
  refine loop_until_never (fun t => t = (some c, str, m_file)) ?_ rfl fuel
  rintro t rfl
  refine ⟨_, ?_, rfl⟩
  rw [read_line_round, if_neg (fun h => hc (Option.some.inj h)), if_neg (Option.some_ne_none c)]

/-- A loop whose first round returns. -/
theorem readsLine_of_return {t : Option (BitVec 8) × List (BitVec 8) × InputStream}
    {r : Except ReadError (List (BitVec 8)) × InputStream} (h : read_line_round t = .inr r)
    (hright : r.2.error = false → r = (.ok (line s), after_line s)) :
    ReadsLine s fun fuel => loop_until read_line_round fuel t := by
  refine ⟨⟨1, r, loop_until_return h 0⟩, fun fuel r' hrun herror => ?_⟩
  cases fuel with
  | zero => cases hrun
  | succ fuel =>
      rw [loop_until_return h] at hrun
      obtain rfl := Option.some.inj hrun
      exact hright herror

/--
**Reading a line is right exactly if there is no byte before the newline**: the newline is
next, or the end of the file, or reading the first byte fails.
-/
theorem read_line_iff (hread : m_options.type ≠ .Write)
    (htext : m_options.modifier &&& AccessModifier.Binary = 0) (s : InputStream) :
    ReadsLine s (fun fuel => read_line fuel m_options s) ↔
      s.fault s.position = true ∨ s.remaining = [] ∨ s.remaining.head? = some newline := by
  have hguard : ¬ (m_options.type = .Write ∨ m_options.modifier = AccessModifier.Binary) := by
    rintro (htype | hbinary)
    · exact hread htype
    · rw [hbinary] at htext
      revert htext
      decide
  simp only [read_line, if_neg hguard]
  rcases s.fgetc_cases with ⟨hfault, hfgetc⟩ | ⟨hfault, hnil, hfgetc⟩ |
    ⟨hfault, c, rest, hcons, hfgetc⟩
  · rw [hfgetc]
    refine iff_of_true (readsLine_of_return (r := (.error .last_error, _)) rfl ?_) (.inl hfault)
    intro herror
    cases herror
  · rw [hfgetc]
    refine iff_of_true ?_ (.inr (.inl hnil))
    cases herror : s.error with
    | true =>
        refine readsLine_of_return (r := (.error .last_error, s))
          (by simp [read_line_round, herror]) ?_
        intro hclear
        rw [herror] at hclear
        cases hclear
    | false =>
        refine readsLine_of_return (r := (.ok [], s)) (by simp [read_line_round, herror]) ?_
        intro _
        simp [line, after_line, hnil, InputStream.advance_zero]
  · rw [hfgetc, hfault, hcons]
    by_cases hc : c = newline
    · refine iff_of_true ?_ (.inr (.inr (congrArg some hc)))
      refine readsLine_of_return (r := (.ok [], s.advance 1)) (by simp [read_line_round, hc]) ?_
      intro _
      simp [line, after_line, hcons, hc]
    · refine iff_of_false (fun h => ?_) ?_
      · obtain ⟨fuel, r, hrun⟩ := h.terminates
        rw [read_line_never hc] at hrun
        cases hrun
      · simpa using hc

/-- An empty line. -/
theorem read_line_empty : ReadsLine ⟨[10, 104], fun _ => false, 0, false⟩
    (fun fuel => read_line fuel {} ⟨[10, 104], fun _ => false, 0, false⟩) :=
  (read_line_iff (by decide) (by decide) _).mpr (.inr (.inr rfl))

/-- A line that is not empty is never read. -/
theorem read_line_hangs : ¬ ∀ (m_options : OpenOptions) (s : InputStream),
    m_options.type ≠ .Write → m_options.modifier &&& AccessModifier.Binary = 0 →
      ReadsLine s fun fuel => read_line fuel m_options s := by
  intro hclaim
  have h := hclaim {} ⟨[104, 10], fun _ => false, 0, false⟩ (by decide) (by decide)
  obtain ⟨fuel, r, hrun⟩ := h.terminates
  have hnever : read_line fuel {} ⟨[104, 10], fun _ => false, 0, false⟩ = none :=
    read_line_never (c := 104) (by decide) [] _ fuel
  rw [hnever] at hrun
  cases hrun

end File

end Hyperion
