/-
Which calls on a `File` may be undefined.

`EPERM` keeps a file that is open for writing only from being read, so input never comes before
output there, whatever the device refuses.  Nothing keeps one that is open for reading from
being flushed, or one that is open for both, the default, from being read right behind a write.
-/
import Hyperion.Filesystem.Stream

namespace Hyperion

namespace FileStream

variable {s : FileStream}

/-- A stream that is open for writing only, and was never read from. -/
structure WriteOnly (s : FileStream) : Prop where
  type_eq : s.type = .Write
  input : s.last ≠ .input
  ended : s.last ≠ .end_of_file

theorem WriteOnly.fwrite (h : s.WriteOnly) (bytes : List (BitVec 8)) (taken : Nat) :
    ∃ res s', s.fwrite bytes taken = some (res, s') ∧ s'.WriteOnly := by
  rw [FileStream.fwrite]
  split
  · exact ⟨_, _, rfl, h⟩
  · rw [if_neg (by rw [h.type_eq]; decide), if_neg h.input]
    exact ⟨_, _, rfl, h.type_eq, Turn.noConfusion, Turn.noConfusion⟩

theorem WriteOnly.fflush (h : s.WriteOnly) (refused : Bool) :
    ∃ done s', s.fflush refused = some (done, s') ∧ s'.WriteOnly := by
  have hdefined : ¬ (s.type = .Read ∨ s.last = .input ∨ s.last = .end_of_file) := by
    rintro (hread | hin | hend)
    · rw [h.type_eq] at hread
      cases hread
    · exact h.input hin
    · exact h.ended hend
  rw [FileStream.fflush, if_neg hdefined]
  split
  · exact ⟨_, _, rfl, h.type_eq, h.input, h.ended⟩
  · exact ⟨_, _, rfl, h.type_eq, Turn.noConfusion, Turn.noConfusion⟩

theorem WriteOnly.fseek (h : s.WriteOnly) (offset : Int) (origin : SeekOrigin) (refused : Bool) :
    (s.fseek offset origin refused).2.WriteOnly := by
  unfold FileStream.fseek
  dsimp only
  split
  · exact ⟨h.type_eq, h.input, h.ended⟩
  · split
    · exact ⟨h.type_eq, Turn.noConfusion, Turn.noConfusion⟩
    · exact h

end FileStream

namespace File

variable {m_options : OpenOptions} {f f' : InUse}

theorem write_only_seek {s : FileStream} (h : s.WriteOnly) (offset : Int) (origin : SeekOrigin)
    (refused : Bool) : (File.seek s offset origin refused).2.WriteOnly := by
  unfold File.seek
  dsimp only
  split
  · exact h.fseek offset origin refused
  · exact h.fseek offset origin refused

theorem write_only_size {s : FileStream} (h : s.WriteOnly) (refused refused_back : Bool) :
    (File.size s refused refused_back).2.WriteOnly := by
  unfold File.size
  split
  · exact h
  · exact write_only_seek (write_only_seek h 0 .End refused) _ .Begin refused_back

/-- No call was undefined so far, and none read. -/
structure InUse.WriteOnly (f : InUse) : Prop where
  file : f.m_file.WriteOnly
  defined : f.undefined = false

/-- A call that is defined, and leaves such a stream. -/
theorem InUse.WriteOnly.finish (h : f.WriteOnly) {α : Type} (value : α → Answer)
    {r : Option (Except ReadError α × FileStream)}
    (hr : ∃ p, r = some p ∧ p.2.WriteOnly) : (f.finish value r).2.WriteOnly := by
  obtain ⟨⟨a, s⟩, rfl, hs⟩ := hr
  cases a with
  | ok a => exact ⟨hs, h.defined⟩
  | error e => exact ⟨hs, h.defined⟩

theorem InUse.WriteOnly.write_bytes (h : f.WriteOnly) (bytes : List (BitVec 8))
    (answer : Written) : ∃ p, File.write_bytes m_options f.m_file bytes answer = some p ∧
      p.2.WriteOnly := by
  unfold File.write_bytes
  split
  · exact ⟨_, rfl, h.file⟩
  · obtain ⟨res, s', hfwrite, hs'⟩ := h.file.fwrite bytes answer.taken
    rw [hfwrite, Option.map_some]
    dsimp only
    split
    · exact ⟨_, rfl, hs'⟩
    · exact ⟨_, rfl, hs'⟩

/-- **A file that is open for writing only is never read from**, whatever the device refuses. -/
theorem InUse.WriteOnly.step (h : f.WriteOnly) (htype : m_options.type = .Write) {c : Call}
    {answer : Answer} (hstep : f.step m_options c = some (answer, f')) : f'.WriteOnly := by
  have hend : ∀ {α : Type} {value : α → Answer} {r : Option (Except ReadError α × FileStream)},
      some (f.finish value r) = some (answer, f') → (∃ p, r = some p ∧ p.2.WriteOnly) →
      f'.WriteOnly := by
    intro α value r hfinish hr
    have hf' := h.finish value hr
    rw [Option.some.inj hfinish] at hf'
    exact hf'
  cases c with
  | write_bytes bytes a | print bytes a => exact hend hstep (h.write_bytes bytes a)
  | println str a => exact hend hstep (h.write_bytes (str ++ [newline]) a)
  | read n => exact hend hstep ⟨_, if_pos htype, h.file⟩
  | read_bytes n => exact hend hstep ⟨_, if_pos htype, h.file⟩
  | read_line rounds =>
      have hline : File.read_line' rounds m_options f.m_file
          = some (some (.error .EPERM, f.m_file)) := if_pos (.inl htype)
      rw [InUse.step, hline] at hstep
      exact hend hstep ⟨_, rfl, h.file⟩
  | flush refused =>
      refine hend hstep ?_
      obtain ⟨done, s', hflush, hs'⟩ := h.file.fflush refused
      rw [File.flush, hflush, Option.map_some]
      dsimp only
      split
      · exact ⟨_, rfl, hs'⟩
      · exact ⟨_, rfl, hs'⟩
  | seek offset origin refused =>
      exact hend hstep ⟨_, rfl, write_only_seek h.file offset origin refused⟩
  | position => exact hend hstep ⟨_, rfl, h.file⟩
  | size refused refused_back =>
      exact hend hstep ⟨_, rfl, write_only_size h.file refused refused_back⟩
  | transmit n =>
      obtain ⟨-, rfl⟩ := Prod.mk.inj (Option.some.inj hstep)
      exact ⟨⟨h.file.type_eq, h.file.input, h.file.ended⟩, h.defined⟩

/-- A file that nothing was done with yet. -/
structure InUse.Fresh (m_options : OpenOptions) (f : InUse) : Prop where
  type_eq : f.m_file.type = m_options.type
  last : f.m_file.last = .positioned
  defined : f.undefined = false

end File

end Hyperion
