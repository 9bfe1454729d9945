/-
A buffer outlives the stream it is attached to.

Custody says that a buffer that was attached is with one `File` or was freed once, and
the stream of the same number goes along with it.  What is left is the order in which
the two are released: move assignment and the error path of `open` close the stream
first.  The destructor frees the buffer first, since `m_buffer` is declared after
`m_file`; the order is right exactly where no `File` is destroyed that owns a buffer.
-/
import Hyperion.Filesystem.File

namespace Hyperion.Files

variable {h h' : Files}

/-! ### What one `File` releases -/

/-- Closing the stream of a number, if there is one. -/
def closes (p : Option Nat) : List FileEvent := p.toList.map fun n => .fclose (.opened n)

/-- Freeing the buffer of a number, if there is one. -/
def frees (p : Option Nat) : List FileEvent := p.toList.map .free

/-- The stream and the buffer of a `File` go by one number. -/
def Paired (f : File) : Prop := ∀ n, f.m_file.first = some (.opened n) ↔ f.m_buffer.first = some n

/-- A stream that is not a standard one is closed if there is one. -/
theorem call_eq_closes {f : File} (hf : Paired f) (d : FileDeleter) :
    d.call f.m_file.first = closes f.m_buffer.first := by
  unfold FileDeleter.call closes
  cases hfile : f.m_file.first with
  | none =>
      cases hbuffer : f.m_buffer.first with
      | none => rfl
      | some n =>
          have := (hf n).mpr hbuffer
          rw [hfile] at this
          cases this
  | some stream =>
      cases hbuffer : f.m_buffer.first with
      | none =>
          cases stream with
          | stdout => rfl
          | stderr => rfl
          | opened n =>
              have := (hf n).mp hfile
              rw [hbuffer] at this
              cases this
      | some n =>
          have := (hf n).mpr hbuffer
          rw [hfile] at this
          cases this
          rfl

/-- Move assignment closes first. -/
theorem move_assign_events {this : File} (hf : Paired this) (file : File) :
    (this.move_assign file).1 = closes this.m_buffer.first ++ frees this.m_buffer.first :=
  congrArg (· ++ _) (call_eq_closes hf _)

/-- The destructor frees first. -/
theorem destructor_events {this : File} (hf : Paired this) :
    this.destructor.1 = frees this.m_buffer.first ++ closes this.m_buffer.first :=
  congrArg (_ ++ ·) (call_eq_closes hf _)

/-- `open` did nothing; or closed and freed what it had opened; or made a `File` of it. -/
theorem open_cases (n : Nat) (answers : File.Answers) (open_options : OpenOptions)
    (buffer_size : Nat) :
    (∃ e, File.open' n answers open_options buffer_size = ([], .error e)) ∨
    (∃ e options, File.open' n answers open_options buffer_size
      = ([.fopen (.opened n) options, .setvbuf (.opened n) n buffer_size]
          ++ (closes (some n) ++ frees (some n)), .error e)) ∨
    ∃ options, File.open' n answers open_options buffer_size
      = ([.fopen (.opened n) options, .setvbuf (.opened n) n buffer_size],
          .ok ⟨⟨some (.opened n), .mk⟩, ⟨some n, .mk⟩, open_options⟩) := by
  unfold File.open'
  cases validate_open_options open_options with
  | error e => exact .inl ⟨e, rfl⟩
  | ok options =>
      obtain ⟨fopen, setvbuf⟩ := answers
      cases fopen with
      | false => exact .inl ⟨_, rfl⟩
      | true =>
          cases setvbuf with
          | false => exact .inr (.inl ⟨_, options, rfl⟩)
          | true => exact .inr (.inr ⟨options, rfl⟩)

/-! ### Custody of the buffers -/

/-- The buffer attached. -/
def attached : FileEvent → Option Nat
  | .setvbuf _ buffer _ => some buffer
  | _ => none

/-- The buffer freed. -/
def freed : FileEvent → Option Nat
  | .free buffer => some buffer
  | _ => none

@[simp] theorem attached_closes (p : Option Nat) : (closes p).filterMap attached = [] := by
  cases p <;> rfl

@[simp] theorem attached_frees (p : Option Nat) : (frees p).filterMap attached = [] := by
  cases p <;> rfl

@[simp] theorem freed_closes (p : Option Nat) : (closes p).filterMap freed = [] := by
  cases p <;> rfl

@[simp] theorem freed_frees (p : Option Nat) : (frees p).filterMap freed = p.toList := by
  cases p <;> rfl

theorem not_attached {es : List FileEvent} (h : es.filterMap attached = []) (stream : Stream)
    (n size : Nat) : FileEvent.setvbuf stream n size ∉ es := by
  intro hmem
  have hno : n ∈ es.filterMap attached := List.mem_filterMap.mpr ⟨_, hmem, rfl⟩
  rw [h] at hno
  cases hno

/-- Each `File` keeps the buffer it owns. -/
def custody (h : Files) : Custody Nat Nat :=
  ⟨fun i => (Objects.get h.objects i).bind fun f => f.m_buffer.first,
    h.trace.filterMap attached, [], h.trace.filterMap freed⟩

/-- Releases of the stream and the buffer of one number. -/
def released (n : Nat) (l : List FileEvent) : List FileEvent :=
  l.filter fun e => e = .fclose (.opened n) ∨ e = .free n

theorem released_append (n : Nat) (l m : List FileEvent) :
    released n (l ++ m) = released n l ++ released n m := List.filter_append ..

theorem released_closes (n m : Nat) :
    released n (closes (some m)) = if m = n then [.fclose (.opened n)] else [] := by
  by_cases h : m = n <;> simp [released, closes, h]

theorem released_frees (n m : Nat) :
    released n (frees (some m)) = if m = n then [.free n] else [] := by
  by_cases h : m = n <;> simp [released, frees, h]

/-- The events release what goes by a number, and nothing else. -/
def Releases (p : Option Nat) (es : List FileEvent) : Prop :=
  es.filterMap freed = p.toList ∧ ∀ n, p ≠ some n → released n es = []

theorem releases_nil : Releases none [] := ⟨rfl, fun _ _ => rfl⟩

theorem releases_close_free (p : Option Nat) : Releases p (closes p ++ frees p) := by
  refine ⟨by simp, fun n hn => ?_⟩
  cases p with
  | none => rfl
  | some m =>
      have hmn : m ≠ n := fun h => hn (congrArg some h)
      rw [released_append, released_closes, released_frees, if_neg hmn, if_neg hmn]
      rfl

theorem releases_free_close (p : Option Nat) : Releases p (frees p ++ closes p) := by
  refine ⟨by simp, fun n hn => ?_⟩
  cases p with
  | none => rfl
  | some m =>
      have hmn : m ≠ n := fun h => hn (congrArg some h)
      rw [released_append, released_closes, released_frees, if_neg hmn, if_neg hmn]
      rfl

/-- Opening a stream and attaching a buffer releases nothing. -/
theorem Releases.opened {p : Option Nat} {es : List FileEvent} (h : Releases p es)
    (stream : Stream) (options : String) (n size : Nat) :
    Releases p ([.fopen stream options, .setvbuf stream n size] ++ es) := by
  refine ⟨?_, fun m hm => ?_⟩
  · rw [List.filterMap_append, h.1]
    rfl
  · rw [released_append, h.2 m hm]
    simp [released]

/-- What custody cannot say: stream and buffer go together, and numbers are fresh. -/
structure Owned (h : Files) : Prop where
  settled : h.custody.Settled id
  paired : Objects.Each Paired (fun _ => True) h.objects
  fresh : ∀ n ∈ h.trace.filterMap attached, n < h.next
  numbered : ∀ stream n size, FileEvent.setvbuf stream n size ∈ h.trace → stream = .opened n
  released : ∀ n, n ∉ h.trace.filterMap freed → released n h.trace = []

/-- What was released was released in order. -/
def InOrder (h : Files) : Prop :=
  ∀ n ∈ h.trace.filterMap freed, released n h.trace = [.fclose (.opened n), .free n]

theorem Owned.start : Owned start := by
  refine ⟨Custody.Settled.empty.congr (fun _ => rfl) rfl rfl rfl, Objects.Each.start, ?_, ?_, ?_⟩
  · intro n hn
    cases hn
  · intro stream n size hmem
    cases hmem
  · intro n _
    rfl

/-- What a statement does: the events it adds, which release what goes by one number. -/
structure Effect (h h' : Files) (p : Option Nat) (es : List FileEvent) : Prop where
  settled : h'.custody.Settled id
  paired : Objects.Each Paired (fun _ => True) h'.objects
  trace : h'.trace = h.trace ++ es
  releases : Releases p es
  next : h.next ≤ h'.next
  numbered : ∀ stream n size, FileEvent.setvbuf stream n size ∈ es →
    stream = .opened n ∧ n < h'.next
  held : ∀ n ∈ p, n ∉ h.trace.filterMap freed

variable {p : Option Nat} {es : List FileEvent}

theorem Owned.step (hs : Owned h) (he : Effect h h' p es) : Owned h' := by
  refine ⟨he.settled, he.paired, ?_, ?_, ?_⟩
  · intro n hn
    rw [he.trace, List.filterMap_append] at hn
    rcases List.mem_append.mp hn with hn | hn
    · exact Nat.lt_of_lt_of_le (hs.fresh n hn) he.next
    · obtain ⟨e, hmem, heq⟩ := List.mem_filterMap.mp hn
      cases e with
      | setvbuf stream m size =>
          cases heq
          exact (he.numbered _ _ _ hmem).2
      | _ => cases heq
  · intro stream n size hmem
    rw [he.trace] at hmem
    rcases List.mem_append.mp hmem with hmem | hmem
    · exact hs.numbered _ _ _ hmem
    · exact (he.numbered _ _ _ hmem).1
  · intro n hn
    rw [he.trace, List.filterMap_append, List.mem_append, not_or, he.releases.1,
      Option.mem_toList] at hn
    rw [he.trace, released_append, hs.released n hn.1, he.releases.2 n hn.2]
    rfl

/-- **A statement keeps the order exactly if what it releases, it releases in order.** -/
theorem Owned.inOrder_step (hs : Owned h) (he : Effect h h' p es) :
    InOrder h' ↔
      InOrder h ∧ ∀ n ∈ p, Files.released n es = [.fclose (.opened n), .free n] := by
  have hmem : ∀ n, n ∈ h'.trace.filterMap freed ↔ n ∈ h.trace.filterMap freed ∨ n ∈ p := by
    intro n
    rw [he.trace, List.filterMap_append, List.mem_append, he.releases.1, Option.mem_toList]
    rfl
  constructor
  · intro h'
    refine ⟨fun n hn => ?_, fun n hn => ?_⟩
    · have hnew := h' n ((hmem n).mpr (.inl hn))
      rw [he.trace, released_append, he.releases.2 n fun hp => he.held n hp hn,
        List.append_nil] at hnew
      exact hnew
    · have hnew := h' n ((hmem n).mpr (.inr hn))
      rw [he.trace, released_append, hs.released n (he.held n hn), List.nil_append] at hnew
      exact hnew
  · rintro ⟨hbefore, hnew⟩ n hn
    rw [he.trace, released_append]
    by_cases hp : n ∈ p
    · rw [hs.released n (he.held n hp), hnew n hp]
      rfl
    · have hold := ((hmem n).mp hn).resolve_right hp
      rw [hbefore n hold, he.releases.2 n hp, List.append_nil]

/-! ### One statement -/

/-- What a `File` owns is not released. -/
theorem Owned.held (hs : Owned h) {i : Nat} {f : File} (hf : Objects.get h.objects i = some f) :
    ∀ n ∈ f.m_buffer.first, n ∉ h.trace.filterMap freed := by
  intro n hn hgone
  refine hs.settled.held_not_gone i n ?_ hgone
  show (Objects.get h.objects i).bind _ = _
  rw [hf]
  exact hn

/-- A number not given yet was not attached. -/
theorem Owned.next_fresh (hs : Owned h) : h.next ∉ h.trace.filterMap attached :=
  fun hmem => Nat.lt_irrefl _ (hs.fresh _ hmem)

theorem custody_held {i : Nat} {f : File} (hf : Objects.get h.objects i = some f) :
    h.custody.held i = f.m_buffer.first :=
  Objects.keeps_get hf

theorem custody_free {j : Nat} (hfree : Objects.free h.objects j = true) :
    h.custody.held j = none :=
  Objects.keeps_free hfree

theorem custody_adopted {l : List Nat} (htrace : h'.trace = h.trace ++ es)
    (hes : es.filterMap attached = l) : h'.custody.adopted = h.custody.adopted ++ l := by
  simp only [custody, htrace, List.filterMap_append, hes]

theorem custody_disposed {l : List Nat} (htrace : h'.trace = h.trace ++ es)
    (hes : es.filterMap freed = l) : h'.custody.disposed = h.custody.disposed ++ l := by
  simp only [custody, htrace, List.filterMap_append, hes]

theorem paired_empty {f : File} (hfile : ∀ n, f.m_file.first ≠ some (.opened n))
    (hbuffer : f.m_buffer.first = none) : Paired f := by
  intro n
  rw [hbuffer]
  exact ⟨fun h => absurd h (hfile n), fun h => by cases h⟩

theorem paired_moved (f : File) : Paired f.move_construct.2 :=
  paired_empty (fun _ h => by cases h) rfl

/-- A statement that releases nothing and attaches nothing. -/
theorem Effect.quiet (hsettled : h'.custody.Settled id)
    (hpaired : Objects.Each Paired (fun _ => True) h'.objects) (htrace : h'.trace = h.trace)
    (hnext : h.next ≤ h'.next) : Effect h h' none [] := by
  refine ⟨hsettled, hpaired, ?_, releases_nil, hnext, ?_, ?_⟩
  · rw [htrace, List.append_nil]
  · intro stream n size hmem
    cases hmem
  · intro n hn
    cases hn

theorem effect_standard (hs : Owned h) {j : Nat} {file : Stream} {options : OpenOptions}
    (hstep : h.step (.standard j file options) = some ((), h')) : Effect h h' none [] := by
  simp only [Files.step] at hstep
  split at hstep
  · rename_i hcond
    cases hstep
    refine Effect.quiet ?_ (hs.paired.put (paired_empty ?_ rfl)) rfl (Nat.le_refl _)
    · refine hs.settled.congr (congrFun ((Objects.keeps_put j _).trans ?_)) rfl rfl rfl
      exact Function.update_eq_iff.mpr ⟨(custody_free hcond.1).symm, fun _ _ => rfl⟩
    · rintro n hn
      rcases hcond.2 with rfl | rfl <;> cases hn
  · cases hstep

theorem effect_move_construct (hs : Owned h) {j i : Nat}
    (hstep : h.step (.move_construct j i) = some ((), h')) : Effect h h' none [] := by
  simp only [Files.step] at hstep
  split at hstep
  · rename_i hfree
    obtain ⟨file, hfile, heq⟩ := Option.map_eq_some_iff.mp hstep
    cases heq
    have hpaired := (hs.paired.put (j := i) (paired_moved file)).put (j := j)
      (r := file.move_construct.1) (hs.paired.get hfile)
    refine Effect.quiet ?_ hpaired rfl (Nat.le_refl _)
    exact (hs.settled.exchange j i).congr (congrFun (Objects.keeps_exchange
      (custody_held hfile).symm (custody_free hfree).symm)) rfl rfl rfl
  · cases hstep

/-- A move assignment releases what the target owned, the stream first. -/
theorem effect_move_assign (hs : Owned h) {j i : Nat}
    (hstep : h.step (.move_assign j i) = some ((), h')) :
    ∃ p, Effect h h' p (closes p ++ frees p) := by
  simp only [Files.step] at hstep
  split at hstep
  · obtain ⟨file, hfile, heq⟩ := Option.map_eq_some_iff.mp hstep
    cases heq
    exact ⟨none, Effect.quiet hs.settled hs.paired rfl (Nat.le_refl _)⟩
  · rename_i hji
    obtain ⟨this, hthis, hstep⟩ := Option.bind_eq_some_iff.mp hstep
    obtain ⟨file, hfile, heq⟩ := Option.map_eq_some_iff.mp hstep
    cases heq
    have hevents := move_assign_events (hs.paired.get hthis) file
    have hpaired := (hs.paired.put (j := i) (r := (this.move_assign file).2.2)
      (paired_moved file)).put (j := j) (r := (this.move_assign file).2.1) (hs.paired.get hfile)
    refine ⟨this.m_buffer.first, ?_, hpaired, congrArg (h.trace ++ ·) hevents,
      releases_close_free _, Nat.le_refl _, ?_, hs.held hthis⟩
    · have hheld := Objects.keeps_handover (f := fun f : File => f.m_buffer.first) hji
        (r := (this.move_assign file).2.1) (s := (this.move_assign file).2.2)
        (custody_held hfile).symm rfl
      refine ((hs.settled.dispose j).exchange j i).congr (congrFun hheld) ?_ rfl ?_
      · exact (custody_adopted (congrArg (h.trace ++ ·) hevents) (by simp)).trans
          (List.append_nil _)
      · show _ = h.custody.disposed ++ (h.custody.held j).toList
        rw [custody_held hthis]
        exact custody_disposed (congrArg (h.trace ++ ·) hevents) (by simp)
    · exact fun stream n size hmem => absurd hmem (not_attached (by simp) stream n size)

/-- A destruction releases what the file owned, the buffer first. -/
theorem effect_destroy (hs : Owned h) {j : Nat} (hstep : h.step (.destroy j) = some ((), h')) :
    ∃ f, Objects.get h.objects j = some f ∧
      Effect h h' f.m_buffer.first (frees f.m_buffer.first ++ closes f.m_buffer.first) := by
  obtain ⟨this, hthis, heq⟩ := Option.map_eq_some_iff.mp hstep
  cases heq
  have hevents := destructor_events (hs.paired.get hthis)
  refine ⟨this, hthis, ?_, hs.paired.end trivial, congrArg (h.trace ++ ·) hevents,
    releases_free_close _, Nat.le_refl _, ?_, hs.held hthis⟩
  · refine (hs.settled.dispose j).congr (congrFun (Objects.keeps_end j _)) ?_ rfl ?_
    · exact (custody_adopted (congrArg (h.trace ++ ·) hevents) (by simp)).trans (List.append_nil _)
    · show _ = h.custody.disposed ++ (h.custody.held j).toList
      rw [custody_held hthis]
      exact custody_disposed (congrArg (h.trace ++ ·) hevents) (by simp)
  · exact fun stream n size hmem => absurd hmem (not_attached (by simp) stream n size)

/-- A buffer under the next number is adopted under a name that is not in use. -/
theorem Owned.adopt_next (hs : Owned h) {j : Nat} (hfree : Objects.free h.objects j = true) :
    (h.custody.adopt j (some h.next)).Settled id := by
  refine hs.settled.adopt (custody_free hfree) fun n hn => ?_
  cases hn
  rw [List.map_id]
  exact hs.next_fresh

theorem numbered_opened {es : List FileEvent} (hes : es.filterMap attached = [])
    (n buffer_size : Nat) (options : String) : ∀ stream m size, FileEvent.setvbuf stream m size ∈
      [.fopen (.opened n) options, .setvbuf (.opened n) n buffer_size] ++ es →
      stream = .opened m ∧ m < n + 1 := by
  intro stream m size hmem
  rcases List.mem_append.mp hmem with hmem | hmem
  · simp only [List.mem_cons, reduceCtorEq, FileEvent.setvbuf.injEq, List.not_mem_nil, or_false,
      false_or] at hmem
    obtain ⟨rfl, rfl, -⟩ := hmem
    exact ⟨rfl, Nat.lt_succ_self m⟩
  · exact absurd hmem (not_attached hes stream m size)

/-- Nothing was opened. -/
theorem effect_open_failed (hs : Owned h) :
    Effect h { h with next := h.next + 1, trace := h.trace ++ [] } none [] := by
  have hnothing : h.trace ++ [] = h.trace ++ ([] : List FileEvent) := rfl
  refine Effect.quiet (hs.settled.congr (fun _ => rfl) ?_ rfl ?_) hs.paired (List.append_nil _)
    (Nat.le_succ _)
  · exact (custody_adopted hnothing rfl).trans (List.append_nil _)
  · exact (custody_disposed hnothing rfl).trans (List.append_nil _)

/-- What was opened was closed and freed again: as if a `File` under a name that is not in use
had adopted the buffer and been disposed of. -/
theorem effect_open_closed (hs : Owned h) {j : Nat} (hfree : Objects.free h.objects j = true)
    (buffer_size : Nat) (options : String) :
    Effect h { h with
        next := h.next + 1
        trace := h.trace ++ ([.fopen (.opened h.next) options,
          .setvbuf (.opened h.next) h.next buffer_size]
            ++ (closes (some h.next) ++ frees (some h.next))) } (some h.next)
      ([.fopen (.opened h.next) options, .setvbuf (.opened h.next) h.next buffer_size]
        ++ (closes (some h.next) ++ frees (some h.next))) := by
  refine ⟨?_, hs.paired, rfl, (releases_close_free (some h.next)).opened _ _ _ _, Nat.le_succ _,
    numbered_opened (by simp) _ _ _, ?_⟩
  · refine ((hs.adopt_next hfree).dispose j).congr (fun k => ?_) ?_ rfl ?_
    · simp only [Custody.dispose, Custody.adopt, Function.update_idem, Function.update_apply]
      split
      · rename_i hkj
        rw [hkj]
        exact custody_free hfree
      · rfl
    · exact custody_adopted rfl rfl
    · simp only [Custody.dispose, Custody.adopt, Function.update_self, Option.toList_some]
      exact custody_disposed rfl rfl
  · rintro n hn hgone
    cases hn
    exact hs.next_fresh (hs.settled.gone_adopted _ hgone)

/-- A `File` was made of what was opened. -/
theorem effect_opened (hs : Owned h) {j : Nat} (hfree : Objects.free h.objects j = true)
    (buffer_size : Nat) (options : String) (open_options : OpenOptions) :
    Effect h {
        objects := Objects.put h.objects j
          ⟨⟨some (.opened h.next), .mk⟩, ⟨some h.next, .mk⟩, open_options⟩
        next := h.next + 1
        trace := h.trace ++ [.fopen (.opened h.next) options,
          .setvbuf (.opened h.next) h.next buffer_size] } none
      [.fopen (.opened h.next) options, .setvbuf (.opened h.next) h.next buffer_size] := by
  have hpair : Paired ⟨⟨some (.opened h.next), .mk⟩, ⟨some h.next, .mk⟩, open_options⟩ := by
    intro n
    simp
  refine ⟨?_, hs.paired.put hpair, rfl, releases_nil.opened _ _ _ _, Nat.le_succ _,
    numbered_opened rfl _ _ _, fun n hn => by cases hn⟩
  refine (hs.adopt_next hfree).congr (congrFun (Objects.keeps_put j _)) ?_ rfl ?_
  · exact custody_adopted rfl rfl
  · exact (custody_disposed rfl rfl).trans (List.append_nil _)

theorem released_close_free (n : Nat) :
    released n (closes (some n) ++ frees (some n)) = [.fclose (.opened n), .free n] := by
  rw [released_append, released_closes, released_frees, if_pos rfl, if_pos rfl]
  rfl

theorem released_free_close (n : Nat) :
    released n (frees (some n) ++ closes (some n)) = [.free n, .fclose (.opened n)] := by
  rw [released_append, released_closes, released_frees, if_pos rfl, if_pos rfl]
  rfl

/-- `open` releases what it opened, the stream first, or nothing. -/
theorem effect_open (hs : Owned h) {j buffer_size : Nat} {answers : File.Answers}
    {open_options : OpenOptions}
    (hstep : h.step (.open' j answers open_options buffer_size) = some ((), h')) :
    ∃ p es, Effect h h' p es ∧
      ∀ n ∈ p, released n es = [.fclose (.opened n), .free n] := by
  simp only [Files.step] at hstep
  split at hstep
  · rename_i hfree
    cases hstep
    rcases open_cases h.next answers open_options buffer_size with
      ⟨e, heq⟩ | ⟨e, options, heq⟩ | ⟨options, heq⟩ <;> rw [heq]
    · exact ⟨none, [], effect_open_failed hs, fun n hn => by cases hn⟩
    · refine ⟨some h.next, _, effect_open_closed hs hfree buffer_size options, fun n hn => ?_⟩
      cases hn
      rw [released_append, released_close_free]
      simp [released]
    · exact ⟨none, _, effect_opened hs hfree buffer_size options open_options,
        fun n hn => by cases hn⟩
  · cases hstep

/-- No `File` that owns a buffer is destroyed. -/
def Ordered (h : Files) : Op → Prop
  | .destroy j => ∀ f ∈ Objects.get h.objects j, f.m_buffer.first = none
  | _ => True

instance (h : Files) (op : Op) : Decidable (h.Ordered op) := by
  cases op <;> unfold Ordered <;> infer_instance

/-- **What a statement does**, and that it is in order unless it destroys a `File` with a buffer. -/
theorem effect (hs : Owned h) {op : Op} (hstep : h.step op = some ((), h')) :
    ∃ p es, Effect h h' p es ∧
      ((∀ n ∈ p, released n es = [.fclose (.opened n), .free n]) ↔ h.Ordered op) := by
  cases op with
  | standard j file options =>
      exact ⟨none, [], effect_standard hs hstep, iff_of_true (fun n hn => by cases hn) trivial⟩
  | open' j answers open_options buffer_size =>
      obtain ⟨p, es, he, horder⟩ := effect_open hs hstep
      exact ⟨p, es, he, iff_of_true horder trivial⟩
  | move_construct j i =>
      exact ⟨none, [], effect_move_construct hs hstep,
        iff_of_true (fun n hn => by cases hn) trivial⟩
  | move_assign j i =>
      obtain ⟨p, he⟩ := effect_move_assign hs hstep
      refine ⟨p, _, he, iff_of_true (fun n hn => ?_) trivial⟩
      cases hn
      exact released_close_free n
  | destroy j =>
      obtain ⟨f, hf, he⟩ := effect_destroy hs hstep
      refine ⟨f.m_buffer.first, _, he, ?_⟩
      have hordered : h.Ordered (.destroy j) ↔ f.m_buffer.first = none := by
        simp only [Ordered, hf, Option.mem_some_iff, forall_eq']
      rw [hordered]
      constructor
      · intro horder
        cases hbuffer : f.m_buffer.first with
        | none => rfl
        | some n =>
            -- The buffer was freed before the stream was closed.
            have hout := horder n hbuffer
            rw [hbuffer, released_free_close] at hout
            cases hout
      · intro hnone n hn
        rw [hnone] at hn
        cases hn

/-! ### Every program -/

/-- Order is what is left to say. -/
theorem Owned.bufferOutlives_iff (hs : Owned h) : h.BufferOutlives ↔ InOrder h := by
  constructor
  · intro houtlives n hn
    obtain ⟨e, he, heq⟩ := List.mem_filterMap.mp
      (hs.settled.gone_adopted n (List.mem_append_right _ hn))
    cases e with
    | setvbuf stream m size =>
        cases heq
        rcases houtlives stream n size he with ⟨⟨i, f, hf, -, hbuffer, -⟩, -⟩ | hreleased
        · exact absurd hn (hs.held hf n hbuffer)
        · rw [hs.numbered stream n size he] at hreleased
          exact hreleased
    | _ => cases heq
  · intro horder stream n size hmem
    obtain rfl := hs.numbered stream n size hmem
    by_cases hgone : n ∈ h.trace.filterMap freed
    · exact .inr (horder n hgone)
    · refine .inl ⟨?_, hs.released n hgone⟩
      have hadopted : n ∈ h.custody.adopted := List.mem_filterMap.mpr ⟨_, hmem, rfl⟩
      obtain ⟨i, hi⟩ := (hs.settled.none_lost n hadopted).resolve_left hgone
      obtain ⟨f, hf, hbuffer⟩ := Option.bind_eq_some_iff.mp hi
      refine ⟨i, f, hf, (hs.paired.get hf n).mpr hbuffer, hbuffer, ?_⟩
      intro j g hg heither
      have hbuffer' : g.m_buffer.first = some n := heither.elim (hs.paired.get hg n).mp id
      exact hs.settled.one_holder j i n ((custody_held hg).trans hbuffer') hi

theorem owned_step {op : Op} (hs : Owned h) (hstep : h.step op = some ((), h')) : Owned h' := by
  obtain ⟨p, es, he, -⟩ := effect hs hstep
  exact hs.step he

/--
**The buffer of a `File` outlives its stream** in exactly those programs that destroy no
`File` that owns a buffer.
-/
theorem buffer_outlives_iff {ops : List Op} {outs : List Unit}
    (hrun : Machine.Run step (fun _ _ => True) start ops outs h) :
    h.BufferOutlives ↔ Machine.Run step Ordered start ops outs h := by
  have howned : Owned h :=
    hrun.invariant (fun _ _ _ _ hs _ hstep => owned_step hs hstep) Owned.start
  have hordered : ∀ s op o s', Owned s → True → step s op = some (o, s') →
      (InOrder s' ↔ InOrder s ∧ Ordered s op) := by
    intro s op o s' hs _ hstep
    obtain ⟨p, es, he, horder⟩ := effect hs hstep
    rw [hs.inOrder_step he, horder]
  have hgood := hrun.good_iff (fun _ _ _ _ hs _ hstep => owned_step hs hstep) hordered
    Owned.start (fun n hn => by cases hn)
  rw [howned.bufferOutlives_iff, hgood]
  simp only [true_and]

/-- A `File` that another is assigned to closes its stream before its buffer is freed. -/
theorem buffer_outlives_assigned : ∃ (outs : List Unit) (h : Files),
    Machine.Run step (fun _ _ => True) start
      [.open' 0 ⟨true, true⟩ {} 512, .open' 1 ⟨true, true⟩ {} 512, .move_assign 0 1, .destroy 1]
      outs h ∧ h.BufferOutlives := by
  obtain ⟨s, outs, h, hs, hrun, -⟩ := Machine.exists_run step Ordered (some start)
    [.open' 0 ⟨true, true⟩ {} 512, .open' 1 ⟨true, true⟩ {} 512, .move_assign 0 1, .destroy 1]
    (fun _ => true) (by decide)
  cases hs
  exact ⟨outs, h, hrun.any, (buffer_outlives_iff hrun.any).mpr hrun⟩

/-- A `File` that is opened and destroyed frees its buffer before its stream is closed. -/
theorem freed_before_closed : ¬ ∀ (ops : List Op) (outs : List Unit) (h : Files),
    Machine.Run step (fun _ _ => True) start ops outs h → h.BufferOutlives := by
  intro hclaim
  obtain ⟨s, outs, h, hs, hrun, hfreed⟩ := Machine.exists_run step (fun _ _ => True) (some start)
    [.open' 0 ⟨true, true⟩ {} 512, .destroy 0]
    (fun r => r.2.releases (.opened 0) 0 = [.free 0, .fclose (.opened 0)] ∧
      FileEvent.setvbuf (.opened 0) 0 512 ∈ r.2.trace) (by decide)
  cases hs
  obtain ⟨hreleases, hmem⟩ := of_decide_eq_true hfreed
  rcases hclaim _ _ _ hrun _ _ _ hmem with ⟨-, hnone⟩ | horder
  · rw [hreleases] at hnone
    cases hnone
  · rw [hreleases] at horder
    cases horder

end Hyperion.Files
