/-
Texts as lines of a sequence.

Each line is a text with a separator behind it.  Where no text has the separator in it, the
lines of what was written are the texts; and the lines of a part that was cut off anywhere
are the first of them.  A text may be split at the last separator in it, too.
-/
import Mathlib.Data.List.Basic

namespace Lines

variable {α : Type*}

/-- The texts, each with the separator behind it. -/
def unlines (sep : α) (texts : List (List α)) : List α := texts.flatMap (· ++ [sep])

@[simp] theorem unlines_nil (sep : α) : unlines sep [] = [] := rfl

@[simp] theorem unlines_cons (sep : α) (text : List α) (texts : List (List α)) :
    unlines sep (text :: texts) = text ++ sep :: unlines sep texts := by
  simp [unlines]

@[simp] theorem unlines_append (sep : α) (texts more : List (List α)) :
    unlines sep (texts ++ more) = unlines sep texts ++ unlines sep more :=
  List.flatMap_append

/-- Lines end with a separator. -/
theorem getLast?_unlines {sep : α} {texts : List (List α)} (h : texts ≠ []) :
    (unlines sep texts).getLast? = some sep := by
  obtain ⟨front, text, rfl⟩ := (List.eq_nil_or_concat' texts).resolve_left h
  rw [unlines_append, unlines_cons, unlines_nil, ← List.append_assoc,
    List.getLast?_append, List.getLast?_singleton]
  rfl

/-- So does every last part of them. -/
theorem mem_of_suffix {sep : α} {front part : List α} {texts : List (List α)}
    (h : front ++ part = unlines sep texts) (hpart : part ≠ []) : sep ∈ part := by
  have htexts : texts ≠ [] := by
    rintro rfl
    exact hpart (List.append_eq_nil_iff.mp h).2
  have hlast := congrArg List.getLast? h
  rw [getLast?_unlines htexts, List.getLast?_append_of_ne_nil _ hpart] at hlast
  exact List.mem_of_getLast? hlast

variable [DecidableEq α]

/-- The texts in front of the separators; what is behind the last one is no line. -/
def lines (sep : α) : List α → List (List α)
  | [] => []
  | c :: rest =>
      if c = sep then [] :: lines sep rest
      else
        match lines sep rest with
        | [] => []
        | text :: texts => (c :: text) :: texts

variable {sep : α}

/-- What has no separator has no line. -/
theorem lines_of_not_mem {text : List α} (h : sep ∉ text) : lines sep text = [] := by
  induction text with
  | nil => rfl
  | cons c rest ih =>
      have hc : c ≠ sep := fun heq => h (by simp [heq])
      rw [lines, if_neg hc, ih fun hmem => h (List.mem_cons_of_mem c hmem)]

/-- A line in front of others. -/
theorem lines_append {text : List α} (h : sep ∉ text) (rest : List α) :
    lines sep (text ++ sep :: rest) = text :: lines sep rest := by
  induction text with
  | nil => rw [List.nil_append, lines, if_pos rfl]
  | cons c more ih =>
      have hc : c ≠ sep := fun heq => h (by simp [heq])
      rw [List.cons_append, lines, if_neg hc, ih fun hmem => h (List.mem_cons_of_mem c hmem)]

/-- The lines of the texts are the texts. -/
theorem lines_unlines {texts : List (List α)} (h : ∀ text ∈ texts, sep ∉ text) :
    lines sep (unlines sep texts) = texts := by
  induction texts with
  | nil => rfl
  | cons text rest ih =>
      rw [unlines_cons, lines_append (h text (by simp)),
        ih fun t ht => h t (List.mem_cons_of_mem text ht)]

/-- **The lines of a part that was cut off are the first texts.** -/
theorem lines_of_prefix {texts : List (List α)} (h : ∀ text ∈ texts, sep ∉ text) {part : List α}
    (hpart : part <+: unlines sep texts) : lines sep part <+: texts := by
  induction texts generalizing part with
  | nil =>
      rw [unlines_nil, List.prefix_nil] at hpart
      rw [hpart]
      exact List.nil_prefix
  | cons text rest ih =>
      have htext : sep ∉ text := h text (by simp)
      rw [unlines_cons] at hpart
      rcases Nat.lt_or_ge text.length part.length with hlt | hle
      · -- the part goes beyond the first separator
        have hlength : (text ++ [sep]).length ≤ part.length := by
          rw [List.length_append]
          exact hlt
        have hfront : text ++ [sep] <+: part :=
          List.prefix_of_prefix_length_le ⟨unlines sep rest, by simp⟩ hpart hlength
        obtain ⟨behind, rfl⟩ := hfront
        rw [List.append_assoc, List.singleton_append] at hpart ⊢
        rw [List.prefix_append_right_inj, List.cons_prefix_cons] at hpart
        rw [lines_append htext]
        exact List.cons_prefix_cons.mpr
          ⟨rfl, ih (fun t ht => h t (List.mem_cons_of_mem text ht)) hpart.2⟩
      · have hin : part <+: text :=
          List.prefix_of_prefix_length_le hpart (List.prefix_append _ _) hle
        rw [lines_of_not_mem fun hmem => htext (hin.subset hmem)]
        exact List.nil_prefix

/-- There is a line for each separator. -/
theorem length_lines (sep : α) (bytes : List α) : (lines sep bytes).length = bytes.count sep := by
  induction bytes with
  | nil => rfl
  | cons c rest ih =>
      rw [lines]
      by_cases hc : c = sep
      · rw [if_pos hc, hc, List.count_cons_self, List.length_cons, ih]
      · rw [if_neg hc, List.count_cons_of_ne hc, ← ih]
        rcases lines sep rest with _ | ⟨text, texts⟩ <;> rfl

/-- **The lines are as many as the texts only where no text has a separator in it.** -/
theorem length_lines_unlines_iff (sep : α) (texts : List (List α)) :
    (lines sep (unlines sep texts)).length = texts.length ↔ ∀ text ∈ texts, sep ∉ text := by
  constructor
  · rw [length_lines]
    intro h
    have hle : ∀ texts : List (List α), texts.length ≤ (unlines sep texts).count sep := by
      intro texts
      induction texts with
      | nil => exact Nat.zero_le _
      | cons text rest ih =>
          rw [unlines_cons, List.count_append, List.count_cons_self, List.length_cons]
          omega
    induction texts with
    | nil => intro text htext; cases htext
    | cons text rest ih =>
        rw [unlines_cons, List.count_append, List.count_cons_self, List.length_cons] at h
        have hrest := hle rest
        intro t ht
        rcases List.mem_cons.mp ht with rfl | ht
        · exact List.count_eq_zero.mp (by omega)
        · exact ih (by omega) t ht
  · intro h
    rw [lines_unlines h]

/--
Where the last part is replaced by something else, there are as many lines as texts, whatever is
there, only if there was no last part, and no text with a separator in it.
-/
theorem whole_of_length_lines {front part : List α} {texts : List (List α)}
    (h : front ++ part = unlines sep texts) {fill : α} (hfill : fill ≠ sep)
    (hlength : ∀ found : List α, found.length = part.length →
      (lines sep (front ++ found)).length = texts.length) :
    part = [] ∧ ∀ text ∈ texts, sep ∉ text := by
  -- the part ends with a separator, and the filling has none
  have hwritten := hlength part rfl
  have hfilled := hlength (List.replicate part.length fill) List.length_replicate
  refine ⟨?_, ?_⟩
  · by_contra hpart
    have hmem : 0 < part.count sep := List.count_pos_iff.mpr (mem_of_suffix h hpart)
    have hnone : (List.replicate part.length fill).count sep = 0 := by
      rw [List.count_replicate, if_neg (by simpa using hfill)]
    rw [length_lines, List.count_append] at hwritten hfilled
    omega
  · rw [h] at hwritten
    exact (length_lines_unlines_iff sep texts).mp hwritten

/-! ### The last separator -/

/-- What is in front of the last separator, and what is behind it. -/
def split_last (sep : α) : List α → Option (List α × List α)
  | [] => none
  | c :: rest =>
      match split_last sep rest with
      | some (front, back) => some (c :: front, back)
      | none => if c = sep then some ([], rest) else none

/-- What has no separator in it stays in front. -/
theorem split_last_append {front : List α} (h : sep ∉ front) (s : List α) :
    split_last sep (front ++ s) = (split_last sep s).map fun p => (front ++ p.1, p.2) := by
  induction front with
  | nil => simp
  | cons c rest ih =>
      have hc : c ≠ sep := fun heq => h (by simp [heq])
      rw [List.cons_append, split_last, ih fun hmem => h (List.mem_cons_of_mem c hmem)]
      rcases split_last sep s with _ | p
      · simp only [Option.map_none, if_neg hc]
      · rfl

/-- Behind a separator the last one is looked for first. -/
theorem split_last_append_cons (front s : List α) :
    split_last sep (front ++ sep :: s)
      = match split_last sep s with
        | some (a, b) => some (front ++ sep :: a, b)
        | none => some (front, s) := by
  induction front with
  | nil =>
      rw [List.nil_append, split_last]
      rcases split_last sep s with _ | p
      · simp only [if_pos]
      · rfl
  | cons c rest ih =>
      rw [List.cons_append, split_last, ih]
      rcases split_last sep s with _ | p <;> rfl

end Lines
