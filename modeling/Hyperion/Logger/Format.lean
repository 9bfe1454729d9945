/-
The line of a log entry.

`format_entry` puts a time stamp, the thread, the level and the text of a call on one line, and
the names of log files begin with a stamp too.  Nothing in front of the text can be mistaken for
anything else, because numbers are delimited by what is no digit and the level by a bracket; so
a line can be read back whatever the text is.  The fields of a stamp have fixed widths up to the
year 9999, so that until then stamps are ordered as the times are.
-/
import Hyperion.Lib.Decimal
import Hyperion.Logger.Basic

namespace Hyperion

/-- `std::tm` as `gmtime` gives it, of a time of the system clock. -/
structure Tm where
  tm_year : Int
  tm_mon : Nat
  tm_mday : Nat
  tm_hour : Nat
  tm_min : Nat
  tm_sec : Nat
  year_nonneg : 0 ≤ 1900 + tm_year
  mon_lt : tm_mon < 12
  mday_le : tm_mday ≤ 31
  hour_lt : tm_hour < 24
  min_lt : tm_min < 60
  sec_le : tm_sec ≤ 60
deriving DecidableEq

namespace Tm

/-- `const auto years = 1900 + now.tm_year` -/
def years (now : Tm) : Nat := (1900 + now.tm_year).toNat

/-- `const auto months = 1 + now.tm_mon` -/
def months (now : Tm) : Nat := 1 + now.tm_mon

/-- What is written of a time, from the year down. -/
def fields (now : Tm) : List Nat :=
  [now.years, now.months, now.tm_mday, now.tm_hour, now.tm_min, now.tm_sec]

/-- Nothing else is in it. -/
theorem fields_inj {a b : Tm} (h : a.fields = b.fields) : a = b := by
  obtain ⟨year, mon, mday, hour, min, sec, hyear, _, _, _, _, _⟩ := a
  obtain ⟨year', mon', mday', hour', min', sec', hyear', _, _, _, _, _⟩ := b
  simp only [fields, years, months, List.cons.injEq, and_true] at h
  obtain ⟨hy, hm, rfl, rfl, rfl, rfl⟩ := h
  have hyears : year = year' := by omega
  have hmonths : mon = mon' := by omega
  subst hyears hmonths
  rfl

end Tm

/-- `fmt::format` of the fields, with `between` the day and the time and `within` the time. -/
def stamp (between within : Char) (now : Tm) : List Char :=
  '[' :: Decimal.padded 4 now.years ++ '-' :: Decimal.padded 2 now.months ++
    '-' :: Decimal.padded 2 now.tm_mday ++ between :: Decimal.padded 2 now.tm_hour ++
    within :: Decimal.padded 2 now.tm_min ++ within :: Decimal.padded 2 now.tm_sec ++ [']']

/-- A stamp has digits in it and what delimits them. -/
theorem not_mem_stamp {between within c : Char} (hdigit : c.isDigit = false)
    (hc : c ∉ ['[', '-', between, within, ']']) (now : Tm) : c ∉ stamp between within now := by
  have hpadded : ∀ width n, c ∉ Decimal.padded width n := by
    intro width n hmem
    rw [Decimal.isDigit_of_mem_padded hmem] at hdigit
    cases hdigit
  simp only [List.mem_cons, List.not_mem_nil, or_false, not_or] at hc
  simp [stamp, hpadded, hc]

/-- The fields of a stamp, and what is behind it. -/
def read_stamp (between within : Char) (s : List Char) : Option (List Nat × List Char) := do
  let s ← Decimal.behind ['['] s
  let (year, s) := Decimal.number s
  let s ← Decimal.behind ['-'] s
  let (month, s) := Decimal.number s
  let s ← Decimal.behind ['-'] s
  let (day, s) := Decimal.number s
  let s ← Decimal.behind [between] s
  let (hour, s) := Decimal.number s
  let s ← Decimal.behind [within] s
  let (min, s) := Decimal.number s
  let s ← Decimal.behind [within] s
  let (sec, s) := Decimal.number s
  let s ← Decimal.behind [']'] s
  some ([year, month, day, hour, min, sec], s)

/-- **A stamp is read back.** -/
theorem read_stamp_stamp {between within : Char} (hbetween : between.isDigit = false)
    (hwithin : within.isDigit = false) (now : Tm) (s : List Char) :
    read_stamp between within (stamp between within now ++ s) = some (now.fields, s) := by
  have hbehind : ∀ (c : Char) (s : List Char), Decimal.behind [c] (c :: s) = some s := fun c s =>
    Decimal.behind_append [c] s
  have hdash : '-'.isDigit = false := rfl
  have hbracket : ']'.isDigit = false := rfl
  unfold read_stamp stamp
  simp only [List.cons_append, List.append_assoc, hbehind, Decimal.number_padded _ _ hdash,
    Decimal.number_padded _ _ hbetween, Decimal.number_padded _ _ hwithin,
    Decimal.number_padded _ _ hbracket, Option.bind_eq_bind, Option.bind_some, List.nil_append,
    Tm.fields]

/-! ### The order of stamps -/

/-- One field more in front. -/
theorem lex_step {x y : Nat} {p q r : Prop} :
    (x < y ∨ x = y ∧ p) ∨ (x = y ∧ q) ∧ r ↔ x < y ∨ x = y ∧ (p ∨ q ∧ r) := by
  constructor
  · rintro ((hlt | ⟨heq, hp⟩) | ⟨⟨heq, hq⟩, hr⟩)
    · exact .inl hlt
    · exact .inr ⟨heq, .inl hp⟩
    · exact .inr ⟨heq, .inr ⟨hq, hr⟩⟩
  · rintro (hlt | ⟨heq, hp | ⟨hq, hr⟩⟩)
    · exact .inl (.inl hlt)
    · exact .inl (.inr ⟨heq, hp⟩)
    · exact .inr ⟨⟨heq, hq⟩, hr⟩

/-- **Until the year 9999 stamps are ordered as the times**, whatever is behind them. -/
theorem stamp_lt_iff {between within : Char} {a b : Tm} (ha : a.years < 10 ^ 4)
    (hb : b.years < 10 ^ 4) (s t : List Char) :
    stamp between within a ++ s < stamp between within b ++ t ↔
      a.fields < b.fields ∨ a.fields = b.fields ∧ s < t := by
  have hyear := Decimal.padded_append_lt_iff (by decide) ha hb
  have hmonth : ∀ now : Tm, now.months < 10 ^ 2 := fun now => by
    have := now.mon_lt
    unfold Tm.months
    omega
  have hday : ∀ now : Tm, now.tm_mday < 10 ^ 2 := fun now => by
    have := now.mday_le
    omega
  have hhour : ∀ now : Tm, now.tm_hour < 10 ^ 2 := fun now => by
    have := now.hour_lt
    omega
  have hmin : ∀ now : Tm, now.tm_min < 10 ^ 2 := fun now => by
    have := now.min_lt
    omega
  have hsec : ∀ now : Tm, now.tm_sec < 10 ^ 2 := fun now => by
    have := now.sec_le
    omega
  have htwo : 0 < 2 := by decide
  unfold stamp Tm.fields
  simp only [List.cons_append, List.append_assoc, List.nil_append, List.cons_lt_cons_iff, hyear,
    Decimal.padded_append_lt_iff htwo (hmonth a) (hmonth b),
    Decimal.padded_append_lt_iff htwo (hday a) (hday b),
    Decimal.padded_append_lt_iff htwo (hhour a) (hhour b),
    Decimal.padded_append_lt_iff htwo (hmin a) (hmin b),
    Decimal.padded_append_lt_iff htwo (hsec a) (hsec b), List.cons.injEq, lex_step]
  simp

namespace ILogger

/-- `create_time_stamp()`: `"[{:#04}-{:#02}-{:#02}|{:#02}:{:#02}:{:#02}]"` -/
def create_time_stamp (now : Tm) : List Char := stamp '|' ':' now

/-- `log_type` -/
def log_type : Level → List Char
  | .DISABLED => []
  | .MESSAGE => "MESSAGE".toList
  | .TRACE => "TRACE".toList
  | .INFO => "INFO".toList
  | .WARN => "WARN".toList
  | .ERROR => "ERROR".toList

/-- A call of `log<level>(thread_id, ..)`: when, by which thread, and the text it formats to. -/
structure Request where
  now : Tm
  thread_id : Option Nat
  /-- `std::hash<std::thread::id>()(std::this_thread::get_id())` -/
  this_thread : Nat
  level : Level
  text : String

/-- `const auto tid` -/
def Request.tid (r : Request) : Nat := r.thread_id.getD r.this_thread

/-- `"{0} [Thread ID: {1}] [{2}]: {3}"` -/
def line (r : Request) : List Char :=
  create_time_stamp r.now ++ " [Thread ID: ".toList ++ Nat.toDigits 10 r.tid ++ "] [".toList ++
    log_type r.level ++ "]: ".toList ++ r.text.toList

/-- `format_entry<level>(thread_id, ..)` -/
def format_entry (r : Request) : Entry := ⟨r.level, String.ofList (line r)⟩

/-! ### Reading a line -/

/-- What a line says. -/
structure Record where
  time : List Nat
  thread : Nat
  level : Level
  text : List Char
deriving DecidableEq

/-- What is to be read of a request. -/
def Request.record (r : Request) : Record := ⟨r.now.fields, r.tid, r.level, r.text.toList⟩

/-- The level of a name. -/
def level_of (name : List Char) : Option Level :=
  [Level.DISABLED, .MESSAGE, .TRACE, .INFO, .WARN, .ERROR].find? fun level =>
    log_type level = name

def read_line (s : List Char) : Option Record := do
  let (time, s) ← read_stamp '|' ':' s
  let s ← Decimal.behind " [Thread ID: ".toList s
  let (thread, s) := Decimal.number s
  let s ← Decimal.behind "] [".toList s
  let level ← level_of (s.takeWhile (· ≠ ']'))
  let text ← Decimal.behind "]: ".toList (s.dropWhile (· ≠ ']'))
  some ⟨time, thread, level, text⟩

theorem level_of_log_type (level : Level) : level_of (log_type level) = some level := by
  cases level <;> decide

/-- A name has no bracket in it. -/
theorem bracket_not_mem (level : Level) : ∀ c ∈ log_type level, decide (c ≠ ']') = true := by
  have hall : (log_type level).all (fun c => decide (c ≠ ']')) = true := by cases level <;> rfl
  exact List.all_eq_true.mp hall

/-- **A line is read back**, whatever its text is. -/
theorem read_line_line (r : Request) : read_line (line r) = some r.record := by
  have hthread : ∀ s : List Char, Decimal.number (Nat.toDigits 10 r.tid ++ ("] [".toList ++ s))
      = (r.tid, "] [".toList ++ s) := fun s =>
    Decimal.number_toDigits (c := ']') r.tid rfl (' ' :: '[' :: s)
  have htake : ∀ s : List Char, (log_type r.level ++ ("]: ".toList ++ s)).takeWhile (· ≠ ']')
      = log_type r.level := by
    intro s
    rw [List.takeWhile_append_of_pos (bracket_not_mem r.level)]
    show log_type r.level ++ List.takeWhile _ (']' :: ':' :: ' ' :: s) = _
    rw [List.takeWhile_cons_of_neg (by simp), List.append_nil]
  have hdrop : ∀ s : List Char, (log_type r.level ++ ("]: ".toList ++ s)).dropWhile (· ≠ ']')
      = "]: ".toList ++ s := by
    intro s
    rw [List.dropWhile_append_of_pos (bracket_not_mem r.level)]
    show List.dropWhile _ (']' :: ':' :: ' ' :: s) = _
    rw [List.dropWhile_cons_of_neg (by simp)]
    rfl
  unfold read_line line create_time_stamp
  simp only [List.append_assoc]
  rw [read_stamp_stamp rfl rfl]
  simp only [Option.bind_eq_bind, Option.bind_some, Decimal.behind_append, hthread, htake, hdrop,
    level_of_log_type]
  rfl

end ILogger

end Hyperion
