/-
Errors of any domain, as `Hyperion/Error.h` has them.

An `AnyError` owns an `ErrorBase`, or nothing.  Whatever it is asked goes through that
pointer without a check, and so does copying it; what a null pointer is asked is not
defined, and the program is at its end there.

An `Error<Domain>` is given by its code, whose domain tells its message.  An `ErrorBase`
is one of these or an `AnyError`, which `clone` of an `AnyError` makes.
-/
import Hyperion.Memory.UniquePtr

namespace Hyperion

/-- `ErrorBase`, with the class it is an object of. -/
inductive ErrorBase (ε : Type)
  | error (m_error_code : ε)
  | any (m_error : Option (ErrorBase ε))

namespace ErrorBase

variable {ε : Type}

/-- The member functions that `ErrorBase` declares. -/
def members : List String := ["message", "to_string", "clone"]

/-- `message()` -/
def message (text : ε → String) : ErrorBase ε → Option String
  | .error m_error_code => some (text m_error_code)
  | .any none => none
  | .any (some m_error) => m_error.message text

/-- `to_string()` -/
def to_string (text : ε → String) : ErrorBase ε → Option String
  | .error m_error_code => some ("Error: " ++ text m_error_code)
  | .any none => none
  | .any (some m_error) => (m_error.message text).map fun s => "Error: " ++ s ++ "\n"

/-- `clone()`; that of an `AnyError` copies it, which clones what it owns. -/
def clone : ErrorBase ε → Option (ErrorBase ε)
  | .error m_error_code => some (.error m_error_code)
  | .any none => none
  | .any (some m_error) => m_error.clone.map fun p => .any (some p)

/-- Nothing in it is null. -/
def complete : ErrorBase ε → Bool
  | .error _ => true
  | .any none => false
  | .any (some m_error) => m_error.complete

theorem message_isSome (text : ε → String) :
    ∀ p : ErrorBase ε, (p.message text).isSome = p.complete
  | .error _ => rfl
  | .any none => rfl
  | .any (some p) => message_isSome text p

theorem to_string_isSome (text : ε → String) :
    ∀ p : ErrorBase ε, (p.to_string text).isSome = p.complete
  | .error _ => rfl
  | .any none => rfl
  | .any (some p) => by
      rw [to_string, Option.isSome_map, complete, message_isSome]

/-- **A clone is the same again**, wherever there is one. -/
theorem clone_eq : ∀ p : ErrorBase ε, p.clone = if p.complete then some p else none
  | .error _ => rfl
  | .any none => rfl
  | .any (some p) => by
      rw [clone, clone_eq p, complete]
      split <;> rfl

end ErrorBase

/-- `AnyError` -/
structure AnyError (ε : Type) where
  m_error : UniquePtr (ErrorBase ε) DefaultDeleter

namespace AnyError

variable {ε : Type}

/-- `AnyError()` -/
def default : AnyError ε := ⟨⟨none, .mk⟩⟩

/-- `AnyError(code)` and `AnyError(error)`, from a value that may be moved from. -/
def of_error (m_error_code : ε) : AnyError ε := ⟨⟨some (.error m_error_code), .mk⟩⟩

/-- `AnyError(const AnyError& error)` -/
def copy_construct (error : AnyError ε) : Option (AnyError ε) :=
  error.m_error.first.bind fun p => p.clone.map fun q => ⟨⟨some q, .mk⟩⟩

/-- `AnyError(AnyError&&)` -/
def move_construct (error : AnyError ε) : AnyError ε × AnyError ε :=
  let (m_error, moved) := error.m_error.move_construct ⟨id⟩
  (⟨m_error⟩, ⟨moved⟩)

/-- `operator=(const AnyError& error)` from another one. -/
def copy_assign (this error : AnyError ε) : Option (AnyError ε) :=
  error.m_error.first.bind fun p => p.clone.map fun q =>
    ⟨(this.m_error.move_assign ⟨id⟩ ⟨some q, .mk⟩).2.1⟩

/-- `operator=(AnyError&&)` from another one. -/
def move_assign (this error : AnyError ε) : AnyError ε × AnyError ε :=
  let (_, m_error, moved) := this.m_error.move_assign ⟨id⟩ error.m_error
  (⟨m_error⟩, ⟨moved⟩)

/-- `operator=(code)` and `operator=(error)` -/
def assign (this : AnyError ε) (m_error_code : ε) : AnyError ε :=
  ⟨(this.m_error.move_assign ⟨id⟩ ⟨some (.error m_error_code), .mk⟩).2.1⟩

/-- `message()` -/
def message (text : ε → String) (this : AnyError ε) : Option String :=
  this.m_error.first.bind fun p => p.message text

/-- `to_string()` -/
def to_string (text : ε → String) (this : AnyError ε) : Option String :=
  this.m_error.first.bind fun p => (p.message text).map fun s => "Error: " ++ s ++ "\n"

/-- `clone()` -/
def clone (this : AnyError ε) : Option (ErrorBase ε) :=
  this.copy_construct.map fun copy => .any copy.m_error.first

/-- The member function of `*m_error` that `get<Index>()` asks for. -/
def get_impl (index : Fin 2) : String := if index = 0 then "value" else "message"

/-- `get<Index>()` compiles: what it asks for is declared. -/
def Instantiates (index : Fin 2) : Prop := get_impl index ∈ ErrorBase.members

instance (index : Fin 2) : Decidable (Instantiates index) := by
  unfold Instantiates
  infer_instance

/-- Everything an `AnyError` or its clone may be asked, and copying it, is defined. -/
structure Defined (text : ε → String) (this : AnyError ε) : Prop where
  message : this.message text ≠ none
  to_string : this.to_string text ≠ none
  clone : ∃ p, this.clone = some p ∧ p.message text ≠ none ∧ p.to_string text ≠ none ∧
    p.clone ≠ none
  copy_construct : this.copy_construct ≠ none
  copy_assign : ∀ target : AnyError ε, target.copy_assign this ≠ none

/-- The pointer is all that decides. -/
theorem defined_iff_complete (text : ε → String) (this : AnyError ε) :
    this.Defined text ↔ ∃ p, this.m_error.first = some p ∧ p.complete = true := by
  constructor
  · intro h
    obtain ⟨s, hs⟩ := Option.ne_none_iff_exists'.mp h.message
    obtain ⟨p, hp, hmessage⟩ := Option.bind_eq_some_iff.mp hs
    refine ⟨p, hp, ?_⟩
    rw [← ErrorBase.message_isSome text, hmessage]
    rfl
  · rintro ⟨p, hp, hcomplete⟩
    have hclone : p.clone = some p := by
      rw [ErrorBase.clone_eq, if_pos hcomplete]
    have hmessage : (p.message text).isSome := by
      rw [ErrorBase.message_isSome, hcomplete]
    have hany : ErrorBase.complete (.any (some p)) = true := hcomplete
    refine ⟨?_, ?_, ⟨.any (some p), ?_, ?_, ?_, ?_⟩, ?_, fun target => ?_⟩
    · rw [message, hp]
      exact Option.isSome_iff_ne_none.mp hmessage
    · rw [to_string, hp]
      exact Option.isSome_iff_ne_none.mp (Option.isSome_map.trans hmessage)
    · rw [clone, copy_construct, hp, Option.bind_some, hclone]
      rfl
    · rw [← Option.isSome_iff_ne_none, ErrorBase.message_isSome, hany]
    · rw [← Option.isSome_iff_ne_none, ErrorBase.to_string_isSome, hany]
    · rw [ErrorBase.clone_eq, if_pos hany]
      exact Option.some_ne_none _
    · rw [copy_construct, hp, Option.bind_some, hclone]
      exact Option.some_ne_none _
    · rw [copy_assign, hp, Option.bind_some, hclone]
      exact Option.some_ne_none _

/-! ### Programs -/

/-- Copying or moving. -/
inductive Transfer
  | copy
  | move

/-- What an `AnyError` may be asked, or assigned. -/
inductive Use (ε : Type)
  | assign (m_error_code : ε)
  | message
  | to_string
  | get (index : Fin 2)
  | clone

/-- The class; a null pointer that is asked something ends the program. -/
def type (text : ε → String) :
    ObjectType (AnyError ε) (Option ε) Transfer (Use ε) (Option String) where
  construct
    | none => some default
    | some m_error_code => some (of_error m_error_code)
  construct_from
    | .copy, error => error.copy_construct.map fun copy => (copy, error)
    | .move, error => some error.move_construct
  assign_from
    | .copy, this, error => (this.copy_assign error).map fun this => (this, error)
    | .move, this, error => some (this.move_assign error)
  assign_self _ this := some this
  call
    | .assign m_error_code, this => some (none, this.assign m_error_code)
    | .message, this => (this.message text).map fun s => (some s, this)
    | .to_string, this => (this.to_string text).map fun s => (some s, this)
    | .get index, this =>
        if Instantiates index then (this.message text).map fun s => (some s, this) else none
    | .clone, this => this.clone.map fun _ => (none, this)
  destroy this := some this

/-- A program over any number of these. -/
abbrev Statement (ε : Type) := Objects.Op (Option ε) Transfer (Use ε)

/--
Which of them were left without an error so far: constructed by default or moved from,
and not given an error since.
-/
def unset (t : Nat → Bool) : Statement ε → Nat → Bool
  | .construct j k => Function.update t j k.isNone
  | .construct_from j _ .copy => Function.update t j false
  | .construct_from j i .move => Function.update (Function.update t i true) j (t i)
  | .assign_from j i .copy => if j = i then t else Function.update t j false
  | .assign_from j i .move =>
      if j = i then t else Function.update (Function.update t i true) j (t i)
  | .call i (.assign _) => Function.update t i false
  | .call _ _ | .destroy _ => t

/-- `t` says of each which were left without an error; what the others own is complete. -/
def Tracks (w : Nat → Life (AnyError ε)) (t : Nat → Bool) : Prop :=
  ∀ i a, Objects.get w i = some a →
    t i = a.m_error.first.isNone ∧ ∀ p ∈ a.m_error.first, p.complete = true

variable {w w' : Nat → Life (AnyError ε)} {t : Nat → Bool}

theorem Tracks.put (h : Tracks w t) {j : Nat} {a : AnyError ε} {b : Bool}
    (hb : b = a.m_error.first.isNone) (ha : ∀ p ∈ a.m_error.first, p.complete = true) :
    Tracks (Objects.put w j a) (Function.update t j b) := by
  intro i c hc
  rw [Objects.get_put] at hc
  rw [Function.update_apply]
  split at hc
  · rename_i hij
    cases hc
    rw [if_pos hij]
    exact ⟨hb, ha⟩
  · rename_i hij
    rw [if_neg hij]
    exact h i c hc

/-- Asking one of them changes nothing. -/
theorem Tracks.asked (h : Tracks w t) {i : Nat} {a : AnyError ε}
    (ha : Objects.get w i = some a) : Tracks (Objects.put w i a) t := by
  have hput := h.put (j := i) (b := t i) (h i a ha).1 (h i a ha).2
  rwa [Function.update_eq_self] at hput

theorem complete_none : ∀ p ∈ (none : Option (ErrorBase ε)), p.complete = true :=
  fun _ hp => by cases hp

theorem complete_error (m_error_code : ε) :
    ∀ p ∈ some (ErrorBase.error m_error_code), p.complete = true := by
  intro p hp
  cases hp
  rfl

/-- A clone of what is there is there, and complete. -/
theorem copied {error copy : AnyError ε} (h : error.copy_construct = some copy) :
    copy.m_error.first.isNone = false ∧ ∀ p ∈ copy.m_error.first, p.complete = true := by
  obtain ⟨p, hp, hmap⟩ := Option.bind_eq_some_iff.mp h
  obtain ⟨q, hq, rfl⟩ := Option.map_eq_some_iff.mp hmap
  rw [ErrorBase.clone_eq] at hq
  split at hq
  · rename_i hcomplete
    cases hq
    refine ⟨rfl, fun r hr => ?_⟩
    cases hr
    exact hcomplete
  · cases hq

/-- Copy assignment leaves what copy construction gives. -/
theorem copy_assign_eq (this error : AnyError ε) :
    this.copy_assign error = error.copy_construct := by
  unfold copy_assign copy_construct
  cases error.m_error.first <;> rfl

/-- A copy leaves its source as it was, and has an error. -/
theorem Tracks.copy (h : Tracks w t) {i j : Nat} {error copy : AnyError ε}
    (herror : Objects.get w i = some error) (hcopy : error.copy_construct = some copy) :
    Tracks (Objects.put (Objects.put w i error) j copy) (Function.update t j false) := by
  obtain ⟨hset, hcomplete⟩ := copied hcopy
  exact (h.asked herror).put hset.symm hcomplete

/-- A move takes what its source had, and leaves it without an error. -/
theorem Tracks.move (h : Tracks w t) {i j : Nat} {error this moved : AnyError ε}
    (herror : Objects.get w i = some error) (hthis : this.m_error.first = error.m_error.first)
    (hmoved : moved.m_error.first = none) :
    Tracks (Objects.put (Objects.put w i moved) j this)
      (Function.update (Function.update t i true) j (t i)) := by
  have hsource := h.put (j := i) (a := moved) (b := true) (by rw [hmoved]; rfl)
    (by rw [hmoved]; exact complete_none)
  obtain ⟨hnull, hcomplete⟩ := h i error herror
  rw [← hthis] at hnull hcomplete
  exact hsource.put hnull hcomplete

/-- A member function assigns an error, or leaves the object as it was. -/
theorem call_cases {text : ε → String} {use : Use ε} {this : AnyError ε}
    {pair : Option String × AnyError ε} (hcall : (type text).call use this = some pair) :
    (∃ e, use = .assign e ∧ pair.2 = this.assign e) ∨ ((∀ e, use ≠ .assign e) ∧ pair.2 = this) := by
  cases use with
  | assign e =>
      cases hcall
      exact .inl ⟨e, rfl, rfl⟩
  | message =>
      obtain ⟨s, -, rfl⟩ := Option.map_eq_some_iff.mp hcall
      exact .inr ⟨(fun e he => by cases he), rfl⟩
  | to_string =>
      obtain ⟨s, -, rfl⟩ := Option.map_eq_some_iff.mp hcall
      exact .inr ⟨(fun e he => by cases he), rfl⟩
  | get index =>
      simp only [type] at hcall
      split at hcall
      · obtain ⟨s, -, rfl⟩ := Option.map_eq_some_iff.mp hcall
        exact .inr ⟨(fun e he => by cases he), rfl⟩
      · cases hcall
  | clone =>
      obtain ⟨p, -, rfl⟩ := Option.map_eq_some_iff.mp hcall
      exact .inr ⟨(fun e he => by cases he), rfl⟩

/-- Only an assignment gives an error. -/
theorem unset_call {i : Nat} {use : Use ε} (huse : ∀ e, use ≠ .assign e) :
    unset t (.call i use) = t := by
  cases use with
  | assign e => exact absurd rfl (huse e)
  | _ => rfl

/-- **What one statement leaves without an error.** -/
theorem Tracks.step {text : ε → String} (h : Tracks w t) {op : Statement ε}
    {o : Option (Option String)} (hstep : Objects.step (type text) w op = some (o, w')) :
    Tracks w' (unset t op) := by
  cases Objects.steps_of_step hstep with
  | @construct j k a hfree ha =>
      cases k with
      | none =>
          cases ha
          exact h.put rfl complete_none
      | some e =>
          cases ha
          exact h.put rfl (complete_error e)
  | @construct_from j i tr error pair hfree herror hpair =>
      cases tr with
      | copy =>
          obtain ⟨copy, hcopy, rfl⟩ := Option.map_eq_some_iff.mp hpair
          exact h.copy herror hcopy
      | move =>
          cases hpair
          exact h.move herror rfl rfl
  | @assign_self i tr this this' hthis hself =>
      cases hself
      cases tr <;> rw [unset, if_pos rfl]
      · exact h.asked hthis
      · exact h.asked hthis
  | @assign_from j i tr this error pair hji hthis herror hpair =>
      cases tr with
      | copy =>
          obtain ⟨copy, hcopy, rfl⟩ := Option.map_eq_some_iff.mp hpair
          rw [copy_assign_eq] at hcopy
          rw [unset, if_neg hji]
          exact h.copy herror hcopy
      | move =>
          cases hpair
          rw [unset, if_neg hji]
          exact h.move herror rfl rfl
  | call hthis hpair =>
      rcases call_cases hpair with ⟨e, rfl, hassign⟩ | ⟨huse, hsame⟩
      · rw [hassign]
        exact h.put rfl (complete_error e)
      · rw [hsame, unset_call huse]
        exact h.asked hthis
  | destroy hthis _ =>
      intro k a ha
      rw [Objects.get_end] at ha
      split at ha
      · cases ha
      · exact h k a ha

/--
**An `AnyError` that a program reached is defined exactly if it was not left without an
error.**  `get<1>()` asks for the message; `get<0>()` asks for what is not declared, and
compiles in no program.
-/
theorem defined_iff {text : ε → String} {ops : List (Statement ε)}
    {outs : List (Option (Option String))} {w : Nat → Life (AnyError ε)}
    (hrun : Machine.Run (Objects.step (type text)) (fun _ _ => True) Objects.start ops outs w)
    {i : Nat} {a : AnyError ε} (ha : Objects.get w i = some a) :
    (a.Defined text ↔ ops.foldl unset (fun _ => false) i = false) ∧
      ∀ index : Fin 2, Instantiates index ↔ index = 1 := by
  refine ⟨?_, by decide⟩
  have hstart : Tracks (Objects.start : Nat → Life (AnyError ε)) fun _ => false :=
    fun _ _ hnone => by cases hnone
  have htracks : Tracks w (ops.foldl unset fun _ => false) :=
    hrun.follows (fun _ _ _ _ _ h _ hstep => h.step hstep) hstart
  obtain ⟨hunset, hcomplete⟩ := htracks i a ha
  rw [defined_iff_complete, hunset]
  cases hfirst : a.m_error.first with
  | none => simp
  | some p => simpa using hcomplete p hfirst

/-- An `AnyError` that was moved from and assigned to again is defined. -/
theorem defined_assigned : ∃ (outs : List (Option (Option String)))
    (w : Nat → Life (AnyError String)) (a : AnyError String),
    Machine.Run (Objects.step (type id)) (fun _ _ => True) Objects.start
      [.construct 0 (some "first"), .construct_from 1 0 .move, .call 0 (.assign "second"),
        .construct_from 2 0 .copy, .call 2 (.get 1)] outs w ∧
    Objects.get w 2 = some a ∧ a.Defined id := by
  obtain ⟨s, outs, w, hs, hrun, hget⟩ := Machine.exists_run (Objects.step (type id))
    (fun _ _ => True) (some Objects.start)
    [.construct 0 (some "first"), .construct_from 1 0 .move, .call 0 (.assign "second"),
      .construct_from 2 0 .copy, .call 2 (.get 1)]
    (fun r => (Objects.get r.2 2).isSome) (by decide)
  cases hs
  obtain ⟨a, ha⟩ := Option.isSome_iff_exists.mp hget
  exact ⟨outs, w, a, hrun, ha, (defined_iff hrun ha).1.mpr (by decide)⟩

/-- An `AnyError` constructed by default, 'as an unknown error', has no message. -/
theorem default_undefined : ¬ ∀ (ops : List (Statement String))
    (outs : List (Option (Option String))) (w : Nat → Life (AnyError String)),
    Machine.Run (Objects.step (type id)) (fun _ _ => True) Objects.start ops outs w →
    ∀ i a, Objects.get w i = some a → a.Defined id := by
  intro hclaim
  obtain ⟨s, outs, w, hs, hrun, hget⟩ := Machine.exists_run (Objects.step (type id))
    (fun _ _ => True) (some Objects.start) [.construct 0 none]
    (fun r => (Objects.get r.2 0).any fun a => (a.message id).isNone) (by decide)
  cases hs
  obtain ⟨a, ha, hnone⟩ := Option.any_eq_true _ _ |>.mp hget
  exact (hclaim _ _ _ hrun 0 a ha).message (Option.isNone_iff_eq_none.mp hnone)

end AnyError

end Hyperion
