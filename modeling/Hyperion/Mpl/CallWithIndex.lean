/-
Calling a function template with an index known at run time: `mpl/CallWithIndex.h`.

A range of indices is halved until at most ten are left, and a switch written out for that
many finds the index.  The offset `K` of what is left is a template argument, and is
the index that the function is called with at the end.

The function may change a state of its own, so that how often it is called can be told.
-/
import Hyperion.Lib.Word

namespace Hyperion

namespace call_with_index_impl

/-- The switch of `call_with_index_impl<Size>` for two to ten: what each case adds to `K`. -/
def cases : Nat → List (Nat × Nat)
  | 2 => [(0, 0), (1, 1)]
  | 3 => [(0, 0), (1, 1), (2, 2)]
  | 4 => [(0, 0), (1, 1), (2, 2), (3, 3)]
  | 5 => [(0, 0), (1, 1), (2, 2), (3, 3), (4, 4)]
  | 6 => [(0, 0), (1, 1), (2, 2), (3, 3), (4, 4), (5, 5)]
  | 7 => [(0, 0), (1, 1), (2, 2), (3, 3), (4, 4), (5, 5), (6, 6)]
  | 8 => [(0, 0), (1, 1), (2, 2), (3, 3), (4, 4), (5, 5), (6, 6), (7, 7)]
  | 9 => [(0, 0), (1, 1), (2, 2), (3, 3), (4, 4), (5, 5), (6, 6), (7, 7), (8, 8)]
  | 10 => [(0, 0), (1, 1), (2, 2), (3, 3), (4, 4), (5, 5), (6, 6), (7, 7), (8, 8), (9, 9)]
  | _ => []

/--
`call_with_index_impl<Size>::call<K>(index, func)`.  There is no result where the default of
a switch is reached, nor for a size of zero, which has no `call`.
-/
def call {σ β : Type} (func : Nat → σ → β × σ) (Size K index : Nat) (s : σ) : Option (β × σ) :=
  if Size > 10 then
    if index < Size / 2 then call func (Size / 2) K index s
    else
      call func (Size - Size / 2) (Word.add 64 K (Size / 2)) (Word.sub 64 index (Size / 2)) s
  else if Size = 1 then some (func K s)
  else ((cases Size).lookup index).map fun k => func (Word.add 64 K k) s
termination_by Size

/-- What the template of a size instantiates comes to an end, and to a size that it is for. -/
inductive Instantiates : Nat → Prop
  | base {Size : Nat} (hpos : 1 ≤ Size) (hle : Size ≤ 10) : Instantiates Size
  | halves {Size : Nat} (hlt : 10 < Size) (lower : Instantiates (Size / 2))
      (upper : Instantiates (Size - Size / 2)) : Instantiates Size

end call_with_index_impl

/-- `call_with_index<Bound>(index, func)`; where the assertion fails there is no result. -/
def call_with_index {σ β : Type} (Bound index : Nat) (func : Nat → σ → β × σ) (s : σ) :
    Option (β × σ) :=
  if index < Bound then call_with_index_impl.call func Bound 0 index s else none

/-! ### What is called -/

namespace call_with_index_impl

/-- **The recursion on the size is well founded.** -/
theorem instantiates (Size : Nat) (h : 1 ≤ Size) : Instantiates Size := by
  induction Size using Nat.strongRecOn with
  | ind Size ih =>
      by_cases hle : Size ≤ 10
      · exact .base h hle
      · exact .halves (by omega) (ih (Size / 2) (by omega) (by omega))
          (ih (Size - Size / 2) (by omega) (by omega))

/-- Each switch has a case for every index below its size. -/
theorem lookup_cases {Size index : Nat} (hone : Size ≠ 1) (hle : Size ≤ 10)
    (hindex : index < Size) : (cases Size).lookup index = some index := by
  have hswitch : ∀ size ≤ 10, size ≠ 1 → ∀ i < size, (cases size).lookup i = some i := by decide
  exact hswitch Size hle hone index hindex

variable {σ β : Type} {func : Nat → σ → β × σ}

/-- The function is called with the offset and the index within what is left. -/
theorem call_eq {Size : Nat} (h : Instantiates Size) {K index : Nat} (hK : K + Size ≤ 2 ^ 64)
    (hindex : index < Size) (s : σ) : call func Size K index s = some (func (K + index) s) := by
  induction h generalizing K index with
  | @base Size hpos hle =>
      rw [call, if_neg (by omega)]
      by_cases hone : Size = 1
      · obtain rfl : index = 0 := by omega
        rw [if_pos hone, Nat.add_zero]
      · rw [if_neg hone, lookup_cases hone hle hindex, Option.map_some, Word.add_eq (by omega)]
  | @halves Size hlt lower upper ihlower ihupper =>
      rw [call, if_pos hlt]
      by_cases hhalf : index < Size / 2
      · rw [if_pos hhalf]
        exact ihlower (by omega) hhalf
      · have hsum : K + Size / 2 + (index - Size / 2) = K + index := by omega
        rw [if_neg hhalf, Word.add_eq (by omega), Word.sub_eq (by omega) (by omega),
          ihupper (by omega) (by omega), hsum]

end call_with_index_impl

/--
**For every bound and every index below it the function is called with the index, once**,
and its result is given; the templates this instantiates are finitely many.
-/
theorem call_with_index_eq {Bound : Nat} (hpos : 1 ≤ Bound) (hBound : Bound < 2 ^ 64) :
    call_with_index_impl.Instantiates Bound ∧
      ∀ index < Bound, ∀ {σ β : Type} (func : Nat → σ → β × σ) (s : σ),
        call_with_index Bound index func s = some (func index s) := by
  have hinstantiates := call_with_index_impl.instantiates Bound hpos
  refine ⟨hinstantiates, fun index hindex σ β func s => ?_⟩
  rw [call_with_index, if_pos hindex, call_with_index_impl.call_eq hinstantiates (by omega) hindex,
    Nat.zero_add]

/-- The eighteenth of twenty-five, by a function that writes down what it is called with. -/
theorem call_with_index_seventeen :
    call_with_index 25 17 (fun i calls => (i * i, i :: calls)) [] = some (289, [17]) :=
  (call_with_index_eq (by decide) (by decide)).2 17 (by decide) _ _

end Hyperion
