import BrowCast.Runs.GuardedMachine
import Mathlib.Algebra.Order.BigOperators.Group.List
import Mathlib.Algebra.Order.Ring.Int
import Mathlib.Data.List.Count
import Mathlib.Tactic.Ring

/-! # Tallies

A **tally** adds up an integer weight over a list of members. Three rules carry the counting
arguments of this development:

* `tally_of_change` — when the weight of one member changes, the tally changes by as much.
* `tally_eq_countP` — a tally of indicators counts the members that satisfy the predicate.
* `steps_of_measure` — a measure that never falls along a run, and grows at every bad step, shows by
  its last value that no step was bad. -/

namespace BrowCast

variable {ι : Type*}

/-- The indicator of a truth value. -/
def indicator (b : Bool) : ℤ := if b then 1 else 0

/-- True counts one. -/
@[simp] theorem indicator_true : indicator true = 1 := rfl

/-- False counts nothing. -/
@[simp] theorem indicator_false : indicator false = 0 := rfl

/-- An indicator is not negative. -/
theorem indicator_nonneg (b : Bool) : 0 ≤ indicator b := by cases b <;> decide

/-- The sum of the weights of the members. -/
def tally (l : List ι) (weight : ι → ℤ) : ℤ := (l.map weight).sum

/-- Nothing weighs nothing. -/
@[simp] theorem tally_nil (weight : ι → ℤ) : tally [] weight = 0 := rfl

/-- The first member adds its weight. -/
@[simp] theorem tally_cons (c : ι) (l : List ι) (weight : ι → ℤ) :
    tally (c :: l) weight = weight c + tally l weight := by simp [tally]

/-- Tallies of weights that agree on the members are equal. -/
theorem tally_congr {l : List ι} {weight weight' : ι → ℤ} (h : ∀ c ∈ l, weight' c = weight c) :
    tally l weight' = tally l weight := by
  rw [tally, tally, List.map_congr_left h]

/-- The difference of two tallies is the tally of the differences. -/
theorem tally_sub (l : List ι) (weight weight' : ι → ℤ) :
    tally l (fun c => weight c - weight' c) = tally l weight - tally l weight' := by
  induction l with
  | nil => rfl
  | cons c l ih =>
      rw [tally_cons, tally_cons, tally_cons, ih]
      ring

/-- Weights that are not negative add up to no negative tally. -/
theorem tally_nonneg {l : List ι} {weight : ι → ℤ} (h : ∀ c ∈ l, 0 ≤ weight c) :
    0 ≤ tally l weight := by
  apply List.sum_nonneg
  intro w hw
  obtain ⟨c, hc, rfl⟩ := List.mem_map.mp hw
  exact h c hc

/-- **One change.** When only the weight of the member `c` changes, the tally changes by as much. -/
theorem tally_of_change {l : List ι} {weight weight' : ι → ℤ} {c : ι} (hnodup : l.Nodup)
    (hc : c ∈ l) (hsame : ∀ d, d ≠ c → weight' d = weight d) :
    tally l weight' = tally l weight + (weight' c - weight c) := by
  induction l with
  | nil => cases hc
  | cons d l ih =>
      obtain ⟨hd, hnodup⟩ := List.nodup_cons.mp hnodup
      rw [tally_cons, tally_cons]
      by_cases hdc : d = c
      · -- the members behind `c` differ from it
        subst hdc
        rw [tally_congr fun e he => hsame e fun h => hd (h ▸ he)]
        ring
      · have hmem : c ∈ l := (List.mem_cons.mp hc).resolve_left fun h => hdc h.symm
        rw [hsame d hdc, ih hnodup hmem]
        ring

/-- A tally of indicators is a count. -/
theorem tally_eq_countP (l : List ι) (p : ι → Bool) :
    tally l (fun c => indicator (p c)) = l.countP p := by
  induction l with
  | nil => rfl
  | cons c l ih =>
      rw [tally_cons, ih, List.countP_cons]
      cases p c
      · simp
      · simp [add_comm]

namespace GuardedMachine

variable {S E : Type*} (M : GuardedMachine S E)

/-- A measure that never falls is at the end at least what it was at the start. -/
theorem le_after {I : S → Prop} (m : S → ℤ)
    (hle : ∀ s e, I s → M.Enabled s e → m s ≤ m (M.step s e))
    {s : S} {es : List E} (hI : M.States I s es) (hrun : M.Steps M.Enabled s es) :
    m s ≤ m (M.after s es) := by
  induction es generalizing s with
  | nil => exact le_refl _
  | cons e es ih => exact le_trans (hle s e hI.1 hrun.1) (ih hI.2 hrun.2)

/-- **Measures that never fall.** If every bad step raises the measure, a run that ends where the
measure is no higher than at its start has no bad step. -/
theorem steps_of_measure {I : S → Prop} {P : S → E → Prop} (m : S → ℤ)
    (hle : ∀ s e, I s → M.Enabled s e → m s ≤ m (M.step s e))
    (hbad : ∀ s e, I s → M.Enabled s e → m (M.step s e) ≤ m s → P s e)
    {s : S} {es : List E} (hI : M.States I s es) (hrun : M.Steps M.Enabled s es)
    (hend : m (M.after s es) ≤ m s) : M.Steps P s es := by
  induction es generalizing s with
  | nil => trivial
  | cons e es ih =>
      have hstep := hle s e hI.1 hrun.1
      have hrest := M.le_after m hle hI.2 hrun.2
      rw [after_cons] at hend
      exact ⟨hbad s e hI.1 hrun.1 (by omega), ih hI.2 hrun.2 (by omega)⟩

end GuardedMachine

end BrowCast
