import Mathlib.Data.Nat.Notation
import Mathlib.Logic.Basic
import Mathlib.Tactic.SplitIfs

/-! # Loops that end

A `while` loop whose body may fail, with a number of passes that it may make. Where a rank falls in
every pass, the number of passes beyond the rank does not matter. -/

namespace BrowCast.WhileLoop

variable {S ε : Type*} (wants : S → Bool) (body : S → Except ε S)

/-- At most `fuel` passes. -/
def run : ℕ → S → Except ε S
  | 0, s => .ok s
  | fuel + 1, s => if wants s then (body s).bind (run fuel) else .ok s

/-- The passes from states that satisfy `I` keep it and lower the rank. -/
structure Descends (I : S → Prop) (rank : S → ℕ) : Prop where
  pass : ∀ s s', I s → wants s = true → body s = .ok s' → I s' ∧ rank s' < rank s

variable {wants body}

/-- A loop whose condition fails ends at once. -/
theorem run_succ_of_not_wants {fuel : ℕ} {s : S} (h : wants s = false) :
    run wants body fuel s = .ok s := by
  cases fuel with
  | zero => rfl
  | succ fuel => rw [run, if_neg (by rw [h]; decide)]

variable {I : S → Prop} {rank : S → ℕ}

/-- **Fuel beyond the rank does not matter.** -/
theorem Descends.run_eq (h : Descends wants body I rank) {fuel fuel' : ℕ} {s : S} (hs : I s)
    (hfuel : rank s < fuel) (hfuel' : rank s < fuel') :
    run wants body fuel s = run wants body fuel' s := by
  induction fuel generalizing fuel' s with
  | zero => exact absurd hfuel (Nat.not_lt_zero _)
  | succ fuel ih =>
      obtain ⟨fuel', rfl⟩ : ∃ n, fuel' = n + 1 := ⟨fuel' - 1, by omega⟩
      rw [run, run]
      by_cases hwants : wants s = true
      · rw [if_pos hwants, if_pos hwants]
        cases hbody : body s with
        | error e => rfl
        | ok s' =>
            obtain ⟨hs', hrank⟩ := h.pass s s' hs hwants hbody
            exact ih hs' (by omega) (by omega)
      · rw [if_neg hwants, if_neg hwants]

/-- **One pass**, when there is fuel for all. -/
theorem Descends.run_pass (h : Descends wants body I rank) {fuel : ℕ} {s : S} (hs : I s)
    (hfuel : rank s < fuel) (hwants : wants s = true) :
    run wants body fuel s = (body s).bind (run wants body fuel) := by
  obtain ⟨fuel, rfl⟩ : ∃ n, fuel = n + 1 := ⟨fuel - 1, by omega⟩
  rw [run, if_pos hwants]
  cases hbody : body s with
  | error e => rfl
  | ok s' =>
      obtain ⟨hs', hrank⟩ := h.pass s s' hs hwants hbody
      exact h.run_eq hs' (by omega) (by omega)

/-- The loop ends in a state that wants no more passes. -/
theorem Descends.run_ok (h : Descends wants body I rank) {fuel : ℕ} {s s' : S} (hs : I s)
    (hfuel : rank s < fuel) (hrun : run wants body fuel s = .ok s') : I s' ∧ wants s' = false := by
  induction fuel generalizing s with
  | zero => exact absurd hfuel (Nat.not_lt_zero _)
  | succ fuel ih =>
      rw [run] at hrun
      split_ifs at hrun with hwants
      · cases hbody : body s with
        | error e =>
            rw [hbody] at hrun
            exact nomatch hrun
        | ok s'' =>
            obtain ⟨hs'', hrank⟩ := h.pass s s'' hs hwants hbody
            rw [hbody] at hrun
            exact ih hs'' (by omega) hrun
      · cases hrun
        exact ⟨hs, Bool.eq_false_iff.mpr hwants⟩

/-- **Another loop** that does the same from these states. -/
theorem Descends.run_congr (h : Descends wants body I rank) {wants' : S → Bool}
    {body' : S → Except ε S} (hwants : ∀ s, I s → wants' s = wants s)
    (hbody : ∀ s, I s → wants s = true → body' s = body s) {s : S} (hs : I s) (fuel : ℕ) :
    run wants' body' fuel s = run wants body fuel s := by
  induction fuel generalizing s with
  | zero => rfl
  | succ fuel ih =>
      rw [run, run, hwants s hs]
      by_cases hw : wants s = true
      · rw [if_pos hw, if_pos hw, hbody s hs hw]
        cases hpass : body s with
        | error e => rfl
        | ok s' => exact ih (h.pass s s' hs hw hpass).1
      · rw [if_neg hw, if_neg hw]

end BrowCast.WhileLoop
