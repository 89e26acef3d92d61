import Mathlib.Data.List.Basic

/-! # Echoes

A sequence is echoed item by item; after each item, the echo may add others, depending on a state
that follows the items. The echo is the sequence itself exactly when nothing is added. Of what is
added, the case of a pair is treated: something that happens when a second item comes after a first
one. -/

namespace BrowCast

variable {σ α : Type*}

/-- The items of a sequence, each followed by what is added. -/
def echo (added : σ → α → List α) (next : σ → α → σ) : σ → List α → List α
  | _, [] => []
  | s, a :: as => a :: (added s a ++ echo added next (next s a) as)

/-- Nothing is added along the sequence. -/
def NothingAdded (added : σ → α → List α) (next : σ → α → σ) : σ → List α → Prop
  | _, [] => True
  | s, a :: as => added s a = [] ∧ NothingAdded added next (next s a) as

section Echo

variable (added : σ → α → List α) (next : σ → α → σ)

/-- Adding makes a sequence no shorter. -/
theorem length_le_length_echo (s : σ) (as : List α) :
    as.length ≤ (echo added next s as).length := by
  induction as generalizing s with
  | nil => exact Nat.le_refl _
  | cons a as ih =>
      have hrest := ih (next s a)
      rw [echo, List.length_cons, List.length_cons, List.length_append]
      omega

/-- **An echo is faithful** exactly when nothing is added. -/
theorem echo_eq_self_iff (s : σ) (as : List α) :
    echo added next s as = as ↔ NothingAdded added next s as := by
  induction as generalizing s with
  | nil => exact ⟨fun _ => trivial, fun _ => rfl⟩
  | cons a as ih =>
      rw [echo, NothingAdded, ← ih (next s a)]
      constructor
      · intro h
        have hrest : added s a ++ echo added next (next s a) as = as := (List.cons.inj h).2
        -- what is added would make the echo too long
        have hlength := congrArg List.length hrest
        have hlong := length_le_length_echo added next (next s a) as
        rw [List.length_append] at hlength
        have hnone : added s a = [] := List.length_eq_zero_iff.mp (by omega)
        rw [hnone, List.nil_append] at hrest
        exact ⟨hnone, hrest⟩
      · rintro ⟨hnone, hrest⟩
        rw [hnone, List.nil_append, hrest]

end Echo

/-- Neither does `last` come in the sequence, when `first` came before it, nor does it come after
`first` in the sequence. -/
def NeverFollows (first last : α) (came : Prop) (as : List α) : Prop :=
  (came → last ∉ as) ∧ ¬ [first, last].Sublist as

section NeverFollows

variable {first last : α} {came : Prop} {as : List α}

/-- After `first` has come, it counts. -/
theorem neverFollows_first (hne : first ≠ last) :
    NeverFollows first last came (first :: as) ↔ NeverFollows first last True as := by
  unfold NeverFollows
  rw [List.cons_sublist_cons, List.singleton_sublist, List.mem_cons]
  constructor
  · rintro ⟨-, hlast⟩
    refine ⟨fun _ => hlast, fun h => hlast ?_⟩
    exact List.singleton_sublist.mp (List.sublist_of_cons_sublist h)
  · rintro ⟨hlast, -⟩
    refine ⟨fun _ h => ?_, hlast trivial⟩
    rcases h with h | h
    · exact hne h.symm
    · exact hlast trivial h

/-- When `last` comes, `first` must not have come. -/
theorem neverFollows_last (hne : first ≠ last) :
    NeverFollows first last came (last :: as) ↔ ¬ came ∧ NeverFollows first last False as := by
  unfold NeverFollows
  rw [List.sublist_cons_iff]
  constructor
  · rintro ⟨hcame, hpair⟩
    exact ⟨fun h => hcame h List.mem_cons_self, False.elim, fun h => hpair (Or.inl h)⟩
  · rintro ⟨hcame, -, hpair⟩
    refine ⟨fun h => absurd h hcame, ?_⟩
    rintro (h | ⟨rest, hrest, -⟩)
    · exact hpair h
    · exact hne (List.cons.inj hrest).1

/-- Other items do not matter. -/
theorem neverFollows_other {a : α} (hfirst : a ≠ first) (hlast : a ≠ last) :
    NeverFollows first last came (a :: as) ↔ NeverFollows first last came as := by
  unfold NeverFollows
  rw [List.sublist_cons_iff, List.mem_cons]
  constructor
  · rintro ⟨hcame, hpair⟩
    exact ⟨fun h hmem => hcame h (Or.inr hmem), fun h => hpair (Or.inl h)⟩
  · rintro ⟨hcame, hpair⟩
    constructor
    · rintro h (hself | hmem)
      · exact hlast hself.symm
      · exact hcame h hmem
    · rintro (h | ⟨rest, hrest, -⟩)
      · exact hpair h
      · exact hfirst (List.cons.inj hrest).1.symm

end NeverFollows

end BrowCast
