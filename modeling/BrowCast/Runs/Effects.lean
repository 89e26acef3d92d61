import Mathlib.Data.List.Basic

/-! # Handlers that change a state and may throw

A handler is an `EStateM ε σ α`: it changes a state and ends with a value or with an exception, and
an exception keeps the changes made before it, as in a language with mutable objects.

`ThrowsFirst R x` says that a handler does everything that can throw before it changes anything.

`Confined P Q x` is a relational judgement on such a handler. A `Policy P` names an invariant, a
relation `Agree` between states that look alike to the handler, and a reflexive and transitive
relation `Frame` between the states before and after. `x` is confined when, from two invariant
states that agree, its two runs end in the same way with the same value, again in invariant states
that agree, and each within its frame. One proof by the rules below gives both what a handler may
change (take the two states equal) and what its outcome may depend on. -/

namespace BrowCast

variable {σ ε α β : Type}

/-- Read a value off the state. -/
def readState (g : σ → α) : EStateM ε σ α := fun s => .ok (g s) s

/-- Return the value of a fallible computation, or throw its exception. -/
def orThrow (x : Except ε α) : EStateM ε σ α :=
  match x with
  | .ok a => pure a
  | .error e => throw e

/-- Run a handler and swallow its exception: `try { … } catch (e) { … }` with a silent handler. -/
def swallow (x : EStateM ε σ Unit) : EStateM ε σ Unit := tryCatch x fun _ => pure ()

/-- The state a run ends in. -/
def finalState : EStateM.Result ε σ α → σ
  | .ok _ s | .error _ s => s

/-- The final state of a run that returns. -/
@[simp] theorem finalState_ok (a : α) (s : σ) :
    finalState (.ok a s : EStateM.Result ε σ α) = s := rfl

/-- The final state of a run that throws. -/
@[simp] theorem finalState_error (e : ε) (s : σ) :
    finalState (.error e s : EStateM.Result ε σ α) = s := rfl

/-- Reading changes nothing. -/
@[simp] theorem run_readState (g : σ → α) (s : σ) :
    (readState g : EStateM ε σ α).run s = .ok (g s) s := rfl

/-- A value is returned, and nothing changes. -/
@[simp] theorem run_orThrow_ok (a : α) (s : σ) :
    (orThrow (.ok a) : EStateM ε σ α).run s = .ok a s := rfl

/-- An exception is thrown, and nothing changes. -/
@[simp] theorem run_orThrow_error (e : ε) (s : σ) :
    (orThrow (.error e) : EStateM ε σ α).run s = .error e s := rfl

/-- A fallible computation in two steps throws what the first one throws, and then what the second
one throws. -/
theorem orThrow_bind (r : Except ε α) (f : α → Except ε β) :
    (orThrow (r >>= f) : EStateM ε σ β) = orThrow r >>= fun a => orThrow (f a) := by
  cases r <;> rfl

/-- A swallowed exception leaves the state it was thrown in. -/
theorem run_swallow (x : EStateM ε σ Unit) (s : σ) :
    (swallow x).run s = .ok () (finalState (x.run s)) := by
  show EStateM.tryCatch x (fun _ => pure ()) s = _
  unfold EStateM.tryCatch
  cases h : x s with
  | ok a s' => simp [EStateM.run, h]
  | error e s' => simp only [EStateM.run, h]; rfl

/-- A loop whose body never throws folds the body's effect over the list. -/
theorem run_forM_eq_foldl {f : α → EStateM ε σ PUnit} {g : σ → α → σ}
    (h : ∀ a s, (f a).run s = .ok ⟨⟩ (g s a)) (l : List α) (s : σ) :
    (forM l f).run s = .ok ⟨⟩ (l.foldl g s) := by
  induction l generalizing s with
  | nil => rfl
  | cons a l ih => rw [List.forM_cons, EStateM.run_bind, h a s]; exact ih (g s a)

/-- When the handler throws, it has changed nothing; when it returns, what it has changed is within
`R`. -/
structure ThrowsFirst (R : σ → σ → Prop) (x : EStateM ε σ α) : Prop where
  unchanged : ∀ {s e s'}, x.run s = .error e s' → s' = s
  within : ∀ {s a s'}, x.run s = .ok a s' → R s s'

namespace ThrowsFirst

variable {R : σ → σ → Prop} {x : EStateM ε σ α}

/-- Returning a value changes nothing. -/
theorem pure (hrefl : ∀ s, R s s) (a : α) : ThrowsFirst R (pure a : EStateM ε σ α) where
  unchanged h := nomatch h
  within := by
    rintro s b s' ⟨⟩
    exact hrefl s

/-- A change alone throws nothing. -/
theorem modify {f : σ → σ} (hf : ∀ s, R s (f s)) :
    ThrowsFirst R (modify f : EStateM ε σ PUnit) where
  unchanged h := nomatch h
  within := by
    rintro s b s' ⟨⟩
    exact hf s

/-- A step that may throw comes before all changes. -/
theorem orThrow_bind {r : Except ε α} {f : α → EStateM ε σ β}
    (hf : ∀ a, r = .ok a → ThrowsFirst R (f a)) : ThrowsFirst R (orThrow r >>= f) := by
  cases r with
  | ok a => exact hf a rfl
  | error e =>
      refine ⟨?_, fun h => nomatch h⟩
      rintro s e' s' ⟨⟩
      rfl

/-- A choice of two such handlers is one. -/
theorem ite {c : Prop} [Decidable c] {y : EStateM ε σ α} (hx : ThrowsFirst R x)
    (hy : ThrowsFirst R y) : ThrowsFirst R (if c then x else y) := by
  split
  · exact hx
  · exact hy

/-- Swallowing the exception leaves the state as it was, or a state within `R`. -/
theorem run_swallow {x : EStateM ε σ Unit} (hx : ThrowsFirst R x) (s : σ) :
    ∃ s', (swallow x).run s = .ok () s' ∧ (s' = s ∨ R s s') := by
  rw [BrowCast.run_swallow]
  refine ⟨_, rfl, ?_⟩
  cases hrun : x.run s with
  | ok a s' => exact Or.inr (hx.within hrun)
  | error e s' => exact Or.inl (hx.unchanged hrun)

end ThrowsFirst

/-- An invariant, a notion of looking alike, and a frame. -/
structure Policy (σ : Type) where
  /-- What holds before and after. -/
  Inv : σ → Prop
  /-- The two states look alike to the handler. -/
  Agree : σ → σ → Prop
  /-- What a run may change. -/
  Frame : σ → σ → Prop
  agree_refl : ∀ s, Agree s s
  frame_refl : ∀ s, Frame s s
  frame_trans : ∀ {s t u}, Frame s t → Frame t u → Frame s u

/-- The two results are of the same kind, with equal values, invariant and agreeing final states,
and each final state in the frame of its initial state. -/
inductive SameOutcome (P : Policy σ) (Q : α → Prop) (s t : σ) :
    EStateM.Result ε σ α → EStateM.Result ε σ α → Prop where
  | ok {a : α} {s' t' : σ} (value : Q a) (invLeft : P.Inv s') (invRight : P.Inv t')
      (agree : P.Agree s' t') (frameLeft : P.Frame s s') (frameRight : P.Frame t t') :
      SameOutcome P Q s t (.ok a s') (.ok a t')
  | error {e : ε} {s' t' : σ} (invLeft : P.Inv s') (invRight : P.Inv t')
      (agree : P.Agree s' t') (frameLeft : P.Frame s s') (frameRight : P.Frame t t') :
      SameOutcome P Q s t (.error e s') (.error e t')

/-- `x` keeps the invariant and the frame, its value satisfies `Q`, and its outcome is the same from
states that agree. -/
def Confined (P : Policy σ) (Q : α → Prop) (x : EStateM ε σ α) : Prop :=
  ∀ s t, P.Inv s → P.Inv t → P.Agree s t → SameOutcome P Q s t (x.run s) (x.run t)

namespace Confined

variable {P : Policy σ} {Q : α → Prop} {R : β → Prop} {x : EStateM ε σ α}

/-- Returning a value is confined. -/
theorem pure {a : α} (ha : Q a) : Confined P Q (pure a : EStateM ε σ α) := fun s t hs ht hst =>
  .ok ha hs ht hst (P.frame_refl s) (P.frame_refl t)

/-- Throwing an exception is confined. -/
theorem throw (e : ε) : Confined P Q (throw e : EStateM ε σ α) := fun s t hs ht hst =>
  .error hs ht hst (P.frame_refl s) (P.frame_refl t)

/-- Two confined handlers in sequence are confined. -/
theorem bind {f : α → EStateM ε σ β} (hx : Confined P Q x) (hf : ∀ a, Q a → Confined P R (f a)) :
    Confined P R (x >>= f) := by
  intro s t hs ht hst
  have hfirst := hx s t hs ht hst
  rw [EStateM.run_bind, EStateM.run_bind]
  generalize x.run s = r at hfirst ⊢
  generalize x.run t = q at hfirst ⊢
  cases hfirst with
  | error hs' ht' hst' hfs hft =>
      -- an exception skips `f`
      exact .error hs' ht' hst' hfs hft
  | @ok a s' t' ha hs' ht' hst' hfs hft =>
      -- both runs hand the same value `a` to `f`, from states that still agree
      have hsecond := hf a ha s' t' hs' ht' hst'
      show SameOutcome P R s t ((f a).run s') ((f a).run t')
      generalize (f a).run s' = r at hsecond ⊢
      generalize (f a).run t' = q at hsecond ⊢
      cases hsecond with
      | ok hb hs'' ht'' hst'' hfs' hft' =>
          exact .ok hb hs'' ht'' hst'' (P.frame_trans hfs hfs') (P.frame_trans hft hft')
      | error hs'' ht'' hst'' hfs' hft' =>
          exact .error hs'' ht'' hst'' (P.frame_trans hfs hfs') (P.frame_trans hft hft')

/-- What is known of the value can be weakened. -/
theorem mono (hx : Confined P Q x) {Q' : α → Prop} (h : ∀ a, Q a → Q' a) : Confined P Q' x := by
  intro s t hs ht hst
  have hsame := hx s t hs ht hst
  generalize x.run s = r at hsame ⊢
  generalize x.run t = q at hsame ⊢
  cases hsame with
  | ok ha hs' ht' hst' hfs hft => exact .ok (h _ ha) hs' ht' hst' hfs hft
  | error hs' ht' hst' hfs hft => exact .error hs' ht' hst' hfs hft

/-- Reading is confined, where states that agree have the same value. -/
theorem readState {g : σ → α}
    (h : ∀ s t, P.Inv s → P.Inv t → P.Agree s t → g s = g t ∧ Q (g s)) :
    Confined P Q (readState g : EStateM ε σ α) := by
  intro s t hs ht hst
  obtain ⟨heq, hq⟩ := h s t hs ht hst
  rw [run_readState, run_readState, ← heq]
  exact .ok hq hs ht hst (P.frame_refl s) (P.frame_refl t)

/-- A change is confined, where it keeps invariant, frame and agreement. -/
theorem modify {f : σ → σ}
    (h : ∀ s t, P.Inv s → P.Inv t → P.Agree s t →
      P.Inv (f s) ∧ P.Frame s (f s) ∧ P.Agree (f s) (f t)) :
    Confined P (fun _ => True) (modify f : EStateM ε σ PUnit) := by
  intro s t hs ht hst
  obtain ⟨hs', hfs, hst'⟩ := h s t hs ht hst
  -- the invariant and the frame of the second state come from comparing it with itself
  obtain ⟨ht', hft, -⟩ := h t t ht ht (P.agree_refl t)
  exact .ok trivial hs' ht' hst' hfs hft

/-- A fallible value is confined, being the same from all states. -/
theorem orThrow {r : Except ε α} (h : ∀ a, r = .ok a → Q a) : Confined P Q (orThrow r) := by
  cases r with
  | ok a => exact Confined.pure (h a rfl)
  | error e => exact Confined.throw e

/-- A choice of two confined handlers is confined. -/
theorem ite {c : Prop} [Decidable c] {y : EStateM ε σ α} (hx : Confined P Q x)
    (hy : Confined P Q y) : Confined P Q (if c then x else y) := by
  split
  · exact hx
  · exact hy

/-- A loop with a confined body is confined. -/
theorem forM {f : α → EStateM ε σ PUnit} {l : List α}
    (h : ∀ a ∈ l, Confined P (fun _ => True) (f a)) : Confined P (fun _ => True) (forM l f) := by
  induction l with
  | nil => exact Confined.pure trivial
  | cons a l ih =>
      rw [List.forM_cons]
      exact bind (h a List.mem_cons_self) fun _ _ => ih fun b hb => h b (List.mem_cons_of_mem _ hb)

/-- A confined handler stays so when its exceptions are swallowed. -/
theorem swallow {x : EStateM ε σ Unit} (hx : Confined P (fun _ => True) x) :
    Confined P (fun _ => True) (swallow x) := by
  intro s t hs ht hst
  have hsame := hx s t hs ht hst
  rw [run_swallow, run_swallow]
  generalize x.run s = r at hsame ⊢
  generalize x.run t = q at hsame ⊢
  cases hsame with
  | ok _ hs' ht' hst' hfs hft => exact .ok trivial hs' ht' hst' hfs hft
  | error hs' ht' hst' hfs hft =>
      -- the exception is gone, what was changed before it stays
      exact .ok trivial hs' ht' hst' hfs hft

/-- A run from one invariant state ends in its frame, in an invariant state. -/
theorem frame (hx : Confined P Q x) {s : σ} (hs : P.Inv s) :
    P.Frame s (finalState (x.run s)) ∧ P.Inv (finalState (x.run s)) := by
  have h := hx s s hs hs (P.agree_refl s)
  generalize x.run s = r at h ⊢
  cases h with
  | ok _ hs' _ _ hfs _ => exact ⟨hfs, hs'⟩
  | error hs' _ _ hfs _ => exact ⟨hfs, hs'⟩

/-- Runs from agreeing states end in agreeing states. -/
theorem agree (hx : Confined P Q x) {s t : σ} (hs : P.Inv s) (ht : P.Inv t) (hst : P.Agree s t) :
    P.Agree (finalState (x.run s)) (finalState (x.run t)) := by
  have h := hx s t hs ht hst
  generalize x.run s = r at h ⊢
  generalize x.run t = q at h ⊢
  cases h with
  | ok _ _ _ hst' _ _ => exact hst'
  | error _ _ hst' _ _ => exact hst'

end Confined

end BrowCast
