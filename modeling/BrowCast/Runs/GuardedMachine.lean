import Mathlib.Data.List.Basic

/-! # Guarded machines and their runs

A **guarded machine** is a deterministic step function together with a guard saying which events may
fire in which state. Its runs are event lists; every statement "along a run" is phrased with one
recursor:

* **`Steps P s es`** — every step of the run of `es` from `s` satisfies `P` (read at the state
  before the step).
* **`States I s es`** — every state of the run, the first and the last included, satisfies `I`.
* **`IsRun es`** — every event of `es` is enabled when it fires, starting from `start`.

The rules below are the only inductions over runs this development performs: an inductive invariant
gives all states (`states_of_steps`), a property of all states constrains all steps
(`steps_of_states`), a map onto a second machine transports both (`MapsTo`), and two runs that agree
on the events an observer sees stay related (`related_of_view_eq`). -/

namespace BrowCast

/-- A deterministic step function whose events fire only when their guard holds. -/
structure GuardedMachine (S E : Type*) where
  /-- The initial state. -/
  start : S
  /-- Which events may fire in which state. -/
  Enabled : S → E → Prop
  /-- The state after an event. -/
  step : S → E → S

namespace GuardedMachine

variable {S E T A : Type*} (M : GuardedMachine S E)

/-- The state reached from `s` by the events `es`. -/
def after (s : S) (es : List E) : S := es.foldl M.step s

/-- Every step of the run of `es` from `s` satisfies `P`, read at the state before the step. -/
def Steps (P : S → E → Prop) : S → List E → Prop
  | _, [] => True
  | s, e :: es => P s e ∧ Steps P (M.step s e) es

/-- Every state of the run of `es` from `s` satisfies `I`. -/
def States (I : S → Prop) (s : S) (es : List E) : Prop :=
  I s ∧ M.Steps (fun s e => I (M.step s e)) s es

/-- The events `es` form a run from the initial state. -/
def IsRun (es : List E) : Prop := M.Steps M.Enabled M.start es

/-- Without events the state stays. -/
@[simp] theorem after_nil (s : S) : M.after s [] = s := rfl

/-- The first event is stepped first. -/
@[simp] theorem after_cons (s : S) (e : E) (es : List E) :
    M.after s (e :: es) = M.after (M.step s e) es := rfl

/-- A run goes on from the state its first part ends in. -/
theorem after_append (s : S) (es fs : List E) :
    M.after s (es ++ fs) = M.after (M.after s es) fs := List.foldl_append

/-- No event, nothing to hold. -/
@[simp] theorem steps_nil (P : S → E → Prop) (s : S) : M.Steps P s [] := trivial

/-- Of the first step and of those after it. -/
@[simp] theorem steps_cons (P : S → E → Prop) (s : S) (e : E) (es : List E) :
    M.Steps P s (e :: es) ↔ P s e ∧ M.Steps P (M.step s e) es := Iff.rfl

/-- Runs compose: the steps of `es ++ fs` are those of `es` and then those of `fs`. -/
theorem steps_append (P : S → E → Prop) (s : S) (es fs : List E) :
    M.Steps P s (es ++ fs) ↔ M.Steps P s es ∧ M.Steps P (M.after s es) fs := by
  induction es generalizing s with
  | nil => simp
  | cons e es ih => simp [ih, and_assoc]

/-- A property of events alone holds of all steps when it holds of all events. -/
theorem steps_iff_forall_mem {C : E → Prop} {s : S} {es : List E} :
    M.Steps (fun _ e => C e) s es ↔ ∀ e ∈ es, C e := by
  induction es generalizing s with
  | nil => simp
  | cons e es ih => rw [steps_cons, ih, List.forall_mem_cons]

/-- Two properties of the steps of a run hold together. -/
theorem Steps.and {P Q : S → E → Prop} {s : S} {es : List E} (hP : M.Steps P s es)
    (hQ : M.Steps Q s es) : M.Steps (fun s e => P s e ∧ Q s e) s es := by
  induction es generalizing s with
  | nil => trivial
  | cons e es ih => exact ⟨⟨hP.1, hQ.1⟩, ih hP.2 hQ.2⟩

instance decidableSteps (P : S → E → Prop) [∀ s e, Decidable (P s e)] :
    ∀ (s : S) (es : List E), Decidable (M.Steps P s es)
  | _, [] => .isTrue trivial
  | s, e :: es =>
      have := decidableSteps P (M.step s e) es
      inferInstanceAs (Decidable (P s e ∧ M.Steps P (M.step s e) es))

/-- The last state of a run is one of its states. -/
theorem States.last {I : S → Prop} {s : S} {es : List E} (h : M.States I s es) :
    I (M.after s es) := by
  induction es generalizing s with
  | nil => exact h.1
  | cons e es ih => exact ih h.2

/-! ## Invariants along runs -/

/-- **Inductive invariants.** If `I` is kept by every enabled step that satisfies `C`, then `I`
holds in every state of a run all of whose steps satisfy `C`. -/
theorem states_of_steps {I : S → Prop} {C : S → E → Prop}
    (hstep : ∀ s e, I s → M.Enabled s e → C s e → I (M.step s e))
    {s : S} {es : List E} (hs : I s) (hrun : M.Steps M.Enabled s es) (hC : M.Steps C s es) :
    M.States I s es := by
  induction es generalizing s with
  | nil => exact ⟨hs, trivial⟩
  | cons e es ih => exact ⟨hs, ih (hstep s e hs hrun.1 hC.1) hrun.2 hC.2⟩

/-- **What holds at both ends of a step holds of the step.** If a step between two states satisfying
`A` satisfies `C`, then every step of a run through `A`-states satisfies `C`. -/
theorem steps_of_states {A : S → Prop} {C : S → E → Prop}
    (hstep : ∀ s e, A s → M.Enabled s e → A (M.step s e) → C s e)
    {s : S} {es : List E} (hrun : M.Steps M.Enabled s es) (hA : M.States A s es) :
    M.Steps C s es := by
  induction es generalizing s with
  | nil => trivial
  | cons e es ih => exact ⟨hstep s e hA.1 hrun.1 hA.2.1, ih hrun.2 hA.2⟩

/-- A relation that holds across each step of a run, and composes, holds across the run. -/
theorem related_after {R : S → S → Prop} (hrefl : ∀ s, R s s)
    (htrans : ∀ s t u, R s t → R t u → R s u) {s : S} {es : List E}
    (hR : M.Steps (fun s e => R s (M.step s e)) s es) : R s (M.after s es) := by
  induction es generalizing s with
  | nil => exact hrefl s
  | cons e es ih => exact htrans _ _ _ hR.1 (ih hR.2)

/-- A weaker property holds in the states too. -/
theorem States.mono {I J : S → Prop} (h : ∀ s, I s → J s) {s : S} {es : List E}
    (hI : M.States I s es) : M.States J s es := by
  induction es generalizing s with
  | nil => exact ⟨h s hI.1, trivial⟩
  | cons e es ih => exact ⟨h s hI.1, ih hI.2⟩

/-- Two properties that hold in the states hold together. -/
theorem States.and {I J : S → Prop} {s : S} {es : List E} (hI : M.States I s es)
    (hJ : M.States J s es) : M.States (fun s => I s ∧ J s) s es := by
  induction es generalizing s with
  | nil => exact ⟨⟨hI.1, hJ.1⟩, trivial⟩
  | cons e es ih => exact ⟨⟨hI.1, hJ.1⟩, ih hI.2 hJ.2⟩

/-- A property of single steps that follows from `I` and the guard holds along a run through
`I`-states. -/
theorem States.steps {I : S → Prop} {P : S → E → Prop} (h : ∀ s e, I s → M.Enabled s e → P s e)
    {s : S} {es : List E} (hI : M.States I s es) (hrun : M.Steps M.Enabled s es) :
    M.Steps P s es := by
  induction es generalizing s with
  | nil => trivial
  | cons e es ih => exact ⟨h s e hI.1 hrun.1, ih hI.2 hrun.2⟩

/-- A property of single steps that follows from another one, from `I` and from the guard. -/
theorem Steps.mono {I : S → Prop} {P Q : S → E → Prop}
    (h : ∀ s e, I s → M.Enabled s e → P s e → Q s e) {s : S} {es : List E} (hI : M.States I s es)
    (hrun : M.Steps M.Enabled s es) (hP : M.Steps P s es) : M.Steps Q s es := by
  induction es generalizing s with
  | nil => trivial
  | cons e es ih => exact ⟨h s e hI.1 hrun.1 hP.1, ih hI.2 hrun.2 hP.2⟩

/-- What two properties of a step imply holds of all steps. -/
theorem Steps.imp {P Q R : S → E → Prop} (h : ∀ s e, P s e → Q s e → R s e) {s : S} {es : List E}
    (hP : M.Steps P s es) (hQ : M.Steps Q s es) : M.Steps R s es := by
  induction es generalizing s with
  | nil => trivial
  | cons e es ih => exact ⟨h s e hP.1 hQ.1, ih hP.2 hQ.2⟩

/-- An invariant of every enabled step holds in every state of every run. -/
theorem states_of_invariant {I : S → Prop} (hstart : I M.start)
    (hstep : ∀ s e, I s → M.Enabled s e → I (M.step s e)) {es : List E} (hrun : M.IsRun es) :
    M.States I M.start es :=
  M.states_of_steps (C := fun _ _ => True) (fun s e hs he _ => hstep s e hs he) hstart hrun
    (Steps.imp M (fun _ _ _ _ => trivial) hrun hrun)

/-- Two step properties that are equivalent wherever the invariant `I` holds are equivalent along
runs through `I`-states. -/
theorem States.steps_congr {I : S → Prop} {P Q : S → E → Prop}
    (h : ∀ s e, I s → M.Enabled s e → (P s e ↔ Q s e))
    {s : S} {es : List E} (hI : M.States I s es) (hrun : M.Steps M.Enabled s es) :
    M.Steps P s es ↔ M.Steps Q s es :=
  ⟨Steps.mono M (fun s e hs he => (h s e hs he).mp) hI hrun,
    Steps.mono M (fun s e hs he => (h s e hs he).mpr) hI hrun⟩

/-- What holds after a run and not before it came to hold at some step. -/
theorem exists_step_of_after {P : S → Prop} {s : S} {es : List E} (hs : ¬ P s)
    (h : P (M.after s es)) :
    ∃ pre e post, es = pre ++ e :: post ∧ ¬ P (M.after s pre) ∧ P (M.step (M.after s pre) e) := by
  induction es generalizing s with
  | nil => exact absurd h hs
  | cons e es ih =>
      -- the first step at which `P` comes to hold is this one, or one of the rest
      by_cases hfirst : P (M.step s e)
      · exact ⟨[], e, es, rfl, hs, hfirst⟩
      · obtain ⟨pre, f, post, rfl, hbefore, hafter⟩ := ih hfirst h
        exact ⟨e :: pre, f, post, rfl, hbefore, hafter⟩

/-- A run is a run up to any of its events, which is enabled there, and goes on from there. -/
theorem IsRun.split {pre post : List E} {e : E} (hrun : M.IsRun (pre ++ e :: post)) :
    M.IsRun pre ∧ M.Enabled (M.after M.start pre) e ∧
      M.Steps M.Enabled (M.step (M.after M.start pre) e) post := by
  obtain ⟨hpre, he, hpost⟩ := (M.steps_append _ _ _ _).mp hrun
  exact ⟨hpre, he, hpost⟩

/-! ## Mapping one machine onto another -/

variable (N : GuardedMachine T A)

/-- The step-by-step image of a run under a labelling that may look at the state. -/
def labels (g : S → E → A) : S → List E → List A
  | _, [] => []
  | s, e :: es => g s e :: labels g (M.step s e) es

/-- **Growing records.** If every step appends to a record what it produces, the record of a run is
everything produced, in the order of the steps. -/
theorem record_after {α : Type*} (record : S → List α) (produced : S → E → List α) {s : S}
    {es : List E}
    (h : M.Steps (fun s e => record (M.step s e) = record s ++ produced s e) s es) :
    record (M.after s es) = record s ++ (M.labels produced s es).flatten := by
  -- the record is read at the last state, so the induction runs from the front of the run
  induction es generalizing s with
  | nil => simp [labels]
  | cons e es ih => rw [after_cons, ih h.2, h.1, labels, List.flatten_cons, List.append_assoc]

/-- A labelling that does not look at the state. -/
theorem labels_eq_map (g : E → A) (s : S) (es : List E) :
    M.labels (fun _ e => g e) s es = es.map g := by
  induction es generalizing s with
  | nil => rfl
  | cons e es ih => rw [labels, ih, List.map_cons]

/-- `f` and `g` map `M` onto `N` wherever the invariant `I` of `M` holds: enabled steps become
enabled steps, and stepping commutes with `f`. -/
structure MapsTo (I : S → Prop) (f : S → T) (g : S → E → A) : Prop where
  start : f M.start = N.start
  enabled : ∀ s e, I s → M.Enabled s e → N.Enabled (f s) (g s e)
  step : ∀ s e, I s → M.Enabled s e → f (M.step s e) = N.step (f s) (g s e)

variable {M N} {I : S → Prop} {f : S → T} {g : S → E → A}

/-- Step properties transport along a map of machines. -/
theorem MapsTo.steps_iff (h : M.MapsTo N I f g) (P : T → A → Prop) {s : S} {es : List E}
    (hI : M.States I s es) (hrun : M.Steps M.Enabled s es) :
    M.Steps (fun s e => P (f s) (g s e)) s es ↔ N.Steps P (f s) (M.labels g s es) := by
  induction es generalizing s with
  | nil => exact Iff.rfl
  | cons e es ih =>
      have hnext := ih hI.2 hrun.2
      -- the rest of the run of `N` starts at the image of the next state
      rw [h.step s e hI.1 hrun.1] at hnext
      exact and_congr Iff.rfl hnext

/-- State properties transport along a map of machines. -/
theorem MapsTo.states_iff (h : M.MapsTo N I f g) (P : T → Prop) {s : S} {es : List E}
    (hI : M.States I s es) (hrun : M.Steps M.Enabled s es) :
    M.States (fun s => P (f s)) s es ↔ N.States P (f s) (M.labels g s es) := by
  induction es generalizing s with
  | nil => exact Iff.rfl
  | cons e es ih =>
      have hnext := ih hI.2 hrun.2
      -- the rest of the run of `N` starts at the image of the next state
      rw [h.step s e hI.1 hrun.1] at hnext
      exact and_congr Iff.rfl hnext

/-- The image of a run is a run. -/
theorem MapsTo.steps_enabled (h : M.MapsTo N I f g) {s : S} {es : List E} (hI : M.States I s es)
    (hrun : M.Steps M.Enabled s es) : N.Steps N.Enabled (f s) (M.labels g s es) :=
  (h.steps_iff N.Enabled hI hrun).mp
    (States.steps M (fun s e hs he => h.enabled s e hs he) hI hrun)

/-! ## Two runs seen by one observer -/

variable (M)

/-- The events of a run that concern the observer, in order. -/
def view (Concerns : S → E → Prop) [∀ s e, Decidable (Concerns s e)] : S → List E → List E
  | _, [] => []
  | s, e :: es =>
      if Concerns s e then e :: view Concerns (M.step s e) es else view Concerns (M.step s e) es

/-- Of an empty run nothing is seen. -/
@[simp] theorem view_nil (Concerns : S → E → Prop) [∀ s e, Decidable (Concerns s e)] (s : S) :
    M.view Concerns s [] = [] := rfl

/-- An event of concern is seen first. -/
theorem view_cons_of {Concerns : S → E → Prop} [∀ s e, Decidable (Concerns s e)] {s : S} {e : E}
    (h : Concerns s e) (es : List E) :
    M.view Concerns s (e :: es) = e :: M.view Concerns (M.step s e) es := by
  rw [view, if_pos h]

/-- Other events are not seen. -/
theorem view_cons_of_not {Concerns : S → E → Prop} [∀ s e, Decidable (Concerns s e)] {s : S} {e : E}
    (h : ¬ Concerns s e) (es : List E) :
    M.view Concerns s (e :: es) = M.view Concerns (M.step s e) es := by
  rw [view, if_neg h]

/-- **Unwinding.** Let `R` relate states that look alike to the observer, and `I` be an invariant of
the machine. If the observer's events keep `R` when both runs take them and every other event keeps
`R` when only one run takes it, then two runs with the same view end in related states. -/
theorem related_of_view_eq {I : S → Prop} {R : S → S → Prop} {Concerns : S → E → Prop}
    [∀ s e, Decidable (Concerns s e)]
    (hI : ∀ s e, I s → M.Enabled s e → I (M.step s e))
    (hsymm : ∀ s t, R s t → R t s)
    (hboth : ∀ s t e, I s → I t → R s t → M.Enabled s e → M.Enabled t e → Concerns s e →
      R (M.step s e) (M.step t e))
    (hone : ∀ s t e, I s → R s t → M.Enabled s e → ¬ Concerns s e → R (M.step s e) t)
    {s t : S} {es fs : List E} (hs : I s) (ht : I t) (hR : R s t)
    (hes : M.Steps M.Enabled s es) (hfs : M.Steps M.Enabled t fs)
    (hview : M.view Concerns s es = M.view Concerns t fs) :
    R (M.after s es) (M.after t fs) := by
  induction es generalizing s t fs with
  | nil =>
      -- the second run has nothing left to show the observer
      induction fs generalizing t with
      | nil => exact hR
      | cons f fs ih =>
          by_cases hc : Concerns t f
          · rw [M.view_cons_of hc] at hview
            cases hview
          · rw [M.view_cons_of_not hc] at hview
            exact ih (hI t f ht hfs.1) (hsymm _ _ (hone t s f ht (hsymm _ _ hR) hfs.1 hc)) hfs.2
              hview
  | cons e es ihes =>
      by_cases hc : Concerns s e
      · -- the second run skips its other events until it takes `e` as well
        rw [M.view_cons_of hc] at hview
        induction fs generalizing t with
        | nil => cases hview
        | cons f fs ih =>
            by_cases hd : Concerns t f
            · rw [M.view_cons_of hd] at hview
              obtain ⟨rfl, htail⟩ := List.cons.inj hview
              show R (M.after (M.step s e) es) (M.after (M.step t e) fs)
              exact ihes (hI s e hs hes.1) (hI t e ht hfs.1)
                (hboth s t e hs ht hR hes.1 hfs.1 hc) hes.2 hfs.2 htail
            · rw [M.view_cons_of_not hd] at hview
              exact ih (hI t f ht hfs.1)
                (hsymm _ _ (hone t s f ht (hsymm _ _ hR) hfs.1 hd)) hfs.2 hview
      · -- an event the observer does not see: only the first run takes it
        rw [M.view_cons_of_not hc] at hview
        exact ihes (hI s e hs hes.1) ht (hone s t e hs hR hes.1 hc) hes.2 hfs hview

end GuardedMachine

end BrowCast
