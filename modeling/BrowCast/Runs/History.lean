import BrowCast.Runs.GuardedMachine
import Mathlib.Data.List.Induction

/-! # Recording what a run reports

* **`recording M report`** — the machine `M` with a log, to which each step appends what it reports.
  It has the runs of `M`, and the log of a run is everything reported, in the order of the steps.
* **`latest f log`** — the last value that `f` reads off the entries of a log. -/

namespace BrowCast

variable {S E A B C : Type*}

/-! ## The latest entry -/

/-- The last value that `f` reads off the entries. -/
def latest (f : A → Option B) (log : List A) : Option B := (log.filterMap f).getLast?

/-- Nothing is the latest of an empty log. -/
@[simp] theorem latest_nil (f : A → Option B) : latest f [] = none := rfl

/-- Later entries come first, if there are any. -/
theorem latest_append (f : A → Option B) (log more : List A) :
    latest f (log ++ more) = (latest f more).or (latest f log) := by
  rw [latest, List.filterMap_append, List.getLast?_append, latest, latest]

/-- Of one entry it is what the entry says. -/
theorem latest_singleton (f : A → Option B) (a : A) : latest f [a] = f a := by
  cases h : f a <;> simp [latest, h]

/-- There is no latest when no entry says anything. -/
theorem latest_eq_none_iff {f : A → Option B} {log : List A} :
    latest f log = none ↔ ∀ a ∈ log, f a = none := by
  rw [latest, List.getLast?_eq_none_iff, List.filterMap_eq_nil_iff]

/-- The latest is what some entry says. -/
theorem exists_mem_of_latest {f : A → Option B} {log : List A} {b : B}
    (h : latest f log = some b) : ∃ a ∈ log, f a = some b :=
  List.mem_filterMap.mp (List.mem_of_getLast? h)

/-- A value that is read off some entry, and is the only one, is the latest. -/
theorem latest_eq_of_forall {f : A → Option B} {log : List A} {a : A} {b : B} (ha : a ∈ log)
    (hab : f a = some b) (hall : ∀ a ∈ log, ∀ d, f a = some d → d = b) : latest f log = some b := by
  cases hlast : latest f log with
  | none =>
      rw [latest_eq_none_iff.mp hlast a ha] at hab
      cases hab
  | some d =>
      obtain ⟨a', ha', had⟩ := exists_mem_of_latest hlast
      rw [hall a' ha' d had]

/-- If `g` reads nothing off the entries that `f` reads nothing off, and reads `c` off those `f`
reads `b` off, then `c` is the latest for `g` when `b` is for `f`. -/
theorem latest_of_latest {f : A → Option B} {g : A → Option C} {log : List A} {b : B} {c : C}
    (h : latest f log = some b) (hnone : ∀ a ∈ log, f a = none → g a = none)
    (hsome : ∀ a ∈ log, f a = some b → g a = some c) : latest g log = some c := by
  induction log using List.reverseRecOn with
  | nil => cases h
  | append_singleton log a ih =>
      have ha : a ∈ log ++ [a] := List.mem_append_right _ List.mem_cons_self
      rw [latest_append, latest_singleton] at h ⊢
      cases hf : f a with
      | some d =>
          rw [hf, Option.some_or] at h
          rw [hsome a ha (hf.trans h), Option.some_or]
      | none =>
          -- the last entry says nothing to either, so the one before it decides
          rw [hf, Option.none_or] at h
          rw [hnone a ha hf, Option.none_or]
          exact ih h (fun a ha => hnone a (List.mem_append_left _ ha))
            fun a ha => hsome a (List.mem_append_left _ ha)

/-! ## The recording machine -/

namespace GuardedMachine

variable (M : GuardedMachine S E) (report : S → E → List A)

/-- The machine with a log of what its steps report. -/
def recording : GuardedMachine (S × List A) E where
  start := (M.start, [])
  Enabled s e := M.Enabled s.1 e
  step s e := (M.step s.1 e, s.2 ++ report s.1 e)

/-- The log of a run is everything reported, in the order of the steps. -/
theorem after_recording (s : S) (log : List A) (es : List E) :
    (M.recording report).after (s, log) es =
      (M.after s es, log ++ (M.labels report s es).flatten) := by
  induction es generalizing s log with
  | nil => simp [labels]
  | cons e es ih =>
      rw [after_cons, after_cons, labels, List.flatten_cons, ← List.append_assoc]
      exact ih (M.step s e) (log ++ report s e)

variable {M report}

/-- The latest value reported along a run was reported by some event, and by none after it. -/
theorem exists_report_of_latest {f : A → Option B} {b : B} {s : S} {es : List E}
    (h : latest f (M.labels report s es).flatten = some b) :
    ∃ pre e post, es = pre ++ e :: post ∧ latest f (report (M.after s pre) e) = some b ∧
      latest f (M.labels report (M.step (M.after s pre) e) post).flatten = none := by
  induction es generalizing s with
  | nil => cases h
  | cons e es ih =>
      rw [labels, List.flatten_cons, latest_append] at h
      cases hrest : latest f (M.labels report (M.step s e) es).flatten with
      | none =>
          rw [hrest, Option.none_or] at h
          exact ⟨[], e, es, rfl, h, hrest⟩
      | some d =>
          rw [hrest, Option.some_or] at h
          obtain ⟨pre, e', post, rfl, hreport, hnone⟩ := ih (hrest.trans h)
          exact ⟨e :: pre, e', post, rfl, hreport, hnone⟩

/-- Where nothing is read off the reports of a run, nothing is read off those of any step. -/
theorem latest_report_eq_none {f : A → Option B} {s : S} {pre post : List E} {e : E}
    (h : latest f (M.labels report s (pre ++ e :: post)).flatten = none) :
    latest f (report (M.after s pre) e) = none := by
  induction pre generalizing s with
  | nil =>
      rw [List.nil_append, labels, List.flatten_cons, latest_append, Option.or_eq_none_iff] at h
      exact h.2
  | cons d pre ih =>
      rw [List.cons_append, labels, List.flatten_cons, latest_append, Option.or_eq_none_iff] at h
      exact ih h.1

/-- Recording changes nothing about the steps. -/
theorem steps_recording_iff {P : S → E → Prop} {s : S} {log : List A} {es : List E} :
    (M.recording report).Steps (fun s e => P s.1 e) (s, log) es ↔ M.Steps P s es := by
  induction es generalizing s log with
  | nil => exact Iff.rfl
  | cons e es ih => exact and_congr Iff.rfl ih

/-- The recording machine has the runs of the machine. -/
theorem isRun_recording_iff {es : List E} : (M.recording report).IsRun es ↔ M.IsRun es :=
  steps_recording_iff

end GuardedMachine

end BrowCast
