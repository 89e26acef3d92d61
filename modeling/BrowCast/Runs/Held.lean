import Mathlib.Data.List.Basic
import Mathlib.Data.Set.Insert
import Mathlib.Tactic.ByContra

/-! # Sets held through presses and releases

A sequence of presses and releases leaves a set of things held. Such a sequence can be relabelled,
dropping what has no label; when the labels tell things apart, the set held under the labels is the
set of labels of what is held. The relabelling may look at more than the thing itself (`name`): it
then simulates the original sequence exactly when it looks at nothing more. -/

namespace BrowCast

variable {α κ τ : Type*}

/-- What is held after a sequence of presses (`true`) and releases (`false`), from a set on. -/
def heldAfter (held : Set κ) : List (κ × Bool) → Set κ
  | [] => held
  | (k, true) :: events => heldAfter (insert k held) events
  | (k, false) :: events => heldAfter (held \ {k}) events

/-- The labels of the members of a set that have one. -/
def labels (label : κ → Option τ) (held : Set κ) : Set τ := {t | ∃ k ∈ held, label k = some t}

/-- Things with the same label are the same. -/
def TellsApart (label : κ → Option τ) : Prop :=
  ∀ ⦃k l t⦄, label k = some t → label l = some t → k = l

/-- The sequence under labels; what has no label is dropped. -/
def relabel (label : α → Option τ) (events : List (α × Bool)) : List (τ × Bool) :=
  events.filterMap fun e => (label e.1).map (·, e.2)

section Labels

variable {label : κ → Option τ} {held : Set κ} {k : κ} {t : τ}

/-- A thing with a label adds that label. -/
theorem labels_insert_of_some (hk : label k = some t) :
    labels label (insert k held) = insert t (labels label held) := by
  ext u
  constructor
  · rintro ⟨l, rfl | hl, hu⟩
    · exact Or.inl (Option.some.inj (hu.symm.trans hk))
    · exact Or.inr ⟨l, hl, hu⟩
  · rintro (rfl | ⟨l, hl, hu⟩)
    · exact ⟨k, Or.inl rfl, hk⟩
    · exact ⟨l, Or.inr hl, hu⟩

/-- A thing without a label adds none. -/
theorem labels_insert_of_none (hk : label k = none) :
    labels label (insert k held) = labels label held := by
  ext u
  constructor
  · rintro ⟨l, rfl | hl, hu⟩
    · rw [hk] at hu
      cases hu
    · exact ⟨l, hl, hu⟩
  · rintro ⟨l, hl, hu⟩
    exact ⟨l, Or.inr hl, hu⟩

/-- A release takes away one label, and no other thing has it. -/
theorem labels_diff_of_some (hlabel : TellsApart label) (hk : label k = some t) :
    labels label (held \ {k}) = labels label held \ {t} := by
  ext u
  constructor
  · rintro ⟨l, ⟨hl, hne⟩, hu⟩
    refine ⟨⟨l, hl, hu⟩, fun heq => hne (hlabel hu ?_)⟩
    rw [hk, Set.mem_singleton_iff.mp heq]
  · rintro ⟨⟨l, hl, hu⟩, hne⟩
    refine ⟨l, ⟨hl, fun heq => hne ?_⟩, hu⟩
    rw [Set.mem_singleton_iff.mp heq, hk] at hu
    exact (Option.some.inj hu).symm

/-- A thing without a label takes none away. -/
theorem labels_diff_of_none (hk : label k = none) :
    labels label (held \ {k}) = labels label held := by
  ext u
  constructor
  · rintro ⟨l, ⟨hl, -⟩, hu⟩
    exact ⟨l, hl, hu⟩
  · rintro ⟨l, hl, hu⟩
    refine ⟨l, ⟨hl, fun heq => ?_⟩, hu⟩
    rw [Set.mem_singleton_iff.mp heq, hk] at hu
    cases hu

/-- **Relabelling**: under labels that tell things apart, what is held is the labels of what is
held. -/
theorem heldAfter_relabel (hlabel : TellsApart label) (held : Set κ) (events : List (κ × Bool)) :
    heldAfter (labels label held) (relabel label events) =
      labels label (heldAfter held events) := by
  induction events generalizing held with
  | nil => rfl
  | cons e events ih =>
      obtain ⟨k, down⟩ := e
      cases hk : label k with
      | none =>
          have hskip : relabel label ((k, down) :: events) = relabel label events := by
            simp [relabel, hk]
          rw [hskip]
          cases down with
          | true => rw [heldAfter, ← ih, labels_insert_of_none hk]
          | false => rw [heldAfter, ← ih, labels_diff_of_none hk]
      | some t =>
          have hkeep : relabel label ((k, down) :: events) = (t, down) :: relabel label events := by
            simp [relabel, hk]
          rw [hkeep]
          cases down with
          | true => rw [heldAfter, heldAfter, ← ih, labels_insert_of_some hk]
          | false => rw [heldAfter, heldAfter, ← ih, labels_diff_of_some hlabel hk]

end Labels

/-! ## Labels that may look at more -/

section Simulation

variable (name : α → κ) (label : α → Option τ) (allowed : Set α)

/-- One labelling of things, which tells them apart, gives what is held after every allowed
sequence. -/
def Simulation : Prop :=
  ∃ ι : κ → Option τ, TellsApart ι ∧
    ∀ events : List (α × Bool), (∀ e ∈ events, e.1 ∈ allowed) →
      heldAfter ∅ (relabel label events) =
        labels ι (heldAfter ∅ (events.map fun e => (name e.1, e.2)))

/-- Allowed events have the same label when they are about the same thing, and only then. -/
def LabelsByName : Prop :=
  ∀ a ∈ allowed, ∀ b ∈ allowed,
    (name a = name b → label a = label b) ∧
      ∀ t, label a = some t → label b = some t → name a = name b

variable {name label allowed}

/-- What is held after a single press. -/
theorem heldAfter_press (k : κ) : heldAfter ∅ [(k, true)] = {k} := by
  rw [heldAfter, heldAfter]
  exact insert_empty_eq k

/-- A simulation labels each thing as its events are labelled. -/
theorem label_eq_of_simulation {ι : κ → Option τ}
    (hsimulates : ∀ events : List (α × Bool), (∀ e ∈ events, e.1 ∈ allowed) →
      heldAfter ∅ (relabel label events) =
        labels ι (heldAfter ∅ (events.map fun e => (name e.1, e.2))))
    {a : α} (ha : a ∈ allowed) : ι (name a) = label a := by
  have hpress := hsimulates [(a, true)] (by simpa using ha)
  have hmap : ([(a, true)] : List (α × Bool)).map (fun e => (name e.1, e.2)) = [(name a, true)] :=
    rfl
  rw [hmap, heldAfter_press] at hpress
  have hmem : ∀ t, ι (name a) = some t ↔ t ∈ heldAfter ∅ (relabel label [(a, true)]) := by
    intro t
    rw [hpress]
    simp [labels]
  cases ha : label a with
  | none =>
      have hempty : relabel label [(a, true)] = [] := by simp [relabel, ha]
      rw [hempty] at hmem
      exact Option.eq_none_iff_forall_ne_some.mpr fun t ht => (hmem t).mp ht
  | some t =>
      have hone : relabel label [(a, true)] = [(t, true)] := by simp [relabel, ha]
      rw [hone, heldAfter_press] at hmem
      exact (hmem t).mpr rfl

/-- **Labels simulate** exactly when they go by the name. -/
theorem simulation_iff_labelsByName : Simulation name label allowed ↔
    LabelsByName name label allowed := by
  classical
  constructor
  · rintro ⟨ι, hapart, hsimulates⟩ a ha b hb
    have hla := label_eq_of_simulation hsimulates ha
    have hlb := label_eq_of_simulation hsimulates hb
    refine ⟨fun hname => ?_, fun t hta htb => hapart (hla.trans hta) (hlb.trans htb)⟩
    rw [← hla, ← hlb, hname]
  · intro hnames
    -- a thing is labelled as one of its allowed events is
    let ι : κ → Option τ := fun k =>
      if h : ∃ a ∈ allowed, name a = k then label h.choose else none
    have hι : ∀ a ∈ allowed, ι (name a) = label a := by
      intro a ha
      have hex : ∃ b ∈ allowed, name b = name a := ⟨a, ha, rfl⟩
      obtain ⟨hb, hname⟩ := hex.choose_spec
      rw [show ι (name a) = label hex.choose from dif_pos hex]
      exact (hnames _ hb a ha).1 hname
    have hsome : ∀ {k t}, ι k = some t → ∃ a ∈ allowed, name a = k ∧ label a = some t := by
      intro k t hk
      by_cases hex : ∃ a ∈ allowed, name a = k
      · obtain ⟨a, ha, rfl⟩ := hex
        exact ⟨a, ha, rfl, (hι a ha).symm.trans hk⟩
      · rw [show ι k = none from dif_neg hex] at hk
        cases hk
    have hapart : TellsApart ι := by
      intro k l t hk hl
      obtain ⟨a, ha, rfl, hla⟩ := hsome hk
      obtain ⟨b, hb, rfl, hlb⟩ := hsome hl
      exact (hnames a ha b hb).2 t hla hlb
    refine ⟨ι, hapart, fun events hallowed => ?_⟩
    have hrelabel : relabel label events = relabel ι (events.map fun e => (name e.1, e.2)) := by
      rw [relabel, relabel, List.filterMap_map]
      refine List.filterMap_congr fun e he => ?_
      rw [Function.comp_apply, hι _ (hallowed e he)]
    have hempty : labels ι ∅ = ∅ := Set.eq_empty_of_forall_notMem fun _ ⟨_, hk, _⟩ => hk
    rw [hrelabel, ← heldAfter_relabel hapart, hempty]

end Simulation

end BrowCast
