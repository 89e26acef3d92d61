import Mathlib.Data.List.Basic
import Mathlib.Data.List.Forall2

/-! # Channels

A channel that loses nothing and keeps the order, described by the records of its two ends: what was
put in, and what was taken out so far. Records only grow, and what was taken out is a prefix of what
was put in (`<+:`); the next entry is the one at the position that the number of those taken out
says. An entry that is relayed from one channel to another shows in the record of the second, so
that end to end the records are subsequences of each other (`<+`). -/

namespace BrowCast

variable {A B : Type*}

/-- Taking out the next entry leaves a prefix. -/
theorem prefix_concat_of_next {sent taken : List A} {a : A} (h : taken <+: sent)
    (hnext : sent[taken.length]? = some a) : taken ++ [a] <+: sent := by
  obtain ⟨rest, rfl⟩ := h
  rw [List.getElem?_append_right (Nat.le_refl _), Nat.sub_self] at hnext
  cases rest with
  | nil => cases hnext
  | cons b rest =>
      obtain rfl : b = a := Option.some.inj hnext
      exact ⟨rest, by rw [List.append_assoc, List.singleton_append]⟩

/-- What has not been taken out yet starts with the next entry. -/
theorem drop_eq_cons_of_next {sent : List A} {n : ℕ} {a : A} (hnext : sent[n]? = some a) :
    sent.drop n = a :: sent.drop (n + 1) := by
  obtain ⟨hlt, rfl⟩ := List.getElem?_eq_some_iff.mp hnext
  exact List.drop_eq_getElem_cons hlt

/-- Up to the next entry. -/
theorem take_succ_of_next {sent : List A} {n : ℕ} {a : A} (hnext : sent[n]? = some a) :
    sent.take (n + 1) = sent.take n ++ [a] := by
  rw [List.take_add_one, hnext, Option.toList_some]

section Copies

variable {C : Type*} {R : A → B → Prop} {copies : List A} {origins : List B}

/-- What is read off copies is what is read off what they are copies of. -/
theorem filterMap_eq_of_forall₂ {f : A → Option C} {g : B → Option C}
    (h : List.Forall₂ R copies origins) (hfg : ∀ a b, R a b → f a = g b) :
    copies.filterMap f = origins.filterMap g := by
  induction h with
  | nil => rfl
  | cons hab _ ih => rw [List.filterMap_cons, List.filterMap_cons, hfg _ _ hab, ih]

/-- Everything that was copied has a copy. -/
theorem exists_copy_of_forall₂ (h : List.Forall₂ R copies origins) {b : B} (hb : b ∈ origins) :
    ∃ a ∈ copies, R a b := by
  induction h with
  | nil => cases hb
  | cons hab _ ih =>
      rcases List.mem_cons.mp hb with rfl | hb
      · exact ⟨_, List.mem_cons_self, hab⟩
      · obtain ⟨a, ha, hR⟩ := ih hb
        exact ⟨a, List.mem_cons_of_mem _ ha, hR⟩

/-- Every copy is one of something. -/
theorem exists_origin_of_forall₂ (h : List.Forall₂ R copies origins) {a : A} (ha : a ∈ copies) :
    ∃ b ∈ origins, R a b :=
  exists_copy_of_forall₂ h.flip ha

end Copies

/-- The entries of a record that come from one source. -/
def fromSource {S : Type*} [DecidableEq S] (s : S) (record : List (S × A)) : List A :=
  record.filterMap fun f => if f.1 = s then some f.2 else none

section Sources

variable {S : Type*} [DecidableEq S] (s : S)

/-- An empty record holds nothing of any source. -/
@[simp] theorem fromSource_nil : fromSource s ([] : List (S × A)) = [] := rfl

/-- What comes from a source, part by part of the record. -/
theorem fromSource_append (record more : List (S × A)) :
    fromSource s (record ++ more) = fromSource s record ++ fromSource s more :=
  List.filterMap_append

/-- A record of one entry holds it for its own source. -/
theorem fromSource_singleton (f : S × A) :
    fromSource s [f] = if f.1 = s then [f.2] else [] := by
  by_cases h : f.1 = s <;> simp [fromSource, h]

/-- What comes from a source are its entries in the record. -/
theorem mem_fromSource {record : List (S × A)} {a : A} :
    a ∈ fromSource s record ↔ (s, a) ∈ record := by
  simp [fromSource, List.mem_filterMap, Prod.exists]

/-- A relay that has passed on a subsequence of what a source sent still has when another entry of
the source is received, and passed on or not. -/
theorem relay_sublist {passed : List A} {received : List A} {more : List (S × A)} {a : A}
    (h : passed.Sublist received) (hmore : more = [] ∨ more = [(s, a)]) :
    (passed ++ fromSource s more).Sublist (received ++ [a]) := by
  rcases hmore with rfl | rfl
  · rw [fromSource_nil, List.append_nil]
    exact h.trans (List.sublist_append_left _ _)
  · rw [fromSource_singleton, if_pos rfl]
    exact h.append (List.Sublist.refl _)

end Sources

end BrowCast
