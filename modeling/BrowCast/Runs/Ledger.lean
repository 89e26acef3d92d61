import Mathlib.Data.List.Nodup
import Mathlib.Data.Nat.Notation

/-! # Ledgers of handles

A **ledger** hands out handles, each once, and records which of them are live and in which order
they were freed.

* **`Held`** and **`Settled`** — a handle is live, or it was freed exactly once. What is done to
  other handles does not matter.
* **`nested`** — handles that are freed in the reverse order of their acquisition. All of them are
  settled exactly when every one is freed (`settled_nested_iff`), and the number of live handles
  grows by those that are not (`length_live_nested`). -/

namespace BrowCast

/-- The handles handed out so far are those below `next`. -/
structure Ledger where
  next : ℕ
  live : List ℕ
  freed : List ℕ
  live_nodup : live.Nodup
  live_lt : ∀ h ∈ live, h < next
  freed_lt : ∀ h ∈ freed, h < next

namespace Ledger

/-- No handle was handed out. -/
def empty : Ledger where
  next := 0
  live := []
  freed := []
  live_nodup := List.nodup_nil
  live_lt := by simp
  freed_lt := by simp

/-- Hand out the next handle. -/
def acquire (l : Ledger) : Ledger where
  next := l.next + 1
  live := l.next :: l.live
  freed := l.freed
  live_nodup :=
    List.nodup_cons.mpr ⟨fun h => absurd (l.live_lt _ h) (Nat.lt_irrefl _), l.live_nodup⟩
  live_lt := by
    intro h hmem
    rcases List.mem_cons.mp hmem with rfl | hmem
    · exact Nat.lt_succ_self _
    · exact Nat.lt_succ_of_lt (l.live_lt h hmem)
  freed_lt h hmem := Nat.lt_succ_of_lt (l.freed_lt h hmem)

/-- Free a handle, if it is live. -/
def free (l : Ledger) (h : ℕ) : Ledger :=
  if hlive : h ∈ l.live then {
    next := l.next
    live := l.live.erase h
    freed := l.freed ++ [h]
    live_nodup := l.live_nodup.erase h
    live_lt := fun k hk => l.live_lt k (List.mem_of_mem_erase hk)
    freed_lt := by
      intro k hk
      rcases List.mem_append.mp hk with hk | hk
      · exact l.freed_lt k hk
      · exact List.mem_singleton.mp hk ▸ l.live_lt h hlive }
  else l

/-- Free a handle, if the condition holds. -/
def freeIf (l : Ledger) (c : Bool) (h : ℕ) : Ledger := if c then l.free h else l

/-- The handle is live, and has not been freed. -/
structure Held (l : Ledger) (h : ℕ) : Prop where
  live : h ∈ l.live
  notFreed : h ∉ l.freed

/-- The handle has been freed exactly once, and is not live. -/
structure Settled (l : Ledger) (h : ℕ) : Prop where
  notLive : h ∉ l.live
  once : l.freed.count h = 1

variable {l : Ledger} {h k : ℕ} {c : Bool}

/-- A handle that is held is not settled. -/
theorem Held.not_settled (hheld : l.Held h) : ¬ l.Settled h :=
  fun hsettled => hsettled.notLive hheld.live

/-! ## Handing out -/

/-- A handle that was just handed out is held. -/
theorem held_acquire (l : Ledger) : l.acquire.Held l.next where
  live := List.mem_cons_self
  notFreed hmem := absurd (l.freed_lt _ hmem) (Nat.lt_irrefl _)

/-- Handing out another handle keeps the first one held. -/
theorem Held.acquire (hheld : l.Held h) : l.acquire.Held h :=
  ⟨List.mem_cons_of_mem _ hheld.live, hheld.notFreed⟩

/-- A handle that is held was handed out. -/
theorem Held.lt (hheld : l.Held h) : h < l.next := l.live_lt h hheld.live

/-! ## Freeing -/

/-- Freeing hands out nothing. -/
@[simp] theorem next_freeIf (l : Ledger) (c : Bool) (h : ℕ) : (l.freeIf c h).next = l.next := by
  unfold freeIf free
  split
  · split <;> rfl
  · rfl

/-- A held handle that is freed is settled. -/
theorem Held.settled_free (hheld : l.Held h) : (l.free h).Settled h := by
  rw [free, dif_pos hheld.live]
  refine ⟨fun hmem => ?_, ?_⟩
  · exact ((l.live_nodup.mem_erase_iff).mp hmem).1 rfl
  · rw [List.count_append, List.count_eq_zero_of_not_mem hheld.notFreed, List.count_singleton_self]

/-- A handle that is held is settled when it is freed. -/
theorem Held.settled_freeIf_iff (hheld : l.Held h) : (l.freeIf c h).Settled h ↔ c = true := by
  cases c with
  | true => exact iff_of_true hheld.settled_free rfl
  | false => exact iff_of_false hheld.not_settled Bool.false_ne_true

/-- Freeing other handles leaves a handle as it is. -/
theorem held_freeIf_iff (hne : h ≠ k) : (l.freeIf c k).Held h ↔ l.Held h := by
  unfold freeIf free
  split
  · split
    · constructor
      · rintro ⟨hlive, hnot⟩
        exact ⟨(List.mem_erase_of_ne hne).mp hlive, fun hmem => hnot (List.mem_append_left _ hmem)⟩
      · rintro ⟨hlive, hnot⟩
        refine ⟨(List.mem_erase_of_ne hne).mpr hlive, fun hmem => ?_⟩
        rcases List.mem_append.mp hmem with hmem | hmem
        · exact hnot hmem
        · exact hne (List.mem_singleton.mp hmem)
    · exact Iff.rfl
  · exact Iff.rfl

/-- Freeing another handle does not settle this one. -/
theorem settled_freeIf_iff (hne : h ≠ k) : (l.freeIf c k).Settled h ↔ l.Settled h := by
  have hcount : [k].count h = 0 := by
    rw [List.count_eq_zero, List.mem_singleton]
    exact hne
  unfold freeIf free
  split
  · split
    · constructor
      · rintro ⟨hlive, honce⟩
        rw [List.count_append, hcount] at honce
        exact ⟨fun hmem => hlive ((List.mem_erase_of_ne hne).mpr hmem), honce⟩
      · rintro ⟨hlive, honce⟩
        refine ⟨fun hmem => hlive ((List.mem_erase_of_ne hne).mp hmem), ?_⟩
        rw [List.count_append, hcount]
        exact honce
    · exact Iff.rfl
  · exact Iff.rfl

/-! ## How many are live -/

/-- Handing out adds one live handle. -/
theorem length_live_acquire (l : Ledger) : l.acquire.live.length = l.live.length + 1 := rfl

/-- Freeing a handle that is held takes one live handle away. -/
theorem Held.length_live_freeIf (hheld : l.Held h) :
    (l.freeIf c h).live.length + (if c then 1 else 0) = l.live.length := by
  cases c with
  | false => rfl
  | true =>
      have hpos : 0 < l.live.length := List.length_pos_of_mem hheld.live
      simp only [freeIf, if_true, free, dif_pos hheld.live, List.length_erase_of_mem hheld.live]
      omega

/-! ## Nested acquisitions -/

/-- Acquire a handle for each entry, and free those whose entry says so, the last one first. -/
def nested : List Bool → Ledger → Ledger
  | [], l => l
  | c :: cs, l => (nested cs l.acquire).freeIf c l.next

/-- Nested acquisitions hand out one handle for each entry. -/
@[simp] theorem next_nested (cs : List Bool) (l : Ledger) :
    (nested cs l).next = l.next + cs.length := by
  induction cs generalizing l with
  | nil => rfl
  | cons c cs ih =>
      rw [nested, next_freeIf, ih, List.length_cons]
      simp only [acquire]
      omega

/-- The handles of before stay as they are. -/
theorem Held.nested (hheld : l.Held h) (cs : List Bool) : (l.nested cs).Held h := by
  induction cs generalizing l with
  | nil => exact hheld
  | cons c cs ih =>
      have hne : h ≠ l.next := Nat.ne_of_lt hheld.lt
      exact (held_freeIf_iff hne).mpr (ih hheld.acquire)

/-- **Every handle is settled** exactly when every one is freed. -/
theorem settled_nested_iff (cs : List Bool) (l : Ledger) :
    (∀ h, l.next ≤ h → h < (nested cs l).next → (nested cs l).Settled h) ↔ ∀ c ∈ cs, c = true := by
  induction cs generalizing l with
  | nil =>
      refine iff_of_true (fun h hle hlt => ?_) (by simp)
      exact absurd hlt (Nat.not_lt.mpr hle)
  | cons c cs ih =>
      have hfirst : (nested cs l.acquire).Held l.next := (held_acquire l).nested cs
      rw [List.forall_mem_cons, ← ih l.acquire, ← hfirst.settled_freeIf_iff (c := c)]
      -- the first handle, and those of the rest
      constructor
      · intro h
        refine ⟨h l.next (Nat.le_refl _) (by simp), fun k hle hlt => ?_⟩
        have hne : k ≠ l.next := Nat.ne_of_gt hle
        exact (settled_freeIf_iff hne).mp
          (h k (Nat.le_of_succ_le hle) (by rwa [nested, next_freeIf]))
      · rintro ⟨hnext, hrest⟩ k hle hlt
        rcases Nat.eq_or_lt_of_le hle with rfl | hgt
        · exact hnext
        · rw [nested, next_freeIf] at hlt
          exact (settled_freeIf_iff (Nat.ne_of_gt hgt)).mpr (hrest k hgt hlt)

/-- The number of live handles grows by those that are not freed. -/
theorem length_live_nested (cs : List Bool) (l : Ledger) :
    (nested cs l).live.length = l.live.length + cs.count false := by
  induction cs generalizing l with
  | nil => rfl
  | cons c cs ih =>
      have hfirst : (nested cs l.acquire).Held l.next := (held_acquire l).nested cs
      have hlength := hfirst.length_live_freeIf (c := c)
      rw [ih, length_live_acquire] at hlength
      rw [nested, List.count_cons]
      cases c with
      | true =>
          simp only [if_true] at hlength
          simp only [Bool.true_beq, Bool.false_eq_true, if_false]
          omega
      | false =>
          simp only [Bool.false_eq_true, if_false] at hlength
          simp only [Bool.false_beq, Bool.not_false, if_true]
          omega

/-! ## What is kept -/

/-- Exactly the handles `kept` are live, and every other one that was handed out has been freed
once. -/
structure Keeps (l : Ledger) (kept : List ℕ) : Prop where
  live : l.live = kept
  notFreed : ∀ h ∈ kept, h ∉ l.freed
  settled : ∀ h < l.next, h ∉ kept → l.Settled h

/-- At first nothing is kept. -/
theorem keeps_empty : empty.Keeps [] where
  live := rfl
  notFreed := by simp
  settled h hlt := absurd hlt (Nat.not_lt_zero h)

/-- A handle that was just handed out is kept. -/
theorem Keeps.acquire {kept : List ℕ} (hkeeps : l.Keeps kept) :
    l.acquire.Keeps (l.next :: kept) where
  live := congrArg _ hkeeps.live
  notFreed := by
    intro h hmem
    rcases List.mem_cons.mp hmem with rfl | hmem
    · exact (held_acquire l).notFreed
    · exact hkeeps.notFreed h hmem
  settled := by
    intro h hlt hnot
    obtain ⟨hne, hkept⟩ := not_or.mp (mt List.mem_cons.mpr hnot)
    obtain ⟨hlive, honce⟩ := hkeeps.settled h (Nat.lt_of_le_of_ne (Nat.le_of_lt_succ hlt) hne) hkept
    exact ⟨fun hmem => (List.mem_cons.mp hmem).elim hne hlive, honce⟩

/-- Freeing the handle that was handed out last. -/
theorem Keeps.free {kept : List ℕ} (hkeeps : l.Keeps (h :: kept)) : (l.free h).Keeps kept := by
  have hheld : l.Held h := by
    refine ⟨?_, hkeeps.notFreed h List.mem_cons_self⟩
    rw [hkeeps.live]
    exact List.mem_cons_self
  have hnodup : (h :: kept).Nodup := hkeeps.live ▸ l.live_nodup
  have hfresh : h ∉ kept := (List.nodup_cons.mp hnodup).1
  have hfree : l.free h = l.freeIf true h := rfl
  refine ⟨?_, ?_, ?_⟩
  · rw [Ledger.free, dif_pos hheld.live]
    simp only [hkeeps.live, List.erase_cons_head]
  · intro k hk
    have hne : k ≠ h := fun heq => hfresh (heq ▸ hk)
    have hkheld : l.Held k := by
      refine ⟨?_, hkeeps.notFreed k (List.mem_cons_of_mem h hk)⟩
      rw [hkeeps.live]
      exact List.mem_cons_of_mem h hk
    exact ((held_freeIf_iff (c := true) hne).mpr hkheld).notFreed
  · intro k hlt hnot
    by_cases hne : k = h
    · subst hne
      exact hheld.settled_free
    · rw [hfree, next_freeIf] at hlt
      refine (settled_freeIf_iff (c := true) hne).mpr (hkeeps.settled k hlt fun hmem => ?_)
      exact (List.mem_cons.mp hmem).elim hne hnot

end Ledger

end BrowCast
