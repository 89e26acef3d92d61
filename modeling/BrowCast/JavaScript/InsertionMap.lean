import Mathlib.Data.List.Nodup

/-! # JavaScript `Map`: finite maps in insertion order

`InsertionMap κ ν` is the `Map` of the language: at most one entry a key, iterated in the order in
which the keys were first inserted. Setting a present key overwrites in place; setting a fresh key
appends; deleting a key keeps the order of the others. (Mathlib's `AList` inserts at the front and
moves a key that is set again, so its order is not the one `forEach` visits.) -/

namespace BrowCast

/-- A finite map as its entries in insertion order, at most one for each key. -/
@[ext] structure InsertionMap (κ ν : Type*) where
  /-- The entries, oldest key first. -/
  entries : List (κ × ν)
  /-- No key occurs twice. -/
  nodup : (entries.map Prod.fst).Nodup

namespace InsertionMap

variable {κ ν : Type*}

/-- `new Map()`. -/
def empty : InsertionMap κ ν := ⟨[], List.nodup_nil⟩

/-- `map.values()`, in the order `forEach` visits them. -/
def values (m : InsertionMap κ ν) : List ν := m.entries.map Prod.snd

/-- `map.size`. -/
def size (m : InsertionMap κ ν) : ℕ := m.entries.length

variable [DecidableEq κ]

/-- `map.get(k)`, with `none` for `undefined`. -/
def get? (m : InsertionMap κ ν) (k : κ) : Option ν :=
  (m.entries.find? fun e => e.1 = k).map Prod.snd

/-- `map.has(k)`. -/
def has (m : InsertionMap κ ν) (k : κ) : Bool := (m.get? k).isSome

/-- The entries with the value at `k` overwritten. -/
def overwrite (es : List (κ × ν)) (k : κ) (v : ν) : List (κ × ν) :=
  es.map fun e => if e.1 = k then (e.1, v) else e

/-- Overwriting keeps the keys and their order. -/
theorem map_fst_overwrite (es : List (κ × ν)) (k : κ) (v : ν) :
    (overwrite es k v).map Prod.fst = es.map Prod.fst := by
  rw [overwrite, List.map_map]
  refine List.map_congr_left fun e _ => ?_
  by_cases h : e.1 = k <;> simp [h]

/-- A key has no value exactly when it is not there. -/
theorem get?_eq_none_iff (m : InsertionMap κ ν) (k : κ) :
    m.get? k = none ↔ k ∉ m.entries.map Prod.fst := by
  simp only [get?, Option.map_eq_none_iff, List.find?_eq_none, decide_eq_true_eq, List.mem_map,
    Prod.exists, exists_and_right, exists_eq_right, not_exists, Prod.forall]
  exact ⟨fun h v hv => h k v hv rfl, fun h a b hab hak => h b (hak ▸ hab)⟩

/-- `map.set(k, v)`: overwrite in place when the key is there, append otherwise. -/
def set (m : InsertionMap κ ν) (k : κ) (v : ν) : InsertionMap κ ν :=
  if h : m.get? k = none then
    ⟨m.entries ++ [(k, v)], by
      have hk := (m.get?_eq_none_iff k).mp h
      rw [List.map_append]
      exact m.nodup.append (List.nodup_singleton k) (by simpa using hk)⟩
  else ⟨overwrite m.entries k v, by rw [map_fst_overwrite]; exact m.nodup⟩

/-- `map.delete(k)`. -/
def delete (m : InsertionMap κ ν) (k : κ) : InsertionMap κ ν :=
  ⟨m.entries.filter fun e => e.1 ≠ k,
    m.nodup.sublist (List.filter_sublist.map Prod.fst)⟩

/-! ## Reading after writing -/

/-- An entry is in the list exactly when its key reads its value. -/
theorem mem_entries_iff (m : InsertionMap κ ν) (k : κ) (v : ν) :
    (k, v) ∈ m.entries ↔ m.get? k = some v := by
  obtain ⟨es, hes⟩ := m
  simp only [get?]
  -- `find?` stops at the first entry with the key, and no later one has it
  induction es with
  | nil => simp
  | cons e es ih =>
      obtain ⟨a, b⟩ := e
      rw [List.map_cons, List.nodup_cons] at hes
      rw [List.mem_cons, List.find?_cons]
      by_cases hak : a = k
      · subst hak
        have hnot : (a, v) ∉ es := fun h => hes.1 (List.mem_map.mpr ⟨(a, v), h, rfl⟩)
        simp [hnot, eq_comm]
      · have hka : k ≠ a := fun h => hak h.symm
        simp [hak, hka, ih hes.2]

/-- The values are those that some key has. -/
theorem mem_values_iff (m : InsertionMap κ ν) (v : ν) :
    v ∈ m.values ↔ ∃ k, m.get? k = some v := by
  simp only [values, List.mem_map, Prod.exists, exists_eq_right, mem_entries_iff]

/-- A key that was set has its new value. -/
theorem get?_set_self (m : InsertionMap κ ν) (k : κ) (v : ν) : (m.set k v).get? k = some v := by
  rw [← mem_entries_iff, set]
  split
  · simp
  · rename_i h
    obtain ⟨w, hw⟩ := Option.ne_none_iff_exists'.mp h
    rw [← mem_entries_iff] at hw
    exact List.mem_map.mpr ⟨(k, w), hw, by simp⟩

/-- Setting a key leaves the others. -/
theorem get?_set_of_ne (m : InsertionMap κ ν) {k l : κ} (h : l ≠ k) (v : ν) :
    (m.set k v).get? l = m.get? l := by
  refine Option.ext fun w => ?_
  rw [← mem_entries_iff, ← mem_entries_iff, set]
  split
  · -- `k` is fresh: its entry is appended
    simp [h]
  · -- `k` is present: its entry is overwritten where it stands
    simp only [overwrite, List.mem_map, Prod.exists]
    constructor
    · rintro ⟨a, b, hab, heq⟩
      by_cases hak : a = k
      · rw [if_pos hak] at heq
        exact absurd ((Prod.mk.inj heq).1 ▸ hak) h
      · rw [if_neg hak] at heq
        exact heq ▸ hab
    · intro hl
      exact ⟨l, w, hl, if_neg h⟩

/-- What a map holds after a key was set. -/
theorem get?_set (m : InsertionMap κ ν) (k l : κ) (v : ν) :
    (m.set k v).get? l = if l = k then some v else m.get? l := by
  by_cases h : l = k
  · subst h; rw [if_pos rfl, get?_set_self]
  · rw [if_neg h, get?_set_of_ne m h]

/-- What a map holds after a key was deleted. -/
theorem get?_delete (m : InsertionMap κ ν) (k l : κ) :
    (m.delete k).get? l = if l = k then none else m.get? l := by
  refine Option.ext fun w => ?_
  rw [← mem_entries_iff, delete]
  by_cases h : l = k <;> simp [h, mem_entries_iff]

/-- A map is empty when no key has a value. -/
theorem size_eq_zero_iff (m : InsertionMap κ ν) : m.size = 0 ↔ ∀ k, m.get? k = none := by
  rw [size, List.length_eq_zero_iff]
  constructor
  · intro h k; simp [get?, h]
  · intro h
    apply List.eq_nil_iff_forall_not_mem.mpr
    rintro ⟨k, v⟩ hkv
    rw [mem_entries_iff, h k] at hkv
    cases hkv

/-- Values that determine their keys occur once. -/
theorem nodup_values {m : InsertionMap κ ν}
    (h : ∀ k l v, m.get? k = some v → m.get? l = some v → k = l) : m.values.Nodup := by
  refine (List.Nodup.of_map Prod.fst m.nodup).map_on ?_
  rintro ⟨k, v⟩ hk ⟨l, w⟩ hl (rfl : v = w)
  rw [mem_entries_iff] at hk hl
  rw [h k l v hk hl]

/-- Setting a key leaves the map as it is exactly when the key already has that value. -/
theorem set_eq_self_iff (m : InsertionMap κ ν) (k : κ) (v : ν) :
    m.set k v = m ↔ m.get? k = some v := by
  constructor
  · intro h
    rw [← h, get?_set_self]
  · intro h
    have hpresent : m.get? k ≠ none := by rw [h]; simp
    -- the only entry that could change is the one at `k`, and it already has the value
    have hsame : ∀ e ∈ m.entries, (if e.1 = k then (e.1, v) else e) = e := by
      rintro ⟨l, w⟩ he
      by_cases hl : l = k
      · subst hl
        have hw := (m.mem_entries_iff l w).mp he
        rw [h] at hw
        simp [Option.some.inj hw]
      · simp [hl]
    ext1
    rw [set, dif_neg hpresent]
    exact (List.map_congr_left hsame).trans (List.map_id' _)

end InsertionMap

end BrowCast
