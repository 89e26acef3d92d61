import BrowCast.Runs.WhileLoop
import Mathlib.Data.List.Basic

/-! # Readers that work in stages

A reader takes a stream apart in stages. Each stage lacks a number of bytes and takes in what there
is of them; one that lacks nothing is ended, and the reader goes on to the next, until a message is
ready. The stream comes in parts, of whatever size the transport chooses.

* `consume_append` — reading up to the first message does not depend on where the parts end.
* `receiveAll_eq` — neither do all the messages that the parts yield, nor how the reading ends. -/

namespace BrowCast

/-- A reader with states `P`, bytes `B`, messages `M` and errors `ε`. -/
structure StagedReader (P B M ε : Type*) where
  /-- How many bytes the stage lacks. -/
  needed : P → ℕ
  ready : P → Bool
  /-- Takes in bytes, no more than the stage lacks. -/
  absorb : P → List B → Except ε P
  /-- Ends a stage that lacks nothing. -/
  finish : P → Except ε P
  /-- Hands over the message that is ready. -/
  take : P → M × P

/-- The messages that reading has yielded, and how it ended. -/
abbrev Reading (P M ε : Type*) := List M × Except ε P

/-- Reading that goes on where it has not failed. -/
def Reading.andThen {P M ε : Type*} (x : Reading P M ε) (f : P → Reading P M ε) : Reading P M ε :=
  match x.2 with
  | .error _ => x
  | .ok p => (x.1 ++ (f p).1, (f p).2)

section Readings

variable {P M ε : Type*}

/-- Where nothing was read yet, reading goes on as it is. -/
theorem Reading.nil_andThen (p : P) (f : P → Reading P M ε) :
    Reading.andThen ([], .ok p) f = f p := rfl

/-- Reading on is associative. -/
theorem Reading.andThen_assoc (x : Reading P M ε) (f g : P → Reading P M ε) :
    (x.andThen f).andThen g = x.andThen fun p => (f p).andThen g := by
  obtain ⟨ms, e | p⟩ := x
  · rfl
  · unfold Reading.andThen
    simp only
    rcases f p with ⟨ms', e | p'⟩
    · rfl
    · simp only [List.append_assoc]

end Readings

namespace StagedReader

variable {P B M ε : Type*} (r : StagedReader P B M ε)

/-- There is something to do: bytes to take in, or a stage to end. -/
def wants (s : P × List B) : Bool := !r.ready s.1 && (!s.2.isEmpty || r.needed s.1 = 0)

/-- Takes in what there is, and ends the stage if it lacks nothing more. -/
def pass (s : P × List B) : Except ε (P × List B) :=
  (r.absorb s.1 (s.2.take (r.needed s.1))).bind fun p =>
    if 0 < r.needed p then .ok (p, s.2.drop (r.needed s.1))
    else (r.finish p).map fun p' => (p', s.2.drop (r.needed s.1))

/-- What a reader has to do: `Good` holds of its states, and `rank` tells how many stages in a row
may lack nothing. -/
structure Lawful (Good : P → Prop) (rank : P → ℕ) (maxRank : ℕ) : Prop where
  rank_le : ∀ p, rank p ≤ maxRank
  absorb_nil : ∀ p, Good p → r.absorb p [] = .ok p
  absorb_append : ∀ p xs ys, Good p → xs.length + ys.length ≤ r.needed p →
    r.absorb p (xs ++ ys) = (r.absorb p xs).bind (r.absorb · ys)
  absorb_ok : ∀ p p' xs, Good p → r.ready p = false → xs.length ≤ r.needed p →
    r.absorb p xs = .ok p' →
      Good p' ∧ r.ready p' = false ∧ r.needed p' = r.needed p - xs.length ∧ rank p' = rank p
  finish_ok : ∀ p p', Good p → r.ready p = false → r.needed p = 0 → r.finish p = .ok p' →
    Good p' ∧ (r.ready p' = true ∨ 0 < r.needed p' ∨ rank p' < rank p)
  take_ok : ∀ p, Good p → r.ready p = true →
    Good (r.take p).2 ∧ r.ready (r.take p).2 = false ∧ 0 < r.needed (r.take p).2

/-- Reads up to the first message, in at most `fuel` passes. -/
def consume (fuel : ℕ) (p : P) (buf : List B) : Except ε (P × List B) :=
  WhileLoop.run r.wants r.pass fuel (p, buf)

/-- As many passes as a buffer may take. -/
def enough (maxRank length : ℕ) : ℕ := (length + 1) * (maxRank + 2)

/-- Reads a buffer to its end. -/
def receive (maxRank : ℕ) : ℕ → P → List B → Reading P M ε
  | 0, p, _ => ([], .ok p)
  | fuel + 1, p, buf =>
      if buf.isEmpty then ([], .ok p)
      else match r.consume (enough maxRank buf.length) p buf with
        | .error e => ([], .error e)
        | .ok (p', rest) =>
            if r.ready p' then
              Reading.andThen ([(r.take p').1], .ok (r.take p').2)
                fun p'' => receive maxRank fuel p'' rest
            else receive maxRank fuel p' rest

/-- What reading a buffer yields after a call of `consume`. -/
def onward (maxRank : ℕ) : Except ε (P × List B) → Reading P M ε
  | .error e => ([], .error e)
  | .ok (p, rest) =>
      if r.ready p then
        Reading.andThen ([(r.take p).1], .ok (r.take p).2)
          fun p' => r.receive maxRank rest.length p' rest
      else ([], .ok p)

variable {r} {Good : P → Prop} {rank : P → ℕ} {maxRank : ℕ}

/-- There is something to do unless a message is ready, or the bytes are used up and the stage lacks
some. -/
theorem wants_iff {p : P} {buf : List B} :
    r.wants (p, buf) = true ↔ r.ready p = false ∧ (buf ≠ [] ∨ r.needed p = 0) := by
  simp [wants]

/-- How many stages may lack nothing from now on. -/
def stages (r : StagedReader P B M ε) (rank : P → ℕ) (p : P) : ℕ :=
  if r.ready p = true ∨ 0 < r.needed p then 0 else rank p + 1

/-- The loop's rank: the bytes that are left, and the stages that lack nothing. -/
def loopRank (r : StagedReader P B M ε) (rank : P → ℕ) (maxRank : ℕ) (s : P × List B) : ℕ :=
  s.2.length * (maxRank + 2) + r.stages rank s.1

/-- The stages in a row that lack nothing are bounded. -/
theorem Lawful.stages_le (h : r.Lawful Good rank maxRank) (p : P) :
    r.stages rank p ≤ maxRank + 1 := by
  have hle := h.rank_le p
  unfold stages
  split_ifs <;> omega

/-- The fuel is more than the loop's rank. -/
theorem Lawful.loopRank_lt (h : r.Lawful Good rank maxRank) (p : P) (buf : List B) :
    r.loopRank rank maxRank (p, buf) < enough maxRank buf.length := by
  have hle := h.stages_le p
  show buf.length * (maxRank + 2) + r.stages rank p < (buf.length + 1) * (maxRank + 2)
  rw [Nat.succ_mul]
  omega

/-- What a pass can do: the bytes do not fill the stage, or they do and it is ended. -/
theorem Lawful.pass_ok (h : r.Lawful Good rank maxRank) {p p' : P} {buf rest : List B}
    (hp : Good p) (hready : r.ready p = false) (hpass : r.pass (p, buf) = .ok (p', rest)) :
    rest = buf.drop (r.needed p) ∧ Good p' ∧
      (buf.length < r.needed p ∧ r.ready p' = false ∧ 0 < r.needed p' ∨
        r.needed p ≤ buf.length ∧
          (r.ready p' = true ∨ 0 < r.needed p' ∨ rank p' < rank p)) := by
  have htake : (buf.take (r.needed p)).length = min (r.needed p) buf.length := List.length_take
  unfold pass at hpass
  cases habsorb : r.absorb p (buf.take (r.needed p)) with
  | error e =>
      rw [habsorb] at hpass
      exact nomatch hpass
  | ok q =>
      obtain ⟨hq, hqready, hqneeded, hqrank⟩ :=
        h.absorb_ok p q _ hp hready (by omega) habsorb
      rw [habsorb] at hpass
      simp only [Except.bind] at hpass
      split_ifs at hpass with hpos
      · cases hpass
        exact ⟨rfl, hq, .inl ⟨by omega, hqready, hpos⟩⟩
      · cases hfinish : r.finish q with
        | error e =>
            rw [hfinish] at hpass
            exact nomatch hpass
        | ok q' =>
            rw [hfinish] at hpass
            cases hpass
            obtain ⟨hq', hnext⟩ := h.finish_ok q _ hq hqready (by omega) hfinish
            rw [hqrank] at hnext
            exact ⟨rfl, hq', .inr ⟨by omega, hnext⟩⟩

/-- Every pass takes bytes in, or leads to a later stage. -/
theorem Lawful.descends (h : r.Lawful Good rank maxRank) (n : ℕ) :
    WhileLoop.Descends r.wants r.pass (fun s => Good s.1 ∧ s.2.length ≤ n)
      (r.loopRank rank maxRank) where
  pass := by
    rintro ⟨p, buf⟩ ⟨p', rest⟩ ⟨hp, hn⟩ hwants hpass
    simp only at hp hn
    obtain ⟨hready, hsome⟩ := wants_iff.mp hwants
    obtain ⟨rfl, hp', hcases⟩ := h.pass_ok hp hready hpass
    have hrest : (buf.drop (r.needed p)).length = buf.length - r.needed p := List.length_drop
    refine ⟨⟨hp', by simp only; omega⟩, ?_⟩
    have hle := h.stages_le p'
    show (buf.drop (r.needed p)).length * (maxRank + 2) + r.stages rank p' <
      buf.length * (maxRank + 2) + r.stages rank p
    by_cases hneeded : r.needed p = 0
    · -- nothing is taken in, and the next stage is a later one
      have hnow : r.stages rank p = rank p + 1 := by
        rw [stages, if_neg]
        rw [hready, hneeded]
        decide
      have hlater : r.stages rank p' < rank p + 1 := by
        unfold stages
        split_ifs with hnext
        · exact Nat.succ_pos _
        · rcases hcases with hcase | ⟨-, hcase⟩
          · omega
          · have hrank := hcase.resolve_left fun hr => hnext (.inl hr)
            have hrank := hrank.resolve_left fun hr => hnext (.inr hr)
            omega
      rw [hnow, hneeded, List.drop_zero]
      omega
    · have hpos : 0 < buf.length := List.length_pos_iff.mpr (hsome.resolve_right hneeded)
      have hfewer : ((buf.drop (r.needed p)).length + 1) * (maxRank + 2) ≤
          buf.length * (maxRank + 2) := Nat.mul_le_mul_right _ (by omega)
      rw [Nat.succ_mul] at hfewer
      omega

/-! ## Up to the first message -/

section Consume

variable (h : r.Lawful Good rank maxRank) {p p' : P} {buf rest : List B} {fuel : ℕ}

include h

/-- More fuel than enough changes nothing. -/
theorem Lawful.consume_eq (hp : Good p) {fuel' : ℕ} (hfuel : enough maxRank buf.length ≤ fuel)
    (hfuel' : enough maxRank buf.length ≤ fuel') :
    r.consume fuel p buf = r.consume fuel' p buf := by
  have hrank := h.loopRank_lt p buf
  exact (h.descends buf.length).run_eq ⟨hp, Nat.le_refl _⟩ (by omega) (by omega)

/-- One pass, and then the rest of the loop. -/
theorem Lawful.consume_pass (hp : Good p) (hfuel : enough maxRank buf.length ≤ fuel)
    (hwants : r.wants (p, buf) = true) : r.consume fuel p buf =
      (r.pass (p, buf)).bind fun s => r.consume fuel s.1 s.2 := by
  have hrank := h.loopRank_lt p buf
  exact (h.descends buf.length).run_pass ⟨hp, Nat.le_refl _⟩ (by omega) hwants

omit h in
/-- With nothing to do the loop ends at once. -/
theorem consume_of_not_wants (hwants : r.wants (p, buf) = false) :
    r.consume fuel p buf = .ok (p, buf) := WhileLoop.run_succ_of_not_wants hwants

/-- What is read, and what is left when the loop ends. -/
theorem Lawful.consume_ok (hp : Good p) (hfuel : enough maxRank buf.length ≤ fuel)
    (hconsume : r.consume fuel p buf = .ok (p', rest)) : Good p' ∧ rest.length ≤ buf.length ∧
      (r.ready p' = false → rest = [] ∧ 0 < r.needed p') := by
  have hrank := h.loopRank_lt p buf
  obtain ⟨⟨hp', hrest⟩, hends⟩ :=
    (h.descends buf.length).run_ok ⟨hp, Nat.le_refl _⟩ (by omega) hconsume
  refine ⟨hp', hrest, fun hready => ?_⟩
  have hnot : ¬ (rest ≠ [] ∨ r.needed p' = 0) := fun hsome => by
    rw [wants_iff.mpr ⟨hready, hsome⟩] at hends
    exact nomatch hends
  refine ⟨?_, ?_⟩
  · by_contra hne
    exact hnot (.inl hne)
  · by_contra hzero
    exact hnot (.inr (by omega))

omit h in
/-- A pass that fills its stage does not look at the bytes after it. -/
theorem pass_append_of_le {xs ys : List B} (hle : r.needed p ≤ xs.length) :
    r.pass (p, xs ++ ys) = (r.pass (p, xs)).map fun s => (s.1, s.2 ++ ys) := by
  unfold pass
  simp only
  rw [List.take_append_of_le_length hle, List.drop_append_of_le_length hle]
  cases r.absorb p (xs.take (r.needed p)) with
  | error e => rfl
  | ok q =>
      simp only [Except.bind]
      split_ifs
      · rfl
      · cases r.finish q <;> rfl

/-- One that does not only takes bytes in. -/
theorem Lawful.pass_of_lt (hp : Good p) (hready : r.ready p = false)
    (hlt : buf.length < r.needed p) :
    r.pass (p, buf) = (r.absorb p buf).map fun q => (q, []) := by
  unfold pass
  simp only
  rw [List.take_of_length_le (Nat.le_of_lt hlt), List.drop_eq_nil_of_le (Nat.le_of_lt hlt)]
  cases habsorb : r.absorb p buf with
  | error e => rfl
  | ok q =>
      obtain ⟨-, -, hneeded, -⟩ := h.absorb_ok p q _ hp hready (Nat.le_of_lt hlt) habsorb
      exact if_pos (by omega)

/-- The bytes after them can be taken in by another pass. -/
theorem Lawful.pass_append_of_lt (hp : Good p) (hready : r.ready p = false) {xs ys : List B}
    (hlt : xs.length < r.needed p) :
    r.pass (p, xs ++ ys) = (r.absorb p xs).bind fun q => r.pass (q, ys) := by
  have htake : (xs ++ ys).take (r.needed p) = xs ++ ys.take (r.needed p - xs.length) := by
    rw [List.take_append, List.take_of_length_le (Nat.le_of_lt hlt)]
  have hdrop : (xs ++ ys).drop (r.needed p) = ys.drop (r.needed p - xs.length) := by
    rw [List.drop_append, List.drop_eq_nil_of_le (Nat.le_of_lt hlt), List.nil_append]
  have hlength : xs.length + (ys.take (r.needed p - xs.length)).length ≤ r.needed p := by
    rw [List.length_take]
    omega
  unfold pass
  simp only
  rw [htake, hdrop, h.absorb_append p _ _ hp hlength]
  cases habsorb : r.absorb p xs with
  | error e => rfl
  | ok q =>
      obtain ⟨-, -, hneeded, -⟩ := h.absorb_ok p q _ hp hready (Nat.le_of_lt hlt) habsorb
      simp only [Except.bind, hneeded]

/-- A stage that lacks something takes in what comes. -/
theorem Lawful.pass_consume (hp : Good p) (hready : r.ready p = false) (hneeded : 0 < r.needed p)
    (hfuel : enough maxRank buf.length ≤ fuel) :
    ((r.pass (p, buf)).bind fun s => r.consume fuel s.1 s.2) = r.consume fuel p buf := by
  cases buf with
  | nil =>
      have hlt : ([] : List B).length < r.needed p := hneeded
      rw [h.pass_of_lt hp hready hlt, h.absorb_nil p hp]
      rfl
  | cons b buf => exact (h.consume_pass hp hfuel (wants_iff.mpr ⟨hready, .inl (by simp)⟩)).symm

/-- **Where a part ends does not matter**: reading goes on in the next part as if there were one. -/
theorem Lawful.consume_append (hp : Good p) (xs ys : List B)
    (hfuel : enough maxRank (xs.length + ys.length) ≤ fuel) :
    r.consume fuel p (xs ++ ys) = (r.consume fuel p xs).bind fun s =>
      if r.ready s.1 = true then .ok (s.1, s.2 ++ ys) else r.consume fuel s.1 ys := by
  have hmono : ∀ {m n : ℕ}, m ≤ n → enough maxRank m ≤ enough maxRank n := fun hmn =>
    Nat.mul_le_mul_right _ (by omega)
  induction hrank : r.loopRank rank maxRank (p, xs) using Nat.strongRecOn generalizing p xs with
  | ind n ih =>
      have hxs : enough maxRank xs.length ≤ fuel := Nat.le_trans (hmono (by omega)) hfuel
      have hys : enough maxRank ys.length ≤ fuel := Nat.le_trans (hmono (by omega)) hfuel
      have hboth : enough maxRank (xs ++ ys).length ≤ fuel := by rwa [List.length_append]
      by_cases hwants : r.wants (p, xs) = true
      · obtain ⟨hready, hsome⟩ := wants_iff.mp hwants
        have hwants' : r.wants (p, xs ++ ys) = true :=
          wants_iff.mpr ⟨hready, hsome.imp_left fun hne => List.append_ne_nil_of_left_ne_nil hne ys⟩
        rw [h.consume_pass hp hboth hwants', h.consume_pass hp hxs hwants]
        by_cases hle : r.needed p ≤ xs.length
        · rw [pass_append_of_le hle]
          cases hpass : r.pass (p, xs) with
          | error e => rfl
          | ok s =>
              obtain ⟨⟨hs, hlength⟩, hless⟩ :=
                (h.descends xs.length).pass _ s ⟨hp, Nat.le_refl _⟩ hwants hpass
              exact ih _ (hrank ▸ hless) hs s.2
                (Nat.le_trans (hmono (Nat.add_le_add_right hlength _)) hfuel) rfl
        · rw [h.pass_append_of_lt hp hready (by omega), h.pass_of_lt hp hready (by omega)]
          cases habsorb : r.absorb p xs with
          | error e => rfl
          | ok q =>
              obtain ⟨hq, hqready, hneeded, -⟩ :=
                h.absorb_ok p q _ hp hready (by omega) habsorb
              have hends : r.consume fuel q [] = .ok (q, []) :=
                consume_of_not_wants (by
                  rw [wants, hqready, decide_eq_false (by omega : ¬ r.needed q = 0)]
                  rfl)
              show ((r.pass (q, ys)).bind fun s => r.consume fuel s.1 s.2) =
                (r.consume fuel q []).bind _
              rw [h.pass_consume hq hqready (by omega) hys, hends]
              exact (if_neg (by rw [hqready]; decide)).symm
      · have hnot := Bool.eq_false_iff.mpr hwants
        rw [consume_of_not_wants hnot]
        show _ = if r.ready p = true then _ else _
        split_ifs with hready
        · exact consume_of_not_wants (by rw [wants, hready]; rfl)
        · have hnil : xs = [] := by
            by_contra hne
            exact hwants (wants_iff.mpr ⟨Bool.eq_false_iff.mpr hready, .inl hne⟩)
          rw [hnil, List.nil_append]

end Consume

/-! ## To the end of the stream -/

/-- Between two parts: no message is ready, and bytes are missing. -/
structure Waits (r : StagedReader P B M ε) (Good : P → Prop) (p : P) : Prop where
  good : Good p
  not_ready : r.ready p = false
  needed_pos : 0 < r.needed p

section Receive

variable (h : r.Lawful Good rank maxRank) {p : P} {fuel fuel' : ℕ}

include h

/-- A call of `consume` takes at least one byte, and what follows it waits again. -/
theorem Lawful.consume_waits (hp : r.Waits Good p) {p' : P} {buf rest : List B} (hbuf : buf ≠ [])
    (hconsume : r.consume (enough maxRank buf.length) p buf = .ok (p', rest)) :
    rest.length < buf.length ∧ (r.ready p' = true → r.Waits Good (r.take p').2) ∧
      (r.ready p' = false → rest = [] ∧ r.Waits Good p') := by
  have hwants := wants_iff.mpr ⟨hp.not_ready, Or.inl hbuf⟩
  rw [h.consume_pass hp.good (Nat.le_refl _) hwants] at hconsume
  cases hpass : r.pass (p, buf) with
  | error e =>
      rw [hpass] at hconsume
      exact nomatch hconsume
  | ok s =>
      obtain ⟨q, left⟩ := s
      rw [hpass] at hconsume
      obtain ⟨rfl, hq, -⟩ := h.pass_ok hp.good hp.not_ready hpass
      have hpos := hp.needed_pos
      have hbuf' := List.length_pos_iff.mpr hbuf
      have hleft : (buf.drop (r.needed p)).length = buf.length - r.needed p := List.length_drop
      have hfuel : enough maxRank (buf.drop (r.needed p)).length ≤ enough maxRank buf.length :=
        Nat.mul_le_mul_right _ (by omega)
      obtain ⟨hp', hrest, hends⟩ := h.consume_ok hq hfuel hconsume
      refine ⟨by omega, fun hready => ?_, fun hready => ?_⟩
      · obtain ⟨hgood, hnot, hneeded⟩ := h.take_ok p' hp' hready
        exact ⟨hgood, hnot, hneeded⟩
      · obtain ⟨hnil, hneeded⟩ := hends hready
        exact ⟨hnil, hp', hready, hneeded⟩

omit h in
/-- Without bytes a waiting reader stays as it is. -/
theorem consume_nil (hp : r.Waits Good p) (fuel : ℕ) :
    r.consume fuel p [] = .ok (p, []) := by
  have hpos := hp.needed_pos
  refine consume_of_not_wants ?_
  rw [wants, hp.not_ready, decide_eq_false (by omega : ¬ r.needed p = 0)]
  rfl

/-- One call of `consume` at a time. -/
theorem Lawful.receive_eq (hp : r.Waits Good p) {buf : List B} (hfuel : buf.length ≤ fuel) :
    r.receive maxRank fuel p buf =
      r.onward maxRank (r.consume (enough maxRank buf.length) p buf) := by
  induction fuel using Nat.strongRecOn generalizing p buf with
  | ind fuel ih =>
      by_cases hbuf : buf = []
      · rw [hbuf, consume_nil hp, onward, if_neg (by rw [hp.not_ready]; decide)]
        cases fuel <;> rfl
      · have hpos := List.length_pos_iff.mpr hbuf
        obtain ⟨fuel, rfl⟩ : ∃ n, fuel = n + 1 := ⟨fuel - 1, by omega⟩
        rw [receive, if_neg (by simpa using hbuf)]
        cases hconsume : r.consume (enough maxRank buf.length) p buf with
        | error e => rfl
        | ok s =>
            obtain ⟨p', rest⟩ := s
            obtain ⟨hless, hready', hnot⟩ := h.consume_waits hp hbuf hconsume
            simp only [onward]
            split_ifs with hready
            · have hq := hready' hready
              unfold Reading.andThen
              simp only
              rw [ih fuel (by omega) hq (by omega), ih rest.length (by omega) hq (Nat.le_refl _)]
            · obtain ⟨rfl, -⟩ := hnot (Bool.eq_false_iff.mpr hready)
              cases fuel <;> rfl

/-- **A stream read in two parts** yields what it yields in one. -/
theorem Lawful.receive_append (hp : r.Waits Good p) (xs ys : List B) :
    r.receive maxRank (xs ++ ys).length p (xs ++ ys) =
      (r.receive maxRank xs.length p xs).andThen fun p' => r.receive maxRank ys.length p' ys := by
  induction hlength : xs.length using Nat.strongRecOn generalizing p xs with
  | ind n ih =>
      by_cases hxs : xs = []
      · rw [← hlength, hxs]
        rfl
      · have hmono : enough maxRank xs.length ≤ enough maxRank (xs.length + ys.length) :=
          Nat.mul_le_mul_right _ (by omega)
        rw [← hlength, h.receive_eq hp (Nat.le_refl _), h.receive_eq hp (Nat.le_refl _),
          List.length_append, h.consume_append hp.good xs ys (Nat.le_refl _),
          h.consume_eq hp.good hmono (Nat.le_refl _)]
        cases hconsume : r.consume (enough maxRank xs.length) p xs with
        | error e => rfl
        | ok s =>
            obtain ⟨p', rest⟩ := s
            obtain ⟨hless, hready', hnot⟩ := h.consume_waits hp hxs hconsume
            simp only [Except.bind]
            by_cases hready : r.ready p' = true
            · have hq := hready' hready
              rw [if_pos hready, onward, if_pos hready, onward, if_pos hready,
                Reading.andThen_assoc]
              unfold Reading.andThen
              simp only
              rw [ih rest.length (by omega) hq rest rfl]
              rfl
            · obtain ⟨rfl, hp'⟩ := hnot (Bool.eq_false_iff.mpr hready)
              rw [if_neg hready, onward, if_neg hready, Reading.nil_andThen,
                h.receive_eq hp' (Nat.le_refl _)]
              exact congrArg _ (h.consume_eq hp'.good (Nat.mul_le_mul_right _ (by omega))
                (Nat.le_refl _))

/-! ## Stage by stage -/

/-- Reading a buffer from the middle of a pass: a stage that lacks nothing is ended first. -/
def reads (r : StagedReader P B M ε) (maxRank : ℕ) (p : P) (buf : List B) : Reading P M ε :=
  r.onward maxRank (r.consume (enough maxRank buf.length) p buf)

/-- Reading on after a stage, unless it failed. -/
def readsAfter (r : StagedReader P B M ε) (maxRank : ℕ) :
    Except ε P → List B → Reading P M ε
  | .error e, _ => ([], .error e)
  | .ok p, buf => r.reads maxRank p buf

/-- Between two parts, receiving a buffer is reading it stage by stage. -/
theorem Lawful.receive_eq_reads (hp : r.Waits Good p) (buf : List B) :
    r.receive maxRank buf.length p buf = r.reads maxRank p buf :=
  h.receive_eq hp (Nat.le_refl _)

omit h in
/-- A message that is ready is handed over. -/
theorem reads_of_ready (hready : r.ready p = true) (buf : List B) : r.reads maxRank p buf =
    Reading.andThen ([(r.take p).1], .ok (r.take p).2)
      fun p' => r.receive maxRank buf.length p' buf := by
  rw [reads, consume_of_not_wants (by rw [wants, hready]; rfl), onward, if_pos hready]

/-- **One stage**: the bytes do not fill it, or it is ended and the next one goes on with the rest.
-/
theorem Lawful.reads_eq (hp : Good p) (hready : r.ready p = false) (buf : List B) :
    r.reads maxRank p buf =
      if buf.length < r.needed p then ([], r.absorb p buf)
      else r.readsAfter maxRank ((r.absorb p (buf.take (r.needed p))).bind r.finish)
        (buf.drop (r.needed p)) := by
  split_ifs with hlt
  · have hneeded : 0 < r.needed p := by omega
    rw [reads, ← h.pass_consume hp hready hneeded (Nat.le_refl _), h.pass_of_lt hp hready hlt]
    cases habsorb : r.absorb p buf with
    | error e => rfl
    | ok q =>
        obtain ⟨hq, hqready, hqneeded, -⟩ := h.absorb_ok p q _ hp hready (by omega) habsorb
        have hwaits : r.Waits Good q := ⟨hq, hqready, by omega⟩
        show r.onward maxRank (r.consume _ q []) = _
        rw [consume_nil hwaits, onward, if_neg (by rw [hqready]; decide)]
  · have hwants : r.wants (p, buf) = true := by
      refine wants_iff.mpr ⟨hready, ?_⟩
      by_cases hzero : r.needed p = 0
      · exact .inr hzero
      · refine .inl (List.length_pos_iff.mp ?_)
        omega
    have htake : (buf.take (r.needed p)).length = r.needed p := by
      rw [List.length_take]
      omega
    rw [reads, h.consume_pass hp (Nat.le_refl _) hwants, pass]
    simp only
    cases habsorb : r.absorb p (buf.take (r.needed p)) with
    | error e => rfl
    | ok q =>
        obtain ⟨hq, hqready, hqneeded, -⟩ := h.absorb_ok p q _ hp hready (by omega) habsorb
        simp only [Except.bind]
        rw [if_neg (by omega)]
        cases hfinish : r.finish q with
        | error e => rfl
        | ok p' =>
            obtain ⟨hp', -⟩ := h.finish_ok q p' hq hqready (by omega) hfinish
            have hfewer : enough maxRank (buf.drop (r.needed p)).length ≤
                enough maxRank buf.length :=
              Nat.mul_le_mul_right _ (by rw [List.length_drop]; omega)
            simp only [Except.map, readsAfter, reads]
            rw [h.consume_eq hp' hfewer (Nat.le_refl _)]

/-- Bytes that fill a stage. -/
theorem Lawful.reads_stage (hp : Good p) (hready : r.ready p = false) {xs : List B}
    (hlength : xs.length = r.needed p) (rest : List B) :
    r.reads maxRank p (xs ++ rest) =
      r.readsAfter maxRank ((r.absorb p xs).bind r.finish) rest := by
  have hnot : ¬ (xs ++ rest).length < r.needed p := by
    rw [List.length_append]
    omega
  rw [h.reads_eq hp hready, if_neg hnot, List.take_left' hlength, List.drop_left' hlength]

/-- Bytes that do not. -/
theorem Lawful.reads_short (hp : Good p) (hready : r.ready p = false) {buf : List B}
    (hlt : buf.length < r.needed p) : r.reads maxRank p buf = ([], r.absorb p buf) := by
  rw [h.reads_eq hp hready, if_pos hlt]

/-- What the reader does with the parts of a stream, one after the other. -/
def receiveAll (r : StagedReader P B M ε) (maxRank : ℕ) : P → List (List B) → Reading P M ε
  | p, [] => ([], .ok p)
  | p, part :: parts =>
      (r.receive maxRank part.length p part).andThen fun p' => receiveAll r maxRank p' parts

/-- After a part the reader waits again. -/
theorem Lawful.waits_of_receive (hp : r.Waits Good p) {p' : P} {buf : List B}
    (hok : (r.receive maxRank buf.length p buf).2 = .ok p') : r.Waits Good p' := by
  induction hlength : buf.length using Nat.strongRecOn generalizing p buf with
  | ind n ih =>
      rw [h.receive_eq hp (Nat.le_refl _)] at hok
      by_cases hbuf : buf = []
      · rw [hbuf, consume_nil hp, onward, if_neg (by rw [hp.not_ready]; decide)] at hok
        cases hok
        exact hp
      · cases hconsume : r.consume (enough maxRank buf.length) p buf with
        | error e =>
            rw [hconsume] at hok
            exact nomatch hok
        | ok s =>
            obtain ⟨q, rest⟩ := s
            obtain ⟨hless, hready', hnot⟩ := h.consume_waits hp hbuf hconsume
            rw [hconsume, onward] at hok
            split_ifs at hok with hready
            · exact ih rest.length (by omega) (hready' hready) hok rfl
            · cases hok
              exact (hnot (Bool.eq_false_iff.mpr hready)).2

/-- **However a stream is cut into parts**, reading them yields the messages of the whole stream,
and ends as reading the whole stream does. -/
theorem Lawful.receiveAll_eq (hp : r.Waits Good p) (parts : List (List B)) :
    r.receiveAll maxRank p parts = r.receive maxRank parts.flatten.length p parts.flatten := by
  induction parts generalizing p with
  | nil => rfl
  | cons part parts ih =>
      rw [receiveAll, List.flatten_cons, h.receive_append hp]
      unfold Reading.andThen
      cases hread : (r.receive maxRank part.length p part).2 with
      | error e => rfl
      | ok p' => simp only [ih (h.waits_of_receive hp hread)]

end Receive

end StagedReader

end BrowCast
