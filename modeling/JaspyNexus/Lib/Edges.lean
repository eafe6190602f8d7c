import Mathlib

/-! # The edges of a signal

A signal is read now and then, and a reading may miss the value. `lastKnown` is the
last value read, `firstKnown` the first one, and `edges` are the changes that readings
made. Readings and edges are newest first. Of a counter, what it rose by and what it
fell by make up the difference of its ends (`rise_add_first`). -/

namespace JaspyNexus.Lib.Edges

universe u
variable {α : Type u}

def lastKnown (readings : List (Option α)) : Option α := readings.findSome? id

def firstKnown (readings : List (Option α)) : Option α := readings.reverse.findSome? id

@[simp] theorem lastKnown_nil : lastKnown ([] : List (Option α)) = none := rfl

@[simp] theorem lastKnown_cons (reading : Option α) (older : List (Option α)) :
    lastKnown (reading :: older) = reading.or (lastKnown older) := by
  unfold lastKnown
  rw [List.findSome?_cons]
  cases reading <;> rfl

@[simp] theorem firstKnown_cons (reading : Option α) (older : List (Option α)) :
    firstKnown (reading :: older) = (firstKnown older).or reading := by
  unfold firstKnown
  rw [List.reverse_cons, List.findSome?_append]
  cases reading <;> simp

theorem firstKnown_eq_none {readings : List (Option α)} (h : lastKnown readings = none) :
    firstKnown readings = none := by
  unfold lastKnown at h
  unfold firstKnown
  rw [List.findSome?_eq_none_iff] at h ⊢
  exact fun reading hmem => h reading (List.mem_reverse.mp hmem)

theorem firstKnown_ne_none {readings : List (Option α)} {value : α}
    (h : lastKnown readings = some value) :
    ∃ value', firstKnown readings = some value' := by
  unfold lastKnown at h
  obtain ⟨reading, hmem, hreading⟩ := List.exists_of_findSome?_eq_some h
  refine Option.isSome_iff_exists.mp ?_
  unfold firstKnown
  rw [List.findSome?_isSome_iff]
  exact ⟨reading, List.mem_reverse.mpr hmem, by rw [hreading]; rfl⟩

variable [DecidableEq α]

/-- The change a reading makes of a value that is known. -/
def edge (known reading : Option α) : Option (α × α) :=
  match known, reading with
  | some old, some new => if old ≠ new then some (old, new) else none
  | _, _ => none

def edges : List (Option α) → List (α × α)
  | [] => []
  | reading :: older => (edge (lastKnown older) reading).toList ++ edges older

theorem edge_eq_some {known reading : Option α} {e : α × α} :
    edge known reading = some e ↔ known = some e.1 ∧ reading = some e.2 ∧ e.1 ≠ e.2 := by
  obtain ⟨old, new⟩ := e
  unfold edge
  split
  · next a b =>
    by_cases hne : a = b
    · subst hne
      simp only [ne_eq, not_true_eq_false, if_false, Option.some.injEq, reduceCtorEq, false_iff]
      intro h
      exact h.2.2 (h.1.symm.trans h.2.1)
    · simp only [ne_eq, hne, not_false_eq_true, if_true, Option.some.injEq, Prod.mk.injEq]
      constructor
      · intro h
        exact ⟨h.1, h.2, fun heq => hne (h.1.trans (heq.trans h.2.symm))⟩
      · intro h
        exact ⟨h.1, h.2.1⟩
  · next hnone =>
    simp only [reduceCtorEq, false_iff]
    intro h
    exact hnone _ _ h.1 h.2.1

/-- A reading without an edge leaves the value known. -/
theorem or_of_edge_eq_none {value : α} {reading : Option α} (h : edge (some value) reading = none) :
    reading.or (some value) = some value := by
  cases reading with
  | none => rfl
  | some new =>
    by_cases hne : value = new
    · simp [hne]
    · simp [edge, hne] at h

theorem edges_ne {readings : List (Option α)} {e : α × α} (h : e ∈ edges readings) : e.1 ≠ e.2 := by
  induction readings with
  | nil => cases h
  | cons reading older ih =>
    rcases List.mem_append.mp h with h | h
    · exact (edge_eq_some.mp (Option.mem_toList.mp h)).2.2
    · exact ih h

/-- **The last edge entered the last value known.** -/
theorem lastKnown_of_edges {readings : List (Option α)} {e : α × α} (h : (edges readings).head? = some e) :
    lastKnown readings = some e.2 := by
  induction readings with
  | nil => cases h
  | cons reading older ih =>
    rw [edges] at h
    cases hedge : edge (lastKnown older) reading with
    | none =>
      rw [hedge] at h
      have hheld := ih h
      rw [hheld] at hedge
      rw [lastKnown_cons, hheld, or_of_edge_eq_none hedge]
    | some e' =>
      rw [hedge] at h
      obtain rfl : e' = e := by simpa using h
      rw [lastKnown_cons, (edge_eq_some.mp hedge).2.1]
      rfl

/-- **Each edge leaves the value that the one before it entered.** -/
theorem edges_chain (readings : List (Option α)) :
    (edges readings).IsChain fun later earlier => later.1 = earlier.2 := by
  induction readings with
  | nil => exact List.isChain_nil
  | cons reading older ih =>
    rw [edges]
    cases hedge : edge (lastKnown older) reading with
    | none => exact ih
    | some e =>
      refine List.isChain_cons.mpr ⟨fun earlier hearlier => ?_, ih⟩
      have hheld := lastKnown_of_edges hearlier
      rw [(edge_eq_some.mp hedge).1] at hheld
      exact Option.some.inj hheld

/-- Without an edge the last value known is still the first one. -/
theorem lastKnown_eq_first {readings : List (Option α)} (h : edges readings = []) :
    lastKnown readings = firstKnown readings := by
  induction readings with
  | nil => rfl
  | cons reading older ih =>
    rw [edges, List.append_eq_nil_iff] at h
    rw [lastKnown_cons, firstKnown_cons, ← ih h.2]
    have hedge := Option.toList_eq_nil_iff.mp h.1
    cases hheld : lastKnown older with
    | none => simp
    | some value =>
      rw [hheld] at hedge
      exact or_of_edge_eq_none hedge

/-- **The first edge left the first value read.** -/
theorem first_of_edges {readings : List (Option α)} {e : α × α}
    (h : (edges readings).getLast? = some e) : firstKnown readings = some e.1 := by
  induction readings with
  | nil => cases h
  | cons reading older ih =>
    rw [edges, List.getLast?_append] at h
    rw [firstKnown_cons]
    cases hlast : (edges older).getLast? with
    | some e' =>
      rw [hlast] at h
      obtain rfl : e' = e := by simpa using h
      rw [ih hlast]
      rfl
    | none =>
      rw [hlast, Option.none_or] at h
      have hempty := List.getLast?_eq_none_iff.mp hlast
      cases hedge : edge (lastKnown older) reading with
      | none => rw [hedge] at h; cases h
      | some e' =>
        rw [hedge] at h
        obtain rfl : e' = e := by simpa using h
        rw [← lastKnown_eq_first hempty, (edge_eq_some.mp hedge).1]
        rfl

/-! ## Counters -/

/-- What a counter rose by, over its readings. -/
def rise (readings : List (Option Nat)) : Nat := ((edges readings).map fun e => e.2 - e.1).sum

/-- What a counter fell by. -/
def fall (readings : List (Option Nat)) : Nat := ((edges readings).map fun e => e.1 - e.2).sum

theorem rise_cons (reading : Option Nat) (older : List (Option Nat)) :
    rise (reading :: older) = ((edge (lastKnown older) reading).map fun e => e.2 - e.1).getD 0 + rise older := by
  unfold rise
  rw [edges]
  cases edge (lastKnown older) reading <;> simp

theorem fall_cons (reading : Option Nat) (older : List (Option Nat)) :
    fall (reading :: older) = ((edge (lastKnown older) reading).map fun e => e.1 - e.2).getD 0 + fall older := by
  unfold fall
  rw [edges]
  cases edge (lastKnown older) reading <;> simp

/-- **A counter ends above its start by what it rose, less what it fell.** -/
theorem rise_add_first (readings : List (Option Nat)) :
    rise readings + (firstKnown readings).getD 0 = (lastKnown readings).getD 0 + fall readings := by
  induction readings with
  | nil => rfl
  | cons reading older ih =>
    rw [rise_cons, fall_cons, firstKnown_cons, lastKnown_cons]
    cases hheld : lastKnown older with
    | none =>
      rw [firstKnown_eq_none hheld, hheld] at ih
      rw [firstKnown_eq_none hheld]
      cases reading <;> simp [edge] at ih ⊢ <;> omega
    | some old =>
      obtain ⟨start, hstart⟩ := firstKnown_ne_none hheld
      rw [hheld, hstart] at ih
      rw [hstart]
      simp only [Option.getD_some, Option.some_or] at ih ⊢
      cases reading with
      | none =>
        simp only [edge, Option.map_none, Option.getD_none, Option.none_or, Option.getD_some]
        omega
      | some new =>
        unfold edge
        by_cases hne : old = new
        · simp only [hne, ne_eq, not_true_eq_false, if_false, Option.map_none, Option.getD_none,
            Option.some_or, Option.getD_some] at ih ⊢
          omega
        · simp only [ne_eq, hne, not_false_eq_true, if_true, Option.map_some, Option.getD_some,
            Option.some_or]
          omega

/-- A bound on the rise, as one on the ends. -/
theorem rise_lt_iff (readings : List (Option Nat)) (bound : Nat) :
    rise readings < bound ↔
      (lastKnown readings).getD 0 + fall readings < bound + (firstKnown readings).getD 0 := by
  have := rise_add_first readings
  omega

end JaspyNexus.Lib.Edges
