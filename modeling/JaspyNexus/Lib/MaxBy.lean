import Mathlib

/-! # The greatest of a list

A search for the element with the greatest key. Of elements with one key the last is found, so
the order of the list matters as far as keys are shared, and not otherwise. -/

namespace JaspyNexus.Lib

universe u v
variable {α : Type u} {κ : Type v} [LinearOrder κ] (key : α → κ)

/-- `max_by`, with a comparison of keys. -/
def maxBy (l : List α) : Option α :=
  l.foldl (fun best a => match best with
    | none => some a
    | some b => if key a < key b then some b else some a) none

variable {key} {l : List α} {a : α}

theorem maxBy_append_singleton (l : List α) (a : α) : maxBy key (l ++ [a]) =
    some ((maxBy key l).elim a fun b => if key a < key b then b else a) := by
  unfold maxBy
  rw [List.foldl_append, List.foldl_cons, List.foldl_nil]
  cases l.foldl _ none with
  | none => rfl
  | some b =>
    dsimp only [Option.elim]
    split <;> rfl

theorem maxBy_mem (h : maxBy key l = some a) : a ∈ l ∧ ∀ b ∈ l, key b ≤ key a := by
  induction l using List.reverseRecOn generalizing a with
  | nil => cases h
  | append_singleton l c ih =>
    rw [maxBy_append_singleton] at h
    obtain rfl := Option.some.inj h
    cases hl : maxBy key l with
    | none =>
      have hnil : l = [] := by
        by_contra hne
        obtain ⟨init, d, rfl⟩ := (List.eq_nil_or_concat' l).resolve_left hne
        rw [maxBy_append_singleton] at hl
        cases hl
      simp [hnil]
    | some b =>
      obtain ⟨hb, hmax⟩ := ih hl
      dsimp only [Option.elim]
      split
      · next hlt =>
        refine ⟨List.mem_append_left _ hb, fun d hd => ?_⟩
        rcases List.mem_append.mp hd with hd | hd
        · exact hmax d hd
        · rw [List.mem_singleton.mp hd]
          exact hlt.le
      · next hle =>
        refine ⟨List.mem_append_right _ (List.mem_singleton_self c), fun d hd => ?_⟩
        rcases List.mem_append.mp hd with hd | hd
        · exact (hmax d hd).trans (not_lt.mp hle)
        · rw [List.mem_singleton.mp hd]

theorem maxBy_isSome (h : a ∈ l) : (maxBy key l).isSome := by
  obtain ⟨init, b, rfl⟩ := (List.eq_nil_or_concat' l).resolve_left (List.ne_nil_of_mem h)
  rw [maxBy_append_singleton]
  rfl

/-- **Where keys are not shared**, it is the one element that no other exceeds. -/
theorem maxBy_eq_some_iff (hinj : ∀ a ∈ l, ∀ b ∈ l, key a = key b → a = b) :
    maxBy key l = some a ↔ a ∈ l ∧ ∀ b ∈ l, key b ≤ key a := by
  refine ⟨maxBy_mem, fun ⟨ha, hmax⟩ => ?_⟩
  have hsome : (maxBy key l).isSome := maxBy_isSome ha
  obtain ⟨b, hb⟩ := Option.isSome_iff_exists.mp hsome
  obtain ⟨hmem, hb'⟩ := maxBy_mem hb
  rw [hb, hinj b hmem a ha (le_antisymm (hmax b hmem) (hb' a ha))]

end JaspyNexus.Lib
