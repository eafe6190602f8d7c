import Mathlib

/-! # One position of a list changes

What a sum or a count over the list loses with the old entry it gains with the new one. -/

namespace JaspyNexus.Lib

universe u
variable {α : Type u} {l : List α} {i : ℕ} {old : α}

theorem sum_map_set (h : l[i]? = some old) (weight : α → ℕ) (new : α) :
    ((l.set i new).map weight).sum + weight old = (l.map weight).sum + weight new := by
  induction l generalizing i with
  | nil => cases h
  | cons first rest ih =>
    cases i with
    | zero =>
      obtain rfl : first = old := by simpa using h
      simp only [List.set_cons_zero, List.map_cons, List.sum_cons]
      omega
    | succ i =>
      have hrest := ih (i := i) (by simpa using h)
      simp only [List.set_cons_succ, List.map_cons, List.sum_cons]
      omega

theorem countP_set_add (h : l[i]? = some old) (p : α → Bool) (new : α) :
    (l.set i new).countP p + (p old).toNat = l.countP p + (p new).toNat := by
  have hsum : ∀ l : List α, l.countP p = (l.map fun a => (p a).toNat).sum := by
    intro l
    induction l with
    | nil => rfl
    | cons a rest ih =>
      rw [List.countP_cons, List.map_cons, List.sum_cons, ih, Nat.add_comm]
      cases p a <;> rfl
  rw [hsum, hsum]
  exact sum_map_set h (fun a => (p a).toNat) new

end JaspyNexus.Lib
