import Mathlib
import JaspyNexus.Lib.PMap

/-! # Maps that keep the least

A loop that reads rows and keeps, under each key, the least value met so far leaves
the least value of the rows with that key. -/

namespace JaspyNexus.Lib

universe u v w
variable {ρ : Type u} {κ : Type v} {υ : Type w} [DecidableEq κ] [LinearOrder υ]

/-- Keep the least value of each key, row by row. -/
def keepLeast (key : ρ → κ) (val : ρ → υ) (rows : List ρ) (m : PMap κ υ) : PMap κ υ :=
  rows.foldl (fun m row => m.insert (key row) (min (val row) (m.getD (key row) (val row)))) m

variable {key : ρ → κ} {val : ρ → υ}

omit [DecidableEq κ] in
theorem min?_append_singleton {values : List υ} {least : υ} (h : values.min? = some least) (v : υ) :
    (values ++ [v]).min? = some (min v least) := by
  cases values with
  | nil => cases h
  | cons first rest =>
    rw [List.min?_cons', Option.some.injEq] at h
    rw [List.cons_append, List.min?_cons', List.foldl_append, h, List.foldl_cons, List.foldl_nil, min_comm]

/-- Rows read group by group. -/
theorem keepLeast_flatMap {γ : Type*} (groups : List γ) (rowsOf : γ → List ρ) (m : PMap κ υ) :
    keepLeast key val (groups.flatMap rowsOf) m =
      groups.foldl (fun m group => keepLeast key val (rowsOf group) m) m := by
  unfold keepLeast
  rw [List.foldl_flatMap]

theorem keepLeast_apply (rows : List ρ) (k : κ) : keepLeast key val rows PMap.empty k =
    ((rows.filter fun row => key row = k).map val).min? := by
  induction rows using List.reverseRecOn with
  | nil => rfl
  | append_singleton rows row ih =>
    have hsnoc : keepLeast key val (rows ++ [row]) PMap.empty =
        (keepLeast key val rows PMap.empty).insert (key row)
          (min (val row) ((keepLeast key val rows PMap.empty).getD (key row) (val row))) := by
      unfold keepLeast
      rw [List.foldl_append, List.foldl_cons, List.foldl_nil]
    rw [hsnoc, PMap.insert_apply, List.filter_append, List.map_append]
    by_cases hk : key row = k
    · subst hk
      rw [if_pos rfl, PMap.getD, ih, List.filter_singleton, decide_eq_true rfl]
      cases hmin : ((rows.filter fun r => key r = key row).map val).min? with
      | none =>
        rw [List.min?_eq_none_iff.mp hmin, Option.getD_none, min_self]
        rfl
      | some least => exact (min?_append_singleton hmin (val row)).symm
    · rw [if_neg (Ne.symm hk), ih]
      simp [hk]

/-- **The least value of the rows with the key**, and nothing under a key no row has. -/
theorem keepLeast_eq_some_iff {rows : List ρ} {k : κ} {least : υ} :
    keepLeast key val rows PMap.empty k = some least ↔
      IsLeast {v | ∃ row ∈ rows, key row = k ∧ val row = v} least := by
  rw [keepLeast_apply, List.min?_eq_some_iff]
  have hmem : ∀ v, v ∈ (rows.filter fun row => key row = k).map val ↔
      ∃ row ∈ rows, key row = k ∧ val row = v := by
    intro v
    simp only [List.mem_map, List.mem_filter, decide_eq_true_eq, and_assoc]
  simp only [hmem]
  rfl

end JaspyNexus.Lib
