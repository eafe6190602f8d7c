import Mathlib

/-! # Stable sorting

A sort by a key leaves the elements of one key in the order they came in. What it gives is
therefore independent of that order exactly as far as elements of one key are the same. -/

namespace JaspyNexus.Lib

universe u v
variable {α : Type u} {κ : Type v} [LinearOrder κ] (key : α → κ)

/-- `sort_by_key`. -/
def sortByKey (l : List α) : List α := l.insertionSort fun a b => key a ≤ key b

theorem sortByKey_perm (l : List α) : (sortByKey key l).Perm l := List.perm_insertionSort _ _

theorem pairwise_sortByKey (l : List α) : (sortByKey key l).Pairwise fun a b => key a ≤ key b :=
  have : IsTrans α fun a b => key a ≤ key b := ⟨fun _ _ _ => le_trans⟩
  have : Std.Total fun a b : α => key a ≤ key b := ⟨fun a b => le_total (key a) (key b)⟩
  List.pairwise_insertionSort _ l

/-- **Stability.** The elements of a key stay in their order. -/
theorem filter_sortByKey (l : List α) (k : κ) :
    (sortByKey key l).filter (fun a => key a = k) = l.filter fun a => key a = k := by
  have : IsTrans α fun a b => key a ≤ key b := ⟨fun _ _ _ => le_trans⟩
  have : Std.Total fun a b : α => key a ≤ key b := ⟨fun a b => le_total (key a) (key b)⟩
  have htied : (l.filter fun a => key a = k).Pairwise fun a b => key a ≤ key b := by
    refine List.pairwise_of_forall_mem_list fun a ha b hb => ?_
    rw [of_decide_eq_true (List.mem_filter.mp ha).2, of_decide_eq_true (List.mem_filter.mp hb).2]
  have hsub : (l.filter fun a => key a = k).Sublist (sortByKey key l) :=
    List.sublist_insertionSort htied List.filter_sublist
  have hkept : (l.filter fun a => key a = k).Sublist ((sortByKey key l).filter fun a => key a = k) := by
    have hfilter := hsub.filter fun a => key a = k
    rwa [List.filter_filter, List.filter_congr (fun a _ => Bool.and_self _)] at hfilter
  exact (hkept.eq_of_length ((sortByKey_perm key l).symm.filter _).length_eq).symm

/-- Where elements of one key are the same, their order is lost. -/
theorem sortByKey_congr {l l' : List α} (hperm : l.Perm l') (hties : ∀ a ∈ l, ∀ b ∈ l, key a = key b → a = b) :
    sortByKey key l = sortByKey key l' := by
  have hsorted := (sortByKey_perm key l).trans (hperm.trans (sortByKey_perm key l').symm)
  refine hsorted.eq_of_pairwise ?_ (pairwise_sortByKey key l) (pairwise_sortByKey key l')
  intro a b ha hb hab hba
  have ha' := (sortByKey_perm key l).mem_iff.mp ha
  have hb' := (sortByKey_perm key l).mem_iff.mp (hsorted.mem_iff.mpr hb)
  exact hties a ha' b hb' (le_antisymm hab hba)

end JaspyNexus.Lib
