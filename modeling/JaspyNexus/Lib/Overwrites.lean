import Mathlib

/-! # Requests that overwrite a key

Each request sets one key of a map, or does nothing to it. Some order of the requests
leads from one map to another exactly when every key of the other map is as one of the
requests set it, or as it was where none did (`exists_order_iff`). -/

namespace JaspyNexus.Lib.Overwrites

universe u v w
variable {ρ : Type u} {κ : Type v} {υ : Type w} [DecidableEq κ] (change : ρ → Option (κ × υ))

def overwrite (m : κ → υ) (r : ρ) : κ → υ :=
  match change r with
  | some e => Function.update m e.1 e.2
  | none => m

/-- One request after the other. -/
def overwriteAll (order : List ρ) (m : κ → υ) : κ → υ := order.foldl (overwrite change) m

/-- The value of a key is what one of the requests set, or what was there before. -/
def Explained (ran : List ρ) (m : κ → υ) (k : κ) (v : υ) : Prop :=
  (∃ r ∈ ran, change r = some (k, v)) ∨ ((∀ r ∈ ran, ∀ v', change r ≠ some (k, v')) ∧ v = m k)

variable {change} {m : κ → υ} {k : κ}

theorem overwrite_of_eq {r : ρ} {v : υ} (h : change r = some (k, v)) (m : κ → υ) : overwrite change m r k = v := by
  unfold overwrite
  rw [h]
  exact Function.update_self k v m

theorem overwrite_of_ne {r : ρ} (h : ∀ v, change r ≠ some (k, v)) (m : κ → υ) : overwrite change m r k = m k := by
  unfold overwrite
  cases hr : change r with
  | none => rfl
  | some e =>
    refine Function.update_of_ne (fun hk => ?_) e.2 m
    exact h e.2 (by rw [hr, hk])

theorem overwriteAll_of_ne {order : List ρ} (h : ∀ r ∈ order, ∀ v, change r ≠ some (k, v)) (m : κ → υ) :
    overwriteAll change order m k = m k := by
  induction order generalizing m with
  | nil => rfl
  | cons r rest ih =>
    have hrest := ih (fun r' hr' => h r' (List.mem_cons_of_mem r hr')) (overwrite change m r)
    exact hrest.trans (overwrite_of_ne (h r List.mem_cons_self) m)

/-- Requests that agree about a key set it. -/
theorem overwriteAll_of_agree {order : List ρ} {v : υ} (hagree : ∀ r ∈ order, ∀ v', change r = some (k, v') → v' = v)
    (hsome : ∃ r ∈ order, change r = some (k, v)) (m : κ → υ) : overwriteAll change order m k = v := by
  induction order generalizing m with
  | nil =>
    obtain ⟨r, hr, -⟩ := hsome
    cases hr
  | cons r rest ih =>
    by_cases hrest : ∃ r' ∈ rest, change r' = some (k, v)
    · exact ih (fun r' hr' => hagree r' (List.mem_cons_of_mem r hr')) hrest (overwrite change m r)
    · have hsilent : ∀ r' ∈ rest, ∀ v', change r' ≠ some (k, v') := fun r' hr' v' hv' => by
        obtain rfl := hagree r' (List.mem_cons_of_mem r hr') v' hv'
        exact hrest ⟨r', hr', hv'⟩
      obtain ⟨r', hr', hv⟩ := hsome
      rcases List.mem_cons.mp hr' with rfl | hr'
      · exact (overwriteAll_of_ne hsilent _).trans (overwrite_of_eq hv m)
      · exact absurd ⟨r', hr', hv⟩ hrest

/-- Whatever the order, every key is explained. -/
theorem explained_overwriteAll (order : List ρ) (m : κ → υ) (k : κ) :
    Explained change order m k (overwriteAll change order m k) := by
  induction order generalizing m with
  | nil => exact .inr ⟨nofun, rfl⟩
  | cons r rest ih =>
    show Explained change (r :: rest) m k (overwriteAll change rest (overwrite change m r) k)
    rcases ih (overwrite change m r) with ⟨r', hr', hv⟩ | ⟨hsilent, hv⟩
    · exact .inl ⟨r', List.mem_cons_of_mem r hr', hv⟩
    · by_cases hr : ∃ v, change r = some (k, v)
      · obtain ⟨v, hr⟩ := hr
        refine .inl ⟨r, List.mem_cons_self, ?_⟩
        rw [hv, overwrite_of_eq hr, hr]
      · push Not at hr
        rw [overwrite_of_ne hr] at hv
        exact .inr ⟨List.forall_mem_cons.mpr ⟨hr, hsilent⟩, hv⟩

omit [DecidableEq κ] in
theorem explained_congr {ran ran' : List ρ} {v : υ} (hmem : ∀ r, r ∈ ran ↔ r ∈ ran') :
    Explained change ran m k v ↔ Explained change ran' m k v := by
  simp only [Explained, hmem]

omit [DecidableEq κ] in
/-- One more request leaves the other keys as they were. -/
theorem explained_insert_of_ne {ran ran' : List ρ} {r : ρ} {v : υ} (hmem : ∀ r', r' ∈ ran' ↔ r' = r ∨ r' ∈ ran)
    (hne : ∀ v, change r ≠ some (k, v)) : Explained change ran' m k v ↔ Explained change ran m k v := by
  simp only [Explained, hmem, or_and_right, exists_or, exists_eq_left, hne v, false_or, forall_eq_or_imp]
  simp [hne]

open Classical in
/-- **Some order explains the map**: the requests whose value is not the last one come
first. -/
theorem exists_order_iff {ran : List ρ} {m m' : κ → υ} :
    (∃ order : List ρ, order.Perm ran ∧ m' = overwriteAll change order m) ↔
      ∀ k, Explained change ran m k (m' k) := by
  constructor
  · rintro ⟨order, hperm, rfl⟩ k
    exact (explained_congr fun r => hperm.mem_iff).mp (explained_overwriteAll order m k)
  · intro h
    let stale : ρ → Bool := fun r => decide (∃ k v, change r = some (k, v) ∧ m' k ≠ v)
    refine ⟨ran.filter stale ++ ran.filter fun r => !stale r, List.filter_append_perm stale ran, funext fun k => ?_⟩
    show m' k = List.foldl (overwrite change) m _ k
    rw [List.foldl_append]
    show m' k = overwriteAll change (ran.filter fun r => !stale r) (overwriteAll change (ran.filter stale) m) k
    rcases h k with ⟨r, hr, hv⟩ | ⟨hsilent, hv⟩
    · refine (overwriteAll_of_agree (fun r' hr' v hv' => ?_) ⟨r, List.mem_filter.mpr ⟨hr, ?_⟩, hv⟩ _).symm
      · by_contra hne
        have hstale : stale r' = true := decide_eq_true ⟨k, v, hv', Ne.symm hne⟩
        simp [hstale] at hr'
      · rw [Bool.not_eq_true', decide_eq_false_iff_not]
        rintro ⟨k', v, hr', hne⟩
        rw [hv] at hr'
        cases hr'
        exact hne rfl
    · rw [overwriteAll_of_ne fun r hr => hsilent r (List.mem_filter.mp hr).1,
        overwriteAll_of_ne fun r hr => hsilent r (List.mem_filter.mp hr).1]
      exact hv

end JaspyNexus.Lib.Overwrites
