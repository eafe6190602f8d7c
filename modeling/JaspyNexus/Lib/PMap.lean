import Mathlib

/-! # Partial maps

A keyed store that is only read, written and pruned by key is a function from
keys to optional values. Two stores are equal when every key reads the same, so
an update is described completely by what it does to each key. -/

namespace JaspyNexus.Lib

universe u v w

/-- A store: the value held under a key, if any. -/
abbrev PMap (κ : Type u) (υ : Type v) := κ → Option υ

namespace PMap

variable {κ : Type u} {υ : Type v} {ω : Type w}

/-- The store that holds nothing. -/
def empty : PMap κ υ := fun _ => none

/-- Write `v` under `k`, replacing what was there. -/
def insert [DecidableEq κ] (m : PMap κ υ) (k : κ) (v : υ) : PMap κ υ :=
  Function.update m k (some v)

/-- Drop every entry whose key `keep` rejects. -/
def retain (m : PMap κ υ) (keep : κ → Bool) : PMap κ υ := fun k => if keep k then m k else none

/-- Apply `f` to every value held. -/
def mapValues (m : PMap κ υ) (f : υ → ω) : PMap κ ω := fun k => (m k).map f

/-- The value under `k`, or `d`. -/
def getD (m : PMap κ υ) (k : κ) (d : υ) : υ := (m k).getD d

@[simp] theorem empty_apply (k : κ) : (empty : PMap κ υ) k = none := rfl

@[simp] theorem insert_self [DecidableEq κ] (m : PMap κ υ) (k : κ) (v : υ) :
    insert m k v k = some v := Function.update_self ..

@[simp] theorem insert_of_ne [DecidableEq κ] (m : PMap κ υ) {k k' : κ} (v : υ) (h : k' ≠ k) :
    insert m k v k' = m k' := Function.update_of_ne h ..

theorem insert_apply [DecidableEq κ] (m : PMap κ υ) (k k' : κ) (v : υ) :
    insert m k v k' = if k' = k then some v else m k' := by
  by_cases h : k' = k
  · subst h; simp
  · simp [h]

@[simp] theorem retain_apply (m : PMap κ υ) (keep : κ → Bool) (k : κ) :
    retain m keep k = if keep k then m k else none := rfl

@[simp] theorem mapValues_apply (m : PMap κ υ) (f : υ → ω) (k : κ) :
    mapValues m f k = (m k).map f := rfl

/-- Writing one entry of a map of maps. -/
theorem insert_insert_bind {ι : Type*} [DecidableEq κ] [DecidableEq ι] (m : PMap κ (PMap ι υ)) (k k' : κ)
    (i i' : ι) (v : υ) :
    (insert m k (insert (getD m k empty) i v) k').bind (fun inner => inner i') =
      if k' = k ∧ i' = i then some v else (m k').bind fun inner => inner i' := by
  by_cases hk : k' = k
  · subst hk
    rw [insert_self, Option.bind_some, insert_apply]
    by_cases hi : i' = i
    · rw [if_pos hi, if_pos ⟨rfl, hi⟩]
    · rw [if_neg hi, if_neg fun hc => hi hc.2]
      cases hm : m k' <;> simp [getD, hm]
  · rw [insert_of_ne _ _ hk, if_neg fun hc => hk hc.1]

/-- Reading one entry of a map of maps. -/
theorem getD_getD {ι : Type*} (m : PMap κ (PMap ι υ)) (k : κ) (i : ι) (d : υ) :
    getD (getD m k empty) i d = ((m k).bind fun inner => inner i).getD d := by
  cases hm : m k <;> simp [getD, hm]

/-! ### Loops that insert -/

section Inserts
variable [DecidableEq κ] {ρ : Type w} {key : ρ → κ} {val : ρ → υ} {rows : List ρ}

theorem foldl_insert_of_notMem {k : κ} (m : PMap κ υ) (h : ∀ row ∈ rows, key row ≠ k) :
    rows.foldl (fun m row => m.insert (key row) (val row)) m k = m k := by
  induction rows generalizing m with
  | nil => rfl
  | cons row rest ih =>
    rw [List.foldl_cons, ih _ fun row' hrow' => h row' (List.mem_cons_of_mem _ hrow')]
    exact insert_of_ne m _ (h row List.mem_cons_self).symm

/-- Under keys that are distinct, every row is held. -/
theorem foldl_insert_of_mem {row : ρ} (m : PMap κ υ) (hnd : (rows.map key).Nodup) (h : row ∈ rows) :
    rows.foldl (fun m row => m.insert (key row) (val row)) m (key row) = some (val row) := by
  induction rows generalizing m with
  | nil => cases h
  | cons first rest ih =>
    rw [List.map_cons, List.nodup_cons] at hnd
    rw [List.foldl_cons]
    rcases List.mem_cons.mp h with rfl | hrest
    · have hlater : ∀ row' ∈ rest, key row' ≠ key row := fun row' hrow' heq =>
        hnd.1 (heq ▸ List.mem_map_of_mem (f := key) hrow')
      rw [foldl_insert_of_notMem _ hlater]
      exact insert_self m _ _
    · exact ih _ hnd.2 hrest

end Inserts

end PMap

/-! ## Maps of maps -/

namespace Nested
variable {ι : Type w}

/-- What stands under two keys. -/
def get (m : PMap κ (PMap ι υ)) (k : κ) (i : ι) : Option υ := (m k).bind (· i)

/-- `entry(k).or_insert_with(new).insert(i, v)`. -/
def insert [DecidableEq κ] [DecidableEq ι] (m : PMap κ (PMap ι υ)) (k : κ) (i : ι) (v : υ) :
    PMap κ (PMap ι υ) :=
  PMap.insert m k (((m k).getD PMap.empty).insert i v)

/-- No inner map is empty. -/
def Filled (m : PMap κ (PMap ι υ)) : Prop := ∀ k inner, m k = some inner → ∃ i v, inner i = some v

theorem filled_empty : Filled (PMap.empty : PMap κ (PMap ι υ)) := nofun

/-- Maps without empty inner maps are the same when they hold the same. -/
theorem Filled.ext {m m' : PMap κ (PMap ι υ)} (h : Filled m) (h' : Filled m')
    (hget : ∀ k i, get m k i = get m' k i) : m = m' := by
  funext k
  cases hm : m k with
  | none =>
    cases hm' : m' k with
    | none => rfl
    | some inner =>
      obtain ⟨i, v, hv⟩ := h' k inner hm'
      have hboth := hget k i
      simp [get, hm, hm', hv] at hboth
  | some inner =>
    cases hm' : m' k with
    | none =>
      obtain ⟨i, v, hv⟩ := h k inner hm
      have hboth := hget k i
      simp [get, hm, hm', hv] at hboth
    | some inner' =>
      congr 1
      funext i
      simpa [get, hm, hm'] using hget k i

variable [DecidableEq κ] [DecidableEq ι]

theorem get_insert (m : PMap κ (PMap ι υ)) (k k' : κ) (i i' : ι) (v : υ) :
    get (insert m k i v) k' i' = if k' = k ∧ i' = i then some v else get m k' i' := by
  by_cases hk : k' = k
  · subst hk
    cases hm : m k' <;> by_cases hi : i' = i <;> simp [get, insert, hm, hi]
  · simp [get, insert, hk]

theorem Filled.insert {m : PMap κ (PMap ι υ)} (h : Filled m) (k : κ) (i : ι) (v : υ) :
    Filled (Nested.insert m k i v) := by
  intro k' inner hinner
  by_cases hk : k' = k
  · subst hk
    rw [Nested.insert, PMap.insert_self] at hinner
    obtain rfl := Option.some.inj hinner
    exact ⟨i, v, PMap.insert_self ..⟩
  · rw [Nested.insert, PMap.insert_of_ne m _ hk] at hinner
    exact h k' inner hinner

/-! ### A row for each pair of keys -/

section Rows
variable {ρ : Type*} (key : ρ → κ × ι) (say : ρ → Option (Option υ))

/-- A row inserts what it says, if anything; it may go wrong. -/
def write (m : PMap κ (PMap ι υ)) (row : ρ) : Option (PMap κ (PMap ι υ)) :=
  (say row).map fun
  | some v => insert m (key row).1 (key row).2 v
  | none => m

variable {key say} {rows : List ρ} {m : PMap κ (PMap ι υ)}

theorem get_of_write {m' : PMap κ (PMap ι υ)} {row : ρ} (h : write key say m row = some m') :
    (∀ k i, (k, i) ≠ key row → get m' k i = get m k i) ∧
    (get m (key row).1 (key row).2 = none → say row = some (get m' (key row).1 (key row).2)) := by
  obtain ⟨said, hsay, rfl⟩ := Option.map_eq_some_iff.mp h
  cases said with
  | none => exact ⟨fun _ _ _ => rfl, fun hnone => by rw [hsay, hnone]⟩
  | some v =>
    refine ⟨fun k i hne => ?_, fun _ => by rw [hsay, get_insert]; simp⟩
    rw [get_insert, if_neg fun heq => hne (Prod.ext heq.1 heq.2)]

/-- What the rows leave, when none goes wrong. -/
theorem get_of_foldlM (hnd : (rows.map key).Nodup)
    (h : rows.foldlM (write key say) PMap.empty = some m) :
    Filled m ∧ (∀ row ∈ rows, say row = some (get m (key row).1 (key row).2)) ∧
    ∀ k i, (k, i) ∉ rows.map key → get m k i = none := by
  induction rows using List.reverseRecOn generalizing m with
  | nil =>
    obtain rfl : PMap.empty = m := by simpa using h
    exact ⟨filled_empty, by simp, fun _ _ _ => rfl⟩
  | append_singleton rows last ih =>
    rw [List.foldlM_append] at h
    obtain ⟨before, hbefore, hlast⟩ := Option.bind_eq_some_iff.mp h
    replace hlast : write key say before last = some m := by simpa using hlast
    rw [List.map_append, List.nodup_append] at hnd
    obtain ⟨hfilled, hrows, hothers⟩ := ih hnd.1 hbefore
    obtain ⟨hkept, hsaid⟩ := get_of_write hlast
    have hfresh : key last ∉ rows.map key := fun hmem => hnd.2.2 _ hmem (key last) (by simp) rfl
    refine ⟨?_, fun row hrow => ?_, fun k i hki => ?_⟩
    · obtain ⟨said, -, rfl⟩ := Option.map_eq_some_iff.mp hlast
      cases said with
      | none => exact hfilled
      | some v => exact hfilled.insert _ _ v
    · rcases List.mem_append.mp hrow with hrow | hrow
      · have hne : ((key row).1, (key row).2) ≠ key last := fun heq =>
          hfresh (heq ▸ List.mem_map_of_mem hrow)
        rw [hkept _ _ hne]
        exact hrows row hrow
      · obtain rfl := List.mem_singleton.mp hrow
        exact hsaid (hothers _ _ hfresh)
    · rw [List.map_append, List.mem_append, not_or] at hki
      rw [hkept k i fun heq => hki.2 (by simp [heq])]
      exact hothers k i hki.1

theorem foldlM_isSome (h : ∀ row ∈ rows, (say row).isSome) :
    ∃ m', rows.foldlM (write key say) m = some m' := by
  induction rows generalizing m with
  | nil => exact ⟨m, rfl⟩
  | cons row rest ih =>
    obtain ⟨said, hsaid⟩ := Option.isSome_iff_exists.mp (h row List.mem_cons_self)
    rw [List.foldlM_cons, write, hsaid]
    exact ih fun row' hrow' => h row' (List.mem_cons_of_mem _ hrow')

/-- **Each pair of keys once**: the map that the rows leave holds what each says, and
nothing else. -/
theorem foldlM_eq_some_iff (hnd : (rows.map key).Nodup) :
    rows.foldlM (write key say) PMap.empty = some m ↔
      Filled m ∧ (∀ row ∈ rows, say row = some (get m (key row).1 (key row).2)) ∧
      ∀ k i, (k, i) ∉ rows.map key → get m k i = none := by
  refine ⟨get_of_foldlM hnd, fun ⟨hfilled, hrows, hothers⟩ => ?_⟩
  have hsome : ∀ row ∈ rows, (say row).isSome := fun row hrow => by rw [hrows row hrow]; rfl
  obtain ⟨m', hm'⟩ : ∃ m', rows.foldlM (write key say) PMap.empty = some m' := foldlM_isSome hsome
  obtain ⟨hfilled', hrows', hothers'⟩ := get_of_foldlM hnd hm'
  rw [hm', hfilled'.ext hfilled]
  intro k i
  by_cases hki : (k, i) ∈ rows.map key
  · obtain ⟨row, hrow, hkey⟩ := List.mem_map.mp hki
    have hsame := Option.some.inj ((hrows' row hrow).symm.trans (hrows row hrow))
    rwa [hkey] at hsame
  · rw [hothers' k i hki, hothers k i hki]

end Rows
end Nested

/-! ## Association lists -/

section Keyed
variable {κ : Type u} {υ : Type v} {ω : Type w} [BEq κ] [LawfulBEq κ]

/-- With distinct keys, a key reads the value it stands beside. -/
theorem lookup_eq_some_iff_mem : ∀ {l : List (κ × υ)}, (l.map Prod.fst).Nodup → ∀ {k : κ} {v : υ},
    l.lookup k = some v ↔ (k, v) ∈ l
  | [], _, k, v => by simp
  | (k', v') :: rest, hnd, k, v => by
    rw [List.map_cons, List.nodup_cons] at hnd
    rw [List.lookup_cons, List.mem_cons]
    by_cases hk : k = k'
    · subst hk
      have hrest : (k, v) ∉ rest := fun h => hnd.1 (List.mem_map.mpr ⟨_, h, rfl⟩)
      simp [hrest, eq_comm]
    · have hbeq : (k == k') = false := beq_eq_false_iff_ne.mpr hk
      simp [hbeq, hk, lookup_eq_some_iff_mem hnd.2]

/-- Values changed under their keys. -/
theorem lookup_map_value (f : κ → υ → ω) (l : List (κ × υ)) (k : κ) :
    (l.map fun e => (e.1, f e.1 e.2)).lookup k = (l.lookup k).map (f k) := by
  induction l with
  | nil => rfl
  | cons e rest ih =>
    rw [List.map_cons, List.lookup_cons, List.lookup_cons]
    by_cases hk : k = e.1
    · simp [hk]
    · have hbeq : (k == e.1) = false := beq_eq_false_iff_ne.mpr hk
      simp [hbeq, ih]

end Keyed

end JaspyNexus.Lib
