import Mathlib
import JaspyNexus.Lib.HashMap

/-! # Maps gathered from samples

A loop over samples changes the entry of each sample's key. Where the samples are those
of rows under distinct keys, the map that is left holds for each row what its own samples
make of it (`lookup_foldl_rows`). -/

namespace JaspyNexus.Lib.HashMap

universe u v w x
variable {κ : Type u} {υ : Type v} {ρ α : Type w} [DecidableEq κ]

/-! ## Rows under distinct keys -/

section
variable {rows : List α} {rowKey : α → Option κ}

/-- One row of a key. -/
theorem filter_eq_singleton (hnd : (rows.filterMap rowKey).Nodup) {a : α} (ha : a ∈ rows) {k : κ}
    (hk : rowKey a = some k) : rows.filter (fun b => rowKey b = some k) = [a] := by
  induction rows with
  | nil => cases ha
  | cons first rest ih =>
    rcases List.mem_cons.mp ha with rfl | hrest
    · rw [List.filterMap_cons_some hk, List.nodup_cons] at hnd
      rw [List.filter_cons_of_pos (by simpa using hk), List.filter_eq_nil_iff.mpr]
      exact fun b hb heq => hnd.1 (List.mem_filterMap.mpr ⟨b, hb, of_decide_eq_true heq⟩)
    · have htail : (rest.filterMap rowKey).Nodup :=
        hnd.sublist ((List.sublist_cons_self first rest).filterMap rowKey)
      rw [List.filter_cons_of_neg, ih htail hrest]
      intro heq
      rw [List.filterMap_cons_some (of_decide_eq_true heq), List.nodup_cons] at hnd
      exact hnd.1 (List.mem_filterMap.mpr ⟨a, hrest, hk⟩)

omit [DecidableEq κ] in
/-- What is made of rows has distinct keys, too. -/
theorem nodup_map_filterMap {β : Type x} {f : α → Option β} {g : β → κ}
    (h : ∀ a b, f a = some b → rowKey a = some (g b)) (hnd : (rows.filterMap rowKey).Nodup) :
    ((rows.filterMap f).map g).Nodup := by
  have hsub : ((rows.filterMap f).map g).Sublist (rows.filterMap rowKey) := by
    rw [List.map_filterMap]
    clear hnd
    induction rows with
    | nil => exact List.Sublist.slnil
    | cons a rest ih =>
      cases hf : f a with
      | some b => simpa [List.filterMap_cons, hf, h a b hf] using ih
      | none =>
        cases hk : rowKey a with
        | none => simpa [List.filterMap_cons, hf, hk] using ih
        | some k => simpa [List.filterMap_cons, hf, hk] using ih.cons k
  exact hnd.sublist hsub

end

/-- What is found does not depend on the order, where no two are looked for. -/
theorem find?_perm {l l' : List α} {p : α → Bool} (hperm : l.Perm l')
    (huniq : ∀ a ∈ l, ∀ b ∈ l, p a = true → p b = true → a = b) : l.find? p = l'.find? p := by
  cases hfind : l.find? p with
  | none =>
    refine (List.find?_eq_none.mpr fun a ha => ?_).symm
    exact List.find?_eq_none.mp hfind a (hperm.mem_iff.mpr ha)
  | some a =>
    have ha : a ∈ l := List.mem_of_find?_eq_some hfind
    have hpa : p a = true := List.find?_some hfind
    cases hfind' : l'.find? p with
    | none => exact absurd hpa (List.find?_eq_none.mp hfind' a (hperm.mem_iff.mp ha))
    | some b =>
      have hb : b ∈ l := hperm.mem_iff.mpr (List.mem_of_find?_eq_some hfind')
      rw [huniq a ha b hb hpa (List.find?_some hfind')]

/-! ## The loop -/

section
variable (key : ρ → κ) (new : ρ → υ) (f : ρ → υ → υ)

/-- What is held under a key after one more of its samples. -/
def sampled (held : Option υ) (sample : ρ) : Option υ := some (f sample (held.getD (new sample)))

/-- What the loop leaves under a key is what the samples of that key make of it. -/
theorem lookup_foldl_upsert (samples : List ρ) (m : HashMap κ υ) (k : κ) :
    (samples.foldl (fun m r => m.upsert (key r) (new r) (f r)) m).lookup k =
      (samples.filter fun r => key r = k).foldl (sampled new f) (m.lookup k) := by
  induction samples generalizing m with
  | nil => rfl
  | cons r rest ih =>
    rw [List.foldl_cons, ih, upsert]
    by_cases hk : key r = k
    · rw [List.filter_cons_of_pos (by simpa using hk), List.foldl_cons, ← hk, AList.lookup_insert]
      rfl
    · rw [List.filter_cons_of_neg (by simpa using hk), AList.lookup_insert_ne (Ne.symm hk)]

variable {key new f} {rows : List α} {rowKey : α → Option κ} {samples : α → List ρ}

theorem filter_flatMap_rows (hkey : ∀ a ∈ rows, ∀ r ∈ samples a, rowKey a = some (key r)) (k : κ) :
    (rows.flatMap samples).filter (fun r => key r = k) =
      (rows.filter fun a => rowKey a = some k).flatMap samples := by
  induction rows with
  | nil => rfl
  | cons a rest ih =>
    have hfirst := hkey a List.mem_cons_self
    rw [List.flatMap_cons, List.filter_append, ih fun b hb => hkey b (List.mem_cons_of_mem a hb)]
    by_cases hk : rowKey a = some k
    · rw [List.filter_cons_of_pos (by simpa using hk), List.flatMap_cons, List.filter_eq_self.mpr]
      intro r hr
      have hr' := (hfirst r hr).symm.trans hk
      exact decide_eq_true (Option.some.inj hr')
    · rw [List.filter_cons_of_neg (by simpa using hk), List.filter_eq_nil_iff.mpr, List.nil_append]
      intro r hr heq
      exact hk ((hfirst r hr).trans (congrArg some (of_decide_eq_true heq)))

/-- **Samples of rows**: each row's samples are under the row's key, and no two rows have
one key. -/
theorem lookup_foldl_rows (hnd : (rows.filterMap rowKey).Nodup)
    (hkey : ∀ a ∈ rows, ∀ r ∈ samples a, rowKey a = some (key r)) {k : κ} {v : υ} :
    ((rows.flatMap samples).foldl (fun m r => m.upsert (key r) (new r) (f r)) (∅ : HashMap κ υ)).lookup k = some v ↔
      ∃ a ∈ rows, rowKey a = some k ∧ (samples a).foldl (sampled new f) none = some v := by
  rw [lookup_foldl_upsert, filter_flatMap_rows hkey, AList.lookup_empty]
  constructor
  · intro h
    rcases hrows : rows.filter (fun a => rowKey a = some k) with _ | ⟨a, others⟩
    · rw [hrows] at h
      cases h
    · have hmem : a ∈ rows.filter (fun a => rowKey a = some k) := by rw [hrows]; exact List.mem_cons_self
      obtain ⟨ha, hk⟩ := List.mem_filter.mp hmem
      have hk := of_decide_eq_true hk
      rw [filter_eq_singleton hnd ha hk, List.flatMap_singleton] at h
      exact ⟨a, ha, hk, h⟩
  · rintro ⟨a, ha, hk, h⟩
    rw [filter_eq_singleton hnd ha hk, List.flatMap_singleton]
    exact h

/-- The values of a map that holds a value for each row that has one. -/
theorem values_perm {m : HashMap κ υ} {value : α → Option υ} (hnd : (rows.filterMap rowKey).Nodup)
    (hvalue : ∀ a v, value a = some v → ∃ k, rowKey a = some k)
    (h : ∀ k v, m.lookup k = some v ↔ ∃ a ∈ rows, rowKey a = some k ∧ value a = some v) :
    m.values.Perm (rows.filterMap value) := by
  let entry : α → Option (Sigma fun _ : κ => υ) := fun a =>
    (rowKey a).bind fun k => (value a).map fun v => ⟨k, v⟩
  have hentry : ∀ a k v, entry a = some ⟨k, v⟩ ↔ rowKey a = some k ∧ value a = some v := by
    intro a k v
    simp only [entry, Option.bind_eq_some_iff, Option.map_eq_some_iff, Sigma.mk.injEq, heq_eq_eq]
    exact ⟨fun ⟨k', hk, v', hv, hkk, hvv⟩ => ⟨hkk ▸ hk, hvv ▸ hv⟩, fun ⟨hk, hv⟩ => ⟨k, hk, v, hv, rfl, rfl⟩⟩
  have hkeys : (rows.filterMap entry).NodupKeys :=
    nodup_map_filterMap (g := Sigma.fst) (fun a e he => ((hentry a e.1 e.2).mp he).1) hnd
  have hentries : m.entries.Perm (rows.filterMap entry) := by
    refine List.lookup_ext m.nodupKeys hkeys fun k v => ?_
    rw [List.mem_dlookup_iff hkeys, List.mem_filterMap]
    exact (h k v).trans (exists_congr fun a => and_congr_right fun _ => (hentry a k v).symm)
  have hvalues := hentries.map Sigma.snd
  rw [List.map_filterMap] at hvalues
  refine hvalues.trans (List.Perm.of_eq (List.filterMap_congr fun a _ => ?_))
  cases hv : value a with
  | none => simp [entry, hv]
  | some v =>
    obtain ⟨k, hk⟩ := hvalue a v hv
    simp [entry, hv, hk]

end

/-! ## The order of the keys -/

section
variable {ι : Type v} [LinearOrder ι] (m : HashMap ι υ)

theorem values_byKey_perm : (m.byKey.map Prod.snd).Perm m.values := by
  have hperm := m.byKey_perm.map Prod.snd
  rwa [List.map_map] at hperm

/-- The keys ascend. -/
theorem pairwise_byKey : (m.byKey.map Prod.fst).Pairwise (· < ·) := by
  have hle : m.byKey.Pairwise fun a b => a.1 ≤ b.1 :=
    List.pairwise_insertionSort (fun a b : ι × υ => a.1 ≤ b.1) _
  have hne : m.byKey.Pairwise fun a b => a.1 ≠ b.1 := List.pairwise_map.mp m.nodup_byKey
  exact List.pairwise_map.mpr (hle.and hne |>.imp fun h => lt_of_le_of_ne h.1 h.2)

end

end JaspyNexus.Lib.HashMap
