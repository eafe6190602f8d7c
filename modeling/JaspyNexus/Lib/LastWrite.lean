import Mathlib

/-! # Maps written row by row

A loop that reads rows and inserts what some of them say leaves, under each key,
what the last row about it said. -/

namespace JaspyNexus.Lib

universe u v w
variable {ρ : Type u} {κ : Type v} {υ : Type w} [DecidableEq κ]

/-- Insert what the rows say, in order. -/
def writeAll (say : ρ → Option (κ × υ)) (rows : List ρ) : AList fun _ : κ => υ :=
  rows.foldl (fun m row => match say row with
    | some e => m.insert e.1 e.2
    | none => m) ∅

/-- What a row says about a key. -/
def sayOf (say : ρ → Option (κ × υ)) (k : κ) (row : ρ) : Option υ :=
  (say row).bind fun e => if e.1 = k then some e.2 else none

theorem sayOf_eq_some_iff {say : ρ → Option (κ × υ)} {k : κ} {row : ρ} {v : υ} :
    sayOf say k row = some v ↔ say row = some (k, v) := by
  unfold sayOf
  cases say row with
  | none => simp
  | some e => simp [Prod.ext_iff]

theorem writeAll_append_singleton (say : ρ → Option (κ × υ)) (rows : List ρ) (row : ρ) :
    writeAll say (rows ++ [row]) = match say row with
      | some e => (writeAll say rows).insert e.1 e.2
      | none => writeAll say rows := by
  unfold writeAll
  rw [List.foldl_append, List.foldl_cons, List.foldl_nil]

/-- **The last word counts.** -/
theorem lookup_writeAll (say : ρ → Option (κ × υ)) (rows : List ρ) (k : κ) :
    (writeAll say rows).lookup k = (rows.filterMap (sayOf say k)).getLast? := by
  induction rows using List.reverseRecOn with
  | nil => rfl
  | append_singleton rows row ih =>
    rw [writeAll_append_singleton, List.filterMap_append, List.getLast?_append, ← ih]
    cases hs : say row with
    | none => simp [sayOf, hs]
    | some e =>
      by_cases hk : e.1 = k
      · subst hk
        simp [sayOf, hs]
      · simp [sayOf, hs, hk, AList.lookup_insert_ne (Ne.symm hk)]

/-- A key is written exactly when some row speaks of it. -/
theorem lookup_writeAll_isSome {say : ρ → Option (κ × υ)} {rows : List ρ} {k : κ} :
    ((writeAll say rows).lookup k).isSome = true ↔ ∃ row ∈ rows, ∃ v, say row = some (k, v) := by
  rw [lookup_writeAll, List.getLast?_isSome]
  constructor
  · intro h
    obtain ⟨v, hv⟩ := List.exists_mem_of_ne_nil _ h
    obtain ⟨row, hrow, hs⟩ := List.mem_filterMap.mp hv
    exact ⟨row, hrow, v, sayOf_eq_some_iff.mp hs⟩
  · rintro ⟨row, hrow, v, hs⟩
    exact List.ne_nil_of_mem (List.mem_filterMap.mpr ⟨row, hrow, sayOf_eq_some_iff.mpr hs⟩)

/-- What is held, some row said. -/
theorem exists_of_lookup_writeAll {say : ρ → Option (κ × υ)} {rows : List ρ} {k : κ} {v : υ}
    (h : (writeAll say rows).lookup k = some v) : ∃ row ∈ rows, say row = some (k, v) := by
  rw [lookup_writeAll] at h
  obtain ⟨row, hrow, hs⟩ := List.mem_filterMap.mp (List.mem_of_getLast? h)
  exact ⟨row, hrow, sayOf_eq_some_iff.mp hs⟩

/-- Rows that agree about a key are held. -/
theorem lookup_writeAll_eq_some_iff {say : ρ → Option (κ × υ)} {rows : List ρ} {k : κ} {v : υ}
    (hagree : ∀ row ∈ rows, ∀ row' ∈ rows, ∀ v v', say row = some (k, v) → say row' = some (k, v') → v = v') :
    (writeAll say rows).lookup k = some v ↔ ∃ row ∈ rows, say row = some (k, v) := by
  refine ⟨exists_of_lookup_writeAll, fun ⟨row, hrow, hs⟩ => ?_⟩
  obtain ⟨v', hv'⟩ := Option.isSome_iff_exists.mp (lookup_writeAll_isSome.mpr ⟨row, hrow, v, hs⟩)
  obtain ⟨row', hrow', hs'⟩ := exists_of_lookup_writeAll hv'
  rw [hv', hagree row hrow row' hrow' v v' hs hs']

omit [DecidableEq κ] in
/-- Rows of one key are one row, where keys are distinct. -/
theorem eq_of_nodup_filterMap {key : ρ → Option κ} {rows : List ρ} (hnd : (rows.filterMap key).Nodup)
    {row row' : ρ} (hrow : row ∈ rows) (hrow' : row' ∈ rows) {k : κ} (h : key row = some k)
    (h' : key row' = some k) : row = row' := by
  have hpair := List.pairwise_filterMap.mp hnd
  have : Std.Symm fun a a' : ρ => ∀ x, key a = some x → ∀ y, key a' = some y → x ≠ y :=
    ⟨fun _ _ hab x hx y hy => (hab y hy x hx).symm⟩
  by_contra hne
  exact hpair.forall hrow hrow' hne k h k h' rfl

/-- Rows of distinct keys are all held, each under its own. -/
theorem lookup_writeAll_of_nodup {say : ρ → Option (κ × υ)} {key : ρ → Option κ} {rows : List ρ}
    (hkey : ∀ row e, say row = some e → key row = some e.1) (hnd : (rows.filterMap key).Nodup) {k : κ} {v : υ} :
    (writeAll say rows).lookup k = some v ↔ ∃ row ∈ rows, say row = some (k, v) := by
  refine lookup_writeAll_eq_some_iff fun row hrow row' hrow' v v' hs hs' => ?_
  have hkeys : key row = some k ∧ key row' = some k := ⟨hkey row _ hs, hkey row' _ hs'⟩
  obtain rfl := eq_of_nodup_filterMap hnd hrow hrow' hkeys.1 hkeys.2
  cases hs.symm.trans hs'
  rfl

/-- Of rows of distinct keys the order does not matter. -/
theorem lookup_writeAll_perm {say : ρ → Option (κ × υ)} {key : ρ → Option κ} {rows rows' : List ρ}
    (hkey : ∀ row e, say row = some e → key row = some e.1) (hnd : (rows.filterMap key).Nodup)
    (hperm : rows.Perm rows') (k : κ) : (writeAll say rows).lookup k = (writeAll say rows').lookup k := by
  refine Option.ext fun v => ?_
  rw [lookup_writeAll_of_nodup hkey hnd, lookup_writeAll_of_nodup hkey ((hperm.filterMap key).nodup_iff.mp hnd)]
  simp only [hperm.mem_iff]

/-- An association list is empty when every key reads nothing. -/
theorem entries_eq_nil_iff {m : AList fun _ : κ => υ} :
    m.entries = [] ↔ ∀ k, m.lookup k = none := by
  constructor
  · intro h k
    rw [AList.lookup_eq_none, AList.mem_keys, AList.keys, h]
    simp [List.keys]
  · intro h
    cases he : m.entries with
    | nil => rfl
    | cons e rest =>
      have hmem : e ∈ m.entries := by rw [he]; exact List.mem_cons_self
      have hsome : m.lookup e.1 = some e.2 := AList.mem_lookup_iff.mpr hmem
      rw [h e.1] at hsome
      cases hsome

/-- **Each key once**: a loop over the entries of another map that rewrites the
value under each entry's key does to a key what its entry says. -/
theorem lookup_foldl_entries {β : Type w} (g : κ → β → Option υ → υ) :
    ∀ (entries : List (Sigma fun _ : κ => β)), entries.NodupKeys →
      ∀ (m : AList fun _ : κ => υ) (k : κ),
        (entries.foldl (fun m e => m.insert e.1 (g e.1 e.2 (m.lookup e.1))) m).lookup k =
          ((entries.dlookup k).map fun v => g k v (m.lookup k)).or (m.lookup k)
  | [], _, m, k => rfl
  | e :: rest, hnd, m, k => by
    obtain ⟨k', v⟩ := e
    rw [List.nodupKeys_cons] at hnd
    rw [List.foldl_cons, lookup_foldl_entries g rest hnd.2]
    by_cases hk : k = k'
    · subst hk
      have hrest : rest.dlookup k = none := List.dlookup_eq_none.mpr hnd.1
      simp [hrest]
    · rw [List.dlookup_cons_ne _ _ (by exact hk), AList.lookup_insert_ne hk]

end JaspyNexus.Lib
