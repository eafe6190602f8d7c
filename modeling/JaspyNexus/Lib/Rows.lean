import Mathlib

/-! # Rows with ids

Tables as lists of rows. Ids are given once, from a counter that only grows, and
`key` is a part of a row that no write changes: what was once read of the key of an
id stays true of that id. -/

namespace JaspyNexus.Lib.Rows

variable {α κ : Type*} (id : α → Int) (key : α → κ)

/-- A row of the id, if there is one, has the key. -/
structure Known (seq : Int) (rows : List α) (i : Int) (k : κ) : Prop where
  below : i < seq
  key_eq : ∀ row ∈ rows, id row = i → key row = k

/-- Later rows of ids already given are those that were there, in their keys. -/
structure Kept (seq : Int) (rows : List α) (seq' : Int) (rows' : List α) : Prop where
  le : seq ≤ seq'
  old : ∀ row' ∈ rows', id row' < seq → ∃ row ∈ rows, id row = id row' ∧ key row = key row'

variable {id key} {seq seq' seq'' i : Int} {rows rows' rows'' : List α} {k : κ}

theorem Known.of_mem (hids : (rows.map id).Nodup) (hseq : ∀ row ∈ rows, id row < seq) {row : α}
    (hrow : row ∈ rows) : Known id key seq rows (id row) (key row) :=
  ⟨hseq row hrow, fun other hother hid => by rw [List.inj_on_of_nodup_map hids hother hrow hid]⟩

theorem Known.later (h : Known id key seq rows i k) (hkept : Kept id key seq rows seq' rows') :
    Known id key seq' rows' i k := by
  refine ⟨h.below.trans_le hkept.le, fun row' hrow' hid => ?_⟩
  obtain ⟨row, hrow, hid', hkey⟩ := hkept.old row' hrow' (hid ▸ h.below)
  exact hkey ▸ h.key_eq row hrow (hid'.trans hid)

theorem Kept.refl (seq : Int) (rows : List α) : Kept id key seq rows seq rows :=
  ⟨le_rfl, fun row hrow _ => ⟨row, hrow, rfl, rfl⟩⟩

theorem Kept.trans (h : Kept id key seq rows seq' rows') (h' : Kept id key seq' rows' seq'' rows'') :
    Kept id key seq rows seq'' rows'' := by
  refine ⟨h.le.trans h'.le, fun row'' hrow'' hid => ?_⟩
  obtain ⟨row', hrow', hid', hkey'⟩ := h'.old row'' hrow'' (hid.trans_le h.le)
  obtain ⟨row, hrow, hid, hkey⟩ := h.old row' hrow' (hid'.trans_lt hid)
  exact ⟨row, hrow, hid.trans hid', hkey.trans hkey'⟩

theorem Kept.insert (rows : List α) {new : α} (hid : id new = seq) :
    Kept id key seq rows (seq + 1) (rows ++ [new]) := by
  refine ⟨by omega, fun row hrow hlt => ?_⟩
  rcases List.mem_append.mp hrow with hrow | hrow
  · exact ⟨row, hrow, rfl, rfl⟩
  · rw [List.mem_singleton.mp hrow, hid] at hlt
    exact absurd hlt (lt_irrefl _)

theorem Kept.delete (rows : List α) (p : α → Bool) : Kept id key seq rows seq (rows.filter p) :=
  ⟨le_rfl, fun row hrow _ => ⟨row, List.mem_of_mem_filter hrow, rfl, rfl⟩⟩

/-- A row of known key is written in place of that of its id. -/
theorem Kept.write {written : α} (h : Known id key seq rows (id written) (key written)) :
    Kept id key seq rows seq (rows.map fun row => if id row = id written then written else row) := by
  refine ⟨le_rfl, fun row' hrow' _ => ?_⟩
  obtain ⟨row, hrow, rfl⟩ := List.mem_map.mp hrow'
  refine ⟨row, hrow, ?_⟩
  split
  · next hid => exact ⟨hid, h.key_eq row hrow hid⟩
  · exact ⟨rfl, rfl⟩

theorem map_key_write {written : α} (h : Known id key seq rows (id written) (key written)) :
    (rows.map fun row => if id row = id written then written else row).map key = rows.map key := by
  rw [List.map_map]
  refine List.map_congr_left fun row hrow => ?_
  dsimp only [Function.comp_apply]
  split
  · next hid => exact (h.key_eq row hrow hid).symm
  · rfl

/-- A row written in place of one with its id and its key changes no key. -/
theorem map_key_replace (hids : (rows.map id).Nodup) {old written : α} (hold : old ∈ rows)
    (hid : id old = id written) (hkey : key old = key written) :
    (rows.map fun row => if id row = id written then written else row).map key = rows.map key := by
  refine map_key_write ⟨Int.lt_succ _, fun row hrow h => ?_⟩
  rw [List.inj_on_of_nodup_map hids hrow hold (h.trans hid.symm), hkey]

/-- An insert keeps keys distinct exactly when its key is new. -/
theorem nodup_insert_iff (h : (rows.map key).Nodup) (new : α) :
    ((rows ++ [new]).map key).Nodup ↔ ∀ row ∈ rows, key row ≠ key new := by
  rw [List.map_append, List.nodup_append]
  refine ⟨fun ⟨_, _, hne⟩ row hrow => hne _ (List.mem_map_of_mem hrow) _ (by simp), fun hne => ?_⟩
  refine ⟨h, List.nodup_singleton _, fun a ha b hb => ?_⟩
  obtain ⟨row, hrow, rfl⟩ := List.mem_map.mp ha
  rw [List.map_singleton, List.mem_singleton] at hb
  exact hb ▸ hne row hrow

/-! ## Looking up by a key -/

section Find
variable [DecidableEq κ]

theorem length_filter_key_le_one (h : (rows.map key).Nodup) (k : κ) :
    (rows.filter fun row => key row = k).length ≤ 1 := by
  have hsub : ((rows.filter fun row => key row = k).map key).Sublist (rows.map key) :=
    List.filter_sublist.map key
  have hsame : (rows.filter fun row => key row = k).map key =
      List.replicate (rows.filter fun row => key row = k).length k := by
    refine List.eq_replicate_iff.mpr ⟨List.length_map _, fun k' hk' => ?_⟩
    obtain ⟨row, hrow, rfl⟩ := List.mem_map.mp hk'
    exact of_decide_eq_true (List.mem_filter.mp hrow).2
  exact List.nodup_replicate.mp (hsame ▸ hsub.nodup h)

/-- Where keys are distinct, the row of a key is the one found. -/
theorem find?_eq_some_iff (h : (rows.map key).Nodup) {row : α} :
    (rows.find? fun row => key row = k) = some row ↔ row ∈ rows ∧ key row = k := by
  constructor
  · intro hfound
    exact ⟨List.mem_of_find?_eq_some hfound, by simpa using List.find?_some hfound⟩
  · rintro ⟨hrow, rfl⟩
    cases hfound : rows.find? fun other => key other = key row with
    | none => exact absurd (decide_eq_true rfl) (List.find?_eq_none.mp hfound row hrow)
    | some other =>
      have hkey : key other = key row := by simpa using List.find?_some hfound
      rw [List.inj_on_of_nodup_map h (List.mem_of_find?_eq_some hfound) hrow hkey]

theorem find?_insert (rows : List α) (new : α) : ((rows ++ [new]).find? fun row => key row = k) =
    (rows.find? fun row => key row = k).or (if key new = k then some new else none) := by
  rw [List.find?_append, List.find?_singleton]
  simp

/-- A row written in place of one with its id and its key is found under that key, and the
others as before. -/
theorem find?_write (hids : (rows.map id).Nodup) (hkeys : (rows.map key).Nodup) {old written : α}
    (hold : old ∈ rows) (hid : id old = id written) (hkey : key old = key written) :
    ((rows.map fun row => if id row = id written then written else row).find? fun row => key row = k) =
      if key written = k then some written else rows.find? fun row => key row = k := by
  have hknown : ∀ row ∈ rows, id row = id written → row = old := fun row hrow h =>
    List.inj_on_of_nodup_map hids hrow hold (h.trans hid.symm)
  have hkeys' : ((rows.map fun row => if id row = id written then written else row).map key).Nodup :=
    map_key_replace hids hold hid hkey ▸ hkeys
  ext row
  rw [find?_eq_some_iff hkeys', List.mem_map]
  split
  · next hk =>
    rw [Option.some.injEq]
    constructor
    · rintro ⟨⟨other, hother, rfl⟩, hrow⟩
      split
      · rfl
      · next hne =>
        rw [if_neg hne, ← hk, ← hkey] at hrow
        exact absurd (List.inj_on_of_nodup_map hkeys hother hold hrow ▸ hid) hne
    · rintro rfl
      exact ⟨⟨old, hold, if_pos hid⟩, hk⟩
  · next hk =>
    rw [find?_eq_some_iff hkeys]
    constructor
    · rintro ⟨⟨other, hother, rfl⟩, hrow⟩
      split at hrow
      · exact absurd hrow hk
      · next hne => exact ⟨by rwa [if_neg hne], by rwa [if_neg hne]⟩
    · rintro ⟨hrow, hrowkey⟩
      refine ⟨⟨row, hrow, if_neg fun h => hk ?_⟩, hrowkey⟩
      rw [← hkey, ← hknown row hrow h, hrowkey]

end Find

end JaspyNexus.Lib.Rows
