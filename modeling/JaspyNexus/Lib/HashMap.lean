import Mathlib

/-! # Maps that are iterated

A map whose entries are visited in an order that nothing decides. The order is that of
its entries; two maps that differ in nothing else are reorderings of each other. -/

namespace JaspyNexus.Lib

universe u v
variable {κ : Type u} {υ : Type v}

/-- Entries under distinct keys, in the order in which they are visited. -/
abbrev HashMap (κ : Type u) (υ : Type v) := AList fun _ : κ => υ

namespace HashMap

/-- Another order of the same entries. -/
def Reorders (m m' : HashMap κ υ) : Prop := m.entries.Perm m'.entries

/-- `values`. -/
def values (m : HashMap κ υ) : List υ := m.entries.map Sigma.snd

/-- `values_mut`: every value is changed where it stands. -/
def update (m : HashMap κ υ) (f : κ → υ → υ) : HashMap κ υ where
  entries := m.entries.map (Sigma.map id f)
  nodupKeys := List.NodupKeys.map₂ f _ m.nodupKeys

/-- `retain`. -/
def retain (m : HashMap κ υ) (p : κ → υ → Bool) : HashMap κ υ where
  entries := m.entries.filter fun e => p e.1 e.2
  nodupKeys := m.nodupKeys.sublist List.filter_sublist

variable [DecidableEq κ] {m m' : HashMap κ υ} {k k' : κ} {v : υ}

/-- `get_mut`: what is held under the key, if anything, is changed where it stands. -/
def modify (m : HashMap κ υ) (k : κ) (f : υ → υ) : HashMap κ υ :=
  m.update fun k' v => if k' = k then f v else v

/-- `entry(k).or_insert(d)`, then changed. -/
def upsert (m : HashMap κ υ) (k : κ) (d : υ) (f : υ → υ) : HashMap κ υ :=
  m.insert k (f ((m.lookup k).getD d))

omit [DecidableEq κ] in
theorem Reorders.refl (m : HashMap κ υ) : Reorders m m := List.Perm.refl _

omit [DecidableEq κ] in
theorem Reorders.symm (h : Reorders m m') : Reorders m' m := List.Perm.symm h

omit [DecidableEq κ] in
theorem Reorders.values (h : Reorders m m') : (values m).Perm (HashMap.values m') := h.map _

theorem Reorders.lookup (h : Reorders m m') (k : κ) : m.lookup k = m'.lookup k := AList.perm_lookup h

theorem mem_iff_lookup : k ∈ m ↔ ∃ v, m.lookup k = some v := by
  rw [← AList.lookup_isSome, Option.isSome_iff_exists]

theorem mem_entries : (⟨k, v⟩ : Sigma fun _ => υ) ∈ m.entries ↔ m.lookup k = some v :=
  (AList.mem_lookup_iff (a := k) (b := v) (s := m)).symm

theorem lookup_retain {p : κ → υ → Bool} : (m.retain p).lookup k = (m.lookup k).filter (p k) := by
  ext v
  rw [Option.filter_eq_some_iff, ← mem_entries, ← mem_entries]
  exact List.mem_filter

/-- Maps that hold the same are reorderings of each other. -/
theorem reorders_of_lookup (h : ∀ k, m.lookup k = m'.lookup k) : Reorders m m' := by
  refine (List.perm_ext_iff_of_nodup m.nodupKeys.nodup m'.nodupKeys.nodup).mpr fun ⟨k, v⟩ => ?_
  rw [mem_entries, mem_entries, h]

theorem mem_values : v ∈ values m ↔ ∃ k, m.lookup k = some v := by
  simp only [values, List.mem_map, Sigma.exists, exists_eq_right]
  exact exists_congr fun k => mem_entries

theorem lookup_update (f : κ → υ → υ) : (m.update f).lookup k = (m.lookup k).map (f k) :=
  List.dlookup_map₂ k

/-- A test that is passed under one key alone picks what stands there. -/
theorem filter_values {p : υ → Bool} (h : ∀ k' v, m.lookup k' = some v → (p v = true ↔ k' = k)) :
    (values m).filter p = (m.lookup k).toList := by
  obtain ⟨entries, hnd⟩ := m
  have hp : ∀ e ∈ entries, (p e.2 = true ↔ e.1 = k) := fun e he => h e.1 e.2 (mem_entries.mp he)
  show (entries.map Sigma.snd).filter p = (entries.dlookup k).toList
  rw [← List.lookupAll_eq_dlookup k hnd]
  clear h hnd
  induction entries with
  | nil => rfl
  | cons e rest ih =>
    have hrest := ih fun e he => hp e (List.mem_cons_of_mem _ he)
    rw [List.map_cons]
    by_cases hkey : e.1 = k
    · subst hkey
      rw [List.filter_cons_of_pos ((hp e List.mem_cons_self).mpr rfl), hrest]
      exact (List.lookupAll_cons_eq rest e.1 e.2).symm
    · rw [List.filter_cons_of_neg (fun hpick => hkey ((hp e List.mem_cons_self).mp hpick)), hrest,
        List.lookupAll_cons_ne rest e (Ne.symm hkey)]

theorem mem_update {f : κ → υ → υ} : k ∈ m.update f ↔ k ∈ m := by
  rw [mem_iff_lookup, mem_iff_lookup]
  simp [lookup_update]

theorem mem_upsert {d : υ} {f : υ → υ} : k' ∈ m.upsert k d f ↔ k' = k ∨ k' ∈ m := AList.mem_insert m

/-! ## Orders that are asked for -/

/-- The order in which the entries that `p` picks come first. -/
def toFront (m : HashMap κ υ) (p : (Sigma fun _ : κ => υ) → Bool) : HashMap κ υ where
  entries := m.entries.filter p ++ m.entries.filter fun e => !p e
  nodupKeys := (List.perm_nodupKeys (List.filter_append_perm p m.entries)).mpr m.nodupKeys

omit [DecidableEq κ] in
theorem reorders_toFront (p : (Sigma fun _ : κ => υ) → Bool) : Reorders m (m.toFront p) :=
  (List.filter_append_perm p m.entries).symm

omit [DecidableEq κ] in
/-- The only entry picked that a search looks for is found by it. -/
theorem find?_toFront {p q : (Sigma fun _ : κ => υ) → Bool} {e : Sigma fun _ : κ => υ}
    (he : e ∈ m.entries) (hp : p e = true) (hq : q e = true)
    (honly : ∀ e' ∈ m.entries, p e' = true → q e' = true → e' = e) :
    (m.toFront p).entries.find? q = some e := by
  have hpicked : (m.entries.filter p).find? q = some e := by
    obtain ⟨found, hfound⟩ := Option.isSome_iff_exists.mp
      (List.find?_isSome.mpr ⟨e, List.mem_filter.mpr ⟨he, hp⟩, hq⟩)
    obtain ⟨hmem, hpick⟩ := List.mem_filter.mp (List.mem_of_find?_eq_some hfound)
    rw [hfound, honly found hmem hpick (List.find?_some hfound)]
  show (m.entries.filter p ++ m.entries.filter fun e => !p e).find? q = some e
  rw [List.find?_append, hpicked]
  rfl

/-- What stands under the key asked for is visited first. -/
theorem entries_toFront (h : m.lookup k = some v) :
    ∃ rest, (m.toFront fun e => e.1 = k).entries = ⟨k, v⟩ :: rest := by
  have he := mem_entries.mpr h
  have hin : ⟨k, v⟩ ∈ m.entries.filter fun e => e.1 = k := List.mem_filter.mpr ⟨he, by simp⟩
  cases hpicked : m.entries.filter fun e => e.1 = k with
  | nil =>
    rw [hpicked] at hin
    cases hin
  | cons e rest =>
    have hmem : e ∈ m.entries.filter fun e => e.1 = k := by rw [hpicked]; exact List.mem_cons_self
    obtain ⟨hmem, hkey⟩ := List.mem_filter.mp hmem
    obtain rfl := List.NodupKeys.eq_of_fst_eq m.nodupKeys hmem he (of_decide_eq_true hkey)
    exact ⟨_, by simp only [toFront, hpicked]; rfl⟩

theorem values_toFront (h : m.lookup k = some v) :
    ∃ rest, (m.toFront fun e => e.1 = k).values = v :: rest := by
  obtain ⟨rest, hrest⟩ := entries_toFront h
  exact ⟨_, by rw [values, hrest]; rfl⟩

/-! ## Keys in order -/

section
variable {κ : Type u} {υ : Type v} [LE κ] [DecidableLE κ] (m : HashMap κ υ)

/-- The entries in the order of their keys, as a `BTreeMap` visits them. -/
def byKey : List (κ × υ) :=
  (m.entries.map fun e => (e.1, e.2)).insertionSort fun a b => a.1 ≤ b.1

theorem byKey_perm : m.byKey.Perm (m.entries.map fun e => (e.1, e.2)) := List.perm_insertionSort _ _

theorem length_byKey : m.byKey.length = m.entries.length := by
  rw [m.byKey_perm.length_eq, List.length_map]

variable {m}

theorem mem_byKey [DecidableEq κ] {k : κ} {v : υ} : (k, v) ∈ m.byKey ↔ m.lookup k = some v := by
  rw [m.byKey_perm.mem_iff, ← mem_entries, List.mem_map]
  exact ⟨fun ⟨e, he, heq⟩ => by cases heq; exact he, fun h => ⟨_, h, rfl⟩⟩

/-- Every key is visited once. -/
theorem nodup_byKey : (m.byKey.map Prod.fst).Nodup := by
  refine ((m.byKey_perm.map Prod.fst).nodup_iff).mpr ?_
  rw [List.map_map]
  exact m.nodupKeys

end

end HashMap

/-! ## The first that is found, of several possible answers -/

section First
variable {α : Type u} {β ι : Type v}

/-- What a search for the first answer may end in, when each question has several
possible outcomes: `none` when one goes wrong. -/
inductive FirstIn (turn : α → Option (Option β) → Prop) : List α → Option (Option β) → Prop
  | nil : FirstIn turn [] (some none)
  | next {a : α} {rest : List α} {out : Option (Option β)} :
    turn a (some none) → FirstIn turn rest out → FirstIn turn (a :: rest) out
  | stop {a : α} {rest : List α} {out : Option (Option β)} :
    turn a out → out ≠ some none → FirstIn turn (a :: rest) out

/-- **Every search, and nothing else**: the possible outcomes are those of the searches
that settle each question in one way, where a question that may stay unanswered does. -/
theorem firstIn_iff [Nonempty ι] (turn : α → Option (Option β) → Prop) (f : ι → α → Option (Option β))
    (hsound : ∀ i a, turn a (f i a)) (hreal : ∀ a out, turn a out → ∃ i, f i a = out)
    (hdet : ∀ a out, turn a (some none) → turn a out → out = some none) {as : List α}
    {out : Option (Option β)} : FirstIn turn as out ↔ ∃ i, as.findSomeM? (f i) = out := by
  constructor
  · intro h
    induction h with
    | nil =>
      obtain ⟨i⟩ := ‹Nonempty ι›
      exact ⟨i, rfl⟩
    | @next a rest out ha _ ih =>
      obtain ⟨i, hi⟩ := ih
      refine ⟨i, ?_⟩
      rw [List.findSomeM?_cons, hdet a _ ha (hsound i a)]
      exact hi
    | @stop a rest out ha hne =>
      obtain ⟨i, hi⟩ := hreal a out ha
      refine ⟨i, ?_⟩
      rw [List.findSomeM?_cons, hi]
      match out, hne with
      | none, _ => rfl
      | some (some _), _ => rfl
      | some none, hne => exact absurd rfl hne
  · intro ⟨i, hi⟩
    subst hi
    induction as with
    | nil => exact .nil
    | cons a rest ih =>
      have ha := hsound i a
      rw [List.findSomeM?_cons]
      cases hout : f i a with
      | none =>
        rw [hout] at ha
        exact .stop ha nofun
      | some answer =>
        rw [hout] at ha
        cases answer with
        | some v => exact .stop ha nofun
        | none => exact .next ha ih

end First
end JaspyNexus.Lib
