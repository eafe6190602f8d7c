import Mathlib
import JaspyNexus.Snmp.Embedded

/-! # Conformant agents

An SNMP agent answers from a finite map of OIDs to values, in lexicographic
order: varbind `p` of a GETBULK over `k` OIDs is the `p / k + 1`-th successor of
the OID in slot `p % k`, or `endOfMibView` under the last OID reached. An answer
may be cut anywhere after its first varbind. -/

namespace JaspyNexus.Snmp
open JaspyNexus.Lib JaspyNexus.Snmp.Embedded

/-- What an agent serves: its values in OID order, none of them a sentinel. -/
structure Agent where
  tree : List VarBind
  sorted : tree.Pairwise fun e e' => e.oid < e'.oid
  values : ∀ e ∈ tree, e.value.isEndOfView = false

namespace Agent
variable (A : Agent)

/-- The value under an OID. -/
def value (oid : Oid) : Option RawValue := (A.tree.find? fun e => e.oid = oid).map VarBind.value

/-- The lexicographic successor of an OID. -/
def successor (oid : Oid) : VarBind :=
  (A.tree.find? fun e => oid < e.oid).getD ⟨oid, .endOfMibView⟩

/-- The OID reached after `r` successors. -/
def skip (r : Nat) (oid : Oid) : Oid := (fun o => (A.successor o).oid)^[r] oid

/-- Varbind `p` of an answer. -/
def varbind (oids : List Oid) (p : Nat) : VarBind :=
  A.successor (A.skip (p / oids.length) (oids.getD (p % oids.length) []))

/-- The full answer to a GETBULK. -/
def getbulk (oids : List Oid) (maxRepetitions : Nat) : List VarBind :=
  (List.range (maxRepetitions * oids.length)).map (A.varbind oids)

/-- The agent behind a transport that cuts answer `i` to `cuts i + 1` varbinds;
the state is the cuts to come. -/
def transport : Transport (Nat → Nat) where
  getbulkMulti cuts oids maxRepetitions :=
    (.ok ((A.getbulk oids maxRepetitions).take (cuts 0 + 1)), fun i => cuts (i + 1))

/-- The agent's rows under `base` that lie beyond `last`. -/
def rowsBeyond (base last : Oid) : List VarBind :=
  A.tree.filter fun e => startsWith e.oid base && decide (last < e.oid)

/-- The rows of the column at `base`. -/
def rows (base : Oid) : List VarBind := A.rowsBeyond base base

end Agent

/-! ## OIDs under a base -/

/-- The OIDs under a base lie together. -/
theorem isPrefix_of_between : ∀ {base a b c : Oid}, base <+: a → base <+: c → a < b → b < c →
    base <+: b
  | [], _, _, _, _, _, _, _ => List.nil_prefix
  | x :: base, a, b, c, ha, hc, hab, hbc => by
    obtain ⟨a', rfl⟩ := ha
    obtain ⟨c', rfl⟩ := hc
    cases b with
    | nil => exact absurd hab (List.not_lt_nil _)
    | cons y b =>
      rw [List.cons_append, List.cons_lt_cons_iff] at hab
      rw [List.cons_append, List.cons_lt_cons_iff] at hbc
      have hxy : x = y := by
        rcases hab with h | ⟨h, _⟩
        · rcases hbc with h' | ⟨h', _⟩
          · exact absurd h (lt_asymm h')
          · exact h'.symm
        · exact h
      subst hxy
      have hab' : base ++ a' < b := hab.resolve_left (lt_irrefl x) |>.2
      have hbc' : b < base ++ c' := hbc.resolve_left (lt_irrefl x) |>.2
      exact List.cons_prefix_cons.mpr ⟨rfl, isPrefix_of_between (List.prefix_append _ _)
        (List.prefix_append _ _) hab' hbc'⟩

theorem lt_append_of_ne_nil (base : Oid) {suffix : Oid} (h : suffix ≠ []) :
    base < base ++ suffix := by
  induction base with
  | nil =>
    cases suffix with
    | nil => exact absurd rfl h
    | cons x rest => exact List.nil_lt_cons x rest
  | cons y base ih => exact List.cons_lt_cons_iff.mpr (.inr ⟨rfl, ih⟩)

@[simp] theorem startsWith_iff {oid base : Oid} : startsWith oid base = true ↔ base <+: oid := by
  simp [startsWith]

/-! ## The rows of a column -/

namespace Agent
variable {A : Agent} {base last : Oid} {vb : VarBind}

theorem mem_rowsBeyond :
    vb ∈ A.rowsBeyond base last ↔ vb ∈ A.tree ∧ base <+: vb.oid ∧ last < vb.oid := by
  simp [rowsBeyond, List.mem_filter]

theorem mem_rows_iff {suffix : Oid} {v : RawValue} (hs : suffix ≠ []) :
    ⟨base ++ suffix, v⟩ ∈ A.rows base ↔ ⟨base ++ suffix, v⟩ ∈ A.tree := by
  simp [rows, mem_rowsBeyond, lt_append_of_ne_nil base hs]

/-- The agent holds one value under an OID. -/
theorem value_eq_some_iff {oid : Oid} {v : RawValue} :
    A.value oid = some v ↔ ⟨oid, v⟩ ∈ A.tree := by
  have hsorted := A.sorted
  unfold value
  generalize A.tree = tree at hsorted
  induction tree with
  | nil => simp
  | cons e rest ih =>
    obtain ⟨hhead, htail⟩ := List.pairwise_cons.mp hsorted
    rw [List.find?_cons]
    by_cases he : e.oid = oid
    · have hrest : (⟨oid, v⟩ : VarBind) ∉ rest := fun hmem =>
        absurd (hhead _ hmem) (by simp [he])
      simp only [he, decide_true, Option.map_some, Option.some.injEq, List.mem_cons, hrest,
        or_false]
      constructor
      · rintro rfl; rw [← he]
      · intro h; rw [← h]
    · have hne : (⟨oid, v⟩ : VarBind) ≠ e := fun h => he (by rw [← h])
      simp only [he, decide_false, List.mem_cons, hne, false_or]
      exact ih htail

/-- Past the last row of a column the successor is outside it. -/
theorem successor_of_nil (h : A.rowsBeyond base last = []) :
    ((A.successor last).value.isEndOfView ||
      !startsWith (A.successor last).oid base) = true := by
  unfold successor
  cases hfind : A.tree.find? fun e => last < e.oid with
  | none => rfl
  | some e =>
    have hmem := List.mem_of_find?_eq_some hfind
    have hlt : last < e.oid := by simpa using List.find?_some hfind
    have hout : ¬ base <+: e.oid := fun hpre => by
      have := mem_rowsBeyond.mpr ⟨hmem, hpre, hlt⟩
      rw [h] at this
      cases this
    have hstart : startsWith e.oid base = false := by simpa [startsWith] using hout
    simp [hstart]

/-- **The successor of a cursor is the column's next row**, and the rows beyond
it are what is left. -/
theorem successor_of_cons {rest : List VarBind} (hbase : base <+: last)
    (h : A.rowsBeyond base last = vb :: rest) :
    A.successor last = vb ∧ A.rowsBeyond base vb.oid = rest := by
  have hsorted := A.sorted
  unfold successor
  unfold rowsBeyond at h ⊢
  generalize A.tree = tree at h hsorted
  induction tree with
  | nil => cases h
  | cons e tail ih =>
    obtain ⟨hhead, htail⟩ := List.pairwise_cons.mp hsorted
    by_cases hlt : last < e.oid
    · by_cases hpre : base <+: e.oid
      · -- `e` is the next row
        rw [List.filter_cons_of_pos (by simp [hlt, hpre])] at h
        obtain ⟨rfl, htl⟩ := List.cons.inj h
        refine ⟨by rw [List.find?_cons_of_pos (by simpa using hlt)]; rfl, ?_⟩
        rw [List.filter_cons_of_neg (by simp), ← htl]
        refine List.filter_congr fun e' he' => ?_
        have : last < e'.oid := hlt.trans (hhead e' he')
        simp [hhead e' he', this]
      · -- a row beyond `e` would put `e` under the base
        have hmem : vb ∈ (e :: tail).filter
            fun e => startsWith e.oid base && decide (last < e.oid) := by rw [h]; simp
        simp only [List.mem_filter, List.mem_cons, Bool.and_eq_true, startsWith_iff,
          decide_eq_true_eq] at hmem
        rcases hmem.1 with rfl | hin
        · exact absurd hmem.2.1 hpre
        · exact absurd (isPrefix_of_between hbase hmem.2.1 hlt (hhead vb hin)) hpre
    · rw [List.filter_cons_of_neg (by simp [hlt])] at h
      obtain ⟨hfind, hrest⟩ := ih h htail
      refine ⟨by rw [List.find?_cons_of_neg (by simpa using hlt)]; exact hfind, ?_⟩
      have hvb : last < vb.oid := by
        have hmem : vb ∈ tail.filter
            fun e => startsWith e.oid base && decide (last < e.oid) := by rw [h]; simp
        simp only [List.mem_filter, Bool.and_eq_true, decide_eq_true_eq] at hmem
        exact hmem.2.2
      rw [List.filter_cons_of_neg]
      · exact hrest
      · simp only [Bool.and_eq_true, decide_eq_true_eq, not_and]
        exact fun _ => not_lt.mpr ((not_lt.mp hlt).trans hvb.le)

theorem skip_succ (r : Nat) (oid : Oid) : A.skip (r + 1) oid = (A.successor (A.skip r oid)).oid :=
  Function.iterate_succ_apply' ..

end Agent

end JaspyNexus.Snmp
