import Mathlib
import JaspyNexus.Snmp.Render

/-! # The lockstep table walk

`build_table` of `snmp/embedded.rs`: one GETBULK per round advances every column
that is still being walked; varbind `p` of an answer belongs to the column in
slot `p % k` of the request. A column ends by itself, at a varbind outside its
own subtree, an end-of-view sentinel, an OID that does not increase, or the row
cap. The walk ends when every column has, or when an answer advances none.

The `loop` runs on fuel; `walkRounds_isSome` shows how much is enough for any
transport. The answers received are recorded beside the result, so that a
theorem can say which varbind a row came from. -/

namespace JaspyNexus.Snmp.Embedded
open JaspyNexus.Lib JaspyNexus.Snmp JaspyNexus.Snmp.Render

/-- `MAX_COLUMN_ROWS`. -/
def maxColumnRows : Nat := 200000

/-- The wire operation the walk uses, over the transport's own state: the OIDs
and `max_repetitions` of a GETBULK, answered with varbinds or an error. -/
structure Transport (σ : Type) where
  getbulkMulti : σ → List Oid → Nat → Except String (List VarBind) × σ

def startsWith (oid base : Oid) : Bool := decide (base <+: oid)

/-! ## State of the walk -/

/-- The locals of `build_table`: the rows merged so far by index suffix, and for
each column its resume cursor (`none` once it has ended) and its row count. -/
structure Walk (n : Nat) where
  rows : Std.TreeMap Oid (PMap String RawValue)
  cursor : Fin n → Option Oid
  count : Fin n → Nat

/-- The walk inside one answer: whether any varbind advanced a column yet. -/
structure Sweep (n : Nat) extends Walk n where
  progressed : Bool

variable {σ : Type}

/-- The column with index `i`. -/
def column (table : MibTable) (i : Fin table.columns.length) : MibObject := table.columns.get i

def Walk.start (table : MibTable) : Walk table.columns.length where
  rows := ∅
  cursor i := some (column table i).oid
  count _ := 0

/-- The columns still being walked, in column order. -/
def Walk.active {n : Nat} (s : Walk n) : List (Fin n) :=
  (List.finRange n).filter fun i => (s.cursor i).isSome

/-- One OID for each active column: where its walk resumes. -/
def Walk.request {n : Nat} (s : Walk n) : List Oid :=
  s.active.map fun i => (s.cursor i).getD []

/-- The column varbind `p` of an answer belongs to. -/
def slot {n : Nat} (active : List (Fin n)) (p : Nat) : Option (Fin n) :=
  active[p % active.length]?

/-! ## One varbind -/

/-- End the column's walk. -/
def Sweep.close {n : Nat} (s : Sweep n) (col : Fin n) : Sweep n :=
  { s with cursor := Function.update s.cursor col none }

/-- Store a varbind of the column, count it and move the cursor to it; the last
row the cap allows ends the column. -/
def Sweep.accept (table : MibTable) (s : Sweep table.columns.length)
    (col : Fin table.columns.length) (vb : VarBind) : Sweep table.columns.length where
  rows := s.rows.alter (vb.oid.drop (column table col).oid.length) fun row =>
    some (PMap.insert (row.getD PMap.empty) (column table col).id vb.value)
  cursor := Function.update s.cursor col
    (if maxColumnRows ≤ s.count col + 1 then none else some vb.oid)
  count := Function.update s.count col (s.count col + 1)
  progressed := true

/-- The body of the `for` loop: varbind `p` of an answer to a request for the
`active` columns. -/
def absorb (table : MibTable) (active : List (Fin table.columns.length)) (p : Nat) (vb : VarBind)
    (s : Sweep table.columns.length) : Sweep table.columns.length :=
  match slot active p with
  | none => s
  | some col =>
    match s.cursor col with
    | none => s
    | some last =>
      if vb.value.isEndOfView || !startsWith vb.oid (column table col).oid then s.close col
      else if last < vb.oid then s.accept table col vb
      else s.close col

/-- The `for` loop over the varbinds of one answer, from position `p` on. -/
def sweep (table : MibTable) (active : List (Fin table.columns.length)) :
    Nat → List VarBind → Sweep table.columns.length → Sweep table.columns.length
  | _, [], s => s
  | p, vb :: rest, s => sweep table active (p + 1) rest (absorb table active p vb s)

/-! ## Rounds -/

/-- One answered request: the columns asked for and the varbinds returned. -/
structure Round (n : Nat) where
  active : List (Fin n)
  varbinds : List VarBind

/-- How a walk ended, the transport after it, and the rounds it took. -/
structure Outcome (σ : Type) (n : Nat) where
  result : Except String (Walk n)
  transport : σ
  rounds : List (Round n)

/-- The `loop` of `build_table`; `none` when the fuel runs out. -/
def walkRounds (T : Transport σ) (table : MibTable) (maxRepetitions : Nat) :
    Nat → List (Round table.columns.length) → Walk table.columns.length → σ →
      Option (Outcome σ table.columns.length)
  | 0, _, _, _ => none
  | fuel + 1, done, s, t =>
    if s.active = [] then some ⟨.ok s, t, done⟩
    else match T.getbulkMulti t s.request maxRepetitions with
      | (.error e, t') => some ⟨.error e, t', done⟩
      | (.ok varbinds, t') =>
        if varbinds = [] then some ⟨.ok s, t', done ++ [⟨s.active, varbinds⟩]⟩
        else
          let s' := sweep table s.active 0 varbinds ⟨s, false⟩
          if s'.progressed then
            walkRounds T table maxRepetitions fuel (done ++ [⟨s.active, varbinds⟩]) s'.toWalk t'
          else some ⟨.ok s'.toWalk, t', done ++ [⟨s.active, varbinds⟩]⟩

/-- The walk of a whole table. -/
def tableWalk (T : Transport σ) (table : MibTable) (maxRepetitions fuel : Nat) (t : σ) :
    Option (Outcome σ table.columns.length) :=
  walkRounds T table maxRepetitions fuel [] (Walk.start table) t

/-- The rendered objects of one row, column by column. -/
def renderRow (columns : List MibObject) (values : PMap String RawValue) : PMap String Val :=
  columns.foldl (fun objects c =>
    match values c.id with
    | some raw => PMap.insert objects c.id (renderValue raw c.valueSyntax)
    | none => objects) PMap.empty

/-- The response made of the merged rows; a row whose index does not decode is
skipped. -/
def assemble (table : MibTable) (hostId : String)
    (rows : Std.TreeMap Oid (PMap String RawValue)) : Response where
  id := table.id
  indexKeys := table.index.map MibObject.id
  objectKeys := table.columns.map MibObject.id
  entries := rows.toList.filterMap fun (suffix, values) =>
    (decodeIndex suffix table.index).map fun index =>
      { hostId := hostId, index := index, objects := renderRow table.columns values }

/-- `build_table`. -/
def buildTable (T : Transport σ) (table : MibTable) (hostId : String) (maxRepetitions fuel : Nat)
    (t : σ) : Option (Except String Response × σ) :=
  (tableWalk T table maxRepetitions fuel t).map fun o =>
    (o.result.map fun s => assemble table hostId s.rows, o.transport)

/-! ## What one varbind can do -/

@[simp] theorem Sweep.close_rows {n : Nat} (s : Sweep n) (col : Fin n) :
    (s.close col).rows = s.rows := rfl
@[simp] theorem Sweep.close_count {n : Nat} (s : Sweep n) (col : Fin n) :
    (s.close col).count = s.count := rfl
@[simp] theorem Sweep.close_progressed {n : Nat} (s : Sweep n) (col : Fin n) :
    (s.close col).progressed = s.progressed := rfl
@[simp] theorem Sweep.close_cursor_self {n : Nat} (s : Sweep n) (col : Fin n) :
    (s.close col).cursor col = none := Function.update_self ..
theorem Sweep.close_cursor_ne {n : Nat} (s : Sweep n) {col c : Fin n} (h : c ≠ col) :
    (s.close col).cursor c = s.cursor c := Function.update_of_ne h ..

section Accept
variable {table : MibTable} (s : Sweep table.columns.length) {col c : Fin table.columns.length}
  (vb : VarBind)

@[simp] theorem Sweep.accept_progressed : (s.accept table col vb).progressed = true := rfl
@[simp] theorem Sweep.accept_count_self :
    (s.accept table col vb).count col = s.count col + 1 := Function.update_self ..
theorem Sweep.accept_count_ne (h : c ≠ col) : (s.accept table col vb).count c = s.count c :=
  Function.update_of_ne h ..
theorem Sweep.accept_cursor_ne (h : c ≠ col) : (s.accept table col vb).cursor c = s.cursor c :=
  Function.update_of_ne h ..
theorem Sweep.accept_cursor_self : (s.accept table col vb).cursor col =
    if maxColumnRows ≤ s.count col + 1 then none else some vb.oid := Function.update_self ..

theorem Sweep.accept_rows (suffix : Oid) (id : String) :
    ((s.accept table col vb).rows[suffix]?.bind fun row => row id) =
      if suffix = vb.oid.drop (column table col).oid.length ∧ id = (column table col).id then
        some vb.value
      else s.rows[suffix]?.bind fun row => row id := by
  simp only [Sweep.accept, Std.TreeMap.getElem?_alter]
  by_cases hs : vb.oid.drop (column table col).oid.length = suffix
  · subst hs
    simp only [Std.compare_self, if_true, Option.bind_some, true_and]
    rw [PMap.insert_apply]
    by_cases hid : id = (column table col).id
    · simp [hid]
    · simp only [hid, if_false]
      cases s.rows[vb.oid.drop (column table col).oid.length]? <;> rfl
  · rw [if_neg (by simpa using hs), if_neg (by intro h; exact hs h.1.symm)]

end Accept

/-- **The inversion of one varbind**: it is skipped, ends its column, or is a
row of its column beyond the cursor. -/
theorem absorb_cases {table : MibTable} (active : List (Fin table.columns.length)) (p : Nat)
    (vb : VarBind) (s : Sweep table.columns.length) :
    absorb table active p vb s = s ∨
    (∃ col last, slot active p = some col ∧ s.cursor col = some last ∧
      absorb table active p vb s = s.close col) ∨
    (∃ col last, slot active p = some col ∧ s.cursor col = some last ∧ last < vb.oid ∧
      vb.value.isEndOfView = false ∧ (column table col).oid <+: vb.oid ∧
      absorb table active p vb s = s.accept table col vb) := by
  unfold absorb
  cases hslot : slot active p with
  | none => exact .inl rfl
  | some col =>
    dsimp only
    cases hcur : s.cursor col with
    | none => exact .inl rfl
    | some last =>
      dsimp only
      split
      · exact .inr (.inl ⟨col, last, rfl, hcur, rfl⟩)
      · next hin =>
        simp only [Bool.or_eq_true, Bool.not_eq_true', not_or, Bool.not_eq_true,
          Bool.not_eq_false, startsWith, decide_eq_true_eq] at hin
        split
        · next hlt => exact .inr (.inr ⟨col, last, rfl, hcur, hlt, hin.1, hin.2, rfl⟩)
        · exact .inr (.inl ⟨col, last, rfl, hcur, rfl⟩)

end JaspyNexus.Snmp.Embedded
