import JaspyNexus.Lib.RoundRobin
import JaspyNexus.Snmp.Agent
import JaspyNexus.Snmp.WalkSoundness

/-! # The walk on a conformant agent

Against a conformant agent the walk is a server draining one queue of rows per
column (`Lib.RoundRobin`): an open column's cursor stands just before its queue
(`Sim.cursor`), and the varbinds of an answer are dealt slot by slot
(`sweep_sim`). The loop stops at the first answer without a row, so rows are
missing exactly when some answer is cut before the first column that still has
rows (`buildTable_complete_iff`). -/

namespace JaspyNexus.Snmp.WalkCompleteness
open JaspyNexus.Lib JaspyNexus.Snmp JaspyNexus.Snmp.Render JaspyNexus.Snmp.Embedded
open JaspyNexus.Snmp.WalkSoundness
open JaspyNexus.Lib.RoundRobin (Queues serve batch openBatch)

variable {A : Agent} {table : MibTable}

/-! ## Columns as queues -/

/-- The rows of column `c` the agent holds. -/
def columnRows (A : Agent) (table : MibTable) (c : Fin table.columns.length) : List VarBind :=
  A.rows (column table c).oid

/-- A column with as many rows as the cap closes at its last row. -/
def atCap (A : Agent) (table : MibTable) (c : Fin table.columns.length) : Bool :=
  decide ((columnRows A table c).length = maxColumnRows)

/-- Every column open, with all its rows to come. -/
def queues (A : Agent) (table : MibTable) : Queues (Fin table.columns.length) VarBind where
  items := columnRows A table
  isOpen _ := true

/-- **What goes wrong.** With the answers cut to `cuts i + 1` varbinds, some
answer ends before the first column that still has rows, while a column has rows
that no column of the same id has fetched. -/
def Starved (A : Agent) (table : MibTable) (maxRepetitions : Nat) (cuts : Nat → Nat) : Prop :=
  RoundRobin.Starved (fun c => (column table c).id) (atCap A table)
    (List.finRange table.columns.length) maxRepetitions (fun i => cuts i + 1) (queues A table)

/-- The walk and the queues agree. -/
structure Sim (A : Agent) (table : MibTable) (s : Walk table.columns.length)
    (q : Queues (Fin table.columns.length) VarBind) : Prop where
  /-- a queue is open as long as its column has a cursor -/
  isOpen : ∀ c, q.isOpen c = (s.cursor c).isSome
  sound : q.Sound
  /-- an open column's cursor stands before the rows left -/
  cursor : ∀ c last, s.cursor c = some last → (column table c).oid <+: last ∧
    A.rowsBeyond (column table c).oid last = q.items c
  suffix : ∀ c, q.items c <:+ columnRows A table c
  /-- what is not counted is left -/
  count : ∀ c, s.count c + (q.items c).length = (columnRows A table c).length
  /-- what is stored has been taken from a queue -/
  stored : ∀ suffix id v, (s.rows[suffix]?.bind fun row => row id) = some v ↔
    ∃ c, (column table c).id = id ∧ ∃ vb ∈ columnRows A table c, vb ∉ q.items c ∧
      vb.oid = (column table c).oid ++ suffix ∧ vb.value = v

theorem sim_start (A : Agent) (table : MibTable) :
    Sim A table (Walk.start table) (queues A table) where
  isOpen c := rfl
  sound c h := by cases h
  cursor c last h := by
    cases h
    exact ⟨List.prefix_refl _, rfl⟩
  suffix c := List.suffix_refl _
  count c := Nat.zero_add _
  stored suffix id v := by
    constructor
    · intro h; simp [Walk.start] at h
    · rintro ⟨c, _, vb, hmem, hnot, _⟩; exact absurd hmem hnot

theorem Sim.active {s : Walk table.columns.length} {q : Queues (Fin table.columns.length) VarBind}
    (h : Sim A table s q) : q.active (List.finRange _) = s.active := by
  unfold Queues.active Walk.active
  exact List.filter_congr fun c _ => h.isOpen c

theorem nodup_active {n : Nat} (s : Walk n) : s.active.Nodup :=
  (List.nodup_finRange n).filter _

/-- An entry of the agent is determined by its OID. -/
theorem tree_unique {vb vb' : VarBind} (h : vb ∈ A.tree) (h' : vb' ∈ A.tree)
    (he : vb.oid = vb'.oid) : vb = vb' := by
  have hv : A.value vb.oid = some vb.value := Agent.value_eq_some_iff.mpr h
  have hv' : A.value vb.oid = some vb'.value := Agent.value_eq_some_iff.mpr (by rw [he]; exact h')
  obtain ⟨oid, value⟩ := vb
  obtain ⟨oid', value'⟩ := vb'
  simp only at he
  subst he
  rw [hv] at hv'
  simpa using hv'

/-! ## One varbind -/

/-- Ending a column with nothing left. -/
theorem Sim.close {s : Sweep table.columns.length} {q : Queues (Fin table.columns.length) VarBind}
    (h : Sim A table s.toWalk q) {c : Fin table.columns.length} (hitems : q.items c = []) :
    Sim A table (s.close c).toWalk { q with isOpen := Function.update q.isOpen c false } where
  isOpen d := by
    by_cases hd : d = c
    · subst hd; simp
    · simp only [Function.update_of_ne hd, s.close_cursor_ne hd]; exact h.isOpen d
  sound d hopen := by
    by_cases hd : d = c
    · subst hd; exact hitems
    · simp only [Function.update_of_ne hd] at hopen; exact h.sound d hopen
  cursor d last hcur := by
    by_cases hd : d = c
    · subst hd; simp at hcur
    · rw [s.close_cursor_ne hd] at hcur; exact h.cursor d last hcur
  suffix := h.suffix
  count := h.count
  stored := h.stored

/-- Taking a column's next row. -/
theorem Sim.accept (hsame : ∀ c c' : Fin table.columns.length,
      (column table c).id = (column table c').id → column table c = column table c')
    (hcap : ∀ c, (columnRows A table c).length ≤ maxColumnRows)
    {s : Sweep table.columns.length} {q : Queues (Fin table.columns.length) VarBind}
    (h : Sim A table s.toWalk q) {c : Fin table.columns.length} {last : Oid}
    (hcur : s.cursor c = some last) {vb : VarBind} {rest : List VarBind}
    (hitems : q.items c = vb :: rest) :
    Sim A table (s.accept table c vb).toWalk
      { items := Function.update q.items c rest
        isOpen := Function.update q.isOpen c (!(rest.isEmpty && atCap A table c)) } := by
  obtain ⟨hbase, hrows⟩ := h.cursor c last hcur
  rw [hitems] at hrows
  have hmem : vb ∈ A.rowsBeyond (column table c).oid last := by rw [hrows]; simp
  obtain ⟨htree, hpre, hlt⟩ := Agent.mem_rowsBeyond.mp hmem
  obtain ⟨-, hnext⟩ := Agent.successor_of_cons hbase hrows
  have hcount := h.count c
  have hcapc := hcap c
  rw [hitems, List.length_cons] at hcount
  -- the cap is reached exactly at the last row of a column that is as long as the cap
  have hlast : (maxColumnRows ≤ s.count c + 1) ↔ (rest.isEmpty && atCap A table c) = true := by
    simp only [atCap, Bool.and_eq_true, List.isEmpty_iff, decide_eq_true_eq,
      ← List.length_eq_zero_iff]
    omega
  have hmemc : vb ∈ columnRows A table c := (h.suffix c).subset (by rw [hitems]; simp)
  refine ⟨?_, ?_, ?_, ?_, ?_, ?_⟩
  · intro d
    by_cases hd : d = c
    · subst hd
      rw [s.accept_cursor_self]
      simp only [Function.update_self]
      by_cases hm : maxColumnRows ≤ s.count d + 1
      · rw [if_pos hm, hlast.mp hm]; rfl
      · rw [if_neg hm, Bool.eq_false_iff.mpr fun h => hm (hlast.mpr h)]; rfl
    · simp only [Function.update_of_ne hd, s.accept_cursor_ne vb hd]
      exact h.isOpen d
  · intro d hopen
    by_cases hd : d = c
    · subst hd
      simp only [Function.update_self, Bool.not_eq_false', Bool.and_eq_true,
        List.isEmpty_iff] at hopen ⊢
      exact hopen.1
    · simp only [Function.update_of_ne hd] at hopen ⊢
      exact h.sound d hopen
  · intro d last' hcur'
    by_cases hd : d = c
    · subst hd
      rw [s.accept_cursor_self] at hcur'
      split at hcur'
      · cases hcur'
      · cases hcur'
        simp only [Function.update_self]
        exact ⟨hpre, hnext⟩
    · rw [s.accept_cursor_ne vb hd] at hcur'
      simp only [Function.update_of_ne hd]
      exact h.cursor d last' hcur'
  · intro d
    by_cases hd : d = c
    · subst hd
      simp only [Function.update_self]
      exact (List.suffix_cons vb rest).trans (hitems ▸ h.suffix d)
    · simp only [Function.update_of_ne hd]
      exact h.suffix d
  · intro d
    by_cases hd : d = c
    · subst hd
      rw [s.accept_count_self]
      simp only [Function.update_self]
      omega
    · rw [s.accept_count_ne vb hd]
      simp only [Function.update_of_ne hd]
      exact h.count d
  · intro suffix id v
    have hsuf : vb.oid = (column table c).oid ++ vb.oid.drop (column table c).oid.length :=
      (List.prefix_iff_eq_append.mp hpre).symm
    have hfresh : vb ∉ rest := by
      have hnd : A.tree.Nodup := A.sorted.imp fun hl he => by rw [he] at hl; exact lt_irrefl _ hl
      have : (q.items c).Nodup := (hnd.filter _).sublist (h.suffix c).sublist
      rw [hitems] at this
      exact (List.nodup_cons.mp this).1
    rw [s.accept_rows]
    split
    · next hk =>
      obtain ⟨rfl, rfl⟩ := hk
      constructor
      · intro hv
        refine ⟨c, rfl, vb, hmemc, by simpa using hfresh, hsuf, Option.some.inj hv⟩
      · rintro ⟨d, hid, vb', hmem', _, hoid', rfl⟩
        have hcol := hsame d c hid
        rw [hcol, ← hsuf] at hoid'
        have htree' := (Agent.mem_rowsBeyond.mp hmem').1
        rw [tree_unique htree htree' hoid'.symm]
    · next hk =>
      rw [h.stored suffix id v]
      constructor
      · rintro ⟨d, hid, vb', hmem', hnot, hoid', hv⟩
        refine ⟨d, hid, vb', hmem', ?_, hoid', hv⟩
        by_cases hd : d = c
        · subst hd
          rw [hitems, List.mem_cons, not_or] at hnot
          simpa using hnot.2
        · simpa [Function.update_of_ne hd] using hnot
      · rintro ⟨d, hid, vb', hmem', hnot, hoid', hv⟩
        refine ⟨d, hid, vb', hmem', ?_, hoid', hv⟩
        by_cases hd : d = c
        · subst hd
          simp only [Function.update_self] at hnot
          rw [hitems, List.mem_cons, not_or]
          refine ⟨?_, hnot⟩
          rintro rfl
          exact hk ⟨by rw [hoid', List.drop_left], hid.symm⟩
        · simpa [Function.update_of_ne hd] using hnot

/-! ## One answer -/

/-- The varbinds of column `j` of `k` among the first `p` of an answer. -/
def turn (k p j : Nat) : Nat := p / k + if j < p % k then 1 else 0

theorem turn_self (k p : Nat) : turn k p (p % k) = p / k := by simp [turn]

/-- Varbind `p` is the next one of column `p % k`, and of no other. -/
theorem turn_succ {k j : Nat} (p : Nat) (hj : j < k) :
    turn k (p + 1) j = turn k p j + if j = p % k then 1 else 0 := by
  have hp := Nat.div_add_mod p k
  have hr : p % k < k := Nat.mod_lt p (by omega)
  unfold turn
  generalize p / k = d at *
  generalize p % k = r at *
  subst hp
  by_cases hlast : r + 1 = k
  · have hsum : k * d + r + 1 = k * (d + 1) := by rw [Nat.mul_add]; omega
    rw [hsum, Nat.mul_div_cancel_left _ (by omega), Nat.mul_mod_right]
    split <;> split <;> split <;> omega
  · have hlt : r + 1 < k := by omega
    rw [show k * d + r + 1 = k * d + (r + 1) from rfl, Nat.mul_add_div (by omega),
      Nat.div_eq_of_lt hlt, Nat.mul_add_mod, Nat.mod_eq_of_lt hlt]
    split <;> split <;> split <;> omega

/-- Before varbind `p` of an answer, an open column stands where the agent
continues in its slot. -/
def Aligned (A : Agent) (active : List (Fin table.columns.length)) (oids : List Oid) (p : Nat)
    (s : Walk table.columns.length) : Prop :=
  ∀ j, ∀ hj : j < active.length, ∀ last, s.cursor active[j] = some last →
    last = A.skip (turn active.length p j) (oids.getD j [])

/-- **One varbind is one slot.** -/
theorem absorb_sim (hsame : ∀ c c' : Fin table.columns.length,
      (column table c).id = (column table c').id → column table c = column table c')
    (hcap : ∀ c, (columnRows A table c).length ≤ maxColumnRows)
    {active : List (Fin table.columns.length)} (hnd : active.Nodup) (hne : active ≠ [])
    {oids : List Oid} (hlen : oids.length = active.length) (p : Nat)
    {s : Sweep table.columns.length} {q : Queues (Fin table.columns.length) VarBind}
    (h : Sim A table s.toWalk q) (ha : Aligned A active oids p s.toWalk) :
    ∃ c, RoundRobin.slot active p = some c ∧
      Sim A table (absorb table active p (A.varbind oids p) s).toWalk
        (serve (atCap A table) q c) ∧
      Aligned A active oids (p + 1) (absorb table active p (A.varbind oids p) s).toWalk ∧
      ((absorb table active p (A.varbind oids p) s).progressed = true ↔
        s.progressed = true ∨ (serve (atCap A table) q c).items ≠ q.items) := by
  have hk : 0 < active.length := List.length_pos_of_ne_nil hne
  have hj : p % active.length < active.length := Nat.mod_lt p hk
  obtain ⟨c, hc⟩ : ∃ c, c = active[p % active.length] := ⟨_, rfl⟩
  have hslot : slot active p = some c := by rw [slot, List.getElem?_eq_getElem hj, hc]
  refine ⟨c, hslot, ?_⟩
  -- the columns whose cursor a slot of `c` leaves alone stay aligned
  have hother : ∀ s' : Walk table.columns.length, (∀ d, d ≠ c → s'.cursor d = s.cursor d) →
      (∀ last, s'.cursor c = some last →
        last = A.skip (p / active.length + 1) (oids.getD (p % active.length) [])) →
      Aligned A active oids (p + 1) s' := by
    intro s' hd hself j hjlt last hcur
    rw [turn_succ p hjlt]
    by_cases hjp : j = p % active.length
    · subst hjp
      rw [if_pos rfl, turn_self]
      exact hself last (by rw [hc]; exact hcur)
    · rw [if_neg hjp]
      have hdc : active[j] ≠ c := by
        rw [hc]
        exact fun he => hjp ((List.Nodup.getElem_inj_iff hnd).mp he)
      rw [hd _ hdc] at hcur
      exact ha j hjlt last hcur
  cases hcur : s.cursor c with
  | none =>
    have habs : absorb table active p (A.varbind oids p) s = s := by simp [absorb, hslot, hcur]
    have hclosed : q.isOpen c = false := by rw [h.isOpen c, hcur]; rfl
    have hserve : serve (atCap A table) q c = q := by simp [serve, hclosed]
    rw [habs, hserve]
    exact ⟨h, hother _ (fun _ _ => rfl) (fun last hl => by rw [hcur] at hl; cases hl), by simp⟩
  | some last =>
    obtain ⟨hbase, hrows⟩ := h.cursor c last hcur
    have hopen : q.isOpen c = true := by rw [h.isOpen c, hcur]; rfl
    have hvb : A.varbind oids p = A.successor last := by
      rw [Agent.varbind, hlen, ha _ hj last (by rw [← hc]; exact hcur), turn_self]
    cases hitems : q.items c with
    | nil =>
      rw [hitems] at hrows
      have habs : absorb table active p (A.varbind oids p) s = s.close c := by
        have := Agent.successor_of_nil hrows
        rw [← hvb] at this
        simp only [absorb, hslot, hcur, this, if_true]
      have hserve : serve (atCap A table) q c =
          { q with isOpen := Function.update q.isOpen c false } := by
        simp [serve, hopen, hitems]
      rw [habs, hserve]
      exact ⟨h.close hitems, hother _ (fun d hd => s.close_cursor_ne hd) (by simp), by simp⟩
    | cons vb rest =>
      rw [hitems] at hrows
      obtain ⟨hsucc, -⟩ := Agent.successor_of_cons hbase hrows
      rw [hsucc] at hvb
      obtain ⟨htree, hpre, hlt⟩ := Agent.mem_rowsBeyond.mp (hrows ▸ List.mem_cons_self)
      have habs : absorb table active p (A.varbind oids p) s = s.accept table c vb := by
        have hval := A.values vb htree
        have hstart : startsWith vb.oid (column table c).oid = true := startsWith_iff.mpr hpre
        simp [absorb, hslot, hcur, hvb, hval, hstart, hlt]
      have hserve : serve (atCap A table) q c =
          { items := Function.update q.items c rest
            isOpen := Function.update q.isOpen c (!(rest.isEmpty && atCap A table c)) } := by
        simp [serve, hopen, hitems]
      have htaken : (serve (atCap A table) q c).items ≠ q.items := fun he =>
        RoundRobin.serve_items_ne (atCap A table) hopen (by simp [hitems]) (congrFun he c)
      refine ⟨?_, ?_, by simp [habs, htaken]⟩
      · rw [habs, hserve]
        exact h.accept hsame hcap hcur hitems
      · rw [habs]
        refine hother _ (fun d hd => s.accept_cursor_ne vb hd) fun last' hcur' => ?_
        rw [s.accept_cursor_self] at hcur'
        split at hcur'
        · cases hcur'
        · cases hcur'
          rw [Agent.skip_succ, ← hvb, Agent.varbind, hlen]

/-- **One answer is one batch.** -/
theorem sweep_sim (hsame : ∀ c c' : Fin table.columns.length,
      (column table c).id = (column table c').id → column table c = column table c')
    (hcap : ∀ c, (columnRows A table c).length ≤ maxColumnRows)
    {active : List (Fin table.columns.length)} (hnd : active.Nodup) (hne : active ≠ [])
    {oids : List Oid} (hlen : oids.length = active.length) (n : Nat) :
    ∀ (p : Nat) (s : Sweep table.columns.length) (q : Queues (Fin table.columns.length) VarBind),
      Sim A table s.toWalk q → Aligned A active oids p s.toWalk →
      Sim A table (sweep table active p ((List.range' p n).map (A.varbind oids)) s).toWalk
        (batch (atCap A table) active p n q) ∧
      ((sweep table active p ((List.range' p n).map (A.varbind oids)) s).progressed = true ↔
        s.progressed = true ∨ (batch (atCap A table) active p n q).items ≠ q.items) := by
  induction n with
  | zero => intro p s q h _; exact ⟨h, by simp [batch, sweep]⟩
  | succ n ih =>
    intro p s q h ha
    obtain ⟨c, hslot, h', ha', hprog⟩ := absorb_sim hsame hcap hnd hne hlen p h ha
    obtain ⟨h'', hprog'⟩ := ih (p + 1) _ _ h' ha'
    rw [List.range'_succ, List.map_cons]
    have hbatch : batch (atCap A table) active p (n + 1) q =
        batch (atCap A table) active (p + 1) n (serve (atCap A table) q c) := by
      simp [batch, hslot]
    rw [hbatch]
    refine ⟨h'', hprog'.trans ?_⟩
    rw [hprog, or_assoc, RoundRobin.items_ne_iff (RoundRobin.serve_suffix _ q c)
      (RoundRobin.batch_suffix _ active n (p + 1) _)]

/-! ## The whole walk -/

/-- The answer to a request of the walk, and what it is dealt to. -/
theorem transport_answer (s : Walk table.columns.length) (cuts : Nat → Nat)
    (maxRepetitions : Nat) :
    A.transport.getbulkMulti cuts s.request maxRepetitions =
      (.ok ((List.range' 0 (RoundRobin.slots maxRepetitions (cuts 0 + 1) s.active.length)).map
        (A.varbind s.request)), fun i => cuts (i + 1)) := by
  have hlen : s.request.length = s.active.length := by simp [Walk.request]
  rw [← List.range_eq_range']
  simp only [Agent.transport, Agent.getbulk, ← List.map_take, List.take_range, hlen,
    RoundRobin.slots]

/-- A request asks for every open column at its cursor. -/
theorem aligned_request (s : Walk table.columns.length) :
    Aligned A s.active s.request 0 s := by
  intro j hj last hcur
  simp [Walk.request, turn, Agent.skip, List.getElem?_eq_getElem hj, hcur]

/-- **The loop stops with a row pending exactly when some answer starves it.** -/
theorem walkRounds_sim (hsame : ∀ c c' : Fin table.columns.length,
      (column table c).id = (column table c').id → column table c = column table c')
    (hcap : ∀ c, (columnRows A table c).length ≤ maxColumnRows) (maxRepetitions fuel : Nat) :
    ∀ (done : List (Round table.columns.length)) (s : Walk table.columns.length)
      (q : Queues (Fin table.columns.length) VarBind) (cuts : Nat → Nat), Sim A table s q →
      ∀ o, walkRounds A.transport table maxRepetitions fuel done s cuts = some o →
      ∃ w q', o.result = .ok w ∧ Sim A table w q' ∧
        (RoundRobin.Starved (fun c => (column table c).id) (atCap A table)
          (List.finRange table.columns.length) maxRepetitions (fun i => cuts i + 1) q ↔
        ∃ c, q'.Pending (fun c => (column table c).id) c) := by
  induction fuel with
  | zero => intro _ _ _ _ _ o ho; cases ho
  | succ fuel ih =>
    intro done s q cuts h o ho
    have hactive := h.active
    unfold walkRounds at ho
    split at ho
    · next hnil =>
      cases ho
      refine ⟨s, q, rfl, h, ?_⟩
      have hclosed := RoundRobin.not_pending_of_closed (fun c => (column table c).id)
        h.sound (List.mem_finRange) (hactive.trans hnil)
      constructor
      · rintro ⟨i, _, c, hc⟩
        exact absurd (hc.mono (RoundRobin.openBatches_suffix _ _ _ i _ q)) (hclosed c)
      · rintro ⟨c, hc⟩
        exact absurd hc (hclosed c)
    · next hne =>
      rw [transport_answer] at ho
      dsimp only at ho
      obtain ⟨hsim, hprog⟩ := sweep_sim hsame hcap (nodup_active s) hne
        (by simp [Walk.request]) (RoundRobin.slots maxRepetitions (cuts 0 + 1) s.active.length) 0
        ⟨s, false⟩ q h (aligned_request s)
      have hbatch : batch (atCap A table) s.active 0
          (RoundRobin.slots maxRepetitions (cuts 0 + 1) s.active.length) q =
          openBatch (atCap A table) (List.finRange _) maxRepetitions (cuts 0 + 1) q := by
        rw [openBatch, hactive]
      rw [hbatch] at hsim hprog
      simp only [Bool.false_eq_true, false_or] at hprog
      split at ho
      · next hempty =>
        cases ho
        refine ⟨s, q, rfl, h, RoundRobin.starved_iff_of_idle ?_⟩
        have hzero : RoundRobin.slots maxRepetitions (cuts 0 + 1) s.active.length = 0 := by
          simpa using hempty
        rw [← hbatch, hzero]
        rfl
      · split at ho
        · next hp =>
          obtain ⟨w, q', hres, hsim', hiff⟩ := ih _ _ _ _ hsim o ho
          exact ⟨w, q', hres, hsim', (RoundRobin.starved_iff_of_busy (hprog.mp hp)).trans hiff⟩
        · next hp =>
          cases ho
          have hidle := not_not.mp fun hne => hp (hprog.mpr hne)
          refine ⟨_, _, rfl, hsim, (RoundRobin.starved_iff_of_idle hidle).trans ?_⟩
          simp only [Queues.Pending, hidle]

/-- A transport in front of the agent: whatever its state, an answer is a
non-empty prefix of the full one. -/
def Conformant {σ : Type} (A : Agent) (T : Transport σ) : Prop :=
  ∀ t oids maxRepetitions, ∃ cut, (T.getbulkMulti t oids maxRepetitions).1 =
    .ok ((A.getbulk oids maxRepetitions).take (cut + 1))

/-- What a conformant transport returns is what `A.transport` returns for the
cuts its run happens to make, so the cuts range over every conformant agent. -/
theorem walkRounds_conformant {σ : Type} {T : Transport σ} (hT : Conformant A T)
    (maxRepetitions fuel : Nat) :
    ∀ (done : List (Round table.columns.length)) (s : Walk table.columns.length) (t : σ),
      ∃ cuts, (walkRounds T table maxRepetitions fuel done s t).map Outcome.result =
        (walkRounds A.transport table maxRepetitions fuel done s cuts).map Outcome.result := by
  induction fuel with
  | zero => intro _ _ _; exact ⟨fun _ => 0, rfl⟩
  | succ fuel ih =>
    intro done s t
    obtain ⟨cut, hcut⟩ := hT t s.request maxRepetitions
    obtain ⟨varbinds, hvb⟩ : ∃ v, v = (A.getbulk s.request maxRepetitions).take (cut + 1) :=
      ⟨_, rfl⟩
    obtain ⟨t', hanswer⟩ : ∃ t', T.getbulkMulti t s.request maxRepetitions = (.ok varbinds, t') :=
      ⟨(T.getbulkMulti t s.request maxRepetitions).2, by rw [hvb, ← hcut]⟩
    obtain ⟨cuts, hcuts⟩ := ih (done ++ [⟨s.active, varbinds⟩])
      (sweep table s.active 0 varbinds ⟨s, false⟩).toWalk t'
    refine ⟨fun i => Nat.casesOn i cut cuts, ?_⟩
    have hanswer' : A.transport.getbulkMulti (fun i => Nat.casesOn i cut cuts) s.request
        maxRepetitions = (.ok varbinds, cuts) := by rw [hvb]; rfl
    unfold walkRounds
    rw [hanswer, hanswer']
    split
    · rfl
    · dsimp only
      split
      · rfl
      · split
        · exact hcuts
        · rfl

/-! ## What the response holds -/

/-- Every row with a value in some column has an entry, and the entry has the
rendered value of every column that has one. -/
def Complete (A : Agent) (table : MibTable) (response : Response) : Prop :=
  ∀ suffix index, decodeIndex suffix table.index = some index →
    (∃ c ∈ table.columns, (A.value (c.oid ++ suffix)).isSome) →
    ∃ entry ∈ response.entries, entry.index = index ∧
      ∀ c ∈ table.columns, ∀ v, A.value (c.oid ++ suffix) = some v →
        entry.objects c.id = some (renderValue v c.valueSyntax)

/-- What the claim assumes of the agent: no column beyond the cap, and no row
whose index does not decode. -/
structure Fits (A : Agent) (table : MibTable) : Prop where
  cap : ∀ c ∈ table.columns, (A.rows c.oid).length ≤ maxColumnRows
  decodable : ∀ c ∈ table.columns, ∀ suffix, suffix ≠ [] → (A.value (c.oid ++ suffix)).isSome →
    (decodeIndex suffix table.index).isSome

theorem same_column (htable : table.Resolved) (c c' : Fin table.columns.length)
    (h : (column table c).id = (column table c').id) : column table c = column table c' :=
  htable.same_id _ (List.get_mem _ _) _ (List.get_mem _ _) h

theorem ne_nil_of_decodeIndex (htable : table.Resolved) {suffix : Oid} {index : PMap String Int}
    (h : decodeIndex suffix table.index = some index) : suffix ≠ [] := by
  rintro rfl
  exact htable.index_ne_nil (List.length_eq_zero_iff.mp (decodeIndex_length h).symm)

/-- With nothing pending, every value of the agent is stored. -/
theorem stored_of_not_pending (htable : table.Resolved) {w : Walk table.columns.length}
    {q : Queues (Fin table.columns.length) VarBind} (h : Sim A table w q)
    (hnone : ∀ c, ¬q.Pending (fun c => (column table c).id) c) {c : MibObject}
    (hc : c ∈ table.columns) {suffix : Oid} (hs : suffix ≠ []) {v : RawValue}
    (hv : A.value (c.oid ++ suffix) = some v) :
    (w.rows[suffix]?.bind fun row => row c.id) = some v := by
  obtain ⟨i, rfl⟩ := List.get_of_mem hc
  have hdrained := hnone i
  simp only [Queues.Pending, not_forall, not_not] at hdrained
  obtain ⟨i', hid, hnil⟩ := hdrained
  have hcol := same_column htable i' i hid
  refine (h.stored suffix _ v).mpr ⟨i', hid, ⟨(column table i').oid ++ suffix, v⟩, ?_, ?_, rfl, rfl⟩
  · refine (Agent.mem_rows_iff hs).mpr (Agent.value_eq_some_iff.mp ?_)
    rw [hcol]
    exact hv
  · rw [hnil]; simp

/-- An entry stands for a suffix whose index decodes to the entry's. -/
theorem entry_suffix {hostId : String} {rows : Std.TreeMap Oid (PMap String RawValue)}
    {entry : ResultEntry} (h : entry ∈ (assemble table hostId rows).entries) :
    ∃ suffix values, rows[suffix]? = some values ∧
      decodeIndex suffix table.index = some entry.index ∧
      entry.objects = renderRow table.columns values := by
  obtain ⟨i, hi, rfl⟩ := List.mem_iff_getElem.mp h
  have hforall := assemble_entries table hostId rows
  have hi' : i < (entrySuffixes table rows).length := hforall.length_eq ▸ hi
  obtain ⟨values, hv, hd, ho⟩ := hforall.get hi' hi
  exact ⟨_, values, hv, hd, ho⟩

/-- A stored row whose index decodes has an entry. -/
theorem suffix_entry (hostId : String) {rows : Std.TreeMap Oid (PMap String RawValue)}
    {suffix : Oid} {values : PMap String RawValue} {index : PMap String Int}
    (hrow : rows[suffix]? = some values) (hd : decodeIndex suffix table.index = some index) :
    ⟨hostId, index, renderRow table.columns values⟩ ∈ (assemble table hostId rows).entries := by
  unfold assemble
  refine List.mem_filterMap.mpr ⟨(suffix, values), ?_, by simp [hd]⟩
  exact Std.TreeMap.mem_toList_iff_getElem?_eq_some.mpr hrow

theorem complete_of_not_pending (htable : table.Resolved) (hostId : String)
    {w : Walk table.columns.length} {q : Queues (Fin table.columns.length) VarBind}
    (h : Sim A table w q) (hnone : ∀ c, ¬q.Pending (fun c => (column table c).id) c) :
    Complete A table (assemble table hostId w.rows) := by
  rintro suffix index hd ⟨c, hc, hsome⟩
  have hs := ne_nil_of_decodeIndex htable hd
  obtain ⟨v, hv⟩ := Option.isSome_iff_exists.mp hsome
  have hstored := stored_of_not_pending htable h hnone hc hs hv
  obtain ⟨values, hrow, -⟩ := Option.bind_eq_some_iff.mp hstored
  refine ⟨_, suffix_entry hostId hrow hd, rfl, fun c' hc' v' hv' => ?_⟩
  have hstored' := stored_of_not_pending htable h hnone hc' hs hv'
  rw [hrow, Option.bind_some] at hstored'
  exact (renderRow_iff htable.same_id).mpr ⟨c', hc', rfl, v', hstored', rfl⟩

/-- A pending column's last row is in no entry. -/
theorem not_complete_of_pending (htable : table.Resolved) (hfits : Fits A table)
    (hindex : (table.index.map MibObject.id).Nodup) (hostId : String)
    {w : Walk table.columns.length} {q : Queues (Fin table.columns.length) VarBind}
    (h : Sim A table w q) {c : Fin table.columns.length}
    (hc : q.Pending (fun c => (column table c).id) c) :
    ¬Complete A table (assemble table hostId w.rows) := by
  intro hcomplete
  -- the last row is left over in every column of this id
  have hrows : columnRows A table c ≠ [] := fun hnil =>
    hc c rfl (List.suffix_nil.mp (hnil ▸ h.suffix c))
  obtain ⟨vb, hvb⟩ : ∃ vb, vb = (columnRows A table c).getLast hrows := ⟨_, rfl⟩
  have hleft : ∀ c', (column table c').id = (column table c).id → vb ∈ q.items c' := by
    intro c' hid
    have hne := hc c' hid
    have hsuf : q.items c' <:+ columnRows A table c := by
      rw [columnRows, ← same_column htable c' c hid]
      exact h.suffix c'
    rw [hvb, ← hsuf.getLast hne]
    exact List.getLast_mem hne
  have hmem : vb ∈ columnRows A table c := hvb ▸ List.getLast_mem hrows
  obtain ⟨htree, ⟨suffix, hoid⟩, hlt⟩ := Agent.mem_rowsBeyond.mp hmem
  have hs : suffix ≠ [] := by
    rintro rfl
    rw [List.append_nil] at hoid
    rw [hoid] at hlt
    exact lt_irrefl _ hlt
  have hvalue : A.value ((column table c).oid ++ suffix) = some vb.value :=
    Agent.value_eq_some_iff.mpr (by rw [hoid]; exact htree)
  have hcm : column table c ∈ table.columns := List.get_mem _ _
  obtain ⟨index, hd⟩ := Option.isSome_iff_exists.mp
    (hfits.decodable _ hcm suffix hs (by rw [hvalue]; rfl))
  obtain ⟨entry, hentry, hidx, hobjects⟩ := hcomplete suffix index hd ⟨_, hcm, by rw [hvalue]; rfl⟩
  obtain ⟨suffix', values, hrow, hd', hobj⟩ := entry_suffix hentry
  rw [hidx] at hd'
  have hsuffix := decodeIndex_injective hindex hd' hd
  subst hsuffix
  have hobject := hobjects _ hcm _ hvalue
  rw [hobj] at hobject
  obtain ⟨_, _, hid, raw, hraw, _⟩ := (renderRow_iff htable.same_id).mp hobject
  have hstored : (w.rows[suffix']?.bind fun row => row (column table c).id) = some raw := by
    rw [hrow]; exact hraw
  obtain ⟨c', hid', vb', hmem', hnot, hoid', -⟩ := (h.stored _ _ _).mp hstored
  have hcol := same_column htable c' c hid'
  have hsame : vb' = vb := tree_unique (Agent.mem_rowsBeyond.mp hmem').1 htree
    (by rw [hoid', hcol, hoid])
  exact hnot (hsame ▸ hleft c' hid')

/-- **Completeness.** Against a conformant agent the walk returns a response,
and the response is complete exactly when no answer starves it: rows go missing
when an answer is cut inside its first repetition, before the first column that
still has rows. -/
theorem buildTable_complete_iff (A : Agent) (table : MibTable) (hostId : String)
    (maxRepetitions fuel : Nat) (cuts : Nat → Nat) (htable : table.Resolved)
    (hfits : Fits A table) (hfuel : table.columns.length * maxColumnRows < fuel) :
    ∃ response cuts', buildTable A.transport table hostId maxRepetitions fuel cuts =
        some (.ok response, cuts') ∧
      (¬Starved A table maxRepetitions cuts → Complete A table response) ∧
      ((table.index.map MibObject.id).Nodup → Complete A table response →
        ¬Starved A table maxRepetitions cuts) := by
  have hsome := walkRounds_isSome A.transport maxRepetitions fuel [] (Walk.start table) cuts
    (bounded_start table) (by rw [room_start]; exact hfuel)
  obtain ⟨o, ho⟩ := Option.isSome_iff_exists.mp hsome
  obtain ⟨w, q, hres, hsim, hiff⟩ := walkRounds_sim (same_column htable)
    (fun c => hfits.cap _ (List.get_mem _ _)) maxRepetitions fuel [] (Walk.start table)
    (queues A table) cuts (sim_start A table) o ho
  have hbuild : buildTable A.transport table hostId maxRepetitions fuel cuts =
      some (.ok (assemble table hostId w.rows), o.transport) := by
    rw [buildTable, tableWalk, ho, Option.map_some, hres]
    rfl
  refine ⟨_, _, hbuild, ?_, ?_⟩
  · intro hfed
    exact complete_of_not_pending htable hostId hsim fun c hc => hfed (hiff.mpr ⟨c, hc⟩)
  · intro hindex hcomplete hstarved
    obtain ⟨c, hc⟩ := hiff.mp hstarved
    exact not_complete_of_pending htable hfits hindex hostId hsim hc hcomplete

/-! ## A status column behind an empty one

`ifTable` with two columns, of which the agent only serves the second. An answer
of one varbind ends the first column and brings no row, and the walk stops. -/

def ifTable : MibTable where
  id := "IF-MIB::ifTable"
  index := [⟨"IF-MIB::ifIndex", [1, 3, 6, 1, 2, 1, 2, 2, 1, 1], .integer⟩]
  columns := [⟨"IF-MIB::ifDescr", [1, 3, 6, 1, 2, 1, 2, 2, 1, 2], .displayString⟩,
    ⟨"IF-MIB::ifOperStatus", [1, 3, 6, 1, 2, 1, 2, 2, 1, 8], .integer⟩]

def statusAgent : Agent where
  tree := [⟨[1, 3, 6, 1, 2, 1, 2, 2, 1, 8, 1], .integer 1⟩]
  sorted := List.pairwise_singleton ..
  values := by decide

theorem ifTable_resolved : ifTable.Resolved where
  index_ne_nil := by simp [ifTable]
  same_id c hc c' hc' h := by
    simp only [ifTable, List.mem_cons, List.not_mem_nil, or_false] at hc hc'
    rcases hc with rfl | rfl <;> rcases hc' with rfl | rfl <;> first | rfl | simp at h

theorem statusAgent_fits : Fits statusAgent ifTable where
  cap c _ := by
    refine (List.length_filter_le _ _).trans ?_
    decide
  decodable c hc suffix _ hv := by
    obtain ⟨v, hv⟩ := Option.isSome_iff_exists.mp hv
    have hmem := Agent.value_eq_some_iff.mp hv
    simp only [ifTable, List.mem_cons, List.not_mem_nil, or_false] at hc
    simp only [statusAgent, List.mem_singleton, VarBind.mk.injEq] at hmem
    rcases hc with rfl | rfl
    · simp at hmem
    · simp only [List.cons_append, List.cons.injEq, true_and, List.nil_append] at hmem
      rw [hmem.1]
      decide

/-- The completeness theorem at the agent whose answers are not cut. -/
theorem buildTable_complete_iff_uncut : ∃ response cuts',
    buildTable statusAgent.transport ifTable "sw1" 20 400001 (fun _ => 40) =
      some (.ok response, cuts') ∧
    (¬Starved statusAgent ifTable 20 (fun _ => 40) → Complete statusAgent ifTable response) ∧
    ((ifTable.index.map MibObject.id).Nodup → Complete statusAgent ifTable response →
      ¬Starved statusAgent ifTable 20 (fun _ => 40)) :=
  buildTable_complete_iff statusAgent ifTable "sw1" 20 400001 (fun _ => 40) ifTable_resolved
    statusAgent_fits (by decide)

/-- **A conformant agent loses a row**: cut to one varbind, the answer holds the
end of the first column, and the status row is never asked for again. -/
theorem buildTable_incomplete :
    ¬∀ (A : Agent) (table : MibTable) (hostId : String) (maxRepetitions fuel : Nat)
      (cuts : Nat → Nat), table.Resolved → (table.index.map MibObject.id).Nodup →
      Fits A table → 0 < maxRepetitions → table.columns.length * maxColumnRows < fuel →
      ∃ response cuts', buildTable A.transport table hostId maxRepetitions fuel cuts =
        some (.ok response, cuts') ∧ Complete A table response := by
  intro hclaim
  obtain ⟨response, cuts', hbuild, hcomplete⟩ := hclaim statusAgent ifTable "sw1" 20 400001
    (fun _ => 0) ifTable_resolved (by decide) statusAgent_fits (by decide) (by decide)
  have hempty : (buildTable statusAgent.transport ifTable "sw1" 20 400001 (fun _ => 0)).map
      (fun r => r.1.map (fun response => response.entries.length)) = some (.ok 0) := rfl
  rw [hbuild, Option.map_some, Option.some.injEq] at hempty
  simp only [Except.map, Except.ok.injEq, List.length_eq_zero_iff] at hempty
  obtain ⟨index, hindex⟩ : ∃ index, decodeIndex [1] ifTable.index = some index := ⟨_, rfl⟩
  obtain ⟨entry, hentry, -⟩ := hcomplete [1] index hindex
    ⟨⟨"IF-MIB::ifOperStatus", [1, 3, 6, 1, 2, 1, 2, 2, 1, 8], .integer⟩, by simp [ifTable],
      by decide⟩
  rw [hempty] at hentry
  cases hentry

end JaspyNexus.Snmp.WalkCompleteness
