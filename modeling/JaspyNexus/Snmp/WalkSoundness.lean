import JaspyNexus.Snmp.Embedded

/-! # The walk on any transport

Nothing is assumed of the answers here: they may repeat, go backwards, leave the
table or never stop. The row cap bounds the walk (`walkRounds_isSome`): every
round that does not end it counts a row. Soundness is carried by the list of
accepted varbinds (`Tracked`): an open column's cursor is beyond every row it
contributed, so no row is ever written twice, and what `assemble` renders is
exactly the accepted list. -/

namespace JaspyNexus.Snmp.WalkSoundness
open JaspyNexus.Lib JaspyNexus.Snmp JaspyNexus.Snmp.Render JaspyNexus.Snmp.Embedded

variable {σ : Type} {n : Nat} {table : MibTable}

/-! ## Termination -/

/-- The row cap, on the counts: a column still being walked is below it. -/
structure Bounded (s : Walk n) : Prop where
  count_le : ∀ c, s.count c ≤ maxColumnRows
  open_lt : ∀ c last, s.cursor c = some last → s.count c < maxColumnRows

/-- The rows the cap still allows, over all columns. -/
def room (s : Walk n) : Nat := ∑ c, (maxColumnRows - s.count c)

theorem bounded_start (table : MibTable) : Bounded (Walk.start table) :=
  ⟨fun _ => Nat.zero_le _, fun _ _ _ => by simp [Walk.start, maxColumnRows]⟩

theorem Bounded.close {s : Sweep n} (h : Bounded s.toWalk) (col : Fin n) :
    Bounded (s.close col).toWalk := by
  refine ⟨fun c => by simpa using h.count_le c, fun c last hc => ?_⟩
  by_cases hcol : c = col
  · subst hcol; simp at hc
  · rw [s.close_cursor_ne hcol] at hc
    simpa using h.open_lt c last hc

theorem Bounded.accept {s : Sweep table.columns.length} (h : Bounded s.toWalk)
    {col : Fin table.columns.length} {last : Oid} (hcur : s.cursor col = some last)
    (vb : VarBind) : Bounded (s.accept table col vb).toWalk := by
  have hlt := h.open_lt col last hcur
  constructor
  · intro c
    by_cases hc : c = col
    · subst hc; rw [s.accept_count_self]; exact hlt
    · rw [s.accept_count_ne vb hc]; exact h.count_le c
  · intro c last' hc'
    by_cases hc : c = col
    · subst hc
      rw [s.accept_cursor_self] at hc'
      rw [s.accept_count_self]
      split at hc'
      · cases hc'
      · omega
    · rw [s.accept_cursor_ne vb hc] at hc'
      rw [s.accept_count_ne vb hc]
      exact h.open_lt c last' hc'

theorem room_accept {s : Sweep table.columns.length} (h : Bounded s.toWalk)
    {col : Fin table.columns.length} {last : Oid} (hcur : s.cursor col = some last)
    (vb : VarBind) : room (s.accept table col vb).toWalk < room s.toWalk := by
  have hlt := h.open_lt col last hcur
  apply Finset.sum_lt_sum
  · intro c _
    by_cases hc : c = col
    · subst hc; rw [s.accept_count_self]; omega
    · rw [s.accept_count_ne vb hc]
  · exact ⟨col, Finset.mem_univ _, by rw [s.accept_count_self]; omega⟩

/-- One varbind never makes room, and a varbind that advances a column uses some. -/
theorem absorb_bounded (active : List (Fin table.columns.length)) (p : Nat) (vb : VarBind)
    {s : Sweep table.columns.length} (h : Bounded s.toWalk) :
    Bounded (absorb table active p vb s).toWalk ∧
      room (absorb table active p vb s).toWalk ≤ room s.toWalk ∧
      ((absorb table active p vb s).progressed = true → s.progressed = true ∨
        room (absorb table active p vb s).toWalk < room s.toWalk) := by
  rcases absorb_cases active p vb s with he | ⟨col, last, _, _, he⟩ |
    ⟨col, last, _, hcur, _, _, _, he⟩ <;> rw [he]
  · exact ⟨h, le_rfl, .inl⟩
  · exact ⟨h.close col, le_rfl, .inl⟩
  · exact ⟨h.accept hcur vb, (room_accept h hcur vb).le, fun _ => .inr (room_accept h hcur vb)⟩

theorem sweep_bounded (active : List (Fin table.columns.length)) (varbinds : List VarBind) :
    ∀ (p : Nat) (s : Sweep table.columns.length), Bounded s.toWalk →
      Bounded (sweep table active p varbinds s).toWalk ∧
      room (sweep table active p varbinds s).toWalk ≤ room s.toWalk ∧
      ((sweep table active p varbinds s).progressed = true → s.progressed = true ∨
        room (sweep table active p varbinds s).toWalk < room s.toWalk) := by
  induction varbinds with
  | nil => intro p s h; exact ⟨h, le_rfl, .inl⟩
  | cons vb rest ih =>
    intro p s h
    obtain ⟨hb, hle, hprog⟩ := absorb_bounded active p vb h
    obtain ⟨hb', hle', hprog'⟩ := ih (p + 1) _ hb
    refine ⟨hb', hle'.trans hle, fun hp => ?_⟩
    rcases hprog' hp with hp | hlt
    · rcases hprog hp with hp | hlt
      · exact .inl hp
      · exact .inr (hle'.trans_lt hlt)
    · exact .inr (hlt.trans_le hle)

/-- **More fuel than there is room is enough**, whatever the transport answers. -/
theorem walkRounds_isSome (T : Transport σ) (maxRepetitions : Nat) :
    ∀ (fuel : Nat) (done : List (Round table.columns.length)) (s : Walk table.columns.length)
      (t : σ), Bounded s → room s < fuel →
      (walkRounds T table maxRepetitions fuel done s t).isSome := by
  intro fuel
  induction fuel with
  | zero => intro _ s _ _ hlt; omega
  | succ fuel ih =>
    intro done s t hb hlt
    unfold walkRounds
    split
    · rfl
    · split
      · rfl
      · next varbinds t' _ =>
        split
        · rfl
        · obtain ⟨hb', _, hprog⟩ := sweep_bounded s.active varbinds 0 ⟨s, false⟩ hb
          dsimp only
          split
          · next hp =>
            apply ih _ _ _ hb'
            rcases hprog hp with hf | hr
            · cases hf
            · have : room (Sweep.mk s false).toWalk = room s := rfl
              omega
          · rfl

theorem room_start (table : MibTable) :
    room (Walk.start table) = table.columns.length * maxColumnRows := by
  simp [room, Walk.start]

/-! ## Where a row came from -/

/-- A row of the result: the answer and position of its varbind, the column in
that slot, and the varbind's suffix and value. -/
structure Hit (n : Nat) where
  round : Nat
  position : Nat
  column : Fin n
  suffix : Oid
  value : RawValue

/-- The transport returned this varbind, in a slot of this column, under the
column's OID. -/
def Returned (table : MibTable) (rounds : List (Round table.columns.length))
    (h : Hit table.columns.length) : Prop :=
  ∃ r, rounds[h.round]? = some r ∧ slot r.active h.position = some h.column ∧
    r.varbinds[h.position]? = some ⟨(column table h.column).oid ++ h.suffix, h.value⟩

theorem Returned.append {rounds : List (Round table.columns.length)}
    {h : Hit table.columns.length} (hr : Returned table rounds h)
    (more : List (Round table.columns.length)) : Returned table (rounds ++ more) h := by
  obtain ⟨r, hget, hslot, hvb⟩ := hr
  have hlt : h.round < rounds.length := (List.getElem?_eq_some_iff.mp hget).1
  exact ⟨r, by rw [List.getElem?_append_left hlt]; exact hget, hslot, hvb⟩

/-- Distinct column ids name distinct columns. -/
theorem column_id_injective (hids : (table.columns.map MibObject.id).Nodup)
    {c c' : Fin table.columns.length} (h : (column table c).id = (column table c').id) :
    c = c' := by
  have hinj := List.nodup_iff_injective_get.mp hids
  have hlen : (table.columns.map MibObject.id).length = table.columns.length := by simp
  have : Fin.cast hlen.symm c = Fin.cast hlen.symm c' := by
    apply hinj
    simpa [column] using h
  simpa using congrArg (Fin.cast hlen) this

/-- The accepted varbinds account for the state of the walk. -/
structure Tracked (table : MibTable) (s : Walk table.columns.length)
    (hits : List (Hit table.columns.length)) : Prop where
  rows : ∀ suffix id v, ((s.rows[suffix]?.bind fun row => row id) = some v ↔
    ∃ h ∈ hits, h.suffix = suffix ∧ (column table h.column).id = id ∧ h.value = v)
  below : ∀ h ∈ hits, ∀ last, s.cursor h.column = some last →
    (column table h.column).oid ++ h.suffix ≤ last
  once : (hits.map fun h => (h.column, h.suffix)).Nodup
  count : ∀ c, s.count c = hits.countP fun h => h.column = c

theorem tracked_start (table : MibTable) : Tracked table (Walk.start table) [] where
  rows suffix id v := by simp [Walk.start]
  below := by simp
  once := by simp
  count := by simp [Walk.start]

theorem Tracked.close {s : Sweep table.columns.length} {hits : List (Hit table.columns.length)}
    (h : Tracked table s.toWalk hits) (col : Fin table.columns.length) :
    Tracked table (s.close col).toWalk hits where
  rows := h.rows
  below hit hmem last hcur := by
    by_cases hc : hit.column = col
    · rw [hc] at hcur; simp at hcur
    · rw [s.close_cursor_ne hc] at hcur
      exact h.below hit hmem last hcur
  once := h.once
  count := h.count

/-- The new row lies beyond the cursor, so its column never contributed it. -/
theorem Tracked.fresh {s : Sweep table.columns.length} {hits : List (Hit table.columns.length)}
    (h : Tracked table s.toWalk hits) {col : Fin table.columns.length} {last suffix : Oid}
    (hcur : s.cursor col = some last) (hlt : last < (column table col).oid ++ suffix) :
    (col, suffix) ∉ hits.map fun h => (h.column, h.suffix) := by
  intro hmem
  obtain ⟨hit, hm, he⟩ := List.mem_map.mp hmem
  simp only [Prod.mk.injEq] at he
  obtain ⟨rfl, rfl⟩ := he
  exact absurd (h.below hit hm last hcur) (not_le.mpr hlt)

theorem Tracked.accept (hids : (table.columns.map MibObject.id).Nodup)
    {s : Sweep table.columns.length} {hits : List (Hit table.columns.length)}
    (h : Tracked table s.toWalk hits) {col : Fin table.columns.length} {last : Oid}
    (hcur : s.cursor col = some last) {vb : VarBind} (hlt : last < vb.oid)
    (hit : Hit table.columns.length) (hcol : hit.column = col)
    (hoid : (column table col).oid ++ hit.suffix = vb.oid) (hval : hit.value = vb.value) :
    Tracked table (s.accept table col vb).toWalk (hit :: hits) := by
  have hdrop : vb.oid.drop (column table col).oid.length = hit.suffix := by
    rw [← hoid, List.drop_left]
  have hbeyond : last < (column table col).oid ++ hit.suffix := by rw [hoid]; exact hlt
  have hfresh := h.fresh hcur hbeyond
  refine ⟨?_, ?_, ?_, ?_⟩
  · intro suffix id v
    rw [s.accept_rows, hdrop]
    split
    · next hk =>
      obtain ⟨rfl, rfl⟩ := hk
      constructor
      · intro hv
        exact ⟨hit, by simp, rfl, by rw [hcol], by rw [hval]; exact Option.some.inj hv⟩
      · rintro ⟨hit', hmem, hsuf, hid, rfl⟩
        rcases List.mem_cons.mp hmem with rfl | hmem
        · rw [hval]
        · -- an older row of the same column and suffix contradicts freshness
          have hc := column_id_injective hids hid
          exact absurd (List.mem_map.mpr ⟨hit', hmem, by rw [hc, hsuf]⟩) hfresh
    · next hk =>
      rw [h.rows suffix id v]
      constructor
      · rintro ⟨hit', hmem, hrest⟩
        exact ⟨hit', List.mem_cons_of_mem _ hmem, hrest⟩
      · rintro ⟨hit', hmem, hsuf, hid, hv⟩
        rcases List.mem_cons.mp hmem with rfl | hmem
        · exact absurd ⟨hsuf.symm, by rw [← hid, hcol]⟩ hk
        · exact ⟨hit', hmem, hsuf, hid, hv⟩
  · intro hit' hmem last' hcur'
    by_cases hc : hit'.column = col
    · rw [hc, s.accept_cursor_self] at hcur'
      split at hcur'
      · cases hcur'
      · cases hcur'
        rcases List.mem_cons.mp hmem with rfl | hmem
        · rw [hc, hoid]
        · exact (h.below hit' hmem last (by rw [hc]; exact hcur)).trans hlt.le
    · rw [s.accept_cursor_ne vb hc] at hcur'
      rcases List.mem_cons.mp hmem with rfl | hmem
      · exact absurd hcol hc
      · exact h.below hit' hmem last' hcur'
  · rw [List.map_cons, List.nodup_cons, hcol]
    exact ⟨hfresh, h.once⟩
  · intro c
    by_cases hc : c = col
    · subst hc
      rw [s.accept_count_self, List.countP_cons_of_pos (by simpa using hcol), ← h.count c]
    · rw [s.accept_count_ne vb hc, List.countP_cons_of_neg (by simpa [hcol] using Ne.symm hc),
        ← h.count c]

/-- One answer: `pre` has been absorbed, `rest` follows. -/
theorem sweep_tracked (hids : (table.columns.map MibObject.id).Nodup)
    (done : List (Round table.columns.length)) (active : List (Fin table.columns.length))
    (varbinds : List VarBind) : ∀ (rest pre : List VarBind), pre ++ rest = varbinds →
      ∀ (s : Sweep table.columns.length) (hits : List (Hit table.columns.length)),
      Tracked table s.toWalk hits → (∀ h ∈ hits, Returned table (done ++ [⟨active, varbinds⟩]) h) →
      ∃ hits', Tracked table (sweep table active pre.length rest s).toWalk hits' ∧
        ∀ h ∈ hits', Returned table (done ++ [⟨active, varbinds⟩]) h := by
  intro rest
  induction rest with
  | nil => intro pre _ s hits h hret; exact ⟨hits, h, hret⟩
  | cons vb rest ih =>
    intro pre hpre s hits h hret
    have hstep : ∃ hits', Tracked table (absorb table active pre.length vb s).toWalk hits' ∧
        ∀ h ∈ hits', Returned table (done ++ [⟨active, varbinds⟩]) h := by
      rcases absorb_cases active pre.length vb s with he | ⟨col, last, _, _, he⟩ |
        ⟨col, last, hslot, hcur, hlt, _, ⟨suffix, hsuf⟩, he⟩ <;> rw [he]
      · exact ⟨hits, h, hret⟩
      · exact ⟨hits, h.close col, hret⟩
      · refine ⟨⟨done.length, pre.length, col, suffix, vb.value⟩ :: hits,
          h.accept hids hcur hlt _ rfl hsuf rfl, ?_⟩
        intro hit hmem
        rcases List.mem_cons.mp hmem with rfl | hmem
        · refine ⟨⟨active, varbinds⟩, by simp, hslot, ?_⟩
          rw [← hpre, hsuf]
          simp
        · exact hret hit hmem
    obtain ⟨hits', h', hret'⟩ := hstep
    have := ih (pre ++ [vb]) (by simpa using hpre) _ hits' h' hret'
    simpa [sweep] using this

/-- The whole walk, from any tracked state. -/
theorem walkRounds_tracked (hids : (table.columns.map MibObject.id).Nodup) (T : Transport σ)
    (maxRepetitions : Nat) : ∀ (fuel : Nat) (done : List (Round table.columns.length))
      (s : Walk table.columns.length) (t : σ) (hits : List (Hit table.columns.length)),
      Tracked table s hits → (∀ h ∈ hits, Returned table done h) → Bounded s →
      ∀ o w, walkRounds T table maxRepetitions fuel done s t = some o → o.result = .ok w →
      ∃ hits', Tracked table w hits' ∧ (∀ h ∈ hits', Returned table o.rounds h) ∧ Bounded w := by
  intro fuel
  induction fuel with
  | zero => intro _ _ _ _ _ _ _ o w h; cases h
  | succ fuel ih =>
    intro done s t hits h hret hb o w hw ho
    have hret' := fun r : Round table.columns.length => fun hit hm => (hret hit hm).append [r]
    unfold walkRounds at hw
    split at hw
    · cases hw; cases ho; exact ⟨hits, h, hret, hb⟩
    · split at hw
      · cases hw; cases ho
      · next varbinds t' _ =>
        split at hw
        · cases hw; cases ho; exact ⟨hits, h, hret' _, hb⟩
        · obtain ⟨hits', h', hr'⟩ := sweep_tracked hids done s.active varbinds varbinds []
            rfl ⟨s, false⟩ hits h (hret' _)
          have hb' := (sweep_bounded s.active varbinds 0 ⟨s, false⟩ hb).1
          dsimp only at hw
          split at hw
          · exact ih _ _ _ hits' h' hr' hb' o w hw ho
          · cases hw; cases ho; exact ⟨hits', h', hr', hb'⟩

/-! ## The rendered rows -/

section RenderRow
variable {columns : List MibObject} {values : PMap String RawValue}

/-- The column loop of one row, from any objects already collected. -/
def renderFrom (columns : List MibObject) (values : PMap String RawValue)
    (objects : PMap String Val) : PMap String Val :=
  columns.foldl (fun objects c =>
    match values c.id with
    | some raw => PMap.insert objects c.id (renderValue raw c.valueSyntax)
    | none => objects) objects

theorem renderFrom_other {id : String} : ∀ {columns : List MibObject} {objects : PMap String Val},
    (∀ c ∈ columns, c.id = id → values id = none) →
    renderFrom columns values objects id = objects id
  | [], _, _ => rfl
  | c :: rest, objects, h => by
    have hstep : renderFrom (c :: rest) values objects = renderFrom rest values
      (match values c.id with
        | some raw => PMap.insert objects c.id (renderValue raw c.valueSyntax)
        | none => objects) := rfl
    rw [hstep, renderFrom_other fun c' hc' => h c' (by simp [hc'])]
    cases hraw : values c.id with
    | none => rfl
    | some raw =>
      apply PMap.insert_of_ne
      rintro rfl
      rw [h c (by simp) rfl] at hraw
      cases hraw

theorem renderFrom_column {c : MibObject} {raw : RawValue} (hraw : values c.id = some raw) :
    ∀ {columns : List MibObject} {objects : PMap String Val}, c ∈ columns →
      (∀ d ∈ columns, ∀ d' ∈ columns, d.id = d'.id → d = d') →
      renderFrom columns values objects c.id = some (renderValue raw c.valueSyntax)
  | d :: rest, objects, hc, hsame => by
    have hstep : renderFrom (d :: rest) values objects = renderFrom rest values
      (match values d.id with
        | some raw => PMap.insert objects d.id (renderValue raw d.valueSyntax)
        | none => objects) := rfl
    by_cases hin : c ∈ rest
    · rw [hstep]
      exact renderFrom_column hraw hin fun a ha b hb =>
        hsame a (by simp [ha]) b (by simp [hb])
    · have hcd : c = d := by
        rcases List.mem_cons.mp hc with h | h
        · exact h
        · exact absurd h hin
      subst hcd
      rw [hstep, renderFrom_other]
      · rw [hraw]; exact PMap.insert_self ..
      · intro c' hc' hid
        exact absurd (hsame c' (by simp [hc']) c (by simp) hid ▸ hc') hin

/-- A rendered object is a stored value under the column that has its id. -/
theorem renderRow_iff (hsame : ∀ d ∈ columns, ∀ d' ∈ columns, d.id = d'.id → d = d')
    {id : String} {val : Val} : renderRow columns values id = some val ↔
      ∃ c ∈ columns, c.id = id ∧ ∃ raw, values id = some raw ∧
        val = renderValue raw c.valueSyntax := by
  constructor
  · intro h
    by_cases hex : ∃ c ∈ columns, c.id = id ∧ values id ≠ none
    · obtain ⟨c, hc, rfl, hne⟩ := hex
      obtain ⟨raw, hraw⟩ := Option.ne_none_iff_exists'.mp hne
      refine ⟨c, hc, rfl, raw, hraw, ?_⟩
      have hrow : renderRow columns values c.id = some (renderValue raw c.valueSyntax) :=
        renderFrom_column hraw hc hsame
      exact Option.some.inj (h.symm.trans hrow)
    · have : renderRow columns values id = none :=
        renderFrom_other fun c hc hid =>
          by_contra fun hne => hex ⟨c, hc, hid, hne⟩
      rw [this] at h
      cases h
  · rintro ⟨c, hc, rfl, raw, hraw, rfl⟩
    exact renderFrom_column hraw hc hsame

end RenderRow

/-! ## The response -/

/-- The response is made of the accepted varbinds and of nothing else. -/
structure Traced (table : MibTable) (rounds : List (Round table.columns.length))
    (response : Response) (hits : List (Hit table.columns.length)) (suffixes : List Oid) :
    Prop where
  /-- every row was returned in a slot of its column, under the column's OID -/
  returned : ∀ h ∈ hits, Returned table rounds h
  /-- a (column, suffix) pair has one varbind -/
  once : (hits.map fun h => (h.column, h.suffix)).Nodup
  /-- no column contributes more rows than the cap -/
  capped : ∀ c, (hits.filter fun h => h.column = c).length ≤ maxColumnRows
  /-- entries belong to pairwise distinct suffixes -/
  distinct : suffixes.Nodup
  /-- an entry's index and objects are those of its suffix -/
  entries : List.Forall₂ (fun suffix (entry : ResultEntry) =>
    decodeIndex suffix table.index = some entry.index ∧
    ∀ id val, entry.objects id = some val ↔ ∃ h ∈ hits, h.suffix = suffix ∧
      (column table h.column).id = id ∧ val = renderValue h.value (column table h.column).valueSyntax)
    suffixes response.entries

/-- The suffixes whose rows become entries, in order. -/
def entrySuffixes (table : MibTable) (rows : Std.TreeMap Oid (PMap String RawValue)) : List Oid :=
  (rows.toList.filter fun row => (decodeIndex row.1 table.index).isSome).map Prod.fst

theorem entrySuffixes_nodup (table : MibTable) (rows : Std.TreeMap Oid (PMap String RawValue)) :
    (entrySuffixes table rows).Nodup := by
  have hkeys : (rows.toList.map Prod.fst).Nodup := by
    rw [List.Nodup, List.pairwise_map]
    exact Std.TreeMap.distinct_keys_toList.imp fun h => by simpa using h
  exact hkeys.sublist (List.filter_sublist.map Prod.fst)

/-- The entries `assemble` makes, one for each decodable suffix. -/
theorem assemble_entries (table : MibTable) (hostId : String)
    (rows : Std.TreeMap Oid (PMap String RawValue)) :
    List.Forall₂ (fun suffix (entry : ResultEntry) => ∃ values, rows[suffix]? = some values ∧
      decodeIndex suffix table.index = some entry.index ∧
      entry.objects = renderRow table.columns values)
      (entrySuffixes table rows) (assemble table hostId rows).entries := by
  have hget : ∀ row ∈ rows.toList, rows[row.1]? = some row.2 := fun row hrow =>
    Std.TreeMap.mem_toList_iff_getElem?_eq_some.mp hrow
  unfold entrySuffixes assemble
  dsimp only
  generalize rows.toList = rowList at hget
  induction rowList with
  | nil => simp
  | cons row rest ih =>
    have htail := ih fun r hr => hget r (by simp [hr])
    cases hd : decodeIndex row.1 table.index with
    | none => simpa [hd] using htail
    | some index =>
      simp only [hd, Option.isSome_some, List.filter_cons_of_pos, List.map_cons,
        List.filterMap_cons, Option.map_some]
      exact .cons ⟨row.2, hget row (by simp), hd, rfl⟩ htail

theorem traced_assemble (hids : (table.columns.map MibObject.id).Nodup) (hostId : String)
    {rounds : List (Round table.columns.length)} {w : Walk table.columns.length}
    {hits : List (Hit table.columns.length)} (h : Tracked table w hits)
    (hret : ∀ hit ∈ hits, Returned table rounds hit) (hb : Bounded w) :
    Traced table rounds (assemble table hostId w.rows) hits (entrySuffixes table w.rows) where
  returned := hret
  once := h.once
  capped c := by
    rw [← List.countP_eq_length_filter, ← h.count c]
    exact hb.count_le c
  distinct := entrySuffixes_nodup table w.rows
  entries := by
    refine (assemble_entries table hostId w.rows).imp ?_
    rintro suffix entry ⟨values, hv, hindex, hobj⟩
    refine ⟨hindex, fun id val => ?_⟩
    have hsame : ∀ d ∈ table.columns, ∀ d' ∈ table.columns, d.id = d'.id → d = d' :=
      fun d hd d' hd' he => List.inj_on_of_nodup_map hids hd hd' he
    rw [hobj, renderRow_iff hsame]
    have hrow := h.rows suffix id
    rw [hv, Option.bind_some] at hrow
    constructor
    · rintro ⟨c, hc, rfl, raw, hraw, rfl⟩
      obtain ⟨hit, hmem, hsuf, hid, rfl⟩ := (hrow raw).mp hraw
      have hcol : column table hit.column = c :=
        hsame _ (List.get_mem _ _) c hc hid
      exact ⟨hit, hmem, hsuf, hid, by rw [hcol]⟩
    · rintro ⟨hit, hmem, hsuf, rfl, rfl⟩
      exact ⟨column table hit.column, List.get_mem _ _, rfl, hit.value,
        (hrow hit.value).mpr ⟨hit, hmem, hsuf, rfl, rfl⟩, rfl⟩

/-- Entries of distinct suffixes have distinct index maps. -/
theorem Traced.index_distinct {rounds : List (Round table.columns.length)} {response : Response}
    {hits : List (Hit table.columns.length)} {suffixes : List Oid}
    (h : Traced table rounds response hits suffixes)
    (hindex : (table.index.map MibObject.id).Nodup) :
    response.entries.Pairwise fun e e' => e.index ≠ e'.index := by
  have hd := h.distinct
  have he := h.entries
  generalize response.entries = entries at he
  clear h
  induction he with
  | nil => exact .nil
  | @cons suffix entry suffixes entries hhead htail ih =>
    obtain ⟨hnot, hd'⟩ := List.nodup_cons.mp hd
    refine List.pairwise_cons.mpr ⟨fun e' hmem heq => ?_, ih hd'⟩
    obtain ⟨i, hi, rfl⟩ := List.mem_iff_getElem.mp hmem
    have hlen := htail.length_eq
    have hi' : i < suffixes.length := by omega
    obtain ⟨hdec, _⟩ := htail.get (i := i) hi' hi
    have := decodeIndex_injective hindex hhead.1 (by rw [heq]; exact hdec)
    exact hnot (this ▸ List.get_mem suffixes ⟨i, hi'⟩)

/-- **Any transport.** The walk ends within `columns * MAX_COLUMN_ROWS + 1`
rounds, and a response it returns is made of varbinds the transport returned:
one for each (column, suffix), in a slot of that column, under its OID, at most
`MAX_COLUMN_ROWS` of a column, with distinct suffixes in distinct entries. -/
theorem buildTable_any_transport (T : Transport σ) (table : MibTable) (hostId : String)
    (maxRepetitions : Nat) (t : σ) (hids : (table.columns.map MibObject.id).Nodup) :
    (∀ fuel, table.columns.length * maxColumnRows < fuel →
      (buildTable T table hostId maxRepetitions fuel t).isSome) ∧
    ∀ fuel response t',
      buildTable T table hostId maxRepetitions fuel t = some (.ok response, t') →
      ∃ o hits suffixes, tableWalk T table maxRepetitions fuel t = some o ∧
        Traced table o.rounds response hits suffixes ∧
        ((table.index.map MibObject.id).Nodup →
          response.entries.Pairwise fun e e' => e.index ≠ e'.index) := by
  constructor
  · intro fuel hfuel
    have := walkRounds_isSome T maxRepetitions fuel [] (Walk.start table) t (bounded_start table)
      (by rw [room_start]; exact hfuel)
    simpa [buildTable, tableWalk] using this
  · intro fuel response t' h
    simp only [buildTable, Option.map_eq_some_iff, Prod.mk.injEq] at h
    obtain ⟨o, ho, hresult, _⟩ := h
    cases hres : o.result with
    | error e => rw [hres] at hresult; cases hresult
    | ok w =>
      rw [hres] at hresult
      cases hresult
      obtain ⟨hits, htr, hret, hb⟩ := walkRounds_tracked hids T maxRepetitions fuel []
        (Walk.start table) t [] (tracked_start table) (by simp) (bounded_start table) o w ho hres
      have htraced := traced_assemble hids hostId htr hret hb
      exact ⟨o, hits, _, ho, htraced, htraced.index_distinct⟩

/-- An agent that repeats two varbinds whatever it is asked. -/
def loopingAgent : Transport Unit where
  getbulkMulti _ _ _ := (.ok [⟨[1, 2, 7], .integer 5⟩, ⟨[1, 3, 7], .integer 6⟩], ())

/-- Two columns under one integer index. -/
def twoColumns : MibTable where
  id := "T::t"
  index := [⟨"T::i", [1, 1], .integer⟩]
  columns := [⟨"T::a", [1, 2], .integer⟩, ⟨"T::b", [1, 3], .integer⟩]

/-- On the looping agent the walk ends, with what its varbinds say. -/
theorem buildTable_any_transport_looping :
    (buildTable loopingAgent twoColumns "sw1" 20 400001 ()).isSome ∧
    ∃ response, ∃ o : Outcome Unit twoColumns.columns.length, ∃ hits suffixes,
      buildTable loopingAgent twoColumns "sw1" 20 3 () = some (.ok response, ()) ∧
      Traced twoColumns o.rounds response hits suffixes := by
  have hids : (twoColumns.columns.map MibObject.id).Nodup := by decide
  obtain ⟨hends, hsound⟩ := buildTable_any_transport loopingAgent twoColumns "sw1" 20 () hids
  have hok : ∃ response, buildTable loopingAgent twoColumns "sw1" 20 3 () =
      some (.ok response, ()) := ⟨_, rfl⟩
  obtain ⟨response, hresponse⟩ := hok
  obtain ⟨o, hits, suffixes, _, htraced, _⟩ := hsound 3 response () hresponse
  exact ⟨hends 400001 (by decide), response, o, hits, suffixes, hresponse, htraced⟩

end JaspyNexus.Snmp.WalkSoundness
