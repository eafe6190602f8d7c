import Mathlib
import JaspyNexus.Lib.Journal
import JaspyNexus.Models.Constraints
import JaspyNexus.Utilities.DiscoveryLinks

/-! # Columns under concurrent ingests

Crawls, single-device runs and payloads sent by clients are ingested at the same
time. An interface row is read, changed and written back whole, so a write may
take columns back to what they were when its copy was read. Beside the store runs
the table that the same writes leave when each sets only the columns it is about. The
two stay the same in a schedule where no other call sets further columns of a row
between the read of a copy and the write of it (`asMeant_run`). -/

namespace JaspyNexus.Utilities.Discovery
open JaspyNexus.Lib JaspyNexus.Models

/-! ## What is meant -/

/-- One call: `ingest_device` or `ingest_links`. -/
inductive Ingest where
  | device (discovered : DiscoveredDevice)
  | links (payload : LinkInfo)

def Ingest.prog : Ingest → Prog Call Unit
  | .device discovered => ingestDevice discovered
  | .links payload => ingestLinks payload

/-- A row with a change made to the columns it is about, unless what it is linked
to is not there. -/
def changeRow (store : Store) (id : Int) (change : InterfaceChange) (row : Interface) : Interface :=
  if row.id = id && store.interfaceRefs (change.apply row) then change.apply row else row

/-- The interface rows as a statement means to leave them. -/
def meantRows {β : Type} (c : Call β) (answer : Answer) (store : Store) (rows : List Interface) :
    List Interface :=
  match c with
  | .updateInterface snapshot change =>
    if answer.ok then rows.map (changeRow store snapshot.id change) else rows
  | .createInterface new =>
    if answer.ok && store.hasDevice new.deviceId then rows ++ [new.row store.interfaceSeq] else rows
  | .deleteInterface id =>
    if answer.ok && (!store.hasInterface id || !store.interfaceReferenced id) then
      rows.filter fun row => row.id ≠ id
    else rows
  | _ => rows

/-- The store, and its interface rows as the writes so far meant them. -/
structure Ingested where
  store : Store
  meant : List Interface

def Ingested.start (store : Store) : Ingested := ⟨store, store.interfaces⟩

/-- Every interface column holds what the last write about it meant. -/
def Ingested.AsMeant (ingested : Ingested) : Prop := ingested.store.interfaces = ingested.meant

def ingestStep : Prog.Exec Call Ingested Answer := fun β c answer ingested =>
  let out := Call.exec β c answer ingested.store
  (⟨out.1, meantRows c answer ingested.store ingested.meant⟩, out.2)

/-- Calls that are ingested at the same time. -/
def ingesting (store : Store) (calls : Nat → Ingest) : Pool Call Ingested :=
  ⟨.start store, fun i => (calls i).prog⟩

/-- **When a copy may be written back**: the row it is of, if it is there, still has
in the columns that are not to be changed what the copy has. It does not matter
where the change is refused, nor where the write is and the change would be none. -/
def UpToDate (store : Store) (snapshot : Interface) (change : InterfaceChange) : Prop :=
  ∀ row ∈ store.interfaces, row.id = snapshot.id → store.interfaceRefs (change.apply row) = true →
    (store.interfaceRefs (change.apply snapshot) = true ∨ change.apply row ≠ row) →
    change.apply snapshot = change.apply row

/-- A statement that writes back a copy writes one that is up to date. -/
def WritesCurrent {β : Type} (c : Call β) (answer : Answer) (ingested : Ingested) : Prop :=
  match c with
  | .updateInterface snapshot change => answer.ok = true → UpToDate ingested.store snapshot change
  | _ => True

/-! ## One write -/

section
variable {store : Store} {snapshot : Interface} {change : InterfaceChange} {row : Interface}

/-- A copy written in place of its row, unless what it refers to is not there. -/
def writeRow (store : Store) (snapshot : Interface) (change : InterfaceChange) (row : Interface) :
    Interface :=
  if row.id = snapshot.id && store.interfaceRefs (change.apply snapshot) then change.apply snapshot
  else row

theorem exec_updateInterface (answer : Answer) :
    (Call.exec _ (.updateInterface snapshot change) answer store).1.interfaces =
      if answer.ok then store.interfaces.map (writeRow store snapshot change) else store.interfaces := by
  dsimp only [Call.exec]
  cases answer.ok with
  | false => rfl
  | true =>
    rw [Bool.true_and, if_pos rfl]
    by_cases hrefs : store.interfaceRefs (change.apply snapshot) = true
    · have hwrite : writeRow store snapshot change =
          fun row => if row.id = snapshot.id then change.apply snapshot else row := by
        funext row
        simp [writeRow, hrefs]
      rw [if_pos (by simp [hrefs]), hwrite]
      rfl
    · have hwrite : writeRow store snapshot change = id := by
        funext row
        simp [writeRow, hrefs]
      cases hhas : store.hasInterface snapshot.id with
      | true => simp [hrefs, hwrite]
      | false =>
        have hno : ∀ row ∈ store.interfaces, row.id ≠ snapshot.id := by
          simpa [Store.hasInterface] using hhas
        rw [if_pos (by simp), Store.writeInterface, hwrite]
        exact List.map_congr_left fun row hrow => by simp [hno row hrow]

/-- A change refused in the row itself is refused in any copy. -/
theorem interfaceRefs_apply (hrow : store.interfaceRefs row = true)
    (hsnap : store.interfaceRefs (change.apply snapshot) = true) :
    store.interfaceRefs (change.apply row) = true := by
  obtain ⟨hc, hv, hdev⟩ := Store.interfaceRefs_iff.mp hrow
  refine Store.interfaceRefs_iff.mpr ⟨fun id hid => ?_, hv, hdev⟩
  cases hlink : change.connectedInterface with
  | none =>
    rw [InterfaceChange.apply, hlink] at hid
    exact hc id hid
  | some link =>
    refine (Store.interfaceRefs_iff.mp hsnap).1 id ?_
    rw [InterfaceChange.apply, hlink] at hid ⊢
    exact hid

theorem writeRow_eq_iff (hrefs : store.interfaceRefs row = true) :
    writeRow store snapshot change row = changeRow store snapshot.id change row ↔
      (row.id = snapshot.id → store.interfaceRefs (change.apply row) = true →
        (store.interfaceRefs (change.apply snapshot) = true ∨ change.apply row ≠ row) →
        change.apply snapshot = change.apply row) := by
  unfold writeRow changeRow
  by_cases hid : row.id = snapshot.id
  · have himp (hsnap : store.interfaceRefs (change.apply snapshot) = true) :
        store.interfaceRefs (change.apply row) = true := interfaceRefs_apply hrefs hsnap
    cases hw : store.interfaceRefs (change.apply snapshot) <;>
      cases hm : store.interfaceRefs (change.apply row)
    · simp [hid]
    · -- the write is refused and the change is not: the change has to be none
      have hne : change.apply snapshot ≠ change.apply row := fun h => by
        rw [h, hm] at hw
        cases hw
      simp [hid, hne, eq_comm]
    · rw [himp hw] at hm
      cases hm
    · simp [hid]
  · simp [hid]

end

/-! ## One statement -/

/-- One statement leaves the columns as meant exactly when what it writes back is
up to date. -/
theorem asMeant_step {β : Type} (c : Call β) (answer : Answer) {ingested : Ingested}
    (hwf : ingested.store.Constrained) (h : ingested.AsMeant) :
    (ingestStep β c answer ingested).1.AsMeant ↔ WritesCurrent c answer ingested := by
  obtain ⟨store, meant⟩ := ingested
  obtain rfl : store.interfaces = meant := h
  cases c with
  | findDevice | interfacesOf | interfaceById | interfaceByName | interfacesAt | weathermapInfosOf
  | clientLocationsOf => exact iff_of_true rfl trivial
  | createDevice | updateDevice | deleteDevice | createInterface | deleteInterface
  | deleteWeathermapInfo | deleteClientLocation | publish | invalidateWeathermap =>
    refine iff_of_true ?_ trivial
    dsimp only [Ingested.AsMeant, ingestStep, meantRows, Call.exec]
    split <;> rfl
  | updateInterface snapshot change =>
    have hrows : (ingestStep _ (.updateInterface snapshot change) answer
        ⟨store, store.interfaces⟩).1.AsMeant ↔
      (if answer.ok then store.interfaces.map (writeRow store snapshot change) else store.interfaces) =
        if answer.ok then store.interfaces.map (changeRow store snapshot.id change)
        else store.interfaces := by
      rw [← exec_updateInterface]
      rfl
    rw [hrows]
    cases hok : answer.ok with
    | false => simp [WritesCurrent, hok]
    | true =>
      simp only [WritesCurrent, UpToDate, hok, if_true, true_implies, List.map_inj_left]
      exact forall₂_congr fun row hrow => writeRow_eq_iff (hwf.refs row hrow)

/-! ## What was read and written -/

/-- The change sets every column that the other sets. -/
def covers (change other : InterfaceChange) : Bool :=
  (other.index.isNone || change.index.isSome) && (other.interfaceType.isNone || change.interfaceType.isSome) &&
    (other.connectedInterface.isNone || change.connectedInterface.isSome) &&
    (other.name.isNone || change.name.isSome) && (other.ifAlias.isNone || change.ifAlias.isSome) &&
    (other.description.isNone || change.description.isSome) && (other.media.isNone || change.media.isSome) &&
    (other.cdpDeviceId.isNone || change.cdpDeviceId.isSome) &&
    (other.cdpDevicePort.isNone || change.cdpDevicePort.isSome)

/-- The interface rows that a query returned. -/
def rowsRead : {β : Type} → Call β → β → List Interface
  | _, .interfacesOf _, rows => rows
  | _, .interfacesAt _, rows => rows
  | _, .interfaceById _, row => row.toList
  | _, .interfaceByName _ _, row => row.toList
  | _, _, _ => []

/-- The interface row that was written, and what was set in it. -/
def written : {β : Type} → Call β → β → Option (Int × InterfaceChange)
  | _, .updateInterface snapshot change, ok => if ok then some (snapshot.id, change) else none
  | _, _, _ => none

/-- The step read the row. -/
def reads (row : Interface) (e : Entry Call Answer) : Bool := decide (row ∈ rowsRead e.call e.result)

/-- The step set a column of the row that the change does not set. -/
def disturbs (id : Int) (change : InterfaceChange) (e : Entry Call Answer) : Bool :=
  (written e.call e.result).any fun w => decide (w.1 = id) && !covers change w.2

/-- **The condition**: since the call read the copy that it writes back, no other call has
set a column of the row that this write does not set itself. -/
def Undisturbed {β : Type} (i : Nat) (c : Call β) (answer : Answer) (_ : Ingested)
    (log : List (Entry Call Answer)) : Prop :=
  match c with
  | .updateInterface snapshot change => answer.ok = true →
    Log.Followed (fun e => e.caller ≠ i ∧ disturbs snapshot.id change e = true)
      (fun e => e.caller = i ∧ reads snapshot e = true) log
  | _ => True

/-- A payload that names an interface twice sets the second time what it set the first. -/
def Ingest.Consistent : Ingest → Prop
  | .device discovered =>
    discovered.interfaces.Pairwise fun first second => first.name = second.name → covers second.change first.change = true
  | .links _ => True

theorem getD_getD_of_covers {α : Type} {change other : Option α} (x : α)
    (h : (other.isNone || change.isSome) = true) : change.getD (other.getD x) = change.getD x := by
  cases change with
  | some a => rfl
  | none =>
    cases other with
    | some b => cases h
    | none => rfl

/-- What is set again does not matter. -/
theorem apply_apply {change other : InterfaceChange} (h : covers change other = true) (row : Interface) :
    change.apply (other.apply row) = change.apply row := by
  simp only [covers, Bool.and_eq_true] at h
  obtain ⟨⟨⟨⟨⟨⟨⟨⟨hindex, htype⟩, hlink⟩, hname⟩, halias⟩, hdescription⟩, hmedia⟩, hdevice⟩, hport⟩ := h
  simp only [InterfaceChange.apply, getD_getD_of_covers _ hindex, getD_getD_of_covers _ htype,
    getD_getD_of_covers _ hlink, getD_getD_of_covers _ hname, getD_getD_of_covers _ halias,
    getD_getD_of_covers _ hdescription, getD_getD_of_covers _ hmedia, getD_getD_of_covers _ hdevice,
    getD_getD_of_covers _ hport]

theorem covers_link (peer other : Option Int) : covers (.link peer) (.link other) = true := rfl

theorem disturbs_eq_false {id : Int} {change : InterfaceChange} {e : Entry Call Answer} :
    disturbs id change e = false ↔ ∀ other, written e.call e.result = some (id, other) → covers change other = true := by
  unfold disturbs
  cases hw : written e.call e.result with
  | none => simp
  | some w =>
    obtain ⟨id', other⟩ := w
    by_cases hid : id' = id
    · simp [hid]
    · simp [hid]

/-- Rows are read from the table. -/
theorem mem_of_rowsRead {β : Type} {c : Call β} {answer : Answer} {store : Store} {row : Interface}
    (h : row ∈ rowsRead c (Call.exec β c answer store).2) :
    row ∈ store.interfaces ∧ (Call.exec β c answer store).1 = store := by
  cases c with
  | interfacesOf | interfacesAt => exact ⟨List.mem_of_mem_filter (Store.mem_of_select h), rfl⟩
  | interfaceById | interfaceByName => exact ⟨(Store.mem_of_first (Option.mem_toList.mp h)).1, rfl⟩
  | _ => cases h

/-! ## What each call has read -/

/-- The call has read the copy that it writes back, and since then set no column of the row
that this write does not set. -/
def Copied {β : Type} (done : List (Entry Call Answer)) (c : Call β) : Prop :=
  match c with
  | .updateInterface snapshot change => ∃ before e after, done = before ++ e :: after ∧ reads snapshot e = true ∧
    ∀ w ∈ after, disturbs snapshot.id change w = false
  | _ => True

/-- The step sets no column but the link. -/
def OnlyLinks {β : Type} (c : Call β) (result : β) : Prop :=
  ∀ id change, written c result = some (id, change) → ∃ peer, change = .link peer

/-- Each of the rows has been read, and since then nothing but links was set. -/
def LinksSince (rows : List Interface) (done : List (Entry Call Answer)) : Prop :=
  ∀ row ∈ rows, ∃ before e after, done = before ++ e :: after ∧ reads row e = true ∧
    ∀ w ∈ after, OnlyLinks w.call w.result

section
variable {rows : List Interface} {done : List (Entry Call Answer)} {i : Nat}

theorem LinksSince.copied (h : LinksSince rows done) {row : Interface} (hrow : row ∈ rows) (peer : Option Int) :
    Copied done (.updateInterface row (.link peer)) := by
  obtain ⟨before, e, after, heq, hread, hafter⟩ := h row hrow
  refine ⟨before, e, after, heq, hread, fun w hw => disturbs_eq_false.mpr fun other hother => ?_⟩
  obtain ⟨other, rfl⟩ := hafter w hw _ _ hother
  exact covers_link peer other

theorem LinksSince.concat (h : LinksSince rows done) {e : Entry Call Answer} (he : OnlyLinks e.call e.result) :
    LinksSince rows (done ++ [e]) := by
  intro row hrow
  obtain ⟨before, r, after, rfl, hread, hafter⟩ := h row hrow
  refine ⟨before, r, after ++ [e], by simp, hread, fun w hw => ?_⟩
  rcases List.mem_append.mp hw with hw | hw
  · exact hafter w hw
  · exact List.mem_singleton.mp hw ▸ he

theorem linksSince_read {e : Entry Call Answer} (h : ∀ row ∈ rows, row ∈ rowsRead e.call e.result) :
    LinksSince rows (done ++ [e]) :=
  fun row hrow => ⟨done, e, [], rfl, decide_eq_true (h row hrow), fun _ hw => absurd hw List.not_mem_nil⟩

theorem onlyLinks_link (snapshot : Interface) (peer : Option Int) (result : Bool) :
    OnlyLinks (.updateInterface snapshot (.link peer)) result := by
  intro id change h
  cases result with
  | false => cases h
  | true => exact ⟨peer, (Prod.mk.inj (Option.some.inj h)).2.symm⟩

theorem onlyLinks_of_none {β : Type} {c : Call β} {result : β} (h : written c result = none) : OnlyLinks c result := by
  intro id change hw
  rw [h] at hw
  cases hw

end

/-! ## What each call has read, call by call -/

/-- Nothing is relied on but the keys and references. -/
def anySteps : Prog.Rely ingestStep where
  wf ingested := ingested.store.Constrained
  later _ _ := True
  may _ _ := True
  refl _ := trivial
  trans _ _ := trivial
  may_later _ _ := trivial
  step_wf c e _ h _ := Call.exec_constrained c e h
  step_later _ _ _ _ _ := trivial

theorem anySteps_safe {α : Type} (p : Prog Call α) (ingested : Ingested) :
    anySteps.Safe (fun _ _ => True) ingested p := by
  induction p generalizing ingested with
  | done a => trivial
  | call c next ih => exact ⟨trivial, fun _ _ _ _ => ih _ _⟩

/-- Call `i` writes back only what it has read. -/
abbrev CallAlong (i : Nat) {α : Type} : (List (Entry Call Answer) → α → Prop) → List (Entry Call Answer) → Prog Call α → Prop :=
  Journal.Along ingestStep anySteps.wf i Copied

section
variable {i : Nat} {done : List (Entry Call Answer)} {rows : List Interface}

/-- A link is set in a copy that was read. -/
theorem setLink_along (h : LinksSince rows done) {row : Interface} (hrow : row ∈ rows) (peer : Option Int) :
    CallAlong i (fun done _ => LinksSince rows done) done (.lift' (.updateInterface row (.link peer))) :=
  .lift' (h.copied hrow peer) fun _ _ _ => h.concat (onlyLinks_link _ _ _)

theorem deleteInterface_along (done : List (Entry Call Answer)) (id : Int) :
    CallAlong i (fun _ _ => True) done (deleteInterface id) := by
  refine .bind (.lift trivial fun e s _ => ?_)
  generalize (ingestStep _ (.interfacesAt id) e s).2 = peers
  have hread : LinksSince peers (done ++ [⟨i, .interfacesAt id, e, peers⟩]) := linksSince_read fun _ h => h
  refine .bind ((Journal.Along.each (fun _ done => LinksSince peers done) (fun before peer after heq done h => ?_)
    hread).imp fun _ _ _ => .lift trivial fun _ _ _ => trivial)
  exact setLink_along h (heq ▸ List.mem_append_right _ List.mem_cons_self) none

theorem deleteStale_along (done : List (Entry Call Answer)) (names : List String) (row : Interface) :
    CallAlong i (fun _ _ => True) done (deleteStale names row) := by
  unfold deleteStale
  split
  · trivial
  · exact .bind ((deleteInterface_along done row.id).imp fun _ _ _ => trivial)

/-- The device's rows have been read, and since then the interfaces so far were set in the rows
of their names. -/
def SetSince (current : List Interface) (interfaces : List DiscoveredInterface) (done : List (Entry Call Answer)) : Prop :=
  ∃ before e after, done = before ++ e :: after ∧ (∀ row ∈ current, reads row e = true) ∧
    ∀ w ∈ after, ∀ id change, written w.call w.result = some (id, change) → ∃ interface ∈ interfaces, ∃ row ∈ current,
      row.name = interface.name ∧ row.id = id ∧ change = interface.change

theorem SetSince.concat {current : List Interface} {interfaces : List DiscoveredInterface}
    {interface : DiscoveredInterface} (h : SetSince current interfaces done) {e : Entry Call Answer}
    (he : ∀ id change, written e.call e.result = some (id, change) → ∃ row ∈ current,
      row.name = interface.name ∧ row.id = id ∧ change = interface.change) :
    SetSince current (interfaces ++ [interface]) (done ++ [e]) := by
  obtain ⟨before, r, after, rfl, hread, hafter⟩ := h
  refine ⟨before, r, after ++ [e], by simp, hread, fun w hw id change hset => ?_⟩
  rcases List.mem_append.mp hw with hw | hw
  · obtain ⟨earlier, hearlier, hrest⟩ := hafter w hw id change hset
    exact ⟨earlier, List.mem_append_left _ hearlier, hrest⟩
  · rw [List.mem_singleton.mp hw] at hset
    exact ⟨interface, List.mem_append_right _ (List.mem_singleton_self _), he id change hset⟩

theorem ingestInterface_along {current : List Interface} {before : List DiscoveredInterface}
    {interface : DiscoveredInterface} (hids : (current.map Interface.id).Nodup)
    (hcovers : ∀ earlier ∈ before, earlier.name = interface.name → covers interface.change earlier.change = true)
    (deviceId : Int) (h : SetSince current before done) :
    CallAlong i (fun done _ => SetSince current (before ++ [interface]) done) done
      (ingestInterface deviceId current interface) := by
  unfold ingestInterface
  cases hfound : current.find? fun row => row.name = interface.name with
  | none => exact .lift' trivial fun _ _ _ => h.concat fun _ _ hset => by cases hset
  | some row =>
    have hname : row.name = interface.name := by simpa using List.find?_some hfound
    have hrow := List.mem_of_find?_eq_some hfound
    refine .lift' ?_ fun _ _ _ => h.concat fun id change hset => ⟨row, hrow, hname, ?_⟩
    · obtain ⟨b, e, after, heq, hread, hafter⟩ := h
      refine ⟨b, e, after, heq, hread row hrow, fun w hw => disturbs_eq_false.mpr fun other hother => ?_⟩
      -- a row that was set before is that of an earlier interface of the name
      obtain ⟨earlier, hearlier, row', hrow', hname', hid, rfl⟩ := hafter w hw _ _ hother
      obtain rfl := List.inj_on_of_nodup_map hids hrow' hrow hid
      exact hcovers earlier hearlier (hname'.symm.trans hname)
    · dsimp only [written] at hset
      split at hset
      · obtain ⟨hid, hchange⟩ := Prod.mk.inj (Option.some.inj hset)
        exact ⟨hid, hchange.symm⟩
      · cases hset

theorem ingestDeviceRow_along (done : List (Entry Call Answer)) (discovered : DiscoveredDevice) :
    CallAlong i (fun _ _ => True) done (ingestDeviceRow discovered) := by
  have hevent : ∀ (p : Prop) [Decidable p] (event : DeviceEvent) (done : List (Entry Call Answer)),
      CallAlong i (fun _ _ => True) done (if p then .done () else .lift (.publish event)) := by
    intro p _ event done
    split
    · trivial
    · exact .lift trivial fun _ _ _ => trivial
  refine .bind (.lift trivial fun e s _ => ?_)
  split
  · refine .bind ((hevent _ _ _).imp fun done _ _ => .bind ((hevent _ _ done).imp fun done _ _ => ?_))
    exact .bind (.lift trivial fun _ _ _ => trivial)
  · exact .bind (.lift trivial fun _ _ _ => .lift trivial fun _ _ _ => trivial)

/-- The rows that a query returns are different rows. -/
theorem nodup_ids_interfacesOf {store : Store} (h : store.Constrained) (deviceId : Int) (answer : Answer) :
    ((Call.exec _ (.interfacesOf deviceId) answer store).2.map Interface.id).Nodup := by
  dsimp only [Call.exec, Store.select]
  split
  · refine ((List.perm_insertionSort _ _).map Interface.id).nodup_iff.mpr ?_
    exact h.interfaceIds.sublist (List.filter_sublist.map _)
  · exact List.nodup_nil

theorem ingestDevice_along {discovered : DiscoveredDevice} (h : (Ingest.device discovered).Consistent) :
    CallAlong i (fun _ _ => True) done (ingestDevice discovered) := by
  refine .bind ((ingestDeviceRow_along done discovered).imp fun done device _ => ?_)
  cases device with
  | none => trivial
  | some device =>
    refine .bind (.lift trivial fun e s hs => ?_)
    have hids := nodup_ids_interfacesOf hs device.id e
    change ((ingestStep _ (.interfacesOf device.id) e s).2.map Interface.id).Nodup at hids
    generalize (ingestStep _ (.interfacesOf device.id) e s).2 = current at hids
    have hread : SetSince current [] (done ++ [⟨i, .interfacesOf device.id, e, current⟩]) :=
      ⟨done, _, [], rfl, fun _ hrow => decide_eq_true hrow, fun _ hw => absurd hw List.not_mem_nil⟩
    refine .bind ((Journal.Along.each (SetSince current) (fun before x after heq done hset => ?_) hread).imp
      fun done _ _ => ?_)
    · refine ingestInterface_along hids (fun earlier hearlier => ?_) device.id hset
      have hpairs : discovered.interfaces.Pairwise fun first second =>
        first.name = second.name → covers second.change first.change = true := h
      rw [heq] at hpairs
      exact (List.pairwise_append.mp hpairs).2.2 earlier hearlier x List.mem_cons_self
    · refine .bind ((Journal.Along.each (fun _ _ => True) (fun _ row _ _ done _ => ?_) trivial).imp
        fun _ _ _ => .lift trivial fun _ _ _ => trivial)
      exact deleteStale_along done _ row

theorem clearConnection_along (h : LinksSince rows done) {row : Interface} (hrow : row ∈ rows) :
    CallAlong i (fun done _ => LinksSince rows done) done (clearConnection row) := by
  unfold clearConnection
  split
  · exact h
  · exact setLink_along h hrow none

theorem createLink_along (h : LinksSince rows done) {row : Interface} (hrow : row ∈ rows) (peerDevice : Device)
    (port : String) : CallAlong i (fun done _ => LinksSince rows done) done (createLink row peerDevice port) := by
  refine .bind (.lift trivial fun e s _ => ?_)
  generalize (ingestStep _ (.interfaceByName peerDevice.id port) e s).2 = found
  have hlooked := h.concat (e := ⟨i, .interfaceByName peerDevice.id port, e, found⟩) (onlyLinks_of_none rfl)
  cases found with
  | some peer => exact setLink_along hlooked hrow _
  | none => exact hlooked

/-- The far end is read on the way. -/
theorem peerInterface_along (h : LinksSince rows done) (row : Interface) :
    CallAlong i (fun done old => LinksSince (old.toList ++ rows) done) done (peerInterface row) := by
  unfold peerInterface
  split
  · exact h
  · next id _ =>
    refine .lift trivial fun e s _ => ?_
    generalize (ingestStep _ (.interfaceById id) e s).2 = old
    have hread : LinksSince old.toList (done ++ [⟨i, .interfaceById id, e, old⟩]) := linksSince_read fun _ h => h
    have hkept := h.concat (e := ⟨i, .interfaceById id, e, old⟩) (onlyLinks_of_none rfl)
    intro row hrow
    rcases List.mem_append.mp hrow with hrow | hrow
    · exact hread row hrow
    · exact hkept row hrow

theorem ingestLink_along (links : LinkInfo) (h : LinksSince rows done) {row : Interface} (hrow : row ∈ rows) :
    CallAlong i (fun done _ => LinksSince rows done) done (ingestLink links row) := by
  have hclear : ∀ done, LinksSince rows done → CallAlong i (fun done _ => LinksSince rows done) done
      (if links.topologyStable then .done () else clearConnection row) := by
    intro done h
    split
    · exact h
    · exact clearConnection_along h hrow
  unfold ingestLink
  split
  · exact hclear done h
  · next peer _ =>
    refine .bind (.lift trivial fun e s _ => ?_)
    generalize (ingestStep _ (.findDevice peer.name peer.dnsDomain) e s).2 = found
    have hlooked := h.concat (e := ⟨i, .findDevice peer.name peer.dnsDomain, e, found⟩) (onlyLinks_of_none rfl)
    cases found with
    | none => exact hclear _ hlooked
    | some peerDevice =>
      refine .bind ((peerInterface_along hlooked row).imp fun done old hold => ?_)
      cases old with
      | none => exact createLink_along hold hrow peerDevice peer.interface
      | some old =>
        have hrest : ∀ done, LinksSince (old :: rows) done → LinksSince rows done :=
          fun done h row hrow => h row (List.mem_cons_of_mem _ hrow)
        dsimp only
        split
        · refine .bind ((createLink_along hold (List.mem_cons_of_mem _ hrow) peerDevice peer.interface).imp
            fun done _ hdone => ?_)
          split
          · exact hrest done hdone
          · exact (setLink_along hdone List.mem_cons_self none).imp fun done _ => hrest done
        · exact hrest done hold

theorem ingestLinks_along (links : LinkInfo) : CallAlong i (fun _ _ => True) done (ingestLinks links) := by
  unfold ingestLinks
  split
  · trivial
  · refine .bind (.lift trivial fun e s _ => ?_)
    split
    · trivial
    · next localDevice _ =>
      refine .bind (.lift trivial fun e s _ => ?_)
      generalize (ingestStep _ (.interfacesOf localDevice.id) e s).2 = rows
      refine .bind ((Journal.Along.each (fun _ done => LinksSince rows done) (fun before row after heq done h => ?_)
        (linksSince_read (e := ⟨i, .interfacesOf localDevice.id, e, rows⟩) fun _ h => h)).imp
          fun _ _ _ => .lift trivial fun _ _ _ => trivial)
      exact ingestLink_along links h (heq ▸ List.mem_append_right _ List.mem_cons_self)

/-- **A call writes back only what it has read.** -/
theorem Ingest.along (call : Ingest) (h : call.Consistent) : CallAlong i (fun _ _ => True) done call.prog := by
  cases call with
  | device discovered => exact ingestDevice_along h
  | links payload => exact ingestLinks_along payload

end

/-! ## Any interleaving -/

/-- What a copy still tells: as long as no column was set that the change does not set, the row
on record with the change made is the copy with the change made. -/
def Seen (store : Store) (log : List (Entry Call Answer)) : Prop :=
  ∀ before e after snapshot change, log = before ++ e :: after → reads snapshot e = true →
    (∀ w ∈ after, disturbs snapshot.id change w = false) →
    snapshot.id < store.interfaceSeq ∧
      ∀ row ∈ store.interfaces, row.id = snapshot.id → change.apply row = change.apply snapshot

/-- Another copy of a row was written, in which only columns were set that the change sets. -/
theorem apply_written {ingested : Ingested} {copy old : Interface} {other change : InterfaceChange} {answer : Answer}
    (hwf : ingested.store.Constrained) (hcurrent : WritesCurrent (.updateInterface copy other) answer ingested)
    (hok : (answer.ok && (!ingested.store.hasInterface copy.id || ingested.store.interfaceRefs (other.apply copy))) = true)
    (hold : old ∈ ingested.store.interfaces) (hid : old.id = copy.id) (hcovers : covers change other = true) :
    change.apply (other.apply copy) = change.apply old := by
  obtain ⟨hanswer, hrefs⟩ := Bool.and_eq_true_iff.mp hok
  have hhas : ingested.store.hasInterface copy.id = true := Store.hasInterface_iff.mpr (List.mem_map.mpr ⟨old, hold, hid⟩)
  have hrefs' : ingested.store.interfaceRefs (other.apply copy) = true := by simpa [hhas] using hrefs
  have hcopy : other.apply copy = other.apply old := hcurrent hanswer old hold hid
    (interfaceRefs_apply (hwf.refs old hold) hrefs') (.inl hrefs')
  rw [hcopy, apply_apply hcovers old]

theorem Seen.step {β : Type} (i : Nat) (c : Call β) (answer : Answer) {ingested : Ingested}
    {log : List (Entry Call Answer)} (hwf : ingested.store.Constrained) (h : Seen ingested.store log)
    (hcurrent : WritesCurrent c answer ingested) :
    Seen (Call.exec β c answer ingested.store).1 (log ++ [⟨i, c, answer, (Call.exec β c answer ingested.store).2⟩]) := by
  intro before e after snapshot change heq hread hclean
  rcases Log.concat_eq_append_cons heq with ⟨-, rfl⟩ | ⟨after, rfl, rfl⟩
  · -- the copy is what was read just now
    obtain ⟨hmem, hstore⟩ := mem_of_rowsRead (of_decide_eq_true hread)
    rw [hstore]
    exact ⟨hwf.interfaceSeq _ hmem, fun row hrow hid => by rw [hwf.eq_of_id hrow hmem hid]⟩
  have hset := hclean _ (List.mem_append_right _ (List.mem_singleton_self _))
  obtain ⟨hlt, hrows⟩ := h before e after snapshot change rfl hread
    fun w hw => hclean w (List.mem_append_left _ hw)
  cases c with
  | findDevice | interfacesOf | interfaceById | interfaceByName | interfacesAt | weathermapInfosOf
  | clientLocationsOf => exact ⟨hlt, hrows⟩
  | createDevice | updateDevice | deleteDevice | deleteWeathermapInfo | deleteClientLocation | publish
  | invalidateWeathermap =>
    dsimp only [Call.exec]
    split <;> exact ⟨hlt, hrows⟩
  | createInterface new =>
    dsimp only [Call.exec]
    split
    · refine ⟨hlt.trans (Int.lt_succ _), fun row hrow hid => ?_⟩
      rcases List.mem_append.mp hrow with hrow | hrow
      · exact hrows row hrow hid
      · -- ids are given once
        rw [List.mem_singleton.mp hrow] at hid
        exact absurd hid hlt.ne'
    · exact ⟨hlt, hrows⟩
  | deleteInterface id =>
    dsimp only [Call.exec]
    split
    · exact ⟨hlt, fun row hrow => hrows row (List.mem_of_mem_filter hrow)⟩
    · exact ⟨hlt, hrows⟩
  | updateInterface copy other =>
    dsimp only [Call.exec]
    split
    · next hok =>
      refine ⟨hlt, fun row hrow hid => ?_⟩
      obtain ⟨old, hold, rfl⟩ := List.mem_map.mp hrow
      split at hid
      · next hsame =>
        have hcovers : covers change other = true := by
          refine disturbs_eq_false.mp hset other ?_
          have hdone : (Call.exec _ (.updateInterface copy other) answer ingested.store).2 = true := by
            dsimp only [Call.exec]
            rw [if_pos hok]
          dsimp only [written]
          rw [hdone, if_pos rfl, ← hid, InterfaceChange.apply_id]
        rw [if_pos hsame, apply_written hwf hcurrent hok hold hsame hcovers]
        exact hrows old hold (hsame.trans hid)
      · next hother =>
        rw [if_neg hother]
        exact hrows old hold hid
    · exact ⟨hlt, hrows⟩

/-- A copy that was read and not disturbed since is up to date. -/
theorem Seen.writesCurrent {β : Type} {i : Nat} {c : Call β} {answer : Answer} {ingested : Ingested}
    {log : List (Entry Call Answer)} (h : Seen ingested.store log) (hcopied : Copied (Journal.own i log) c)
    (hcond : Undisturbed i c answer ingested log) : WritesCurrent c answer ingested := by
  cases c with
  | updateInterface snapshot change =>
    intro hanswer row hrow hid _ _
    obtain ⟨before, e, after, heq, hread, hafter⟩ := hcopied
    have hown : Log.Followed (fun e => e.caller = i ∧ disturbs snapshot.id change e = true)
        (fun e => e.caller = i ∧ reads snapshot e = true) log := by
      have hmine : Log.Followed (fun e => disturbs snapshot.id change e = true) (fun e => reads snapshot e = true)
          (Journal.own i log) := by
        rw [heq]
        exact Log.followed_of_since hread fun w hw => by simp [hafter w hw]
      simpa only [decide_eq_true_eq] using hmine.of_filter
    have he : e ∈ log ∧ e.caller = i := by
      have hmem : e ∈ Journal.own i log := heq ▸ List.mem_append_right _ List.mem_cons_self
      simpa [Journal.own] using hmem
    -- since the last read of the copy nobody has set another column of the row
    obtain ⟨before, e, after, rfl, hread, hafter⟩ :=
      (hown.or (hcond hanswer)).exists_since ⟨e, he.1, he.2, hread⟩
    have hclean : ∀ w ∈ after, disturbs snapshot.id change w = false := fun w hw => by
      by_contra hset
      rw [Bool.not_eq_false] at hset
      exact hafter w hw (or_and_right.mp ⟨em _, hset⟩)
    exact ((h before e after snapshot change rfl hread.2 hclean).2 row hrow hid).symm
  | _ => trivial

/-- **No column is taken back** in an interleaving of ingests in which every copy is written
back undisturbed: throughout, every interface column holds what the last write about it
meant. -/
theorem asMeant_run {store : Store} (hstore : store.Constrained) (calls : Nat → Ingest)
    (hcalls : ∀ i, (calls i).Consistent) (turns : List (Turn Answer))
    (hok : Runs.Allowed (Journal.step ingestStep) (Journal.Meets Undisturbed) (.start (ingesting store calls)) turns) :
    ∀ pre, pre <+: turns → (pre.foldl (Pool.step ingestStep) (ingesting store calls)).store.AsMeant := by
  intro pre hpre
  have hsafe : Pool.AllSafe anySteps (ingesting store calls) := ⟨hstore, fun i => anySteps_safe (calls i).prog _⟩
  refine (Journal.run_inv (fun ingested log => ingested.AsMeant ∧ Seen ingested.store log)
    (fun i c e s log hwf _ hcopied hinv hcond => ?_) hsafe (fun i => (calls i).along (hcalls i)) ⟨rfl, ?_⟩ hok hpre).1
  · have hcurrent := hinv.2.writesCurrent hcopied hcond
    exact ⟨(asMeant_step c e hwf hinv.1).mpr hcurrent, hinv.2.step i c e hwf hcurrent⟩
  · intro before e after snapshot change heq
    simp at heq

/-! ## A link taken back, and one kept -/

theorem threeSwitches_constrained : (threeSwitches none none none).Constrained :=
  ⟨by decide, by decide, by decide, by decide, by decide, by decide, by decide, by decide, by decide⟩

/-- Switch `a` with its only port, as it is on record. -/
def rediscovered : DiscoveredDevice where
  name := "a"
  dnsDomain := "lan"
  snmpCommunity := none
  baseMac := none
  osInfo := none
  interfaces := [⟨1, "ethernetCsmacd", "a1", none, none, none, none, none⟩]
  deviceType := none
  softwareVersion := none

/-- `a` is rediscovered, and a payload links `a1` to `b1`. -/
def rediscovery : Nat → Ingest
  | 0 => .device rediscovered
  | _ => .links (oneLink "a.lan" "a1" "b" "b1")

/-- The calls take turns, and every statement succeeds. -/
def inTurn (calls : List Nat) : List (Turn Answer) := calls.map fun i => (i, ⟨true, fun _ => 0⟩)

/-- The rediscovery writes `a1` before the payload reads it. -/
theorem asMeant_run_in_turn :
    ((inTurn [0, 0, 0, 0, 0, 1, 1, 1, 1, 1, 1]).foldl (Pool.step ingestStep)
      (ingesting (threeSwitches none none none) rediscovery)).store.store.interfaces.map Interface.connectedInterface =
        [some 2, none, none, none] ∧
    ((inTurn [0, 0, 0, 0, 0, 1, 1, 1, 1, 1, 1]).foldl (Pool.step ingestStep)
      (ingesting (threeSwitches none none none) rediscovery)).store.AsMeant := by
  refine ⟨by decide +kernel, asMeant_run threeSwitches_constrained rediscovery (fun i => ?_)
    (inTurn [0, 0, 0, 0, 0, 1, 1, 1, 1, 1, 1]) ⟨trivial, trivial, trivial, fun _ => by decide +kernel, trivial, trivial, trivial, trivial, trivial,
      fun _ => by decide +kernel, trivial, trivial⟩ _ (List.prefix_refl _)⟩
  cases i with
  | zero => exact List.pairwise_singleton _ _
  | succ i => trivial

/-- **A link taken back**: the rediscovery has read `a1` when the payload links it, and
then writes it back without the link. -/
theorem rediscovery_takes_link_back : (threeSwitches none none none).Constrained ∧
    ¬∀ pre, pre <+: inTurn [0, 0, 0, 1, 1, 1, 1, 1, 0] →
      (pre.foldl (Pool.step ingestStep)
        (ingesting (threeSwitches none none none) rediscovery)).store.AsMeant := by
  refine ⟨threeSwitches_constrained, fun h => ?_⟩
  have hend := h _ (List.prefix_refl _)
  unfold Ingested.AsMeant at hend
  revert hend
  decide +kernel

end JaspyNexus.Utilities.Discovery
