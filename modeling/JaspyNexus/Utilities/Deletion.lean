import Mathlib
import JaspyNexus.Models.Constraints
import JaspyNexus.Utilities.DiscoveryLinks

/-! # Deletions

`Interface::delete` and `Device::delete` of `models/dbo.rs`, statement by statement.
Only links of one of the two kinds are cleared before a row goes, so a row that is
the virtual connection of another stays (`drop`), and with it its device. -/

namespace JaspyNexus.Utilities.Discovery
open JaspyNexus.Lib JaspyNexus.Models

/-- `Device::delete`: what belongs to the device goes first, whatever fails of it. -/
def deleteDevice (id : Int) : Prog Call Bool :=
  (Prog.lift (.weathermapInfosOf id)).bind fun infos =>
  (Prog.each (fun info => .lift' (.deleteWeathermapInfo info.id)) infos).bind fun _ =>
  (Prog.lift (.interfacesOf id)).bind fun rows =>
  (Prog.each (fun row => (deleteInterface row.id).bind fun _ => .done ()) rows).bind fun _ =>
  (Prog.lift (.clientLocationsOf id)).bind fun locations =>
  (Prog.each (fun location => .lift' (.deleteClientLocation location.id)) locations).bind fun _ =>
  .lift (.deleteDevice id)

/-! ## What is meant -/

/-- The row without its links to interfaces that are gone. -/
def unlink (gone : Int → Bool) (row : Interface) : Interface :=
  { row with
    connectedInterface := row.connectedInterface.filter fun id => !gone id
    virtualConnection := row.virtualConnection.filter fun id => !gone id }

/-- The rows left when some are gone, and the links to them. -/
def without (gone : Int → Bool) (rows : List Interface) : List Interface :=
  (rows.filter fun row => !gone row.id).map (unlink gone)

/-- The store without an interface. -/
def withoutInterface (store : Store) (id : Int) : Store :=
  { store with interfaces := without (fun i => i = id) store.interfaces }

/-- The interface is one of the device's. -/
def ownedBy (store : Store) (deviceId id : Int) : Bool :=
  store.interfaces.any fun row => row.id = id && row.deviceId = deviceId

/-- The store without a device and what belongs to it. -/
def withoutDevice (store : Store) (id : Int) : Store :=
  { store with
    devices := store.devices.filter fun row => row.id ≠ id
    interfaces := without (ownedBy store id) store.interfaces
    clientLocations := store.clientLocations.filter fun row => row.deviceId ≠ id
    weathermapInfos := store.weathermapInfos.filter fun row => row.deviceId ≠ id }

/-- **The law**: the deletion succeeds and leaves what is meant, every reference
leading to a row, or it fails and has changed nothing. -/
def AllOrNothing (store target : Store) (ok : Bool) (after : Store) : Prop :=
  (ok = true ∧ after = target ∧ after.Constrained) ∨ (ok = false ∧ after = store)

/-- No other row has the interface as its virtual connection. -/
def Released (store : Store) (id : Int) : Prop :=
  ∀ row ∈ store.interfaces, row.id ≠ id → row.virtualConnection ≠ some id

/-- No row that leads to the interface, by either link, has a discovered link. -/
def Unlinked (store : Store) (id : Int) : Prop :=
  ∀ row ∈ store.interfaces, row.connectedInterface = some id ∨ row.virtualConnection = some id →
    row.connectedInterface = none

/-- **When an interface is deleted as meant**: it can go, or nothing is touched on the
way to finding that it cannot. -/
def InterfaceGoes (store : Store) (id : Int) : Prop := Released store id ∨ Unlinked store id

/-- **When a device is**: all of its interfaces can go, or none of them can, none is
touched, and nothing else belongs to the device. -/
def DeviceGoes (store : Store) (id : Int) : Prop :=
  (∀ row ∈ store.interfaces, row.deviceId = id → Released store row.id) ∨
    ((∀ row ∈ store.weathermapInfos, row.deviceId ≠ id) ∧
      (∀ row ∈ store.clientLocations, row.deviceId ≠ id) ∧
      ∀ row ∈ store.interfaces, row.deviceId = id → ¬Released store row.id ∧ Unlinked store row.id)

/-! ## What one deletion leaves -/

/-- A row whose link was cleared because one of its links leads to the interface. -/
def cutLink (id : Int) (row : Interface) : Interface :=
  if row.connectedInterface = some id || row.virtualConnection = some id then
    { row with connectedInterface := none }
  else row

/-- Another row has the interface as its virtual connection. -/
def held (rows : List Interface) (id : Int) : Bool :=
  rows.any fun row => row.id ≠ id && row.virtualConnection = some id

/-- The rows that `Interface::delete` leaves. -/
def drop (rows : List Interface) (id : Int) : List Interface :=
  (if held rows id then rows else rows.filter fun row => row.id ≠ id).map (cutLink id)

section Rows
variable {rows : List Interface} {id : Int} {row : Interface}

theorem cutLink_id : (cutLink id row).id = row.id := by unfold cutLink; split <;> rfl

theorem cutLink_deviceId : (cutLink id row).deviceId = row.deviceId := by unfold cutLink; split <;> rfl

theorem cutLink_virtual : (cutLink id row).virtualConnection = row.virtualConnection := by
  unfold cutLink; split <;> rfl

theorem cutLink_connected : (cutLink id row).connectedInterface ≠ some id := by
  unfold cutLink
  split
  · exact nofun
  · next h => exact fun hc => h (by simp [hc])

theorem cutLink_eq_self_iff : cutLink id row = row ↔
    (row.connectedInterface = some id ∨ row.virtualConnection = some id →
      row.connectedInterface = none) := by
  unfold cutLink
  split
  · next h =>
    simp only [Bool.or_eq_true, decide_eq_true_eq] at h
    simp only [h, true_implies]
    exact ⟨fun h => (congrArg Interface.connectedInterface h).symm, fun h => by rw [← h]⟩
  · next h =>
    simp only [Bool.or_eq_true, decide_eq_true_eq] at h
    exact iff_of_true rfl fun h' => absurd h' h

theorem held_eq_false : held rows id = false ↔
    ∀ row ∈ rows, row.id ≠ id → row.virtualConnection ≠ some id := by
  simp [held]

theorem without_none (rows : List Interface) : without (fun _ => false) rows = rows := by
  have hrow : unlink (fun _ => false) = id := by
    funext row
    obtain ⟨_, _, _, connected, _, _, _, _, virtual⟩ := row
    cases connected <;> cases virtual <;> rfl
  rw [without, hrow, List.map_id]
  exact List.filter_eq_self.mpr fun _ _ => rfl

theorem filter_ne (link : Option Int) (id : Int) :
    link.filter (fun i => !decide (i = id)) = if link = some id then none else link := by
  cases link with
  | none => rfl
  | some i => by_cases h : i = id <;> simp [Option.filter, h]

theorem unlink_eq_cutLink (hv : row.virtualConnection ≠ some id) :
    unlink (fun i => i = id) row = cutLink id row := by
  unfold unlink cutLink
  rw [filter_ne, filter_ne, if_neg hv]
  by_cases hc : row.connectedInterface = some id
  · rw [if_pos hc, if_pos (by simp [hc])]
  · rw [if_neg hc, if_neg (by simp [hc, hv])]

/-- A row that can go leaves what is meant. -/
theorem drop_eq_without (h : held rows id = false) : drop rows id = without (fun i => i = id) rows := by
  have hfilter : rows.filter (fun row => row.id ≠ id) = rows.filter fun row => !decide (row.id = id) :=
    List.filter_congr fun row _ => by simp
  unfold drop without
  rw [h, if_neg (by simp), hfilter]
  refine List.map_congr_left fun row hrow => ?_
  obtain ⟨hrow, hid⟩ := List.mem_filter.mp hrow
  exact (unlink_eq_cutLink (held_eq_false.mp h row hrow (by simpa using hid))).symm

/-- Rows gone one after the other are gone together. -/
theorem without_without (p q : Int → Bool) :
    without q (without p rows) = without (fun i => p i || q i) rows := by
  unfold without
  rw [List.filter_map, List.map_map, List.filter_filter]
  have hfilter : (rows.filter fun row => ((fun row => !q row.id) ∘ unlink p) row && !p row.id) =
      rows.filter fun row => !(p row.id || q row.id) :=
    List.filter_congr fun row _ => by simp [unlink, Bool.and_comm]
  rw [hfilter]
  refine List.map_congr_left fun row _ => ?_
  unfold unlink
  dsimp only [Function.comp_apply]
  rw [Option.filter_filter, Option.filter_filter]
  simp

/-! ## What deletions leave -/

/-- How much there is to take away. -/
def weight (rows : List Interface) : Nat :=
  rows.length + rows.countP fun row => row.connectedInterface.isSome

theorem weight_map_cutLink (rows : List Interface) (id : Int) :
    rows.map (cutLink id) = rows ∨ weight (rows.map (cutLink id)) < weight rows := by
  induction rows with
  | nil => exact .inl rfl
  | cons row rows ih =>
    unfold weight at ih ⊢
    simp only [List.map_cons, List.length_cons, List.countP_cons, List.length_map] at ih ⊢
    by_cases hrow : cutLink id row = row
    · rw [hrow]
      exact ih.imp (congrArg _) fun h => by omega
    · refine .inr ?_
      have hle : (rows.map (cutLink id)).countP (fun row => row.connectedInterface.isSome) ≤
          rows.countP fun row => row.connectedInterface.isSome := by
        rcases ih with ih | ih
        · rw [ih]
        · omega
      -- the row had a link, and has none
      have hcut : (cutLink id row).connectedInterface = none ∧ row.connectedInterface.isSome := by
        rw [cutLink_eq_self_iff] at hrow
        push Not at hrow
        refine ⟨?_, Option.isSome_iff_ne_none.mpr hrow.2⟩
        rw [cutLink, if_pos (by simpa using hrow.1)]
      rw [hcut.1, hcut.2]
      simp only [Option.isSome_none, Bool.false_eq_true, if_false, if_true]
      omega

/-- A deletion takes something away or leaves all rows as they are. -/
theorem drop_eq_or_lt (rows : List Interface) (id : Int) :
    drop rows id = rows ∨ weight (drop rows id) < weight rows := by
  unfold drop
  split
  · exact weight_map_cutLink rows id
  · have hsub : (rows.filter fun row => row.id ≠ id).Sublist rows := List.filter_sublist
    have hle := hsub.length_le
    have hcount := hsub.countP_le (p := fun row => row.connectedInterface.isSome)
    have hkept : (rows.filter fun row => row.id ≠ id) = rows ∨
        weight (rows.filter fun row => row.id ≠ id) < weight rows := by
      by_cases heq : (rows.filter fun row => row.id ≠ id) = rows
      · exact .inl heq
      · have hlt := lt_of_le_of_ne hle fun h => heq (hsub.eq_of_length h)
        exact .inr (by unfold weight; omega)
    rcases weight_map_cutLink (rows.filter fun row => row.id ≠ id) id with hcut | hcut
    · rw [hcut]
      exact hkept
    · rcases hkept with hkept | hkept
      · rw [hkept] at hcut ⊢
        exact .inr hcut
      · exact .inr (hcut.trans hkept)

theorem weight_foldl_drop (rows : List Interface) (ids : List Int) :
    weight (ids.foldl drop rows) ≤ weight rows := by
  induction ids generalizing rows with
  | nil => exact le_rfl
  | cons id ids ih =>
    refine (ih _).trans ?_
    rcases drop_eq_or_lt rows id with h | h
    · rw [h]
    · exact h.le

/-- Deletions that leave all rows as they were did so one by one. -/
theorem drop_eq_of_foldl {rows : List Interface} {ids : List Int} (h : ids.foldl drop rows = rows) :
    ∀ id ∈ ids, drop rows id = rows := by
  induction ids with
  | nil => exact nofun
  | cons id ids ih =>
    have hfirst : drop rows id = rows := (drop_eq_or_lt rows id).resolve_right fun hlt => by
      have hle := weight_foldl_drop (drop rows id) ids
      rw [List.foldl_cons] at h
      rw [h] at hle
      omega
    rw [List.foldl_cons, hfirst] at h
    exact List.forall_mem_cons.mpr ⟨hfirst, ih h⟩

theorem foldl_drop_eq {rows : List Interface} {ids : List Int} (h : ∀ id ∈ ids, drop rows id = rows) :
    ids.foldl drop rows = rows := by
  induction ids with
  | nil => rfl
  | cons id ids ih =>
    rw [List.foldl_cons, h id List.mem_cons_self]
    exact ih fun i hi => h i (List.mem_cons_of_mem _ hi)

/-- A deletion leaves all rows, the one to be deleted among them, when it cannot go
and nothing is cleared. -/
theorem drop_eq_self_iff {id : Int} (hrow : id ∈ rows.map Interface.id) : drop rows id = rows ↔
    held rows id = true ∧ ∀ row ∈ rows, row.connectedInterface = some id ∨ row.virtualConnection = some id →
      row.connectedInterface = none := by
  unfold drop
  split
  · next hheld =>
    refine Iff.trans ?_ (and_iff_right hheld).symm
    rw [← List.map_id rows, List.map_map, List.map_inj_left]
    simp [cutLink_eq_self_iff]
  · next hheld =>
    refine iff_of_false (fun heq => ?_) fun h => hheld h.1
    have hgone : id ∉ (rows.filter fun row => row.id ≠ id).map Interface.id := by simp
    have hids : ((rows.filter fun row => row.id ≠ id).map (cutLink id)).map Interface.id =
        (rows.filter fun row => row.id ≠ id).map Interface.id := by
      rw [List.map_map]
      exact List.map_congr_left fun row _ => cutLink_id
    rw [← hids, heq] at hgone
    exact hgone hrow

/-- What is not deleted stays with its device. -/
theorem mem_foldl_drop {ids : List Int} {id deviceId : Int} (hid : id ∉ ids)
    (h : ∃ row ∈ rows, row.id = id ∧ row.deviceId = deviceId) :
    ∃ row ∈ ids.foldl drop rows, row.id = id ∧ row.deviceId = deviceId := by
  induction ids generalizing rows with
  | nil => exact h
  | cons i ids ih =>
    obtain ⟨row, hrow, rfl, rfl⟩ := h
    have hne : row.id ≠ i := fun h => hid (h ▸ List.mem_cons_self)
    refine ih (fun h => hid (List.mem_cons_of_mem _ h)) ⟨cutLink i row, List.mem_map_of_mem ?_, cutLink_id, cutLink_deviceId⟩
    split
    · exact hrow
    · exact List.mem_filter.mpr ⟨hrow, by simpa using hne⟩

/-- Interfaces that can each go leave what is meant. -/
theorem foldl_drop_eq_without {ids : List Int} (gone : Int → Bool)
    (h : ∀ id ∈ ids, held rows id = false) :
    ids.foldl drop (without gone rows) = without (fun i => gone i || decide (i ∈ ids)) rows := by
  induction ids generalizing gone with
  | nil => simp
  | cons id ids ih =>
    have hheld : held (without gone rows) id = false := by
      rw [held_eq_false]
      intro row hrow hid hv
      obtain ⟨old, hold, rfl⟩ := List.mem_map.mp hrow
      obtain ⟨hv, -⟩ := Option.filter_eq_some_iff.mp hv
      exact held_eq_false.mp (h id List.mem_cons_self) old (List.mem_of_mem_filter hold) hid hv
    rw [List.foldl_cons, drop_eq_without hheld, without_without,
      ih _ fun i hi => h i (List.mem_cons_of_mem _ hi)]
    congr 1
    funext i
    simp [Bool.or_assoc]

end Rows

/-! ## The statements -/

section Statements
variable {store after : Store}

/-- The rows of a query, in any order. -/
theorem returns_rows {α γ : Type} {c : Call (List α)} {id : α → Int} {rows : List α}
    (hc : ∀ answer, Call.exec _ c answer store = (store, Store.select id answer rows))
    (hids : (rows.map id).Nodup) {f : List α → Prog Call γ} {a : γ} :
    ((Prog.lift c).bind f).Returns Call.exec Succeeds store a after ↔
      ∃ l, l.Perm rows ∧ (f l).Returns Call.exec Succeeds store a after := by
  constructor
  · rintro ⟨answer, hok, h⟩
    rw [hc] at h
    refine ⟨_, ?_, h⟩
    rw [Store.select, if_pos (show answer.ok = true from hok)]
    exact List.perm_insertionSort _ _
  · rintro ⟨l, hperm, h⟩
    obtain ⟨answer, hok, hselect⟩ := exists_order id hperm ((hperm.map id).nodup_iff.mpr hids)
    refine ⟨answer, hok, ?_⟩
    rw [hc, hselect]
    exact h

/-- The store with the link cleared of some rows. -/
def clearLinks (store : Store) (p : Int → Bool) : Store :=
  { store with
    interfaces := store.interfaces.map fun row => if p row.id then { row with connectedInterface := none } else row }

theorem map_id_clearLinks (p : Int → Bool) :
    (clearLinks store p).interfaces.map Interface.id = store.interfaces.map Interface.id := by
  rw [clearLinks, List.map_map]
  refine List.map_congr_left fun row _ => ?_
  dsimp only [Function.comp_apply]
  split <;> rfl

/-- The link of a row is cleared in a copy, which says the same of the row otherwise. -/
theorem returns_clearLink (h : store.Constrained) {peer copy : Interface} (hpeer : peer ∈ store.interfaces)
    (hcopy : (InterfaceChange.link none).apply copy = (InterfaceChange.link none).apply peer)
    (p : Int → Bool) :
    (Prog.lift' (.updateInterface copy (.link none))).Returns Call.exec Succeeds (clearLinks store p) () after ↔
      after = clearLinks store fun id => p id || decide (id = peer.id) := by
  have hrefs : (clearLinks store p).interfaceRefs ((InterfaceChange.link none).apply copy) = true := by
    have hpr := Store.interfaceRefs_iff.mp (h.refs peer hpeer)
    rw [hcopy]
    refine Store.interfaceRefs_iff.mpr ⟨nofun, fun id hid => ?_, hpr.2.2⟩
    rw [Store.hasInterface_iff, map_id_clearLinks]
    exact Store.hasInterface_iff.mp (hpr.2.1 id hid)
  have hwrite : (clearLinks store p).writeInterface ((InterfaceChange.link none).apply copy) =
      clearLinks store fun id => p id || decide (id = peer.id) := by
    rw [hcopy]
    unfold Store.writeInterface clearLinks
    dsimp only
    rw [List.map_map]
    congr 2
    refine List.map_congr_left fun row hrow => ?_
    dsimp only [Function.comp_apply]
    by_cases hid : row.id = peer.id
    · obtain rfl := h.eq_of_id hrow hpeer hid
      by_cases hp : p row.id <;> simp [hp, InterfaceChange.apply_link]
    · by_cases hp : p row.id <;> simp [hp, hid]
  rw [returns_updateInterface hrefs, hwrite]

/-- The links of rows that were read are cleared one after the other. -/
theorem returns_clearLinks (h : store.Constrained) {peers : List Interface}
    (hpeers : ∀ row ∈ peers, row ∈ store.interfaces) (p : Int → Bool) :
    (Prog.each (fun peer => .lift' (.updateInterface peer (.link none))) peers).Returns
        Call.exec Succeeds (clearLinks store p) () after ↔
      after = clearLinks store fun id => p id || decide (id ∈ peers.map Interface.id) := by
  induction peers generalizing p with
  | nil => simp [Prog.each, Prog.Returns]
  | cons peer peers ih =>
    rw [Prog.returns_each_cons]
    simp only [returns_clearLink h (hpeers peer List.mem_cons_self) rfl, exists_eq_left]
    rw [ih fun row hrow => hpeers row (List.mem_cons_of_mem _ hrow)]
    simp [Bool.or_assoc]

/-- Once the links are cleared, only a virtual connection keeps a row. -/
theorem exec_deleteInterface_cut (h : store.Constrained) {id : Int} {answer : Answer}
    (hok : answer.ok = true) :
    Call.exec _ (.deleteInterface id) answer
        { store with interfaces := store.interfaces.map (cutLink id) } =
      ({ store with interfaces := drop store.interfaces id }, !held store.interfaces id) := by
  generalize hcut : ({ store with interfaces := store.interfaces.map (cutLink id) } : Store) = cut
  have hrows : cut.interfaces = store.interfaces.map (cutLink id) := hcut ▸ rfl
  have href : cut.interfaceReferenced id = held store.interfaces id := by
    unfold Store.interfaceReferenced held
    rw [hrows, List.any_map]
    refine List.any_congr rfl fun row => ?_
    simp [cutLink_id, cutLink_virtual, cutLink_connected]
  have hhas : cut.hasInterface id = store.hasInterface id := by
    rw [Bool.eq_iff_iff, Store.hasInterface_iff, Store.hasInterface_iff, hrows, List.map_map]
    have hid : Interface.id ∘ cutLink id = Interface.id := funext fun row => cutLink_id
    rw [hid]
  dsimp only [Call.exec]
  rw [href, hhas, hok, Bool.true_and]
  cases hheld : held store.interfaces id with
  | true =>
    obtain ⟨row, hrow, hv⟩ := List.any_eq_true.mp hheld
    simp only [Bool.and_eq_true, decide_eq_true_eq] at hv
    rw [(Store.interfaceRefs_iff.mp (h.refs row hrow)).2.1 id hv.2, if_neg (by simp), ← hcut]
    unfold drop
    rw [hheld, if_pos rfl]
    rfl
  | false =>
    rw [if_pos (by simp), ← hcut]
    unfold Store.deleteInterface drop
    rw [hheld, if_neg (by simp)]
    dsimp only
    rw [List.filter_map]
    have hid : (fun row : Interface => decide (row.id ≠ id)) ∘ cutLink id =
        fun row => decide (row.id ≠ id) := funext fun row => by simp [cutLink_id]
    rw [hid]
    rfl

theorem returns_deleteInterface_mp (h : store.Constrained) {id : Int} {ok : Bool}
    (hret : (deleteInterface id).Returns Call.exec Succeeds store ok after) :
    ok = (!held store.interfaces id) ∧ after = { store with interfaces := drop store.interfaces id } := by
  have hids := h.interfaceIds.sublist ((List.filter_sublist (p := fun row : Interface =>
    row.connectedInterface = some id || row.virtualConnection = some id)).map _)
  obtain ⟨l, hl, hret⟩ := (returns_rows (fun _ => rfl) hids).mp hret
  obtain ⟨_, mid, hmid, answer, hok, hret⟩ := Prog.returns_bind.mp hret
  have hstart : clearLinks store (fun _ => false) = store := by simp [clearLinks]
  rw [← hstart, returns_clearLinks h fun row hrow => List.mem_of_mem_filter (hl.mem_iff.mp hrow)] at hmid
  -- the rows that lead to the interface are those that are cleared
  have hclear : clearLinks store (fun i => false || decide (i ∈ l.map Interface.id)) =
      { store with interfaces := store.interfaces.map (cutLink id) } := by
    unfold clearLinks
    congr 2
    refine List.map_congr_left fun row hrow => ?_
    have hmem : row.id ∈ l.map Interface.id ↔
        row.connectedInterface = some id ∨ row.virtualConnection = some id := by
      rw [(hl.map _).mem_iff, List.mem_map]
      constructor
      · rintro ⟨other, hother, hid⟩
        obtain ⟨hother, hlink⟩ := List.mem_filter.mp hother
        rw [h.eq_of_id hrow hother hid.symm]
        simpa using hlink
      · exact fun hlink => ⟨row, List.mem_filter.mpr ⟨hrow, by simpa using hlink⟩, rfl⟩
    unfold cutLink
    simp [hmem]
  rw [hmid, hclear, exec_deleteInterface_cut h hok] at hret
  exact hret

/-- `Interface::delete`, in whatever order the linked rows come. -/
theorem returns_deleteInterface (h : store.Constrained) (id : Int) {ok : Bool} :
    (deleteInterface id).Returns Call.exec Succeeds store ok after ↔
      ok = (!held store.interfaces id) ∧
        after = { store with interfaces := drop store.interfaces id } := by
  refine ⟨returns_deleteInterface_mp h, ?_⟩
  rintro ⟨rfl, rfl⟩
  obtain ⟨ok, after, hret⟩ := Prog.exists_returns Call.exec (⟨⟨true, fun _ => 0⟩, rfl⟩ : ∃ e, Succeeds e)
    (deleteInterface id) store
  obtain ⟨rfl, rfl⟩ := returns_deleteInterface_mp h hret
  exact hret

theorem Constrained.returns (h : store.Constrained) {α : Type} {p : Prog Call α} {a : α}
    (hret : p.Returns Call.exec Succeeds store a after) : after.Constrained :=
  hret.inv (fun c e _ _ h => Call.exec_constrained c e h) h

theorem returns_deleteInterfaces (h : store.Constrained) (rows : List Interface) :
    (Prog.each (fun row => (deleteInterface row.id).bind fun _ => .done ()) rows).Returns
        Call.exec Succeeds store () after ↔
      after = { store with interfaces := (rows.map Interface.id).foldl drop store.interfaces } := by
  induction rows generalizing store with
  | nil => simp [Prog.each, Prog.Returns]
  | cons row rows ih =>
    rw [Prog.returns_each_cons]
    constructor
    · rintro ⟨mid, hrow, hrows⟩
      obtain ⟨ok, _, hdel, -, rfl⟩ := Prog.returns_bind.mp hrow
      obtain ⟨-, rfl⟩ := (returns_deleteInterface h _).mp hdel
      exact (ih (Constrained.returns h hdel)).mp hrows
    · intro hafter
      have hdel := (returns_deleteInterface h row.id).mpr ⟨rfl, rfl⟩
      exact ⟨_, Prog.returns_bind.mpr ⟨_, _, hdel, rfl, rfl⟩, (ih (Constrained.returns h hdel)).mpr hafter⟩

/-- A loop of statements that each delete the row of one id leaves the rows of the others. -/
theorem returns_deleteEach {ρ : Type} (rowId : ρ → Int) {statement : Int → Call Bool}
    (keep : (Int → Bool) → Store → Store) (hall : ∀ store, keep (fun _ => true) store = store)
    (hboth : ∀ p q store, keep p (keep q store) = keep (fun id => p id && q id) store)
    (hdelete : ∀ id answer store, Succeeds answer →
      (Call.exec _ (statement id) answer store).1 = keep (fun other => other ≠ id) store)
    (store : Store) (rows : List ρ) :
    (Prog.each (fun row => .lift' (statement (rowId row))) rows).Returns
        Call.exec Succeeds store () after ↔ after = keep (fun id => id ∉ rows.map rowId) store := by
  induction rows generalizing store with
  | nil => simp [Prog.each, Prog.Returns, hall]
  | cons row rows ih =>
    have hkeep : keep (fun id => id ∉ rows.map rowId) (keep (fun other => other ≠ rowId row) store) =
        keep (fun id => id ∉ (row :: rows).map rowId) store := by
      rw [hboth]
      congr 1
      funext id
      simp [Bool.and_comm]
    rw [Prog.returns_each_cons]
    simp only [Prog.returns_lift', ih]
    constructor
    · rintro ⟨_, ⟨answer, hok, rfl⟩, rfl⟩
      rw [hdelete _ answer store hok, hkeep]
    · rintro rfl
      refine ⟨_, ⟨⟨true, fun _ => 0⟩, rfl, rfl⟩, ?_⟩
      rw [hdelete _ ⟨true, fun _ => 0⟩ store rfl, hkeep]

theorem returns_deleteInfos (store : Store) (infos : List WeathermapDeviceInfo) :
    (Prog.each (fun info => .lift' (.deleteWeathermapInfo info.id)) infos).Returns
        Call.exec Succeeds store () after ↔
      after = { store with
        weathermapInfos := store.weathermapInfos.filter fun row => row.id ∉ infos.map (·.id) } :=
  returns_deleteEach (·.id)
    (fun p store => { store with weathermapInfos := store.weathermapInfos.filter fun row => p row.id })
    (fun store => by simp) (fun p q store => by simp [List.filter_filter])
    (fun id answer store hok => by simp [Call.exec, show answer.ok = true from hok]) store infos

theorem returns_deleteLocations (locations : List ClientLocation) :
    (Prog.each (fun location => .lift' (.deleteClientLocation location.id)) locations).Returns
        Call.exec Succeeds store () after ↔
      after = { store with
        clientLocations := store.clientLocations.filter fun row => row.id ∉ locations.map (·.id) } :=
  returns_deleteEach (·.id)
    (fun p store => { store with clientLocations := store.clientLocations.filter fun row => p row.id })
    (fun store => by simp) (fun p q store => by simp [List.filter_filter])
    (fun id answer store hok => by simp [Call.exec, show answer.ok = true from hok]) store locations

/-- The rows that are left are those of other devices. -/
theorem filter_others {α : Type} {id deviceOf : α → Int} {rows l : List α} {d : Int}
    (hids : (rows.map id).Nodup) (hl : l.Perm (rows.filter fun row => deviceOf row = d)) :
    rows.filter (fun row => id row ∉ l.map id) = rows.filter fun row => deviceOf row ≠ d := by
  refine List.filter_congr fun row hrow => ?_
  have hmem : id row ∈ l.map id ↔ deviceOf row = d := by
    rw [(hl.map id).mem_iff, List.mem_map]
    constructor
    · rintro ⟨other, hother, hid⟩
      obtain ⟨hother, hdev⟩ := List.mem_filter.mp hother
      rw [List.inj_on_of_nodup_map hids hrow hother hid.symm]
      simpa using hdev
    · exact fun hdev => ⟨row, List.mem_filter.mpr ⟨hrow, by simpa using hdev⟩, rfl⟩
  simp [hmem]

/-- The store when only the row of the device is left, its interfaces deleted in the
order given. -/
def cleared (store : Store) (id : Int) (order : List Int) : Store :=
  { store with
    interfaces := order.foldl drop store.interfaces
    clientLocations := store.clientLocations.filter fun row => row.deviceId ≠ id
    weathermapInfos := store.weathermapInfos.filter fun row => row.deviceId ≠ id }

/-- `Device::delete`, in whatever order the rows come. -/
theorem returns_deleteDevice (h : store.Constrained) {id : Int} {ok : Bool} :
    (deleteDevice id).Returns Call.exec Succeeds store ok after ↔
      ∃ order, order.Perm ((store.interfaces.filter fun row => row.deviceId = id).map Interface.id) ∧
        (after, ok) = Call.exec _ (.deleteDevice id) ⟨true, fun _ => 0⟩ (cleared store id order) := by
  have hinfos := h.infoIds.sublist ((List.filter_sublist
    (p := fun row : WeathermapDeviceInfo => row.deviceId = id)).map _)
  have hlocs := h.locationIds.sublist ((List.filter_sublist
    (p := fun row : ClientLocation => row.deviceId = id)).map _)
  have hrows := h.interfaceIds.sublist ((List.filter_sublist
    (p := fun row : Interface => row.deviceId = id)).map _)
  have hlast : ∀ answer, Succeeds answer → ∀ s, Call.exec _ (.deleteDevice id) answer s =
      Call.exec _ (.deleteDevice id) ⟨true, fun _ => 0⟩ s := fun answer hok s => by
    dsimp only [Call.exec]
    rw [show answer.ok = true from hok]
  constructor
  · intro hret
    obtain ⟨infos, hi, hret⟩ := (returns_rows (fun _ => rfl) hinfos).mp hret
    obtain ⟨_, s₁, h₁, hret⟩ := Prog.returns_bind.mp hret
    have hs₁ := Constrained.returns h h₁
    rw [returns_deleteInfos, filter_others h.infoIds hi] at h₁
    subst h₁
    obtain ⟨rows, hr, hret⟩ := (returns_rows (fun _ => rfl) hrows).mp hret
    obtain ⟨_, s₂, h₂, hret⟩ := Prog.returns_bind.mp hret
    rw [returns_deleteInterfaces hs₁] at h₂
    subst h₂
    obtain ⟨locations, hl, hret⟩ := (returns_rows (fun _ => rfl) hlocs).mp hret
    obtain ⟨_, s₃, h₃, answer, hok, hret⟩ := Prog.returns_bind.mp hret
    rw [returns_deleteLocations, filter_others h.locationIds hl] at h₃
    subst h₃
    rw [hlast answer hok] at hret
    exact ⟨rows.map Interface.id, hr.map _, Prod.ext hret.2 hret.1⟩
  · rintro ⟨order, horder, hafter⟩
    obtain ⟨rows, hr, rfl⟩ := exists_perm_map horder
    have h₁ := (returns_deleteInfos store
      (store.weathermapInfos.filter fun row => row.deviceId = id)).mpr rfl
    have hs₁ := Constrained.returns h h₁
    rw [filter_others h.infoIds (List.Perm.refl _)] at h₁ hs₁
    refine (returns_rows (fun _ => rfl) hinfos).mpr ⟨_, List.Perm.refl _,
      Prog.returns_bind.mpr ⟨_, _, h₁, ?_⟩⟩
    refine (returns_rows (fun _ => rfl) hrows).mpr ⟨rows, hr,
      Prog.returns_bind.mpr ⟨_, _, (returns_deleteInterfaces hs₁ rows).mpr rfl, ?_⟩⟩
    refine (returns_rows (fun _ => rfl) hlocs).mpr ⟨_, List.Perm.refl _,
      Prog.returns_bind.mpr ⟨_, _, (returns_deleteLocations _).mpr rfl, ⟨true, fun _ => 0⟩, rfl, ?_⟩⟩
    rw [filter_others h.locationIds (List.Perm.refl _)]
    exact ⟨congrArg Prod.snd hafter, congrArg Prod.fst hafter⟩

end Statements

/-! ## When the law holds -/

section Law
variable {store : Store}

theorem held_iff {id : Int} : held store.interfaces id = false ↔ Released store id := held_eq_false

/-- What holds a row leads to it, so the row is there. -/
theorem mem_of_held (h : store.Constrained) {id : Int} (hheld : held store.interfaces id = true) :
    id ∈ store.interfaces.map Interface.id := by
  obtain ⟨row, hrow, hv⟩ := List.any_eq_true.mp hheld
  simp only [Bool.and_eq_true, decide_eq_true_eq] at hv
  exact Store.hasInterface_iff.mp ((Store.interfaceRefs_iff.mp (h.refs row hrow)).2.1 id hv.2)

theorem interfaces_eq_self_iff {rows : List Interface} :
    { store with interfaces := rows } = store ↔ rows = store.interfaces :=
  ⟨fun h => congrArg (fun s : Store => s.interfaces) h, fun h => by rw [h]⟩

/-- `Interface::delete`. -/
theorem deleteInterface_iff (h : store.Constrained) (id : Int) :
    (∀ ok after, (deleteInterface id).Returns Call.exec Succeeds store ok after →
      AllOrNothing store (withoutInterface store id) ok after) ↔ InterfaceGoes store id := by
  have hret := (returns_deleteInterface h id).mpr ⟨rfl, rfl⟩
  have hrun : (∀ ok after, (deleteInterface id).Returns Call.exec Succeeds store ok after →
      AllOrNothing store (withoutInterface store id) ok after) ↔
      AllOrNothing store (withoutInterface store id) (!held store.interfaces id)
        { store with interfaces := drop store.interfaces id } := by
    refine ⟨fun hall => hall _ _ hret, fun hlaw ok after h' => ?_⟩
    obtain ⟨rfl, rfl⟩ := (returns_deleteInterface h _).mp h'
    exact hlaw
  rw [hrun]
  unfold AllOrNothing InterfaceGoes
  rw [← held_iff]
  cases hheld : held store.interfaces id with
  | false =>
    refine iff_of_true (.inl ⟨rfl, ?_, Constrained.returns h hret⟩) (.inl rfl)
    rw [drop_eq_without hheld]
    rfl
  | true =>
    rw [interfaces_eq_self_iff, drop_eq_self_iff (mem_of_held h hheld), hheld]
    simp [Unlinked]

/-- The interfaces that go with a device. -/
theorem mem_owned (h : store.Constrained) {d : Int} {row : Interface} (hrow : row ∈ store.interfaces) :
    row.id ∈ (store.interfaces.filter fun row => row.deviceId = d).map Interface.id ↔ row.deviceId = d := by
  rw [List.mem_map]
  constructor
  · rintro ⟨other, hother, hid⟩
    obtain ⟨hother, hdev⟩ := List.mem_filter.mp hother
    rw [h.eq_of_id hrow hother hid.symm]
    simpa using hdev
  · exact fun hdev => ⟨row, List.mem_filter.mpr ⟨hrow, by simpa using hdev⟩, rfl⟩

/-- All interfaces of the device can go: it is deleted. -/
theorem deleteDevice_goes {d : Int}
    (hgo : ∀ row ∈ store.interfaces, row.deviceId = d → Released store row.id) {order : List Int}
    (horder : order.Perm ((store.interfaces.filter fun row => row.deviceId = d).map Interface.id)) :
    Call.exec _ (.deleteDevice d) ⟨true, fun _ => 0⟩ (cleared store d order) =
      (withoutDevice store d, true) := by
  have hheld : ∀ id ∈ order, held store.interfaces id = false := by
    intro id hid
    obtain ⟨row, hrow, rfl⟩ := List.mem_map.mp (horder.mem_iff.mp hid)
    obtain ⟨hrow, hdev⟩ := List.mem_filter.mp hrow
    exact held_iff.mpr (hgo row hrow (by simpa using hdev))
  have howned : (fun i => false || decide (i ∈ order)) = ownedBy store d := by
    funext i
    rw [Bool.eq_iff_iff]
    simp [ownedBy, horder.mem_iff, and_comm, and_assoc]
  have hrows : order.foldl drop store.interfaces = without (ownedBy store d) store.interfaces := by
    rw [← howned, ← foldl_drop_eq_without (fun _ => false) hheld, without_none]
  have hfree : (cleared store d order).deviceReferenced d = false := by
    rw [Store.deviceReferenced_eq_false]
    refine ⟨fun row hrow => ?_, fun row hrow => ?_, fun row hrow => ?_⟩
    · have hrow : row ∈ without (ownedBy store d) store.interfaces := by
        rw [← hrows]
        exact hrow
      obtain ⟨old, hold, rfl⟩ := List.mem_map.mp hrow
      obtain ⟨hold, hkept⟩ := List.mem_filter.mp hold
      rintro (hdev : old.deviceId = d)
      rw [Bool.not_eq_true', ← Bool.not_eq_true] at hkept
      exact hkept (List.any_eq_true.mpr ⟨old, hold, by simpa using hdev⟩)
    · simpa using (List.mem_filter.mp hrow).2
    · simpa using (List.mem_filter.mp hrow).2
  dsimp only [Call.exec]
  rw [hfree, if_pos (by simp)]
  refine Prod.ext ?_ rfl
  unfold cleared withoutDevice
  rw [hrows]

/-- An interface of the device stays, and the device with it. -/
theorem deleteDevice_refused {d : Int} {order : List Int} {row : Interface}
    (hrow : ∃ row' ∈ order.foldl drop store.interfaces, row'.id = row.id ∧ row'.deviceId = d)
    (hdev : store.hasDevice d = true) :
    Call.exec _ (.deleteDevice d) ⟨true, fun _ => 0⟩ (cleared store d order) =
      (cleared store d order, false) := by
  obtain ⟨row', hrow', -, hd⟩ := hrow
  have href : (cleared store d order).deviceReferenced d = true := by
    rw [← Bool.not_eq_false, Store.deviceReferenced_eq_false]
    exact fun hnone => hnone.1 row' hrow' hd
  dsimp only [Call.exec]
  rw [href, show (cleared store d order).hasDevice d = true from hdev, if_neg (by simp)]

theorem cleared_eq_self_iff (h : store.Constrained) {d : Int} {order : List Int}
    (horder : order.Perm ((store.interfaces.filter fun row => row.deviceId = d).map Interface.id)) :
    cleared store d order = store ↔
      (∀ row ∈ store.weathermapInfos, row.deviceId ≠ d) ∧
      (∀ row ∈ store.clientLocations, row.deviceId ≠ d) ∧
      ∀ row ∈ store.interfaces, row.deviceId = d → ¬Released store row.id ∧ Unlinked store row.id := by
  have hrows : order.foldl drop store.interfaces = store.interfaces ↔
      ∀ row ∈ store.interfaces, row.deviceId = d → ¬Released store row.id ∧ Unlinked store row.id := by
    have hone : ∀ row ∈ store.interfaces, drop store.interfaces row.id = store.interfaces ↔
        ¬Released store row.id ∧ Unlinked store row.id := fun row hrow => by
      rw [drop_eq_self_iff (List.mem_map_of_mem hrow), ← held_iff, Bool.not_eq_false]
      rfl
    constructor
    · intro hall row hrow hdev
      exact (hone row hrow).mp (drop_eq_of_foldl hall row.id (horder.mem_iff.mpr ((mem_owned h hrow).mpr hdev)))
    · refine fun hall => foldl_drop_eq fun id hid => ?_
      obtain ⟨row, hrow, rfl⟩ := List.mem_map.mp (horder.mem_iff.mp hid)
      obtain ⟨hrow, hdev⟩ := List.mem_filter.mp hrow
      exact (hone row hrow).mpr (hall row hrow (by simpa using hdev))
  rw [← hrows]
  constructor
  · intro heq
    refine ⟨fun row hrow hd => ?_, fun row hrow hd => ?_, congrArg (fun s : Store => s.interfaces) heq⟩
    · have hkept : store.weathermapInfos.filter (fun row => row.deviceId ≠ d) = store.weathermapInfos :=
        congrArg Store.weathermapInfos heq
      simpa [hd] using List.filter_eq_self.mp hkept row hrow
    · have hkept : store.clientLocations.filter (fun row => row.deviceId ≠ d) = store.clientLocations :=
        congrArg Store.clientLocations heq
      simpa [hd] using List.filter_eq_self.mp hkept row hrow
  · rintro ⟨hinfos, hlocs, hrows⟩
    unfold cleared
    rw [hrows, List.filter_eq_self.mpr fun row hrow => by simpa using hlocs row hrow,
      List.filter_eq_self.mpr fun row hrow => by simpa using hinfos row hrow]

/-- `Device::delete`. -/
theorem deleteDevice_iff (h : store.Constrained) (d : Int) :
    (∀ ok after, (deleteDevice d).Returns Call.exec Succeeds store ok after →
      AllOrNothing store (withoutDevice store d) ok after) ↔ DeviceGoes store d := by
  constructor
  · intro hlaw
    by_cases hgo : ∀ row ∈ store.interfaces, row.deviceId = d → Released store row.id
    · exact .inl hgo
    · push Not at hgo
      obtain ⟨row, hrow, hdev, hheld⟩ := hgo
      -- the interface that cannot go is tried first, and stays
      obtain ⟨rest, hrest⟩ : ∃ rest, (row.id :: rest).Perm
          ((store.interfaces.filter fun row => row.deviceId = d).map Interface.id) :=
        ⟨_, (List.perm_cons_erase ((mem_owned h hrow).mpr hdev)).symm⟩
      have hnd := hrest.nodup_iff.mpr (h.interfaceIds.sublist (List.filter_sublist.map _))
      have hstays : ∃ row' ∈ (row.id :: rest).foldl drop store.interfaces,
          row'.id = row.id ∧ row'.deviceId = d := by
        rw [List.foldl_cons]
        refine mem_foldl_drop (List.nodup_cons.mp hnd).1 ⟨cutLink row.id row, ?_, cutLink_id, ?_⟩
        · rw [← held_iff, Bool.not_eq_false] at hheld
          rw [drop, hheld, if_pos rfl]
          exact List.mem_map_of_mem hrow
        · rw [cutLink_deviceId, hdev]
      have href := deleteDevice_refused hstays (hdev ▸ (Store.interfaceRefs_iff.mp (h.refs row hrow)).2.2)
      have hret := (returns_deleteDevice h).mpr ⟨_, hrest, href.symm⟩
      rcases hlaw _ _ hret with ⟨hok, -⟩ | ⟨-, hsame⟩
      · cases hok
      · exact .inr ((cleared_eq_self_iff h hrest).mp hsame)
  · intro hgoes ok after hret
    obtain ⟨order, horder, hafter⟩ := (returns_deleteDevice h).mp hret
    by_cases hgo : ∀ row ∈ store.interfaces, row.deviceId = d → Released store row.id
    · rw [deleteDevice_goes hgo horder] at hafter
      obtain ⟨rfl, rfl⟩ := Prod.mk.inj hafter
      exact .inl ⟨rfl, rfl, Constrained.returns h hret⟩
    · have hsame := (cleared_eq_self_iff h horder).mpr (hgoes.resolve_left hgo)
      push Not at hgo
      obtain ⟨row, hrow, hdev, -⟩ := hgo
      have hrows : order.foldl drop store.interfaces = store.interfaces :=
        congrArg (fun s : Store => s.interfaces) hsame
      have hstays : ∃ row' ∈ order.foldl drop store.interfaces, row'.id = row.id ∧ row'.deviceId = d :=
        ⟨row, by rw [hrows]; exact hrow, rfl, hdev⟩
      rw [deleteDevice_refused hstays (hdev ▸ (Store.interfaceRefs_iff.mp (h.refs row hrow)).2.2),
        hsame] at hafter
      obtain ⟨rfl, rfl⟩ := Prod.mk.inj hafter
      exact .inr ⟨rfl, rfl⟩

/-- **Deletions are all or nothing** exactly when no virtual connection of another row
keeps an interface that is to go, or nothing is touched before it is found to be kept. -/
theorem deletions_iff (h : store.Constrained) :
    (∀ id, (∀ ok after, (deleteInterface id).Returns Call.exec Succeeds store ok after →
      AllOrNothing store (withoutInterface store id) ok after) ↔ InterfaceGoes store id) ∧
    ∀ id, (∀ ok after, (deleteDevice id).Returns Call.exec Succeeds store ok after →
      AllOrNothing store (withoutDevice store id) ok after) ↔ DeviceGoes store id :=
  ⟨deleteInterface_iff h, deleteDevice_iff h⟩

end Law

/-! ## An interface kept, and deletions that go through -/

/-- Switches `a`, `b` and `c`; `b1` is linked to `c1` and has `a1` as its virtual
connection, which may be missing. -/
def virtualLink (v : Option Int) : Store :=
  { threeSwitches none none none with
    interfaces := [port 1 1 "a1" none, { port 2 2 "b1" (some 3) with virtualConnection := v },
      port 3 3 "c1" none] }

theorem virtualLink_constrained (v : Option Int) (hv : v = none ∨ v = some 1) :
    (virtualLink v).Constrained := by
  rcases hv with rfl | rfl <;>
    exact ⟨by decide, by decide, by decide, by decide, by decide, by decide, by decide, by decide, by decide⟩

/-- Without the virtual connection, `c1` is deleted and `b1` loses its link. -/
theorem deletions_iff_unlinked : InterfaceGoes (virtualLink none) 3 ∧
    ∀ ok after, (deleteInterface 3).Returns Call.exec Succeeds (virtualLink none) ok after →
      AllOrNothing (virtualLink none) (withoutInterface (virtualLink none) 3) ok after :=
  have hgoes : InterfaceGoes (virtualLink none) 3 := .inl (by unfold Released; decide)
  ⟨hgoes, ((deletions_iff (virtualLink_constrained none (.inl rfl))).1 3).mpr hgoes⟩

/-- **Neither all nor nothing**: `a1` cannot be deleted, and `b1` has lost its link to `c1`. -/
theorem kept_interface_unlinks : (virtualLink (some 1)).Constrained ∧
    ¬∀ ok after, (deleteInterface 1).Returns Call.exec Succeeds (virtualLink (some 1)) ok after →
      AllOrNothing (virtualLink (some 1)) (withoutInterface (virtualLink (some 1)) 1) ok after := by
  refine ⟨virtualLink_constrained _ (.inr rfl), fun hlaw => ?_⟩
  have hret := Prog.returns_run Call.exec Succeeds ⟨true, fun _ => 0⟩ rfl
    (deleteInterface 1) (virtualLink (some 1))
  rcases hlaw _ _ hret with ⟨hok, -⟩ | ⟨-, hsame⟩
  · revert hok
    decide +kernel
  · have hrows := congrArg (fun s : Store => s.interfaces) hsame
    revert hrows
    decide +kernel

end JaspyNexus.Utilities.Discovery
