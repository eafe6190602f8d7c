import Mathlib
import JaspyNexus.Utilities.DiscoveryLinks

/-! # Links of a stable topology

While the topology is stable, `ingestLinks` may set links and nothing else, whatever
its statements meet. -/

namespace JaspyNexus.Utilities.Discovery
open JaspyNexus.Lib JaspyNexus.Models

/-- Any answer. -/
def AnyAnswer (_ : Answer) : Prop := True

/-- **What may become of a row**: a link is not lost, a row of another device stays,
and a row that changes is linked to the interface that the payload names for it. -/
structure LinkKept (store : Store) (links : LinkInfo) (row row' : Interface) : Prop where
  linked : row.connectedInterface.isSome = true → row'.connectedInterface.isSome = true
  others : (∀ device, localDevice store links = some device → row.deviceId ≠ device.id) → row' = row
  changed : row' = row ∨ ∃ peer, links.peer row.name = some peer ∧
    ∃ far ∈ store.interfaces, Names store peer far ∧ row' = { row with connectedInterface := some far.id }

theorem LinkKept.refl (store : Store) (links : LinkInfo) (row : Interface) :
    LinkKept store links row row := ⟨id, fun _ => rfl, .inl rfl⟩

/-- The two rows differ in their link at most. -/
theorem LinkKept.same {store : Store} {links : LinkInfo} {row row' : Interface}
    (h : LinkKept store links row row') :
    row'.id = row.id ∧ row'.deviceId = row.deviceId ∧ row'.name = row.name := by
  rcases h.changed with rfl | ⟨peer, -, far, -, -, rfl⟩ <;> exact ⟨rfl, rfl, rfl⟩

/-- What every round of the ingest keeps. -/
structure StableSoFar (store : Store) (links : LinkInfo) (s : Store) : Prop where
  devices : s.devices = store.devices
  rows : List.Forall₂ (LinkKept store links) store.interfaces s.interfaces

section
variable {store : Store} {links : LinkInfo}

theorem StableSoFar.deviceNamed {s : Store} (h : StableSoFar store links s) (name dnsDomain : String) :
    Discovery.deviceNamed s name dnsDomain = Discovery.deviceNamed store name dnsDomain := by
  unfold Discovery.deviceNamed
  rw [h.devices]

/-- A row that is found is one of the store, but for its link. -/
theorem StableSoFar.mem {s : Store} (h : StableSoFar store links s) {row' : Interface}
    (hrow : row' ∈ s.interfaces) :
    ∃ row ∈ store.interfaces, row'.id = row.id ∧ row'.deviceId = row.deviceId ∧ row'.name = row.name := by
  obtain ⟨i, hi, rfl⟩ := List.getElem_of_mem hrow
  have hlen := h.rows.length_eq
  exact ⟨store.interfaces[i], List.getElem_mem _, (h.rows.get (by omega) hi).same⟩

/-- A row of the local device gets the link that its payload names. -/
theorem StableSoFar.write (hkeys : (store.interfaces.map Interface.id).Nodup) {s : Store}
    (h : StableSoFar store links s) {row : Interface} (hrow : row ∈ store.interfaces) {device : Device}
    (hlocal : localDevice store links = some device) (hown : row.deviceId = device.id)
    {peer : LinkPeerInfo} (hpeer : links.peer row.name = some peer) {far : Interface}
    (hfar : far ∈ store.interfaces) (hnamed : Names store peer far) :
    StableSoFar store links (s.writeInterface { row with connectedInterface := some far.id }) := by
  refine ⟨h.devices, ?_⟩
  dsimp only [Store.writeInterface]
  rw [List.forall₂_map_right_iff]
  refine List.Forall₂.imp ?_ ((List.forall₂_and_left _ _).mpr ⟨fun old hold => hold, h.rows⟩)
  rintro old old' ⟨hold, hkept⟩
  split
  · next hid =>
    obtain rfl : old = row := List.inj_on_of_nodup_map hkeys hold hrow (hkept.same.1.symm.trans hid)
    exact ⟨fun _ => rfl, fun hother => absurd hown (hother device hlocal),
      .inr ⟨peer, hpeer, far, hfar, hnamed, rfl⟩⟩
  · exact hkept

theorem createLink_stable (hkeys : (store.interfaces.map Interface.id).Nodup) {s after : Store}
    (h : StableSoFar store links s) {row : Interface} (hrow : row ∈ store.interfaces) {device : Device}
    (hlocal : localDevice store links = some device) (hown : row.deviceId = device.id)
    {peer : LinkPeerInfo} (hpeer : links.peer row.name = some peer) {peerDevice : Device}
    (hdevice : Discovery.deviceNamed store peer.name peer.dnsDomain = some peerDevice)
    (hret : (createLink row peerDevice peer.interface).Returns Call.exec AnyAnswer s () after) :
    StableSoFar store links after := by
  obtain ⟨answer, -, hret⟩ := hret
  dsimp only [Call.exec, Prog.done_bind] at hret
  cases hfound : Store.first answer s.interfaces
      fun row => row.deviceId = peerDevice.id && row.name = peer.interface with
  | none =>
    rw [hfound] at hret
    exact hret.2 ▸ h
  | some far' =>
    rw [hfound] at hret
    obtain ⟨answer, -, rfl⟩ := Prog.returns_lift'.mp hret
    obtain ⟨hmem, hsome⟩ := Store.mem_of_first hfound
    obtain ⟨far, hfar, hid, hdev, hname⟩ := h.mem hmem
    simp only [Bool.and_eq_true, decide_eq_true_eq] at hsome
    dsimp only [Call.exec]
    split
    · rw [InterfaceChange.apply_link, hid]
      exact h.write hkeys hrow hlocal hown hpeer hfar
        ⟨peerDevice, hdevice, hdev.symm.trans hsome.1, hname.symm.trans hsome.2⟩
    · exact h

/-- One interface of the local device. -/
theorem ingestLink_stable (hkeys : (store.interfaces.map Interface.id).Nodup)
    (hstable : links.topologyStable = true) {s after : Store} (h : StableSoFar store links s)
    {row : Interface} (hrow : row ∈ store.interfaces) {device : Device}
    (hlocal : localDevice store links = some device) (hown : row.deviceId = device.id)
    (hret : (ingestLink links row).Returns Call.exec AnyAnswer s () after) :
    StableSoFar store links after := by
  unfold ingestLink at hret
  cases hpeer : links.peer row.name with
  | none =>
    rw [hpeer] at hret
    dsimp only at hret
    rw [if_pos hstable] at hret
    exact hret.2 ▸ h
  | some peer =>
    rw [hpeer] at hret
    obtain ⟨answer, -, hret⟩ := hret
    dsimp only [Call.exec, Prog.done_bind] at hret
    cases hfound : Store.first answer s.devices
        fun d => d.name = peer.name && d.dnsDomain = peer.dnsDomain with
    | none =>
      rw [hfound] at hret
      dsimp only at hret
      rw [if_pos hstable] at hret
      exact hret.2 ▸ h
    | some peerDevice =>
      rw [hfound] at hret
      have hdevice : Discovery.deviceNamed store peer.name peer.dnsDomain = some peerDevice := by
        unfold Store.first at hfound
        split at hfound
        · rw [← h.deviceNamed]; exact hfound
        · cases hfound
      obtain ⟨old, mid, hold, hret⟩ := Prog.returns_bind.mp hret
      -- the far end is only read
      have hmid : mid = s := by
        unfold peerInterface at hold
        split at hold
        · exact hold.2
        · obtain ⟨answer, -, -, rfl⟩ := Prog.returns_lift.mp hold
          rfl
      subst hmid
      cases old with
      | none => exact createLink_stable hkeys h hrow hlocal hown hpeer hdevice hret
      | some old =>
        dsimp only at hret
        split at hret
        · obtain ⟨_, linked, hlinked, hlast⟩ := Prog.returns_bind.mp hret
          exact hlast.2 ▸ createLink_stable hkeys h hrow hlocal hown hpeer hdevice hlinked
        · exact hret.2 ▸ h

/-- **A stable topology loses no link**: whatever succeeds of an ingest, rows of other
devices stay, and a row of the payload's device changes at most in its link, to the
interface that the payload names for it. -/
theorem ingestLinks_stable {store after : Store} (hkeys : (store.interfaces.map Interface.id).Nodup)
    {links : LinkInfo} (hstable : links.topologyStable = true)
    (hret : (ingestLinks links).Returns Call.exec AnyAnswer store () after) :
    List.Forall₂ (LinkKept store links) store.interfaces after.interfaces := by
  have hstart : StableSoFar store links store :=
    ⟨rfl, List.forall₂_same.mpr fun row _ => LinkKept.refl store links row⟩
  suffices StableSoFar store links after from this.rows
  unfold ingestLinks at hret
  cases hsplit : splitFqdn links.deviceFqdn with
  | none =>
    rw [hsplit] at hret
    exact hret.2 ▸ hstart
  | some p =>
    rw [hsplit] at hret
    obtain ⟨answer, -, hret⟩ := hret
    dsimp only [Call.exec, Prog.done_bind] at hret
    cases hfound : Store.first answer store.devices fun d => d.name = p.1 && d.dnsDomain = p.2 with
    | none =>
      rw [hfound] at hret
      exact hret.2 ▸ hstart
    | some device =>
      rw [hfound] at hret
      have hlocal : localDevice store links = some device := by
        unfold Store.first at hfound
        split at hfound
        · rw [localDevice, hsplit]; exact hfound
        · cases hfound
      obtain ⟨answer, -, hret⟩ := hret
      dsimp only [Call.exec, Prog.done_bind] at hret
      obtain ⟨_, mid, hrows, answer, -, -, rfl⟩ := Prog.returns_bind.mp hret
      have hmid : StableSoFar store links mid := by
        refine Prog.returns_each_inv (StableSoFar store links) (fun row hrow s s' hs hr => ?_)
          hrows hstart
        obtain ⟨hmem, hown⟩ := List.mem_filter.mp (Store.mem_of_select hrow)
        exact ingestLink_stable hkeys hstable hs hmem hlocal (decide_eq_true_eq.mp hown) hr
      dsimp only [Call.exec]
      split
      · exact ⟨hmid.devices, hmid.rows⟩
      · exact hmid

end

/-- While the topology is stable `b1` keeps its link when that of `a1` moves. -/
theorem ingestLinks_stable_moved : ∃ after,
    (ingestLinks { oneLink "a.lan" "a1" "c" "c2" with topologyStable := true }).Returns
      Call.exec AnyAnswer (threeSwitches (some 2) (some 3) none) () after ∧
    List.Forall₂ (LinkKept (threeSwitches (some 2) (some 3) none)
      { oneLink "a.lan" "a1" "c" "c2" with topologyStable := true })
      (threeSwitches (some 2) (some 3) none).interfaces after.interfaces :=
  have hret := Prog.returns_run Call.exec AnyAnswer ⟨true, fun _ => 0⟩ trivial
    (ingestLinks { oneLink "a.lan" "a1" "c" "c2" with topologyStable := true })
    (threeSwitches (some 2) (some 3) none)
  ⟨_, hret, ingestLinks_stable (by decide) rfl hret⟩

end JaspyNexus.Utilities.Discovery
