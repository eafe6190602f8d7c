import Mathlib
import JaspyNexus.Utilities.Deletion

/-! # Connections cleared by hand

`clear_device_connection` of `routes/dev/device.rs`. Links are stored in one direction:
of each of the device's interfaces the row at the far end is found by the interface's own
link, and both rows lose theirs. -/

namespace JaspyNexus.Routes.Connections
open JaspyNexus.Lib JaspyNexus.Models JaspyNexus.Utilities.Discovery

/-- One interface of the device, as it was read at the start. -/
def clearPeer (interface : Interface) : Prog Call Unit :=
  (peerInterface interface).bind fun
    | none => .done ()
    | some peer =>
      (Prog.lift' (.updateInterface peer (.link none))).bind fun _ =>
      .lift' (.updateInterface interface (.link none))

/-- `clear_device_connection`. -/
def clearDeviceConnection (deviceFqdn : String) : Prog Call Unit :=
  match splitFqdn deviceFqdn with
  | none => .done ()
  | some (hostname, domain) =>
    (Prog.lift (.findDevice hostname domain)).bind fun
      | none => .done ()
      | some device => (Prog.lift (.interfacesOf device.id)).bind fun rows => Prog.each clearPeer rows

/-! ## What is meant -/

/-- The interface at the far end, as an interface has it. -/
def peerOf (row : Interface) : Option Int := row.virtualConnection.or row.connectedInterface

/-- `Device::find_by_fqdn`. -/
def deviceAt (store : Store) (fqdn : String) : Option Device :=
  (splitFqdn fqdn).bind fun p => deviceNamed store p.1 p.2

/-- **The law**: no link joins the device to another one, and those between other devices
are what they were. -/
structure Disconnected (store after : Store) (deviceId : Int) : Prop where
  apart : ∀ row ∈ after.interfaces, ∀ far ∈ after.interfaces, row.connectedInterface = some far.id →
    (row.deviceId = deviceId ↔ far.deviceId = deviceId)
  kept : ∀ row ∈ store.interfaces, row.deviceId ≠ deviceId →
    (∀ far ∈ store.interfaces, row.connectedInterface = some far.id → far.deviceId ≠ deviceId) →
    linkOf after row.id = row.connectedInterface

/-- **When it holds**: a link of another device leads to the device exactly when one of
the device's interfaces has that other interface for its peer. -/
def EndsKnown (store : Store) (deviceId : Int) : Prop :=
  ∀ row ∈ store.interfaces, row.deviceId ≠ deviceId → ∀ far ∈ store.interfaces,
    row.connectedInterface = some far.id →
    (far.deviceId = deviceId ↔
      ∃ own ∈ store.interfaces, own.deviceId = deviceId ∧ peerOf own = some row.id)

/-! ## What is cleared -/

/-- The rows that lose their links for one interface of the device. -/
def touches (row : Interface) (id : Int) : Bool :=
  match peerOf row with
  | some peer => id = peer || id = row.id
  | none => false

/-- The rows that lose their links for the device. -/
def touched (store : Store) (deviceId id : Int) : Bool :=
  store.interfaces.any fun row => row.deviceId = deviceId && touches row id

section Returns
variable {store after : Store}

theorem rowAt_clearLinks (h : store.Constrained) {row : Interface} (hrow : row ∈ store.interfaces)
    (p : Int → Bool) : rowAt (clearLinks store p) row.id =
      some (if p row.id then { row with connectedInterface := none } else row) := by
  have hconsistent : Consistent store := ⟨h.deviceIds, h.interfaceIds, h.refs⟩
  have hsame : (fun other : Interface => decide (other.id = row.id)) ∘
      (fun row => if p row.id then { row with connectedInterface := none } else row) =
      fun other => decide (other.id = row.id) := by
    funext other
    dsimp only [Function.comp_apply]
    split <;> rfl
  rw [rowAt, clearLinks, List.find?_map, hsame, show store.interfaces.find? _ = some row from hconsistent.rowAt hrow]
  rfl

theorem linkOf_clearLinks (h : store.Constrained) {row : Interface} (hrow : row ∈ store.interfaces)
    (p : Int → Bool) : linkOf (clearLinks store p) row.id =
      if p row.id then none else row.connectedInterface := by
  rw [linkOf, show (clearLinks store p).interfaces.find? _ = _ from rowAt_clearLinks h hrow p, Option.bind_some]
  split <;> rfl

theorem returns_clearPeer (h : store.Constrained) {row : Interface} (hrow : row ∈ store.interfaces)
    (p : Int → Bool) :
    (clearPeer row).Returns Call.exec Succeeds (clearLinks store p) () after ↔
      after = clearLinks store fun id => p id || touches row id := by
  unfold clearPeer peerInterface
  cases hpeer : peerOf row with
  | none =>
    have hsame : (fun id => p id || touches row id) = p := by
      funext id
      simp [touches, hpeer]
    rw [hsame, show row.virtualConnection.or row.connectedInterface = none from hpeer]
    exact ⟨fun hret => hret.2, fun hafter => ⟨rfl, hafter⟩⟩
  | some id =>
    rw [show row.virtualConnection.or row.connectedInterface = some id from hpeer]
    -- the far end is there, its link perhaps cleared already
    obtain ⟨hconnected, hvirtual, -⟩ := Store.interfaceRefs_iff.mp (h.refs row hrow)
    have hhas : store.hasInterface id = true := by
      rcases Option.or_eq_some_iff.mp hpeer with hv | ⟨-, hc⟩
      · exact hvirtual id hv
      · exact hconnected id hc
    obtain ⟨far, hfar, rfl⟩ := List.mem_map.mp (Store.hasInterface_iff.mp hhas)
    rw [returns_interfaceById, show (clearLinks store p).interfaces.find? _ = _ from rowAt_clearLinks h hfar p]
    have hcopy : (InterfaceChange.link none).apply
        (if p far.id then { far with connectedInterface := none } else far) =
        (InterfaceChange.link none).apply far := by
      split <;> rfl
    dsimp only
    rw [Prog.returns_bind]
    have htwo : (fun i => p i || touches row i) =
        fun i => (p i || decide (i = far.id)) || decide (i = row.id) := by
      funext i
      simp [touches, hpeer, Bool.or_assoc]
    rw [htwo]
    constructor
    · intro ⟨_, mid, hfirst, hsecond⟩
      rw [returns_clearLink h hfar hcopy] at hfirst
      subst hfirst
      exact (returns_clearLink h hrow rfl _).mp hsecond
    · intro hafter
      exact ⟨(), _, (returns_clearLink h hfar hcopy p).mpr rfl, (returns_clearLink h hrow rfl _).mpr hafter⟩

/-- The rows of the device are gone through one after the other. -/
theorem returns_clearPeers (h : store.Constrained) {rows : List Interface}
    (hrows : ∀ row ∈ rows, row ∈ store.interfaces) (p : Int → Bool) :
    (Prog.each clearPeer rows).Returns Call.exec Succeeds (clearLinks store p) () after ↔
      after = clearLinks store fun id => p id || rows.any fun row => touches row id := by
  induction rows generalizing p with
  | nil => simp [Prog.each, Prog.Returns]
  | cons row rows ih =>
    rw [Prog.returns_each_cons]
    simp only [returns_clearPeer h (hrows row List.mem_cons_self), exists_eq_left]
    rw [ih fun row hrow => hrows row (List.mem_cons_of_mem _ hrow)]
    simp [Bool.or_assoc]

/-- **What is cleared**: the device's interfaces that have a peer, and those peers. -/
theorem returns_clearDeviceConnection (h : store.Constrained) {fqdn : String} {device : Device}
    (hdevice : deviceAt store fqdn = some device) :
    (clearDeviceConnection fqdn).Returns Call.exec Succeeds store () after ↔
      after = clearLinks store (touched store device.id) := by
  obtain ⟨⟨hostname, domain⟩, hsplit, hnamed⟩ := Option.bind_eq_some_iff.mp hdevice
  unfold clearDeviceConnection
  rw [hsplit]
  dsimp only
  rw [returns_findDevice, show deviceNamed store hostname domain = some device from hnamed]
  have hids := h.interfaceIds.sublist
    ((List.filter_sublist (p := fun row : Interface => row.deviceId = device.id)).map _)
  have hnone : clearLinks store (fun _ => false) = store := by simp [clearLinks]
  have hrows : ∀ {l : List Interface}, l.Perm (store.interfaces.filter fun row => row.deviceId = device.id) →
      ((Prog.each clearPeer l).Returns Call.exec Succeeds store () after ↔
        after = clearLinks store (touched store device.id)) := by
    intro l hperm
    have hmem : ∀ row ∈ l, row ∈ store.interfaces := fun row hrow =>
      List.mem_of_mem_filter (hperm.mem_iff.mp hrow)
    have hany : (fun id => false || l.any fun row => touches row id) = touched store device.id := by
      funext id
      rw [Bool.false_or, hperm.any_eq, List.any_filter]
      rfl
    have hret : (Prog.each clearPeer l).Returns Call.exec Succeeds (clearLinks store fun _ => false) () after ↔ _ :=
      returns_clearPeers h hmem fun _ => false
    rwa [hnone, hany] at hret
  rw [returns_rows (fun _ => rfl) hids]
  constructor
  · intro hret
    obtain ⟨l, hperm, hret⟩ := hret
    exact (hrows hperm).mp hret
  · intro hafter
    exact ⟨_, List.Perm.refl _, (hrows (.refl _)).mpr hafter⟩

end Returns

/-! ## The law -/

section Law
variable {store : Store} {deviceId : Int}

theorem touched_iff (h : store.Constrained) {row : Interface} (hrow : row ∈ store.interfaces) :
    touched store deviceId row.id = true ↔
      (row.deviceId = deviceId ∧ peerOf row ≠ none) ∨
      ∃ own ∈ store.interfaces, own.deviceId = deviceId ∧ peerOf own = some row.id := by
  unfold touched
  simp only [List.any_eq_true, Bool.and_eq_true, decide_eq_true_eq]
  constructor
  · intro ⟨own, hown, hdevice, htouch⟩
    unfold touches at htouch
    split at htouch
    next peer hpeer =>
      rw [Bool.or_eq_true, decide_eq_true_eq, decide_eq_true_eq] at htouch
      rcases htouch with rfl | hid
      · exact .inr ⟨own, hown, hdevice, hpeer⟩
      · obtain rfl := h.eq_of_id hrow hown hid
        exact .inl ⟨hdevice, by rw [hpeer]; exact nofun⟩
    next => cases htouch
  · intro hwhy
    rcases hwhy with ⟨hdevice, hpeer⟩ | ⟨own, hown, hdevice, hpeer⟩
    · obtain ⟨peer, hpeer⟩ := Option.ne_none_iff_exists'.mp hpeer
      exact ⟨row, hrow, hdevice, by simp [touches, hpeer]⟩
    · exact ⟨own, hown, hdevice, by simp [touches, hpeer]⟩

/-- Rows of other devices are touched as peers only. -/
theorem touched_other (h : store.Constrained) {row : Interface} (hrow : row ∈ store.interfaces)
    (hother : row.deviceId ≠ deviceId) : touched store deviceId row.id = true ↔
      ∃ own ∈ store.interfaces, own.deviceId = deviceId ∧ peerOf own = some row.id := by
  rw [touched_iff h hrow]
  exact or_iff_right fun hown => hother hown.1

theorem disconnected_iff (h : store.Constrained) :
    Disconnected store (clearLinks store (touched store deviceId)) deviceId ↔ EndsKnown store deviceId := by
  have hrow : ∀ row' ∈ (clearLinks store (touched store deviceId)).interfaces, ∃ row ∈ store.interfaces,
      row'.id = row.id ∧ row'.deviceId = row.deviceId ∧ ∀ id, row'.connectedInterface = some id →
        row.connectedInterface = some id ∧ touched store deviceId row.id ≠ true := by
    intro row' hrow'
    obtain ⟨row, hrow, rfl⟩ := List.mem_map.mp hrow'
    refine ⟨row, hrow, ?_⟩
    split
    · exact ⟨rfl, rfl, nofun⟩
    next htouch => exact ⟨rfl, rfl, fun id hid => ⟨hid, htouch⟩⟩
  have hstays : ∀ row ∈ store.interfaces, touched store deviceId row.id ≠ true →
      row ∈ (clearLinks store (touched store deviceId)).interfaces := fun row hrow htouch =>
    List.mem_map.mpr ⟨row, hrow, if_neg htouch⟩
  constructor
  · intro hlaw row hrow hother far hfar hlink
    rw [← touched_other h hrow hother]
    by_contra hne
    by_cases hdevice : far.deviceId = deviceId
    · -- the row keeps its link to the device
      have htouch : touched store deviceId row.id ≠ true := fun htouch => hne (iff_of_true hdevice htouch)
      obtain ⟨far', hfar', hid, hfarDevice⟩ : ∃ far' ∈ (clearLinks store (touched store deviceId)).interfaces,
          far'.id = far.id ∧ far'.deviceId = far.deviceId := by
        refine ⟨_, List.mem_map_of_mem hfar, ?_, ?_⟩ <;> split <;> rfl
      have hback := (hlaw.apart row (hstays row hrow htouch) far' hfar' (by rw [hid]; exact hlink)).mpr
        (hfarDevice.trans hdevice)
      exact hother hback
    · -- the row has lost a link to a third device
      have htouch : touched store deviceId row.id = true := by
        by_contra htouch
        exact hne (iff_of_false hdevice htouch)
      have hkept := hlaw.kept row hrow hother fun far' hfar' hlink' => by
        rw [hlink] at hlink'
        rwa [h.eq_of_id hfar' hfar (Option.some.inj hlink').symm]
      rw [linkOf_clearLinks h hrow, if_pos htouch, hlink] at hkept
      cases hkept
  · intro hknown
    refine ⟨fun row' hrow' far' hfar' hlink' => ?_, fun row hmem hother hnot => ?_⟩
    · obtain ⟨row, hrow, -, hdevice, hkeeps⟩ := hrow row' hrow'
      obtain ⟨far, hfar, hfarId, hfarDevice, -⟩ := ‹∀ row' ∈ (clearLinks store _).interfaces, _› far' hfar'
      obtain ⟨hlink, htouch⟩ := hkeeps _ hlink'
      rw [hdevice, hfarDevice]
      rw [hfarId] at hlink
      constructor
      · intro hown
        refine absurd ((touched_iff h hrow).mpr (.inl ⟨hown, fun hnone => ?_⟩)) htouch
        rw [peerOf, Option.or_eq_none_iff] at hnone
        rw [hnone.2] at hlink
        cases hlink
      · intro hfarOwn
        by_contra hother
        exact htouch ((touched_other h hrow hother).mpr ((hknown row hrow hother far hfar hlink).mp hfarOwn))
    · rw [linkOf_clearLinks h hmem]
      split
      next htouch =>
        cases hlink : row.connectedInterface with
        | none => rfl
        | some id =>
          have hhas := (Store.interfaceRefs_iff.mp (h.refs row hmem)).1 id hlink
          obtain ⟨far, hfar, rfl⟩ := List.mem_map.mp (Store.hasInterface_iff.mp hhas)
          have hown := (hknown row hmem hother far hfar hlink).mpr ((touched_other h hmem hother).mp htouch)
          exact absurd hown (hnot far hfar hlink)
      next => rfl

/-- **The device is disconnected, and nothing else**, exactly when the far ends of its
links are those that its own interfaces lead to. -/
theorem clear_disconnects_iff (h : store.Constrained) {fqdn : String} {device : Device}
    (hdevice : deviceAt store fqdn = some device) :
    (∀ after, (clearDeviceConnection fqdn).Returns Call.exec Succeeds store () after →
      Disconnected store after device.id) ↔ EndsKnown store device.id := by
  rw [← disconnected_iff h]
  constructor
  · exact fun hall => hall _ ((returns_clearDeviceConnection h hdevice).mpr rfl)
  · intro hlaw after hret
    rw [(returns_clearDeviceConnection h hdevice).mp hret]
    exact hlaw

end Law

/-! ## A link that has one end -/

theorem threeSwitches_constrained (a1 b1 : Option Int) (ha : a1 = none ∨ a1 = some 2) (hb : b1 = some 1) :
    (threeSwitches a1 b1 none).Constrained := by
  subst hb
  rcases ha with rfl | rfl
  · exact ⟨by decide, by decide, by decide, by decide, by decide, by decide, by decide, by decide, by decide⟩
  · exact ⟨by decide, by decide, by decide, by decide, by decide, by decide, by decide, by decide, by decide⟩

/-- Linked from both ends, `a1` and `b1` are disconnected. -/
theorem clear_disconnects_both_ends : EndsKnown (threeSwitches (some 2) (some 1) none) 1 ∧
    ∀ after, (clearDeviceConnection "a.lan").Returns Call.exec Succeeds
      (threeSwitches (some 2) (some 1) none) () after →
      Disconnected (threeSwitches (some 2) (some 1) none) after 1 := by
  have hknown : EndsKnown (threeSwitches (some 2) (some 1) none) 1 := by unfold EndsKnown; decide
  have hdevice : (deviceAt (threeSwitches (some 2) (some 1) none) "a.lan").map Device.id = some 1 := by
    decide +kernel
  obtain ⟨device, hdevice, hid⟩ := Option.map_eq_some_iff.mp hdevice
  have hiff := clear_disconnects_iff (threeSwitches_constrained _ _ (.inr rfl) rfl) hdevice
  rw [hid] at hiff
  exact ⟨hknown, hiff.mpr hknown⟩

/-- **A link stays**: that of `b1` to `a1` is on record at its own end only. -/
theorem far_link_stays : (threeSwitches none (some 1) none).Constrained ∧
    ¬∀ after, (clearDeviceConnection "a.lan").Returns Call.exec Succeeds
      (threeSwitches none (some 1) none) () after →
      Disconnected (threeSwitches none (some 1) none) after 1 := by
  refine ⟨threeSwitches_constrained _ _ (.inl rfl) rfl, fun hlaw => ?_⟩
  have hret := Prog.returns_run Call.exec Succeeds ⟨true, fun _ => 0⟩ rfl
    (clearDeviceConnection "a.lan") (threeSwitches none (some 1) none)
  have hstay : port 2 2 "b1" (some 1) ∈ ((clearDeviceConnection "a.lan").run Call.exec ⟨true, fun _ => 0⟩
      (threeSwitches none (some 1) none)).2.interfaces := by decide +kernel
  have hfar : port 1 1 "a1" none ∈ ((clearDeviceConnection "a.lan").run Call.exec ⟨true, fun _ => 0⟩
      (threeSwitches none (some 1) none)).2.interfaces := by decide +kernel
  have hboth := (hlaw _ hret).apart _ hstay _ hfar rfl
  revert hboth
  decide

end JaspyNexus.Routes.Connections
