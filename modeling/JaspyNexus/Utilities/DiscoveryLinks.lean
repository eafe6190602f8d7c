import Mathlib
import JaspyNexus.Lib.Relink
import JaspyNexus.Utilities.Discovery

/-! # The links of a crawl

What ingesting the payloads of one crawl leaves, in any order and with the rows of a
device coming in any order. The rows on record are the nodes of a `Net`, the crawled
devices its owners, and `ingestLinks` is a visit (`ingestLinks_holds`): where a link
moves, the row at its old far end loses its own, whether or not that was moved too. -/

namespace JaspyNexus.Utilities.Discovery
open JaspyNexus.Lib JaspyNexus.Lib.Relink JaspyNexus.Models

/-- Every statement succeeds. -/
def Succeeds (answer : Answer) : Prop := answer.ok = true

/-! ## What the payloads ask for -/

section Asked
variable (store : Store) (payloads : List LinkInfo)

def deviceNamed (name dnsDomain : String) : Option Device :=
  store.devices.find? fun d => d.name = name && d.dnsDomain = dnsDomain

/-- The device that a payload is about. -/
def localDevice (links : LinkInfo) : Option Device :=
  (splitFqdn links.deviceFqdn).bind fun p => deviceNamed store p.1 p.2

/-- The payload of a device. -/
def payloadOf (deviceId : Int) : Option LinkInfo :=
  payloads.find? fun links => (localDevice store links).map Device.id = some deviceId

/-- The peer that its own payload names for an interface. -/
def wanted (row : Interface) : Option LinkPeerInfo :=
  (payloadOf store payloads row.deviceId).bind fun links => links.peer row.name

/-- The row is the interface named. -/
def Names (peer : LinkPeerInfo) (row : Interface) : Prop :=
  ∃ device, deviceNamed store peer.name peer.dnsDomain = some device ∧
    row.deviceId = device.id ∧ row.name = peer.interface

def linkOf (id : Int) : Option Int :=
  (store.interfaces.find? fun row => row.id = id).bind Interface.connectedInterface

/-- Row ids are unique and references are there, as the schema has it. -/
structure Consistent : Prop where
  devices : (store.devices.map Device.id).Nodup
  interfaces : (store.interfaces.map Interface.id).Nodup
  refs : ∀ row ∈ store.interfaces, store.interfaceRefs row = true

/-- **The payloads of one crawl**: one for a device, of an unstable topology, naming
interfaces that are there. -/
structure Crawl : Prop where
  consistent : Consistent store
  unstable : ∀ links ∈ payloads, links.topologyStable = false
  onePayload : (payloads.map LinkInfo.deviceFqdn).Nodup
  peers : ∀ links ∈ payloads, ∀ name peer, links.peer name = some peer →
    ∃ row ∈ store.interfaces, Names store peer row
  noVirtual : ∀ row ∈ store.interfaces, row.virtualConnection = none

/-- **The law**: whatever the order of the payloads, every interface of their devices
ends up linked to the interface its payload names, or to none if it names none, and
always to the same. -/
structure OrderFree : Prop where
  named : ∀ order after, order.Perm payloads →
    (ingestAllLinks order).Returns Call.exec Succeeds store () after →
    ∀ row ∈ store.interfaces, (payloadOf store payloads row.deviceId).isSome = true →
      match wanted store payloads row with
      | some peer => ∃ far ∈ store.interfaces, linkOf after row.id = some far.id ∧ Names store peer far
      | none => linkOf after row.id = none
  same : ∀ order after order' after', order.Perm payloads → order'.Perm payloads →
    (ingestAllLinks order).Returns Call.exec Succeeds store () after →
    (ingestAllLinks order').Returns Call.exec Succeeds store () after' →
    ∀ row ∈ store.interfaces, (payloadOf store payloads row.deviceId).isSome = true →
      linkOf after row.id = linkOf after' row.id

/-- The link on record leads from `x` to `y`, and the payload names another peer. -/
def Moves (x y : Interface) : Prop :=
  ∃ peer, wanted store payloads x = some peer ∧ x.connectedInterface = some y.id ∧
    ¬Names store peer y

/-- **When the law holds**: a link to be moved leads to an interface for which a peer
is named only if that is another device's, and a link to be moved of that device
leads back. -/
def LinksUntangled : Prop :=
  ∀ x ∈ store.interfaces, ∀ y ∈ store.interfaces, Moves store payloads x y →
    (wanted store payloads y).isSome = true → x.deviceId ≠ y.deviceId ∧
      ∃ back ∈ store.interfaces, back.deviceId = y.deviceId ∧ Moves store payloads back x

end Asked

/-! ## Statements that succeed -/

section Statements
variable {store after : Store} {α : Type} {a : α}

theorem returns_findDevice {name dnsDomain : String} {f : Option Device → Prog Call α} :
    ((Prog.lift (.findDevice name dnsDomain)).bind f).Returns Call.exec Succeeds store a after ↔
      (f (deviceNamed store name dnsDomain)).Returns Call.exec Succeeds store a after := by
  constructor
  · rintro ⟨answer, hok, h⟩
    simpa [Call.exec, Store.first, deviceNamed, show answer.ok = true from hok] using h
  · exact fun h => ⟨⟨true, fun _ => 0⟩, rfl, h⟩

theorem returns_interfaceById {id : Int} {f : Option Interface → Prog Call α} :
    ((Prog.lift (.interfaceById id)).bind f).Returns Call.exec Succeeds store a after ↔
      (f (store.interfaces.find? fun row => row.id = id)).Returns Call.exec Succeeds store a after := by
  constructor
  · rintro ⟨answer, hok, h⟩
    simpa [Call.exec, Store.first, show answer.ok = true from hok] using h
  · exact fun h => ⟨⟨true, fun _ => 0⟩, rfl, h⟩

theorem returns_interfaceByName {deviceId : Int} {name : String} {f : Option Interface → Prog Call α} :
    ((Prog.lift (.interfaceByName deviceId name)).bind f).Returns Call.exec Succeeds store a after ↔
      (f (store.interfaces.find? fun row => row.deviceId = deviceId && row.name = name)).Returns
        Call.exec Succeeds store a after := by
  constructor
  · rintro ⟨answer, hok, h⟩
    simpa [Call.exec, Store.first, show answer.ok = true from hok] using h
  · exact fun h => ⟨⟨true, fun _ => 0⟩, rfl, h⟩

theorem returns_updateInterface {snapshot : Interface} {change : InterfaceChange}
    (hrefs : store.interfaceRefs (change.apply snapshot) = true) :
    (Prog.lift' (.updateInterface snapshot change)).Returns Call.exec Succeeds store () after ↔
      after = store.writeInterface (change.apply snapshot) := by
  rw [Prog.returns_lift']
  constructor
  · rintro ⟨answer, hok, h⟩
    simpa [Call.exec, show answer.ok = true from hok, hrefs] using h
  · exact fun h => ⟨⟨true, fun _ => 0⟩, rfl, by simpa [Call.exec, hrefs] using h⟩

end Statements

/-- Any order of rows is the order some answer gives. -/
theorem exists_order {α : Type} (id : α → Int) {rows l : List α} (hperm : l.Perm rows)
    (hnd : (l.map id).Nodup) : ∃ answer, Succeeds answer ∧ Store.select id answer rows = l := by
  refine ⟨⟨true, fun i => (l.map id).idxOf i⟩, rfl, ?_⟩
  unfold Store.select Store.sorted
  rw [if_pos rfl]
  have hsorted := List.pairwise_insertionSort
    (fun a b => (l.map id).idxOf (id a) ≤ (l.map id).idxOf (id b)) rows
  refine List.Perm.eq_of_pairwise (fun a b ha hb hab hba => ?_) hsorted ?_
    ((List.perm_insertionSort ..).trans hperm.symm)
  · have hmem : a ∈ l := hperm.mem_iff.mpr ((List.mem_insertionSort _).mp ha)
    have hidx := le_antisymm hab hba
    have hid := (List.idxOf_inj (List.mem_map_of_mem hmem)).mp hidx
    exact List.inj_on_of_nodup_map hnd hmem hb hid
  · rw [List.pairwise_iff_getElem]
    intro i j hi hj hij
    have hget : ∀ k (hk : k < l.length), (l.map id).idxOf (id l[k]) = k := fun k hk => by
      have := hnd.idxOf_getElem k (by simpa using hk)
      simpa using this
    rw [hget i hi, hget j hj]
    exact hij.le

/-- A permutation of what a list is mapped to is what a permutation of it is. -/
theorem exists_perm_filterMap {α β : Type*} (f : α → Option β) {l : List α} {ys : List β}
    (h : ys.Perm (l.filterMap f)) : ∃ l' : List α, l'.Perm l ∧ ys = l'.filterMap f := by
  induction l generalizing ys with
  | nil => exact ⟨[], List.Perm.refl _, List.Perm.eq_nil h⟩
  | cons a l ih =>
    cases ha : f a with
    | none =>
      rw [List.filterMap_cons_none ha] at h
      obtain ⟨l', hperm, heq⟩ := ih h
      exact ⟨a :: l', hperm.cons a, by rw [List.filterMap_cons_none ha, heq]⟩
    | some b =>
      rw [List.filterMap_cons_some ha] at h
      obtain ⟨pre, post, rfl⟩ := List.append_of_mem (h.mem_iff.mpr List.mem_cons_self)
      obtain ⟨l', hperm, heq⟩ := ih (List.perm_cons b |>.mp (List.perm_middle.symm.trans h))
      obtain ⟨l₁, l₂, rfl, hpre, hpost⟩ := List.filterMap_eq_append_iff.mp heq.symm
      refine ⟨l₁ ++ a :: l₂, List.perm_middle.trans (hperm.cons a), ?_⟩
      rw [List.filterMap_append, List.filterMap_cons_some ha, hpre, hpost]

theorem exists_perm_map {α β : Type*} {f : α → β} {l : List α} {ys : List β} (h : ys.Perm (l.map f)) :
    ∃ l' : List α, l'.Perm l ∧ ys = l'.map f := by
  rw [← List.filterMap_eq_map] at h ⊢
  exact exists_perm_filterMap _ h

/-! ## The rows as a net -/

def rowAt (store : Store) (id : Int) : Option Interface := store.interfaces.find? fun row => row.id = id

/-- The first row of the interface named. -/
def portOf (store : Store) (peer : LinkPeerInfo) : Option Interface :=
  (deviceNamed store peer.name peer.dnsDomain).bind fun device =>
    store.interfaces.find? fun row => row.deviceId = device.id && row.name = peer.interface

def isNamed (store : Store) (peer : LinkPeerInfo) (row : Interface) : Bool :=
  (deviceNamed store peer.name peer.dnsDomain).any fun device => !moved row device peer.interface

theorem isNamed_iff {store : Store} {peer : LinkPeerInfo} {row : Interface} :
    isNamed store peer row = true ↔ Names store peer row := by
  unfold isNamed Names moved
  rw [Option.any_eq_true]
  simp [eq_comm (a := peer.interface)]

instance (store : Store) (payloads : List LinkInfo) (x y : Interface) :
    Decidable (Moves store payloads x y) :=
  decidable_of_iff ((wanted store payloads x).any fun peer =>
    x.connectedInterface = some y.id && !isNamed store peer y) (by
      rw [Option.any_eq_true]
      simp [Moves, ← isNamed_iff])

instance (store : Store) (payloads : List LinkInfo) : Decidable (LinksUntangled store payloads) :=
  inferInstanceAs (Decidable (∀ x ∈ store.interfaces, ∀ y ∈ store.interfaces,
    Moves store payloads x y → (wanted store payloads y).isSome = true → x.deviceId ≠ y.deviceId ∧
      ∃ back ∈ store.interfaces, back.deviceId = y.deviceId ∧ Moves store payloads back x))

theorem Consistent.rowAt {store : Store} (h : Consistent store) {row : Interface}
    (hrow : row ∈ store.interfaces) : rowAt store row.id = some row := by
  refine List.find?_eq_some_iff_append.mpr ⟨by simp, ?_⟩
  obtain ⟨pre, post, hsplit⟩ := List.append_of_mem hrow
  refine ⟨pre, post, hsplit, fun other hother => ?_⟩
  have hnd := h.interfaces
  rw [hsplit, List.map_append, List.nodup_append] at hnd
  simpa using hnd.2.2 other.id (List.mem_map_of_mem hother) row.id (by simp)

theorem mem_of_rowAt {store : Store} {id : Int} {row : Interface} (h : rowAt store id = some row) :
    row ∈ store.interfaces ∧ row.id = id :=
  ⟨List.mem_of_find?_eq_some h, by simpa using List.find?_some h⟩

theorem splitFqdn_join {fqdn : String} {p : String × String} (h : splitFqdn fqdn = some p) :
    fqdn.toList = p.1.toList ++ '.' :: p.2.toList := by
  unfold splitFqdn at h
  have hsplit := List.takeWhile_append_dropWhile (p := (· != '.')) (l := fqdn.toList)
  cases hdrop : fqdn.toList.dropWhile (· != '.') with
  | nil => rw [hdrop] at h; cases h
  | cons c domain =>
    rw [hdrop] at h hsplit
    cases h
    have hc : c = '.' := by
      have := List.head_dropWhile_not (p := (· != '.')) (l := fqdn.toList) (by rw [hdrop]; simp)
      simpa [hdrop] using this
    rw [hc] at hsplit
    simpa using hsplit.symm

/-- A device is the subject of one payload's name only. -/
theorem fqdn_of_localDevice {store : Store} {links : LinkInfo} {device : Device}
    (h : localDevice store links = some device) :
    device ∈ store.devices ∧
      links.deviceFqdn.toList = device.name.toList ++ '.' :: device.dnsDomain.toList := by
  obtain ⟨p, hp, hdevice⟩ := Option.bind_eq_some_iff.mp h
  have hfound := List.find?_some hdevice
  simp only [Bool.and_eq_true, decide_eq_true_eq] at hfound
  exact ⟨List.mem_of_find?_eq_some hdevice, by rw [splitFqdn_join hp, hfound.1, hfound.2]⟩

section Crawl
variable {store : Store} {payloads : List LinkInfo} (h : Crawl store payloads)
include h

theorem Crawl.links_eq {links links' : LinkInfo} (hl : links ∈ payloads) (hl' : links' ∈ payloads)
    {device device' : Device} (hd : localDevice store links = some device)
    (hd' : localDevice store links' = some device') (hid : device.id = device'.id) : links = links' := by
  obtain ⟨hmem, hfqdn⟩ := fqdn_of_localDevice hd
  obtain ⟨hmem', hfqdn'⟩ := fqdn_of_localDevice hd'
  obtain rfl := List.inj_on_of_nodup_map h.consistent.devices hmem hmem' hid
  exact List.inj_on_of_nodup_map h.onePayload hl hl' (String.toList_inj.mp (hfqdn.trans hfqdn'.symm))

theorem Crawl.payloadOf {links : LinkInfo} (hl : links ∈ payloads) {device : Device}
    (hd : localDevice store links = some device) : payloadOf store payloads device.id = some links := by
  cases hfound : Discovery.payloadOf store payloads device.id with
  | none =>
    have := List.find?_eq_none.mp hfound links hl
    simp [hd] at this
  | some links' =>
    have hsome := List.find?_some hfound
    simp only [decide_eq_true_eq] at hsome
    obtain ⟨device', hd', hid⟩ := Option.map_eq_some_iff.mp hsome
    rw [h.links_eq (List.mem_of_find?_eq_some hfound) hl hd' hd hid]

omit h in
theorem mem_of_payloadOf {deviceId : Int} {links : LinkInfo}
    (hp : payloadOf store payloads deviceId = some links) :
    links ∈ payloads ∧ ∃ device, localDevice store links = some device ∧ device.id = deviceId := by
  have hsome := List.find?_some hp
  simp only [decide_eq_true_eq] at hsome
  exact ⟨List.mem_of_find?_eq_some hp, Option.map_eq_some_iff.mp hsome⟩

/-- A peer that is named is there. -/
theorem Crawl.port {row : Interface} {peer : LinkPeerInfo}
    (hw : wanted store payloads row = some peer) :
    ∃ device port, deviceNamed store peer.name peer.dnsDomain = some device ∧
      (store.interfaces.find? fun row => row.deviceId = device.id && row.name = peer.interface) = some port ∧
      portOf store peer = some port ∧ port ∈ store.interfaces ∧ Names store peer port := by
  obtain ⟨links, hlinks, hpeer⟩ := Option.bind_eq_some_iff.mp hw
  obtain ⟨far, hfar, device, hdevice, hown, hname⟩ := h.peers links (mem_of_payloadOf hlinks).1 _ _ hpeer
  cases hfound : store.interfaces.find? fun row => row.deviceId = device.id && row.name = peer.interface with
  | none => simpa [hown, hname] using List.find?_eq_none.mp hfound far hfar
  | some port =>
    have hport := List.find?_some hfound
    simp only [Bool.and_eq_true, decide_eq_true_eq] at hport
    exact ⟨device, port, hdevice, hfound, by simp [portOf, hdevice, hfound],
      List.mem_of_find?_eq_some hfound, device, hdevice, hport.1, hport.2⟩

theorem Crawl.owners_nodup : (payloads.filterMap fun links =>
    (localDevice store links).map fun device => some device.id).Nodup := by
  refine List.pairwise_filterMap.mpr (List.Pairwise.imp_of_mem ?_ h.onePayload.of_map)
  intro links links' hl hl' hne o ho o' ho' heq
  obtain ⟨device, hd, rfl⟩ := Option.map_eq_some_iff.mp ho
  obtain ⟨device', hd', rfl⟩ := Option.map_eq_some_iff.mp ho'
  exact hne (h.links_eq hl hl' hd hd' (Option.some.inj heq))

/-- The rows on record, what the payloads name for them, and the devices they are of. -/
def crawlNet : Net Int (Option Int) where
  nodes := store.interfaces.map Interface.id
  owner id := (rowAt store id).map Interface.deviceId
  owners := payloads.filterMap fun links => (localDevice store links).map fun device => some device.id
  goal id := (rowAt store id).bind fun row => (wanted store payloads row).bind fun peer =>
    (portOf store peer).map Interface.id
  fits x y := ((rowAt store x).bind (wanted store payloads)).any fun peer =>
    (rowAt store y).any (isNamed store peer)
  nodes_nodup := h.consistent.interfaces
  owners_nodup := h.owners_nodup
  goal_mem x hx := by
    obtain ⟨g, hg⟩ := Option.isSome_iff_exists.mp hx
    obtain ⟨row, hrow, hg⟩ := Option.bind_eq_some_iff.mp hg
    obtain ⟨peer, hpeer, -⟩ := Option.bind_eq_some_iff.mp hg
    obtain ⟨links, hlinks, -⟩ := Option.bind_eq_some_iff.mp hpeer
    obtain ⟨hmem, hid⟩ := mem_of_rowAt hrow
    obtain ⟨hl, device, hd, hown⟩ := mem_of_payloadOf hlinks
    refine ⟨List.mem_map.mpr ⟨row, hmem, hid⟩, List.mem_filterMap.mpr ⟨links, hl, ?_⟩⟩
    rw [hd, hrow, Option.map_some, Option.map_some, hown]

theorem Crawl.owner {row : Interface} (hrow : row ∈ store.interfaces) :
    (crawlNet h).owner row.id = some row.deviceId := by
  dsimp only [crawlNet]
  rw [h.consistent.rowAt hrow, Option.map_some]

theorem Crawl.goal_none {row : Interface} (hrow : row ∈ store.interfaces)
    (hw : wanted store payloads row = none) : (crawlNet h).goal row.id = none := by
  dsimp only [crawlNet]
  rw [h.consistent.rowAt hrow, Option.bind_some, hw, Option.bind_none]

theorem Crawl.goal_some {row : Interface} (hrow : row ∈ store.interfaces) {peer : LinkPeerInfo}
    (hw : wanted store payloads row = some peer) {port : Interface}
    (hport : portOf store peer = some port) : (crawlNet h).goal row.id = some port.id := by
  dsimp only [crawlNet]
  rw [h.consistent.rowAt hrow, Option.bind_some, hw, Option.bind_some, hport, Option.map_some]

theorem Crawl.fits {row far : Interface} (hrow : row ∈ store.interfaces) (hfar : far ∈ store.interfaces)
    {peer : LinkPeerInfo} (hw : wanted store payloads row = some peer) :
    (crawlNet h).fits row.id far.id = isNamed store peer far := by
  dsimp only [crawlNet]
  rw [h.consistent.rowAt hrow, h.consistent.rowAt hfar, Option.bind_some, hw,
    Option.any_some, Option.any_some]

omit h in
/-- **A link to be moved** of the net is one of the rows. -/
theorem stale_iff (h : Crawl store payloads) {x y : Interface} (hx : x ∈ store.interfaces)
    (hy : y ∈ store.interfaces) :
    (crawlNet h).Stale (linkOf store) x.id y.id ↔ Moves store payloads x y := by
  have hlink : linkOf store x.id = x.connectedInterface := by
    rw [linkOf, show (store.interfaces.find? fun row => row.id = x.id) = some x from
      h.consistent.rowAt hx, Option.bind_some]
  constructor
  · intro hs
    cases hw : wanted store payloads x with
    | none => simpa [h.goal_none hx hw] using hs.goal
    | some peer =>
      refine ⟨peer, hw, hlink.symm.trans hs.link, fun hnamed => ?_⟩
      have hunfit := hs.unfit
      rw [h.fits hx hy hw, isNamed_iff.mpr hnamed] at hunfit
      cases hunfit
  · rintro ⟨peer, hw, hconn, hnot⟩
    obtain ⟨device, port, -, -, hport, -⟩ := h.port hw
    refine ⟨hlink.trans hconn, List.mem_map_of_mem hy, ?_, ?_⟩
    · rw [h.goal_some hx hw hport]; rfl
    · rw [h.fits hx hy hw]
      cases hnamed : isNamed store peer y with
      | false => rfl
      | true => exact absurd (isNamed_iff.mp hnamed) hnot

theorem goal_isSome_iff {row : Interface} (hrow : row ∈ store.interfaces) :
    ((crawlNet h).goal row.id).isSome = true ↔ (wanted store payloads row).isSome = true := by
  cases hw : wanted store payloads row with
  | none => simp [h.goal_none hrow hw]
  | some peer =>
    obtain ⟨device, port, -, -, hport, -⟩ := h.port hw
    simp [h.goal_some hrow hw hport]

theorem untangled_iff : (crawlNet h).Untangled (linkOf store) ↔ LinksUntangled store payloads := by
  have hnode : ∀ {x y}, (crawlNet h).Stale (linkOf store) x y →
      ∃ row ∈ store.interfaces, row.id = x := fun hs =>
    List.mem_map.mp ((crawlNet h).goal_mem _ hs.goal).1
  constructor
  · intro hu x hx y hy hmoves hw
    obtain ⟨hne, back, hown, hback⟩ := hu x.id y.id ((stale_iff h hx hy).mpr hmoves)
      ((goal_isSome_iff h hy).mpr hw)
    obtain ⟨z, hz, rfl⟩ := hnode hback
    rw [h.owner hx, h.owner hy] at hne
    rw [h.owner hz, h.owner hy] at hown
    exact ⟨fun he => hne (by rw [he]), z, hz, Option.some.inj hown, (stale_iff h hz hx).mp hback⟩
  · intro hu x y hs hgoal
    obtain ⟨x, hx, rfl⟩ := hnode hs
    obtain ⟨y, hy, rfl⟩ := List.mem_map.mp hs.mem
    obtain ⟨hne, back, hb, hown, hmoves⟩ := hu x hx y hy ((stale_iff h hx hy).mp hs)
      ((goal_isSome_iff h hy).mp hgoal)
    refine ⟨fun he => hne ?_, back.id, ?_, (stale_iff h hb hx).mpr hmoves⟩
    · rw [h.owner hx, h.owner hy] at he
      exact Option.some.inj he
    · rw [h.owner hb, h.owner hy, hown]

end Crawl

/-! ## Ingesting as a visit -/

/-- The store is as it was but for the links of its rows. -/
structure Holds (store : Store) (links : Links Int) (s : Store) : Prop where
  devices : s.devices = store.devices
  interfaces : s.interfaces = store.interfaces.map fun row =>
    { row with connectedInterface := links row.id }

namespace Holds
variable {store s : Store} {links : Links Int} (hs : Holds store links s)
include hs

theorem deviceNamed (name dnsDomain : String) :
    Discovery.deviceNamed s name dnsDomain = Discovery.deviceNamed store name dnsDomain := by
  rw [Discovery.deviceNamed, hs.devices]
  rfl

theorem find? (p : Interface → Bool)
    (hp : ∀ row, p { row with connectedInterface := links row.id } = p row) :
    s.interfaces.find? p =
      (store.interfaces.find? p).map fun row => { row with connectedInterface := links row.id } := by
  rw [hs.interfaces, List.find?_map]
  congr 2
  exact funext hp

theorem linkOf {row : Interface} (h : Consistent store) (hrow : row ∈ store.interfaces) :
    Discovery.linkOf s row.id = links row.id := by
  rw [Discovery.linkOf, hs.find? _ fun _ => rfl, show store.interfaces.find? _ = some row from h.rowAt hrow]
  rfl

/-- The references of a row of the store are there, with another link as well. -/
theorem refs (h : Consistent store) {row : Interface} (hrow : row ∈ store.interfaces)
    {link : Option Int} (hlink : ∀ y, link = some y → y ∈ store.interfaces.map Interface.id) :
    s.interfaceRefs { row with connectedInterface := link } = true := by
  have hhas : s.hasInterface = store.hasInterface := by
    funext id
    rw [Store.hasInterface, hs.interfaces, List.any_map]
    rfl
  have hrefs := h.refs row hrow
  unfold Store.interfaceRefs at hrefs ⊢
  simp only [Bool.and_eq_true] at hrefs ⊢
  refine ⟨⟨?_, by rw [hhas]; exact hrefs.1.2⟩, by rw [Store.hasDevice, hs.devices]; exact hrefs.2⟩
  rw [hhas]
  cases link with
  | none => rfl
  | some y =>
    obtain ⟨far, hfar, rfl⟩ := List.mem_map.mp (hlink y rfl)
    exact List.any_eq_true.mpr ⟨far, hfar, by simp⟩

theorem write (h : Consistent store) {row : Interface} (hrow : row ∈ store.interfaces) (link : Option Int) :
    Holds store (Function.update links row.id link)
      (s.writeInterface { row with connectedInterface := link }) := by
  refine ⟨hs.devices, ?_⟩
  dsimp only [Store.writeInterface]
  rw [hs.interfaces, List.map_map]
  refine List.map_congr_left fun other hother => ?_
  dsimp only [Function.comp]
  split
  · next hid =>
    have hsame : other = row := List.inj_on_of_nodup_map h.interfaces hother hrow hid
    rw [hsame, Function.update_self]
  · next hid => rw [Function.update_of_ne hid]

/-- A link is written, in any copy of the row. -/
theorem returns_link (h : Consistent store) {row snapshot : Interface} (hrow : row ∈ store.interfaces)
    {link before : Option Int} (hsnap : snapshot = { row with connectedInterface := before })
    (hlink : ∀ y, link = some y → y ∈ store.interfaces.map Interface.id) {after : Store}
    (hret : (Prog.lift' (.updateInterface snapshot (.link link))).Returns Call.exec Succeeds s () after) :
    Holds store (Function.update links row.id link) after := by
  subst hsnap
  have hrefs := hs.refs h hrow hlink
  rw [returns_updateInterface (by exact hrefs)] at hret
  rw [hret]
  exact hs.write h hrow link

end Holds

section Visit
variable {store : Store} {payloads : List LinkInfo} (h : Crawl store payloads)
include h

/-- The link of an interface is set to its goal. -/
theorem createLink_holds {row : Interface} (hrow : row ∈ store.interfaces) {peer : LinkPeerInfo}
    {device : Device} {port : Interface}
    (hfound : (store.interfaces.find? fun row => row.deviceId = device.id && row.name = peer.interface) =
      some port) {before : Option Int} {links : Links Int} {s after : Store} (hs : Holds store links s)
    (hret : (createLink { row with connectedInterface := before } device peer.interface).Returns
      Call.exec Succeeds s () after) :
    Holds store (Function.update links row.id (some port.id)) after := by
  unfold createLink at hret
  rw [returns_interfaceByName, hs.find? _ fun _ => rfl, hfound] at hret
  refine hs.returns_link h.consistent hrow rfl (fun y hy => ?_) hret
  cases hy
  exact List.mem_map_of_mem (List.mem_of_find?_eq_some hfound)

omit h in
theorem peerInterface_eq {row : Interface} (hv : row.virtualConnection = none) (link : Option Int) :
    peerInterface { row with connectedInterface := link } =
      match link with
      | none => .done none
      | some id => .lift (.interfaceById id) := by
  cases link with
  | none => simp only [peerInterface, hv, Option.none_or]
  | some id => simp only [peerInterface, hv, Option.none_or]

/-- **One interface's reconciliation is a visit**: the copy it works on has the link
that was read at the start. -/
theorem ingestLink_holds {links : LinkInfo} {row : Interface} (hrow : row ∈ store.interfaces)
    (hlinks : payloadOf store payloads row.deviceId = some links) {before current : Links Int}
    {s after : Store} (hs : Holds store current s)
    (hret : (ingestLink links { row with connectedInterface := before row.id }).Returns
      Call.exec Succeeds s () after) :
    Holds store ((crawlNet h).visit before current row.id) after := by
  have hstable : links.topologyStable = false := h.unstable links (mem_of_payloadOf hlinks).1
  have hwanted : wanted store payloads row = links.peer row.name := by
    rw [wanted, hlinks, Option.bind_some]
  unfold ingestLink at hret
  unfold Net.visit
  dsimp only at hret
  cases hpeer : links.peer row.name with
  | none =>
    rw [hpeer, hstable] at hret
    rw [h.goal_none hrow (hwanted.trans hpeer)]
    simp only [Bool.false_eq_true, if_false, clearConnection] at hret
    dsimp only
    cases hbefore : before row.id with
    | none =>
      rw [hbefore] at hret
      rw [if_pos rfl, hret.2]
      exact hs
    | some y =>
      rw [hbefore] at hret
      rw [if_neg (by simp)]
      exact hs.returns_link h.consistent hrow rfl (fun _ hy => by cases hy) hret
  | some peer =>
    obtain ⟨device, port, hdevice, hfound, hport, hmem, -⟩ := h.port (hwanted.trans hpeer)
    rw [hpeer] at hret
    rw [h.goal_some hrow (hwanted.trans hpeer) hport]
    dsimp only at hret ⊢
    rw [returns_findDevice, hs.deviceNamed, hdevice] at hret
    dsimp only at hret
    rw [peerInterface_eq (h.noVirtual row hrow)] at hret
    cases hbefore : before row.id with
    | none =>
      rw [hbefore] at hret
      dsimp only [Prog.done_bind] at hret
      rw [show (crawlNet h).farEnd before row.id = none by simp [Net.farEnd, hbefore]]
      exact createLink_holds h hrow hfound hs hret
    | some y =>
      rw [hbefore] at hret
      dsimp only at hret
      rw [returns_interfaceById, hs.find? _ fun _ => rfl] at hret
      cases hold : rowAt store y with
      | none =>
        rw [show store.interfaces.find? _ = none from hold] at hret
        dsimp only [Option.map_none] at hret
        have hgone : y ∉ store.interfaces.map Interface.id := by
          intro hy
          obtain ⟨old, hmem, rfl⟩ := List.mem_map.mp hy
          rw [h.consistent.rowAt hmem] at hold
          cases hold
        rw [show (crawlNet h).farEnd before row.id = none by
          rw [Net.farEnd, hbefore]; exact Option.filter_some_neg (decide_eq_false hgone)]
        exact createLink_holds h hrow hfound hs hret
      | some old =>
        obtain ⟨holdmem, rfl⟩ := mem_of_rowAt hold
        rw [show store.interfaces.find? _ = some old from hold] at hret
        rw [show (crawlNet h).farEnd before row.id = some old.id from
          Net.farEnd_eq_some.mpr ⟨hbefore, List.mem_map_of_mem holdmem⟩]
        dsimp only [Option.map_some] at hret ⊢
        have hfits : (crawlNet h).fits row.id old.id = !moved old device peer.interface := by
          rw [h.fits hrow holdmem (hwanted.trans hpeer), isNamed, hdevice, Option.any_some]
        rw [hfits]
        have hmoved : moved { old with connectedInterface := current old.id } device peer.interface =
            moved old device peer.interface := rfl
        rw [hmoved, hstable] at hret
        cases hm : moved old device peer.interface with
        | false =>
          rw [hm] at hret
          rw [if_pos (by rfl)]
          simp only [Bool.false_eq_true, if_false] at hret
          rw [hret.2]
          exact hs
        | true =>
          rw [hm] at hret
          rw [if_neg (by simp)]
          simp only [if_true, Bool.false_eq_true, if_false] at hret
          obtain ⟨_, mid, hlinked, hcleared⟩ := Prog.returns_bind.mp hret
          have hmid := createLink_holds h hrow hfound hs hlinked
          exact hmid.returns_link h.consistent holdmem rfl (fun _ hy => by cases hy) hcleared

theorem ingestRows_holds {links : LinkInfo} {rows : List Interface}
    (hrows : ∀ row ∈ rows, row ∈ store.interfaces ∧ payloadOf store payloads row.deviceId = some links)
    {before current : Links Int} {s after : Store} (hs : Holds store current s)
    (hret : (Prog.each (ingestLink links)
      (rows.map fun row => { row with connectedInterface := before row.id })).Returns
      Call.exec Succeeds s () after) :
    Holds store ((rows.map Interface.id).foldl ((crawlNet h).visit before) current) after := by
  induction rows generalizing current s with
  | nil => exact hret.2 ▸ hs
  | cons row rows ih =>
    rw [List.map_cons] at hret
    obtain ⟨mid, hrow, hrest⟩ := Prog.returns_each_cons.mp hret
    obtain ⟨hmem, hp⟩ := hrows row List.mem_cons_self
    exact ih (fun r hr => hrows r (List.mem_cons_of_mem _ hr)) (ingestLink_holds h hmem hp hs hrow) hrest

theorem Crawl.rowsOf (deviceId : Int) : (crawlNet h).rowsOf (some deviceId) =
    (store.interfaces.filter fun row => row.deviceId = deviceId).map Interface.id := by
  unfold Net.rowsOf
  rw [show (crawlNet h).nodes = store.interfaces.map Interface.id from rfl, List.filter_map]
  congr 1
  refine List.filter_congr fun row hrow => ?_
  rw [Function.comp_apply, h.owner hrow]
  simp

/-- **A payload's ingest is a visit of its device**, the rows coming in some order. -/
theorem ingestLinks_holds {links : LinkInfo} (hl : links ∈ payloads) {device : Device}
    (hd : localDevice store links = some device) {current : Links Int} {s after : Store}
    (hs : Holds store current s)
    (hret : (ingestLinks links).Returns Call.exec Succeeds s () after) :
    ∃ rows, rows.Perm ((crawlNet h).rowsOf (some device.id)) ∧
      Holds store ((crawlNet h).ingest current rows) after := by
  obtain ⟨p, hp, hdevice⟩ := Option.bind_eq_some_iff.mp hd
  unfold ingestLinks at hret
  rw [hp] at hret
  dsimp only at hret
  rw [returns_findDevice, hs.deviceNamed, hdevice] at hret
  obtain ⟨answer, hok, hret⟩ := hret
  dsimp only [Prog.done_bind] at hret
  obtain ⟨_, mid, hrows, hlast⟩ := Prog.returns_bind.mp hret
  -- the rows that come are those of the device, each with its link
  have hperm : (Call.exec _ (.interfacesOf device.id) answer s).2.Perm
      ((store.interfaces.filter fun row => row.deviceId = device.id).map fun row =>
        { row with connectedInterface := current row.id }) := by
    dsimp only [Call.exec, Store.select]
    rw [if_pos (show answer.ok = true from hok), hs.interfaces, List.filter_map]
    exact List.perm_insertionSort ..
  obtain ⟨rows, hrperm, hreq⟩ := exists_perm_map hperm
  rw [hreq] at hrows
  refine ⟨rows.map Interface.id, ?_, ?_⟩
  · rw [h.rowsOf]
    exact hrperm.map _
  · have hheld := ingestRows_holds h (fun row hrow => ?_) hs hrows
    · obtain ⟨answer, -, -, rfl⟩ := hlast
      dsimp only [Call.exec]
      split
      · exact ⟨hheld.devices, hheld.interfaces⟩
      · exact hheld
    · obtain ⟨hmem, hown⟩ := List.mem_filter.mp (hrperm.mem_iff.mp hrow)
      rw [decide_eq_true_eq.mp hown]
      exact ⟨hmem, h.payloadOf hl hd⟩

/-- The rows may come in any order. -/
theorem exists_ingestLinks {links : LinkInfo} (hl : links ∈ payloads) {device : Device}
    (hd : localDevice store links = some device) {rows : List Int}
    (hrows : rows.Perm ((crawlNet h).rowsOf (some device.id))) {current : Links Int} {s : Store}
    (hs : Holds store current s) : ∃ after, (ingestLinks links).Returns Call.exec Succeeds s () after ∧
      Holds store ((crawlNet h).ingest current rows) after := by
  obtain ⟨p, hp, hdevice⟩ := Option.bind_eq_some_iff.mp hd
  rw [h.rowsOf] at hrows
  obtain ⟨ordered, hperm, rfl⟩ := exists_perm_map hrows
  have hnd : (ordered.map Interface.id).Nodup :=
    hrows.nodup_iff.mpr (h.consistent.interfaces.sublist (List.filter_sublist.map _))
  have hlinked : (ordered.map fun row => { row with connectedInterface := current row.id }).Perm
      (s.interfaces.filter fun row => row.deviceId = device.id) := by
    rw [hs.interfaces, List.filter_map]
    exact hperm.map _
  obtain ⟨answer, hok, hselect⟩ := exists_order Interface.id hlinked
    (by rw [List.map_map]; exact hnd)
  have hmem : ∀ row ∈ ordered, row ∈ store.interfaces ∧
      payloadOf store payloads row.deviceId = some links := by
    intro row hrow
    obtain ⟨hmem, hown⟩ := List.mem_filter.mp (hperm.mem_iff.mp hrow)
    rw [decide_eq_true_eq.mp hown]
    exact ⟨hmem, h.payloadOf hl hd⟩
  obtain ⟨_, mid, hmid⟩ := Prog.exists_returns Call.exec (⟨⟨true, fun _ => 0⟩, rfl⟩ : ∃ e, Succeeds e)
    (Prog.each (ingestLink links)
      (ordered.map fun row => { row with connectedInterface := current row.id })) s
  have hheld := ingestRows_holds h hmem hs hmid
  refine ⟨(Call.exec _ .invalidateWeathermap ⟨true, fun _ => 0⟩ mid).1, ?_,
    hheld.devices, hheld.interfaces⟩
  unfold ingestLinks
  rw [hp]
  dsimp only
  rw [returns_findDevice, hs.deviceNamed, hdevice]
  refine ⟨answer, hok, ?_⟩
  dsimp only [Prog.done_bind, Call.exec]
  rw [hselect, Prog.returns_bind]
  exact ⟨(), mid, hmid, ⟨true, fun _ => 0⟩, rfl, rfl, rfl⟩

omit h in
/-- A payload of a device that is not there is ignored. -/
theorem ingestLinks_unknown {links : LinkInfo} (hd : localDevice store links = none)
    {current : Links Int} {s after : Store} (hs : Holds store current s) :
    (ingestLinks links).Returns Call.exec Succeeds s () after ↔ after = s := by
  unfold ingestLinks
  unfold localDevice at hd
  cases hp : splitFqdn links.deviceFqdn with
  | none => exact ⟨fun hret => hret.2, fun he => ⟨rfl, he⟩⟩
  | some p =>
    rw [hp, Option.bind_some] at hd
    dsimp only
    rw [returns_findDevice, hs.deviceNamed, hd]
    exact ⟨fun hret => hret.2, fun he => ⟨rfl, he⟩⟩

/-! ## The whole crawl -/

/-- The devices of payloads, as owners. -/
def devicesOf (store : Store) (order : List LinkInfo) : List (Option Int) :=
  order.filterMap fun links => (localDevice store links).map fun device => some device.id

theorem ingestAll_holds {order : List LinkInfo} (horder : ∀ links ∈ order, links ∈ payloads)
    {current : Links Int} {s after : Store} (hs : Holds store current s)
    (hret : (ingestAllLinks order).Returns Call.exec Succeeds s () after) :
    ∃ visits, List.Forall₂ (fun d rows => rows.Perm ((crawlNet h).rowsOf d)) (devicesOf store order) visits ∧
      Holds store ((crawlNet h).run current visits) after := by
  induction order generalizing current s with
  | nil => exact ⟨[], .nil, hret.2 ▸ hs⟩
  | cons links order ih =>
    obtain ⟨mid, hfirst, hrest⟩ := Prog.returns_each_cons.mp hret
    have hl := horder links List.mem_cons_self
    have hos := fun l hlo => horder l (List.mem_cons_of_mem _ hlo)
    cases hd : localDevice store links with
    | none =>
      rw [(ingestLinks_unknown hd hs).mp hfirst] at hrest
      obtain ⟨visits, hvisits, hheld⟩ := ih hos hs hrest
      exact ⟨visits, by rw [devicesOf, List.filterMap_cons_none (by rw [hd]; rfl)]; exact hvisits, hheld⟩
    | some device =>
      obtain ⟨rows, hperm, hmid⟩ := ingestLinks_holds h hl hd hs hfirst
      obtain ⟨visits, hvisits, hheld⟩ := ih hos hmid hrest
      refine ⟨rows :: visits, ?_, hheld⟩
      rw [devicesOf, List.filterMap_cons_some (by rw [hd]; rfl)]
      exact .cons hperm hvisits

theorem exists_ingestAll {order : List LinkInfo} (horder : ∀ links ∈ order, links ∈ payloads)
    {visits : List (List Int)}
    (hvisits : List.Forall₂ (fun d rows => rows.Perm ((crawlNet h).rowsOf d)) (devicesOf store order) visits)
    {current : Links Int} {s : Store} (hs : Holds store current s) :
    ∃ after, (ingestAllLinks order).Returns Call.exec Succeeds s () after ∧
      Holds store ((crawlNet h).run current visits) after := by
  induction order generalizing current s visits with
  | nil =>
    cases hvisits
    exact ⟨s, ⟨rfl, rfl⟩, hs⟩
  | cons links order ih =>
    have hl := horder links List.mem_cons_self
    have hos := fun l hlo => horder l (List.mem_cons_of_mem _ hlo)
    cases hd : localDevice store links with
    | none =>
      rw [devicesOf, List.filterMap_cons_none (by rw [hd]; rfl)] at hvisits
      obtain ⟨after, hret, hheld⟩ := ih hos hvisits hs
      exact ⟨after, Prog.returns_each_cons.mpr ⟨s, (ingestLinks_unknown hd hs).mpr rfl, hret⟩, hheld⟩
    | some device =>
      rw [devicesOf, List.filterMap_cons_some (by rw [hd]; rfl)] at hvisits
      obtain ⟨rows, rest, hrows, hrest, rfl⟩ := List.forall₂_cons_left_iff.mp hvisits
      obtain ⟨mid, hfirst, hmid⟩ := exists_ingestLinks h hl hd hrows hs
      obtain ⟨after, hret, hheld⟩ := ih hos hrest hmid
      exact ⟨after, Prog.returns_each_cons.mpr ⟨mid, hfirst, hret⟩, hheld⟩

/-- The store itself holds its links. -/
theorem holds_self : Holds store (linkOf store) store := by
  refine ⟨rfl, ?_⟩
  conv_lhs => rw [← List.map_id store.interfaces]
  refine List.map_congr_left fun row hrow => ?_
  rw [linkOf, show (store.interfaces.find? fun r => r.id = row.id) = some row from
    h.consistent.rowAt hrow]
  rfl

/-- Where nothing undoes anything, a crawl leaves every link at its target. -/
theorem ingestAll_target (hu : LinksUntangled store payloads) {order : List LinkInfo}
    (horder : order.Perm payloads) {after : Store}
    (hret : (ingestAllLinks order).Returns Call.exec Succeeds store () after) {row : Interface}
    (hrow : row ∈ store.interfaces) (hp : (payloadOf store payloads row.deviceId).isSome = true) :
    linkOf after row.id = (crawlNet h).target (linkOf store) row.id := by
  obtain ⟨visits, hvisits, hheld⟩ := ingestAll_holds h (fun _ hl => horder.mem_iff.mp hl) (holds_self h) hret
  rw [hheld.linkOf h.consistent hrow]
  refine Net.run_right ((untangled_iff h).mpr hu) ⟨_, horder.filterMap _, hvisits⟩
    (List.mem_map_of_mem hrow) ?_
  obtain ⟨links, hlinks⟩ := Option.isSome_iff_exists.mp hp
  obtain ⟨hl, device, hd, hown⟩ := mem_of_payloadOf hlinks
  rw [h.owner hrow]
  exact List.mem_filterMap.mpr ⟨links, hl, by rw [hd, Option.map_some, hown]⟩

/-- The target is the interface that the payload names. -/
theorem target_named {row : Interface} (hrow : row ∈ store.interfaces) :
    match wanted store payloads row with
    | some peer => ∃ far ∈ store.interfaces,
        (crawlNet h).target (linkOf store) row.id = some far.id ∧ Names store peer far
    | none => (crawlNet h).target (linkOf store) row.id = none := by
  cases hw : wanted store payloads row with
  | none => simp [Net.target, h.goal_none hrow hw]
  | some peer =>
    obtain ⟨device, port, -, -, hport, hmem, hnamed⟩ := h.port hw
    rw [Net.target, h.goal_some hrow hw hport, Option.map_some]
    cases hend : ((crawlNet h).farEnd (linkOf store) row.id).filter fun y => (crawlNet h).fits row.id y with
    | none => exact ⟨port, hmem, rfl, hnamed⟩
    | some y =>
      obtain ⟨hfar, hfits⟩ := Option.filter_eq_some_iff.mp hend
      obtain ⟨far, hfmem, rfl⟩ := List.mem_map.mp (Net.farEnd_eq_some.mp hfar).2
      rw [h.fits hrow hfmem hw] at hfits
      exact ⟨far, hfmem, rfl, isNamed_iff.mp hfits⟩

/-- **The links of a crawl**: any order of its payloads links every interface to the
one its payload names exactly when no link to be moved is in another's way. -/
theorem orderFree_iff : OrderFree store payloads ↔ LinksUntangled store payloads := by
  constructor
  · intro hfree
    by_contra hu
    obtain ⟨visits, ⟨ds, hds, hvisits⟩, x, hgoal, hlost⟩ :=
      Net.exists_lost fun hn => hu ((untangled_iff h).mp hn)
    obtain ⟨order, horder, rfl⟩ := exists_perm_filterMap _ hds
    obtain ⟨after, hret, hheld⟩ := exists_ingestAll h (fun _ hl => horder.mem_iff.mp hl) hvisits (holds_self h)
    obtain ⟨row, hrow, rfl⟩ := List.mem_map.mp ((crawlNet h).goal_mem x hgoal).1
    obtain ⟨peer, hw⟩ := Option.isSome_iff_exists.mp ((goal_isSome_iff h hrow).mp hgoal)
    have hp : (payloadOf store payloads row.deviceId).isSome = true := by
      obtain ⟨links, hlinks, -⟩ := Option.bind_eq_some_iff.mp hw
      rw [hlinks]
      rfl
    have hnamed := hfree.named order after horder hret row hrow hp
    rw [hw] at hnamed
    obtain ⟨far, -, hfar, -⟩ := hnamed
    rw [hheld.linkOf h.consistent hrow, hlost] at hfar
    cases hfar
  · intro hu
    refine ⟨fun order after horder hret row hrow hp => ?_,
      fun order after order' after' horder horder' hret hret' row hrow hp => ?_⟩
    · rw [ingestAll_target h hu horder hret hrow hp]
      exact target_named h hrow
    · rw [ingestAll_target h hu horder hret hrow hp, ingestAll_target h hu horder' hret' hrow hp]

end Visit

/-! ## A link lost, and links kept -/

def port (id deviceId : Int) (name : String) (link : Option Int) : Interface :=
  { (NewInterface.mk id "ethernetCsmacd" deviceId name none none none none none).row id with
    connectedInterface := link }

/-- Three switches with the links given of `a1`, `b1` and `c2`. -/
def threeSwitches (a1 b1 c2 : Option Int) : Store where
  devices := ["a", "b", "c"].zipIdx.map fun d =>
    (NewDevice.mk d.1 "lan" none none none none none none).row (d.2 + 1)
  interfaces := [port 1 1 "a1" a1, port 2 2 "b1" b1, port 3 3 "c1" none, port 4 3 "c2" c2]
  clientLocations := []
  weathermapInfos := []
  deviceSeq := 4
  interfaceSeq := 5
  events := []
  topology := none

/-- A payload that names one link. -/
def oneLink (fqdn name peer peerPort : String) : LinkInfo where
  deviceFqdn := fqdn
  interfaces := fun n => if n = name then some (some ⟨peer, "lan", peerPort⟩) else none
  topologyStable := false

theorem oneLink_peer {fqdn name peer peerPort n : String} {p : LinkPeerInfo}
    (h : (oneLink fqdn name peer peerPort).peer n = some p) : n = name ∧ p = ⟨peer, "lan", peerPort⟩ := by
  unfold LinkInfo.peer oneLink at h
  dsimp only at h
  split at h
  · next hn => exact ⟨hn, (Option.some.inj h).symm⟩
  · cases h

/-- `a1` is to move from `b1` to `c2`, and `b1` is linked to `c1` as it should be. -/
def crossedLinks : List LinkInfo := [oneLink "b.lan" "b1" "c" "c1", oneLink "a.lan" "a1" "c" "c2"]

theorem crossed_crawl (a1 b1 : Option Int) (ha : a1 = some 2) (hb : b1 = some 1 ∨ b1 = some 3) :
    Crawl (threeSwitches a1 b1 none) crossedLinks := by
  subst ha
  refine ⟨?_, by decide, by decide, fun links hl name peer hpeer => ?_, ?_⟩
  · rcases hb with rfl | rfl
    · exact ⟨by decide, by decide, by decide⟩
    · exact ⟨by decide, by decide, by decide⟩
  · simp only [crossedLinks, List.mem_cons, List.not_mem_nil, or_false] at hl
    rcases hl with rfl | rfl
    · obtain ⟨-, rfl⟩ := oneLink_peer hpeer
      exact ⟨port 3 3 "c1" none, by simp [threeSwitches], _, rfl, rfl, rfl⟩
    · obtain ⟨-, rfl⟩ := oneLink_peer hpeer
      exact ⟨port 4 3 "c2" none, by simp [threeSwitches], _, rfl, rfl, rfl⟩
  · rcases hb with rfl | rfl <;> decide

/-- Both ends of a link are moved, in any order. -/
theorem orderFree_iff_both_ends : OrderFree (threeSwitches (some 2) (some 1) none) crossedLinks :=
  (orderFree_iff (crossed_crawl _ _ rfl (.inl rfl))).mpr (by decide +kernel)

/-- **A link is lost**: `b1` keeps its link, and then moving that of `a1` clears it. -/
theorem moved_link_clears_another :
    Crawl (threeSwitches (some 2) (some 3) none) crossedLinks ∧
    ¬OrderFree (threeSwitches (some 2) (some 3) none) crossedLinks := by
  refine ⟨crossed_crawl _ _ rfl (.inr rfl), fun hfree => ?_⟩
  have hret := Prog.returns_run Call.exec Succeeds ⟨true, fun _ => 0⟩ rfl
    (ingestAllLinks crossedLinks) (threeSwitches (some 2) (some 3) none)
  have hnamed := hfree.named crossedLinks _ (List.Perm.refl _) hret (port 2 2 "b1" (some 3))
    (by decide) (by decide +kernel)
  have hw : wanted (threeSwitches (some 2) (some 3) none) crossedLinks (port 2 2 "b1" (some 3)) =
    some ⟨"c", "lan", "c1"⟩ := by decide +kernel
  rw [hw] at hnamed
  obtain ⟨far, -, hlink, -⟩ := hnamed
  have hlost : linkOf ((ingestAllLinks crossedLinks).run Call.exec ⟨true, fun _ => 0⟩
    (threeSwitches (some 2) (some 3) none)).2 2 = none := by decide +kernel
  rw [show (port 2 2 "b1" (some 3)).id = 2 from rfl, hlost] at hlink
  cases hlink

end JaspyNexus.Utilities.Discovery
