import Mathlib
import JaspyNexus.Lib.HashMap
import JaspyNexus.Lib.Overwrites
import JaspyNexus.Lib.Runs
import JaspyNexus.Routes.Weathermap

/-! # The graph of the weather map

`updateTopologyData` of `devicegraph.js`, `device.js` and `linkgroup.js`: the map is not drawn
anew but brought up to each response, and objects stay where their keys stay. A link holds on
to the interface object it was made with, and an interface to the one at the far end. -/

namespace JaspyNexus.Weathermap
open JaspyNexus.Lib
open JaspyNexus.Routes.Weathermap (ConnectedTo)

/-- An interface object. The interfaces of a device have distinct names at any time, so the
response that made an object tells it from an earlier one. -/
structure Interface where
  parentDeviceFqdn : String
  name : String
  made : Nat
  deriving DecidableEq, Repr

/-- A device, with the source interface of each link, by the name of the far device and of the
far interface. -/
structure Device where
  interfaces : PMap String Interface
  linkGroups : PMap String (PMap String Interface)

/-- `new Device(key)`. -/
def Device.new : Device := ⟨PMap.empty, PMap.empty⟩

/-- What a response says of a device: its interfaces, with what each is connected to. -/
abbrev TopologyDevice := HashMap String (Option ConnectedTo)

/-- The device of a link, the one at the far end, and the interface there. -/
abbrev LinkKey := String × String × String

/-- A response, with the order in which the links are visited when it has been taken in. -/
structure Response where
  devices : PMap String TopologyDevice
  order : List LinkKey
  covers : ∀ fqdn data name c, devices fqdn = some data → data.lookup name = some (some c) →
    (fqdn, c.fqdn, c.interface) ∈ order

/-- The map. `links` has the links in the order they were visited in, and `topology` is what the
last response said, which the code does not keep. -/
structure DeviceGraph where
  responses : Nat
  devices : PMap String Device
  links : List LinkKey
  /-- `connectedToInterface` of each interface object -/
  connectedTo : Interface → Option Interface
  topology : PMap String TopologyDevice

namespace Device
variable (device : Device) (fqdn : String) (made : Nat) (data : TopologyDevice)

/-- The interface object of a name, made if there is none. -/
def interfaceOf (name : String) : Interface := (device.interfaces name).getD ⟨fqdn, name, made⟩

/-- `linkGroupUpdates`: where two interfaces are connected to one, the later is kept. -/
def linkGroupUpdates : PMap String (PMap String Interface) :=
  data.entries.foldl (fun updates e => match e.2 with
    | some c => Nested.insert updates c.fqdn c.interface (device.interfaceOf fqdn made e.1)
    | none => updates) PMap.empty

/-- `LinkGroup.updateTopologyData`: a link that is there stays as it is. -/
def updateLinks (links updates : PMap String Interface) : PMap String Interface :=
  fun remote => (updates remote).map fun source => (links remote).getD source

/-- `Device.updateTopologyData`. -/
def updateTopologyData : Device where
  interfaces name := if name ∈ data then some (device.interfaceOf fqdn made name) else none
  linkGroups remote := (device.linkGroupUpdates fqdn made data remote).map
    (updateLinks ((device.linkGroups remote).getD PMap.empty))

end Device

namespace DeviceGraph

def start : DeviceGraph := ⟨0, PMap.empty, [], fun _ => none, PMap.empty⟩

/-- The source interface of a link. -/
def linkIn (devices : PMap String Device) (key : LinkKey) : Option Interface :=
  (devices key.1).bind fun device => Nested.get device.linkGroups key.2.1 key.2.2

def link (graph : DeviceGraph) : LinkKey → Option Interface := linkIn graph.devices

/-- The interface object of a name. -/
def interface? (graph : DeviceGraph) (fqdn name : String) : Option Interface :=
  (graph.devices fqdn).bind fun device => device.interfaces name

/-- What `updateTargetInfo` writes for a link: nothing when the far device is not there. -/
def targetInfo (devices : PMap String Device) (key : LinkKey) : Option (Interface × Option Interface) :=
  match linkIn devices key, devices key.2.1 with
  | some source, some target => some (source, target.interfaces key.2.2)
  | _, _ => none

/-- `DeviceGraph.updateTopologyData`. The links that go let go of the far end before those that
stay take hold of it. -/
def updateTopologyData (graph : DeviceGraph) (r : Response) : DeviceGraph :=
  let devices : PMap String Device := fun fqdn => (r.devices fqdn).map fun data =>
    ((graph.devices fqdn).getD .new).updateTopologyData fqdn graph.responses data
  let destroyed := graph.links.filter fun key => (linkIn devices key).isNone
  let released : Interface → Option Interface := fun i =>
    if destroyed.any fun key => graph.link key = some i then none else graph.connectedTo i
  { responses := graph.responses + 1
    devices := devices
    links := r.order
    connectedTo := Overwrites.overwriteAll (targetInfo devices) r.order released
    topology := r.devices }

def run (responses : List Response) : DeviceGraph := responses.foldl updateTopologyData start

end DeviceGraph

/-! ## What the map should be -/

/-- The interface whose link is drawn: the last one that is connected there. -/
def sourceOf (data : TopologyDevice) (remote interface : String) : Option String :=
  (data.entries.filterMap fun e => if e.2 = some ⟨remote, interface⟩ then some e.1 else none).getLast?

namespace DeviceGraph

/-- **The map has the shape of the last response**: its devices, their interfaces and their
links, each interface object is what it is kept as, and only one with a link has a far end. -/
structure Shaped (graph : DeviceGraph) : Prop where
  devices : ∀ fqdn, (graph.devices fqdn).isSome = (graph.topology fqdn).isSome
  interfaces : ∀ fqdn data name, graph.topology fqdn = some data →
    ((graph.interface? fqdn name).isSome ↔ name ∈ data)
  named : ∀ fqdn name i, graph.interface? fqdn name = some i → i.parentDeviceFqdn = fqdn ∧ i.name = name
  links : ∀ fqdn data remote interface, graph.topology fqdn = some data →
    (graph.link (fqdn, remote, interface)).isSome = (sourceOf data remote interface).isSome
  visited : ∀ key i, graph.link key = some i → key ∈ graph.links
  lone : ∀ i, graph.connectedTo i ≠ none → ∃ key, graph.link key = some i

/-- **The links of the map are those of the last response**: each starts at the interface object
that is connected there, and this one knows the object at the far end. -/
structure Faithful (graph : DeviceGraph) : Prop where
  source : ∀ fqdn data remote interface name, graph.topology fqdn = some data →
    sourceOf data remote interface = some name →
    graph.link (fqdn, remote, interface) = graph.interface? fqdn name
  target : ∀ fqdn remote interface i, graph.link (fqdn, remote, interface) = some i →
    (graph.topology remote).isSome → graph.connectedTo i = graph.interface? remote interface

/-- A far interface is on another port of the same device now. -/
def Moved (graph : DeviceGraph) (r : Response) : Prop :=
  ∃ fqdn data remote interface i name, graph.link (fqdn, remote, interface) = some i ∧
    r.devices fqdn = some data ∧ sourceOf data remote interface = some name ∧ i.name ≠ name

end DeviceGraph

/-! ## What a response does -/

theorem lookup_of_sourceOf {data : TopologyDevice} {remote interface name : String}
    (h : sourceOf data remote interface = some name) : data.lookup name = some (some ⟨remote, interface⟩) := by
  have hmem := List.mem_of_getLast? h
  obtain ⟨e, he, hsome⟩ := List.mem_filterMap.mp hmem
  split at hsome
  · next hconn =>
    obtain rfl := Option.some.inj hsome
    rw [← hconn]
    exact HashMap.mem_entries.mp he
  · cases hsome

theorem mem_of_sourceOf {data : TopologyDevice} {remote interface name : String}
    (h : sourceOf data remote interface = some name) : name ∈ data :=
  HashMap.mem_iff_lookup.mpr ⟨_, lookup_of_sourceOf h⟩

namespace Device

theorem get_linkGroupUpdates (device : Device) (fqdn : String) (made : Nat) (data : TopologyDevice)
    (remote interface : String) :
    Nested.get (device.linkGroupUpdates fqdn made data) remote interface =
      (sourceOf data remote interface).map (device.interfaceOf fqdn made) := by
  unfold linkGroupUpdates sourceOf
  induction data.entries using List.reverseRecOn with
  | nil => rfl
  | append_singleton rows e ih =>
    rw [List.foldl_append, List.foldl_cons, List.foldl_nil, List.filterMap_append, List.getLast?_append]
    obtain ⟨name, c⟩ := e
    cases c with
    | none => simpa using ih
    | some c =>
      dsimp only
      rw [Nested.get_insert]
      by_cases hc : c = ⟨remote, interface⟩
      · subst hc
        simp
      · have hne : ¬(remote = c.fqdn ∧ interface = c.interface) := fun ⟨hf, hi⟩ => hc (by rw [hf, hi])
        rw [if_neg hne, ih]
        simp [hc]

end Device

namespace DeviceGraph
variable (graph : DeviceGraph) (r : Response)

/-- The interface object that a response leaves under a name. -/
def kept (fqdn name : String) : Interface := (graph.interface? fqdn name).getD ⟨fqdn, name, graph.responses⟩

theorem interfaceOf_eq (fqdn name : String) :
    ((graph.devices fqdn).getD .new).interfaceOf fqdn graph.responses name = graph.kept fqdn name := by
  unfold Device.interfaceOf kept interface?
  cases graph.devices fqdn <;> rfl

theorem interface?_update (fqdn name : String) : (graph.updateTopologyData r).interface? fqdn name =
    (r.devices fqdn).bind fun data => if name ∈ data then some (graph.kept fqdn name) else none := by
  unfold interface? updateTopologyData
  dsimp only
  cases r.devices fqdn with
  | none => rfl
  | some data =>
    simp only [Option.map_some, Option.bind_some, Device.updateTopologyData, interfaceOf_eq]

/-- **A link that was there keeps its interface object**; a new one takes the one of the
response. -/
theorem link_update (fqdn remote interface : String) :
    (graph.updateTopologyData r).link (fqdn, remote, interface) =
      (r.devices fqdn).bind fun data => (sourceOf data remote interface).map fun name =>
        (graph.link (fqdn, remote, interface)).getD (graph.kept fqdn name) := by
  unfold link linkIn updateTopologyData
  dsimp only
  cases r.devices fqdn with
  | none => rfl
  | some data =>
    have hold : (graph.devices fqdn).bind (fun device => Nested.get device.linkGroups remote interface) =
        (((graph.devices fqdn).getD .new).linkGroups remote).getD PMap.empty interface := by
      cases graph.devices fqdn with
      | none => rfl
      | some device =>
        simp only [Option.bind_some, Option.getD_some, Nested.get]
        cases device.linkGroups remote <;> rfl
    have hupdates := Device.get_linkGroupUpdates ((graph.devices fqdn).getD .new) fqdn graph.responses data
      remote interface
    simp only [Option.map_some, Option.bind_some, hold]
    rw [Nested.get] at hupdates ⊢
    simp only [Device.updateTopologyData]
    cases hgroup : ((graph.devices fqdn).getD .new).linkGroupUpdates fqdn graph.responses data remote with
    | none =>
      rw [hgroup, Option.bind_none] at hupdates
      rw [Option.map_none, Option.bind_none, Option.map_eq_none_iff.mp hupdates.symm]
      rfl
    | some updates =>
      rw [hgroup, Option.bind_some] at hupdates
      simp only [Option.map_some, Option.bind_some, Device.updateLinks, hupdates, Option.map_map,
        Function.comp_def, interfaceOf_eq]

variable {graph r}

theorem targetInfo_eq_some {devices : PMap String Device} {key : LinkKey} {i : Interface} {v : Option Interface} :
    targetInfo devices key = some (i, v) ↔
      linkIn devices key = some i ∧ ∃ target, devices key.2.1 = some target ∧ target.interfaces key.2.2 = v := by
  unfold targetInfo
  cases linkIn devices key with
  | none => simp
  | some source =>
    cases devices key.2.1 with
    | none => simp
    | some target => simp

theorem link_update_of_some {key : LinkKey} {i : Interface} (hold : graph.link key = some i)
    (hnew : (graph.updateTopologyData r).link key ≠ none) : (graph.updateTopologyData r).link key = some i := by
  obtain ⟨fqdn, remote, interface⟩ := key
  rw [link_update, hold] at hnew ⊢
  cases hdata : r.devices fqdn with
  | none => simp [hdata] at hnew
  | some data =>
    cases hsource : sourceOf data remote interface with
    | none => simp [hdata, hsource] at hnew
    | some name => simp [hsource]

theorem shaped_start : start.Shaped := by
  constructor <;> intros <;> first | rfl | contradiction

/-- **Every response gives the map its shape.** -/
theorem Shaped.update (h : graph.Shaped) (r : Response) : (graph.updateTopologyData r).Shaped where
  devices fqdn := by
    show ((r.devices fqdn).map _).isSome = (r.devices fqdn).isSome
    rw [Option.isSome_map]
  interfaces fqdn data name hdata := by
    rw [interface?_update, show r.devices fqdn = some data from hdata, Option.bind_some]
    split <;> simp [*]
  named fqdn name i hi := by
    rw [interface?_update] at hi
    obtain ⟨data, -, hi⟩ := Option.bind_eq_some_iff.mp hi
    split at hi
    · obtain rfl := Option.some.inj hi
      unfold kept
      cases hold : graph.interface? fqdn name with
      | none => exact ⟨rfl, rfl⟩
      | some i => exact h.named fqdn name i hold
    · cases hi
  links fqdn data remote interface hdata := by
    rw [link_update, show r.devices fqdn = some data from hdata, Option.bind_some, Option.isSome_map]
  visited key i hi := by
    obtain ⟨fqdn, remote, interface⟩ := key
    rw [link_update] at hi
    obtain ⟨data, hdata, hi⟩ := Option.bind_eq_some_iff.mp hi
    obtain ⟨name, hsource, -⟩ := Option.map_eq_some_iff.mp hi
    exact r.covers fqdn data name ⟨remote, interface⟩ hdata (lookup_of_sourceOf hsource)
  lone i hi := by
    have hexplained : Overwrites.Explained (targetInfo (graph.updateTopologyData r).devices) r.order
        (fun i => if (graph.links.filter fun key => (linkIn (graph.updateTopologyData r).devices key).isNone).any
          fun key => graph.link key = some i then none else graph.connectedTo i) i
        ((graph.updateTopologyData r).connectedTo i) := Overwrites.explained_overwriteAll _ _ _
    rcases hexplained with ⟨key, -, hkey⟩ | ⟨-, hreleased⟩
    · exact ⟨key, (targetInfo_eq_some.mp hkey).1⟩
    · -- the link it had was not destroyed
      rw [hreleased] at hi
      dsimp only at hi
      split at hi
      · exact absurd rfl hi
      · next hany =>
        obtain ⟨key, hkey⟩ := h.lone i hi
        refine ⟨key, link_update_of_some hkey fun hnone => hany ?_⟩
        refine List.any_eq_true.mpr ⟨key, List.mem_filter.mpr ⟨h.visited key i hkey, ?_⟩, decide_eq_true hkey⟩
        exact Option.isNone_iff_eq_none.mpr hnone

/-- **A response leaves the links right exactly when no far interface moved** from one port of a
device to another. -/
theorem faithful_update_iff (h : graph.Shaped) (hf : graph.Faithful) (r : Response) :
    (graph.updateTopologyData r).Faithful ↔ ¬graph.Moved r := by
  have hs := h.update r
  constructor
  · rintro hf' ⟨fqdn, data, remote, interface, i, name, hi, hdata, hsource, hne⟩
    have hlink := hf'.source fqdn data remote interface name hdata hsource
    have hnew : (graph.updateTopologyData r).link (fqdn, remote, interface) ≠ none := by
      have hsome := hs.links fqdn data remote interface hdata
      rw [hsource] at hsome
      exact Option.isSome_iff_ne_none.mp hsome
    rw [link_update_of_some hi hnew] at hlink
    exact hne (hs.named fqdn name i hlink.symm).2
  · intro hmoved
    -- each link starts at the object of the response
    have hsource : ∀ fqdn data remote interface name, r.devices fqdn = some data →
        sourceOf data remote interface = some name →
        (graph.updateTopologyData r).link (fqdn, remote, interface) = some (graph.kept fqdn name) := by
      intro fqdn data remote interface name hdata hsource
      rw [link_update, hdata, Option.bind_some, hsource, Option.map_some]
      cases hold : graph.link (fqdn, remote, interface) with
      | none => rfl
      | some i =>
        rw [Option.getD_some]
        have hname : i.name = name := by
          by_contra hne
          exact hmoved ⟨fqdn, data, remote, interface, i, name, hold, hdata, hsource, hne⟩
        -- the link was right before, so the object is the one of its name
        obtain ⟨old, hold_data⟩ : ∃ old, graph.topology fqdn = some old := by
          rw [← Option.isSome_iff_exists, ← h.devices]
          cases hd : graph.devices fqdn with
          | none => simp [link, linkIn, hd] at hold
          | some device => rfl
        have hlinks := h.links fqdn old remote interface hold_data
        rw [hold] at hlinks
        obtain ⟨oldName, holdName⟩ := Option.isSome_iff_exists.mp hlinks.symm
        have hobject := hf.source fqdn old remote interface oldName hold_data holdName
        rw [hold] at hobject
        have holdEq := (h.named fqdn oldName i hobject.symm).2
        rw [kept, ← hname, holdEq, ← hobject, Option.getD_some]
    have hobject : ∀ fqdn data name, r.devices fqdn = some data → name ∈ data →
        (graph.updateTopologyData r).interface? fqdn name = some (graph.kept fqdn name) := by
      intro fqdn data name hdata hname
      rw [interface?_update, hdata, Option.bind_some, if_pos hname]
    refine ⟨fun fqdn data remote interface name hdata hname => ?_, fun fqdn remote interface i hi htarget => ?_⟩
    · rw [hsource fqdn data remote interface name hdata hname,
        hobject fqdn data name hdata (mem_of_sourceOf hname)]
    · -- no other link starts at the object
      have hunique : ∀ fqdn remote interface i, (graph.updateTopologyData r).link (fqdn, remote, interface) = some i →
          ∃ data, r.devices fqdn = some data ∧ i.parentDeviceFqdn = fqdn ∧
            data.lookup i.name = some (some ⟨remote, interface⟩) := by
        intro fqdn remote interface i hi
        have hi' := hi
        rw [link_update] at hi'
        obtain ⟨data, hdata, hi'⟩ := Option.bind_eq_some_iff.mp hi'
        obtain ⟨name, hname, -⟩ := Option.map_eq_some_iff.mp hi'
        rw [hsource fqdn data remote interface name hdata hname] at hi
        obtain rfl := Option.some.inj hi
        have hnamed := hs.named fqdn name _ (hobject fqdn data name hdata (mem_of_sourceOf hname))
        exact ⟨data, hdata, hnamed.1, by rw [hnamed.2]; exact lookup_of_sourceOf hname⟩
      obtain ⟨target, htarget'⟩ : ∃ target, (graph.updateTopologyData r).devices remote = some target := by
        rw [← Option.isSome_iff_exists, hs.devices]
        exact htarget
      have hvalue : (graph.updateTopologyData r).interface? remote interface = target.interfaces interface := by
        rw [interface?, htarget', Option.bind_some]
      rw [hvalue]
      obtain ⟨data, hdata, hfqdn, hlookup⟩ := hunique fqdn remote interface i hi
      refine Overwrites.overwriteAll_of_agree (fun key _ v hkey => ?_)
        ⟨(fqdn, remote, interface), hs.visited _ i hi, targetInfo_eq_some.mpr ⟨hi, target, htarget', rfl⟩⟩ _
      obtain ⟨hlink, target', htarget'', rfl⟩ := targetInfo_eq_some.mp hkey
      obtain ⟨fqdn', remote', interface'⟩ := key
      obtain ⟨data', hdata', hfqdn', hlookup'⟩ := hunique fqdn' remote' interface' i hlink
      obtain rfl := hfqdn.symm.trans hfqdn'
      rw [hdata] at hdata'
      obtain rfl := Option.some.inj hdata'
      rw [hlookup] at hlookup'
      simp only [Option.some.injEq, ConnectedTo.mk.injEq] at hlookup'
      obtain ⟨rfl, rfl⟩ := hlookup'
      rw [htarget'] at htarget''
      rw [Option.some.inj htarget'']

/-- **The map over any run of responses**: it always has the shape of the last one; and its links
start and end at the right interfaces throughout exactly when no response moves a far interface
from one port of a device to another while the link is drawn. -/
theorem graphFaithful_run_iff (responses : List Response) :
    (∀ pre, pre <+: responses → (run pre).Shaped) ∧
    ((∀ pre, pre <+: responses → (run pre).Faithful) ↔
      Runs.Allowed updateTopologyData (fun graph r => ¬graph.Moved r) start responses) := by
  have hstart : start.Faithful := by
    constructor <;> intros <;> contradiction
  refine ⟨fun pre _ => Runs.foldl_inv Shaped (fun _ r h => h.update r) pre shaped_start, ?_⟩
  exact (Runs.allowed_iff Faithful Shaped (fun _ r h => h.update r)
    (fun _ r hs hf => faithful_update_iff hs hf r) shaped_start hstart).symm

/-- A device with two ports, one of which is cabled to another device. -/
def cabled (port : String) : Response where
  devices fqdn :=
    if fqdn = "a.lan" then
      some ⟨[⟨"p1", if port = "p1" then some ⟨"b.lan", "q"⟩ else none⟩,
        ⟨"p2", if port = "p2" then some ⟨"b.lan", "q"⟩ else none⟩], by simp [List.nodupKeys_cons]⟩
    else none
  order := [("a.lan", "b.lan", "q")]
  covers fqdn data name c hdata hc := by
    split at hdata
    · next hfqdn =>
      obtain rfl := Option.some.inj hdata
      have hmem := HashMap.mem_entries.mpr hc
      simp only [List.mem_cons, List.not_mem_nil, or_false, Sigma.mk.injEq, heq_eq_eq] at hmem
      rcases hmem with ⟨-, hc⟩ | ⟨-, hc⟩ <;> split at hc <;> cases hc <;> simp [hfqdn]
    · cases hdata

/-- The cable is put into the other port: the link stays with the old one. -/
example : ((run [cabled "p1", cabled "p2"]).link ("a.lan", "b.lan", "q")).map Interface.name = some "p1" := by
  decide

end DeviceGraph

end JaspyNexus.Weathermap
