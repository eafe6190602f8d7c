import Mathlib
import JaspyNexus.Collectors.LinksSound

/-! # Links in any order of visits

The map of devices and those of interfaces are visited in an order that nothing decides.
Where several detected devices share a chassis id, or several interfaces of a neighbour
point back to one port, the first to be visited is taken. What that may lead to is stated
here without an order, over what is known of each device; the order matters for exactly
the sets of devices in which it matters what is taken. -/

namespace JaspyNexus.Collectors.Discovery.Links
open JaspyNexus.Lib JaspyNexus.Utilities.Discovery

/-! ## Orders -/

/-- The same device, its interfaces in another order. -/
def DetectedDevice.Rearranged (device device' : DetectedDevice) : Prop :=
  ∃ interfaces, device.interfaces.Reorders interfaces ∧ device' = { device with interfaces := interfaces }

/-- The same devices, in another order, and the interfaces of each. -/
def Rearranged (detected detected' : HashMap String DetectedDevice) : Prop :=
  ∀ fqdn, Option.Rel DetectedDevice.Rearranged (detected.lookup fqdn) (detected'.lookup fqdn)

theorem DetectedDevice.Rearranged.refl (device : DetectedDevice) : device.Rearranged device :=
  ⟨device.interfaces, HashMap.Reorders.refl _, rfl⟩

theorem DetectedDevice.Rearranged.trans {a b c : DetectedDevice} (hab : a.Rearranged b)
    (hbc : b.Rearranged c) : a.Rearranged c := by
  obtain ⟨m, hm, rfl⟩ := hab
  obtain ⟨m', hm', rfl⟩ := hbc
  exact ⟨m', hm.trans hm', rfl⟩

section Rearranged
variable {detected detected' detected'' : HashMap String DetectedDevice}

theorem rearranged_of_lookup (h : ∀ fqdn, detected.lookup fqdn = detected'.lookup fqdn) :
    Rearranged detected detected' := by
  intro fqdn
  rw [← h fqdn]
  cases detected.lookup fqdn with
  | none => exact .none
  | some device => exact .some (.refl device)

theorem Rearranged.refl (detected : HashMap String DetectedDevice) : Rearranged detected detected :=
  rearranged_of_lookup fun _ => rfl

theorem Rearranged.trans (h : Rearranged detected detected') (h' : Rearranged detected' detected'') :
    Rearranged detected detected'' := by
  intro fqdn
  have hab := h fqdn
  have hbc := h' fqdn
  revert hab hbc
  generalize detected.lookup fqdn = a, detected'.lookup fqdn = b, detected''.lookup fqdn = c
  intro hab hbc
  cases hab with
  | none => exact hbc
  | some hab =>
    cases hbc with
    | some hbc => exact .some (hab.trans hbc)

end Rearranged

/-! ## What is known of the devices -/

/-- What link resolution reads of a device. -/
structure DeviceFacts where
  fqdn : String
  chassisId : Option String
  namedPort : String → String → Option (Option Int)
  cdpPort : String → Option Int
  interfaces : PMap Int DiscoveredIface

abbrev Topology := PMap String DeviceFacts

def DetectedDevice.facts (device : DetectedDevice) : DeviceFacts where
  fqdn := device.fqdn
  chassisId := device.getChassisId
  namedPort := device.lookupPortByLldpRemoteInfo
  cdpPort := device.lookupPortByCdpInfo
  interfaces := device.interfaces.lookup

def topology (detected : HashMap String DetectedDevice) : Topology := fun fqdn =>
  (detected.lookup fqdn).map (·.facts)

theorem DetectedDevice.Rearranged.facts {device device' : DetectedDevice} (h : device.Rearranged device') :
    device'.facts = device.facts := by
  obtain ⟨interfaces, horder, rfl⟩ := h
  have hlookup : interfaces.lookup = device.interfaces.lookup := funext fun k => (horder.lookup k).symm
  show DeviceFacts.mk _ _ _ _ interfaces.lookup = DeviceFacts.mk _ _ _ _ device.interfaces.lookup
  rw [hlookup]
  rfl

theorem Rearranged.topology {detected detected' : HashMap String DetectedDevice}
    (h : Rearranged detected detected') : topology detected' = topology detected := by
  funext fqdn
  have hboth := h fqdn
  unfold Links.topology
  revert hboth
  generalize detected.lookup fqdn = a, detected'.lookup fqdn = b
  intro hboth
  cases hboth with
  | none => rfl
  | some h => exact congrArg some h.facts

/-! ## What may be taken for what -/

/-- Which device each chassis id is taken for: one that has it, when there is one. -/
structure Settles (t : Topology) (taken : PMap String String) : Prop where
  sound : ∀ chassisId fqdn, taken chassisId = some fqdn →
    ∃ device, t fqdn = some device ∧ device.chassisId = some chassisId
  complete : ∀ chassisId fqdn device, t fqdn = some device → device.chassisId = some chassisId →
    taken chassisId ≠ none

section Search
variable (refersTo : DiscoveredIface → Option Reference) (interfaces : PMap Int DiscoveredIface)

/-- An interface refers to the device, but does not point back to the port. -/
def RefersAt (k : Int) : Prop := ∃ iface, interfaces k = some iface ∧ refersTo iface = some .device

/-- No interface points back, and all can be read. -/
def NoneBack : Prop :=
  ∀ k iface, interfaces k = some iface → refersTo iface = some .no ∨ refersTo iface = some .device

/-- Where a search in reverse may end: at any interface that points back, and, when none
does, at the only one that refers to the device. It goes wrong at any that cannot be read. -/
inductive SearchIn : Option (Option Int) → Prop
  | back {k : Int} {iface : DiscoveredIface} : interfaces k = some iface → refersTo iface = some .port →
    SearchIn (some (some iface.ifindex))
  | panics {k : Int} {iface : DiscoveredIface} : interfaces k = some iface → refersTo iface = none →
    SearchIn none
  | only {k : Int} {iface : DiscoveredIface} : NoneBack refersTo interfaces →
    interfaces k = some iface → refersTo iface = some .device →
    (∀ k', RefersAt refersTo interfaces k' → k' = k) → SearchIn (some (some iface.ifindex))
  | givesUp : NoneBack refersTo interfaces →
    (∀ k, RefersAt refersTo interfaces k → ∃ k', RefersAt refersTo interfaces k' ∧ k' ≠ k) →
    SearchIn (some none)

end Search

section In
variable (params : RunParams) (network : Network) (t : Topology) (taken : PMap String String)

/-- The device that an entry is taken for. -/
def neighborIn (descriptor : LldpNeighbor) : Option String :=
  ((tryResolve params network descriptor.remSysName).filter fun fqdn => (t fqdn).isSome).or
    (taken (colond descriptor.remChassisId))

variable (localDeviceFqdn : String) (localPortIfindex : Int)

def entryReferenceIn (revDescriptor : LldpNeighbor) : Option Reference :=
  match (neighborIn params network t taken revDescriptor).bind t with
  | none => some .no
  | some device =>
    if device.fqdn = localDeviceFqdn then
      (device.namedPort revDescriptor.remPortId revDescriptor.remPortIdSubtype).map fun port =>
        if port = some localPortIfindex then .port else .device
    else some .no

def interfaceReferenceIn (revInterface : DiscoveredIface) : Option Reference :=
  references (entryReferenceIn params network t taken localDeviceFqdn localPortIfindex) revInterface.lldp .no

/-- The port of a device that an entry may lead to. -/
def PortIn (descriptor : LldpNeighbor) (device : DeviceFacts) (out : Option (Option Int)) : Prop :=
  match device.namedPort descriptor.remPortId descriptor.remPortIdSubtype with
  | some none =>
    SearchIn (interfaceReferenceIn params network t taken localDeviceFqdn localPortIfindex)
      device.interfaces out
  | named => out = named

/-- The device and the port that an entry may lead to. -/
def LinkIn (descriptor : LldpNeighbor) (out : Option (Option (String × Int))) : Prop :=
  match (neighborIn params network t taken descriptor).bind t with
  | none => out = some none
  | some device =>
    ∃ port, PortIn params network t taken localDeviceFqdn localPortIfindex descriptor device port ∧
      out = port.map fun port => port.map fun port => (device.fqdn, port)

def cdpLinkIn (interface : DiscoveredIface) : Option (String × Int) :=
  interface.cdp.bind fun descriptor =>
    ((tryResolve params network descriptor.deviceId).bind t).bind fun device =>
      (device.cdpPort descriptor.devicePort).map fun port => (device.fqdn, port)

/-- **No tie matters**: each interface has one link, whichever device a shared chassis id
is taken for and whichever of several interfaces that point back, and every port id that
may be looked up can be read. -/
def TiesAgree : Prop :=
  ∀ fqdn device ifindex iface, t fqdn = some device → device.interfaces ifindex = some iface →
    ∃ link, ∀ taken, Settles t taken → ∀ out,
      FirstIn (LinkIn params network t taken fqdn ifindex) iface.lldp out →
      out.map (fun lldp => lldp.or (cdpLinkIn params network t iface)) = some link

end In

/-! ## A search in reverse -/

section Search
variable {refersTo : DiscoveredIface → Option Reference} {interfaces : PMap Int DiscoveredIface}

theorem NoneBack.not_port {k : Int} {iface : DiscoveredIface} (h : NoneBack refersTo interfaces)
    (hk : interfaces k = some iface) : refersTo iface ≠ some .port ∧ refersTo iface ≠ none := by
  rcases h k iface hk with href | href <;> rw [href] <;> exact ⟨nofun, nofun⟩

/-- Without an interface that points back or cannot be read, there is one outcome. -/
theorem SearchIn.unique {out out' : Option (Option Int)} (hback : NoneBack refersTo interfaces)
    (h : SearchIn refersTo interfaces out) (h' : SearchIn refersTo interfaces out') : out = out' := by
  cases h with
  | back hk href => exact absurd href (hback.not_port hk).1
  | panics hk href => exact absurd href (hback.not_port hk).2
  | only _ hk href hunique =>
    cases h' with
    | back hk' href' => exact absurd href' (hback.not_port hk').1
    | panics hk' href' => exact absurd href' (hback.not_port hk').2
    | only _ hk' href' _ =>
      obtain rfl := hunique _ ⟨_, hk', href'⟩
      rw [hk] at hk'
      rw [Option.some.inj hk']
    | givesUp _ hmore =>
      obtain ⟨k', hk', hne⟩ := hmore _ ⟨_, hk, href⟩
      exact absurd (hunique k' hk') hne
  | givesUp _ hmore =>
    cases h' with
    | back hk' href' => exact absurd href' (hback.not_port hk').1
    | panics hk' href' => exact absurd href' (hback.not_port hk').2
    | only _ hk href hunique =>
      obtain ⟨k', hk', hne⟩ := hmore _ ⟨_, hk, href⟩
      exact absurd (hunique k' hk') hne
    | givesUp => rfl

/-- What a search in reverse ends in, from what it has counted. -/
theorem searchReverse_of_noneBack {ifaces : List DiscoveredIface} {numRefs : Nat} {last : Option Int}
    (h : ∀ iface ∈ ifaces, refersTo iface = some .no ∨ refersTo iface = some .device) :
    searchReverse refersTo ifaces numRefs last =
      some (if numRefs + (ifaces.filter fun iface => refersTo iface = some .device).length = 1 then
        ((ifaces.filter fun iface => refersTo iface = some .device).getLast?.map (·.ifindex)).or last
      else none) := by
  induction ifaces generalizing numRefs last with
  | nil => rfl
  | cons iface rest ih =>
    have hrest := fun iface hiface => h iface (List.mem_cons_of_mem _ hiface)
    unfold searchReverse
    rcases h iface List.mem_cons_self with href | href
    · rw [href]
      show searchReverse refersTo rest numRefs last = _
      rw [ih hrest]
      simp [href]
    · rw [href]
      show searchReverse refersTo rest (numRefs + 1) (some iface.ifindex) = _
      rw [ih hrest, List.filter_cons_of_pos (by simp [href]), List.length_cons, Nat.add_right_comm,
        Nat.add_assoc, List.getLast?_cons]
      cases (rest.filter fun iface => refersTo iface = some .device).getLast? <;> rfl

/-- An interface that points back or cannot be read decides the search where it is first. -/
theorem searchReverse_of_back {ifaces : List DiscoveredIface} (numRefs : Nat) (last : Option Int)
    (h : ¬∀ iface ∈ ifaces, refersTo iface = some .no ∨ refersTo iface = some .device) :
    ∃ iface ∈ ifaces, (refersTo iface = some .port ∧
        searchReverse refersTo ifaces numRefs last = some (some iface.ifindex)) ∨
      (refersTo iface = none ∧ searchReverse refersTo ifaces numRefs last = none) := by
  induction ifaces generalizing numRefs last with
  | nil => exact absurd (by simp) h
  | cons iface rest ih =>
    unfold searchReverse
    have hlater : (refersTo iface = some .no ∨ refersTo iface = some .device) →
        ¬∀ iface ∈ rest, refersTo iface = some .no ∨ refersTo iface = some .device :=
      fun hfirst hrest => h (List.forall_mem_cons.mpr ⟨hfirst, hrest⟩)
    cases href : refersTo iface with
    | none => exact ⟨iface, List.mem_cons_self, .inr ⟨href, rfl⟩⟩
    | some ref =>
      cases ref with
      | port => exact ⟨iface, List.mem_cons_self, .inl ⟨href, rfl⟩⟩
      | no =>
        obtain ⟨found, hfound, hend⟩ := ih _ _ (hlater (.inl href))
        exact ⟨found, List.mem_cons_of_mem _ hfound, hend⟩
      | device =>
        obtain ⟨found, hfound, hend⟩ := ih _ _ (hlater (.inr href))
        exact ⟨found, List.mem_cons_of_mem _ hfound, hend⟩

variable {m : HashMap Int DiscoveredIface}

/-- **A search in reverse ends where it may.** -/
theorem searchIn_searchReverse :
    SearchIn refersTo m.lookup (searchReverse refersTo m.values 0 none) := by
  by_cases hnone : ∀ iface ∈ m.values, refersTo iface = some .no ∨ refersTo iface = some .device
  · have hback : NoneBack refersTo m.lookup := fun k iface hk => hnone iface (HashMap.mem_values.mpr ⟨k, hk⟩)
    have hfilter : (m.values.filter fun iface => refersTo iface = some .device) =
        (m.entries.filter fun e => refersTo e.2 = some .device).map Sigma.snd := by
      simp [HashMap.values, List.filter_map, Function.comp_def]
    rw [searchReverse_of_noneBack hnone, hfilter]
    have hrefers : ∀ e ∈ m.entries.filter fun e => refersTo e.2 = some .device,
        m.lookup e.1 = some e.2 ∧ refersTo e.2 = some .device := by
      intro e he
      obtain ⟨hmem, href⟩ := List.mem_filter.mp he
      exact ⟨HashMap.mem_entries.mp hmem, of_decide_eq_true href⟩
    have hall : ∀ k, RefersAt refersTo m.lookup k →
        ∃ e ∈ m.entries.filter fun e => refersTo e.2 = some .device, e.1 = k := by
      intro k hrefersAt
      obtain ⟨iface, hk, href⟩ := hrefersAt
      exact ⟨⟨k, iface⟩, List.mem_filter.mpr ⟨HashMap.mem_entries.mpr hk, decide_eq_true href⟩, rfl⟩
    have hkeys : (m.entries.filter fun e => refersTo e.2 = some .device).NodupKeys :=
      m.nodupKeys.sublist List.filter_sublist
    revert hrefers hall hkeys
    generalize (m.entries.filter fun e => refersTo e.2 = some .device) = picked
    intro hrefers hall hkeys
    cases picked with
    | nil =>
      refine .givesUp hback fun k hk => ?_
      obtain ⟨e, he, -⟩ := hall k hk
      cases he
    | cons e rest =>
      obtain ⟨hk, href⟩ := hrefers e List.mem_cons_self
      cases rest with
      | nil =>
        refine .only hback hk href fun k' hk' => ?_
        obtain ⟨e', he', rfl⟩ := hall k' hk'
        rw [List.mem_singleton.mp he']
      | cons e' rest =>
        have hne : e'.1 ≠ e.1 := fun heq =>
          (List.nodupKeys_cons.mp hkeys).1 (heq ▸ List.mem_keys_of_mem (List.mem_cons_self))
        obtain ⟨hk', href'⟩ := hrefers e' (List.mem_cons_of_mem _ List.mem_cons_self)
        rw [if_neg (by simp)]
        refine .givesUp hback fun k _ => ?_
        by_cases hkey : k = e.1
        · exact ⟨e'.1, ⟨e'.2, hk', href'⟩, hkey ▸ hne⟩
        · exact ⟨e.1, ⟨e.2, hk, href⟩, Ne.symm hkey⟩
  · obtain ⟨iface, hiface, hend⟩ := searchReverse_of_back 0 none hnone
    obtain ⟨k, hk⟩ := HashMap.mem_values.mp hiface
    rcases hend with ⟨href, hend⟩ | ⟨href, hend⟩
    · exact hend ▸ .back hk href
    · exact hend ▸ .panics hk href

/-- **It may end anywhere it may**: some order of the interfaces makes it. -/
theorem exists_searchReverse {out : Option (Option Int)} (h : SearchIn refersTo m.lookup out) :
    ∃ m', m.Reorders m' ∧ searchReverse refersTo m'.values 0 none = out := by
  cases h with
  | @back k iface hk href =>
    obtain ⟨rest, hvalues⟩ := HashMap.values_toFront hk
    refine ⟨_, HashMap.reorders_toFront fun e => decide (e.1 = k), ?_⟩
    rw [hvalues, searchReverse, href]
    rfl
  | @panics k iface hk href =>
    obtain ⟨rest, hvalues⟩ := HashMap.values_toFront hk
    refine ⟨_, HashMap.reorders_toFront fun e => decide (e.1 = k), ?_⟩
    rw [hvalues, searchReverse, href]
    rfl
  | only hback hk href hunique =>
    exact ⟨m, HashMap.Reorders.refl m, SearchIn.unique hback searchIn_searchReverse (.only hback hk href hunique)⟩
  | givesUp hback hmore =>
    exact ⟨m, HashMap.Reorders.refl m, SearchIn.unique hback searchIn_searchReverse (.givesUp hback hmore)⟩

end Search

/-! ## What an order takes -/

section Order
variable {params : RunParams} {network : Network} {detected : HashMap String DetectedDevice}
  {fqdn : String} {ifindex : Int}

/-- The first device to be visited that has a chassis id. -/
def firstWith (detected : HashMap String DetectedDevice) : PMap String String := fun chassisId =>
  (detected.entries.find? fun e => e.2.getChassisId = some chassisId).map (·.1)

theorem lookupLldpNeighbor_eq (descriptor : LldpNeighbor) :
    lookupLldpNeighbor params network detected descriptor =
      (neighborIn params network (topology detected) (firstWith detected) descriptor).bind detected.lookup := by
  have hchassis : detected.values.find?
      (fun device => device.getChassisId = some (colond descriptor.remChassisId)) =
      (firstWith detected (colond descriptor.remChassisId)).bind detected.lookup := by
    rw [HashMap.values, List.find?_map, firstWith]
    cases hfind : detected.entries.find? fun e => e.2.getChassisId = some (colond descriptor.remChassisId) with
    | none => simp [hfind]
    | some e =>
      have hlookup : detected.lookup e.1 = some e.2 := HashMap.mem_entries.mp (List.mem_of_find?_eq_some hfind)
      simp [hfind, hlookup]
  unfold lookupLldpNeighbor neighborIn
  cases hname : tryResolve params network descriptor.remSysName with
  | none => exact hchassis
  | some fqdn =>
    cases hlookup : detected.lookup fqdn with
    | none => simp [topology, hlookup, hchassis, Option.filter_some]
    | some device => simp [topology, hlookup, Option.filter_some]

theorem neighbor_facts (descriptor : LldpNeighbor) :
    (lookupLldpNeighbor params network detected descriptor).map (·.facts) =
      (neighborIn params network (topology detected) (firstWith detected) descriptor).bind (topology detected) := by
  rw [lookupLldpNeighbor_eq, Option.map_bind]
  rfl

theorem entryReference_eq : entryReference params network detected fqdn ifindex =
    entryReferenceIn params network (topology detected) (firstWith detected) fqdn ifindex := by
  funext descriptor
  unfold entryReference entryReferenceIn
  rw [← neighbor_facts]
  cases lookupLldpNeighbor params network detected descriptor <;> rfl

theorem interfaceReference_eq : interfaceReference params network detected fqdn ifindex =
    interfaceReferenceIn params network (topology detected) (firstWith detected) fqdn ifindex := by
  funext iface
  unfold interfaceReference interfaceReferenceIn
  rw [entryReference_eq]

theorem cdpLinkCandidate_eq (interface : DiscoveredIface) :
    cdpLinkCandidate params network detected interface = cdpLinkIn params network (topology detected) interface := by
  unfold cdpLinkCandidate cdpLinkIn lookupCdpNeighbor
  cases interface.cdp with
  | none => rfl
  | some descriptor =>
    cases hname : tryResolve params network descriptor.deviceId with
    | none => simp [hname]
    | some fqdn =>
      cases hlookup : detected.lookup fqdn with
      | none => simp [hname, hlookup, topology]
      | some device =>
        simp only [hname, Option.bind_some, hlookup, topology, Option.map_some]
        rfl

/-- An entry leads where it may lead. -/
theorem linkIn_entryLink (descriptor : LldpNeighbor) :
    LinkIn params network (topology detected) (firstWith detected) fqdn ifindex descriptor
      (entryLink params network detected fqdn ifindex descriptor) := by
  unfold LinkIn entryLink
  rw [← neighbor_facts]
  cases lookupLldpNeighbor params network detected descriptor with
  | none => rfl
  | some device =>
    refine ⟨_, ?_, rfl⟩
    show PortIn params network _ _ fqdn ifindex descriptor device.facts _
    unfold PortIn lookupLldpNeighborPort
    rw [← interfaceReference_eq]
    show match device.lookupPortByLldpRemoteInfo descriptor.remPortId descriptor.remPortIdSubtype with
      | some none => _
      | named => _
    cases hnamed : device.lookupPortByLldpRemoteInfo descriptor.remPortId descriptor.remPortIdSubtype with
    | none => rfl
    | some named =>
      cases named with
      | some port => rfl
      | none => exact searchIn_searchReverse

/-- An entry that may lead nowhere leads nowhere. -/
theorem LinkIn.unanswered {t : Topology} {taken : PMap String String} {descriptor : LldpNeighbor}
    {out : Option (Option (String × Int))}
    (h : LinkIn params network t taken fqdn ifindex descriptor (some none))
    (h' : LinkIn params network t taken fqdn ifindex descriptor out) : out = some none := by
  unfold LinkIn at h h'
  split at h
  next hnone =>
    rw [hnone] at h'
    exact h'
  next device hdevice =>
  rw [hdevice] at h'
  obtain ⟨port, hport, hnone⟩ := h
  obtain ⟨port', hport', rfl⟩ := h'
  obtain ⟨found, rfl, hfound⟩ := Option.map_eq_some_iff.mp hnone.symm
  obtain rfl : found = none := by simpa using hfound
  suffices hsame : port' = some none by rw [hsame]; rfl
  unfold PortIn at hport hport'
  split at hport
  next hnamed =>
    rw [hnamed] at hport'
    cases hport with
    | givesUp hback hmore => exact SearchIn.unique hback hport' (.givesUp hback hmore)
  next hnamed => exact absurd hport.symm hnamed

theorem settles_firstWith : Settles (topology detected) (firstWith detected) where
  sound := by
    intro chassisId fqdn h
    obtain ⟨e, hfind, rfl⟩ := Option.map_eq_some_iff.mp h
    have hlookup : detected.lookup e.1 = some e.2 := HashMap.mem_entries.mp (List.mem_of_find?_eq_some hfind)
    refine ⟨e.2.facts, by simp [topology, hlookup], ?_⟩
    have hchassis := List.find?_some hfind
    exact of_decide_eq_true hchassis
  complete := by
    intro chassisId fqdn device hdevice hchassis hnone
    obtain ⟨dev, hlookup, rfl⟩ := Option.map_eq_some_iff.mp hdevice
    have hno := List.find?_eq_none.mp (Option.map_eq_none_iff.mp hnone) _ (HashMap.mem_entries.mpr hlookup)
    exact hno (decide_eq_true hchassis)

/-- Any device that a chassis id may be taken for is, in some order. -/
theorem exists_firstWith {taken : PMap String String} (h : Settles (topology detected) taken) :
    ∃ detected', Rearranged detected detected' ∧ firstWith detected' = taken := by
  refine ⟨detected.toFront fun e => e.2.getChassisId.bind taken = some e.1,
    rearranged_of_lookup fun fqdn => (HashMap.reorders_toFront _).lookup fqdn, ?_⟩
  funext chassisId
  cases htaken : taken chassisId with
  | none =>
    refine Option.map_eq_none_iff.mpr (List.find?_eq_none.mpr fun e he hchassis => ?_)
    have hlookup := HashMap.mem_entries.mp ((HashMap.reorders_toFront _).symm.mem_iff.mp he)
    exact h.complete chassisId e.1 e.2.facts (by simp [topology, hlookup]) (of_decide_eq_true hchassis) htaken
  | some fqdn =>
    obtain ⟨facts, hfacts, hchassis⟩ := h.sound chassisId fqdn htaken
    obtain ⟨device, hlookup, rfl⟩ := Option.map_eq_some_iff.mp hfacts
    have hid : device.getChassisId = some chassisId := hchassis
    have hfound := HashMap.find?_toFront (p := fun e => e.2.getChassisId.bind taken = some e.1)
      (q := fun e => e.2.getChassisId = some chassisId) (HashMap.mem_entries.mpr hlookup)
      (by simp [hid, htaken]) (by simp [hid]) (fun e he hpicked hsame => ?_)
    · rw [firstWith, hfound]
      rfl
    · have hsame : e.2.getChassisId = some chassisId := of_decide_eq_true hsame
      have hpicked : e.2.getChassisId.bind taken = some e.1 := of_decide_eq_true hpicked
      rw [hsame, Option.bind_some, htaken] at hpicked
      exact List.NodupKeys.eq_of_fst_eq detected.nodupKeys he (HashMap.mem_entries.mpr hlookup)
        (Option.some.inj hpicked).symm

/-- The interfaces of one device in another order. -/
def withInterfaces (detected : HashMap String DetectedDevice) (fqdn : String)
    (interfaces : HashMap Int DiscoveredIface) : HashMap String DetectedDevice :=
  detected.modify fqdn fun device => { device with interfaces := interfaces }

theorem lookup_withInterfaces {interfaces : HashMap Int DiscoveredIface} {fqdn' : String} :
    (withInterfaces detected fqdn interfaces).lookup fqdn' =
      (detected.lookup fqdn').map fun device =>
        if fqdn' = fqdn then { device with interfaces := interfaces } else device :=
  HashMap.lookup_update _

theorem rearranged_withInterfaces {device : DetectedDevice} {interfaces : HashMap Int DiscoveredIface}
    (hdevice : detected.lookup fqdn = some device) (horder : device.interfaces.Reorders interfaces) :
    Rearranged detected (withInterfaces detected fqdn interfaces) := by
  intro fqdn'
  rw [lookup_withInterfaces]
  by_cases hkey : fqdn' = fqdn
  · subst hkey
    rw [hdevice]
    exact .some ⟨interfaces, horder, by simp⟩
  · cases detected.lookup fqdn' with
    | none => exact .none
    | some device =>
      rw [Option.map_some, if_neg hkey]
      exact .some (.refl device)

theorem firstWith_withInterfaces (interfaces : HashMap Int DiscoveredIface) :
    firstWith (withInterfaces detected fqdn interfaces) = firstWith detected := by
  funext chassisId
  show ((detected.entries.map (Sigma.map id _)).find? _).map _ = _
  rw [List.find?_map, Option.map_map, firstWith]
  congr 1
  congr 1
  funext e
  show decide ((if e.1 = fqdn then { e.2 with interfaces := interfaces } else e.2).getChassisId = _) = _
  split <;> rfl

/-- A port that may be found is found in some order of the interfaces. -/
theorem exists_portIn {descriptor : LldpNeighbor} {device : DetectedDevice} {port : Option (Option Int)}
    (hport : PortIn params network (topology detected) (firstWith detected) fqdn ifindex descriptor device.facts port) :
    ∃ interfaces, device.interfaces.Reorders interfaces ∧
      (device.lookupPortByLldpRemoteInfo descriptor.remPortId descriptor.remPortIdSubtype).bind (fun
        | some remotePort => some (some remotePort)
        | none => searchReverse (interfaceReferenceIn params network (topology detected) (firstWith detected)
            fqdn ifindex) interfaces.values 0 none) = port := by
  unfold PortIn at hport
  split at hport
  next hnamed =>
    replace hnamed : device.lookupPortByLldpRemoteInfo descriptor.remPortId
      descriptor.remPortIdSubtype = some none := hnamed
    obtain ⟨interfaces, horder, hend⟩ := exists_searchReverse hport
    exact ⟨interfaces, horder, by rw [hnamed]; exact hend⟩
  next named hnamed =>
    refine ⟨device.interfaces, HashMap.Reorders.refl _, ?_⟩
    rw [hport]
    show (device.facts.namedPort descriptor.remPortId descriptor.remPortIdSubtype).bind _ = _
    cases hout : device.facts.namedPort descriptor.remPortId descriptor.remPortIdSubtype with
    | none => rfl
    | some direct =>
      cases direct with
      | some remotePort => rfl
      | none => exact absurd hout hnamed

/-- An entry leads anywhere it may, in some order of the same devices first. -/
theorem exists_entryLink {descriptor : LldpNeighbor} {out : Option (Option (String × Int))}
    (h : LinkIn params network (topology detected) (firstWith detected) fqdn ifindex descriptor out) :
    ∃ detected', Rearranged detected detected' ∧ firstWith detected' = firstWith detected ∧
      entryLink params network detected' fqdn ifindex descriptor = out := by
  cases hneighbor : neighborIn params network (topology detected) (firstWith detected) descriptor with
  | none =>
    refine ⟨detected, .refl detected, rfl, ?_⟩
    unfold LinkIn at h
    rw [hneighbor] at h
    unfold entryLink
    rw [lookupLldpNeighbor_eq, hneighbor]
    exact h.symm
  | some key =>
    cases hlookup : detected.lookup key with
    | none =>
      refine ⟨detected, .refl detected, rfl, ?_⟩
      unfold LinkIn at h
      rw [hneighbor, Option.bind_some, topology, hlookup] at h
      unfold entryLink
      rw [lookupLldpNeighbor_eq, hneighbor, Option.bind_some, hlookup]
      exact h.symm
    | some device =>
      unfold LinkIn at h
      rw [hneighbor, Option.bind_some, topology, hlookup] at h
      obtain ⟨port, hport, rfl⟩ := h
      obtain ⟨interfaces, horder, hend⟩ := exists_portIn hport
      have hrearranged := rearranged_withInterfaces hlookup horder
      refine ⟨withInterfaces detected key interfaces, hrearranged, firstWith_withInterfaces interfaces, ?_⟩
      have hdevice : lookupLldpNeighbor params network (withInterfaces detected key interfaces) descriptor =
          some { device with interfaces := interfaces } := by
        rw [lookupLldpNeighbor_eq, hrearranged.topology, firstWith_withInterfaces, hneighbor,
          Option.bind_some, lookup_withInterfaces, hlookup]
        simp
      unfold entryLink
      rw [hdevice]
      unfold lookupLldpNeighborPort
      rw [interfaceReference_eq, hrearranged.topology, firstWith_withInterfaces]
      exact congrArg (fun port : Option (Option Int) => port.map fun port => port.map fun port => (device.fqdn, port)) hend

/-- The orders in which the same devices come first. -/
def SameFirst (detected : HashMap String DetectedDevice) (taken : PMap String String) : Type :=
  { detected' : HashMap String DetectedDevice // Rearranged detected detected' ∧ firstWith detected' = taken }

/-- **The entries of an interface lead where they may**, and anywhere they may in some order. -/
theorem firstIn_iff_exists {taken : PMap String String} (h : Settles (topology detected) taken)
    {entries : List LldpNeighbor} {out : Option (Option (String × Int))} :
    FirstIn (LinkIn params network (topology detected) taken fqdn ifindex) entries out ↔
      ∃ detected', (Rearranged detected detected' ∧ firstWith detected' = taken) ∧
        lldpLinkCandidate params network detected' fqdn ifindex entries = out := by
  have hnonempty : Nonempty (SameFirst detected taken) := by
    obtain ⟨detected', hrearranged, hfirst⟩ := exists_firstWith h
    exact ⟨⟨detected', hrearranged, hfirst⟩⟩
  have hsound : ∀ (order : SameFirst detected taken) descriptor,
      LinkIn params network (topology detected) taken fqdn ifindex descriptor
        (entryLink params network order.1 fqdn ifindex descriptor) := by
    intro ⟨detected', hrearranged, hfirst⟩ descriptor
    rw [← hrearranged.topology]
    subst hfirst
    exact linkIn_entryLink descriptor
  have hreal : ∀ descriptor out, LinkIn params network (topology detected) taken fqdn ifindex descriptor out →
      ∃ order : SameFirst detected taken, entryLink params network order.1 fqdn ifindex descriptor = out := by
    intro descriptor out hout
    obtain ⟨base, hbase, hfirst⟩ := hnonempty
    rw [← hbase.topology, ← hfirst] at hout
    obtain ⟨detected', hrearranged, hsame, hend⟩ := exists_entryLink hout
    exact ⟨⟨detected', hbase.trans hrearranged, hsame.trans hfirst⟩, hend⟩
  rw [firstIn_iff _ _ hsound hreal fun descriptor out => LinkIn.unanswered]
  exact ⟨fun ⟨order, hout⟩ => ⟨order.1, order.2, hout⟩,
    fun ⟨detected', horder, hout⟩ => ⟨⟨detected', horder⟩, hout⟩⟩

end Order

/-! ## The same links in every order -/

section Law
variable {params : RunParams} {network : Network} {detected : HashMap String DetectedDevice}

theorem linkOf_eq (fqdn : String) (ifindex : Int) (iface : DiscoveredIface) :
    linkOf params network detected fqdn ifindex iface =
      (lldpLinkCandidate params network detected fqdn ifindex iface.lldp).map fun link =>
        link.or (cdpLinkIn params network (topology detected) iface) := by
  rw [← cdpLinkCandidate_eq]
  unfold linkOf
  split
  next hnone =>
    simp only [Bool.and_eq_true, List.isEmpty_iff, Option.isNone_iff_eq_none] at hnone
    simp [hnone.1, hnone.2, lldpLinkCandidate, cdpLinkCandidate]
  next => rfl

theorem endAt_eq (fqdn : String) (ifindex : Int) : endAt detected fqdn ifindex =
    (topology detected fqdn).bind fun device => device.interfaces ifindex := by
  unfold endAt topology
  cases detected.lookup fqdn <;> rfl

theorem Rearranged.endAt {detected' : HashMap String DetectedDevice} (h : Rearranged detected detected')
    (fqdn : String) (ifindex : Int) : endAt detected' fqdn ifindex = endAt detected fqdn ifindex := by
  rw [endAt_eq, endAt_eq, h.topology]

/-- **One map in every order** exactly when no tie matters. -/
theorem sameLinks_iff :
    (∃ links, ∀ detected', Rearranged detected detected' →
      buildConnections params network detected' = some links) ↔
    TiesAgree params network (topology detected) := by
  constructor
  · intro ⟨links, hlinks⟩ fqdn facts ifindex iface hfacts hiface
    refine ⟨Nested.get links fqdn ifindex, fun taken htaken out hout => ?_⟩
    obtain ⟨detected', ⟨hrearranged, -⟩, hend⟩ := (firstIn_iff_exists htaken).mp hout
    have hat : endAt detected' fqdn ifindex = some iface := by
      rw [hrearranged.endAt]
      obtain ⟨device, hdevice, rfl⟩ := Option.map_eq_some_iff.mp hfacts
      exact Option.bind_eq_some_iff.mpr ⟨device, hdevice, hiface⟩
    have hlink := (buildConnections_eq_some_iff.mp (hlinks detected' hrearranged)).2.1 fqdn ifindex iface hat
    rwa [linkOf_eq, hend, hrearranged.topology] at hlink
  · intro hties
    have hone : ∀ fqdn ifindex iface, endAt detected fqdn ifindex = some iface →
        ∃ link, ∀ detected', Rearranged detected detected' →
          linkOf params network detected' fqdn ifindex iface = some link := by
      intro fqdn ifindex iface hat
      obtain ⟨device, hdevice, hiface⟩ := Option.bind_eq_some_iff.mp hat
      obtain ⟨link, hlink⟩ := hties fqdn device.facts ifindex iface (by simp [topology, hdevice]) hiface
      refine ⟨link, fun detected' hrearranged => ?_⟩
      have hsettles : Settles (topology detected) (firstWith detected') :=
        hrearranged.topology ▸ settles_firstWith
      rw [linkOf_eq, hrearranged.topology]
      exact hlink _ hsettles _ ((firstIn_iff_exists hsettles).mpr ⟨detected', ⟨hrearranged, rfl⟩, rfl⟩)
    obtain ⟨links, hlinks⟩ : ∃ links, buildConnections params network detected = some links := by
      rw [buildConnections_eq_foldlM]
      refine Nested.foldlM_isSome fun row hrow => ?_
      obtain ⟨link, hlink⟩ := hone row.1 row.2.1 row.2.2 (mem_ends.mp hrow)
      rw [hlink detected (.refl detected)]
      rfl
    refine ⟨links, fun detected' hrearranged => buildConnections_eq_some_iff.mpr ?_⟩
    obtain ⟨hfilled, hof, hnone⟩ := buildConnections_eq_some_iff.mp hlinks
    refine ⟨hfilled, fun fqdn ifindex iface hat => ?_, fun fqdn ifindex hat => ?_⟩
    · rw [hrearranged.endAt] at hat
      obtain ⟨link, hlink⟩ := hone fqdn ifindex iface hat
      rw [hlink detected' hrearranged, ← hof fqdn ifindex iface hat, hlink detected (.refl detected)]
    · exact hnone fqdn ifindex (by rwa [hrearranged.endAt] at hat)

end Law

/-! ## Two devices with one chassis id -/

/-- A switch that has the chassis id `00:01`, and sees a neighbour it cannot resolve. -/
def stackMember : Agent := { switch "x" with object := fun _ => some "00 01" }

/-- A switch that sees a neighbour by that chassis id at its port. -/
def uplink : Agent where
  object := fun _ => none
  table := fun table =>
    if table = "LLDP-MIB::lldpRemTable" then
      .ok ⟨table, [], [], [row "LLDP-MIB::lldpRemLocalPortNum" 7 [("LLDP-MIB::lldpRemSysName", "x"),
        ("LLDP-MIB::lldpRemChassisId", "00 01"), ("LLDP-MIB::lldpRemPortId", "ge1"),
        ("LLDP-MIB::lldpRemPortIdSubtype", "interfaceName")]]⟩
    else (switch "x").table table

/-- `a` sees the chassis id that `b` and `c` have, which are visited in this order. -/
def shared (b c : String) : HashMap String DetectedDevice :=
  ((AList.singleton c (collectedFrom stackMember c)).insert b (collectedFrom stackMember b)).insert "a.lan"
    (collectedFrom uplink "a.lan")

theorem shared_lookup {b c fqdn : String} {device : DetectedDevice}
    (h : (shared b c).lookup fqdn = some device) :
    (fqdn = "a.lan" ∧ device = collectedFrom uplink "a.lan") ∨
    ((fqdn = b ∨ fqdn = c) ∧ device = collectedFrom stackMember fqdn) := by
  unfold shared at h
  by_cases ha : fqdn = "a.lan"
  · subst ha
    rw [AList.lookup_insert] at h
    exact .inl ⟨rfl, (Option.some.inj h).symm⟩
  rw [AList.lookup_insert_ne ha] at h
  by_cases hb : fqdn = b
  · subst hb
    rw [AList.lookup_insert] at h
    exact .inr ⟨.inl rfl, (Option.some.inj h).symm⟩
  · rw [AList.lookup_insert_ne hb] at h
    have hmem := HashMap.mem_entries.mpr h
    simp only [AList.singleton_entries, List.mem_singleton, Sigma.mk.injEq, heq_eq_eq] at hmem
    obtain ⟨rfl, rfl⟩ := hmem
    exact .inr ⟨.inr rfl, rfl⟩

/-- **The order decides**: the port of `a` is linked to the first of the two. -/
theorem links_depend_on_order :
    (∀ fqdn device, (shared "b.lan" "c.lan").lookup fqdn = some device → Collected fqdn device) ∧
    ¬∃ links, ∀ detected', Rearranged (shared "b.lan" "c.lan") detected' →
      buildConnections offline silent detected' = some links := by
  refine ⟨fun fqdn device h => ?_, fun ⟨links, hlinks⟩ => ?_⟩
  · rcases shared_lookup h with ⟨rfl, rfl⟩ | ⟨rfl | rfl, rfl⟩
    · exact collectedFrom_collected (by decide +kernel)
    · exact collectedFrom_collected (by decide +kernel)
    · exact collectedFrom_collected (by decide +kernel)
  have hsame : ∀ fqdn, (shared "b.lan" "c.lan").lookup fqdn = (shared "c.lan" "b.lan").lookup fqdn := by
    refine fun fqdn => AList.perm_lookup ?_
    exact (List.Perm.swap _ _ _).cons _
  have hfirst : (buildConnections offline silent (shared "b.lan" "c.lan")).map
      (fun links => Nested.get links "a.lan" 1) = some (some ("b.lan", 1)) := by decide +kernel
  have hsecond : (buildConnections offline silent (shared "c.lan" "b.lan")).map
      (fun links => Nested.get links "a.lan" 1) = some (some ("c.lan", 1)) := by decide +kernel
  rw [hlinks _ (.refl _)] at hfirst
  rw [hlinks _ (rearranged_of_lookup hsame), hfirst] at hsecond
  revert hsecond
  decide

end JaspyNexus.Collectors.Discovery.Links
