import Mathlib
import JaspyNexus.Collectors.Links
import JaspyNexus.Utilities.DiscoveryLinks

/-! # Links between interfaces that exist

Whatever the agents answer, a link leads from an interface of a detected device to one
of a detected device, and the payload of a device says of each interface where its link
leads. -/

namespace JaspyNexus.Collectors.Discovery.Links
open JaspyNexus.Lib JaspyNexus.Utilities.Discovery

/-- A device that a collection under the name has ended in, its interfaces in any order. -/
def Collected (fqdn : String) (device : DetectedDevice) : Prop :=
  ∃ agent collected, DetectedDevice.collect agent fqdn = some (.ok collected) ∧
    ∃ interfaces, collected.interfaces.Reorders interfaces ∧
      device = { collected with interfaces := interfaces }

theorem Collected.sound {fqdn : String} {device : DetectedDevice} (h : Collected fqdn device) :
    device.Sound fqdn := by
  obtain ⟨agent, collected, hcollect, interfaces, horder, rfl⟩ := h
  have hsound := DetectedDevice.sound_of_collect hcollect
  refine hsound.grow (fun k hk => (AList.mem_of_perm horder).mp hk) fun k iface hk => hsound.keyed k iface ?_
  rw [horder.lookup k, hk]

/-! ## Where links lead -/

section Ends
variable {params : RunParams} {network : Network} {detected : HashMap String DetectedDevice}
  {fqdn : String} {device : DetectedDevice}

namespace DetectedDevice

theorem Sound.lookupPort {portId subtype : String} {port : Int} (h : device.Sound fqdn)
    (hport : device.lookupPortByLldpRemoteInfo portId subtype = some (some port)) :
    port ∈ device.interfaces := by
  unfold lookupPortByLldpRemoteInfo at hport
  split at hport
  · cases hport
  split at hport
  next ifindex hverbatim =>
    obtain rfl := Option.some.inj (Option.some.inj hport)
    unfold lookupPortVerbatim at hverbatim
    rcases Option.or_eq_some_iff.mp hverbatim with hlocal | ⟨-, hanything⟩
    · split at hlocal
      · exact h.localPort portId ifindex hlocal
      · cases hlocal
    · exact h.anything portId ifindex hanything
  next =>
    split at hport
    · obtain ⟨decoded, -, hdecoded⟩ := Option.map_eq_some_iff.mp hport
      obtain ⟨name, -, hanything⟩ := Option.bind_eq_some_iff.mp hdecoded
      exact h.anything name port hanything
    · cases hport

theorem Sound.ifindex_mem {iface : DiscoveredIface} (h : device.Sound fqdn)
    (hiface : iface ∈ device.interfaces.values) : iface.ifindex ∈ device.interfaces := by
  obtain ⟨k, hk⟩ := HashMap.mem_values.mp hiface
  rw [h.keyed k iface hk]
  exact HashMap.mem_iff_lookup.mpr ⟨iface, hk⟩

end DetectedDevice

theorem lookup_of_lookupLldpNeighbor {descriptor : LldpNeighbor}
    (h : lookupLldpNeighbor params network detected descriptor = some device) :
    ∃ fqdn, detected.lookup fqdn = some device := by
  unfold lookupLldpNeighbor at h
  split at h
  next found hfound =>
    obtain rfl := Option.some.inj h
    obtain ⟨fqdn, -, hlookup⟩ := Option.bind_eq_some_iff.mp hfound
    exact ⟨fqdn, hlookup⟩
  next => exact HashMap.mem_values.mp (List.mem_of_find?_eq_some h)

/-- A search in reverse ends at an interface that was searched, or was found before. -/
theorem mem_of_searchReverse {refersTo : DiscoveredIface → Option Reference} {port : Int}
    {ifaces : List DiscoveredIface} {numRefs : Nat} {last : Option Int}
    (h : searchReverse refersTo ifaces numRefs last = some (some port)) :
    last = some port ∨ ∃ iface ∈ ifaces, iface.ifindex = port := by
  induction ifaces generalizing numRefs last with
  | nil =>
    replace h : (if numRefs = 1 then last else none) = some port := Option.some.inj h
    split at h
    · exact .inl h
    · cases h
  | cons iface rest ih =>
    unfold searchReverse at h
    obtain ⟨ref, -, hgo⟩ := Option.bind_eq_some_iff.mp h
    cases ref with
    | no => exact (ih hgo).imp_right fun ⟨i, hi, hport⟩ => ⟨i, List.mem_cons_of_mem _ hi, hport⟩
    | device =>
      rcases ih hgo with hlast | ⟨i, hi, hport⟩
      · exact .inr ⟨iface, List.mem_cons_self, Option.some.inj hlast⟩
      · exact .inr ⟨i, List.mem_cons_of_mem _ hi, hport⟩
    | port => exact .inr ⟨iface, List.mem_cons_self, Option.some.inj (Option.some.inj hgo)⟩

theorem DetectedDevice.Sound.lookupLldpNeighborPort {localFqdn : String} {localPort port : Int}
    {descriptor : LldpNeighbor} (h : device.Sound fqdn)
    (hport : lookupLldpNeighborPort params network detected localFqdn localPort descriptor device =
      some (some port)) : port ∈ device.interfaces := by
  obtain ⟨direct, hdirect, hgo⟩ := Option.bind_eq_some_iff.mp hport
  cases direct with
  | some remotePort =>
    obtain rfl := Option.some.inj (Option.some.inj hgo)
    exact h.lookupPort hdirect
  | none =>
    rcases mem_of_searchReverse hgo with hnone | ⟨iface, hiface, rfl⟩
    · cases hnone
    · exact h.ifindex_mem hiface

/-- All devices are sound, each under the name it is detected by. -/
def AllSound (detected : HashMap String DetectedDevice) : Prop :=
  ∀ fqdn device, detected.lookup fqdn = some device → device.Sound fqdn

theorem AllSound.entryLink {localFqdn : String} {localPort : Int} {descriptor : LldpNeighbor}
    {peer : String × Int} (h : AllSound detected)
    (hlink : entryLink params network detected localFqdn localPort descriptor = some (some peer)) :
    ∃ iface, endAt detected peer.1 peer.2 = some iface := by
  unfold Links.entryLink at hlink
  split at hlink
  · cases hlink
  next neighbor hneighbor =>
  obtain ⟨found, hport, hmap⟩ := Option.map_eq_some_iff.mp hlink
  obtain ⟨port, rfl, rfl⟩ := Option.map_eq_some_iff.mp hmap
  obtain ⟨fqdn, hlookup⟩ := lookup_of_lookupLldpNeighbor hneighbor
  have hsound := h fqdn neighbor hlookup
  obtain ⟨iface, hiface⟩ := HashMap.mem_iff_lookup.mp (hsound.lookupLldpNeighborPort hport)
  refine ⟨iface, Option.bind_eq_some_iff.mpr ⟨neighbor, ?_, hiface⟩⟩
  show detected.lookup neighbor.fqdn = some neighbor
  rw [hsound.named, hlookup]

theorem AllSound.lldpLinkCandidate {localFqdn : String} {localPort : Int} {entries : List LldpNeighbor}
    {peer : String × Int} (h : AllSound detected)
    (hlink : lldpLinkCandidate params network detected localFqdn localPort entries = some (some peer)) :
    ∃ iface, endAt detected peer.1 peer.2 = some iface := by
  unfold Links.lldpLinkCandidate at hlink
  induction entries with
  | nil => cases hlink
  | cons descriptor rest ih =>
    rw [List.findSomeM?_cons] at hlink
    obtain ⟨found, hfound, hgo⟩ := Option.bind_eq_some_iff.mp hlink
    cases found with
    | none => exact ih hgo
    | some link =>
      obtain rfl := Option.some.inj (Option.some.inj hgo)
      exact h.entryLink hfound

theorem AllSound.cdpLinkCandidate {interface : DiscoveredIface} {peer : String × Int} (h : AllSound detected)
    (hlink : cdpLinkCandidate params network detected interface = some peer) :
    ∃ iface, endAt detected peer.1 peer.2 = some iface := by
  obtain ⟨descriptor, -, hcdp⟩ := Option.bind_eq_some_iff.mp hlink
  obtain ⟨neighbor, hneighbor, hmap⟩ := Option.bind_eq_some_iff.mp hcdp
  obtain ⟨port, hport, rfl⟩ := Option.map_eq_some_iff.mp hmap
  obtain ⟨fqdn, -, hlookup⟩ := Option.bind_eq_some_iff.mp hneighbor
  have hsound := h fqdn neighbor hlookup
  obtain ⟨iface, hiface⟩ := HashMap.mem_iff_lookup.mp (hsound.anything _ port hport)
  refine ⟨iface, Option.bind_eq_some_iff.mpr ⟨neighbor, ?_, hiface⟩⟩
  show detected.lookup neighbor.fqdn = some neighbor
  rw [hsound.named, hlookup]

theorem AllSound.linkOf {localFqdn : String} {localPort : Int} {interface : DiscoveredIface}
    {peer : String × Int} (h : AllSound detected)
    (hlink : linkOf params network detected localFqdn localPort interface = some (some peer)) :
    ∃ iface, endAt detected peer.1 peer.2 = some iface := by
  unfold Links.linkOf at hlink
  split at hlink
  · cases hlink
  obtain ⟨lldp, hlldp, hor⟩ := Option.map_eq_some_iff.mp hlink
  rcases Option.or_eq_some_iff.mp hor with rfl | ⟨-, hcdp⟩
  · exact h.lldpLinkCandidate hlldp
  · exact h.cdpLinkCandidate hcdp

end Ends

/-! ## What a payload carries -/

section Payload
variable {detected : HashMap String DetectedDevice} {links : LinkMap} {device : DetectedDevice}

/-- Both ends of every link are interfaces of detected devices. -/
def Endpoints (detected : HashMap String DetectedDevice) (links : LinkMap) : Prop :=
  ∀ fqdn ifindex peer port, Nested.get links fqdn ifindex = some (peer, port) →
    (∃ iface, endAt detected fqdn ifindex = some iface) ∧ ∃ iface, endAt detected peer port = some iface

/-- Interface names are distinct within each device. -/
def NamesDistinct (detected : HashMap String DetectedDevice) : Prop :=
  ∀ fqdn i i' iface iface', endAt detected fqdn i = some iface → endAt detected fqdn i' = some iface' →
    iface.ifName = iface'.ifName → i = i'

/-- **A payload that carries exactly the links of its device.** -/
structure Carries (detected : HashMap String DetectedDevice) (links : LinkMap) (device : DetectedDevice)
    (payload : LinkInfo) : Prop where
  deviceFqdn : payload.deviceFqdn = device.fqdn
  linked : ∀ ifindex iface peer port, device.interfaces.lookup ifindex = some iface →
    Nested.get links device.fqdn ifindex = some (peer, port) →
    ∃ target name domain, endAt detected peer port = some target ∧ peer.toList = name.toList ++ '.' :: domain.toList ∧
      payload.interfaces iface.ifName = some (some ⟨name, domain, target.ifName⟩)
  unlinked : ∀ ifindex iface, device.interfaces.lookup ifindex = some iface →
    Nested.get links device.fqdn ifindex = none → payload.interfaces iface.ifName = some none
  /-- It names no interface that the device does not have. -/
  names : ∀ name, payload.interfaces name ≠ none →
    ∃ ifindex iface, device.interfaces.lookup ifindex = some iface ∧ iface.ifName = name

theorem splitFqdn_isSome {fqdn : String} (h : '.' ∈ fqdn.toList) : ∃ p, splitFqdn fqdn = some p := by
  unfold splitFqdn
  split
  next hnone =>
    have hall := List.dropWhile_eq_nil_iff.mp hnone '.' h
    simp at hall
  next => exact ⟨_, rfl⟩

/-- An interface is said to lead where its link leads. -/
theorem linkInfoPayload_interfaces {topologyStable : Bool} {ifindex : Int} {iface : DiscoveredIface}
    (hnd : (device.interfaces.entries.map fun e => e.2.ifName).Nodup)
    (hiface : device.interfaces.lookup ifindex = some iface) :
    (linkInfoPayload detected device links topologyStable).interfaces iface.ifName =
      some ((Nested.get links device.fqdn ifindex).bind (peerInfo detected)) := by
  have he := HashMap.mem_entries.mpr hiface
  unfold linkInfoPayload
  exact PMap.foldl_insert_of_mem PMap.empty hnd he

theorem names_nodup {fqdn : String} (hdistinct : NamesDistinct detected)
    (hdevice : detected.lookup fqdn = some device) :
    (device.interfaces.entries.map fun e => e.2.ifName).Nodup := by
  refine List.Nodup.map_on (fun e he e' he' hname => ?_) device.interfaces.nodupKeys.nodup
  have hiface : device.interfaces.lookup e.1 = some e.2 := HashMap.mem_entries.mp he
  have hiface' : device.interfaces.lookup e'.1 = some e'.2 := HashMap.mem_entries.mp he'
  have hkey : e.1 = e'.1 := hdistinct fqdn e.1 e'.1 e.2 e'.2 (by simp [endAt, hdevice, hiface])
    (by simp [endAt, hdevice, hiface']) hname
  exact List.NodupKeys.eq_of_fst_eq device.interfaces.nodupKeys he he' hkey

theorem carries {fqdn : String} {topologyStable : Bool} (hends : Endpoints detected links)
    (hdistinct : NamesDistinct detected) (hdotted : ∀ fqdn ∈ detected, '.' ∈ fqdn.toList)
    (hdevice : detected.lookup fqdn = some device) :
    Carries detected links device (linkInfoPayload detected device links topologyStable) := by
  have hnd := names_nodup hdistinct hdevice
  refine ⟨rfl, fun ifindex iface peer port hiface hlink => ?_, fun ifindex iface hiface hlink => ?_,
    fun name hname => ?_⟩
  · obtain ⟨-, target, htarget⟩ := hends _ _ _ _ hlink
    obtain ⟨peerDevice, hpeer, hport⟩ := Option.bind_eq_some_iff.mp htarget
    obtain ⟨p, hp⟩ := splitFqdn_isSome (hdotted peer (HashMap.mem_iff_lookup.mpr ⟨_, hpeer⟩))
    refine ⟨target, p.1, p.2, htarget, splitFqdn_join hp, ?_⟩
    rw [linkInfoPayload_interfaces hnd hiface, hlink]
    simp [peerInfo, hp, hpeer, hport]
  · rw [linkInfoPayload_interfaces hnd hiface, hlink]
    rfl
  · by_contra hno
    refine hname (PMap.foldl_insert_of_notMem PMap.empty fun e he heq => hno ?_)
    exact ⟨e.1, e.2, HashMap.mem_entries.mp he, heq⟩

end Payload

/-- **Links join interfaces that exist.** -/
theorem links_exact (params : RunParams) (network : Network) (detected : HashMap String DetectedDevice)
    (h : ∀ fqdn device, detected.lookup fqdn = some device → Collected fqdn device) :
    (∀ fqdn device, detected.lookup fqdn = some device →
      (∀ name k, device.anythingToInterface name = some k → k ∈ device.interfaces) ∧
      (∀ id k, device.lldpLocalMapping id = some k → k ∈ device.interfaces) ∧
      ∀ i k, device.lldpIndexToInterface i = some k → k ∈ device.interfaces) ∧
    ∀ links, buildConnections params network detected = some links →
      Endpoints detected links ∧
      (NamesDistinct detected → (∀ fqdn ∈ detected, '.' ∈ fqdn.toList) →
        ∀ fqdn device topologyStable, detected.lookup fqdn = some device →
          Carries detected links device (linkInfoPayload detected device links topologyStable)) := by
  have hsound : AllSound detected := fun fqdn device hdevice => (h fqdn device hdevice).sound
  refine ⟨fun fqdn device hdevice => ?_, fun links hlinks => ?_⟩
  · exact ⟨(hsound fqdn device hdevice).anything, (hsound fqdn device hdevice).localPort,
      (hsound fqdn device hdevice).index⟩
  · obtain ⟨-, hof, hnone⟩ := buildConnections_eq_some_iff.mp hlinks
    have hends : Endpoints detected links := by
      intro fqdn ifindex peer port hlink
      cases hiface : endAt detected fqdn ifindex with
      | none => rw [hnone fqdn ifindex hiface] at hlink; cases hlink
      | some iface =>
        refine ⟨⟨iface, rfl⟩, ?_⟩
        have hlinkOf := hof fqdn ifindex iface hiface
        rw [hlink] at hlinkOf
        exact hsound.linkOf hlinkOf
    exact ⟨hends, fun hdistinct hdotted fqdn device _ hdevice => carries hends hdistinct hdotted hdevice⟩

/-! ## Two switches -/

/-- A row under one index, with texts in some columns. -/
def row (index : String) (i : Int) (columns : List (String × String)) : Snmp.ResultEntry :=
  ⟨"", fun key => if key = index then some i else none, fun key => (columns.lookup key).map .str⟩

/-- A switch with a port `ge1`, at which it sees the port `ge1` of a peer. -/
def switch (peer : String) : Agent where
  object := fun _ => none
  table := fun table => .ok ⟨table, [], [],
    if table = "IF-MIB::ifXTable" then [row "IF-MIB::ifIndex" 1 [("IF-MIB::ifName", "ge1")]]
    else if table = "LLDP-MIB::lldpLocPortTable" then
      [row "LLDP-MIB::lldpLocPortNum" 7 [("LLDP-MIB::lldpLocPortIdSubtype", "interfaceName"),
        ("LLDP-MIB::lldpLocPortId", "ge1")]]
    else if table = "LLDP-MIB::lldpRemTable" then
      [row "LLDP-MIB::lldpRemLocalPortNum" 7 [("LLDP-MIB::lldpRemSysName", peer),
        ("LLDP-MIB::lldpRemPortId", "ge1"), ("LLDP-MIB::lldpRemPortIdSubtype", "interfaceName")]]
    else []⟩

/-- What a collection ends in, when it ends well. -/
def collectedFrom (agent : Agent) (fqdn : String) : DetectedDevice :=
  ((DetectedDevice.collect agent fqdn).bind Except.toOption).getD (.new fqdn)

def twoSwitches : HashMap String DetectedDevice :=
  (AList.singleton "b.lan" (collectedFrom (switch "a") "b.lan")).insert "a.lan"
    (collectedFrom (switch "b") "a.lan")

def offline : RunParams := ⟨"a", ["lan"], [], PMap.empty, true, false⟩

def silent : Network := ⟨fun _ => .error "", fun _ => false⟩

theorem collectedFrom_collected {agent : Agent} {fqdn : String}
    (h : ((DetectedDevice.collect agent fqdn).bind Except.toOption).isSome = true) :
    Collected fqdn (collectedFrom agent fqdn) := by
  obtain ⟨device, hdevice⟩ := Option.isSome_iff_exists.mp h
  obtain ⟨out, hout, hok⟩ := Option.bind_eq_some_iff.mp hdevice
  cases out with
  | error e => cases hok
  | ok collected =>
    obtain rfl := Option.some.inj hok
    exact ⟨agent, collected, hout, collected.interfaces, HashMap.Reorders.refl _,
      by rw [collectedFrom, hdevice]; rfl⟩

theorem twoSwitches_lookup {fqdn : String} {device : DetectedDevice}
    (h : twoSwitches.lookup fqdn = some device) :
    (fqdn = "a.lan" ∧ device = collectedFrom (switch "b") "a.lan") ∨
    (fqdn = "b.lan" ∧ device = collectedFrom (switch "a") "b.lan") := by
  unfold twoSwitches at h
  by_cases ha : fqdn = "a.lan"
  · subst ha
    rw [AList.lookup_insert] at h
    exact .inl ⟨rfl, (Option.some.inj h).symm⟩
  · rw [AList.lookup_insert_ne ha] at h
    have hmem := HashMap.mem_entries.mpr h
    simp only [AList.singleton_entries, List.mem_singleton, Sigma.mk.injEq, heq_eq_eq] at hmem
    exact .inr hmem

/-- The two ports see each other. -/
theorem links_exact_twoSwitches :
    (∀ fqdn device, twoSwitches.lookup fqdn = some device → Collected fqdn device) ∧
    ∃ links, buildConnections offline silent twoSwitches = some links ∧
      Nested.get links "a.lan" 1 = some ("b.lan", 1) ∧ Endpoints twoSwitches links ∧
      Carries twoSwitches links (collectedFrom (switch "b") "a.lan")
        (linkInfoPayload twoSwitches (collectedFrom (switch "b") "a.lan") links true) := by
  have hcollected : ∀ fqdn device, twoSwitches.lookup fqdn = some device → Collected fqdn device := by
    intro fqdn device hdevice
    rcases twoSwitches_lookup hdevice with ⟨rfl, rfl⟩ | ⟨rfl, rfl⟩
    · exact collectedFrom_collected (by decide +kernel)
    · exact collectedFrom_collected (by decide +kernel)
  have hone : ∀ fqdn ifindex iface, endAt twoSwitches fqdn ifindex = some iface → ifindex = 1 := by
    intro fqdn ifindex iface hiface
    obtain ⟨device, hdevice, hlookup⟩ := Option.bind_eq_some_iff.mp hiface
    have hmem : ifindex ∈ device.interfaces.keys := HashMap.mem_iff_lookup.mpr ⟨iface, hlookup⟩
    rcases twoSwitches_lookup hdevice with ⟨rfl, rfl⟩ | ⟨rfl, rfl⟩
    · have hkeys : (collectedFrom (switch "b") "a.lan").interfaces.keys = [1] := by decide +kernel
      simpa [hkeys] using hmem
    · have hkeys : (collectedFrom (switch "a") "b.lan").interfaces.keys = [1] := by decide +kernel
      simpa [hkeys] using hmem
  have hlink : (buildConnections offline silent twoSwitches).map (fun links => Nested.get links "a.lan" 1) =
      some (some ("b.lan", 1)) := by decide +kernel
  obtain ⟨links, hlinks, hget⟩ := Option.map_eq_some_iff.mp hlink
  obtain ⟨hends, hcarries⟩ := (links_exact offline silent twoSwitches hcollected).2 links hlinks
  refine ⟨hcollected, links, hlinks, hget, hends, hcarries ?_ ?_ "a.lan" _ true ?_⟩
  · intro fqdn i i' iface iface' hiface hiface' _
    rw [hone _ _ _ hiface, hone _ _ _ hiface']
  · intro fqdn hmem
    obtain ⟨device, hdevice⟩ := HashMap.mem_iff_lookup.mp hmem
    rcases twoSwitches_lookup hdevice with ⟨rfl, -⟩ | ⟨rfl, -⟩ <;> decide
  · exact AList.lookup_insert _

end JaspyNexus.Collectors.Discovery.Links
