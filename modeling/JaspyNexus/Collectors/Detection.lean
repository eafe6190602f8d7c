import Mathlib
import JaspyNexus.Collectors.Crawl
import JaspyNexus.Collectors.Tables
import JaspyNexus.Lib.HashMap
import JaspyNexus.Lib.Runs

/-! # The collection of a device

`DetectedDevice::collect` of `collectors/discovery.rs`, as far as link resolution depends
on it: the interfaces with the neighbours announced at them, and the three tables that
lead from what a neighbour may call a port to its ifIndex. A byte slice that cuts a
character is a panic; what may panic answers `none` then. -/

namespace JaspyNexus.Collectors.Discovery.Links
open JaspyNexus.Lib JaspyNexus.Lib.Text JaspyNexus.Snmp

/-! ## Detected devices -/

inductive DeviceBug where
  | lldpMacaddressDuplicate
  | lldpNoAssociationToInterface
  | lldpMacaddressCannotAssociate
  deriving DecidableEq, Repr

structure LldpNeighbor extends Discovery.LldpNeighbor where
  remChassisId : String
  remPortId : String
  remPortIdSubtype : String

structure CdpNeighbor extends Discovery.CdpNeighbor where
  devicePort : String

structure DiscoveredIface where
  ifindex : Int
  name : Option String
  ifAlias : Option String
  descr : Option String
  iftype : Option String
  physAddress : Option String
  lldp : List LldpNeighbor
  cdp : Option CdpNeighbor

/-- `DiscoveredIface::default()`, with its index. -/
def DiscoveredIface.new (ifindex : Int) : DiscoveredIface :=
  ⟨ifindex, none, none, none, none, none, [], none⟩

/-- What a row of the interface tables says of an interface. -/
def DiscoveredIface.merge (entry : ResultEntry) (iface : DiscoveredIface) : DiscoveredIface :=
  { iface with
    name := (objStr entry.objects "IF-MIB::ifName").or iface.name
    ifAlias := (objStr entry.objects "IF-MIB::ifAlias").or iface.ifAlias
    descr := (objStr entry.objects "IF-MIB::ifDescr").or iface.descr
    iftype := (objStr entry.objects "IF-MIB::ifType").or iface.iftype
    physAddress := (objStr entry.objects "IF-MIB::ifPhysAddress").or iface.physAddress }

def DiscoveredIface.ifName (iface : DiscoveredIface) : String := iface.name.getD ""

structure DetectedDevice where
  fqdn : String
  interfaces : HashMap Int DiscoveredIface
  anythingToInterface : PMap String Int
  lldpIndexToInterface : PMap Int Int
  lldpLocalMapping : PMap String Int
  deviceBugs : List DeviceBug
  bridgeAddress : Option String
  lldpLocChassisId : Option String
  pollingValid : Bool

/-- What the crawl sees of an interface. -/
def DiscoveredIface.announced (iface : DiscoveredIface) : Discovery.DiscoveredIface where
  lldp := iface.lldp.map (·.toLldpNeighbor)
  cdp := iface.cdp.map (·.toCdpNeighbor)

/-- What the crawl sees of a device. -/
def DetectedDevice.announced (d : DetectedDevice) : Discovery.DetectedDevice where
  fqdn := d.fqdn
  interfaces := d.interfaces.values.map (·.announced)
  pollingValid := d.pollingValid

/-- What a device answers: an object by what `fetch_object` makes of it, a table by its
rows or the failure. -/
structure Agent where
  object : String → Option String
  table : String → Except String Response

/-- `try_unhex_ascii`, over what is left: two bytes at a time. -/
def unhexPairs : List Char → Option (Option (List Char))
  | [] => some (some [])
  | [c] => if c.utf8Size = 2 then some none else none
  | a :: b :: rest =>
    if a.utf8Size = 1 ∧ b.utf8Size = 1 then
      match parseHexOctet [a, b] with
      | some byte =>
        (unhexPairs rest).map fun out =>
          out.map fun out => if byte < 128 then Char.ofNat byte :: out else out
      | none => some none
    -- one character of two bytes: no hexadecimal digits
    else if a.utf8Size = 2 then some none
    else none

/-- `try_unhex_ascii`. -/
def tryUnhexAscii (s : String) : Option (Option String) :=
  let hex := s.toList.filter fun c => !isWhitespace c
  if (hex.map Char.utf8Size).sum % 2 ≠ 0 || hex.isEmpty then some none
  else (unhexPairs hex).map fun out => out.map String.ofList

namespace DetectedDevice

def new (fqdn : String) : DetectedDevice where
  fqdn := fqdn
  interfaces := ∅
  anythingToInterface := PMap.empty
  lldpIndexToInterface := PMap.empty
  lldpLocalMapping := PMap.empty
  deviceBugs := []
  bridgeAddress := none
  lldpLocChassisId := none
  pollingValid := true

variable (d : DetectedDevice)

def hasBug (bug : DeviceBug) : Bool := bug ∈ d.deviceBugs

def addBug (bug : DeviceBug) : DetectedDevice :=
  if d.hasBug bug then d else { d with deviceBugs := d.deviceBugs ++ [bug] }

def getChassisId : Option String :=
  match d.bridgeAddress with
  | some bridgeAddress => some (replace bridgeAddress " " ":")
  | none => d.lldpLocChassisId

/-! ## Interfaces -/

def mergeIfmibEntry (entry : ResultEntry) : DetectedDevice :=
  match entry.index "IF-MIB::ifIndex" with
  | some ifindex =>
    { d with interfaces := d.interfaces.upsert ifindex (.new ifindex) (.merge entry) }
  | none => d

/-- One of the two critical tables of `get_ifmibs`. -/
def getIfmib (agent : Agent) (table : String) : Except String DetectedDevice :=
  match agent.table table with
  | .ok response => .ok (response.entries.foldl mergeIfmibEntry d)
  | .error e => .error ("critical table " ++ table ++ " failed: " ++ e)

def getIfmibs (agent : Agent) : Except String DetectedDevice :=
  match d.getIfmib agent "IF-MIB::ifXTable" with
  | .ok d => d.getIfmib agent "IF-MIB::ifTable"
  | .error e => .error e

def isValidMacKeyedInterface (iface : DiscoveredIface) : Bool :=
  match iface.iftype with
  | none => true
  | some t => t = "ethernetCsmacd"

/-- One candidate of `build_anything_to_interface`: a MAC address stays with the first
interface that has it, under both its spellings. -/
def addCandidate (ifindex : Int) (mapping : PMap String Int) (candidate : Option String × Bool) :
    PMap String Int :=
  match candidate.1.map trim with
  | none => mapping
  | some value =>
    if value = "" then mapping
    else if candidate.2 then
      let spaced := replace value ":" " "
      if (mapping value).isSome || (mapping spaced).isSome then mapping
      else (mapping.insert value ifindex).insert spaced ifindex
    else mapping.insert value ifindex

/-- The candidates of one interface, those that are MAC addresses marked. -/
def candidates (iface : DiscoveredIface) : List (Option String × Bool) :=
  [(iface.ifAlias, false), (iface.name, false), (iface.descr, false)] ++
    if isValidMacKeyedInterface iface then [(iface.physAddress, true)] else []

def addInterface (mapping : PMap String Int) (ifindex : Int) : PMap String Int :=
  match d.interfaces.lookup ifindex with
  | some iface => (candidates iface).foldl (addCandidate ifindex) mapping
  | none => mapping

def buildAnythingToInterface : DetectedDevice :=
  { d with
    anythingToInterface :=
      (d.interfaces.keys.mergeSort fun a b => a ≤ b).foldl d.addInterface PMap.empty }

/-! ## LLDP -/

def mapLldpIndex (lldpIndex ifindex : Int) : DetectedDevice :=
  { d with lldpIndexToInterface := d.lldpIndexToInterface.insert lldpIndex ifindex }

/-- The guess that a port number is an ifIndex. -/
def guessIfindex (lldpIndex : Int) : DetectedDevice :=
  if lldpIndex ∈ d.interfaces then d.mapLldpIndex lldpIndex lldpIndex else d

/-- Maps the port number to the interface that goes by a name. -/
def mapAnything (lldpIndex : Int) (anything : String) : DetectedDevice :=
  match d.anythingToInterface anything with
  | some ifindex => d.mapLldpIndex lldpIndex ifindex
  | none => d

def portIdSubtype (entry : ResultEntry) : String :=
  (objStr entry.objects "LLDP-MIB::lldpLocPortIdSubtype").getD ""

def portId (entry : ResultEntry) : String := (objStr entry.objects "LLDP-MIB::lldpLocPortId").getD ""

/-- Pass 1 of `handle_lldp_loc_port_table`, with the MAC addresses seen. -/
def testMacUniqueness (state : DetectedDevice × List String) (entry : ResultEntry) :
    DetectedDevice × List String :=
  if portIdSubtype entry = "macAddress" then
    if state.1.hasBug .lldpMacaddressDuplicate then state
    else if portId entry ∈ state.2 then
      ({ state.1 with deviceBugs := state.1.deviceBugs ++ [.lldpMacaddressDuplicate] }, state.2)
    else (state.1, portId entry :: state.2)
  else state

def buildLldpMappingFromMacAddress (lldpIndex : Int) (portid : String) : DetectedDevice :=
  if d.hasBug .lldpMacaddressDuplicate then d.guessIfindex lldpIndex
  else match d.anythingToInterface portid with
    | some ifindex => d.mapLldpIndex lldpIndex ifindex
    | none => (d.addBug .lldpMacaddressCannotAssociate).guessIfindex lldpIndex

/-- An interface named in digits, when there is one. -/
def ifindexOf (s : String) : Option Int := (digitsI64 s).filter (· ∈ d.interfaces)

/-- The quirk of an interface announced as `Eth…`. -/
def mapNexusQuirk (lldpIndex : Int) (decodedPort : String) : DetectedDevice :=
  if "Eth".toList.isPrefixOf decodedPort.toList then
    match d.anythingToInterface (replace decodedPort "Eth" "Ethernet") with
    | some ifindex => (d.addBug .lldpNoAssociationToInterface).mapLldpIndex lldpIndex ifindex
    | none => d
  else d

def lldpTryMapIdUsingAnything (lldpIndex : Int) (portid : String) : Option DetectedDevice :=
  (tryUnhexAscii portid).map fun
  | none => d
  | some decodedPort =>
    match d.ifindexOf decodedPort with
    | some ifindex => d.mapLldpIndex lldpIndex ifindex
    | none => (d.mapAnything lldpIndex decodedPort).mapNexusQuirk lldpIndex decodedPort

/-- A local port described by its ifIndex. -/
def mapLocalPort (porttype portid portdesc : String) : DetectedDevice :=
  match d.ifindexOf portdesc with
  | some ifindex =>
    if porttype = "local" then { d with lldpLocalMapping := d.lldpLocalMapping.insert portid ifindex }
    else d
  | none => d

/-- Pass 2 of `handle_lldp_loc_port_table`. -/
def mapLocPort (entry : ResultEntry) : Option DetectedDevice :=
  match entry.index "LLDP-MIB::lldpLocPortNum" with
  | none => some d
  | some lldpIndex =>
    let porttype := portIdSubtype entry
    let portid := portId entry
    if porttype = "macAddress" then some (d.buildLldpMappingFromMacAddress lldpIndex portid)
    else
      let d := d.mapAnything lldpIndex portid
      let d := d.mapLocalPort porttype portid ((objStr entry.objects "LLDP-MIB::lldpLocPortDesc").getD "")
      if porttype = "local" || porttype = "interfaceName" then d.lldpTryMapIdUsingAnything lldpIndex portid
      else some d

def handleLldpLocPortTable (entries : List ResultEntry) : Option DetectedDevice :=
  entries.foldlM mapLocPort (entries.foldl testMacUniqueness (d, [])).1

/-- A neighbour of a subinterface `.0` is one of its parent. -/
def parentOf (ifindex : Int) : Int :=
  match (d.interfaces.lookup ifindex).bind (·.name) with
  | some name =>
    match stripSuffix name ".0" with
    | some parent => (d.anythingToInterface parent).getD ifindex
    | none => ifindex
  | none => ifindex

def lldpNeighbor (entry : ResultEntry) : LldpNeighbor where
  remSysName := (objStr entry.objects "LLDP-MIB::lldpRemSysName").getD ""
  remChassisId := (objStr entry.objects "LLDP-MIB::lldpRemChassisId").getD ""
  remPortId := (objStr entry.objects "LLDP-MIB::lldpRemPortId").getD ""
  remPortIdSubtype := (objStr entry.objects "LLDP-MIB::lldpRemPortIdSubtype").getD ""

/-- The interface at which a neighbour was seen: a port number that is not mapped may be
an ifIndex itself. -/
def seenAt (lldpIndex : Int) : Option Int :=
  match d.lldpIndexToInterface lldpIndex with
  | some ifindex => some ifindex
  | none => if lldpIndex ∈ d.interfaces then some lldpIndex else none

def handleLldpRemEntry (entry : ResultEntry) : DetectedDevice :=
  match (entry.index "LLDP-MIB::lldpRemLocalPortNum").bind d.seenAt with
  | none => d
  | some ifindex =>
    if trim (lldpNeighbor entry).remSysName = "" then d
    else
      { d with
        interfaces := d.interfaces.modify (d.parentOf ifindex) fun iface =>
          { iface with lldp := iface.lldp ++ [lldpNeighbor entry] } }

def handleLldpRemTable (entries : List ResultEntry) : DetectedDevice :=
  entries.foldl handleLldpRemEntry d

def getLldpTables (agent : Agent) : Option DetectedDevice :=
  let d := { d with lldpLocChassisId := (agent.object "LLDP-MIB::lldpLocChassisId").map (replace · " " ":") }
  let loc := match agent.table "LLDP-MIB::lldpLocPortTable" with
    | .ok response => d.handleLldpLocPortTable response.entries
    | .error _ => some d
  loc.map fun d =>
    match agent.table "LLDP-MIB::lldpRemTable" with
    | .ok response => d.handleLldpRemTable response.entries
    | .error _ => d

/-! ## CDP, and what is left -/

def handleCdpEntry (entry : ResultEntry) : DetectedDevice :=
  match entry.index "CISCO-CDP-MIB::cdpCacheIfIndex" with
  | none => d
  | some ifindex =>
    { d with
      interfaces := d.interfaces.modify ifindex fun iface =>
        { iface with
          cdp := some
            { deviceId := (objStr entry.objects "CISCO-CDP-MIB::cdpCacheDeviceId").getD ""
              devicePort := (objStr entry.objects "CISCO-CDP-MIB::cdpCacheDevicePort").getD "" } } }

def getCdpTables (agent : Agent) : DetectedDevice :=
  match agent.table "CISCO-CDP-MIB::cdpCacheTable" with
  | .ok response => response.entries.foldl handleCdpEntry d
  | .error _ => d

def ensureInterfaceSanity : DetectedDevice :=
  { d with
    interfaces := d.interfaces.update fun _ iface =>
      { iface with name := iface.name.or iface.descr, iftype := iface.iftype.or (some "other") } }

/-- `collect`, of a device that is new. -/
def collect (agent : Agent) (fqdn : String) : Option (Except String DetectedDevice) :=
  let d := { new fqdn with bridgeAddress := agent.object "BRIDGE-MIB::dot1dBaseBridgeAddress" }
  match d.getIfmibs agent with
  | .error e => some (.error e)
  | .ok d =>
    (d.buildAnythingToInterface.getLldpTables agent).map fun d =>
      .ok (d.getCdpTables agent).ensureInterfaceSanity

/-! ## What the tables name -/

/-- **A device as it is collected** under a name. -/
structure Sound (fqdn : String) (d : DetectedDevice) : Prop where
  named : d.fqdn = fqdn
  /-- An interface stands under its ifIndex. -/
  keyed : ∀ k iface, d.interfaces.lookup k = some iface → iface.ifindex = k
  anything : ∀ name k, d.anythingToInterface name = some k → k ∈ d.interfaces
  index : ∀ i k, d.lldpIndexToInterface i = some k → k ∈ d.interfaces
  localPort : ∀ id k, d.lldpLocalMapping id = some k → k ∈ d.interfaces

section Sound
variable {d} {fqdn : String}

theorem sound_new : Sound fqdn (new fqdn) :=
  ⟨rfl, fun k iface h => by simp [new] at h, nofun, nofun, nofun⟩

/-- Interfaces may be added, and changed where they stand. -/
theorem Sound.grow {m : HashMap Int DiscoveredIface} (h : Sound fqdn d)
    (hmem : ∀ k ∈ d.interfaces, k ∈ m) (hkeyed : ∀ k iface, m.lookup k = some iface → iface.ifindex = k) :
    Sound fqdn { d with interfaces := m } :=
  ⟨h.named, hkeyed, fun name k hk => hmem k (h.anything name k hk),
    fun i k hk => hmem k (h.index i k hk), fun id k hk => hmem k (h.localPort id k hk)⟩

theorem Sound.update {f : Int → DiscoveredIface → DiscoveredIface} (h : Sound fqdn d)
    (hf : ∀ k iface, (f k iface).ifindex = iface.ifindex) :
    Sound fqdn { d with interfaces := d.interfaces.update f } := by
  refine h.grow (fun k hk => HashMap.mem_update.mpr hk) fun k iface hk => ?_
  rw [HashMap.lookup_update] at hk
  obtain ⟨was, hwas, rfl⟩ := Option.map_eq_some_iff.mp hk
  rw [hf, h.keyed k was hwas]

theorem Sound.modify {k : Int} {f : DiscoveredIface → DiscoveredIface} (h : Sound fqdn d)
    (hf : ∀ iface, (f iface).ifindex = iface.ifindex) :
    Sound fqdn { d with interfaces := d.interfaces.modify k f } := by
  refine h.update fun k' iface => ?_
  split
  · exact hf iface
  · rfl

theorem Sound.mergeIfmibEntry (h : Sound fqdn d) (entry : ResultEntry) :
    Sound fqdn (d.mergeIfmibEntry entry) := by
  unfold DetectedDevice.mergeIfmibEntry
  split
  case h_2 => exact h
  next ifindex _ =>
  refine h.grow (fun k hk => HashMap.mem_upsert.mpr (.inr hk)) fun k iface hk => ?_
  unfold HashMap.upsert at hk
  by_cases hkey : k = ifindex
  · subst hkey
    rw [AList.lookup_insert] at hk
    obtain rfl := Option.some.inj hk
    show ((d.interfaces.lookup k).getD (.new k)).ifindex = k
    cases hwas : d.interfaces.lookup k with
    | none => rfl
    | some was => exact h.keyed k was hwas
  · rw [AList.lookup_insert_ne hkey] at hk
    exact h.keyed k iface hk

theorem Sound.getIfmib {agent : Agent} {table : String} {d' : DetectedDevice} (h : Sound fqdn d)
    (hget : d.getIfmib agent table = .ok d') : Sound fqdn d' := by
  unfold DetectedDevice.getIfmib at hget
  split at hget
  · obtain rfl := Except.ok.inj hget
    exact Runs.foldl_inv (Sound fqdn) (fun _ entry h => h.mergeIfmibEntry entry) _ h
  · cases hget

theorem Sound.getIfmibs {agent : Agent} {d' : DetectedDevice} (h : Sound fqdn d)
    (hget : d.getIfmibs agent = .ok d') : Sound fqdn d' := by
  unfold DetectedDevice.getIfmibs at hget
  split at hget
  next d₁ hfirst => exact (h.getIfmib hfirst).getIfmib hget
  next => cases hget

/-! ### Names, MAC addresses and port numbers -/

/-- Everything that a mapping leads to is an interface. -/
def Leads (d : DetectedDevice) (mapping : PMap String Int) : Prop :=
  ∀ name k, mapping name = some k → k ∈ d.interfaces

theorem Leads.insert {mapping : PMap String Int} {name : String} {k : Int} (h : Leads d mapping)
    (hk : k ∈ d.interfaces) : Leads d (mapping.insert name k) := by
  intro name' k' hget
  rw [PMap.insert_apply] at hget
  split at hget
  · obtain rfl := Option.some.inj hget
    exact hk
  · exact h name' k' hget

theorem Leads.addCandidate {mapping : PMap String Int} {ifindex : Int} (h : Leads d mapping)
    (hk : ifindex ∈ d.interfaces) (candidate : Option String × Bool) :
    Leads d (DetectedDevice.addCandidate ifindex mapping candidate) := by
  unfold DetectedDevice.addCandidate
  split
  · exact h
  split_ifs
  · exact h
  · dsimp only
    split
    · exact h
    · exact (h.insert hk).insert hk
  · exact h.insert hk

theorem Leads.addInterface {mapping : PMap String Int} (h : Leads d mapping) (ifindex : Int) :
    Leads d (d.addInterface mapping ifindex) := by
  unfold DetectedDevice.addInterface
  split
  next iface hiface =>
    have hk : ifindex ∈ d.interfaces := HashMap.mem_iff_lookup.mpr ⟨iface, hiface⟩
    exact Runs.foldl_inv (Leads d) (fun _ candidate h => h.addCandidate hk candidate) _ h
  next => exact h

theorem Sound.buildAnythingToInterface (h : Sound fqdn d) : Sound fqdn d.buildAnythingToInterface :=
  { h with
    anything := Runs.foldl_inv (Leads d) (fun _ ifindex h => h.addInterface ifindex) _
      (by intro name k hk; cases hk) }

theorem Sound.addBug (h : Sound fqdn d) (bug : DeviceBug) : Sound fqdn (d.addBug bug) := by
  unfold DetectedDevice.addBug
  split
  · exact h
  · exact { h with }

theorem Sound.mapLldpIndex {lldpIndex ifindex : Int} (h : Sound fqdn d) (hk : ifindex ∈ d.interfaces) :
    Sound fqdn (d.mapLldpIndex lldpIndex ifindex) := by
  refine ⟨h.named, h.keyed, h.anything, fun i k hget => ?_, h.localPort⟩
  replace hget : (d.lldpIndexToInterface.insert lldpIndex ifindex) i = some k := hget
  rw [PMap.insert_apply] at hget
  split at hget
  · obtain rfl := Option.some.inj hget
    exact hk
  · exact h.index i k hget

theorem Sound.guessIfindex (h : Sound fqdn d) (lldpIndex : Int) : Sound fqdn (d.guessIfindex lldpIndex) := by
  unfold DetectedDevice.guessIfindex
  split
  next hk => exact h.mapLldpIndex hk
  next => exact h

theorem Sound.mapAnything (h : Sound fqdn d) (lldpIndex : Int) (name : String) :
    Sound fqdn (d.mapAnything lldpIndex name) := by
  unfold DetectedDevice.mapAnything
  split
  next ifindex hget => exact h.mapLldpIndex (h.anything name ifindex hget)
  next => exact h

theorem interfaces_addBug (bug : DeviceBug) : (d.addBug bug).interfaces = d.interfaces := by
  unfold DetectedDevice.addBug
  split <;> rfl

theorem Sound.buildLldpMappingFromMacAddress (h : Sound fqdn d) (lldpIndex : Int) (portid : String) :
    Sound fqdn (d.buildLldpMappingFromMacAddress lldpIndex portid) := by
  unfold DetectedDevice.buildLldpMappingFromMacAddress
  split
  · exact h.guessIfindex lldpIndex
  split
  next ifindex hget => exact h.mapLldpIndex (h.anything portid ifindex hget)
  next => exact (h.addBug _).guessIfindex lldpIndex

theorem mem_of_ifindexOf {s : String} {ifindex : Int} (h : d.ifindexOf s = some ifindex) :
    ifindex ∈ d.interfaces := by
  have hkept := (Option.filter_eq_some_iff.mp h).2
  exact of_decide_eq_true hkept

theorem Sound.mapNexusQuirk (h : Sound fqdn d) (lldpIndex : Int) (decodedPort : String) :
    Sound fqdn (d.mapNexusQuirk lldpIndex decodedPort) := by
  unfold DetectedDevice.mapNexusQuirk
  split
  case isFalse => exact h
  split
  next ifindex hget =>
    refine (h.addBug _).mapLldpIndex ?_
    rw [interfaces_addBug]
    exact h.anything _ ifindex hget
  next => exact h

theorem Sound.lldpTryMapIdUsingAnything {lldpIndex : Int} {portid : String} {d' : DetectedDevice}
    (h : Sound fqdn d) (htry : d.lldpTryMapIdUsingAnything lldpIndex portid = some d') : Sound fqdn d' := by
  unfold DetectedDevice.lldpTryMapIdUsingAnything at htry
  obtain ⟨out, -, rfl⟩ := Option.map_eq_some_iff.mp htry
  cases out with
  | none => exact h
  | some decodedPort =>
    dsimp only
    split
    next ifindex hdigits => exact h.mapLldpIndex (mem_of_ifindexOf hdigits)
    next => exact (h.mapAnything lldpIndex decodedPort).mapNexusQuirk lldpIndex decodedPort

theorem Sound.mapLocalPort (h : Sound fqdn d) (porttype portid portdesc : String) :
    Sound fqdn (d.mapLocalPort porttype portid portdesc) := by
  unfold DetectedDevice.mapLocalPort
  split
  case h_2 => exact h
  next ifindex hdigits =>
  split
  · exact { h with localPort := Leads.insert h.localPort (mem_of_ifindexOf hdigits) }
  · exact h

theorem Sound.mapLocPort {entry : ResultEntry} {d' : DetectedDevice} (h : Sound fqdn d)
    (hmap : d.mapLocPort entry = some d') : Sound fqdn d' := by
  unfold DetectedDevice.mapLocPort at hmap
  split at hmap
  · obtain rfl := Option.some.inj hmap
    exact h
  next lldpIndex _ =>
  have hnamed := (h.mapAnything lldpIndex (portId entry)).mapLocalPort (portIdSubtype entry) (portId entry)
    ((objStr entry.objects "LLDP-MIB::lldpLocPortDesc").getD "")
  dsimp only at hmap
  split_ifs at hmap
  · obtain rfl := Option.some.inj hmap
    exact h.buildLldpMappingFromMacAddress lldpIndex (portId entry)
  · exact hnamed.lldpTryMapIdUsingAnything hmap
  · obtain rfl := Option.some.inj hmap
    exact hnamed

theorem Sound.testMacUniqueness {seen : List String} (h : Sound fqdn d) (entry : ResultEntry) :
    Sound fqdn (DetectedDevice.testMacUniqueness (d, seen) entry).1 := by
  unfold DetectedDevice.testMacUniqueness
  split_ifs
  · exact h
  · exact { h with }
  · exact h
  · exact h

theorem Sound.handleLldpLocPortTable {entries : List ResultEntry} {d' : DetectedDevice} (h : Sound fqdn d)
    (hhandle : d.handleLldpLocPortTable entries = some d') : Sound fqdn d' := by
  have hbugs : Sound fqdn (entries.foldl DetectedDevice.testMacUniqueness (d, [])).1 :=
    Runs.foldl_inv (fun state : DetectedDevice × List String => Sound fqdn state.1)
      (fun _ entry h => Sound.testMacUniqueness h entry) entries h
  exact Runs.foldlM_inv (Sound fqdn) (fun _ _ _ h hmap => Sound.mapLocPort h hmap) hbugs hhandle

/-! ### Neighbours -/

theorem Sound.handleLldpRemEntry (h : Sound fqdn d) (entry : ResultEntry) :
    Sound fqdn (d.handleLldpRemEntry entry) := by
  unfold DetectedDevice.handleLldpRemEntry
  split
  · exact h
  split_ifs
  · exact h
  · exact h.modify fun _ => rfl

theorem Sound.getLldpTables {agent : Agent} {d' : DetectedDevice} (h : Sound fqdn d)
    (hget : d.getLldpTables agent = some d') : Sound fqdn d' := by
  unfold DetectedDevice.getLldpTables at hget
  obtain ⟨d₁, hloc, rfl⟩ := Option.map_eq_some_iff.mp hget
  have h₀ : Sound fqdn { d with lldpLocChassisId :=
      (agent.object "LLDP-MIB::lldpLocChassisId").map (replace · " " ":") } := { h with }
  have h₁ : Sound fqdn d₁ := by
    split at hloc
    · exact h₀.handleLldpLocPortTable hloc
    · obtain rfl := Option.some.inj hloc
      exact h₀
  split
  · exact Runs.foldl_inv (Sound fqdn) (fun _ entry h => h.handleLldpRemEntry entry) _ h₁
  · exact h₁

theorem Sound.getCdpTables (h : Sound fqdn d) (agent : Agent) : Sound fqdn (d.getCdpTables agent) := by
  unfold DetectedDevice.getCdpTables
  split
  · refine Runs.foldl_inv (Sound fqdn) (fun d entry h => ?_) _ h
    unfold handleCdpEntry
    split
    · exact h
    · exact h.modify fun _ => rfl
  · exact h

/-- **The collection is sound**: whatever the device answers, all that the tables name
are interfaces of it. -/
theorem sound_of_collect {agent : Agent} (h : collect agent fqdn = some (.ok d)) : Sound fqdn d := by
  unfold collect at h
  have hnew : Sound fqdn { new fqdn with bridgeAddress := agent.object "BRIDGE-MIB::dot1dBaseBridgeAddress" } :=
    { sound_new with }
  dsimp only at h
  split at h
  · cases h
  next d₁ hifs =>
  obtain ⟨d₂, hlldp, hok⟩ := Option.map_eq_some_iff.mp h
  obtain rfl := Except.ok.inj hok
  have h₂ : Sound fqdn d₂ := (hnew.getIfmibs hifs).buildAnythingToInterface.getLldpTables hlldp
  exact (h₂.getCdpTables agent).update fun _ _ => rfl

end Sound
end DetectedDevice
end JaspyNexus.Collectors.Discovery.Links
