import Mathlib
import JaspyNexus.Snmp.Embedded
import JaspyNexus.Models.Dbo
import JaspyNexus.Models.Metrics
import JaspyNexus.Collectors.Poller

/-! # The trap receiver

`snmp/trap.rs`: a thread that decodes linkUp and linkDown traps and reports the state of the
interface. A trap names its source by address only; the receiver keeps a map of the addresses
that the monitored devices' names resolve to, builds it anew every minute, and once more
when a trap comes from an address that is not in it. -/

namespace JaspyNexus.Snmp.Trap
open JaspyNexus.Lib JaspyNexus.Models
open JaspyNexus.Collectors.Poller (asI32)

/-! ## Decoding -/

/-- `OID_SNMP_TRAP_OID` -/
def oidSnmpTrapOid : Oid := [1, 3, 6, 1, 6, 3, 1, 1, 4, 1, 0]

/-- `OID_LINK_DOWN` -/
def oidLinkDown : Oid := [1, 3, 6, 1, 6, 3, 1, 1, 5, 3]

/-- `OID_LINK_UP` -/
def oidLinkUp : Oid := [1, 3, 6, 1, 6, 3, 1, 1, 5, 4]

/-- `OID_IF_INDEX` -/
def oidIfIndex : Oid := [1, 3, 6, 1, 2, 1, 2, 2, 1, 1]

inductive TrapKind where
  | v2
  | v1 (genericTrap : Int)

/-- Whether the trap is a linkUp, of a linkUp or linkDown. -/
def linkUp (kind : TrapKind) (varbinds : List VarBind) : Option Bool :=
  match kind with
  | .v1 genericTrap => if genericTrap = 3 then some true else if genericTrap = 2 then some false else none
  | .v2 => (varbinds.find? fun vb => decide (vb.oid = oidSnmpTrapOid)).bind fun vb =>
    match vb.value with
    | .oid components =>
      if components = oidLinkUp then some true else if components = oidLinkDown then some false else none
    | _ => none

def ifindexValue (oid : Oid) : RawValue → Option Int
  | .integer v => some v
  | .counter32 v | .unsigned32 v | .timeticks v => some v
  | _ => oid[oidIfIndex.length]?.map fun sub => asI64 sub

/-- `link_event` -/
def linkEvent (kind : TrapKind) (varbinds : List VarBind) : Option (Int × Bool) := do
  let up ← linkUp kind varbinds
  let vb ← varbinds.find? fun vb => Embedded.startsWith vb.oid oidIfIndex
  let ifindex ← ifindexValue vb.oid vb.value
  some (ifindex, up)

theorem linkEvent_eq (kind : TrapKind) (varbinds : List VarBind) :
    linkEvent kind varbinds = (linkUp kind varbinds).bind fun up =>
      ((varbinds.find? fun vb => Embedded.startsWith vb.oid oidIfIndex).bind fun vb =>
        ifindexValue vb.oid vb.value).map fun ifindex => (ifindex, up) := by
  unfold linkEvent
  cases linkUp kind varbinds with
  | none => rfl
  | some up =>
    cases varbinds.find? fun vb => Embedded.startsWith vb.oid oidIfIndex with
    | none => rfl
    | some vb => cases hv : ifindexValue vb.oid vb.value <;> simp [hv]

inductive MessageType where
  | trapV1
  | trap
  | informRequest
  | other
  deriving DecidableEq, Repr

/-- A message as it is parsed, its variable bindings as owned values. -/
structure Pdu where
  messageType : MessageType
  /-- `v1_trap_info`: the generic trap of a v1 header -/
  genericTrap : Option Int
  varbinds : List VarBind

def linkEventFromPdu (pdu : Pdu) : Option (Int × Bool) :=
  match pdu.messageType with
  | .trapV1 => linkEvent (.v1 (pdu.genericTrap.getD (-1))) pdu.varbinds
  | .trap | .informRequest => linkEvent .v2 pdu.varbinds
  | .other => none

/-! ## The map of sources -/

variable {ι : Type} [DecidableEq ι]

/-- What the database and the resolver answer when the map is built. -/
structure Lookups (ι : Type) where
  database : Database
  /-- a connection is checked out of the pool -/
  pool : Bool
  /-- `Device::monitored` -/
  monitored : Bool
  /-- `to_socket_addrs` of a name -/
  toSocketAddrs : String → Option (List ι)

/-- The addresses of a device's name. -/
def Lookups.addrs (l : Lookups ι) (device : Device) : List ι := (l.toSocketAddrs device.fqdn).getD []

/-- The devices that the map is built from. -/
def Lookups.devices (l : Lookups ι) : List Device :=
  if l.pool then Device.monitored l.database l.monitored else []

structure SourceMap (ι : Type) where
  byIp : PMap ι String

def SourceMap.rebuild (l : Lookups ι) : SourceMap ι where
  byIp := l.devices.foldl (fun byIp device =>
    (l.addrs device).foldl (fun byIp addr => byIp.insert addr device.fqdn) byIp) PMap.empty

def SourceMap.resolve (sources : SourceMap ι) (ip : ι) : Option String := sources.byIp ip

/-! ## The receiver -/

structure Receiver (ι : Type) where
  sources : SourceMap ι
  lastRefresh : Rat

def Receiver.start (now : Rat) (l : Lookups ι) : Receiver ι := ⟨.rebuild l, now⟩

/-- One turn of the loop, and what is met in it. -/
structure Turn (ι : Type) where
  now : Rat
  /-- what a map built at the start of the turn is built from -/
  refresh : Lookups ι
  /-- the datagram, with the message it parses to; `none` when the wait ends without one -/
  received : Option (ι × Option Pdu)
  /-- what a map built for a source that is not known is built from -/
  retry : Lookups ι
  /-- a connection is checked out of the pool for the report -/
  pool : Bool
  /-- the lock on the metrics is taken -/
  lock : Bool

/-- The link trap that the turn receives, with its source. -/
def Turn.linkTrap (t : Turn ι) : Option (ι × Int × Bool) :=
  t.received.bind fun d => (d.2.bind linkEventFromPdu).map fun event => (d.1, event)

/-- The map is built anew once it is a minute old. -/
def Receiver.refresh (r : Receiver ι) (t : Turn ι) : Receiver ι :=
  if 60 ≤ t.now - r.lastRefresh then ⟨.rebuild t.refresh, t.now⟩ else r

/-- The name of the source, from the map as it stands or else from a new one. -/
def Receiver.resolve (r : Receiver ι) (t : Turn ι) (ip : ι) : Receiver ι × Option String :=
  match r.sources.resolve ip with
  | some fqdn => (r, some fqdn)
  | none => (⟨.rebuild t.retry, t.now⟩, (SourceMap.rebuild t.retry).resolve ip)

/-- The report of a link trap, when it reaches the metrics. -/
def Turn.report (t : Turn ι) (fqdn : String) (ifindex : Int) (up : Bool) : Option InterfaceMonitorReport :=
  if t.pool && t.lock then some (.linkEvent fqdn (asI32 ifindex) up) else none

/-- One turn: the receiver after it, and what is reported. -/
def Receiver.turn (r : Receiver ι) (t : Turn ι) : Receiver ι × Option InterfaceMonitorReport :=
  match t.linkTrap with
  | none => (r.refresh t, none)
  | some (ip, ifindex, up) =>
    let resolved := (r.refresh t).resolve t ip
    (resolved.1, resolved.2.bind fun fqdn => t.report fqdn ifindex up)

def Receiver.step (r : Receiver ι) (t : Turn ι) : Receiver ι := (r.turn t).1

/-! ## Who owns an address -/

/-- **The owner of an address**: the last monitored device whose name resolves to it. -/
def Lookups.Owner (l : Lookups ι) (ip : ι) (fqdn : String) : Prop :=
  ∃ device earlier later, l.devices = earlier ++ device :: later ∧ device.fqdn = fqdn ∧
    ip ∈ l.addrs device ∧ ∀ other ∈ later, ip ∉ l.addrs other

theorem foldl_insert_addrs (fqdn : String) (ip : ι) (addrs : List ι) (byIp : PMap ι String) :
    addrs.foldl (fun byIp addr => byIp.insert addr fqdn) byIp ip =
      if ip ∈ addrs then some fqdn else byIp ip := by
  induction addrs generalizing byIp with
  | nil => simp
  | cons addr rest ih =>
    rw [List.foldl_cons, ih, PMap.insert_apply]
    by_cases hrest : ip ∈ rest
    · simp [hrest]
    · simp [hrest]

/-- The map holds the devices that come last. -/
theorem resolve_rebuild (l : Lookups ι) (ip : ι) :
    (SourceMap.rebuild l).resolve ip =
      (l.devices.reverse.find? fun device => decide (ip ∈ l.addrs device)).map Device.fqdn := by
  unfold SourceMap.resolve SourceMap.rebuild
  dsimp only
  generalize l.devices = devices
  induction devices using List.reverseRecOn with
  | nil => rfl
  | append_singleton devices last ih =>
    rw [List.foldl_append, List.foldl_cons, List.foldl_nil, foldl_insert_addrs, ih,
      List.reverse_append, List.reverse_singleton, List.singleton_append, List.find?_cons]
    by_cases hlast : ip ∈ l.addrs last
    · simp [hlast]
    · simp [hlast]

theorem resolve_rebuild_eq_some_iff {l : Lookups ι} {ip : ι} {fqdn : String} :
    (SourceMap.rebuild l).resolve ip = some fqdn ↔ l.Owner ip fqdn := by
  rw [resolve_rebuild, Option.map_eq_some_iff]
  refine exists_congr fun device => ?_
  rw [List.find?_eq_some_iff_append]
  constructor
  · intro h
    obtain ⟨⟨hmem, before, after, hsplit, hbefore⟩, hname⟩ := h
    refine ⟨after.reverse, before.reverse, ?_, hname, by simpa using hmem, fun other hother => ?_⟩
    · rw [← List.reverse_reverse l.devices, hsplit]
      simp
    · simpa using hbefore other (List.mem_reverse.mp hother)
  · intro h
    obtain ⟨earlier, later, hsplit, hname, hmem, hlater⟩ := h
    refine ⟨⟨by simpa using hmem, later.reverse, earlier.reverse, by simp [hsplit], fun other hother => ?_⟩, hname⟩
    simpa using hlater other (List.mem_reverse.mp hother)

/-! ## What becomes of a trap -/

/-- What the turn has looked up, with the time it is dated to: at its start when the map is a
minute old, and for a link trap whose source the map does not know. -/
def Receiver.lookups (r : Receiver ι) (t : Turn ι) : List (Rat × Lookups ι) :=
  (if 60 ≤ t.now - r.lastRefresh then [(t.now, t.refresh)] else []) ++
    match t.linkTrap with
    | none => []
    | some (ip, _, _) => if ((r.refresh t).sources.resolve ip).isNone then [(t.now, t.retry)] else []

/-- **What becomes of a turn.** A link trap is reported to the metrics (if they can be reached)
under a name that its address belonged to within the last minute, or it is dropped, where no
name owns the address as the turn looks it up. Nothing else is reported. -/
def Turn.Settled (known : List (Rat × Lookups ι)) (t : Turn ι) (out : Option InterfaceMonitorReport) : Prop :=
  (t.linkTrap = none → out = none) ∧
  ∀ ip ifindex up, t.linkTrap = some (ip, ifindex, up) →
    (∃ fqdn, (∃ look ∈ known, t.now - look.1 < 60 ∧ look.2.Owner ip fqdn) ∧ out = t.report fqdn ifindex up) ∨
    (out = none ∧ (t.now, t.retry) ∈ known ∧ ∀ fqdn, ¬t.retry.Owner ip fqdn)

/-- The map is one of those that were built, dated as it was. -/
def Receiver.Built (known : List (Rat × Lookups ι)) (r : Receiver ι) : Prop :=
  ∃ look ∈ known, r.lastRefresh = look.1 ∧ r.sources = .rebuild look.2

theorem Receiver.Built.mono {known more : List (Rat × Lookups ι)} {r : Receiver ι} (h : r.Built known) :
    r.Built (known ++ more) := by
  obtain ⟨look, hlook, hbuilt⟩ := h
  exact ⟨look, List.mem_append_left more hlook, hbuilt⟩

variable {known : List (Rat × Lookups ι)} {r : Receiver ι} {t : Turn ι}

/-- After the start of a turn the map is less than a minute old. -/
theorem Receiver.Built.refresh (h : r.Built known) :
    (r.refresh t).Built (known ++ r.lookups t) ∧ t.now - (r.refresh t).lastRefresh < 60 := by
  unfold Receiver.refresh Receiver.lookups
  by_cases hold : 60 ≤ t.now - r.lastRefresh
  · rw [if_pos hold, if_pos hold]
    exact ⟨⟨(t.now, t.refresh), by simp, rfl, rfl⟩, by simp⟩
  · simp only [if_neg hold]
    exact ⟨h.mono, not_le.mp hold⟩

/-- A name is found in the map as it stands, or in the one that is then built. -/
theorem Receiver.resolve_cases (r : Receiver ι) (t : Turn ι) (ip : ι) :
    (∃ fqdn, r.sources.resolve ip = some fqdn ∧ r.resolve t ip = (r, some fqdn)) ∨
    (r.sources.resolve ip = none ∧
      r.resolve t ip = (⟨.rebuild t.retry, t.now⟩, (SourceMap.rebuild t.retry).resolve ip)) := by
  unfold Receiver.resolve
  cases r.sources.resolve ip with
  | none => exact .inr ⟨rfl, rfl⟩
  | some fqdn => exact .inl ⟨fqdn, rfl, rfl⟩

theorem Receiver.Built.turn (h : r.Built known) :
    (r.step t).Built (known ++ r.lookups t) ∧ t.Settled (known ++ r.lookups t) (r.turn t).2 := by
  obtain ⟨hbuilt, hfresh⟩ := h.refresh (t := t)
  unfold Receiver.step Receiver.turn
  cases htrap : t.linkTrap with
  | none => exact ⟨hbuilt, fun _ => rfl, by simp [htrap]⟩
  | some trap =>
    obtain ⟨ip, ifindex, up⟩ := trap
    have hsettled : ∀ {out}, ((∃ fqdn, (∃ look ∈ known ++ r.lookups t, t.now - look.1 < 60 ∧ look.2.Owner ip fqdn) ∧
        out = t.report fqdn ifindex up) ∨
          (out = none ∧ (t.now, t.retry) ∈ known ++ r.lookups t ∧ ∀ fqdn, ¬t.retry.Owner ip fqdn)) →
        t.Settled (known ++ r.lookups t) out := by
      intro out hout
      refine ⟨by simp [htrap], fun ip' ifindex' up' htrap' => ?_⟩
      obtain ⟨rfl, rfl, rfl⟩ : ip = ip' ∧ ifindex = ifindex' ∧ up = up' := by
        simpa [htrap] using htrap'
      exact hout
    dsimp only
    rcases (r.refresh t).resolve_cases t ip with ⟨fqdn, hfound, hsame⟩ | ⟨hunknown, hanew⟩
    · rw [hsame]
      obtain ⟨look, hlook, hdate, hsources⟩ := hbuilt
      refine ⟨⟨look, hlook, hdate, hsources⟩, hsettled (.inl ⟨fqdn, ⟨look, hlook, ?_, ?_⟩, rfl⟩)⟩
      · rwa [← hdate]
      · rwa [← resolve_rebuild_eq_some_iff, ← hsources]
    · -- the source is not known, so the second look-up is made
      have hretry : (t.now, t.retry) ∈ known ++ r.lookups t := by
        simp [Receiver.lookups, htrap, hunknown]
      rw [hanew]
      refine ⟨⟨_, hretry, rfl, rfl⟩, hsettled ?_⟩
      cases hfound : (SourceMap.rebuild t.retry).resolve ip with
      | none =>
        refine .inr ⟨rfl, hretry, fun fqdn howner => ?_⟩
        rw [resolve_rebuild_eq_some_iff.mpr howner] at hfound
        cases hfound
      | some fqdn =>
        exact .inl ⟨fqdn, ⟨_, hretry, by simp, resolve_rebuild_eq_some_iff.mp hfound⟩, rfl⟩

/-- What the receiver looks up in the turns. -/
def Receiver.consulted (r : Receiver ι) : List (Turn ι) → List (Rat × Lookups ι)
  | [] => []
  | t :: turns => r.lookups t ++ (r.step t).consulted turns

theorem Receiver.consulted_append (r : Receiver ι) (before : List (Turn ι)) (t : Turn ι) :
    r.consulted (before ++ [t]) = r.consulted before ++ (before.foldl Receiver.step r).lookups t := by
  induction before generalizing r with
  | nil => simp [Receiver.consulted]
  | cons first before ih => simp [Receiver.consulted, ih]

theorem Receiver.Built.run (h : r.Built known) (turns : List (Turn ι)) :
    (turns.foldl Receiver.step r).Built (known ++ r.consulted turns) := by
  induction turns generalizing r known with
  | nil => simpa [Receiver.consulted] using h
  | cons t turns ih => simpa [Receiver.consulted] using ih h.turn.1

/-- **Every turn of every run is settled**, by what was looked up by its end. -/
theorem settled_run (now : Rat) (l : Lookups ι) (before : List (Turn ι)) (t : Turn ι) :
    t.Settled ((now, l) :: (Receiver.start now l).consulted (before ++ [t]))
      ((before.foldl Receiver.step (.start now l)).turn t).2 := by
  have hstart : (Receiver.start now l).Built [(now, l)] := ⟨(now, l), List.mem_cons_self, rfl, rfl⟩
  have hsettled := ((hstart.run before).turn (t := t)).2
  rw [Receiver.consulted_append]
  simpa using hsettled

end JaspyNexus.Snmp.Trap
