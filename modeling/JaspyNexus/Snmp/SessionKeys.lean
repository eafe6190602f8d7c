import Mathlib
import JaspyNexus.Lib.HashMap
import JaspyNexus.Lib.StableSort
import JaspyNexus.Snmp.Adapt
import JaspyNexus.Snmp.HostSpec

/-! # The keys of the sessions

`session_key` of `snmp/embedded.rs`: the learned state of a destination is kept under one
string of its name, its community, with the VLAN written into it, and the port, held apart by
the unit separator. The views of the debug pages read the parts out of the keys again. -/

namespace JaspyNexus.Snmp.Embedded
open JaspyNexus.Lib

/-- U+001F. -/
def separator : Char := Char.ofNat 0x1f

/-- `session_key`. -/
def sessionKey (host : HostSpec) (port : Nat) : String :=
  host.fqdn ++ String.singleton separator ++ host.effectiveCommunity.getD "" ++ String.singleton separator ++
    Nat.repr port

/-- `primary_session_key`. -/
def primarySessionKey (fqdn community : String) (port : Nat) : String :=
  sessionKey (HostSpec.withCommunity fqdn community) port

/-- `DeviceLatency`, with the configuration it was made under. -/
structure DeviceLatency where
  state : DeviceState
  cfg : AdaptCfg

inductive SessionStatus where
  | normal
  | slow
  | dead
  deriving DecidableEq, Repr

def DeviceLatency.status (handle : DeviceLatency) : SessionStatus :=
  if handle.state.dead then .dead
  else if handle.cfg.baseMs < handle.state.effectiveMs then .slow
  else .normal

structure SnmpHealthSnapshot where
  dead : Bool
  effectiveTimeoutMs : Nat
  ewmaLatencyMs : Option Rat
  deriving DecidableEq

/-- The badge of the device page: none for a session that is as it should be. -/
def DeviceLatency.health (handle : DeviceLatency) : Option SnmpHealthSnapshot :=
  match handle.status with
  | .normal => none
  | .slow => some ⟨false, handle.state.effectiveMs, handle.state.ewmaMs⟩
  | .dead => some ⟨true, handle.state.effectiveMs, handle.state.ewmaMs⟩

structure SessionSnapshot where
  vlan : Option Nat
  port : Nat
  effectiveMs : Nat
  baseMs : Nat
  ewmaMs : Option Rat
  consecTimeouts : Nat
  dead : Bool
  status : SessionStatus
  deriving DecidableEq

/-- The VLAN that a community ends in. -/
def vlanOf (community : String) : Option Nat :=
  (Text.rsplitOnce community '@').bind fun parts => Text.parseUnsigned (2 ^ 32) parts.2

def snapshot (vlan : Option Nat) (port : Nat) (handle : DeviceLatency) : SessionSnapshot where
  vlan := vlan
  port := port
  effectiveMs := handle.state.effectiveMs
  baseMs := handle.cfg.baseMs
  ewmaMs := handle.state.ewmaMs
  consecTimeouts := handle.state.consecTimeouts
  dead := handle.state.dead
  status := handle.status

/-- `session_snapshot`. What follows a third part is not looked at. -/
def sessionSnapshot (key : String) (handle : DeviceLatency) : Option (String × SessionSnapshot) :=
  match Text.split key separator with
  | fqdn :: community :: port :: _ =>
    (Text.parseUnsigned (2 ^ 16) port).map fun port => (fqdn, snapshot (vlanOf community) port handle)
  | _ => none

/-- `DEVICE_LATENCY`. -/
abbrev LatencyRegistry := HashMap String DeviceLatency

/-- What `sessions_for` sorts by. -/
def vlanRank (s : SessionSnapshot) : Nat := s.vlan.elim 0 (· + 1)

/-- `sessions_for`. -/
def sessionsFor (registry : LatencyRegistry) (fqdn : String) : List SessionSnapshot :=
  let mine := registry.entries.filter fun e => Text.startsWith e.1 (fqdn ++ String.singleton separator)
  sortByKey vlanRank (mine.filterMap fun e => (sessionSnapshot e.1 e.2).map Prod.snd)

/-- `snmp_health_for`: the first session that is found. -/
def snmpHealthFor (registry : LatencyRegistry) (fqdn community : String) : Option SnmpHealthSnapshot :=
  let start := fqdn ++ String.singleton separator ++ community ++ String.singleton separator
  (registry.entries.find? fun e => Text.startsWith e.1 start).bind fun e => e.2.health

/-! ## What a key says -/

/-- A destination whose name and community do not have the separator in them. -/
structure Session where
  host : HostSpec
  port : Fin (2 ^ 16)
  fqdn_plain : separator ∉ host.fqdn.toList
  community_plain : ∀ community, host.community = some community → separator ∉ community.toList

namespace Session

def key (s : Session) : String := sessionKey s.host s.port

/-- The community the destination is asked with. -/
def community (s : Session) : String := s.host.effectiveCommunity.getD ""

theorem separator_notMem_repr (n : Nat) : separator ∉ (Nat.repr n).toList := fun h =>
  absurd (Text.isDigit_of_mem_repr h) (by decide)

theorem separator_notMem_toString (v : Int) : separator ∉ (toString v).toList := by
  cases v with
  | ofNat n => exact separator_notMem_repr n
  | negSucc n =>
    show separator ∉ ("-" ++ Nat.repr (n + 1)).toList
    rw [String.toList_append, List.mem_append]
    exact fun h => h.elim (by decide) (separator_notMem_repr (n + 1))

theorem separator_notMem_community (s : Session) : separator ∉ s.community.toList := by
  unfold community HostSpec.effectiveCommunity
  cases hc : s.host.community with
  | none => simp
  | some community =>
    have hplain := s.community_plain community hc
    cases hv : s.host.vlan with
    | none => simpa using hplain
    | some vlan =>
      have hvlan := separator_notMem_toString vlan
      simp only [Option.map_some, Option.getD_some, String.toList_append, List.mem_append]
      exact fun h => h.elim (fun h => h.elim hplain (by decide)) hvlan

theorem toList_key (s : Session) : s.key.toList =
    s.host.fqdn.toList ++ separator :: (s.community.toList ++ separator :: (Nat.repr s.port).toList) := by
  unfold key sessionKey community
  simp

/-- **A key reads back as its parts.** -/
theorem split_key (s : Session) :
    Text.split s.key separator = [s.host.fqdn, s.community, Nat.repr s.port] := by
  show Text.split (s.host.fqdn ++ String.singleton separator ++ s.community ++ String.singleton separator ++
    Nat.repr s.port) separator = _
  rw [Text.split_append, Text.split_append, Text.split_eq_singleton s.fqdn_plain,
    Text.split_eq_singleton s.separator_notMem_community, Text.split_eq_singleton (separator_notMem_repr _)]
  rfl

theorem sessionSnapshot_key (s : Session) (handle : DeviceLatency) :
    sessionSnapshot s.key handle = some (s.host.fqdn, snapshot (vlanOf s.community) s.port handle) := by
  unfold sessionSnapshot
  rw [s.split_key]
  simp only [Text.parseUnsigned_repr s.port.isLt, Option.map_some]

/-- The names that a key starts with. -/
theorem startsWith_fqdn_iff (s : Session) {fqdn : String} (hf : separator ∉ fqdn.toList) :
    Text.startsWith s.key (fqdn ++ String.singleton separator) = true ↔ s.host.fqdn = fqdn := by
  unfold Text.startsWith
  rw [List.isPrefixOf_iff_prefix, toList_key]
  simp only [String.toList_append, String.toList_singleton]
  constructor
  · rintro ⟨rest, hrest⟩
    rw [List.append_assoc, List.singleton_append] at hrest
    exact (String.toList_inj.mp (Text.append_separator_inj hf s.fqdn_plain hrest).1).symm
  · rintro rfl
    exact ⟨_, by rw [List.append_assoc, List.singleton_append]⟩

theorem startsWith_community_iff (s : Session) {fqdn community : String} (hf : separator ∉ fqdn.toList)
    (hc : separator ∉ community.toList) :
    Text.startsWith s.key (fqdn ++ String.singleton separator ++ community ++ String.singleton separator) = true ↔
      s.host.fqdn = fqdn ∧ s.community = community := by
  unfold Text.startsWith
  rw [List.isPrefixOf_iff_prefix, toList_key]
  simp only [String.toList_append, String.toList_singleton]
  constructor
  · rintro ⟨rest, hrest⟩
    simp only [List.append_assoc, List.singleton_append] at hrest
    obtain ⟨hfqdn, hrest⟩ := Text.append_separator_inj hf s.fqdn_plain hrest
    have hcommunity := (Text.append_separator_inj hc s.separator_notMem_community hrest).1
    exact ⟨(String.toList_inj.mp hfqdn).symm, (String.toList_inj.mp hcommunity).symm⟩
  · rintro ⟨rfl, rfl⟩
    exact ⟨(Nat.repr s.port).toList, by simp⟩

end Session

namespace Session

/-- The VLAN of a destination that is asked for one. -/
def vlan (s : Session) : Option Nat :=
  s.host.vlan.bind fun v => if s.host.community.isSome ∧ 0 ≤ v ∧ v < 2 ^ 32 then some v.toNat else none

/-- **The VLAN is read back from the community** when nothing else in it looks like one. -/
theorem vlanOf_community (s : Session)
    (hat : ∀ community, s.host.community = some community → '@' ∉ community.toList) :
    vlanOf s.community = s.vlan := by
  unfold community vlan HostSpec.effectiveCommunity vlanOf
  cases hc : s.host.community with
  | none =>
    rw [Text.rsplitOnce_eq_none (by simp)]
    simp
  | some community =>
    cases hv : s.host.vlan with
    | none =>
      simp only [Option.map_some, Option.getD_some]
      rw [Text.rsplitOnce_eq_none (hat community hc)]
      rfl
    | some v =>
      have hsplit : Text.rsplitOnce (community ++ "@" ++ toString v) '@' = some (community, toString v) :=
        Text.rsplitOnce_append (HostSpec.at_notMem_toString v)
      simp only [Option.map_some, Option.getD_some, hsplit, Option.bind_some, Option.isSome_some, true_and]
      cases v with
      | ofNat n =>
        show Text.parseUnsigned (2 ^ 32) (Nat.repr n) = _
        split
        · next hlt =>
          have hn : n < 2 ^ 32 := by simpa using hlt
          exact Text.parseUnsigned_repr hn
        · next hge =>
          have hn : ¬n < 2 ^ 32 := by simpa using hge
          exact Text.parseUnsigned_repr_eq_none hn
      | negSucc n =>
        have hneg : ¬(0 ≤ Int.negSucc n ∧ Int.negSucc n < 2 ^ 32) := fun h =>
          absurd h.1 (by simp)
        rw [if_neg hneg]
        show Text.parseUnsigned (2 ^ 32) ("-" ++ Nat.repr (n + 1)) = none
        have hcons := @Text.parseUnsigned_cons (2 ^ 32) '-' (by decide) (by decide) (Nat.repr (n + 1)).toList
        rwa [String.ofList_cons, String.ofList_toList] at hcons

/-- A community with a VLAN has the character that is written before it. -/
theorem unwritten_of_plain (s : Session) (h : '@' ∉ s.community.toList) :
    s.host.community = none ∨ s.host.vlan = none := by
  unfold community HostSpec.effectiveCommunity at h
  cases hc : s.host.community with
  | none => exact .inl rfl
  | some community =>
    cases hv : s.host.vlan with
    | none => exact .inr rfl
    | some vlan =>
      simp [hc, hv] at h

theorem vlan_of_unwritten (s : Session) (h : s.host.community = none ∨ s.host.vlan = none) : s.vlan = none := by
  unfold vlan
  rcases h with h | h
  · simp [h]
  · rw [h]
    rfl

end Session

/-! ## The views -/

/-- What the sessions of the devices hold, each under its own key. -/
structure Live where
  entries : List (Session × DeviceLatency)
  nodup : (entries.map fun e => e.1.key).Nodup

/-- The registry, visited in this order. -/
def Live.registry (l : Live) : LatencyRegistry where
  entries := l.entries.map fun e => ⟨e.1.key, e.2⟩
  nodupKeys := by
    show (List.map Sigma.fst (l.entries.map _)).Nodup
    rw [List.map_map]
    exact l.nodup

namespace Live

theorem sessionsFor_perm (l : Live) {fqdn : String} (hf : separator ∉ fqdn.toList) :
    (sessionsFor l.registry fqdn).Perm
      ((l.entries.filter fun e => e.1.host.fqdn = fqdn).map fun e =>
        snapshot (vlanOf e.1.community) e.1.port e.2) := by
  refine (sortByKey_perm vlanRank _).trans (List.Perm.of_eq ?_)
  unfold registry
  dsimp only
  induction l.entries with
  | nil => rfl
  | cons e rest ih =>
    simp only [List.map_cons, List.filter_cons]
    by_cases he : e.1.host.fqdn = fqdn
    · have hstart := (e.1.startsWith_fqdn_iff hf).mpr he
      rw [if_pos hstart, if_pos (decide_eq_true he), List.filterMap_cons, e.1.sessionSnapshot_key]
      simp only [Option.map_some, List.map_cons, ih]
    · have hstart := mt (e.1.startsWith_fqdn_iff hf).mp he
      rw [if_neg hstart, if_neg (by simpa using he), ih]

/-- The session that `snmp_health_for` finds, for the very name and community. -/
def primary (l : Live) (fqdn community : String) : Option (Session × DeviceLatency) :=
  l.entries.find? fun e => e.1.host.fqdn = fqdn ∧ e.1.community = community

/-- The badge is about a session with the very community. -/
theorem snmpHealthFor_eq (l : Live) {fqdn community : String} (hf : separator ∉ fqdn.toList)
    (hc : separator ∉ community.toList) :
    snmpHealthFor l.registry fqdn community = (l.primary fqdn community).bind fun e => e.2.health := by
  unfold snmpHealthFor registry primary
  dsimp only
  rw [List.find?_map, Option.bind_map]
  congr 2
  funext e
  rw [Function.comp_apply, Bool.eq_iff_iff, decide_eq_true_iff]
  exact e.1.startsWith_community_iff hf hc

/-- The badge is not about a session for a VLAN: one that is found with a community was not asked
for any. -/
theorem primary_unwritten (l : Live) {fqdn community : String} (hplain : '@' ∉ community.toList)
    {e : Session × DeviceLatency} (h : l.primary fqdn community = some e) :
    (e.1.host.community = none ∨ e.1.host.vlan = none) ∧ e.1.vlan = none := by
  unfold primary at h
  have hfound : e.1.host.fqdn = fqdn ∧ e.1.community = community := by simpa using List.find?_some h
  have hunwritten := e.1.unwritten_of_plain (hfound.2 ▸ hplain)
  exact ⟨hunwritten, e.1.vlan_of_unwritten hunwritten⟩

/-- **The views of a device**, from keys alone: one line for each of its sessions and none for
those of another, with its port, its VLAN and its state, the sessions without a VLAN first and
the others by their VLAN; and a badge about a session with the very community, never one for a
VLAN. -/
theorem views_faithful (l : Live) {fqdn community : String} (hf : separator ∉ fqdn.toList)
    (hc : separator ∉ community.toList) (hplain : '@' ∉ community.toList)
    (hat : ∀ e ∈ l.entries, ∀ written, e.1.host.community = some written → '@' ∉ written.toList) :
    (sessionsFor l.registry fqdn).Perm
        ((l.entries.filter fun e => e.1.host.fqdn = fqdn).map fun e => snapshot e.1.vlan e.1.port e.2) ∧
      ((sessionsFor l.registry fqdn).Pairwise fun s t => vlanRank s ≤ vlanRank t) ∧
      (snmpHealthFor l.registry fqdn community = (l.primary fqdn community).bind fun e => e.2.health) ∧
      ∀ e, l.primary fqdn community = some e →
        (e.1.host.community = none ∨ e.1.host.vlan = none) ∧ e.1.vlan = none := by
  refine ⟨?_, pairwise_sortByKey vlanRank _, l.snmpHealthFor_eq hf hc, fun e => l.primary_unwritten hplain⟩
  refine (l.sessionsFor_perm hf).trans (List.Perm.of_eq (List.map_congr_left fun e he => ?_))
  rw [e.1.vlanOf_community (hat e (List.mem_filter.mp he).1)]

end Live

/-- A device with a slow session, and a dead one for a VLAN. -/
def slowAndDead : Live where
  entries :=
    [(⟨⟨"sw.lan", some "public", some 200, .inline⟩, 161, by decide, fun _ hc => by cases hc; decide⟩,
        ⟨⟨none, 6, 3, 2000, true⟩, .default⟩),
      (⟨⟨"sw.lan", some "public", none, .queryParam⟩, 161, by decide, fun _ hc => by cases hc; decide⟩,
        ⟨⟨some 2850, 0, 0, 6000, false⟩, .default⟩)]
  nodup := by decide +kernel

theorem views_faithful_slowAndDead :
    snmpHealthFor slowAndDead.registry "sw.lan" "public" = some ⟨false, 6000, some 2850⟩ ∧
      ∀ e, slowAndDead.primary "sw.lan" "public" = some e →
        (e.1.host.community = none ∨ e.1.host.vlan = none) ∧ e.1.vlan = none := by
  have hviews := @Live.views_faithful slowAndDead "sw.lan" "public" (by decide) (by decide) (by decide)
    (fun e he written hw => by
      simp only [slowAndDead, List.mem_cons, List.not_mem_nil, or_false] at he
      rcases he with rfl | rfl <;> cases hw <;> decide)
  refine ⟨?_, hviews.2.2.2⟩
  rw [hviews.2.2.1]
  decide +kernel

end JaspyNexus.Snmp.Embedded
