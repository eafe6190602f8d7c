import Mathlib
import JaspyNexus.Lib.HashMap
import JaspyNexus.Snmp.Types
import JaspyNexus.Utilities.ImdsHistory

/-! # The interface poll

`poll_device` of `collectors/poller.rs`: three table queries, merged by ifIndex, become
one report to the store. Which of the queries were answered is not part of the merged
map. -/

namespace JaspyNexus.Collectors.Poller
open JaspyNexus.Lib JaspyNexus.Snmp JaspyNexus.Models JaspyNexus.Utilities
open JaspyNexus.Utilities.Health

/-! ## Columns -/

def tryGetU64 : Option Val → Option Nat
  | some (.uint64 v) => some v
  | _ => none

def tryGetI32 : Option Val → Option Int
  | some (.uint64 v) => if v > 2 ^ 31 - 1 then none else some v
  | _ => none

/-- No character beyond ASCII has a lower case in `"up"`. -/
def tryGetUpdownAsBool : Option Val → Option Bool
  | some (.str v) => some (v.toLower == "up")
  | _ => none

def tryGetString : Option Val → Option String
  | some (.str v) => some v
  | _ => none

def counterColumn : Counter → String
  | .inOctets => "IF-MIB::ifHCInOctets"
  | .outOctets => "IF-MIB::ifHCOutOctets"
  | .inUnicastPackets => "IF-MIB::ifHCInUcastPkts"
  | .inMulticastPackets => "IF-MIB::ifHCInMulticastPkts"
  | .inBroadcastPackets => "IF-MIB::ifHCInBroadcastPkts"
  | .outUnicastPackets => "IF-MIB::ifHCOutUcastPkts"
  | .outMulticastPackets => "IF-MIB::ifHCOutMulticastPkts"
  | .outBroadcastPackets => "IF-MIB::ifHCOutBroadcastPkts"
  | .inErrors => "IF-MIB::ifInErrors"
  | .outErrors => "IF-MIB::ifOutErrors"
  | .outDiscards => "IF-MIB::ifOutDiscards"

def causeColumn : String := "CISCO-ERR-DISABLE-MIB::cErrDisableIfStatusCause"
def recoverColumn : String := "CISCO-ERR-DISABLE-MIB::cErrDisableIfStatusTimeToRecover"

/-- The columns that the queries gave for one ifIndex. -/
abbrev Objects := PMap String Val

def interfaceReportFromEntry (ifIndex : Int) (objects : Objects) : InterfaceReport where
  ifIndex := ifIndex
  counters := fun c => tryGetU64 (objects (counterColumn c))
  up := tryGetUpdownAsBool (objects "IF-MIB::ifOperStatus")
  speed := tryGetI32 (objects "IF-MIB::ifHighSpeed")
  adminUp := tryGetUpdownAsBool (objects "IF-MIB::ifAdminStatus")
  errDisabled := some (objects causeColumn).isSome
  errDisableCause := tryGetString (objects causeColumn)
  errDisableRecoverSecs := tryGetI32 (objects recoverColumn)

/-! ## The queries -/

/-- How `snmp.table` ends: an error is a timeout where `is_snmp_timeout` says so. -/
inductive Query where
  | ok (response : Response)
  | timeout
  | error

def Query.succeeded : Query → Bool
  | .ok _ => true
  | _ => false

def Query.timedOut : Query → Bool
  | .timeout => true
  | _ => false

/-- The rows that a query has brought. -/
def Query.entries : Query → List ResultEntry
  | .ok response => response.entries
  | _ => []

/-- `v as i32`. -/
def asI32 (v : Int) : Int := v.bmod (2 ^ 32)

/-- What the poll has gathered, by ifIndex. -/
abbrev Statistics := HashMap Int Objects

/-- One row: a column that is there stays as it is. -/
def mergeEntry (statistics : Statistics) (entry : ResultEntry) : Statistics :=
  match entry.index "IF-MIB::ifIndex" with
  | some ifIndex => statistics.upsert (asI32 ifIndex) PMap.empty fun held key => (held key).or (entry.objects key)
  | none => statistics

def mergeQueryResult (statistics : Statistics) (result : Query) : Statistics :=
  result.entries.foldl mergeEntry statistics

/-- How the three queries of a poll end. -/
structure Queries where
  ifTable : Query
  ifXTable : Query
  errDisable : Query

/-- `ifTable` before `ifXTable`, and the err-disabled ports last. -/
def Queries.statistics (queries : Queries) : Statistics :=
  mergeQueryResult (mergeQueryResult (mergeQueryResult ∅ queries.ifTable) queries.ifXTable) queries.errDisable

structure PollDevice where
  fqdn : String
  snmpCommunity : Option String
  deriving DecidableEq, Repr

/-- The report from what was gathered, in the order in which the map is visited. -/
def monitorReport (fqdn : String) (statistics : Statistics) : InterfaceMonitorReport where
  deviceFqdn := fqdn
  interfaces := statistics.entries.map fun e => interfaceReportFromEntry e.1 e.2

/-- `poll_device`: the report, and whether a query that counts has timed out. What was
gathered is visited in the order of `visited`. -/
def pollDevice (device : PollDevice) (queries : Queries) (visited : Statistics) :
    Option (InterfaceMonitorReport × Bool) :=
  device.snmpCommunity.map fun _ =>
    (monitorReport device.fqdn visited, queries.ifTable.timedOut || queries.ifXTable.timedOut)

/-! ## What is gathered -/

/-- The row is merged: it has an ifIndex. -/
def Indexed (entry : ResultEntry) : Prop := (entry.index "IF-MIB::ifIndex").isSome = true

section
variable {statistics : Statistics} {entries : List ResultEntry} {i : Int}

theorem mem_mergeEntry {entry : ResultEntry} : i ∈ mergeEntry statistics entry ↔
    i ∈ statistics ∨ ∃ v, entry.index "IF-MIB::ifIndex" = some v ∧ asI32 v = i := by
  unfold mergeEntry
  cases h : entry.index "IF-MIB::ifIndex" with
  | none => simp
  | some v => simp [HashMap.mem_upsert, or_comm, eq_comm]

/-- An ifIndex is gathered when a row has it. -/
theorem mem_foldl_mergeEntry : i ∈ entries.foldl mergeEntry statistics ↔
    i ∈ statistics ∨ ∃ entry ∈ entries, ∃ v, entry.index "IF-MIB::ifIndex" = some v ∧ asI32 v = i := by
  induction entries generalizing statistics with
  | nil => simp
  | cons entry rest ih =>
    rw [List.foldl_cons, ih, mem_mergeEntry]
    simp [or_assoc]

end

variable {queries : Queries}

theorem mem_statistics {i : Int} : i ∈ queries.statistics ↔
    ∃ entry ∈ queries.ifTable.entries ++ queries.ifXTable.entries ++ queries.errDisable.entries,
      ∃ v, entry.index "IF-MIB::ifIndex" = some v ∧ asI32 v = i := by
  unfold Queries.statistics mergeQueryResult
  rw [← List.foldl_append, ← List.foldl_append, mem_foldl_mergeEntry, List.append_assoc]
  simp

/-- Nothing is gathered exactly when no row has an ifIndex. -/
theorem statistics_eq_nil_iff : queries.statistics.entries = [] ↔
    ∀ entry ∈ queries.ifTable.entries ++ queries.ifXTable.entries ++ queries.errDisable.entries, ¬Indexed entry := by
  constructor
  · intro hnil entry hentry hindexed
    obtain ⟨v, hv⟩ := Option.isSome_iff_exists.mp hindexed
    have hmem : asI32 v ∈ queries.statistics := mem_statistics.mpr ⟨entry, hentry, v, hv, rfl⟩
    have hkeys : asI32 v ∈ queries.statistics.entries.keys := hmem
    rw [hnil] at hkeys
    cases hkeys
  · intro hnone
    refine List.eq_nil_iff_forall_not_mem.mpr fun e he => ?_
    have hmem : e.1 ∈ queries.statistics := List.mem_keys_of_mem he
    obtain ⟨entry, hentry, v, hv, -⟩ := mem_statistics.mp hmem
    exact hnone entry hentry (by simp [Indexed, hv])

/-! ## The err-disabled state -/

/-- What the store holds of an interface's err-disabled state: whether, why, and for how
long. -/
def errDisableState (imds : Imds) (f : String) (i : Int) : Option (Bool × Option String × Option Int) :=
  (imds.interface? f i).map fun m => (m.errDisabled, m.errDisableCause, m.errDisableRecoverSecs)

section
variable {cfg : HealthConfig} {imds : Imds} {ctx : ReportContext} {now : Nat}

/-- A report that says nothing of the state leaves it. -/
theorem errDisableState_reportInterface (fqdn : String) {r : InterfaceReport} (hr : r.errDisabled = none)
    (f : String) (i : Int) :
    errDisableState (imds.reportInterface cfg fqdn ctx now r).1 f i = errDisableState imds f i := by
  unfold errDisableState
  rcases reportInterface_cases imds fqdn cfg ctx now r with ⟨m, -, hm, -, hentry, -⟩ | ⟨-, -, -, hsame | ⟨m, v, hm, hentry⟩⟩
  · rw [hentry]
    split
    next hat =>
      obtain ⟨rfl, rfl⟩ := hat
      simp [hm, applyReport, hr]
    next => rfl
  · rw [hsame]
  · rw [hentry]
    split
    next hat =>
      obtain ⟨rfl, rfl⟩ := hat
      simp [hm]
    next => rfl

/-- So do all reports of a poll that say nothing of it. -/
theorem errDisableState_reportInterfaces {remote : Int → Option RemoteInfo} {imr : InterfaceMonitorReport}
    (hnone : ∀ r ∈ imr.interfaces, r.errDisabled = none) (f : String) (i : Int) :
    errDisableState (imds.reportInterfaces cfg remote imr now).1 f i = errDisableState imds f i := by
  unfold Imds.reportInterfaces
  cases hd : imds.devices imr.deviceFqdn with
  | none => rfl
  | some device =>
    have hpoll : errDisableState (imds.setLastPoll imr.deviceFqdn device now) f i = errDisableState imds f i :=
      congrArg (Option.map _) (interface?_setLastPoll imds imr.deviceFqdn f i hd now)
    refine List.foldlRecOn (motive := fun st : Imds × List Event => errDisableState st.1 f i = errDisableState imds f i)
      imr.interfaces _ hpoll fun st hst r hr => ?_
    exact (errDisableState_reportInterface imr.deviceFqdn (hnone r hr) f i).trans hst

end

/-! ## The law -/

/-- **A failed walk says nothing**: a report of the poll carries an err-disabled state only
when the query for it was answered, and otherwise the store's err-disabled states stand. -/
structure ErrDisableAuthoritative (queries : Queries) (imr : InterfaceMonitorReport) : Prop where
  answered : ∀ r ∈ imr.interfaces, r.errDisabled.isSome = true → queries.errDisable.succeeded = true
  stands : queries.errDisable.succeeded = false → ∀ cfg imds remote now f i,
    errDisableState (Imds.reportInterfaces cfg imds remote imr now).1 f i = errDisableState imds f i

/-- The other two queries gave nothing to report. -/
def Unanswered (queries : Queries) : Prop :=
  ∀ entry ∈ queries.ifTable.entries ++ queries.ifXTable.entries, ¬Indexed entry

/-- A report that says nothing keeps to what is known. -/
theorem ErrDisableAuthoritative.of_nil {imr : InterfaceMonitorReport} (hnil : imr.interfaces = []) :
    ErrDisableAuthoritative queries imr where
  answered r hr := by
    rw [hnil] at hr
    cases hr
  stands _ cfg imds remote now f i := by
    refine errDisableState_reportInterfaces (fun r hr => ?_) f i
    rw [hnil] at hr
    cases hr

theorem ErrDisableAuthoritative.of_succeeded {imr : InterfaceMonitorReport}
    (hanswered : queries.errDisable.succeeded = true) : ErrDisableAuthoritative queries imr where
  answered _ _ _ := hanswered
  stands hfailed := absurd hanswered (by simp [hfailed])

/-- A query that fails brings no rows. -/
theorem Query.entries_eq_nil {query : Query} (hfailed : query.succeeded = false) : query.entries = [] := by
  cases query with
  | ok response => cases hfailed
  | _ => rfl

/-- With nothing to report and the walk failed, nothing is gathered. -/
theorem Unanswered.statistics_eq_nil (hrows : Unanswered queries) (hfailed : queries.errDisable.succeeded = false) :
    queries.statistics.entries = [] := by
  refine statistics_eq_nil_iff.mpr fun entry hentry => ?_
  rw [Query.entries_eq_nil hfailed, List.append_nil] at hentry
  exact hrows entry hentry

/-- **Whose absence counts**: whatever becomes of the three queries, and in whatever order
the merged map is visited, the reports keep to what is known exactly when the err-disable
query was answered or there is nothing to report. -/
theorem errDisable_authoritative_iff (device : PollDevice) (queries : Queries) :
    (∀ visited report timedOut, HashMap.Reorders queries.statistics visited →
      pollDevice device queries visited = some (report, timedOut) → ErrDisableAuthoritative queries report) ↔
    device.snmpCommunity = none ∨ queries.errDisable.succeeded = true ∨ Unanswered queries := by
  constructor
  · intro hsound
    by_contra hnot
    obtain ⟨hcommunity, hnot⟩ := not_or.mp hnot
    obtain ⟨hfailed, hrows⟩ := not_or.mp hnot
    obtain ⟨community, hcommunity⟩ := Option.ne_none_iff_exists'.mp hcommunity
    have hreport := hsound queries.statistics _ _ (.refl _) (by rw [pollDevice, hcommunity, Option.map_some])
    refine hrows fun entry hentry hindexed => ?_
    obtain ⟨v, hv⟩ := Option.isSome_iff_exists.mp hindexed
    have hmem : asI32 v ∈ queries.statistics :=
      mem_statistics.mpr ⟨entry, List.mem_append_left _ hentry, v, hv, rfl⟩
    obtain ⟨objects, hobjects⟩ := HashMap.mem_iff_lookup.mp hmem
    exact hfailed (hreport.answered _ (List.mem_map_of_mem (HashMap.mem_entries.mpr hobjects)) rfl)
  · intro hcases visited report timedOut horder hreport
    obtain ⟨community, hcommunity, heq⟩ := Option.map_eq_some_iff.mp hreport
    cases heq
    rcases hcases with hnone | hanswered | hrows
    · rw [hnone] at hcommunity
      cases hcommunity
    · exact .of_succeeded hanswered
    · cases hfailed : queries.errDisable.succeeded with
      | true => exact .of_succeeded hfailed
      | false =>
        have hperm : queries.statistics.entries.Perm visited.entries := horder
        rw [hrows.statistics_eq_nil hfailed] at hperm
        exact .of_nil (by rw [monitorReport, hperm.symm.eq_nil, List.map_nil])

/-! ## A walk that fails -/

/-- A switch with port 9, which the last poll found disabled by BPDU guard. -/
def guarded : Imds where
  devices := PMap.insert PMap.empty "sw.lan" { newDevice "sw.lan" none with
    interfaces := PMap.insert PMap.empty 9 { newInterface "ethernetCsmacd" "Gi1/0/9" false none with
      errDisabled := true
      errDisableCause := some "bpduGuard"
      errDisableRecoverSecs := some 39 } }
  health := PMap.empty

/-- A poll whose last query times out. -/
def halfAnswered : Queries where
  ifTable := .ok ⟨"IF-MIB::ifTable", [], [], [⟨"sw.lan", fun key => if key = "IF-MIB::ifIndex" then some 9 else none,
    fun key => if key = "IF-MIB::ifOperStatus" then some (.str "down") else none⟩]⟩
  ifXTable := .ok ⟨"IF-MIB::ifXTable", [], [], []⟩
  errDisable := .timeout

/-- **A timed-out walk clears the port**: its cause and its recovery time are gone. -/
theorem failed_walk_clears_port :
    let report := monitorReport "sw.lan" halfAnswered.statistics
    pollDevice ⟨"sw.lan", some "public"⟩ halfAnswered halfAnswered.statistics = some (report, false) ∧
      ¬ ErrDisableAuthoritative halfAnswered report ∧
      errDisableState guarded "sw.lan" 9 = some (true, some "bpduGuard", some 39) ∧
      errDisableState (Imds.reportInterfaces .default guarded (fun _ => none) report 1000).1 "sw.lan" 9 =
        some (false, none, none) := by
  have hcleared : errDisableState (Imds.reportInterfaces .default guarded (fun _ => none)
      (monitorReport "sw.lan" halfAnswered.statistics) 1000).1 "sw.lan" 9 = some (false, none, none) := by
    decide +kernel
  refine ⟨rfl, fun hsound => ?_, by decide +kernel, hcleared⟩
  have hstands := hsound.stands rfl .default guarded (fun _ => none) 1000 "sw.lan" 9
  rw [hcleared] at hstands
  exact absurd hstands (by decide +kernel)

end JaspyNexus.Collectors.Poller
