import Mathlib
import JaspyNexus.Utilities.ImdsReports

/-! # The states of a bundle

An up/down event names the state of every link of the bundle. The state is the one
that the batch carries for the link, and where it carries none the one held before;
whether the batch's row is then accepted does not matter for it. The two sides are
compared here: what an event says of a link, and what the store holds of it after the
batch. -/

namespace JaspyNexus.Utilities.ImdsReports
open JaspyNexus.Lib JaspyNexus.Lib.Edges JaspyNexus.Models JaspyNexus.Utilities.Health

/-! ## The rows of an interface -/

/-- The rows of a batch for one interface. -/
def rowsOf (imr : InterfaceMonitorReport) (ifIndex : Int) : List InterfaceReport :=
  imr.interfaces.filter fun r => r.ifIndex = ifIndex

/-- The state that the last row carries. -/
def carriedUp (imr : InterfaceMonitorReport) (ifIndex : Int) : Option Bool :=
  (rowsOf imr ifIndex).getLast?.bind fun r => r.up

/-- The row that is accepted, if one is: what the others find is what it left. -/
def acceptedRow (now : Nat) : InterfaceMetrics → List InterfaceReport → Option InterfaceReport
  | _, [] => none
  | m, r :: rest => if verdict m r now = .accepted then some r else acceptedRow now (leaves m r now) rest

/-- The state that the accepted row carries. -/
def acceptedUp (m : InterfaceMetrics) (imr : InterfaceMonitorReport) (ifIndex : Int) (now : Nat) :
    Option Bool :=
  (acceptedRow now m (rowsOf imr ifIndex)).bind fun r => r.up

/-- What the rows leave of an entry. -/
def settled (m : InterfaceMetrics) (rows : List InterfaceReport) (now : Nat) : InterfaceMetrics :=
  rows.foldl (fun m r => leaves m r now) m

theorem leaves_stale {m : InterfaceMetrics} {now : Nat} (h : now ≤ m.lastReport) (r : InterfaceReport) :
    leaves m r now = m := by
  unfold leaves verdict
  rw [if_pos h]

theorem settled_stale {m : InterfaceMetrics} {now : Nat} (h : now ≤ m.lastReport)
    (rows : List InterfaceReport) : settled m rows now = m := by
  induction rows with
  | nil => rfl
  | cons r rest ih =>
    rw [settled, List.foldl_cons, leaves_stale h]
    exact ih

/-- A report that is not accepted leaves the state. -/
theorem leaves_up {m : InterfaceMetrics} {r : InterfaceReport} {now : Nat}
    (h : verdict m r now ≠ .accepted) : (leaves m r now).up = m.up := by
  unfold leaves
  cases hv : verdict m r now with
  | stale => rfl
  | rejected => rfl
  | accepted => exact absurd hv h

theorem leaves_name (m : InterfaceMetrics) (r : InterfaceReport) (now : Nat) :
    (leaves m r now).name = m.name := by
  unfold leaves
  cases verdict m r now <;> rfl

theorem leaves_accepted {m : InterfaceMetrics} {r : InterfaceReport} {now : Nat}
    (h : verdict m r now = .accepted) : leaves m r now = applyReport m r now := by
  unfold leaves
  rw [h]

/-- Nothing is accepted at the time of the last report. -/
theorem acceptedRow_stale {m : InterfaceMetrics} {now : Nat} (h : now ≤ m.lastReport)
    (rows : List InterfaceReport) : acceptedRow now m rows = none := by
  induction rows with
  | nil => rfl
  | cons r rest ih =>
    have hv : verdict m r now = .stale := if_pos h
    rw [acceptedRow, hv, if_neg (by decide), leaves_stale h]
    exact ih

theorem mem_of_acceptedRow {m : InterfaceMetrics} {rows : List InterfaceReport} {now : Nat} {r : InterfaceReport}
    (h : acceptedRow now m rows = some r) : r ∈ rows := by
  induction rows generalizing m with
  | nil => cases h
  | cons first rest ih =>
    rw [acceptedRow] at h
    split at h
    · rw [Option.some.inj h]
      exact List.mem_cons_self
    · exact List.mem_cons_of_mem _ (ih h)

/-- **The rows leave the state of the accepted one.** -/
theorem settled_up (m : InterfaceMetrics) (rows : List InterfaceReport) (now : Nat) :
    (settled m rows now).up = ((acceptedRow now m rows).bind fun r => r.up).or m.up := by
  induction rows generalizing m with
  | nil => rfl
  | cons r rest ih =>
    rw [settled, List.foldl_cons, acceptedRow]
    by_cases hv : verdict m r now = .accepted
    · -- the others are stale
      rw [if_pos hv, leaves_accepted hv]
      have hrest : settled (applyReport m r now) rest now = applyReport m r now :=
        settled_stale (Nat.le_refl _) rest
      rw [settled] at hrest
      rw [hrest]
      rfl
    · rw [if_neg hv, ← leaves_up hv]
      exact ih (leaves m r now)

theorem settled_name (m : InterfaceMetrics) (rows : List InterfaceReport) (now : Nat) :
    (settled m rows now).name = m.name := by
  induction rows generalizing m with
  | nil => rfl
  | cons r rest ih =>
    rw [settled, List.foldl_cons, ← leaves_name m r now]
    exact ih _

/-! ## A whole batch -/

section Batch
variable (cfg : HealthConfig) (fqdn : String) (ctx : ReportContext) (now : Nat)

theorem interface?_reportInterface (imds : Imds) (r : InterfaceReport) (i : Int) :
    (imds.reportInterface cfg fqdn ctx now r).1.interface? fqdn i =
      if r.ifIndex = i then (imds.interface? fqdn i).map fun m => leaves m r now
      else imds.interface? fqdn i := by
  cases hm : imds.interface? fqdn r.ifIndex with
  | none =>
    rw [reportInterface_absent hm]
    split
    · next h => rw [← h, hm]; rfl
    · rfl
  | some m =>
    rw [(reportInterface_present hm cfg ctx now).1 fqdn i]
    by_cases h : r.ifIndex = i
    · rw [if_pos ⟨rfl, h.symm⟩, if_pos h, ← h, hm]
      rfl
    · rw [if_neg fun hc => h hc.2.symm, if_neg h]

/-- The rows of a batch, one after the other. -/
def batch (imds : Imds) (rows : List InterfaceReport) : Imds × List Event :=
  rows.foldl (fun st r =>
    let out := st.1.reportInterface cfg fqdn ctx now r
    (out.1, st.2 ++ out.2)) (imds, [])

theorem foldl_batch (rows : List InterfaceReport) (imds : Imds) (events : List Event) :
    rows.foldl (fun st r =>
      let out := st.1.reportInterface cfg fqdn ctx now r
      (out.1, st.2 ++ out.2)) (imds, events) =
    ((batch cfg fqdn ctx now imds rows).1, events ++ (batch cfg fqdn ctx now imds rows).2) := by
  induction rows generalizing imds events with
  | nil => simp [batch]
  | cons r rest ih =>
    rw [batch, List.foldl_cons, List.foldl_cons, ih, ih, List.nil_append]
    simp only [List.append_assoc]

theorem batch_cons (imds : Imds) (r : InterfaceReport) (rest : List InterfaceReport) :
    batch cfg fqdn ctx now imds (r :: rest) =
      let out := imds.reportInterface cfg fqdn ctx now r
      ((batch cfg fqdn ctx now out.1 rest).1, out.2 ++ (batch cfg fqdn ctx now out.1 rest).2) := by
  rw [batch, List.foldl_cons, foldl_batch]
  simp only [List.nil_append]

/-- **What a batch leaves of an interface** is what its rows leave of it. -/
theorem interface?_batch (imds : Imds) (rows : List InterfaceReport) (i : Int) :
    (batch cfg fqdn ctx now imds rows).1.interface? fqdn i =
      (imds.interface? fqdn i).map fun m => settled m (rows.filter fun r => r.ifIndex = i) now := by
  induction rows generalizing imds with
  | nil => cases h : imds.interface? fqdn i <;> simp [batch, settled, h]
  | cons r rest ih =>
    rw [batch_cons]
    dsimp only
    rw [ih, interface?_reportInterface]
    by_cases h : r.ifIndex = i
    · rw [if_pos h, List.filter_cons_of_pos (by simpa using h), Option.map_map]
      rfl
    · rw [if_neg h, List.filter_cons_of_neg (by simpa using h)]

/-- A row that is not accepted leaves what the events of the others say. -/
theorem reportEvents_leaves {m : InterfaceMetrics} {r : InterfaceReport} (h : verdict m r now ≠ .accepted)
    (r' : InterfaceReport) : reportEvents fqdn ctx (leaves m r now) r' = reportEvents fqdn ctx m r' := by
  unfold leaves
  cases hv : verdict m r now with
  | stale => rfl
  | rejected => rfl
  | accepted => exact absurd hv h

theorem reportInterface_events (imds : Imds) (r : InterfaceReport) (e : Event) :
    e ∈ (imds.reportInterface cfg fqdn ctx now r).2 ↔ ∃ m, imds.interface? fqdn r.ifIndex = some m ∧
      verdict m r now = .accepted ∧ e ∈ reportEvents fqdn ctx m r := by
  cases hm : imds.interface? fqdn r.ifIndex with
  | none =>
    rw [reportInterface_absent hm]
    simp
  | some m =>
    rw [(reportInterface_present hm cfg ctx now).2.2]
    split
    · next hv => simp [hv]
    · next hv => simp [hv]

/-- **The events of a batch** are those of the rows that are accepted, one for each
interface at most, against the entry that the batch found. -/
theorem mem_batch_events {imds : Imds} {rows : List InterfaceReport} {e : Event} :
    e ∈ (batch cfg fqdn ctx now imds rows).2 ↔ ∃ i m r, imds.interface? fqdn i = some m ∧
      acceptedRow now m (rows.filter fun r => r.ifIndex = i) = some r ∧ e ∈ reportEvents fqdn ctx m r := by
  induction rows generalizing imds with
  | nil => simp [batch, acceptedRow]
  | cons r rest ih =>
    rw [batch_cons]
    dsimp only
    rw [List.mem_append, ih, reportInterface_events]
    simp only [interface?_reportInterface]
    constructor
    · rintro (⟨m, hm, hv, he⟩ | ⟨i, m', r', hm', hrow, he⟩)
      · refine ⟨r.ifIndex, m, r, hm, ?_, he⟩
        rw [List.filter_cons_of_pos (by simp), acceptedRow, if_pos hv]
      · by_cases hi : r.ifIndex = i
        · rw [if_pos hi] at hm'
          obtain ⟨m, hm, rfl⟩ := Option.map_eq_some_iff.mp hm'
          have hv : verdict m r now ≠ .accepted := fun hv => by
            rw [leaves_accepted hv, acceptedRow_stale (Nat.le_refl now)] at hrow
            cases hrow
          refine ⟨i, m, r', hm, ?_, by rwa [reportEvents_leaves fqdn ctx now hv] at he⟩
          rw [List.filter_cons_of_pos (by simpa using hi), acceptedRow, if_neg hv]
          exact hrow
        · rw [if_neg hi] at hm'
          refine ⟨i, m', r', hm', ?_, he⟩
          rw [List.filter_cons_of_neg (by simpa using hi)]
          exact hrow
    · rintro ⟨i, m, r', hm, hrow, he⟩
      by_cases hi : r.ifIndex = i
      · rw [List.filter_cons_of_pos (by simpa using hi), acceptedRow] at hrow
        by_cases hv : verdict m r now = .accepted
        · rw [if_pos hv] at hrow
          obtain rfl := Option.some.inj hrow
          exact .inl ⟨m, hi ▸ hm, hv, he⟩
        · rw [if_neg hv] at hrow
          refine .inr ⟨i, leaves m r now, r', ?_, hrow, ?_⟩
          · rw [if_pos hi, hm]
            rfl
          · rwa [reportEvents_leaves fqdn ctx now hv]
      · rw [List.filter_cons_of_neg (by simpa using hi)] at hrow
        refine .inr ⟨i, m, r', ?_, hrow, he⟩
        rw [if_neg hi]
        exact hm

end Batch

/-! ## The statuses of a bundle -/

/-- A state as an event writes it. -/
def statusText : Option Bool → String
  | some true => "up"
  | some false => "down"
  | none => "unknown"

theorem statusText_inj {up up' : Option Bool} : statusText up = statusText up' ↔ up = up' := by
  rcases up with _ | (_ | _) <;> rcases up' with _ | (_ | _) <;> simp [statusText]

/-- The indexes of the links bundled with the row's interface. -/
def memberIndexes (remote : Int → Option RemoteInfo) (r : InterfaceReport) : List Int :=
  ((remote r.ifIndex).map RemoteInfo.linkIndexes).getD []

/-- The member listed last under a name, of those that the store has. -/
def lastNamed (entry : Int → Option InterfaceMetrics) (members : List Int) (name : String) :
    Option Int :=
  members.reverse.find? fun i => (entry i).any fun m => m.name = name

theorem lookup_filter_ne {l : List (String × String)} (name name' : String) :
    (l.filter fun e => e.1 ≠ name').lookup name = if name = name' then none else l.lookup name := by
  induction l with
  | nil => simp
  | cons e rest ih =>
    obtain ⟨key, value⟩ := e
    by_cases hkey : key = name'
    · rw [List.filter_cons_of_neg (by simpa using hkey), ih]
      by_cases hname : name = name'
      · rw [if_pos hname, if_pos hname]
      · rw [if_neg hname, if_neg hname, List.lookup_cons]
        have hne : (name == key) = false := by
          rw [hkey]
          simpa using hname
        rw [hne]
    · rw [List.filter_cons_of_pos (by simpa using hkey), List.lookup_cons, List.lookup_cons, ih]
      by_cases hname : name = key
      · subst hname
        simp [hkey]
      · have hbeq : (name == key) = false := by simpa using hname
        rw [hbeq]

/-- **What the annotation says under a name**: the state of the last member listed under
it, as the batch carries it, or else as it was held. -/
theorem lookup_lagLinkStatuses (ctx : ReportContext) (remote : Option RemoteInfo) (name : String) :
    (lagLinkStatuses ctx remote).lookup name =
      (lastNamed ctx.snapshot ((remote.map RemoteInfo.linkIndexes).getD []) name).map fun i =>
        statusText ((ctx.reportUps i).join.or ((ctx.snapshot i).bind fun m => m.up)) := by
  unfold lagLinkStatuses lastNamed
  generalize (remote.map RemoteInfo.linkIndexes).getD [] = members
  induction members using List.reverseRecOn with
  | nil => rfl
  | append_singleton members i ih =>
    rw [List.foldl_append, List.foldl_cons, List.foldl_nil, List.reverse_append,
      List.reverse_singleton, List.singleton_append]
    cases hm : ctx.snapshot i with
    | none =>
      dsimp only
      rw [ih, List.find?_cons_of_neg (by simp [hm])]
    | some m =>
      dsimp only
      rw [List.lookup_append, lookup_filter_ne, ih, List.lookup_cons, List.lookup_nil]
      by_cases hname : name = m.name
      · rw [List.find?_cons_of_pos (by simp [hm, hname]), if_pos hname, Option.none_or, hname,
          Option.map_some, hm, Option.bind_some]
        rcases (ctx.reportUps i).join.or m.up with _ | (_ | _) <;> simp [statusText]
      · have hbeq : (name == m.name) = false := by simpa using hname
        rw [List.find?_cons_of_neg (by simp [hm, Ne.symm hname]), if_neg hname, hbeq, Option.or_none]

/-- The states a batch carries, by interface: the last row's. -/
theorem reportUps_eq (remote : Int → Option RemoteInfo) (device : DeviceMetrics)
    (imr : InterfaceMonitorReport) (i : Int) :
    ((reportContext remote device imr).reportUps i).join = carriedUp imr i := by
  have hlast : ∀ rows : List InterfaceReport,
      rows.foldl (fun ups r => PMap.insert ups r.ifIndex r.up) PMap.empty i =
        ((rows.filter fun r => r.ifIndex = i).getLast?).map fun r => r.up := by
    intro rows
    induction rows using List.reverseRecOn with
    | nil => rfl
    | append_singleton rows r ih =>
      rw [List.foldl_append, List.foldl_cons, List.foldl_nil, PMap.insert_apply, List.filter_append]
      by_cases h : i = r.ifIndex
      · rw [if_pos h, List.filter_cons_of_pos (by simpa using h.symm), List.filter_nil,
          List.getLast?_concat]
        rfl
      · rw [if_neg h, ih, List.filter_cons_of_neg (by simpa using Ne.symm h), List.filter_nil,
          List.append_nil]
  unfold reportContext carriedUp rowsOf
  dsimp only
  rw [hlast]
  cases (imr.interfaces.filter fun r => r.ifIndex = i).getLast? <;> rfl

/-! ## The annotation and the store -/

/-- What an event's annotation says of the members of its bundle, and when that is what
the store holds after the batch. -/
structure Annotates (before after : Imds) (imr : InterfaceMonitorReport) (now : Nat)
    (members : List Int) (links : List (String × String)) : Prop where
  written : ∀ name, links.lookup name =
    (lastNamed (before.interface? imr.deviceFqdn) members name).map fun i =>
      statusText ((carriedUp imr i).or ((before.interface? imr.deviceFqdn i).bind fun m => m.up))
  agrees : ∀ i m, before.interface? imr.deviceFqdn i = some m →
    ∃ m', after.interface? imr.deviceFqdn i = some m' ∧ m'.name = m.name ∧
      (statusText ((carriedUp imr i).or m.up) = statusText m'.up ↔
        (carriedUp imr i).or m.up = (acceptedUp m imr i now).or m.up)

/-- The row is the one that is accepted for its interface, and takes it from the one state
to the other: the event under that name is the row's. -/
structure Emits (imds : Imds) (remote : Int → Option RemoteInfo) (imr : InterfaceMonitorReport) (now : Nat)
    (r : InterfaceReport) (name : String) (neighbor : Option Neighbor) (old new : Bool) : Prop where
  accepted : ∃ m, imds.interface? imr.deviceFqdn r.ifIndex = some m ∧ m.name = name ∧ m.up = some old ∧
    acceptedRow now m (rowsOf imr r.ifIndex) = some r
  enters : r.up = some new
  changes : old ≠ new
  neighbor : neighbor = (remote r.ifIndex).map RemoteInfo.neighbor

/-- Every up/down event of the batch is that of a row, and annotates the row's bundle so;
and every row that changes a state has its event. -/
structure BatchAnnotates (cfg : HealthConfig) (imds : Imds) (remote : Int → Option RemoteInfo)
    (imr : InterfaceMonitorReport) (now : Nat) : Prop where
  annotated : ∀ fqdn name neighbor links old new,
    Event.interfaceUpDown fqdn name neighbor links old new ∈ (imds.reportInterfaces cfg remote imr now).2 →
    fqdn = imr.deviceFqdn ∧ ∃ r, Emits imds remote imr now r name neighbor old new ∧
      Annotates imds (imds.reportInterfaces cfg remote imr now).1 imr now (memberIndexes remote r) links
  emitted : ∀ r name neighbor old new, Emits imds remote imr now r name neighbor old new → ∃ links,
      Event.interfaceUpDown imr.deviceFqdn name neighbor links old new ∈ (imds.reportInterfaces cfg remote imr now).2 ∧
      Annotates imds (imds.reportInterfaces cfg remote imr now).1 imr now (memberIndexes remote r) links

/-- The annotation as it is meant to be: every member of the row's bundle under the state
that the store holds after the batch. -/
def HoldsAfter (cfg : HealthConfig) (imds : Imds) (remote : Int → Option RemoteInfo)
    (imr : InterfaceMonitorReport) (now : Nat) : Prop :=
  ∀ fqdn name neighbor links old new,
    Event.interfaceUpDown fqdn name neighbor links old new ∈
      (imds.reportInterfaces cfg remote imr now).2 →
    ∃ r, Emits imds remote imr now r name neighbor old new ∧ ∀ i ∈ memberIndexes remote r,
      ∃ m, (imds.reportInterfaces cfg remote imr now).1.interface? imr.deviceFqdn i = some m ∧
        links.lookup m.name = some (statusText m.up)

/-- The up/down event of a row. -/
theorem upDown_mem_reportEvents {fqdn fqdn' name : String} {ctx : ReportContext}
    {m : InterfaceMetrics} {r : InterfaceReport} {neighbor : Option Neighbor}
    {links : List (String × String)} {old new : Bool} :
    Event.interfaceUpDown fqdn' name neighbor links old new ∈ reportEvents fqdn ctx m r ↔
      fqdn' = fqdn ∧ name = m.name ∧ neighbor = (ctx.remote r.ifIndex).map RemoteInfo.neighbor ∧
      links = lagLinkStatuses ctx (ctx.remote r.ifIndex) ∧ m.up = some old ∧ r.up = some new ∧ old ≠ new := by
  have hedge : ((edge m.up r.up = some (old, new)) ↔ m.up = some old ∧ r.up = some new ∧ old ≠ new) := edge_eq_some
  rw [reportEvents_eq, List.mem_append, ← hedge]
  constructor
  · rintro (h | h)
    · obtain ⟨e, he, heq⟩ := List.mem_map.mp h
      cases heq
      exact ⟨rfl, rfl, rfl, rfl, Option.mem_toList.mp he⟩
    · obtain ⟨e, -, heq⟩ := List.mem_map.mp h
      cases heq
  · rintro ⟨rfl, rfl, rfl, rfl, he⟩
    exact .inl (List.mem_map.mpr ⟨(old, new), Option.mem_toList.mpr he, rfl⟩)

section
variable (cfg : HealthConfig) {imds : Imds} (remote : Int → Option RemoteInfo) (imr : InterfaceMonitorReport)
  (now : Nat) {device : DeviceMetrics}

/-- A report is a batch against what it found. -/
theorem reportInterfaces_eq_batch (hd : imds.devices imr.deviceFqdn = some device) :
    imds.reportInterfaces cfg remote imr now = batch cfg imr.deviceFqdn (reportContext remote device imr) now
      (imds.setLastPoll imr.deviceFqdn device now) imr.interfaces := by
  unfold Imds.reportInterfaces
  rw [hd]
  rfl

theorem annotates_lagLinkStatuses (hd : imds.devices imr.deviceFqdn = some device) (r : InterfaceReport) :
    Annotates imds (imds.reportInterfaces cfg remote imr now).1 imr now (memberIndexes remote r)
      (lagLinkStatuses (reportContext remote device imr) (remote r.ifIndex)) := by
  have hsnapshot : device.interfaces = imds.interface? imr.deviceFqdn := by
    funext i
    unfold Imds.interface?
    rw [hd, Option.bind_some]
  refine ⟨fun name => ?_, fun i m hm => ?_⟩
  · rw [lookup_lagLinkStatuses]
    unfold memberIndexes
    rw [show (reportContext remote device imr).snapshot = imds.interface? imr.deviceFqdn from hsnapshot]
    congr 1
    funext i
    rw [reportUps_eq]
  · refine ⟨settled m (rowsOf imr i) now, ?_, settled_name _ _ _, ?_⟩
    · rw [reportInterfaces_eq_batch cfg remote imr now hd, interface?_batch, interface?_setLastPoll _ _ _ _ hd, hm]
      rfl
    · rw [statusText_inj, settled_up]
      rfl

/-- An up/down event is that of the row that emits it, with the statuses of its bundle. -/
theorem upDown_mem_reportInterfaces (hd : imds.devices imr.deviceFqdn = some device) {fqdn name : String}
    {neighbor : Option Neighbor} {links : List (String × String)} {old new : Bool} :
    Event.interfaceUpDown fqdn name neighbor links old new ∈ (imds.reportInterfaces cfg remote imr now).2 ↔
      fqdn = imr.deviceFqdn ∧ ∃ r, Emits imds remote imr now r name neighbor old new ∧
        links = lagLinkStatuses (reportContext remote device imr) (remote r.ifIndex) := by
  rw [reportInterfaces_eq_batch cfg remote imr now hd, mem_batch_events]
  simp only [interface?_setLastPoll _ _ _ _ hd, upDown_mem_reportEvents]
  constructor
  · rintro ⟨i, m, r, hm, hrow, rfl, rfl, rfl, rfl, hold, hnew, hne⟩
    have hindex : r.ifIndex = i := by simpa using (List.mem_filter.mp (mem_of_acceptedRow hrow)).2
    subst hindex
    exact ⟨rfl, r, ⟨⟨m, hm, rfl, hold, hrow⟩, hnew, hne, rfl⟩, rfl⟩
  · rintro ⟨rfl, r, ⟨⟨m, hm, rfl, hold, hrow⟩, hnew, hne, rfl⟩, rfl⟩
    exact ⟨r.ifIndex, m, r, hm, hrow, rfl, rfl, rfl, rfl, hold, hnew, hne⟩

end

/-- **Every batch annotates its events with what it carries**, and the annotation is what
the store holds afterwards exactly where the row that is accepted leaves that state. -/
theorem batch_annotates (cfg : HealthConfig) (imds : Imds) (remote : Int → Option RemoteInfo)
    (imr : InterfaceMonitorReport) (now : Nat) : BatchAnnotates cfg imds remote imr now := by
  cases hd : imds.devices imr.deviceFqdn with
  | none =>
    refine ⟨fun fqdn name neighbor links old new he => ?_, fun r name neighbor old new hemits => ?_⟩
    · unfold Imds.reportInterfaces at he
      rw [hd] at he
      cases he
    · obtain ⟨m, hm, -⟩ := hemits.accepted
      rw [Imds.interface?, hd] at hm
      cases hm
  | some device =>
    refine ⟨fun fqdn name neighbor links old new he => ?_, fun r name neighbor old new hemits => ?_⟩
    · obtain ⟨hfqdn, r, hemits, rfl⟩ := (upDown_mem_reportInterfaces cfg remote imr now hd).mp he
      exact ⟨hfqdn, r, hemits, annotates_lagLinkStatuses cfg remote imr now hd r⟩
    · exact ⟨_, (upDown_mem_reportInterfaces cfg remote imr now hd).mpr ⟨rfl, r, hemits, rfl⟩,
        annotates_lagLinkStatuses cfg remote imr now hd r⟩

/-! ## A rejected member -/

/-- Both links of a bundle. -/
def bundle : Int → Option RemoteInfo := fun _ =>
  some { neighbor := ⟨"sw2.example.net", "Gi0/1"⟩, linkIndexes := [1, 2] }

/-- A row with a state and an octet count. -/
def bundleRow (ifIndex : Int) (up : Bool) (inOctets : Nat) : InterfaceReport where
  ifIndex := ifIndex
  counters := fun c => if c = .inOctets then some inOctets else none
  up := some up
  speed := none
  adminUp := none
  errDisabled := none
  errDisableCause := none
  errDisableRecoverSecs := none

/-- Two links of a bundle, both reported up with 1000 octets. -/
def bundleUp : Imds :=
  let known := ((Imds.empty.refreshDevice "sw1" none 500).refreshInterface "sw1" 1
    "ethernetCsmacd" "Gi0/1" true none).refreshInterface "sw1" 2 "ethernetCsmacd" "Gi0/2" true none
  (known.reportInterfaces .default bundle ⟨"sw1", [bundleRow 1 true 1000, bundleRow 2 true 1000]⟩ 1000).1

/-- **A rejected row is annotated all the same**: the second link's counter goes back, its
row is refused and the store still holds it up, but the first link's event says down. -/
theorem rejected_member_annotated :
    ¬HoldsAfter .default bundleUp bundle
      ⟨"sw1", [bundleRow 1 false 2000, bundleRow 2 false 500]⟩ 2000 := by
  intro h
  have hevent : Event.interfaceUpDown "sw1" "Gi0/1" (some ⟨"sw2.example.net", "Gi0/1"⟩)
      [("Gi0/1", "down"), ("Gi0/2", "down")] true false ∈
      (bundleUp.reportInterfaces .default bundle
        ⟨"sw1", [bundleRow 1 false 2000, bundleRow 2 false 500]⟩ 2000).2 := by
    decide +kernel
  obtain ⟨r, -, hheld⟩ := h _ _ _ _ _ _ hevent
  obtain ⟨m, hm, hwritten⟩ := hheld 2 (by simp [memberIndexes, bundle])
  have hentry : ((bundleUp.reportInterfaces .default bundle
      ⟨"sw1", [bundleRow 1 false 2000, bundleRow 2 false 500]⟩ 2000).1.interface? "sw1" 2).map
      (fun m => (m.name, m.up)) = some ("Gi0/2", some true) := by
    decide +kernel
  rw [hm, Option.map_some, Option.some.injEq, Prod.mk.injEq] at hentry
  rw [hentry.1, hentry.2] at hwritten
  revert hwritten
  decide

end JaspyNexus.Utilities.ImdsReports
