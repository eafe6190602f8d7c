import Mathlib
import JaspyNexus.Lib.Runs
import JaspyNexus.Utilities.Imds

/-! # What the store remembers of its reports

A run of the store is recorded beside it (`World`): for every interface the
reports accepted since its entry was made or reset, newest first, each with the
name the entry had and the time its state was observed. The store is a function
of that record (`Recorded`): a counter is the last one reported, a sample the
growth since then over the time since the last report. What goes right or wrong
for one interface can then be said of its reports alone. -/

namespace JaspyNexus.Utilities
open JaspyNexus.Lib JaspyNexus.Models JaspyNexus.Utilities.Health

/-! ## Histories -/

/-- An accepted report: when, for an entry of what name, and observed when. -/
structure Accepted where
  now : Nat
  name : String
  observed : Nat
  report : InterfaceReport

/-- The reports accepted for an interface, newest first. -/
abbrev History := List Accepted

/-- The err-disable state an authoritative report leaves: the cause and the time
to recover stand only while the port is disabled. -/
def errState (r : InterfaceReport) : Option (Bool × Option String × Option Int) :=
  r.errDisabled.map fun disabled =>
    (disabled, if disabled then r.errDisableCause else none,
      if disabled then r.errDisableRecoverSecs else none)

namespace History

def lastReport (h : History) : Nat := (h.head?.map Accepted.now).getD 0
def counter (h : History) (c : Counter) : Option Nat := h.findSome? fun a => a.report.counters c
def up (h : History) : Option Bool := h.findSome? fun a => a.report.up
def speed (h : History) : Option Int := h.findSome? fun a => a.report.speed
def adminUp (h : History) : Option Bool := h.findSome? fun a => a.report.adminUp
def errDisable (h : History) : Option (Bool × Option String × Option Int) :=
  h.findSome? fun a => errState a.report

section Cons
variable (a : Accepted) (h : History)

theorem findSome?_or {β : Type} (f : Accepted → Option β) :
    (a :: h).findSome? f = (f a).or (h.findSome? f) := by
  rw [List.findSome?_cons]
  cases f a <;> rfl

@[simp] theorem lastReport_cons : lastReport (a :: h) = a.now := rfl
@[simp] theorem counter_cons (c : Counter) :
    counter (a :: h) c = (a.report.counters c).or (counter h c) := findSome?_or ..
@[simp] theorem up_cons : up (a :: h) = a.report.up.or (up h) := findSome?_or ..
@[simp] theorem speed_cons : speed (a :: h) = a.report.speed.or (speed h) := findSome?_or ..
@[simp] theorem adminUp_cons : adminUp (a :: h) = a.report.adminUp.or (adminUp h) := findSome?_or ..
@[simp] theorem errDisable_cons : errDisable (a :: h) = (errState a.report).or (errDisable h) :=
  findSome?_or ..

end Cons

end History

/-- The sample of report `a` after the reports `h`. -/
structure SampleOf (h : History) (a : Accepted) (s : Sample) : Prop where
  ts : s.ts = a.now
  intervalMs : s.intervalMs = a.now - h.lastReport
  inErrors : s.inErrors = counterDelta (h.counter .inErrors) (a.report.counters .inErrors)
  outErrors : s.outErrors = counterDelta (h.counter .outErrors) (a.report.counters .outErrors)
  outDiscards :
    s.outDiscards = counterDelta (h.counter .outDiscards) (a.report.counters .outDiscards)
  inOctets : s.inOctets = counterDelta (h.counter .inOctets) (a.report.counters .inOctets)
  outOctets : s.outOctets = counterDelta (h.counter .outOctets) (a.report.counters .outOctets)

/-- `a` was accepted after the reports `prior`. -/
def After (h : History) (prior : History) (a : Accepted) : Prop := (a :: prior) <:+ h

/-- An interface's entry and health history are what its reports make them. -/
structure Cell (h : History) (m? : Option InterfaceMetrics) (ih? : Option InterfaceHealth) :
    Prop where
  absent : m? = none → h = [] ∧ ih? = none
  lastReport : ∀ m, m? = some m → m.lastReport = h.lastReport
  counters : ∀ m, m? = some m → ∀ c, m.counters c = h.counter c
  up : ∀ m, m? = some m → m.up = h.up
  speed : ∀ m, m? = some m → m.speed = h.speed
  adminUp : ∀ m, m? = some m → m.adminUp = h.adminUp
  errDisable : ∀ m, m? = some m →
    (m.errDisabled, m.errDisableCause, m.errDisableRecoverSecs) =
      h.errDisable.getD (false, none, none)
  ordered : h.Pairwise fun a b => b.now < a.now
  samples : ∀ ih, ih? = some ih → ∀ s ∈ ih.samples, ∃ prior a, After h prior a ∧ prior ≠ [] ∧
    SampleOf prior a s
  flaps : ∀ ih, ih? = some ih → ∀ f ∈ ih.flaps, ∃ prior a old, After h prior a ∧
    f.ts = a.now ∧ prior.up = some old ∧ a.report.up = some f.up ∧ old ≠ f.up
  speedChanges : ∀ ih, ih? = some ih → ∀ e ∈ ih.speedChanges, ∃ prior a old, After h prior a ∧
    e.ts = a.now ∧ prior.speed = some old ∧ e.fromSpeed = some old ∧
    a.report.speed = some e.toSpeed ∧ old ≠ e.toSpeed

theorem After.cons {h prior : History} {a : Accepted} (hafter : After h prior a) (b : Accepted) :
    After (b :: h) prior a := hafter.trans (List.suffix_cons b h)

theorem cell_absent : Cell [] none none := by
  constructor <;> simp

theorem cell_new {m : InterfaceMetrics} (hlast : m.lastReport = 0)
    (hcounters : ∀ c, m.counters c = none) (hup : m.up = none) (hspeed : m.speed = none)
    (hadmin : m.adminUp = none)
    (herr : (m.errDisabled, m.errDisableCause, m.errDisableRecoverSecs) = (false, none, none)) :
    Cell [] (some m) none := by
  constructor <;> simp_all [History.lastReport, History.counter, History.up, History.speed,
    History.adminUp, History.errDisable]

/-- What a cell says does not depend on the entry's identity. -/
theorem Cell.relabel {h : History} {m m' : InterfaceMetrics} {ih? : Option InterfaceHealth}
    (hc : Cell h (some m) ih?) (hlast : m'.lastReport = m.lastReport)
    (hcounters : m'.counters = m.counters) (hup : m'.up = m.up) (hspeed : m'.speed = m.speed)
    (hadmin : m'.adminUp = m.adminUp) (herr : m'.errDisabled = m.errDisabled)
    (hcause : m'.errDisableCause = m.errDisableCause)
    (hsecs : m'.errDisableRecoverSecs = m.errDisableRecoverSecs) : Cell h (some m') ih? where
  absent hn := by cases hn
  lastReport _ hm := by cases hm; rw [hlast]; exact hc.lastReport m rfl
  counters _ hm := by cases hm; rw [hcounters]; exact hc.counters m rfl
  up _ hm := by cases hm; rw [hup]; exact hc.up m rfl
  speed _ hm := by cases hm; rw [hspeed]; exact hc.speed m rfl
  adminUp _ hm := by cases hm; rw [hadmin]; exact hc.adminUp m rfl
  errDisable _ hm := by cases hm; rw [herr, hcause, hsecs]; exact hc.errDisable m rfl
  ordered := hc.ordered
  samples := hc.samples
  flaps := hc.flaps
  speedChanges := hc.speedChanges

/-- A state entered differs from the one reported before. -/
theorem upTransition_spec {m : InterfaceMetrics} {r : InterfaceReport} {up : Bool}
    (h : upTransition m r = some up) : ∃ old, m.up = some old ∧ r.up = some up ∧ old ≠ up := by
  unfold upTransition at h
  split at h
  · next old new hold hnew =>
    split at h
    · next hne => cases h; exact ⟨old, hold, hnew, hne⟩
    · cases h
  · cases h

theorem speedChange_spec {m : InterfaceMetrics} {r : InterfaceReport} {left : Option Int}
    {entered : Int} (h : speedChange m r = some (left, entered)) :
    ∃ old, m.speed = some old ∧ left = some old ∧ r.speed = some entered ∧ old ≠ entered := by
  unfold speedChange at h
  split at h
  · next old new hold hnew =>
    split at h
    · next hne => cases h; exact ⟨old, hold, rfl, hnew, hne⟩
    · cases h
  · cases h

/-- **An accepted report extends the history.** -/
theorem Cell.accept {h : History} {m : InterfaceMetrics} {ih? : Option InterfaceHealth}
    (hc : Cell h (some m) ih?) (cfg : HealthConfig) {r : InterfaceReport} {now observed : Nat}
    (hlt : m.lastReport < now) :
    Cell (⟨now, m.name, observed, r⟩ :: h) (some (applyReport m r now))
      (some (ingest cfg (ih?.getD InterfaceHealth.empty) (sampleInput m r now) now)) := by
  obtain ⟨a, ha⟩ : ∃ a : Accepted, a = ⟨now, m.name, observed, r⟩ := ⟨_, rfl⟩
  have hafter : After (a :: h) h a := List.suffix_refl _
  have hlast := hc.lastReport m rfl
  rw [← ha]
  -- what the history held before is still derived from it
  have hold : ∀ {ih : InterfaceHealth}, ih = ih?.getD InterfaceHealth.empty →
      (∀ s ∈ ih.samples, ∃ prior b, After h prior b ∧ prior ≠ [] ∧ SampleOf prior b s) ∧
      (∀ f ∈ ih.flaps, ∃ prior b old, After h prior b ∧ f.ts = b.now ∧ prior.up = some old ∧
        b.report.up = some f.up ∧ old ≠ f.up) ∧
      (∀ e ∈ ih.speedChanges, ∃ prior b old, After h prior b ∧ e.ts = b.now ∧
        prior.speed = some old ∧ e.fromSpeed = some old ∧ b.report.speed = some e.toSpeed ∧
        old ≠ e.toSpeed) := by
    rintro ih rfl
    cases ih? with
    | none => simp [InterfaceHealth.empty]
    | some ih => exact ⟨hc.samples ih rfl, hc.flaps ih rfl, hc.speedChanges ih rfl⟩
  obtain ⟨hsamples, hflaps, hspeeds⟩ := hold rfl
  refine ⟨(fun hn => by cases hn), ?_, ?_, ?_, ?_, ?_, ?_, ?_, ?_, ?_, ?_⟩
  · intro m' hm'; cases hm'; simp [ha, applyReport]
  · intro m' hm' c; cases hm'; simp [ha, applyReport, hc.counters m rfl c]
  · intro m' hm'; cases hm'; simp [ha, applyReport, hc.up m rfl]
  · intro m' hm'; cases hm'; simp [ha, applyReport, hc.speed m rfl]
  · intro m' hm'; cases hm'; simp [ha, applyReport, hc.adminUp m rfl]
  · intro m' hm'
    cases hm'
    rw [History.errDisable_cons, ha]
    cases hcc : r.errDisabled with
    | none => simpa [errState, applyReport, hcc] using hc.errDisable m rfl
    | some disabled => cases disabled <;> simp [errState, applyReport, hcc]
  · refine List.pairwise_cons.mpr ⟨fun b hb => ?_, hc.ordered⟩
    rw [ha]
    cases h with
    | nil => cases hb
    | cons newest older =>
      have hnew : newest.now < now := by simpa [hlast, History.lastReport] using hlt
      rcases List.mem_cons.mp hb with rfl | hb
      · exact hnew
      · exact ((List.pairwise_cons.mp hc.ordered).1 b hb).trans hnew
  · intro ih hih s hs
    cases hih
    rcases ingest_samples hs with hs | ⟨hpos, rfl⟩
    · obtain ⟨prior, b, hb, hrest⟩ := hsamples s hs
      exact ⟨prior, b, hb.cons a, hrest⟩
    · have hreported : 0 < m.lastReport := by
        by_contra hzero
        simp [sampleInput, hzero] at hpos
      refine ⟨h, a, hafter, ?_, ?_⟩
      · rintro rfl
        simp [hlast, History.lastReport] at hreported
      · have hcount := hc.counters m rfl
        constructor <;> simp [SampleInput.sample, sampleInput, ha, ← hcount]
        rw [if_pos hreported, hlast]
  · intro ih hih f hf
    cases hih
    rcases ingest_flaps hf with hf | ⟨hts, hup⟩
    · obtain ⟨prior, b, old, hb, hrest⟩ := hflaps f hf
      exact ⟨prior, b, old, hb.cons a, hrest⟩
    · obtain ⟨old, hold, hnew, hne⟩ := upTransition_spec hup
      exact ⟨h, a, old, hafter, by rw [hts, ha], by rw [← hc.up m rfl, hold],
        by rw [ha]; exact hnew, hne⟩
  · intro ih hih e he
    cases hih
    rcases ingest_speedChanges he with he | ⟨hts, hspeed⟩
    · obtain ⟨prior, b, old, hb, hrest⟩ := hspeeds e he
      exact ⟨prior, b, old, hb.cons a, hrest⟩
    · obtain ⟨old, hold, hleft, hnew, hne⟩ := speedChange_spec hspeed
      exact ⟨h, a, old, hafter, by rw [hts, ha], by rw [← hc.speed m rfl, hold], hleft,
        by rw [ha]; exact hnew, hne⟩

/-! ## Runs -/

/-- The operations of the store, with the clock and what they read of the
database. A report carries the time its state was observed, which the code does
not see. -/
inductive Op where
  | refreshDevice (fqdn : String) (baseMac : Option String) (now : Nat)
  | refreshInterface (fqdn : String) (ifIndex : Int) (interfaceType name : String)
      (neighbors : Bool) (speedOverride : Option Int)
  | retainDevices (keep : String → Bool)
  | retainInterfaces (fqdn : String) (keep : Int → Bool)
  | reportDevice (neighbors : Option (List String)) (report : DeviceMonitorReport) (now : Nat)
  | reportInterfaces (remote : Int → Option RemoteInfo) (imr : InterfaceMonitorReport)
      (now observed : Nat)

/-- The code's side of an operation: the store after it and the events published. -/
def Imds.step (cfg : HealthConfig) (imds : Imds) : Op → Imds × List Event
  | .refreshDevice fqdn baseMac now => (imds.refreshDevice fqdn baseMac now, [])
  | .refreshInterface fqdn ifIndex interfaceType name neighbors speedOverride =>
    (imds.refreshInterface fqdn ifIndex interfaceType name neighbors speedOverride, [])
  | .retainDevices keep => (imds.retainDevices keep, [])
  | .retainInterfaces fqdn keep => (imds.retainInterfaces fqdn keep, [])
  | .reportDevice neighbors report now => imds.reportDevice neighbors report now
  | .reportInterfaces remote imr now _ => imds.reportInterfaces cfg remote imr now

/-- A published interface event, and the reports it was made from: the one that
emitted it and those accepted before. -/
structure Emission where
  event : Event
  prior : History
  accepted : Accepted

/-- An accepted report with the entry it found. -/
structure Applied where
  fqdn : String
  held : InterfaceMetrics
  accepted : Accepted

/-- The store and its record; `log` has every accepted report, newest first, also
of entries that are gone. -/
structure World where
  imds : Imds
  history : String → Int → History
  emitted : List Emission
  log : List Applied

def World.start : World := ⟨Imds.empty, fun _ _ => [], [], []⟩

/-- One interface of a report, recorded when it is accepted. -/
def World.reportInterface (cfg : HealthConfig) (fqdn : String) (ctx : ReportContext)
    (now observed : Nat) (w : World) (r : InterfaceReport) : World :=
  let out := w.imds.reportInterface cfg fqdn ctx now r
  match w.imds.accepting fqdn r now with
  | none => { w with imds := out.1 }
  | some m =>
    let a : Accepted := ⟨now, m.name, observed, r⟩
    let prior := w.history fqdn r.ifIndex
    { imds := out.1
      history := fun f i => if f = fqdn ∧ i = r.ifIndex then a :: prior else w.history f i
      emitted := w.emitted ++ out.2.map fun event => ⟨event, prior, a⟩
      log := ⟨fqdn, m, a⟩ :: w.log }

/-- The record forgets an interface when its entry is dropped or reset. -/
def World.step (cfg : HealthConfig) (w : World) : Op → World
  | .refreshDevice fqdn baseMac now =>
    { w with
      imds := w.imds.refreshDevice fqdn baseMac now
      history := fun f i =>
        if f = fqdn ∧ (w.imds.devices f).any (Imds.swapped · baseMac) then [] else w.history f i }
  | .refreshInterface fqdn ifIndex interfaceType name neighbors speedOverride =>
    { w with
      imds := w.imds.refreshInterface fqdn ifIndex interfaceType name neighbors speedOverride }
  | .retainDevices keep =>
    { w with
      imds := w.imds.retainDevices keep
      history := fun f i => if keep f then w.history f i else [] }
  | .retainInterfaces fqdn keep =>
    { w with
      imds := w.imds.retainInterfaces fqdn keep
      history := fun f i => if f = fqdn ∧ keep i = false then [] else w.history f i }
  | .reportDevice neighbors report now =>
    { w with imds := (w.imds.reportDevice neighbors report now).1 }
  | .reportInterfaces remote imr now observed =>
    match w.imds.devices imr.deviceFqdn with
    | none => w
    | some device =>
      imr.interfaces.foldl (World.reportInterface cfg imr.deviceFqdn
        (reportContext remote device imr) now observed)
        { w with imds := w.imds.setLastPoll imr.deviceFqdn device now }

def World.run (cfg : HealthConfig) (ops : List Op) : World := ops.foldl (World.step cfg) World.start

theorem reportInterface_imds (cfg : HealthConfig) (fqdn : String) (ctx : ReportContext)
    (now observed : Nat) (w : World) (r : InterfaceReport) :
    (World.reportInterface cfg fqdn ctx now observed w r).imds =
      (w.imds.reportInterface cfg fqdn ctx now r).1 ∧
    (World.reportInterface cfg fqdn ctx now observed w r).emitted.map Emission.event =
      w.emitted.map Emission.event ++ (w.imds.reportInterface cfg fqdn ctx now r).2 := by
  unfold World.reportInterface
  rcases reportInterface_cases w.imds fqdn cfg ctx now r with ⟨m, ha, -⟩ | ⟨ha, he, -⟩
  · rw [ha]
    exact ⟨rfl, by simp [Function.comp_def]⟩
  · rw [ha]
    exact ⟨rfl, by rw [he, List.append_nil]⟩

/-- **The record does not disturb the store**: a step's store is the code's, and
its interface events are the ones recorded. -/
theorem step_imds (cfg : HealthConfig) (w : World) (op : Op) :
    (w.step cfg op).imds = (w.imds.step cfg op).1 ∧
    ∀ remote imr now observed, op = .reportInterfaces remote imr now observed →
      (w.step cfg op).emitted.map Emission.event =
        w.emitted.map Emission.event ++ (w.imds.step cfg op).2 := by
  cases op with
  | reportInterfaces remote imr now observed =>
    have hboth : (w.step cfg (.reportInterfaces remote imr now observed)).imds =
        (w.imds.reportInterfaces cfg remote imr now).1 ∧
        (w.step cfg (.reportInterfaces remote imr now observed)).emitted.map Emission.event =
          w.emitted.map Emission.event ++ (w.imds.reportInterfaces cfg remote imr now).2 := by
      unfold World.step Imds.reportInterfaces
      dsimp only
      cases hd : w.imds.devices imr.deviceFqdn with
      | none => simp
      | some device =>
        dsimp only
        -- the two folds go side by side
        have hfold : ∀ (rs : List InterfaceReport) (w' : World) (events : List Event),
            w'.emitted.map Emission.event = w.emitted.map Emission.event ++ events →
            (rs.foldl (World.reportInterface cfg imr.deviceFqdn (reportContext remote device imr)
              now observed) w').imds =
              (rs.foldl (fun (st : Imds × List Event) r =>
                let out := st.1.reportInterface cfg imr.deviceFqdn
                  (reportContext remote device imr) now r
                (out.1, st.2 ++ out.2)) (w'.imds, events)).1 ∧
            (rs.foldl (World.reportInterface cfg imr.deviceFqdn (reportContext remote device imr)
              now observed) w').emitted.map Emission.event =
              w.emitted.map Emission.event ++ (rs.foldl (fun (st : Imds × List Event) r =>
                let out := st.1.reportInterface cfg imr.deviceFqdn
                  (reportContext remote device imr) now r
                (out.1, st.2 ++ out.2)) (w'.imds, events)).2 := by
          intro rs
          induction rs with
          | nil => intro w' events h; exact ⟨rfl, h⟩
          | cons r rs ih =>
            intro w' events h
            obtain ⟨himds, hemit⟩ := reportInterface_imds cfg imr.deviceFqdn
              (reportContext remote device imr) now observed w' r
            have := ih (World.reportInterface cfg imr.deviceFqdn (reportContext remote device imr)
              now observed w' r) (events ++ (w'.imds.reportInterface cfg imr.deviceFqdn
                (reportContext remote device imr) now r).2) (by rw [hemit, h, List.append_assoc])
            rw [himds] at this
            simpa only [List.foldl_cons] using this
        exact hfold imr.interfaces _ [] (by simp)
    exact ⟨hboth.1, fun _ _ _ _ _ => hboth.2⟩
  | _ => exact ⟨rfl, fun _ _ _ _ h => by cases h⟩

/-! ## The record tells the store -/

/-- Every interface is what its reports make it, and every event was made of the
last report that carried the state and the one that changed it. -/
structure Recorded (w : World) : Prop where
  cell : ∀ f i, Cell (w.history f i) (w.imds.interface? f i) (w.imds.health.at? f i)
  upDown : ∀ e ∈ w.emitted, ∀ fqdn name neighbor links old new,
    e.event = .interfaceUpDown fqdn name neighbor links old new →
    e.accepted.name = name ∧ e.prior.up = some old ∧ e.accepted.report.up = some new ∧ old ≠ new
  speed : ∀ e ∈ w.emitted, ∀ fqdn name neighbor old new,
    e.event = .interfaceSpeed fqdn name neighbor old new →
    e.accepted.name = name ∧ e.prior.speed = some old ∧ e.accepted.report.speed = some new ∧
      old ≠ new

theorem recorded_start : Recorded World.start where
  cell _ _ := cell_absent
  upDown := by simp [World.start]
  speed := by simp [World.start]

/-- An accepted report's event names the entry and a state it changes. -/
theorem mem_reportEvents {fqdn : String} {ctx : ReportContext} {m : InterfaceMetrics}
    {r : InterfaceReport} {e : Event} (h : e ∈ reportEvents fqdn ctx m r) :
    (∃ neighbor links old new, e = .interfaceUpDown fqdn m.name neighbor links old new ∧
      m.up = some old ∧ r.up = some new ∧ old ≠ new) ∨
    (∃ neighbor old new, e = .interfaceSpeed fqdn m.name neighbor old new ∧
      m.speed = some old ∧ r.speed = some new ∧ old ≠ new) := by
  unfold reportEvents at h
  rcases List.mem_append.mp h with h | h
  · left
    split at h
    · next old new hold hnew =>
      split at h
      · next hne =>
        rw [List.mem_singleton] at h
        exact ⟨_, _, old, new, h, hold, hnew, hne⟩
      · cases h
    · cases h
  · right
    split at h
    · next old new hold hnew =>
      split at h
      · next hne =>
        rw [List.mem_singleton] at h
        exact ⟨_, old, new, h, hold, hnew, hne⟩
      · cases h
    · cases h

theorem Recorded.reportInterface {w : World} (h : Recorded w) (cfg : HealthConfig) (fqdn : String)
    (ctx : ReportContext) (now observed : Nat) (r : InterfaceReport) :
    Recorded (World.reportInterface cfg fqdn ctx now observed w r) := by
  unfold World.reportInterface
  rcases reportInterface_cases w.imds fqdn cfg ctx now r with
    ⟨m, ha, hm, hlt, hentry, hhealth, hevents⟩ | ⟨ha, _, hhealth, hentry⟩
  · rw [ha]
    dsimp only
    have hcell := h.cell fqdn r.ifIndex
    rw [hm] at hcell
    refine ⟨fun f i => ?_, ?_, ?_⟩
    · dsimp only
      rw [hentry, hhealth, HealthStore.at?_ingest]
      by_cases hfi : f = fqdn ∧ i = r.ifIndex
      · simp only [if_pos hfi]
        exact hcell.accept cfg hlt
      · simp only [if_neg hfi]
        exact h.cell f i
    · intro e he fqdn' name neighbor links old new heq
      rcases List.mem_append.mp he with he | he
      · exact h.upDown e he _ _ _ _ _ _ heq
      · obtain ⟨event, hevent, rfl⟩ := List.mem_map.mp he
        rw [hevents] at hevent
        simp only at heq
        subst heq
        rcases mem_reportEvents hevent with ⟨_, _, _, _, hx, hold, hnew, hne⟩ | ⟨_, _, _, hx, _⟩
        · cases hx
          exact ⟨rfl, by rw [← hcell.up m rfl, hold], hnew, hne⟩
        · cases hx
    · intro e he fqdn' name neighbor old new heq
      rcases List.mem_append.mp he with he | he
      · exact h.speed e he _ _ _ _ _ heq
      · obtain ⟨event, hevent, rfl⟩ := List.mem_map.mp he
        rw [hevents] at hevent
        simp only at heq
        subst heq
        rcases mem_reportEvents hevent with ⟨_, _, _, _, hx, _⟩ | ⟨_, _, _, hx, hold, hnew, hne⟩
        · cases hx
        · cases hx
          exact ⟨rfl, by rw [← hcell.speed m rfl, hold], hnew, hne⟩
  · rw [ha]
    refine ⟨fun f i => ?_, h.upDown, h.speed⟩
    dsimp only
    rw [hhealth]
    rcases hentry with hentry | ⟨m, violations, hm, hentry⟩
    · rw [hentry]; exact h.cell f i
    · rw [hentry]
      by_cases hfi : f = fqdn ∧ i = r.ifIndex
      · rw [if_pos hfi, hfi.1, hfi.2]
        have hcell := h.cell fqdn r.ifIndex
        rw [hm] at hcell
        exact hcell.relabel rfl rfl rfl rfl rfl rfl rfl rfl
      · rw [if_neg hfi]; exact h.cell f i

/-- **Every operation keeps the record.** -/
theorem Recorded.step {w : World} (h : Recorded w) (cfg : HealthConfig) (op : Op) :
    Recorded (w.step cfg op) := by
  cases op with
  | refreshDevice fqdn baseMac now =>
    refine ⟨fun f i => ?_, h.upDown, h.speed⟩
    simp only [World.step]
    rw [interface?_refreshDevice, health_refreshDevice]
    by_cases hreset : f = fqdn ∧ (w.imds.devices f).any (Imds.swapped · baseMac) = true
    · rw [if_pos hreset, if_pos hreset, if_pos hreset]
      cases w.imds.interface? f i with
      | none => exact cell_absent
      | some m => exact cell_new rfl (fun _ => rfl) rfl rfl rfl rfl
    · rw [if_neg hreset, if_neg hreset, if_neg hreset]
      exact h.cell f i
  | refreshInterface fqdn ifIndex interfaceType name neighbors speedOverride =>
    refine ⟨fun f i => ?_, h.upDown, h.speed⟩
    simp only [World.step]
    have hcell := h.cell f i
    rcases refreshInterface_cases w.imds fqdn ifIndex interfaceType name neighbors speedOverride with
      ⟨heq, -⟩ | ⟨hhealth, m', hentry, hm'⟩
    · rw [heq]; exact hcell
    · rw [hentry, hhealth]
      by_cases hfi : f = fqdn ∧ i = ifIndex
      · rw [if_pos hfi]
        obtain ⟨rfl, rfl⟩ := hfi
        rcases hm' with ⟨hnone, rfl⟩ | ⟨m, hm, rfl⟩
        · obtain ⟨hhist, hhealth'⟩ := hcell.absent hnone
          rw [hhist, hhealth']
          exact cell_new rfl (fun _ => rfl) rfl rfl rfl rfl
        · rw [hm] at hcell
          exact hcell.relabel rfl rfl rfl rfl rfl rfl rfl rfl
      · rw [if_neg hfi]; exact hcell
  | retainDevices keep =>
    refine ⟨fun f i => ?_, h.upDown, h.speed⟩
    simp only [World.step]
    rw [interface?_retainDevices]
    have hhealth : (w.imds.retainDevices keep).health.at? f i =
        if keep f then w.imds.health.at? f i else none := HealthStore.at?_retainDevices _ _ _ _
    rw [hhealth]
    cases hk : keep f
    · exact cell_absent
    · exact h.cell f i
  | retainInterfaces fqdn keep =>
    refine ⟨fun f i => ?_, h.upDown, h.speed⟩
    simp only [World.step]
    rw [interface?_retainInterfaces]
    have hhealth : (w.imds.retainInterfaces fqdn keep).health.at? f i =
        if f = fqdn ∧ keep i = false then none else w.imds.health.at? f i :=
      HealthStore.at?_retainInterfaces _ _ _ _ _
    rw [hhealth]
    by_cases hfi : f = fqdn ∧ keep i = false
    · simp only [if_pos hfi]; exact cell_absent
    · simp only [if_neg hfi]; exact h.cell f i
  | reportDevice neighbors report now =>
    refine ⟨fun f i => ?_, h.upDown, h.speed⟩
    simp only [World.step]
    rw [interface?_reportDevice]
    exact h.cell f i
  | reportInterfaces remote imr now observed =>
    simp only [World.step]
    cases hd : w.imds.devices imr.deviceFqdn with
    | none => exact h
    | some device =>
      refine Runs.foldl_inv _ (fun w' r hw' => hw'.reportInterface cfg imr.deviceFqdn
        (reportContext remote device imr) now observed r) imr.interfaces ?_
      refine ⟨fun f i => ?_, h.upDown, h.speed⟩
      dsimp only
      rw [interface?_setLastPoll w.imds imr.deviceFqdn f i hd]
      exact h.cell f i

theorem recorded_run (cfg : HealthConfig) (ops : List Op) : Recorded (World.run cfg ops) :=
  Runs.foldl_inv Recorded (fun _ op h => h.step cfg op) ops recorded_start

/-! ## Conditions on the reports -/

theorem not_after_nil {prior : History} {a : Accepted} : ¬After [] prior a := by
  simp [After]

theorem after_cons_iff {h prior : History} {a b : Accepted} :
    After (b :: h) prior a ↔ (a = b ∧ prior = h) ∨ After h prior a := by
  unfold After
  rw [List.suffix_cons_iff, List.cons.injEq]

/-- Every report the operation accepts is `ok` in the state it is accepted in. -/
def Accepts (ok : World → Applied → Prop) (cfg : HealthConfig) (w : World) : Op → Prop
  | .reportInterfaces remote imr now observed =>
    match w.imds.devices imr.deviceFqdn with
    | none => True
    | some device =>
      Runs.Allowed (World.reportInterface cfg imr.deviceFqdn (reportContext remote device imr)
        now observed)
        (fun w r => ∀ m, w.imds.accepting imr.deviceFqdn r now = some m →
          ok w ⟨imr.deviceFqdn, m, now, m.name, observed, r⟩)
        { w with imds := w.imds.setLastPoll imr.deviceFqdn device now } imr.interfaces
  | _ => True

/-- A condition on a report and those accepted for its interface before it. -/
def OnHistory (good : History → Accepted → Prop) (w : World) (x : Applied) : Prop :=
  good (w.history x.fqdn x.accepted.report.ifIndex) x.accepted

/-- Every report on record is `good` after those accepted before it. -/
structure AllGood (good : History → Accepted → Prop) (w : World) : Prop where
  history : ∀ f i prior a, After (w.history f i) prior a → good prior a
  emitted : ∀ e ∈ w.emitted, good e.prior e.accepted ∧
    ∀ prior a, After e.prior prior a → good prior a

variable {good : History → Accepted → Prop}

theorem allGood_start : AllGood good World.start where
  history _ _ _ _ h := absurd h not_after_nil
  emitted := by simp [World.start]

theorem AllGood.reportInterface {w : World} (h : AllGood good w) (cfg : HealthConfig)
    (fqdn : String) (ctx : ReportContext) (now observed : Nat) (r : InterfaceReport)
    (hok : ∀ m, w.imds.accepting fqdn r now = some m →
      good (w.history fqdn r.ifIndex) ⟨now, m.name, observed, r⟩) :
    AllGood good (World.reportInterface cfg fqdn ctx now observed w r) := by
  unfold World.reportInterface
  cases ha : w.imds.accepting fqdn r now with
  | none => exact ⟨h.history, h.emitted⟩
  | some m =>
    refine ⟨fun f i prior a hafter => ?_, fun e he => ?_⟩
    · dsimp only at hafter
      split at hafter
      · rcases after_cons_iff.mp hafter with ⟨rfl, rfl⟩ | hafter
        · exact hok m ha
        · exact h.history _ _ _ _ hafter
      · exact h.history _ _ _ _ hafter
    · rcases List.mem_append.mp he with he | he
      · exact h.emitted e he
      · obtain ⟨event, -, rfl⟩ := List.mem_map.mp he
        exact ⟨hok m ha, fun prior a hafter => h.history _ _ _ _ hafter⟩

theorem AllGood.step {w : World} (h : AllGood good w) (cfg : HealthConfig) (op : Op)
    (hok : Accepts (OnHistory good) cfg w op) : AllGood good (w.step cfg op) := by
  -- an operation that only forgets reports keeps the rest
  have hforget : ∀ (imds : Imds) (p : String → Int → Prop) [∀ f i, Decidable (p f i)],
      AllGood good { w with imds := imds, history := fun f i => if p f i then [] else w.history f i } := by
    intro imds p _
    refine ⟨fun f i prior a hafter => ?_, h.emitted⟩
    dsimp only at hafter
    split at hafter
    · exact absurd hafter not_after_nil
    · exact h.history _ _ _ _ hafter
  cases op with
  | refreshDevice fqdn baseMac now => exact hforget _ _
  | refreshInterface => exact ⟨h.history, h.emitted⟩
  | retainDevices keep =>
    refine ⟨fun f i prior a hafter => ?_, h.emitted⟩
    simp only [World.step] at hafter
    split at hafter
    · exact h.history _ _ _ _ hafter
    · exact absurd hafter not_after_nil
  | retainInterfaces fqdn keep => exact hforget _ _
  | reportDevice => exact ⟨h.history, h.emitted⟩
  | reportInterfaces remote imr now observed =>
    simp only [World.step]
    simp only [Accepts] at hok
    cases hd : w.imds.devices imr.deviceFqdn with
    | none => exact h
    | some device =>
      rw [hd] at hok
      exact Runs.run_inv _ (fun w' r hw' hr => hw'.reportInterface cfg imr.deviceFqdn
        (reportContext remote device imr) now observed r hr) ⟨h.history, h.emitted⟩ hok

/-- **A condition on every step is one on the whole record.** -/
theorem allGood_run {cfg : HealthConfig} {ops pre : List Op}
    (hok : Runs.Allowed (World.step cfg) (Accepts (OnHistory good) cfg) World.start ops)
    (hpre : pre <+: ops) : AllGood good (World.run cfg pre) :=
  Runs.run_inv_throughout (AllGood good) (fun _ op h ha => h.step cfg op ha) allGood_start hok hpre

end JaspyNexus.Utilities
