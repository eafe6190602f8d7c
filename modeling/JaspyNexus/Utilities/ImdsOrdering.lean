import Mathlib
import JaspyNexus.Utilities.ImdsHistory

/-! # The order of observations

A poll worker first reads a device's tables and reports them later; a trap
overtakes it. `report_interfaces` takes its time stamp when a report is applied,
so its guard orders applications, not observations, and a poll that was read
before a trap undoes it (`stale_poll_undoes_trap`). In a schedule that applies no
report after a newer observation of its interface, states and events follow the
order of observation. -/

namespace JaspyNexus.Utilities.ImdsOrdering
open JaspyNexus.Lib JaspyNexus.Models JaspyNexus.Utilities JaspyNexus.Utilities.Health

/-! ## The writers -/

/-- What a writer has observed and not reported yet. -/
structure InFlight where
  observed : Nat
  report : InterfaceMonitorReport

/-- The store, and what the poll workers and the trap receiver have in hand. -/
structure Writers where
  world : World
  observations : Nat
  inFlight : List InFlight

def Writers.start : Writers := ⟨World.start, 0, []⟩

def Op.isReport : Op → Bool
  | .reportInterfaces .. => true
  | _ => false

/-- A turn of one thread. -/
inductive Turn where
  /-- `poll_device` has read the tables, or a trap has come in -/
  | observe (report : InterfaceMonitorReport)
  /-- a writer has a connection and the lock, and calls `report_interfaces` -/
  | report (k : Nat) (remote : Int → Option RemoteInfo) (now : Nat)
  /-- no connection or no lock: the writer drops what it has -/
  | lose (k : Nat)
  /-- the refresh and the pinger -/
  | other (op : Op) (h : Op.isReport op = false)

/-- The store operation of a turn. -/
def Writers.op? (s : Writers) : Turn → Option Op
  | .observe _ => none
  | .report k remote now =>
    s.inFlight[k]?.map fun x => .reportInterfaces remote x.report now x.observed
  | .lose _ => none
  | .other op _ => some op

def Writers.step (cfg : HealthConfig) (s : Writers) (t : Turn) : Writers where
  world := match s.op? t with
    | some op => s.world.step cfg op
    | none => s.world
  observations := match t with
    | .observe _ => s.observations + 1
    | _ => s.observations
  inFlight := match t with
    | .observe report => s.inFlight ++ [⟨s.observations, report⟩]
    | .report k _ _ => s.inFlight.eraseIdx k
    | .lose k => s.inFlight.eraseIdx k
    | .other _ _ => s.inFlight

def Writers.run (cfg : HealthConfig) (turns : List Turn) : Writers :=
  turns.foldl (Writers.step cfg) Writers.start

/-! ## Order -/

/-- The applied report tells the interface's state. -/
structure Observes (fqdn : String) (ifIndex : Int) (x : Applied) : Prop where
  fqdn : x.fqdn = fqdn
  ifIndex : x.accepted.report.ifIndex = ifIndex
  up : x.accepted.report.up.isSome = true

/-- A newer observation of the interface has been applied before. -/
def Stale (log : List Applied) (x : Applied) : Prop :=
  ∃ y ∈ log, Observes x.fqdn x.accepted.report.ifIndex y ∧
    x.accepted.observed < y.accepted.observed

/-- **The condition.** No report that tells a state is applied after a newer observation
of its interface. -/
def Fresh (w : World) (x : Applied) : Prop :=
  x.accepted.report.up.isSome = true → ¬Stale w.log x

def InOrder (cfg : HealthConfig) (s : Writers) (t : Turn) : Prop :=
  ∀ op, s.op? t = some op → Accepts Fresh cfg s.world op

/-- The interface whose up/down event was emitted. -/
def upDownOf (e : Emission) : Option (String × Int) :=
  match e.event with
  | .interfaceUpDown fqdn .. => some (fqdn, e.accepted.report.ifIndex)
  | _ => none

/-- States and events follow the order of observation. -/
structure UpsInOrder (w : World) : Prop where
  /-- the state held is the newest one observed of all applied -/
  newest : ∀ f i m b, w.imds.interface? f i = some m → m.up = some b →
    ∃ x ∈ w.log, Observes f i x ∧ x.accepted.report.up = some b ∧
      ∀ y ∈ w.log, Observes f i y → y.accepted.observed ≤ x.accepted.observed
  /-- a report applied after a newer one changes no state and emits no up/down event -/
  stale : ∀ x older, (x :: older) <:+ w.log → Stale older x →
    (applyReport x.held x.accepted.report x.accepted.now).up = x.held.up ∧
    ∀ ctx name neighbor links old new, .interfaceUpDown x.fqdn name neighbor links old new ∉
      reportEvents x.fqdn ctx x.held x.accepted.report
  /-- an up/down event is one of an applied report's events -/
  source : ∀ e ∈ w.emitted, ∀ f i, upDownOf e = some (f, i) → ∃ x ∈ w.log, Observes f i x ∧
    x.accepted = e.accepted ∧ ∃ ctx, e.event ∈ reportEvents f ctx x.held x.accepted.report
  events : w.emitted.Pairwise fun e e' => ∀ k, upDownOf e = some k → upDownOf e' = some k →
    e.accepted.observed ≤ e'.accepted.observed

theorem upsInOrder_start : UpsInOrder World.start where
  newest _ _ _ _ h := by cases h
  stale _ _ h := by simp [World.start] at h
  source _ h := by cases h
  events := List.Pairwise.nil

/-! ## One report -/

/-- An up/down event tells a change of the state held. -/
theorem changes_of_mem_reportEvents {fqdn : String} {ctx : ReportContext} {m : InterfaceMetrics}
    {r : InterfaceReport} {f name : String} {neighbor : Option Neighbor}
    {links : List (String × String)} {old new : Bool}
    (h : .interfaceUpDown f name neighbor links old new ∈ reportEvents fqdn ctx m r) :
    f = fqdn ∧ m.up = some old ∧ r.up = some new ∧ old ≠ new := by
  rcases mem_reportEvents h with ⟨_, _, _, _, heq, hold, hnew, hne⟩ | ⟨_, _, _, heq, -⟩
  · cases heq
    exact ⟨rfl, hold, hnew, hne⟩
  · cases heq

/-- A report that tells no state changes none. -/
theorem unchanged_of_none {m : InterfaceMetrics} {r : InterfaceReport}
    (h : r.up = none) (fqdn : String) (now : Nat) :
    (applyReport m r now).up = m.up ∧ ∀ ctx name neighbor links old new,
      .interfaceUpDown fqdn name neighbor links old new ∉ reportEvents fqdn ctx m r := by
  refine ⟨by simp [applyReport, h], fun ctx name neighbor links old new hmem => ?_⟩
  obtain ⟨-, -, hnew, -⟩ := changes_of_mem_reportEvents hmem
  rw [h] at hnew
  cases hnew

/-- What is applied late tells nothing. -/
theorem Fresh.up_eq_none {w : World} {x : Applied} (h : Fresh w x) (hstale : Stale w.log x) :
    x.accepted.report.up = none := by
  by_contra hup
  exact h (Option.isSome_iff_ne_none.mpr hup) hstale

/-- The newest of the applied observations after one more. -/
theorem UpsInOrder.newest_cons {w : World} (h : UpsInOrder w) {x : Applied} (hfresh : Fresh w x)
    (hheld : w.imds.interface? x.fqdn x.accepted.report.ifIndex = some x.held) {b : Bool}
    (hb : (applyReport x.held x.accepted.report x.accepted.now).up = some b) :
    ∃ y ∈ x :: w.log, Observes x.fqdn x.accepted.report.ifIndex y ∧
      y.accepted.report.up = some b ∧ ∀ z ∈ x :: w.log,
        Observes x.fqdn x.accepted.report.ifIndex z → z.accepted.observed ≤ y.accepted.observed := by
  cases hr : x.accepted.report.up with
  | none =>
    -- the state held stays, and so does its observation
    have hup : x.held.up = some b := by simpa [applyReport, hr] using hb
    obtain ⟨y, hy, hobs, hyup, hmax⟩ := h.newest _ _ _ _ hheld hup
    refine ⟨y, List.mem_cons_of_mem _ hy, hobs, hyup, fun z hz hzobs => ?_⟩
    rcases List.mem_cons.mp hz with rfl | hz
    · have hsome := hzobs.up
      rw [hr] at hsome
      cases hsome
    · exact hmax z hz hzobs
  | some s =>
    obtain rfl : s = b := by simpa [applyReport, hr] using hb
    have hnew : ¬Stale w.log x := hfresh (by rw [hr]; rfl)
    refine ⟨x, List.mem_cons_self, ⟨rfl, rfl, by rw [hr]; rfl⟩, hr, fun z hz hzobs => ?_⟩
    rcases List.mem_cons.mp hz with rfl | hz
    · exact le_rfl
    · exact not_lt.mp fun hlt => hnew ⟨z, hz, hzobs, hlt⟩

theorem UpsInOrder.reportInterface {w : World} (h : UpsInOrder w) (cfg : HealthConfig)
    (fqdn : String) (ctx : ReportContext) (now observed : Nat) (r : InterfaceReport)
    (hok : ∀ m, w.imds.accepting fqdn r now = some m →
      Fresh w ⟨fqdn, m, now, m.name, observed, r⟩) :
    UpsInOrder (World.reportInterface cfg fqdn ctx now observed w r) := by
  unfold World.reportInterface
  rcases reportInterface_cases w.imds fqdn cfg ctx now r with
    ⟨m, ha, hm, -, hentry, -, hevents⟩ | ⟨ha, -, -, hentry⟩
  · rw [ha]
    have hfresh := hok m ha
    obtain ⟨x, hx⟩ : ∃ x : Applied, x = ⟨fqdn, m, now, m.name, observed, r⟩ := ⟨_, rfl⟩
    rw [← hx] at hfresh
    dsimp only
    rw [← hx, hevents]
    have hnewEvent : ∀ event ∈ reportEvents fqdn ctx m r, ∀ f i,
        upDownOf ⟨event, w.history fqdn r.ifIndex, now, m.name, observed, r⟩ = some (f, i) →
        f = fqdn ∧ i = r.ifIndex ∧ Observes f i x ∧ ¬Stale w.log x := by
      intro event hmem f i hk
      unfold upDownOf at hk
      split at hk
      · next fqdn' name neighbor links old new heq =>
        dsimp only at heq hk
        subst heq
        obtain ⟨rfl, -, hnew, -⟩ := changes_of_mem_reportEvents hmem
        cases hk
        have hup : x.accepted.report.up.isSome = true := by rw [hx]; simp [hnew]
        exact ⟨rfl, rfl, ⟨by rw [hx], by rw [hx], hup⟩, hfresh hup⟩
      · cases hk
    refine ⟨fun f i m' b hm' hb => ?_, fun y older hsuffix hstale => ?_, fun e he f i hk => ?_, ?_⟩
    · dsimp only at hm'
      rw [hentry] at hm'
      split at hm'
      · next hfi =>
        obtain ⟨rfl, rfl⟩ := hfi
        cases hm'
        have := h.newest_cons (x := x) hfresh (by rw [hx]; exact hm) (b := b) (by rw [hx]; exact hb)
        simpa only [hx] using this
      · next hfi =>
        obtain ⟨y, hy, hobs, hyup, hmax⟩ := h.newest f i m' b hm' hb
        refine ⟨y, List.mem_cons_of_mem _ hy, hobs, hyup, fun z hz hzobs => ?_⟩
        rcases List.mem_cons.mp hz with rfl | hz
        · exact absurd ⟨hzobs.fqdn.symm.trans (by rw [hx]), hzobs.ifIndex.symm.trans (by rw [hx])⟩ hfi
        · exact hmax z hz hzobs
    · rcases List.suffix_cons_iff.mp hsuffix with heq | hsuffix
      · cases heq
        exact unchanged_of_none (hfresh.up_eq_none hstale) _ _
      · exact h.stale y older hsuffix hstale
    · rcases List.mem_append.mp he with he | he
      · obtain ⟨y, hy, hrest⟩ := h.source e he f i hk
        exact ⟨y, List.mem_cons_of_mem _ hy, hrest⟩
      · obtain ⟨event, hmem, rfl⟩ := List.mem_map.mp he
        obtain ⟨rfl, -, hobs, -⟩ := hnewEvent event hmem f i hk
        exact ⟨x, List.mem_cons_self, hobs, by rw [hx], ctx, by rw [hx]; exact hmem⟩
    · refine List.pairwise_append.mpr ⟨h.events, ?_, fun e he e' he' k hk hk' => ?_⟩
      · refine List.pairwise_map.mpr (List.pairwise_of_forall fun _ _ _ _ _ => le_rfl)
      · obtain ⟨event, hmem, rfl⟩ := List.mem_map.mp he'
        obtain ⟨f, i⟩ := k
        obtain ⟨rfl, rfl, -, hnot⟩ := hnewEvent event hmem f i hk'
        obtain ⟨y, hy, hobs, hacc, -⟩ := h.source e he _ _ hk
        rw [← hacc]
        exact not_lt.mp fun hlt => hnot ⟨y, hy, by rw [hx]; exact hobs, by rw [hx]; exact hlt⟩
  · rw [ha]
    refine ⟨fun f i m' b hm' hb => ?_, h.stale, h.source, h.events⟩
    dsimp only at hm'
    rcases hentry with hentry | ⟨m, violations, hm, hentry⟩
    · rw [hentry] at hm'
      exact h.newest f i m' b hm' hb
    · rw [hentry] at hm'
      split at hm'
      · next hfi =>
        cases hm'
        exact h.newest f i m b (by rw [hfi.1, hfi.2]; exact hm) hb
      · exact h.newest f i m' b hm' hb

/-! ## Runs -/

/-- An operation that makes or keeps entries, and gives none a state, keeps the
order. -/
theorem UpsInOrder.keep {w : World} (h : UpsInOrder w) (imds : Imds)
    (history : String → Int → History)
    (hups : ∀ f i m b, imds.interface? f i = some m → m.up = some b →
      ∃ old, w.imds.interface? f i = some old ∧ old.up = some b) :
    UpsInOrder { w with imds := imds, history := history } where
  newest f i m b hm hb := by
    obtain ⟨old, hold, hup⟩ := hups f i m b hm hb
    exact h.newest f i old b hold hup
  stale := h.stale
  source := h.source
  events := h.events

theorem UpsInOrder.step {w : World} (h : UpsInOrder w) (cfg : HealthConfig) (op : Op)
    (hok : Accepts Fresh cfg w op) : UpsInOrder (w.step cfg op) := by
  cases op with
  | refreshDevice fqdn baseMac now =>
    refine h.keep _ _ fun f i m b hm hb => ?_
    rw [interface?_refreshDevice] at hm
    split at hm
    · obtain ⟨old, -, rfl⟩ := Option.map_eq_some_iff.mp hm
      cases hb
    · exact ⟨m, hm, hb⟩
  | refreshInterface fqdn ifIndex interfaceType name neighbors speedOverride =>
    refine h.keep _ w.history fun f i m b hm hb => ?_
    rcases refreshInterface_cases w.imds fqdn ifIndex interfaceType name neighbors speedOverride with
      ⟨heq, -⟩ | ⟨-, m', hentry, hm'⟩
    · rw [heq] at hm
      exact ⟨m, hm, hb⟩
    · rw [hentry] at hm
      split at hm
      · next hfi =>
        obtain ⟨rfl, rfl⟩ := hfi
        cases hm
        rcases hm' with ⟨-, rfl⟩ | ⟨old, hold, rfl⟩
        · cases hb
        · exact ⟨old, hold, hb⟩
      · exact ⟨m, hm, hb⟩
  | retainDevices keep =>
    refine h.keep _ _ fun f i m b hm hb => ?_
    rw [interface?_retainDevices] at hm
    split at hm
    · exact ⟨m, hm, hb⟩
    · cases hm
  | retainInterfaces fqdn keep =>
    refine h.keep _ _ fun f i m b hm hb => ?_
    rw [interface?_retainInterfaces] at hm
    split at hm
    · cases hm
    · exact ⟨m, hm, hb⟩
  | reportDevice neighbors report now =>
    refine h.keep _ w.history fun f i m b hm hb => ?_
    rw [interface?_reportDevice] at hm
    exact ⟨m, hm, hb⟩
  | reportInterfaces remote imr now observed =>
    simp only [World.step]
    simp only [Accepts] at hok
    cases hd : w.imds.devices imr.deviceFqdn with
    | none => exact h
    | some device =>
      rw [hd] at hok
      refine Runs.run_inv _ (fun w' r hw' hr => hw'.reportInterface cfg imr.deviceFqdn
        (reportContext remote device imr) now observed r hr) ?_ hok
      refine h.keep _ w.history fun f i m b hm hb => ⟨m, ?_, hb⟩
      rw [← hm, ← interface?_setLastPoll w.imds imr.deviceFqdn f i hd now]

/-- **In a run of the writers that applies no report after a newer observation of its
interface**, states and events follow the order of observation, in every state. -/
theorem run_upsInOrder (cfg : HealthConfig) (turns pre : List Turn)
    (hok : Runs.Allowed (Writers.step cfg) (InOrder cfg) Writers.start turns)
    (hpre : pre <+: turns) : UpsInOrder (Writers.run cfg pre).world := by
  refine Runs.run_inv_throughout (fun s => UpsInOrder s.world) (fun s t h ht => ?_)
    upsInOrder_start hok hpre
  unfold Writers.step
  dsimp only
  cases hop : s.op? t with
  | none => exact h
  | some op => exact h.step cfg op (ht op hop)

/-! ## A trap overtakes a poll -/

/-- What a poll of the one interface finds. -/
def upPoll (up : Bool) : InterfaceMonitorReport where
  deviceFqdn := "sw1"
  interfaces :=
    [{ ifIndex := 1
       counters := fun c => if c = .inOctets then some 1000 else none
       up := some up
       speed := some 1000
       adminUp := some true
       errDisabled := none
       errDisableCause := none
       errDisableRecoverSecs := none }]

/-- A device with one interface, polled once and up. -/
def polledUp : List Turn :=
  [.other (.refreshDevice "sw1" none 500) rfl,
    .other (.refreshInterface "sw1" 1 "ethernetCsmacd" "Gi0/1" false none) rfl,
    .observe (upPoll true), .report 0 (fun _ => none) 1000]

/-- **A poll read before a linkDown trap and reported after it** brings the link
up again in the store, and emits an event of that. -/
theorem stale_poll_undoes_trap :
    let turns := polledUp ++ [.observe (upPoll true), .observe (.linkEvent "sw1" 1 false),
      .report 1 (fun _ => none) 2000, .report 0 (fun _ => none) 2001]
    ¬UpsInOrder (Writers.run .default turns).world ∧
      ((Writers.run .default turns).world.imds.interface? "sw1" 1).bind InterfaceMetrics.up =
        some true ∧
      (Writers.run .default turns).world.emitted.map (fun e => (e.accepted.observed, e.event)) =
        [(2, .interfaceUpDown "sw1" "Gi0/1" none [] true false),
          (1, .interfaceUpDown "sw1" "Gi0/1" none [] false true)] := by
  refine ⟨fun horder => ?_, rfl, rfl⟩
  -- the two events are in the wrong order
  have hevents := (List.pairwise_cons.mp horder.events).1 _ (List.mem_singleton_self _)
    ("sw1", 1) rfl rfl
  exact absurd hevents (by decide)

/-- A report of one interface that is newer than all applied is in order. -/
theorem accepts_newest {cfg : HealthConfig} {w : World} {remote : Int → Option RemoteInfo}
    {imr : InterfaceMonitorReport} {r : InterfaceReport} {now observed : Nat}
    (hone : imr.interfaces = [r]) (hnewest : ∀ x ∈ w.log, x.accepted.observed ≤ observed) :
    Accepts Fresh cfg w (.reportInterfaces remote imr now observed) := by
  unfold Accepts
  dsimp only
  split
  · trivial
  · rw [hone]
    exact ⟨fun _ _ _ ⟨y, hy, _, hlt⟩ => absurd hlt (not_lt.mpr (hnewest y hy)), trivial⟩

def pollFirst : List Turn := polledUp ++
  [.observe (upPoll true), .observe (.linkEvent "sw1" 1 false), .report 0 (fun _ => none) 2000,
    .report 0 (fun _ => none) 2001]

/-- The same turns with the poll reported first. -/
theorem run_upsInOrder_pollFirst : UpsInOrder (Writers.run .default pollFirst).world := by
  refine run_upsInOrder _ pollFirst _ ⟨?_, ?_, ?_, ?_, ?_, ?_, ?_, ?_, trivial⟩ (List.prefix_refl _)
  all_goals
    intro op hop
    cases hop
  · trivial
  · trivial
  all_goals
    refine accepts_newest rfl fun x hx => ?_
  · cases hx
  · obtain rfl := List.mem_singleton.mp hx
    exact Nat.zero_le _
  · rcases List.mem_cons.mp hx with rfl | hx
    · decide
    · obtain rfl := List.mem_singleton.mp hx
      decide

end JaspyNexus.Utilities.ImdsOrdering
