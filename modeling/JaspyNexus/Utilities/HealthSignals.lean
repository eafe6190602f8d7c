import Mathlib
import JaspyNexus.Utilities.InterfaceIssues

/-! # Signals and issues

The signals of an interface's history, each against its threshold, and the issues that
are raised for them. The thresholds are applied in the summary; errors and discards are
raised from the counts, once any signal has given the summary a severity. -/

namespace JaspyNexus.Utilities.Issues
open JaspyNexus.Lib JaspyNexus.Utilities.Health
open JaspyNexus.Utilities.Stp (InterfaceConnection)

/-! ## Histories -/

/-- One ingest of the store. -/
structure Ingest where
  fqdn : String
  ifIndex : Int
  input : SampleInput
  time : Nat
  deriving DecidableEq, Repr

def ingestAll (cfg : HealthConfig) (history : List Ingest) : HealthStore :=
  history.foldl (fun store e => store.ingest cfg e.fqdn e.ifIndex e.input e.time) PMap.empty

/-- The ingests of one interface. -/
def ownOf (fqdn : String) (ifIndex : Int) (history : List Ingest) : List Ingest :=
  history.filter fun e => e.fqdn = fqdn && e.ifIndex = ifIndex

/-- What the store holds of them. -/
def held (cfg : HealthConfig) (own : List Ingest) : InterfaceHealth :=
  own.foldl (fun ih e => Health.ingest cfg ih e.input e.time) InterfaceHealth.empty

/-- Everything they have told. -/
def recorded (own : List Ingest) : InterfaceHealth where
  samples := own.flatMap fun e => if 0 < e.input.intervalMs then [e.input.sample e.time] else []
  flaps := own.flatMap fun e => (e.input.upTransition.map fun up => ⟨e.time, up⟩).toList
  speedChanges := own.flatMap fun e =>
    (e.input.speedChange.map fun change => ⟨e.time, change.1, change.2⟩).toList

/-- What is in the windows at the time of reading. -/
structure Figures where
  recoveries : Nat
  errors : Nat
  discards : Nat
  speedChanges : Nat
  /-- the utilizations that were measured -/
  peaks : List Rat

def figures (cfg : HealthConfig) (ih : InterfaceHealth) (now : Nat) : Figures :=
  let counted := ih.samples.filter fun s => now - cfg.counterWindowMs ≤ s.ts
  { recoveries := (ih.flaps.filter fun f => now - cfg.flapWindowMs ≤ f.ts && f.up).length
    errors := (counted.map fun s => s.inErrors + s.outErrors).sum
    discards := (counted.map Sample.outDiscards).sum
    speedChanges := (ih.speedChanges.filter fun e => now - cfg.flapWindowMs ≤ e.ts).length
    peaks := (measured cfg.utilWindowMs now ih.samples).filterMap samplePeak }

/-- The interface has not been reported for too long. -/
def isStale (cfg : HealthConfig) (now lastReport : Nat) : Bool :=
  decide (0 < lastReport) && decide (cfg.staleMs < now - lastReport)

/-! ## Signals -/

inductive Signal where
  | flapping
  | stale
  | errors
  | discards
  | highUtil
  | speed
  deriving DecidableEq, Repr

def Signal.kind : Signal → String
  | .flapping => "iface-flapping"
  | .stale => "iface-stale"
  | .errors => "iface-errors"
  | .discards => "iface-discards"
  | .highUtil => "iface-high-util"
  | .speed => "iface-speed"

def Signal.all : List Signal := [.flapping, .stale, .errors, .discards, .highUtil, .speed]

theorem Signal.mem_all (signal : Signal) : signal ∈ Signal.all := by cases signal <;> decide

theorem Signal.kind_injective : Function.Injective Signal.kind := by
  intro a b h
  cases a <;> cases b <;> first | rfl | exact absurd h (by decide)

section
variable (cfg : HealthConfig) (f : Figures) (stale : Bool)

/-- **The signal has crossed its threshold.** -/
def crossed : Signal → Bool
  | .flapping => cfg.flapShowThreshold < f.recoveries
  | .stale => stale
  | .errors => cfg.errorShowThreshold < f.errors
  | .discards => cfg.discardShowThreshold < f.discards
  | .highUtil => f.peaks.any cfg.utilThresholdPct.reachedBy
  | .speed => 0 < f.speedChanges

/-- Some signal has given the summary a severity. -/
def tripped : Bool :=
  cfg.flapShowThreshold < u32 f.recoveries || stale || cfg.errorShowThreshold < u64 f.errors ||
    cfg.discardShowThreshold < u64 f.discards || f.peaks.any cfg.utilThresholdPct.reachedBy ||
    0 < u32 f.speedChanges

/-- What is raised. -/
def raised : Signal → Bool
  | .flapping => cfg.flapShowThreshold < u32 f.recoveries
  | .stale => stale
  | .errors => tripped cfg f stale && 0 < u64 f.errors
  | .discards => tripped cfg f stale && 0 < u64 f.discards
  | .highUtil => f.peaks.any cfg.utilThresholdPct.reachedBy
  | .speed => 0 < u32 f.speedChanges

/-- **When what is raised is what has crossed**: where a signal has tripped, errors and
discards that are counted are above their thresholds. The other four conditions are about
figures that do not fit their integers. -/
structure Told : Prop where
  errors : tripped cfg f stale = true → 0 < u64 f.errors → cfg.errorShowThreshold < f.errors
  discards : tripped cfg f stale = true → 0 < u64 f.discards → cfg.discardShowThreshold < f.discards
  recoveries : cfg.flapShowThreshold < f.recoveries → cfg.flapShowThreshold < u32 f.recoveries
  speedChanges : 0 < f.speedChanges → 0 < u32 f.speedChanges
  errorsSeen : cfg.errorShowThreshold < f.errors → tripped cfg f stale = true ∧ 0 < u64 f.errors
  discardsSeen : cfg.discardShowThreshold < f.discards → tripped cfg f stale = true ∧ 0 < u64 f.discards

end

/-! ## Machine integers -/

theorem u32_le (n : Nat) : u32 n ≤ n := Nat.mod_le _ _

theorem u64_add (a b : Nat) : u64 (u64 a + u64 b) = u64 (a + b) := (Nat.add_mod a b _).symm

theorem u64_eq {n : Nat} (h : n < 2 ^ 64) : u64 n = n := Nat.mod_eq_of_lt h

theorem u32_eq {n : Nat} (h : n < 2 ^ 32) : u32 n = n := Nat.mod_eq_of_lt h

section
variable {cfg : HealthConfig} {f : Figures} {stale : Bool}

/-- Where the figures fit, only the first two conditions are left. -/
theorem told_iff_of_fits (hrec : f.recoveries < 2 ^ 32) (hspeed : f.speedChanges < 2 ^ 32)
    (herr : f.errors < 2 ^ 64) (hdis : f.discards < 2 ^ 64) : Told cfg f stale ↔
      (tripped cfg f stale = true → 0 < f.errors → cfg.errorShowThreshold < f.errors) ∧
      (tripped cfg f stale = true → 0 < f.discards → cfg.discardShowThreshold < f.discards) := by
  have htrip : cfg.errorShowThreshold < f.errors ∨ cfg.discardShowThreshold < f.discards →
      tripped cfg f stale = true := by
    intro h
    simp only [tripped, u64_eq herr, u64_eq hdis, Bool.or_eq_true, decide_eq_true_eq]
    tauto
  constructor
  · intro h
    rw [← u64_eq herr, ← u64_eq hdis]
    refine ⟨fun ht hpos => ?_, fun ht hpos => ?_⟩
    · rw [u64_eq herr]; exact h.errors ht hpos
    · rw [u64_eq hdis]; exact h.discards ht hpos
  · intro ⟨herrors, hdiscards⟩
    refine ⟨?_, ?_, ?_, ?_, ?_, ?_⟩
    · rw [u64_eq herr]; exact herrors
    · rw [u64_eq hdis]; exact hdiscards
    · rw [u32_eq hrec]; exact id
    · rw [u32_eq hspeed]; exact id
    · rw [u64_eq herr]; exact fun h => ⟨htrip (.inl h), Nat.zero_lt_of_lt h⟩
    · rw [u64_eq hdis]; exact fun h => ⟨htrip (.inr h), Nat.zero_lt_of_lt h⟩

/-! ## What is raised -/

theorem raised_eq_crossed_iff : (∀ signal, raised cfg f stale signal = crossed cfg f stale signal) ↔
    Told cfg f stale := by
  constructor
  · intro h
    have hflap := Bool.eq_iff_iff.mp (h .flapping)
    have hspeed := Bool.eq_iff_iff.mp (h .speed)
    have herr := Bool.eq_iff_iff.mp (h .errors)
    have hdis := Bool.eq_iff_iff.mp (h .discards)
    simp only [raised, crossed, Bool.and_eq_true, decide_eq_true_eq] at hflap hspeed herr hdis
    exact ⟨fun ht hpos => herr.mp ⟨ht, hpos⟩, fun ht hpos => hdis.mp ⟨ht, hpos⟩, hflap.mpr, hspeed.mpr,
      herr.mpr, hdis.mpr⟩
  · intro h signal
    rw [Bool.eq_iff_iff]
    cases signal <;> simp only [raised, crossed, Bool.and_eq_true, decide_eq_true_eq]
    case flapping => exact ⟨fun hlt => hlt.trans_le (u32_le _), h.recoveries⟩
    case errors => exact ⟨fun ⟨ht, hpos⟩ => h.errors ht hpos, h.errorsSeen⟩
    case discards => exact ⟨fun ⟨ht, hpos⟩ => h.discards ht hpos, h.discardsSeen⟩
    case speed => exact ⟨fun hlt => hlt.trans_le (u32_le _), h.speedChanges⟩

end

/-- A selection of the signals is told by its kinds. -/
theorem kinds_eq_iff {p q : Signal → Bool} :
    (Signal.all.filter p).map Signal.kind = (Signal.all.filter q).map Signal.kind ↔ ∀ signal, p signal = q signal := by
  refine ⟨fun h signal => ?_, fun h => by rw [funext h]⟩
  have hfilter := List.map_injective_iff.mpr Signal.kind_injective h
  have hmem : signal ∈ Signal.all.filter p ↔ signal ∈ Signal.all.filter q := by rw [hfilter]
  rw [List.mem_filter, List.mem_filter] at hmem
  rw [Bool.eq_iff_iff]
  simpa [signal.mem_all] using hmem

/-! ## The summary -/

section
variable (cfg : HealthConfig) (ih : InterfaceHealth) (now lastReport : Nat)

theorem foldl_max_reaches (threshold : F64) (peaks : List Rat) (acc : Option Rat) :
    (peaks.foldl (fun peak p => some (peak.elim p fun q => max q p)) acc).elim false threshold.reachedBy =
    (acc.elim false threshold.reachedBy || peaks.any threshold.reachedBy) := by
  induction peaks generalizing acc with
  | nil => simp
  | cons p rest ih =>
    rw [List.foldl_cons, ih, List.any_cons, ← Bool.or_assoc]
    congr 1
    cases acc with
    | none => rfl
    | some q => exact F64.reachedBy_max threshold q p

theorem summary_highUtilization : (summary cfg ih now lastReport).highUtilization =
    (figures cfg ih now).peaks.any cfg.utilThresholdPct.reachedBy :=
  foldl_max_reaches cfg.utilThresholdPct (figures cfg ih now).peaks none

theorem summary_errors : u64 ((summary cfg ih now lastReport).inErrors + (summary cfg ih now lastReport).outErrors) =
    u64 (figures cfg ih now).errors := by
  show u64 (u64 _ + u64 _) = _
  rw [u64_add, figures, List.sum_map_add]

theorem severity_isSome (bad warn : Bool) :
    (if bad then some Severity.bad else if warn then some Severity.warn else none).isSome = (bad || warn) := by
  cases bad <;> cases warn <;> rfl

/-- The severity is there when one of the signals has tripped. -/
theorem summary_severity : (summary cfg ih now lastReport).severity.isSome =
    tripped cfg (figures cfg ih now) (isStale cfg now lastReport) := by
  have hseverity : (summary cfg ih now lastReport).severity.isSome =
      ((summary cfg ih now lastReport).flapping || (summary cfg ih now lastReport).stale ||
        (decide (cfg.errorShowThreshold <
            u64 ((summary cfg ih now lastReport).inErrors + (summary cfg ih now lastReport).outErrors)) ||
          (summary cfg ih now lastReport).discardsHigh || (summary cfg ih now lastReport).highUtilization ||
          decide (0 < (summary cfg ih now lastReport).speedChangeCount))) := severity_isSome _ _
  rw [hseverity, summary_errors, summary_highUtilization]
  simp only [tripped, Bool.or_assoc]
  rfl

theorem filter_all (p : Signal → Bool) : Signal.all.filter p =
    (if p .flapping then [Signal.flapping] else []) ++ (if p .stale then [Signal.stale] else []) ++
      (if p .errors then [Signal.errors] else []) ++ (if p .discards then [Signal.discards] else []) ++
      (if p .highUtil then [Signal.highUtil] else []) ++ (if p .speed then [Signal.speed] else []) := by
  have hsplit : ∀ (signal : Signal) rest, (signal :: rest).filter p =
      (if p signal then [signal] else []) ++ rest.filter p := by
    intro signal rest
    rw [List.filter_cons]
    split <;> rfl
  simp only [Signal.all, hsplit, List.filter_nil, List.append_nil, List.append_assoc]

theorem map_ite_single {α β : Type} (f : α → β) (c : Prop) [Decidable c] (a : α) :
    (if c then [a] else []).map f = if c then [f a] else [] := by
  split <;> rfl

/-- **The issues of a summary**, by their kinds. -/
theorem kinds_of_summary (fqdn : String) (ifIndex : Int) (ifaceName : String)
    (connectedTo : Option InterfaceConnection) (cdpNeighbor : Option CdpNeighbor) :
    (interfaceHealthIssues fqdn ifIndex ifaceName (apiInterfaceHealth (summary cfg ih now lastReport)) true
      connectedTo cdpNeighbor).map DerivedIssue.kind =
    (Signal.all.filter (raised cfg (figures cfg ih now) (isStale cfg now lastReport))).map Signal.kind := by
  have hseverity := summary_severity cfg ih now lastReport
  have herr := summary_errors cfg ih now lastReport
  have hhigh := summary_highUtilization cfg ih now lastReport
  have hflap : (summary cfg ih now lastReport).flapping =
    decide (cfg.flapShowThreshold < u32 (figures cfg ih now).recoveries) := rfl
  have hstale : (summary cfg ih now lastReport).stale = isStale cfg now lastReport := rfl
  have hdis : (summary cfg ih now lastReport).discards = u64 (figures cfg ih now).discards := rfl
  have hspeed : (summary cfg ih now lastReport).speedChangeCount = u32 (figures cfg ih now).speedChanges := rfl
  generalize summary cfg ih now lastReport = summary at *
  generalize figures cfg ih now = f at *
  generalize isStale cfg now lastReport = stale at *
  have hnone : (!true || (apiInterfaceHealth summary).severity.isNone) = !tripped cfg f stale := by
    rw [← hseverity]
    simp [apiInterfaceHealth]
  unfold interfaceHealthIssues
  rw [hnone]
  cases ht : tripped cfg f stale with
  | false =>
    have hquiet : ∀ signal, raised cfg f stale signal = false := by
      simp only [tripped, Bool.or_eq_false_iff] at ht
      intro signal
      cases signal <;> simp_all [raised, tripped]
    simp [hquiet]
  | true =>
    simp only [apiInterfaceHealth, Bool.not_true, Bool.false_eq_true, if_false, hflap, hstale, herr, hdis, hhigh,
      hspeed]
    rw [filter_all]
    simp only [List.map_append, map_ite_single]
    simp only [raised, ht, Bool.true_and, decide_eq_true_eq, Signal.kind, interfaceIssue]
    congr!

end

/-! ## What the store holds -/

theorem ownOf_concat (fqdn : String) (ifIndex : Int) (history : List Ingest) (e : Ingest) :
    ownOf fqdn ifIndex (history ++ [e]) =
      ownOf fqdn ifIndex history ++ if fqdn = e.fqdn ∧ ifIndex = e.ifIndex then [e] else [] := by
  rw [ownOf, List.filter_append, ← ownOf]
  congr 1
  split
  next h => simp [h.1, h.2]
  next h =>
    refine List.filter_eq_nil_iff.mpr fun x hx hsame => ?_
    obtain rfl := List.mem_singleton.mp hx
    simp only [Bool.and_eq_true, decide_eq_true_eq] at hsame
    exact h ⟨hsame.1.symm, hsame.2.symm⟩

/-- An interface's history is that of its own ingests. -/
theorem at?_ingestAll (cfg : HealthConfig) (fqdn : String) (ifIndex : Int) (history : List Ingest) :
    ((ingestAll cfg history).at? fqdn ifIndex).getD InterfaceHealth.empty = held cfg (ownOf fqdn ifIndex history) := by
  induction history using List.reverseRecOn with
  | nil => rfl
  | append_singleton history e ih =>
    rw [ingestAll, List.foldl_append, List.foldl_cons, List.foldl_nil, HealthStore.at?_ingest, ownOf_concat]
    split
    next h =>
      rw [h.1, h.2] at ih ⊢
      rw [held, List.foldl_append, ← held, ← ih]
      rfl
    next => rw [List.append_nil, ← ih, ingestAll]

/-- What is dropped from the front is not in the window. -/
theorem filter_dropWhile {α : Type} {old inWindow : α → Bool} (h : ∀ x, old x = true → inWindow x = false)
    (l : List α) : (l.dropWhile old).filter inWindow = l.filter inWindow := by
  induction l with
  | nil => rfl
  | cons x rest ih =>
    rw [List.dropWhile_cons]
    split
    next hold => rw [ih, List.filter_cons, if_neg (by simp [h x hold])]
    next => rfl

section
variable {cfg : HealthConfig} {now : Nat} {own : List Ingest}

/-- **No read after the last ingest misses what was dropped**: entries are dropped when
no window of an ingest's own time reaches back to them. -/
theorem window_of_dropped {α : Type} (ts : α → Nat) (kept : List Ingest → List α) (new : Ingest → List α)
    {windowMs retainMs : Nat} (hwindow : windowMs ≤ retainMs) (hnil : kept [] = [])
    (hstep : ∀ own e, kept (own ++ [e]) = (kept own ++ new e).dropWhile fun x => ts x < e.time - retainMs)
    (hclock : ∀ e ∈ own, e.time ≤ now) :
    (kept own).filter (fun x => now - windowMs ≤ ts x) = (own.flatMap new).filter fun x => now - windowMs ≤ ts x := by
  induction own using List.reverseRecOn with
  | nil => rw [hnil, List.flatMap_nil]
  | append_singleton own e ih =>
    have htime : e.time ≤ now := hclock e (by simp)
    have hout : ∀ x, decide (ts x < e.time - retainMs) = true → decide (now - windowMs ≤ ts x) = false := by
      intro x hx
      have := of_decide_eq_true hx
      exact decide_eq_false (by omega)
    rw [hstep, filter_dropWhile hout, List.filter_append, ih fun e he => hclock e (List.mem_append_left _ he),
      List.flatMap_append, List.filter_append, List.flatMap_singleton]

theorem held_concat (own : List Ingest) (e : Ingest) :
    held cfg (own ++ [e]) = Health.ingest cfg (held cfg own) e.input e.time := by
  rw [held, List.foldl_append, List.foldl_cons, List.foldl_nil, ← held]

theorem held_samples {windowMs : Nat} (hwindow : windowMs ≤ cfg.sampleRetainMs) (hclock : ∀ e ∈ own, e.time ≤ now) :
    (held cfg own).samples.filter (fun s => now - windowMs ≤ s.ts) =
      (recorded own).samples.filter fun s => now - windowMs ≤ s.ts := by
  refine window_of_dropped Sample.ts (fun own => (held cfg own).samples) _ hwindow rfl (fun own e => ?_) hclock
  rw [held_concat, Health.ingest, prune]
  dsimp only
  split
  · rfl
  · rw [List.append_nil]

theorem held_flaps (hclock : ∀ e ∈ own, e.time ≤ now) :
    (held cfg own).flaps.filter (fun f => now - cfg.flapWindowMs ≤ f.ts) =
      (recorded own).flaps.filter fun f => now - cfg.flapWindowMs ≤ f.ts := by
  refine window_of_dropped FlapEvent.ts (fun own => (held cfg own).flaps) _ le_rfl rfl (fun own e => ?_) hclock
  rw [held_concat, Health.ingest, prune]
  cases e.input.upTransition with
  | none => simp
  | some up => rfl

theorem held_speedChanges (hclock : ∀ e ∈ own, e.time ≤ now) :
    (held cfg own).speedChanges.filter (fun c => now - cfg.flapWindowMs ≤ c.ts) =
      (recorded own).speedChanges.filter fun c => now - cfg.flapWindowMs ≤ c.ts := by
  refine window_of_dropped SpeedEvent.ts (fun own => (held cfg own).speedChanges) _ le_rfl rfl (fun own e => ?_)
    hclock
  rw [held_concat, Health.ingest, prune]
  cases e.input.speedChange with
  | none => simp
  | some change => rfl

theorem filter_and {α : Type} (p q : α → Bool) (l : List α) :
    l.filter (fun x => p x && q x) = (l.filter p).filter q := by
  rw [List.filter_filter]
  simp only [Bool.and_comm]

/-- What is in the windows is what the reports have told. -/
theorem figures_held (hclock : ∀ e ∈ own, e.time ≤ now) :
    figures cfg (held cfg own) now = figures cfg (recorded own) now := by
  have hcounter : cfg.counterWindowMs ≤ cfg.sampleRetainMs := le_max_of_le_left (le_max_left _ _)
  have hutil : cfg.utilWindowMs ≤ cfg.sampleRetainMs := le_max_of_le_left (le_max_right _ _)
  simp only [figures, measured, filter_and, held_samples hcounter hclock, held_samples hutil hclock, held_flaps hclock,
    held_speedChanges hclock]

end

/-! ## Signals and issues -/

/-- **The issues are the signals that have crossed their thresholds** exactly when no
signal trips beside a count of errors or discards that is not above its threshold. Up to
the last ingest's time, the windows hold all that was reported. -/
theorem issues_exact_iff (cfg : HealthConfig) (history : List Ingest) (fqdn : String) (ifIndex : Int)
    (now lastReport : Nat) {summary : InterfaceHealthSummary}
    (hsummary : (ingestAll cfg history).summary cfg fqdn ifIndex now lastReport = some summary)
    (ifaceName : String) (connectedTo : Option InterfaceConnection) (cdpNeighbor : Option CdpNeighbor) :
    let f := figures cfg (held cfg (ownOf fqdn ifIndex history)) now
    let stale := isStale cfg now lastReport
    ((interfaceHealthIssues fqdn ifIndex ifaceName (apiInterfaceHealth summary) true connectedTo
        cdpNeighbor).map DerivedIssue.kind = (Signal.all.filter (crossed cfg f stale)).map Signal.kind ↔
      Told cfg f stale) ∧
    ((∀ e ∈ ownOf fqdn ifIndex history, e.time ≤ now) →
      f = figures cfg (recorded (ownOf fqdn ifIndex history)) now) := by
  intro f stale
  refine ⟨?_, figures_held⟩
  obtain ⟨ih, hih, rfl⟩ := Option.map_eq_some_iff.mp hsummary
  have hheld := at?_ingestAll cfg fqdn ifIndex history
  rw [hih, Option.getD_some] at hheld
  rw [hheld, kinds_of_summary, kinds_eq_iff]
  exact raised_eq_crossed_iff

/-- An uplink that has not been reported for a minute and a half, with some errors. -/
def quietUplink : Ingest where
  fqdn := "sw1.example.com"
  ifIndex := 10001
  input := ⟨5, 0, 0, 0, 0, 30000, none, none, none⟩
  time := 1000000

/-- Under the default thresholds, both are raised and both have crossed. -/
theorem issues_exact_default : ∃ summary,
    (ingestAll HealthConfig.default [quietUplink]).summary HealthConfig.default "sw1.example.com" 10001
      1090000 1000000 = some summary ∧
    (interfaceHealthIssues "sw1.example.com" 10001 "Te1/1/1" (apiInterfaceHealth summary) true none
      none).map DerivedIssue.kind = (Signal.all.filter (crossed HealthConfig.default
        (figures HealthConfig.default (held HealthConfig.default
          (ownOf "sw1.example.com" 10001 [quietUplink])) 1090000) true)).map Signal.kind := by
  refine ⟨_, rfl, (issues_exact_iff _ [quietUplink] _ _ 1090000 1000000 rfl _ _ _).1.mpr ?_⟩
  exact ⟨by decide +kernel, by decide +kernel, by decide +kernel, by decide +kernel, by decide +kernel,
    by decide +kernel⟩

/-- **Errors below their threshold are raised** beside a signal that has tripped. -/
theorem errors_below_threshold :
    let cfg := { HealthConfig.default with errorShowThreshold := 10 }
    ∃ summary, (ingestAll cfg [quietUplink]).summary cfg "sw1.example.com" 10001 1090000 1000000 = some summary ∧
      (interfaceHealthIssues "sw1.example.com" 10001 "Te1/1/1" (apiInterfaceHealth summary) true none
        none).map DerivedIssue.kind ≠ (Signal.all.filter (crossed cfg
          (figures cfg (recorded [quietUplink]) 1090000) true)).map Signal.kind := by
  refine ⟨_, rfl, ?_⟩
  decide +kernel

end JaspyNexus.Utilities.Issues
