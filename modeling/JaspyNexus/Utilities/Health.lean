import Mathlib
import JaspyNexus.Lib.F64
import JaspyNexus.Lib.PMap

/-! # Interface health

The recent-history store of `utilities/health.rs`: per interface the samples,
flaps and speed changes inside their windows. Times are epoch milliseconds, and
the `f64` figures of the summary are rounded at every operation. -/

namespace JaspyNexus.Utilities.Health
open JaspyNexus.Lib

structure HealthConfig where
  counterWindowMs : Nat
  flapWindowMs : Nat
  utilWindowMs : Nat
  throughputWindowMs : Nat
  utilThresholdPct : F64
  staleMs : Nat
  errorShowThreshold : Nat
  discardShowThreshold : Nat
  flapShowThreshold : Nat

/-- `HealthConfig::default`. -/
def HealthConfig.default : HealthConfig where
  counterWindowMs := 300000
  flapWindowMs := 600000
  utilWindowMs := 300000
  throughputWindowMs := 60000
  utilThresholdPct := .finite 90
  staleMs := 60000
  errorShowThreshold := 0
  discardShowThreshold := 0
  flapShowThreshold := 1

/-- Samples are kept as long as the longest window that reads them. -/
def HealthConfig.sampleRetainMs (cfg : HealthConfig) : Nat :=
  max (max cfg.counterWindowMs cfg.utilWindowMs) cfg.throughputWindowMs

inductive Severity where
  | warn
  | bad
  deriving DecidableEq, Repr

/-! ## Samples and events -/

structure Sample where
  ts : Nat
  inErrors : Nat
  outErrors : Nat
  outDiscards : Nat
  inOctets : Nat
  outOctets : Nat
  intervalMs : Nat
  speedMbps : Option Int
  deriving DecidableEq, Repr

structure FlapEvent where
  ts : Nat
  up : Bool
  deriving DecidableEq, Repr

structure SpeedEvent where
  ts : Nat
  fromSpeed : Option Int
  toSpeed : Int
  deriving DecidableEq, Repr

structure InterfaceHealth where
  samples : List Sample
  flaps : List FlapEvent
  speedChanges : List SpeedEvent
  deriving DecidableEq, Repr

def InterfaceHealth.empty : InterfaceHealth := ⟨[], [], []⟩

/-- What one report hands over: deltas, the interval they cover (0 for none) and
the transitions. -/
structure SampleInput where
  inErrors : Nat
  outErrors : Nat
  outDiscards : Nat
  inOctets : Nat
  outOctets : Nat
  intervalMs : Nat
  upTransition : Option Bool
  speedChange : Option (Option Int × Int)
  speedMbps : Option Int
  deriving DecidableEq, Repr

/-- The sample of an input. -/
def SampleInput.sample (input : SampleInput) (now : Nat) : Sample where
  ts := now
  inErrors := input.inErrors
  outErrors := input.outErrors
  outDiscards := input.outDiscards
  inOctets := input.inOctets
  outOctets := input.outOctets
  intervalMs := input.intervalMs
  speedMbps := input.speedMbps

/-- `prune`: drop what no window reads any more from the front. -/
def prune (cfg : HealthConfig) (now : Nat) (ih : InterfaceHealth) : InterfaceHealth where
  samples := ih.samples.dropWhile fun s => s.ts < now - cfg.sampleRetainMs
  flaps := ih.flaps.dropWhile fun f => f.ts < now - cfg.flapWindowMs
  speedChanges := ih.speedChanges.dropWhile fun e => e.ts < now - cfg.flapWindowMs

/-- `ingest` on one interface's history. -/
def ingest (cfg : HealthConfig) (ih : InterfaceHealth) (input : SampleInput) (now : Nat) :
    InterfaceHealth :=
  prune cfg now
    { samples := if 0 < input.intervalMs then ih.samples ++ [input.sample now] else ih.samples
      flaps := match input.upTransition with
        | some up => ih.flaps ++ [⟨now, up⟩]
        | none => ih.flaps
      speedChanges := match input.speedChange with
        | some (old, new) => ih.speedChanges ++ [⟨now, old, new⟩]
        | none => ih.speedChanges }

theorem ingest_samples {cfg : HealthConfig} {ih : InterfaceHealth} {input : SampleInput} {now : Nat}
    {s : Sample} (h : s ∈ (ingest cfg ih input now).samples) :
    s ∈ ih.samples ∨ (0 < input.intervalMs ∧ s = input.sample now) := by
  have hmem := (List.dropWhile_sublist _).subset h
  split at hmem
  · next hpos =>
    rcases List.mem_append.mp hmem with hmem | hmem
    · exact .inl hmem
    · exact .inr ⟨hpos, List.mem_singleton.mp hmem⟩
  · exact .inl hmem

theorem ingest_flaps {cfg : HealthConfig} {ih : InterfaceHealth} {input : SampleInput} {now : Nat}
    {f : FlapEvent} (h : f ∈ (ingest cfg ih input now).flaps) :
    f ∈ ih.flaps ∨ (f.ts = now ∧ input.upTransition = some f.up) := by
  have hmem := (List.dropWhile_sublist _).subset h
  dsimp only at hmem
  cases hup : input.upTransition with
  | none => rw [hup] at hmem; exact .inl hmem
  | some up =>
    rw [hup] at hmem
    rcases List.mem_append.mp hmem with hmem | hmem
    · exact .inl hmem
    · rw [List.mem_singleton] at hmem
      exact .inr ⟨by rw [hmem], by rw [hmem]⟩

theorem ingest_speedChanges {cfg : HealthConfig} {ih : InterfaceHealth} {input : SampleInput}
    {now : Nat} {e : SpeedEvent} (h : e ∈ (ingest cfg ih input now).speedChanges) :
    e ∈ ih.speedChanges ∨ (e.ts = now ∧ input.speedChange = some (e.fromSpeed, e.toSpeed)) := by
  have hmem := (List.dropWhile_sublist _).subset h
  dsimp only at hmem
  cases hspeed : input.speedChange with
  | none => rw [hspeed] at hmem; exact .inl hmem
  | some change =>
    rw [hspeed] at hmem
    rcases List.mem_append.mp hmem with hmem | hmem
    · exact .inl hmem
    · rw [List.mem_singleton] at hmem
      exact .inr ⟨by rw [hmem], by rw [hmem]⟩

/-! ## The store -/

/-- Each device's interfaces' histories, by `ifIndex`. -/
abbrev HealthStore := PMap String (PMap Int InterfaceHealth)

namespace HealthStore

def at? (store : HealthStore) (fqdn : String) (ifIndex : Int) : Option InterfaceHealth :=
  (store fqdn).bind fun interfaces => interfaces ifIndex

/-- `ingest`. -/
def ingest (cfg : HealthConfig) (store : HealthStore) (fqdn : String) (ifIndex : Int)
    (input : SampleInput) (now : Nat) : HealthStore :=
  let interfaces := PMap.getD store fqdn PMap.empty
  PMap.insert store fqdn (PMap.insert interfaces ifIndex
    (Health.ingest cfg (PMap.getD interfaces ifIndex InterfaceHealth.empty) input now))

def retainDevices (store : HealthStore) (keep : String → Bool) : HealthStore :=
  PMap.retain store keep

def retainInterfaces (store : HealthStore) (fqdn : String) (keep : Int → Bool) : HealthStore :=
  match store fqdn with
  | some interfaces => PMap.insert store fqdn (PMap.retain interfaces keep)
  | none => store

/-- `forget_device_interfaces`. -/
def forgetDeviceInterfaces (store : HealthStore) (fqdn : String) : HealthStore :=
  Function.update store fqdn none

section At
variable (store : HealthStore) (fqdn : String) (f : String) (i : Int)

theorem at?_ingest (cfg : HealthConfig) (ifIndex : Int) (input : SampleInput) (now : Nat) :
    (store.ingest cfg fqdn ifIndex input now).at? f i =
      if f = fqdn ∧ i = ifIndex then
        some (Health.ingest cfg ((store.at? fqdn ifIndex).getD InterfaceHealth.empty) input now)
      else store.at? f i := by
  unfold ingest at?
  dsimp only
  rw [PMap.insert_insert_bind, PMap.getD_getD]

theorem at?_retainDevices (keep : String → Bool) :
    (store.retainDevices keep).at? f i = if keep f then store.at? f i else none := by
  unfold retainDevices at?
  rw [PMap.retain_apply]
  split <;> rfl

theorem at?_retainInterfaces (keep : Int → Bool) :
    (store.retainInterfaces fqdn keep).at? f i =
      if f = fqdn ∧ keep i = false then none else store.at? f i := by
  unfold retainInterfaces at?
  cases hd : store fqdn with
  | none =>
    split
    · next h => simp [h.1, hd]
    · rfl
  | some interfaces =>
    by_cases hf : f = fqdn
    · subst hf
      cases hk : keep i <;> simp [hd, hk]
    · simp [hf]

theorem at?_forget : (store.forgetDeviceInterfaces fqdn).at? f i =
    if f = fqdn then none else store.at? f i := by
  unfold forgetDeviceInterfaces at?
  by_cases hf : f = fqdn
  · subst hf; simp
  · simp [hf]

end At

end HealthStore

/-! ## The summary -/

structure InterfaceHealthSummary where
  severity : Option Severity
  flapCount : Nat
  flapping : Bool
  lastFlapSecsAgo : Option Nat
  inErrors : Nat
  outErrors : Nat
  discards : Nat
  discardsHigh : Bool
  speedChangeCount : Nat
  lastSpeedChange : Option (Option Int × Int)
  peakUtilizationPct : Option Rat
  highUtilization : Bool
  rxBpsAvg : Option Rat
  txBpsAvg : Option Rat
  stale : Bool
  counterWindowSecs : Nat
  flapWindowSecs : Nat
  utilWindowSecs : Nat
  throughputWindowSecs : Nat

/-- `util_pct`: bytes over an interval against a speed in Mbps. -/
def utilPct (octets intervalMs : Nat) (speedMbps : Int) : Rat :=
  if intervalMs = 0 ∨ speedMbps ≤ 0 then 0
  else
    let bits := F64.mul (F64.round octets) 8
    let capacityBits := F64.mul (F64.mul (F64.round speedMbps) 1000000) (F64.div (F64.round intervalMs) 1000)
    if capacityBits ≤ 0 then 0 else F64.mul (F64.div bits capacityBits) 100

/-- A line that was full up to the rounding does not reach the threshold of 90. -/
example : utilPct 3600225000 32002 1000 < 90 := by decide +kernel

/-- The higher of a sample's two directions, when its speed is known. -/
def samplePeak (s : Sample) : Option Rat :=
  s.speedMbps.bind fun speed =>
    if 0 < speed then
      some (max (utilPct s.inOctets s.intervalMs speed) (utilPct s.outOctets s.intervalMs speed))
    else none

/-- The samples of a window that measured an interval. -/
def measured (windowMs now : Nat) (samples : List Sample) : List Sample :=
  samples.filter fun s => now - windowMs ≤ s.ts && 0 < s.intervalMs

def peakUtilization (cfg : HealthConfig) (now : Nat) (samples : List Sample) : Option Rat :=
  ((measured cfg.utilWindowMs now samples).filterMap samplePeak).foldl
    (fun peak p => some (peak.elim p fun q => max q p)) none

/-- A sum as the code has it, in a `u64`. -/
def u64 (n : Nat) : Nat := n % 2 ^ 64

/-- `as u32`. -/
def u32 (n : Nat) : Nat := n % 2 ^ 32

/-- Bits a second. -/
def bps (octets spanMs : Nat) : Rat := F64.div (F64.mul (F64.round octets) 8) (F64.div (F64.round spanMs) 1000)

/-- Bits over the measured time of the throughput window. -/
def bpsAvg (cfg : HealthConfig) (now : Nat) (octets : Sample → Nat) (samples : List Sample) :
    Option Rat :=
  let window := measured cfg.throughputWindowMs now samples
  let spanMs := u64 (window.map Sample.intervalMs).sum
  if 0 < spanMs then some (bps (u64 (window.map octets).sum) spanMs) else none

/-- `summary` of one interface's history. -/
def summary (cfg : HealthConfig) (ih : InterfaceHealth) (now lastReport : Nat) :
    InterfaceHealthSummary :=
  let counted := ih.samples.filter fun s => now - cfg.counterWindowMs ≤ s.ts
  let inErrors := u64 (counted.map Sample.inErrors).sum
  let outErrors := u64 (counted.map Sample.outErrors).sum
  let discards := u64 (counted.map Sample.outDiscards).sum
  let peak := peakUtilization cfg now ih.samples
  let recoveries := ih.flaps.filter fun f => now - cfg.flapWindowMs ≤ f.ts && f.up
  let speedChanges := ih.speedChanges.filter fun e => now - cfg.flapWindowMs ≤ e.ts
  let stale := decide (0 < lastReport) && decide (cfg.staleMs < now - lastReport)
  let flapCount := u32 recoveries.length
  let speedChangeCount := u32 speedChanges.length
  let flapping := decide (cfg.flapShowThreshold < flapCount)
  let hasErrors := decide (cfg.errorShowThreshold < u64 (inErrors + outErrors))
  let hasDiscards := decide (cfg.discardShowThreshold < discards)
  let highUtil := peak.elim false cfg.utilThresholdPct.reachedBy
  let renegotiated := decide (0 < speedChangeCount)
  { severity :=
      if flapping || stale then some .bad
      else if hasErrors || hasDiscards || highUtil || renegotiated then some .warn
      else none
    flapCount := flapCount
    flapping := flapping
    lastFlapSecsAgo := recoveries.getLast?.map fun f => (now - f.ts) / 1000
    inErrors := inErrors
    outErrors := outErrors
    discards := discards
    discardsHigh := hasDiscards
    speedChangeCount := speedChangeCount
    lastSpeedChange := speedChanges.getLast?.map fun e => (e.fromSpeed, e.toSpeed)
    peakUtilizationPct := peak
    highUtilization := highUtil
    rxBpsAvg := bpsAvg cfg now Sample.inOctets ih.samples
    txBpsAvg := bpsAvg cfg now Sample.outOctets ih.samples
    stale := stale
    counterWindowSecs := cfg.counterWindowMs / 1000
    flapWindowSecs := cfg.flapWindowMs / 1000
    utilWindowSecs := cfg.utilWindowMs / 1000
    throughputWindowSecs := cfg.throughputWindowMs / 1000 }

/-- `HealthStore::summary`: none for an interface that was never polled. -/
def HealthStore.summary (cfg : HealthConfig) (store : HealthStore) (fqdn : String) (ifIndex : Int)
    (now lastReport : Nat) : Option InterfaceHealthSummary :=
  (store.at? fqdn ifIndex).map fun ih => Health.summary cfg ih now lastReport

end JaspyNexus.Utilities.Health
