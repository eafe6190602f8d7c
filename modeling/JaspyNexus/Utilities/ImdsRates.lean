import Mathlib
import JaspyNexus.Utilities.ImdsHistory

/-! # Rates

A sample divides the growth of the counters since they were last reported by the
time since the interface was last reported. The two agree when the report before
carried the counters too; a trap in between takes the interval and leaves the
growth for the next poll (`trap_breaks_rate`). -/

namespace JaspyNexus.Utilities.ImdsRates
open JaspyNexus.Lib JaspyNexus.Models JaspyNexus.Utilities JaspyNexus.Utilities.Health

/-- The report carries a counter. -/
def Carries (r : InterfaceReport) : Prop := ∃ c, (r.counters c).isSome = true

/-- The counters a sample measures. -/
def healthCounters : List Counter := [.inErrors, .outErrors, .outDiscards, .inOctets, .outOctets]

/-- The counter's figure in a sample. -/
def figure (s : Sample) : Counter → Nat
  | .inErrors => s.inErrors
  | .outErrors => s.outErrors
  | .outDiscards => s.outDiscards
  | .inOctets => s.inOctets
  | .outOctets => s.outOctets
  | _ => 0

/-- **The condition.** A report on an interface reported before carries counters,
and of the counters a sample measures none that was reported before but not by
the report just before it. -/
def Measured (prior : History) (a : Accepted) : Prop :=
  ∀ last older, prior = last :: older → Carries a.report ∧
    ∀ c ∈ healthCounters, (a.report.counters c).isSome = true →
      (prior.counter c).isSome = true → (last.report.counters c).isSome = true

/-- The sample is the growth of the counters from report `last` to report `a`
over the time between them. -/
structure TrueRate (last a : Accepted) (s : Sample) : Prop where
  ts : s.ts = a.now
  later : last.now < a.now
  intervalMs : s.intervalMs = a.now - last.now
  carries : Carries a.report
  growth : ∀ c ∈ healthCounters,
    figure s c = counterDelta (last.report.counters c) (a.report.counters c)

/-- A true rate between two reports of the interface accepted one after the other. -/
structure TrueSample (h : History) (last a : Accepted) (s : Sample) : Prop extends TrueRate last a s where
  accepted : ∃ older, After h (last :: older) a

/-- A throughput is a growth over the time it took, as floats have it: each of five
operations is off by one rounding. -/
structure Throughput (figure : Rat) (growth spanMs : Nat) : Prop where
  computed : figure = bps growth spanMs
  exact : F64.Within 5 figure (growth * 8 / (spanMs / 1000))

/-- A utilization is a growth over the time it took against a speed, as floats have it. -/
structure Utilization (pct : Rat) (growth spanMs : Nat) (speedMbps : Int) : Prop where
  computed : pct = utilPct growth spanMs speedMbps
  exact : F64.Within 9 pct (growth * 8 / (speedMbps * 1000000 * (spanMs / 1000)) * 100)

/-- Every sample is a true rate, and so are the figures drawn from them. -/
structure TrueRates (cfg : HealthConfig) (w : World) : Prop where
  samples : ∀ fqdn i ih, w.imds.health.at? fqdn i = some ih → ∀ s ∈ ih.samples,
    ∃ last a, TrueSample (w.history fqdn i) last a s
  /-- the average throughput is the growth over the time it took, as a `u64` sums them -/
  throughput : ∀ fqdn i ih, w.imds.health.at? fqdn i = some ih → ∀ now lastReport,
    ∃ pairs : List (Accepted × Accepted),
      List.Forall₂ (fun s p => TrueSample (w.history fqdn i) p.1 p.2 s)
        (measured cfg.throughputWindowMs now ih.samples) pairs ∧
      (∀ figure, (summary cfg ih now lastReport).rxBpsAvg = some figure →
        Throughput figure
          (u64 (pairs.map fun p => counterDelta (p.1.report.counters .inOctets) (p.2.report.counters .inOctets)).sum)
          (u64 (pairs.map fun p => p.2.now - p.1.now).sum)) ∧
      (∀ figure, (summary cfg ih now lastReport).txBpsAvg = some figure →
        Throughput figure
          (u64 (pairs.map fun p => counterDelta (p.1.report.counters .outOctets) (p.2.report.counters .outOctets)).sum)
          (u64 (pairs.map fun p => p.2.now - p.1.now).sum))
  /-- the peak utilization is that of one direction in one sample of the window, its growth over
  the time it took against the speed the sample carries -/
  utilization : ∀ fqdn i ih, w.imds.health.at? fqdn i = some ih → ∀ now lastReport pct,
    (summary cfg ih now lastReport).peakUtilizationPct = some pct →
    ∃ s ∈ measured cfg.utilWindowMs now ih.samples, ∃ last a speed c,
      TrueSample (w.history fqdn i) last a s ∧ s.speedMbps = some speed ∧ (c = .inOctets ∨ c = .outOctets) ∧
      Utilization pct (counterDelta (last.report.counters c) (a.report.counters c)) (a.now - last.now) speed

/-! ## Figures -/

theorem throughput_bps {growth spanMs : Nat} (h : 0 < spanMs) : Throughput (bps growth spanMs) growth spanMs := by
  have hspan : (0 : Rat) < (spanMs : Rat) / 1000 := by
    have : (0 : Rat) < spanMs := Nat.cast_pos.mpr h
    positivity
  have hbits := (F64.Within.of_round (Nat.cast_nonneg (α := Rat) growth)).mul (.refl (x := 8) (by norm_num))
  have hsecs := (F64.Within.of_round (Nat.cast_nonneg (α := Rat) spanMs)).div (.refl (x := 1000) (by norm_num))
    (by norm_num)
  exact ⟨rfl, hbits.div hsecs hspan⟩

theorem utilization_utilPct {growth spanMs : Nat} {speedMbps : Int} (hspan : 0 < spanMs) (hspeed : 0 < speedMbps) :
    Utilization (utilPct growth spanMs speedMbps) growth spanMs speedMbps := by
  have hspeed' : (0 : Rat) < speedMbps := Int.cast_pos.mpr hspeed
  have hspan' : (0 : Rat) < spanMs := Nat.cast_pos.mpr hspan
  have hbits := (F64.Within.of_round (Nat.cast_nonneg (α := Rat) growth)).mul (.refl (x := 8) (by norm_num))
  have hsecs := (F64.Within.of_round hspan'.le).div (.refl (x := 1000) (by norm_num)) (by norm_num)
  have hcapacity := ((F64.Within.of_round hspeed'.le).mul (.refl (x := 1000000) (by norm_num))).mul hsecs
  have hpos : (0 : Rat) < speedMbps * 1000000 * (spanMs / 1000) := by positivity
  refine ⟨rfl, ?_⟩
  rw [utilPct, if_neg (by omega)]
  dsimp only
  rw [if_neg (not_le.mpr (hcapacity.figure_pos hpos))]
  exact (hbits.div hcapacity hpos).mul (.refl (x := 100) (by norm_num))

/-! ## Samples -/

/-- After reports that all meet the condition, a sample is a true rate. -/
theorem trueRate_of_sampleOf {h older : History} {last a : Accepted} {s : Sample}
    (hordered : h.Pairwise fun a b => b.now < a.now) (hafter : After h (last :: older) a)
    (hgood : Measured (last :: older) a) (hs : SampleOf (last :: older) a s) :
    TrueRate last a s := by
  obtain ⟨hcarries, hheld⟩ := hgood last older rfl
  have hlater : last.now < a.now :=
    (List.pairwise_cons.mp (hordered.sublist hafter.sublist)).1 last List.mem_cons_self
  refine ⟨hs.ts, hlater, hs.intervalMs, hcarries, ?_⟩
  -- the counter's last value is the one the report before carried
  have hsame : ∀ c ∈ healthCounters,
      counterDelta (History.counter (last :: older) c) (a.report.counters c) =
        counterDelta (last.report.counters c) (a.report.counters c) := by
    intro c hc
    rw [History.counter_cons]
    cases hl : last.report.counters c with
    | some v => rfl
    | none =>
      cases ha : a.report.counters c with
      | none => simp only [counterDelta_none_right]
      | some v =>
        have hnone : (History.counter (last :: older) c) = none := by
          by_contra hsome
          have := hheld c hc (by rw [ha]; rfl) (Option.isSome_iff_ne_none.mpr hsome)
          rw [hl] at this
          cases this
        rw [History.counter_cons, hl] at hnone
        rw [hnone]
  intro c hc
  rw [← hsame c hc]
  simp only [healthCounters, List.mem_cons, List.not_mem_nil, or_false] at hc
  rcases hc with rfl | rfl | rfl | rfl | rfl
  · exact hs.inErrors
  · exact hs.outErrors
  · exact hs.outDiscards
  · exact hs.inOctets
  · exact hs.outOctets

/-! ## The summary -/

/-- The windowed samples, each with the reports behind it. -/
theorem exists_pairs {h : History} (samples : List Sample) (hsamples : ∀ s ∈ samples, ∃ last a, TrueSample h last a s) :
    ∃ pairs : List (Accepted × Accepted), List.Forall₂ (fun s p => TrueSample h p.1 p.2 s) samples pairs := by
  induction samples with
  | nil => exact ⟨[], .nil⟩
  | cons s rest ih =>
    obtain ⟨last, a, hs⟩ := hsamples s List.mem_cons_self
    obtain ⟨pairs, hpairs⟩ := ih fun s' hs' => hsamples s' (List.mem_cons_of_mem _ hs')
    exact ⟨(last, a) :: pairs, .cons hs hpairs⟩

theorem sum_interval {h : History} {samples : List Sample} {pairs : List (Accepted × Accepted)}
    (hpairs : List.Forall₂ (fun s p => TrueSample h p.1 p.2 s) samples pairs) :
    (samples.map Sample.intervalMs).sum = (pairs.map fun p => p.2.now - p.1.now).sum := by
  induction hpairs with
  | nil => rfl
  | cons hs _ ih => simp only [List.map_cons, List.sum_cons, ih, hs.intervalMs]

theorem sum_figure {h : History} {samples : List Sample} {pairs : List (Accepted × Accepted)}
    (hpairs : List.Forall₂ (fun s p => TrueSample h p.1 p.2 s) samples pairs) {c : Counter}
    (hc : c ∈ healthCounters) :
    (samples.map fun s => figure s c).sum = (pairs.map fun p =>
      counterDelta (p.1.report.counters c) (p.2.report.counters c)).sum := by
  induction hpairs with
  | nil => rfl
  | cons hs _ ih => simp only [List.map_cons, List.sum_cons, ih, hs.growth c hc]

/-- An average is taken over the octets and the time of its window. -/
theorem bpsAvg_throughput {cfg : HealthConfig} {now : Nat} {octets : Sample → Nat} {samples : List Sample}
    {figure : Rat} (h : bpsAvg cfg now octets samples = some figure) :
    Throughput figure (u64 ((measured cfg.throughputWindowMs now samples).map octets).sum)
      (u64 ((measured cfg.throughputWindowMs now samples).map Sample.intervalMs).sum) := by
  unfold bpsAvg at h
  dsimp only at h
  split at h
  · next hpos =>
    cases h
    exact throughput_bps hpos
  · cases h

/-- A running maximum is one of the values or the start. -/
theorem foldl_max_mem {l : List Rat} : ∀ {acc : Option Rat} {p : Rat},
    l.foldl (fun peak p => some (peak.elim p fun q => max q p)) acc = some p →
      acc = some p ∨ p ∈ l := by
  induction l with
  | nil => intro acc p h; exact .inl h
  | cons x rest ih =>
    intro acc p h
    rcases ih h with h | h
    · cases acc with
      | none => exact .inr (by simpa using Or.inl (Option.some.inj h).symm)
      | some q =>
        have hmax : max q x = p := Option.some.inj h
        rcases max_choice q x with hq | hx
        · exact .inl (by rw [← hmax, hq])
        · exact .inr (by rw [← hmax, hx]; exact List.mem_cons_self)
    · exact .inr (List.mem_cons_of_mem _ h)

/-- The peak is one direction of one sample of the window. -/
theorem peakUtilization_mem {cfg : HealthConfig} {now : Nat} {samples : List Sample} {pct : Rat}
    (h : peakUtilization cfg now samples = some pct) :
    ∃ s ∈ measured cfg.utilWindowMs now samples, ∃ speed c, s.speedMbps = some speed ∧
      (c = .inOctets ∨ c = .outOctets) ∧ Utilization pct (figure s c) s.intervalMs speed := by
  rcases foldl_max_mem h with h | h
  · cases h
  · obtain ⟨s, hs, hpeak⟩ := List.mem_filterMap.mp h
    obtain ⟨speed, hspeed, hpeak⟩ := Option.bind_eq_some_iff.mp hpeak
    have hinterval : 0 < s.intervalMs := by
      have := (List.mem_filter.mp hs).2
      rw [Bool.and_eq_true, decide_eq_true_eq, decide_eq_true_eq] at this
      exact this.2
    split at hpeak
    · next hpos =>
      cases hpeak
      rcases max_choice (utilPct s.inOctets s.intervalMs speed)
        (utilPct s.outOctets s.intervalMs speed) with hmax | hmax
      · refine ⟨s, hs, speed, .inOctets, hspeed, .inl rfl, ?_⟩
        rw [hmax]
        exact utilization_utilPct hinterval hpos
      · refine ⟨s, hs, speed, .outOctets, hspeed, .inr rfl, ?_⟩
        rw [hmax]
        exact utilization_utilPct hinterval hpos
    · cases hpeak

/-- **In a run whose accepted reports all meet the condition, every sample is a
true rate** in every state, and throughput and utilization are drawn from true
rates only. -/
theorem run_trueRates (cfg : HealthConfig) (ops pre : List Op)
    (hok : Runs.Allowed (World.step cfg) (Accepts (OnHistory Measured) cfg) World.start ops)
    (hpre : pre <+: ops) : TrueRates cfg (World.run cfg pre) := by
  have hgood := allGood_run hok hpre
  have hrec := recorded_run cfg pre
  have hsamples : ∀ fqdn i ih, (World.run cfg pre).imds.health.at? fqdn i = some ih →
      ∀ s ∈ ih.samples, ∃ last a, TrueSample ((World.run cfg pre).history fqdn i) last a s := by
    intro fqdn i ih hih s hs
    have hcell := hrec.cell fqdn i
    obtain ⟨prior, a, hafter, hne, hsample⟩ := hcell.samples ih hih s hs
    obtain ⟨last, older, rfl⟩ := List.exists_cons_of_ne_nil hne
    have hrate := trueRate_of_sampleOf hcell.ordered hafter (hgood.history fqdn i _ _ hafter) hsample
    exact ⟨last, a, hrate, older, hafter⟩
  refine ⟨hsamples, fun fqdn i ih hih now lastReport => ?_, fun fqdn i ih hih now lastReport pct hp => ?_⟩
  · obtain ⟨pairs, hpairs⟩ := exists_pairs (measured cfg.throughputWindowMs now ih.samples) fun s hs =>
      hsamples fqdn i ih hih s (List.mem_filter.mp hs).1
    refine ⟨pairs, hpairs, fun figure hfigure => ?_, fun figure hfigure => ?_⟩
    · rw [← sum_interval hpairs, ← sum_figure hpairs (c := .inOctets) (by simp [healthCounters])]
      exact bpsAvg_throughput hfigure
    · rw [← sum_interval hpairs, ← sum_figure hpairs (c := .outOctets) (by simp [healthCounters])]
      exact bpsAvg_throughput hfigure
  · obtain ⟨s, hs, speed, c, hspeed, hc, hpct⟩ := peakUtilization_mem hp
    obtain ⟨last, a, hrate⟩ := hsamples fqdn i ih hih s (List.mem_filter.mp hs).1
    have hmeasured : c ∈ healthCounters := by
      rcases hc with rfl | rfl <;> simp [healthCounters]
    rw [hrate.growth c hmeasured, hrate.intervalMs] at hpct
    exact ⟨s, hs, last, a, speed, c, hrate, hspeed, hc, hpct⟩

/-! ## A trap between two polls -/

/-- A poll of one interface that reads its octets. -/
def octetsPoll (inOctets now : Nat) : Op :=
  .reportInterfaces (fun _ => none)
    { deviceFqdn := "sw1"
      interfaces :=
        [{ ifIndex := 1
           counters := fun c => if c = .inOctets then some inOctets else none
           up := some true
           speed := some 1000
           adminUp := none
           errDisabled := none
           errDisableCause := none
           errDisableRecoverSecs := none }] } now now

def linkUpTrap (now : Nat) : Op :=
  .reportInterfaces (fun _ => none) (.linkEvent "sw1" 1 true) now now

/-- Discovery of the interface the runs below report on. -/
def discovered : List Op :=
  [.refreshDevice "sw1" none 500, .refreshInterface "sw1" 1 "ethernetCsmacd" "Gi0/1" false none]

/-- **A trap between two polls takes part of the interval**: it pushes a sample
of its own, and the next poll's sample has the growth of two minutes over one. -/
theorem trap_breaks_rate :
    let w := World.run .default
      (discovered ++ [octetsPoll 1000 1000, linkUpTrap 61000, octetsPoll 901000 121000])
    ¬TrueRates .default w ∧
      (w.imds.health.at? "sw1" 1).map (fun ih => ih.samples.map fun s =>
        (s.intervalMs, s.inOctets)) = some [(60000, 0), (60000, 900000)] := by
  refine ⟨fun htrue => ?_, by decide +kernel⟩
  obtain ⟨last, a, hrate, older, hafter⟩ := htrue.samples "sw1" 1 _ rfl
    { ts := 61000, inErrors := 0, outErrors := 0, outDiscards := 0, inOctets := 0
      outOctets := 0, intervalMs := 60000, speedMbps := some 1000 } (by decide +kernel)
  -- the report of that time is the trap, which carries nothing
  have hcarries := hrate.carries
  have hts := hrate.ts
  rcases after_cons_iff.mp hafter with ⟨rfl, -⟩ | hafter
  · cases hts
  rcases after_cons_iff.mp hafter with ⟨rfl, -⟩ | hafter
  · obtain ⟨c, hc⟩ := hcarries
    cases hc
  rcases after_cons_iff.mp hafter with ⟨rfl, -⟩ | hafter
  · cases hts
  · exact not_after_nil hafter

/-- A poll of the octets is measured when the report before was one. -/
theorem accepts_octetsPoll {cfg : HealthConfig} {w : World} (inOctets now : Nat)
    (hprior : ∀ last older, w.history "sw1" 1 = last :: older →
      (last.report.counters .inOctets).isSome = true) :
    Accepts (OnHistory Measured) cfg w (octetsPoll inOctets now) := by
  unfold Accepts octetsPoll
  dsimp only
  split
  · trivial
  · refine ⟨fun m _ last older hlast => ⟨⟨.inOctets, rfl⟩, fun c _ hc _ => ?_⟩, trivial⟩
    -- no other counter is carried
    obtain rfl : c = .inOctets := by
      by_contra hne
      simp [hne] at hc
    exact hprior last older hlast

theorem run_trueRates_polls : TrueRates .default (World.run .default
    (discovered ++ [octetsPoll 1000 1000, octetsPoll 451000 61000, octetsPoll 901000 121000])) := by
  refine run_trueRates _ (discovered ++ [octetsPoll 1000 1000, octetsPoll 451000 61000,
    octetsPoll 901000 121000]) _ ⟨trivial, trivial, accepts_octetsPoll _ _ ?_,
      accepts_octetsPoll _ _ ?_, accepts_octetsPoll _ _ ?_, trivial⟩ (List.prefix_refl _)
  all_goals
    intro last older hlast
    cases hlast
  all_goals rfl

end JaspyNexus.Utilities.ImdsRates
