import Mathlib
import JaspyNexus.Snmp.Adapt

/-! # When a device is dead

The verdict on a device in terms of what was observed of it: the timeouts since its last
answer that came while the effective timeout was at the ceiling. The counter of them stops
when the device is dead, since the timeout is then pinned to the floor. -/

namespace JaspyNexus.Snmp.Embedded

/-- A configuration that adapts: a floor not above the ceiling, and a streak of a `u32`. -/
structure EnabledCfg extends AdaptCfg where
  on : enabled = true
  floor_le : baseMs ≤ maxMs
  streak_pos : 1 ≤ deadStreak
  streak_fits : deadStreak < 2 ^ 32

def Sample.isOk : Sample → Bool
  | .ok _ => true
  | _ => false

variable (c : EnabledCfg)

/-- The state of a device after the samples. -/
def after (samples : List Sample) : DeviceState := samples.foldl (adapt c.toAdaptCfg) (DeviceState.new c.baseMs)

/-- No success from the `i`-th sample on. -/
def Unanswered (samples : List Sample) (i : Nat) : Prop := ∀ sample ∈ samples.drop i, sample.isOk = false

/-- The `i`-th sample is a timeout, recorded while the effective timeout was at the ceiling. -/
def TimeoutAtMax (samples : List Sample) (i : Nat) : Prop :=
  samples[i]? = some .timeout ∧ (after c (samples.take i)).effectiveMs = c.maxMs

instance (samples : List Sample) (i : Nat) : Decidable (Unanswered samples i) :=
  inferInstanceAs (Decidable (∀ sample ∈ _, _))

instance (samples : List Sample) (i : Nat) : Decidable (TimeoutAtMax c samples i) :=
  inferInstanceAs (Decidable (_ ∧ _))

/-- Those since the last success. -/
def timeoutsAtMaxSinceOk (samples : List Sample) : Nat :=
  (List.range samples.length).countP fun i => TimeoutAtMax c samples i ∧ Unanswered samples i

/-- **The verdict.** -/
structure Verdict (samples : List Sample) : Prop where
  dead_iff : (after c samples).dead = true ↔ c.deadStreak ≤ timeoutsAtMaxSinceOk c samples
  /-- below the ceiling ever since the last success -/
  ramping : (∀ i ≤ samples.length, Unanswered samples i → (after c (samples.take i)).effectiveMs < c.maxMs) →
    (after c samples).dead = false
  no_signal : ∀ sample, sample = .mismatch ∨ sample = .error → after c (samples ++ [sample]) = after c samples
  success : ∀ rtt, (after c (samples ++ [.ok rtt])).dead = false ∧
    (after c (samples ++ [.ok rtt])).consecTimeouts = 0 ∧ (after c (samples ++ [.ok rtt])).timeoutsAtMax = 0

/-! ## One more sample -/

theorem after_concat (samples : List Sample) (sample : Sample) :
    after c (samples ++ [sample]) = adapt c.toAdaptCfg (after c samples) sample := by
  rw [after, List.foldl_append, List.foldl_cons, List.foldl_nil]
  rfl

/-- What is past stays as it was. -/
theorem timeoutAtMax_concat {samples : List Sample} {i : Nat} (hi : i < samples.length) (sample : Sample) :
    TimeoutAtMax c (samples ++ [sample]) i ↔ TimeoutAtMax c samples i := by
  unfold TimeoutAtMax
  rw [List.getElem?_append_left hi, List.take_append_of_le_length hi.le]

theorem unanswered_concat {samples : List Sample} {i : Nat} (hi : i ≤ samples.length) (sample : Sample) :
    Unanswered (samples ++ [sample]) i ↔ Unanswered samples i ∧ sample.isOk = false := by
  unfold Unanswered
  rw [List.drop_append_of_le_length hi]
  simp [or_imp, forall_and]

theorem timeoutAtMax_last (samples : List Sample) (sample : Sample) : TimeoutAtMax c (samples ++ [sample]) samples.length ↔
    sample = .timeout ∧ (after c samples).effectiveMs = c.maxMs := by
  unfold TimeoutAtMax
  rw [List.getElem?_concat_length, List.take_left', Option.some.injEq]
  rfl

/-- A success starts the count again; a timeout at the ceiling adds to it. -/
theorem timeoutsAtMaxSinceOk_concat (samples : List Sample) (sample : Sample) :
    timeoutsAtMaxSinceOk c (samples ++ [sample]) = if sample.isOk then 0
      else timeoutsAtMaxSinceOk c samples +
        if sample = .timeout ∧ (after c samples).effectiveMs = c.maxMs then 1 else 0 := by
  unfold timeoutsAtMaxSinceOk
  rw [List.length_append, List.length_singleton, List.range_succ, List.countP_append, List.countP_singleton]
  have hlast : Unanswered (samples ++ [sample]) samples.length ↔ sample.isOk = false := by
    rw [unanswered_concat le_rfl]
    exact and_iff_right (by simp [Unanswered])
  cases hok : sample.isOk with
  | true =>
    have hnone : ∀ i < samples.length, TimeoutAtMax c (samples ++ [sample]) i → ¬Unanswered (samples ++ [sample]) i := by
      intro i hi _ h
      rw [unanswered_concat hi.le, hok] at h
      exact Bool.noConfusion h.2
    rw [hok] at hlast
    simpa [List.countP_eq_zero, hlast] using hnone
  | false =>
    rw [hok] at hlast
    have hpast : ∀ i ∈ List.range samples.length,
        (decide (TimeoutAtMax c (samples ++ [sample]) i ∧ Unanswered (samples ++ [sample]) i) =
          decide (TimeoutAtMax c samples i ∧ Unanswered samples i)) := by
      intro i hi
      have hlt := List.mem_range.mp hi
      rw [decide_eq_decide, timeoutAtMax_concat c hlt, unanswered_concat hlt.le, hok]
      simp
    rw [List.countP_congr fun i hi => by rw [hpast i hi]]
    simp [timeoutAtMax_last, hlast]

/-! ## The counters -/

/-- The counter counts until the device is dead. -/
structure Tracks (n : Nat) (s : DeviceState) : Prop where
  alive : s.dead = false → s.timeoutsAtMax = n ∧ n < c.deadStreak
  dead : s.dead = true → c.deadStreak ≤ n
  le_max : s.effectiveMs ≤ c.maxMs

variable {c}

theorem Tracks.dead_iff {n : Nat} {s : DeviceState} (h : Tracks c n s) : s.dead = true ↔ c.deadStreak ≤ n := by
  cases hdead : s.dead with
  | true => exact iff_of_true rfl (h.dead hdead)
  | false => exact iff_of_false Bool.false_ne_true (Nat.not_le.mpr (h.alive hdead).2)

theorem Tracks.timeout {n : Nat} {s : DeviceState} (h : Tracks c n s) :
    Tracks c (n + if s.effectiveMs = c.maxMs then 1 else 0) (adapt c.toAdaptCfg s .timeout) := by
  have hon : (!c.enabled) = false := by rw [c.on]; rfl
  unfold adapt
  rw [hon]
  simp only [Bool.false_eq_true, if_false]
  cases hdead : s.dead with
  | true =>
    have hn := h.dead hdead
    exact ⟨fun halive => (by cases halive), fun _ => hn.trans (Nat.le_add_right _ _), c.floor_le⟩
  | false =>
    obtain ⟨hcount, hlt⟩ := h.alive hdead
    simp only [Bool.false_eq_true, if_false]
    by_cases hmax : c.maxMs ≤ s.effectiveMs
    · have heq : s.effectiveMs = c.maxMs := le_antisymm h.le_max hmax
      have hsucc : succU32 s.timeoutsAtMax = n + 1 := by
        have hfits := c.streak_fits
        rw [succU32, hcount]
        omega
      rw [if_pos hmax, if_pos heq, hsucc]
      by_cases hstreak : c.deadStreak ≤ n + 1
      · rw [if_pos hstreak]
        exact ⟨fun halive => (by cases halive), fun _ => hstreak, c.floor_le⟩
      · rw [if_neg hstreak]
        exact ⟨fun _ => ⟨rfl, Nat.not_le.mp hstreak⟩, fun hdead' => absurd hdead' (by simp), h.le_max⟩
    · rw [if_neg hmax, if_neg fun heq => hmax heq.ge, Nat.add_zero]
      exact ⟨fun _ => ⟨hcount, hlt⟩, fun hdead' => absurd hdead' (by simp), clamp_upper c.floor_le _⟩

theorem adapt_ok (s : DeviceState) (rtt : Rat) : (adapt c.toAdaptCfg s (.ok rtt)).dead = false ∧
    (adapt c.toAdaptCfg s (.ok rtt)).consecTimeouts = 0 ∧ (adapt c.toAdaptCfg s (.ok rtt)).timeoutsAtMax = 0 ∧
    (adapt c.toAdaptCfg s (.ok rtt)).effectiveMs ≤ c.maxMs := by
  have hon : (!c.enabled) = false := by rw [c.on]; rfl
  unfold adapt
  rw [hon]
  exact ⟨rfl, rfl, rfl, clamp_upper c.floor_le _⟩

theorem adapt_no_signal (s : DeviceState) {sample : Sample} (h : sample = .mismatch ∨ sample = .error) :
    adapt c.toAdaptCfg s sample = s := by
  have hon : (!c.enabled) = false := by rw [c.on]; rfl
  unfold adapt
  rw [hon]
  rcases h with rfl | rfl <;> rfl

/-- **The counter of a run.** -/
theorem tracks_after (samples : List Sample) : Tracks c (timeoutsAtMaxSinceOk c samples) (after c samples) := by
  induction samples using List.reverseRecOn with
  | nil => exact ⟨fun _ => ⟨rfl, c.streak_pos⟩, fun h => (by cases h), c.floor_le⟩
  | append_singleton samples sample ih =>
    rw [after_concat, timeoutsAtMaxSinceOk_concat]
    cases sample with
    | ok rtt =>
      obtain ⟨hdead, -, hcount, hle⟩ := adapt_ok (c := c) (after c samples) rtt
      exact ⟨fun _ => ⟨hcount, c.streak_pos⟩, fun h => (by rw [hdead] at h; cases h), hle⟩
    | timeout => simpa [Sample.isOk] using ih.timeout
    | mismatch | error =>
      rw [adapt_no_signal (after c samples) (by simp)]
      simpa [Sample.isOk] using ih

/-- Where the ceiling was not reached, nothing was counted. -/
theorem timeoutsAtMaxSinceOk_eq_zero {samples : List Sample}
    (h : ∀ i ≤ samples.length, Unanswered samples i → (after c (samples.take i)).effectiveMs < c.maxMs) :
    timeoutsAtMaxSinceOk c samples = 0 := by
  unfold timeoutsAtMaxSinceOk
  rw [List.countP_eq_zero]
  intro i hi hcounted
  obtain ⟨⟨-, hmax⟩, hunanswered⟩ := of_decide_eq_true hcounted
  exact absurd hmax (h i (List.mem_range.mp hi).le hunanswered).ne

/-- **Dead by the streak at the ceiling**, over every sequence of samples. -/
theorem dead_exactly (c : EnabledCfg) (samples : List Sample) : Verdict c samples where
  dead_iff := (tracks_after samples).dead_iff
  ramping h := by
    have hiff := (tracks_after (c := c) samples).dead_iff
    rw [timeoutsAtMaxSinceOk_eq_zero h] at hiff
    exact Bool.eq_false_iff.mpr fun hdead => absurd (hiff.mp hdead) (Nat.not_le.mpr c.streak_pos)
  no_signal sample h := by rw [after_concat, adapt_no_signal _ h]
  success rtt := by
    rw [after_concat]
    obtain ⟨hdead, hconsec, hcount, -⟩ := adapt_ok (c := c) (after c samples) rtt
    exact ⟨hdead, hconsec, hcount⟩

/-- The configuration without settings. -/
def adapting : EnabledCfg :=
  { AdaptCfg.default with
    on := rfl, floor_le := AdaptCfg.default_ordered, streak_pos := by decide, streak_fits := by decide }

/-- Four timeouts take the timeout to the ceiling, and three come there. -/
def silent : List Sample := List.replicate 7 .timeout

theorem dead_exactly_silent : (after adapting silent).dead = true ∧
    after adapting (silent ++ [.error]) = after adapting silent ∧ (after adapting (silent ++ [.ok 30])).dead = false := by
  have hverdict := dead_exactly adapting silent
  exact ⟨hverdict.dead_iff.mpr (by decide +kernel), hverdict.no_signal .error (.inr rfl), (hverdict.success 30).1⟩

end JaspyNexus.Snmp.Embedded
