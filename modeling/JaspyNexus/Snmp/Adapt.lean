import Mathlib
import JaspyNexus.Lib.Runs

/-! # Adaptive timeouts

The state of one device in `snmp/embedded.rs`, from which the timeout of its next session
is taken: a step for each observed request, and the overwriting of the state by what was
persisted. The `f64` figures are rationals. -/

namespace JaspyNexus.Snmp.Embedded
open JaspyNexus.Lib

structure AdaptCfg where
  /-- the floor, and the fixed timeout when not enabled -/
  baseMs : Nat
  maxMs : Nat
  alpha : Rat
  factor : Rat
  marginMs : Nat
  backoff : Rat
  backoffAddMs : Nat
  deadStreak : Nat
  enabled : Bool
  deriving DecidableEq, Repr

/-- What one request tells: the round trip in milliseconds, or how it failed. -/
inductive Sample where
  | ok (rttMs : Rat)
  | timeout
  | mismatch
  | error
  deriving DecidableEq, Repr

structure DeviceState where
  ewmaMs : Option Rat
  consecTimeouts : Nat
  timeoutsAtMax : Nat
  effectiveMs : Nat
  /-- no retries, and the base timeout -/
  dead : Bool
  deriving DecidableEq, Repr

/-- `DeviceState::new`. -/
def DeviceState.new (baseMs : Nat) : DeviceState := ⟨none, 0, 0, baseMs, false⟩

/-- `effective_retries`. -/
def DeviceState.effectiveRetries (s : DeviceState) (configured : Nat) : Nat := if s.dead then 0 else configured

/-- `open_params`. -/
def DeviceState.openParams (s : DeviceState) (configured : Nat) : Nat × Nat :=
  (s.effectiveMs, s.effectiveRetries configured)

/-- `x.round() as u64`: what does not fit is brought to the nearest end. -/
def roundU64 (x : Rat) : Nat := min (⌊x + 1 / 2⌋).toNat (2 ^ 64 - 1)

/-- `saturating_add(1)` of a `u32`. -/
def succU32 (n : Nat) : Nat := min (n + 1) (2 ^ 32 - 1)

/-- `u64::clamp` between the floor and the ceiling. -/
def AdaptCfg.clamp (c : AdaptCfg) (ms : Nat) : Nat := max c.baseMs (min ms c.maxMs)

/-- `adapt`. -/
def adapt (c : AdaptCfg) (s : DeviceState) (sample : Sample) : DeviceState :=
  if !c.enabled then DeviceState.new c.baseMs
  else match sample with
    | .mismatch | .error => s
    | .ok rtt =>
      let ewma := match s.ewmaMs with
        | some prev => c.alpha * rtt + (1 - c.alpha) * prev
        | none => rtt
      { ewmaMs := some ewma
        consecTimeouts := 0
        timeoutsAtMax := 0
        effectiveMs := c.clamp (roundU64 (c.factor * ewma + c.marginMs))
        dead := false }
    | .timeout =>
      let counted := { s with consecTimeouts := succU32 s.consecTimeouts }
      if s.dead then { counted with effectiveMs := c.baseMs }
      else if c.maxMs ≤ s.effectiveMs then
        let atMax := { counted with timeoutsAtMax := succU32 s.timeoutsAtMax }
        if c.deadStreak ≤ atMax.timeoutsAtMax then { atMax with dead := true, effectiveMs := c.baseMs } else atMax
      else { counted with effectiveMs := c.clamp (roundU64 (s.effectiveMs * c.backoff + c.backoffAddMs)) }

/-- What was persisted of a device. -/
structure Persisted where
  ewmaMs : Option Rat
  effectiveMs : Nat
  consecTimeouts : Nat
  dead : Bool
  deriving DecidableEq, Repr

/-- `seed`: the persisted values overwrite the state. -/
def AdaptCfg.seed (c : AdaptCfg) (row : Persisted) : DeviceState where
  ewmaMs := row.ewmaMs
  effectiveMs := c.clamp row.effectiveMs
  consecTimeouts := row.consecTimeouts
  dead := row.dead
  timeoutsAtMax := if row.dead then c.deadStreak else 0

/-! ## The law -/

/-- What sessions are opened with stays between the floor and the ceiling, and is the
floor for a device that is dead and where nothing is adapted. -/
structure Sound (c : AdaptCfg) (s : DeviceState) : Prop where
  lower : c.baseMs ≤ s.effectiveMs
  upper : s.effectiveMs ≤ c.maxMs
  dead : s.dead = true → s.effectiveMs = c.baseMs
  fixed : c.enabled = false → s.effectiveMs = c.baseMs ∧ s.dead = false

/-- A call that changes the state. -/
inductive Turn where
  | seed (row : Persisted)
  | record (sample : Sample)
  deriving DecidableEq, Repr

def DeviceState.step (c : AdaptCfg) (s : DeviceState) : Turn → DeviceState
  | .seed row => c.seed row
  | .record sample => adapt c s sample

/-- The persisted timeout is the floor for this configuration where the state needs it to
be, and no device is dead where nothing is adapted. -/
structure Persisted.Fits (c : AdaptCfg) (row : Persisted) : Prop where
  floor : row.dead = true ∨ c.enabled = false → row.effectiveMs ≤ c.baseMs ∨ c.maxMs ≤ c.baseMs
  alive : c.enabled = false → row.dead = false

def Turn.Fits (c : AdaptCfg) : Turn → Prop
  | .seed row => row.Fits c
  | .record _ => True

section
variable {c : AdaptCfg} {s : DeviceState}

theorem clamp_lower (c : AdaptCfg) (ms : Nat) : c.baseMs ≤ c.clamp ms := le_max_left _ _

theorem clamp_upper (h : c.baseMs ≤ c.maxMs) (ms : Nat) : c.clamp ms ≤ c.maxMs := max_le h (min_le_right _ _)

theorem clamp_eq_base_iff {ms : Nat} : c.clamp ms = c.baseMs ↔ ms ≤ c.baseMs ∨ c.maxMs ≤ c.baseMs := by
  rw [AdaptCfg.clamp, max_eq_left_iff, min_le_iff]

theorem sound_new (h : c.baseMs ≤ c.maxMs) : Sound c (DeviceState.new c.baseMs) where
  lower := le_rfl
  upper := h
  dead := fun _ => rfl
  fixed := fun _ => ⟨rfl, rfl⟩

/-- A request keeps the state sound. -/
theorem Sound.adapt (hcfg : c.baseMs ≤ c.maxMs) (h : Sound c s) (sample : Sample) : Sound c (adapt c s sample) := by
  unfold Embedded.adapt
  split
  · exact sound_new hcfg
  next henabled =>
  have hfixed : ∀ {p : Prop}, c.enabled = false → p := fun hoff => absurd hoff (by simpa using henabled)
  split
  · exact h
  · exact h
  · exact ⟨clamp_lower c _, clamp_upper hcfg _, fun hdead => Bool.noConfusion hdead, hfixed⟩
  · dsimp only
    split
    · exact ⟨le_rfl, hcfg, fun _ => rfl, hfixed⟩
    next halive =>
    split
    · split
      · exact ⟨le_rfl, hcfg, fun _ => rfl, hfixed⟩
      · exact ⟨h.lower, h.upper, fun hdead => absurd hdead halive, hfixed⟩
    · exact ⟨clamp_lower c _, clamp_upper hcfg _, fun hdead => absurd hdead halive, hfixed⟩

/-- What was persisted gives a sound state exactly when it fits. -/
theorem sound_seed_iff (hcfg : c.baseMs ≤ c.maxMs) (row : Persisted) : Sound c (c.seed row) ↔ row.Fits c := by
  constructor
  · intro h
    refine ⟨fun hneeds => clamp_eq_base_iff.mp ?_, fun hoff => (h.fixed hoff).2⟩
    rcases hneeds with hdead | hoff
    · exact h.dead hdead
    · exact (h.fixed hoff).1
  · intro h
    refine ⟨clamp_lower c _, clamp_upper hcfg _, fun hdead => ?_, fun hoff => ⟨?_, h.alive hoff⟩⟩
    · exact clamp_eq_base_iff.mpr (h.floor (.inl hdead))
    · exact clamp_eq_base_iff.mpr (h.floor (.inr hoff))

theorem sound_step_iff (hcfg : c.baseMs ≤ c.maxMs) (h : Sound c s) (turn : Turn) :
    Sound c (s.step c turn) ↔ turn.Fits c := by
  cases turn with
  | seed row => exact sound_seed_iff hcfg row
  | record sample => exact iff_of_true (h.adapt hcfg sample) trivial

end

/-- **The timeouts of a run** are sound throughout exactly when everything that was
persisted fits the configuration it is read under. -/
theorem timeouts_sound_iff (c : AdaptCfg) (hcfg : c.baseMs ≤ c.maxMs) (turns : List Turn) :
    (∀ pre, pre <+: turns → Sound c (pre.foldl (DeviceState.step c) (DeviceState.new c.baseMs))) ↔
      ∀ turn ∈ turns, turn.Fits c := by
  have hfits : Runs.Allowed (DeviceState.step c) (fun _ turn => turn.Fits c) (DeviceState.new c.baseMs) turns ↔
      ∀ turn ∈ turns, turn.Fits c := Runs.allowed_of_actions
  rw [← hfits]
  exact (Runs.allowed_iff (Sound c) (fun _ => True) (fun _ _ _ => trivial)
    (fun _ turn _ h => sound_step_iff hcfg h turn) trivial (sound_new hcfg)).symm

/-- The configuration of an installation that has changed nothing. -/
def AdaptCfg.default : AdaptCfg := ⟨2000, 10000, 3 / 10, 2, 250, 3 / 2, 500, 3, true⟩

theorem AdaptCfg.default_ordered : AdaptCfg.default.baseMs ≤ AdaptCfg.default.maxMs := by decide

/-- A device that was persisted as slow times out, and is dead in the end. -/
theorem timeouts_sound_slow : Sound .default
    (([.seed ⟨some 4000, 8000, 0, false⟩, .record .timeout, .record .timeout, .record .timeout,
      .record .timeout] : List Turn).foldl (DeviceState.step .default) (DeviceState.new 2000)) := by
  refine (timeouts_sound_iff .default AdaptCfg.default_ordered _).mpr ?_ _ (List.prefix_refl _)
  intro turn hturn
  simp only [List.mem_cons, List.not_mem_nil, or_false] at hturn
  rcases hturn with rfl | rfl | rfl | rfl | rfl
  · exact ⟨by decide, by decide⟩
  all_goals trivial

/-- **A row of another configuration**: the floor was three seconds when the device died,
and is two seconds now. And where nothing is adapted any more, a slow device keeps its timeout. -/
theorem persisted_timeout_overwrites :
    ¬ Sound .default (DeviceState.step .default (DeviceState.new 2000) (.seed ⟨none, 3000, 9, true⟩)) ∧
    ¬ Sound { AdaptCfg.default with enabled := false }
      (DeviceState.step { AdaptCfg.default with enabled := false } (DeviceState.new 2000)
        (.seed ⟨some 4000, 8000, 0, false⟩)) := by
  refine ⟨fun h => ?_, fun h => ?_⟩
  · exact absurd (h.dead rfl) (by decide)
  · exact absurd (h.fixed rfl).1 (by decide)

end JaspyNexus.Snmp.Embedded
