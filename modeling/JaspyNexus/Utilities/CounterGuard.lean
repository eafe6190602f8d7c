import Mathlib
import JaspyNexus.Utilities.ImdsReports

/-! # The counter guard

`validate_counters` refuses a report whose counters went back, but not for ever:
the entry counts the refusals, and after ten of them the next report is taken
whatever it carries. The count is the number of refusals since the last report
that was taken, stale reports aside; bounds and effects follow from it. -/

namespace JaspyNexus.Utilities.ImdsReports
open JaspyNexus.Lib JaspyNexus.Models JaspyNexus.Utilities.Health

/-! ## The count of refusals -/

/-- The reports that reached the guard. -/
def guarded (turns : List Turn) : List Turn := turns.filter fun t => t.verdict ≠ .stale

/-- The refusals since a report was last taken. -/
def refusals (turns : List Turn) : List Turn :=
  (guarded turns).takeWhile fun t => t.verdict = .rejected

section Cons
variable {t : Turn} {older : List Turn}

theorem guarded_stale (h : t.verdict = .stale) : guarded (t :: older) = guarded older := by
  simp [guarded, h]

theorem guarded_cons (h : t.verdict ≠ .stale) : guarded (t :: older) = t :: guarded older := by
  simp [guarded, h]

theorem refusals_stale (h : t.verdict = .stale) : refusals (t :: older) = refusals older := by
  rw [refusals, guarded_stale h, refusals]

theorem refusals_rejected (h : t.verdict = .rejected) :
    refusals (t :: older) = t :: refusals older := by
  rw [refusals, guarded_cons (by simp [h]), List.takeWhile_cons_of_pos (by simp [h]), refusals]

theorem refusals_accepted (h : t.verdict = .accepted) : refusals (t :: older) = [] := by
  rw [refusals, guarded_cons (by simp [h]), List.takeWhile_cons_of_neg (by simp [h])]

end Cons

/-- **The entry counts the refusals since a report was last taken**, ten at most. -/
theorem counterViolations_eq {cfg : HealthConfig} {fqdn : String} {ifIndex : Int}
    {turns : List Turn} {m : InterfaceMetrics} (hruled : ∀ t ∈ turns, t.Ruled cfg fqdn ifIndex)
    (h : Follows turns m) :
    m.counterViolations = (refusals turns).length ∧ m.counterViolations ≤ 10 := by
  induction turns generalizing m with
  | nil => simp [h.counterViolations, refusals, guarded]
  | cons t older ih =>
    obtain ⟨hcount, hbound⟩ := ih (fun t' ht' => hruled t' (List.mem_cons_of_mem _ ht')) h.2
    have hleft := (hruled t List.mem_cons_self).left
    rw [h.1.counterViolations, hleft]
    unfold leaves
    cases hv : verdict t.found t.report t.now with
    | stale =>
      rw [refusals_stale hv]
      exact ⟨hcount, hbound⟩
    | rejected =>
      rw [refusals_rejected hv, List.length_cons, ← hcount]
      obtain ⟨hlt, hnext⟩ := verdict_rejected hv
      dsimp only
      omega
    | accepted =>
      rw [refusals_accepted hv]
      exact ⟨rfl, Nat.zero_le _⟩

/-! ## The guard over a run -/

/-- What the guard keeps over the reports of an interface, newest first. -/
structure GuardKept (turns : List Turn) (m? : Option InterfaceMetrics) : Prop where
  bounded : ∀ m, m? = some m → m.counterViolations ≤ 10
  refused : ∀ t ∈ turns, t.verdict = .rejected →
    t.left = { t.found with counterViolations := t.found.counterViolations + 1 } ∧
    t.events = [] ∧ t.healthLeft = t.healthFound
  inARow : ∀ run, run <:+: guarded turns → (∀ t ∈ run, t.verdict = .rejected) → run.length ≤ 10
  decreases : ∀ newer t older, turns = newer ++ t :: older → ∀ c old new,
    t.found.counters c = some old → t.left.counters c = some new → new < old →
    t.verdict = .accepted ∧ (2147483647 ≤ old - new ∨
      ∃ ten, ten <+: guarded older ∧ ten.length = 10 ∧ ∀ t' ∈ ten, t'.verdict = .rejected)
  between : turns.IsChain fun later earlier => later.found.counters = earlier.left.counters
  last : ∀ m, m? = some m → ∀ t, turns.head? = some t → m.counters = t.left.counters

/-- A block of refusals at the front is part of those counted. -/
theorem length_le_refusals {run turns : List Turn} (hrun : run <+: guarded turns)
    (hrejected : ∀ t ∈ run, t.verdict = .rejected) : run.length ≤ (refusals turns).length := by
  obtain ⟨rest, hrest⟩ := hrun
  unfold refusals
  rw [← hrest, List.takeWhile_append_of_pos (by simpa using hrejected), List.length_append]
  omega

theorem refusals_rejected_all {turns : List Turn} {t : Turn} (h : t ∈ refusals turns) :
    t.verdict = .rejected := by
  simpa using List.mem_takeWhile_imp h

/-- A counter that goes back passes only by the drop of a wrap. -/
theorem wrap_of_forwardProgress {old new : Nat} (h : forwardProgress (some old) (some new) = true)
    (hback : new < old) : 2147483647 ≤ old - new := by
  unfold forwardProgress at h
  simp only [Bool.or_eq_true, decide_eq_true_eq, Bool.not_eq_true', decide_eq_false_iff_not] at h
  omega

section Kept
variable {cfg : HealthConfig} {fqdn : String} {ifIndex : Int} {turns : List Turn}
  {m : InterfaceMetrics}

theorem refused_of_ruled {t : Turn} (h : t.Ruled cfg fqdn ifIndex) (hv : t.verdict = .rejected) :
    t.left = { t.found with counterViolations := t.found.counterViolations + 1 } ∧
    t.events = [] ∧ t.healthLeft = t.healthFound := by
  refine ⟨?_, h.silent (by rw [hv]; decide), ?_⟩
  · have hleft := h.left
    unfold leaves at hleft
    rw [show verdict t.found t.report t.now = .rejected from hv] at hleft
    rw [hleft, (verdict_rejected hv).2]
  · rw [h.health, hv, if_neg (by decide)]

theorem inARow_of_follows (hruled : ∀ t ∈ turns, t.Ruled cfg fqdn ifIndex) (h : Follows turns m)
    {run : List Turn} (hrun : run <:+: guarded turns)
    (hrejected : ∀ t ∈ run, t.verdict = .rejected) : run.length ≤ 10 := by
  induction turns generalizing m with
  | nil =>
    rw [List.infix_nil.mp hrun]
    exact Nat.zero_le _
  | cons t older ih =>
    have hrest := ih (fun t' ht' => hruled t' (List.mem_cons_of_mem _ ht')) h.2
    by_cases hv : t.verdict = .stale
    · rw [guarded_stale hv] at hrun
      exact hrest hrun
    · rw [guarded_cons hv] at hrun
      rcases List.infix_cons_iff.mp hrun with hfront | hlater
      · obtain ⟨hcount, hbound⟩ := counterViolations_eq hruled h
        rw [← guarded_cons hv] at hfront
        have hlength := length_le_refusals hfront hrejected
        omega
      · exact hrest hlater

/-- A turn's counter that goes back was accepted by a wrap, or after ten refusals. -/
theorem decrease_of_ruled {t : Turn} {older : List Turn} (ht : t.Ruled cfg fqdn ifIndex)
    (hruled : ∀ t' ∈ older, t'.Ruled cfg fqdn ifIndex) (h : Follows older t.found) {c : Counter}
    {old new : Nat} (hold : t.found.counters c = some old) (hnew : t.left.counters c = some new)
    (hback : new < old) :
    t.verdict = .accepted ∧ (2147483647 ≤ old - new ∨
      ∃ ten, ten <+: guarded older ∧ ten.length = 10 ∧ ∀ t' ∈ ten, t'.verdict = .rejected) := by
  have hleft := ht.left
  unfold leaves at hleft
  cases hv : verdict t.found t.report t.now with
  | stale =>
    rw [hv] at hleft
    rw [hleft, hold] at hnew
    cases hnew
    omega
  | rejected =>
    rw [hv] at hleft
    rw [hleft] at hnew
    rw [show t.found.counters c = some new from hnew] at hold
    cases hold
    omega
  | accepted =>
    rw [hv] at hleft
    refine ⟨hv, ?_⟩
    rcases (verdict_accepted hv).2 with hforced | hprogress
    · right
      obtain ⟨hcount, hbound⟩ := counterViolations_eq hruled h
      refine ⟨refusals older, List.takeWhile_prefix _, by omega, fun t' ht' => ?_⟩
      exact refusals_rejected_all ht'
    · left
      -- the counter is the one the report carries
      have hcarried : t.report.counters c = some new := by
        rw [hleft] at hnew
        cases hr : t.report.counters c with
        | some value => simpa [applyReport, hr] using hnew
        | none =>
          have hkept : some old = some new := by simpa [applyReport, hr, hold] using hnew
          cases hkept
          omega
      have hc := hprogress c
      rw [hold, hcarried] at hc
      exact wrap_of_forwardProgress hc hback

theorem between_of_follows (h : Follows turns m) :
    (turns.IsChain fun later earlier => later.found.counters = earlier.left.counters) ∧
    ∀ t, turns.head? = some t → m.counters = t.left.counters := by
  induction turns generalizing m with
  | nil => exact ⟨List.isChain_nil, fun t ht => by cases ht⟩
  | cons t older ih =>
    obtain ⟨hchain, hlast⟩ := ih h.2
    refine ⟨List.isChain_cons.mpr ⟨hlast, hchain⟩, fun t' ht' => ?_⟩
    obtain rfl : t = t' := by simpa using ht'
    exact h.1.counters

end Kept

theorem guardKept_of_followed {cfg : HealthConfig} {loaded : HealthStore} {fqdn : String}
    {ifIndex : Int} {turns : List Turn} {m? : Option InterfaceMetrics}
    {ih? : Option InterfaceHealth} (h : Followed cfg loaded fqdn ifIndex turns m? ih?) : GuardKept turns m? := by
  cases m? with
  | none =>
    rw [h.absent rfl]
    refine ⟨?_, ?_, fun run hrun _ => ?_, fun newer t older hturns => ?_, List.isChain_nil, ?_⟩
    · intro m hm; cases hm
    · intro t ht; cases ht
    · rw [List.infix_nil.mp hrun]
      exact Nat.zero_le _
    · simp at hturns
    · intro m hm; cases hm
  | some m =>
    have hfollows := h.entry m rfl
    have hbetween := between_of_follows hfollows
    refine ⟨fun m' hm' => ?_, fun t ht hv => refused_of_ruled (h.ruled t ht) hv,
      fun run hrun hrejected => inARow_of_follows h.ruled hfollows hrun hrejected,
      fun newer t older hturns c old new hold hnew hback => ?_, hbetween.1,
      fun m' hm' => ?_⟩
    · cases hm'
      exact (counterViolations_eq h.ruled hfollows).2
    · have hruled := h.ruled
      rw [hturns] at hfollows hruled
      exact decrease_of_ruled (hruled t (by simp))
        (fun t' ht' => hruled t' (by simp [ht'])) hfollows.drop hold hnew hback
    · cases hm'
      exact hbetween.2

/-- **The guard over every run of the store**: the count of refusals stays within
ten, a refused report only counts, and a counter that goes back was forced or
wrapped. The store that is watched is the one that the operations make. -/
theorem counters_guarded (cfg : HealthConfig) (loaded : HealthStore) (ops : List Op)
    (fqdn : String) (ifIndex : Int) :
    GuardKept ((Watched.run cfg loaded ops).turns fqdn ifIndex)
      ((Watched.run cfg loaded ops).imds.interface? fqdn ifIndex) ∧
    (Watched.run cfg loaded ops).imds = ops.foldl (fun imds op => (imds.step cfg op).1) ⟨PMap.empty, loaded⟩ :=
  ⟨guardKept_of_followed (told_run cfg loaded ops fqdn ifIndex), Watched.run_imds cfg loaded ops⟩

end JaspyNexus.Utilities.ImdsReports
