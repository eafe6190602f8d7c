import Mathlib
import JaspyNexus.Collectors.Pinger

/-! # The rule of the hysteresis

One device's observations, from an entry that knows nothing of it. The two counters are
set back in different branches, and the one that has turned the state is left as it stands
(`advanceHysteresis`). Of the two only the one against the reported state is read, and it
counts the last observations in a row that were contrary (`Counted`). -/

namespace JaspyNexus.Collectors.Pinger

def PingAccountingInfo.fresh : PingAccountingInfo := ⟨none, 0, 0⟩

/-- The entry after the observations, and what was reported at each. -/
def listen (observations : List Bool) : PingAccountingInfo × List (Option Bool) :=
  observations.foldl (fun st responding =>
    ((advanceHysteresis st.1 responding).1, st.2 ++ [(advanceHysteresis st.1 responding).2])) (.fresh, [])

/-- The state reported last. -/
def lastReported (reports : List (Option Bool)) : Option Bool := reports.reduceOption.getLast?

/-- How many observations in a row, up to the last, were of this state. -/
def inARow (state : Bool) (observations : List Bool) : Nat :=
  (observations.reverse.takeWhile fun b => b = state).length

/-- **The rule.** -/
structure Ruled (observations : List Bool) : Prop where
  /-- the first observation is reported -/
  first : ∀ b rest, observations = b :: rest → (listen observations).2.head? = some (some b)
  /-- each report is contrary to the one before -/
  alternate : (listen observations).2.reduceOption.IsChain (· ≠ ·)
  /-- a later observation is reported exactly when it completes the limit of observations in
  a row that are contrary to the state reported last -/
  later : ∀ past b rest state, observations = past ++ b :: rest → lastReported (listen past).2 = some state →
    (listen observations).2[past.length]? =
      some (if b ≠ state ∧ inARow b (past ++ [b]) = pingHystLimit then some b else none)
  /-- an observation that matches the state sets the counters back -/
  restart : ∀ past b rest, observations = past ++ b :: rest → (listen past).1.responsive = some b →
    (listen (past ++ [b])).1 = ⟨some b, 0, 0⟩
  responsive : (listen observations).1.responsive = lastReported (listen observations).2

/-! ## Observations -/

section
variable (observations : List Bool) (b state : Bool)

theorem listen_concat : listen (observations ++ [b]) =
    ((advanceHysteresis (listen observations).1 b).1,
      (listen observations).2 ++ [(advanceHysteresis (listen observations).1 b).2]) := by
  rw [listen, List.foldl_append, List.foldl_cons, List.foldl_nil]
  rfl

theorem length_listen : (listen observations).2.length = observations.length := by
  induction observations using List.reverseRecOn with
  | nil => rfl
  | append_singleton past b ih => simp [listen_concat, ih]

/-- Later observations change no report. -/
theorem listen_prefix (rest : List Bool) : (listen observations).2 <+: (listen (observations ++ rest)).2 := by
  induction rest using List.reverseRecOn with
  | nil => rw [List.append_nil]
  | append_singleton rest b ih =>
    rw [← List.append_assoc, listen_concat]
    exact ih.trans (List.prefix_append _ _)

theorem inARow_concat : inARow state (observations ++ [b]) =
    if b = state then inARow state observations + 1 else 0 := by
  unfold inARow
  rw [List.reverse_concat]
  split
  next h => rw [List.takeWhile_cons_of_pos (by simpa using h), List.length_cons]
  next h => rw [List.takeWhile_cons_of_neg (by simpa using h), List.length_nil]

end

/-! ## The counters -/

/-- The counter of the observations contrary to the state. -/
def PingAccountingInfo.contrary (info : PingAccountingInfo) (state : Bool) : Nat :=
  if state then info.hysteresisUnresponsive else info.hysteresisResponsive

section
variable {info : PingAccountingInfo} {state : Bool} (h : info.responsive = some state)
include h

theorem advanceHysteresis_same : advanceHysteresis info state = (⟨some state, 0, 0⟩, none) := by
  obtain ⟨responsive, counted, missed⟩ := info
  subst h
  simp [advanceHysteresis]

/-- **What a contrary observation does**: its counter goes on and the other one is set back,
and at the limit the state is turned and reported. -/
theorem advanceHysteresis_contrary :
    let count := saturatingSucc (info.contrary state)
    let out := advanceHysteresis info !state
    out.1.contrary state = count ∧ out.1.contrary (!state) = 0 ∧
      out.1.responsive = some (if pingHystLimit ≤ count then !state else state) ∧
      out.2 = if pingHystLimit ≤ count then some (!state) else none := by
  obtain ⟨responsive, counted, missed⟩ := info
  subst h
  cases state
  · show let count := saturatingSucc counted; _
    unfold advanceHysteresis
    by_cases hlimit : pingHystLimit ≤ saturatingSucc counted <;> simp [PingAccountingInfo.contrary, hlimit]
  · show let count := saturatingSucc missed; _
    unfold advanceHysteresis
    by_cases hlimit : pingHystLimit ≤ saturatingSucc missed <;> simp [PingAccountingInfo.contrary, hlimit]

end

/-- **The invariant**: where a state is reported, the counter against it has counted the
contrary observations in a row, and they are fewer than the limit. -/
structure Counted (past : List Bool) (info : PingAccountingInfo) : Prop where
  unknown : info.responsive = none → past = [] ∧ info = .fresh
  counter : ∀ state, info.responsive = some state →
    info.contrary state = inARow (!state) past ∧ inARow (!state) past < pingHystLimit

theorem counted_fresh : Counted [] .fresh := ⟨fun _ => ⟨rfl, rfl⟩, fun _ h => by cases h⟩

/-- The counter never gets far enough to saturate. -/
theorem Counted.succ {past : List Bool} {info : PingAccountingInfo} (h : Counted past info) {state : Bool}
    (hstate : info.responsive = some state) :
    saturatingSucc (info.contrary state) = inARow (!state) (past ++ [!state]) := by
  obtain ⟨hcounter, hlimit⟩ := h.counter state hstate
  unfold pingHystLimit at hlimit
  rw [inARow_concat, if_pos rfl, hcounter, saturatingSucc]
  omega

/-- What one observation reports, by what is counted. -/
theorem Counted.report {past : List Bool} {info : PingAccountingInfo} (h : Counted past info) {state : Bool}
    (hstate : info.responsive = some state) (b : Bool) : (advanceHysteresis info b).2 =
      if b ≠ state ∧ inARow b (past ++ [b]) = pingHystLimit then some b else none := by
  by_cases hb : b = state
  · subst hb
    rw [advanceHysteresis_same hstate, if_neg fun hc => hc.1 rfl]
  · obtain rfl : b = !state := Bool.eq_not.mpr hb
    obtain ⟨-, -, -, hreport⟩ := advanceHysteresis_contrary hstate
    rw [hreport, h.succ hstate]
    have hlimit := (h.counter state hstate).2
    have hnext : inARow (!state) (past ++ [!state]) = inARow (!state) past + 1 := by
      rw [inARow_concat, if_pos rfl]
    by_cases hreach : pingHystLimit ≤ inARow (!state) (past ++ [!state])
    · rw [if_pos hreach, if_pos ⟨hb, by omega⟩]
    · rw [if_neg hreach, if_neg fun hc => by omega]

/-- **Every observation keeps the invariant.** -/
theorem Counted.step {past : List Bool} {info : PingAccountingInfo} (h : Counted past info) (b : Bool) :
    Counted (past ++ [b]) (advanceHysteresis info b).1 := by
  cases hstate : info.responsive with
  | none =>
    obtain ⟨rfl, rfl⟩ := h.unknown hstate
    refine ⟨(fun hnone => by cases hnone), fun state heq => ?_⟩
    cases heq
    rw [inARow_concat, if_neg (by simp)]
    exact ⟨by cases b <;> rfl, by decide⟩
  | some state =>
    by_cases hb : b = state
    · subst hb
      rw [advanceHysteresis_same hstate]
      refine ⟨(fun hnone => by cases hnone), fun state' heq => ?_⟩
      cases heq
      rw [inARow_concat, if_neg (by simp)]
      exact ⟨by cases b <;> rfl, by decide⟩
    · obtain rfl : b = !state := Bool.eq_not.mpr hb
      obtain ⟨hcount, hother, hresponsive, -⟩ := advanceHysteresis_contrary hstate
      refine ⟨(fun hnone => by rw [hresponsive] at hnone; cases hnone), fun state' heq => ?_⟩
      rw [hresponsive, h.succ hstate] at heq
      rw [h.succ hstate] at hcount
      split at heq
      next hlimit =>
        -- the state is turned, and the count against it starts over
        cases heq
        rw [Bool.not_not, inARow_concat, if_neg (by simp)]
        exact ⟨hother, by decide⟩
      next hlimit =>
        cases heq
        exact ⟨hcount, by omega⟩

theorem counted_listen (observations : List Bool) : Counted observations (listen observations).1 := by
  induction observations using List.reverseRecOn with
  | nil => exact counted_fresh
  | append_singleton past b ih =>
    rw [listen_concat]
    exact ih.step b

/-! ## The reports -/

/-- The state held is the one reported last. -/
theorem responsive_listen (observations : List Bool) :
    (listen observations).1.responsive = lastReported (listen observations).2 := by
  induction observations using List.reverseRecOn with
  | nil => rfl
  | append_singleton past b ih =>
    rw [listen_concat]
    have hspec := advanceHysteresis_spec (listen past).1 b
    show _ = ((listen past).2 ++ [_]).reduceOption.getLast?
    rw [List.reduceOption_append, List.reduceOption_singleton]
    cases hreport : (advanceHysteresis (listen past).1 b).2 with
    | none =>
      rw [hreport] at hspec
      rw [hspec.1, ih]
      simp [lastReported]
    | some up =>
      rw [hreport] at hspec
      rw [hspec.1]
      simp

theorem alternate_listen (observations : List Bool) : (listen observations).2.reduceOption.IsChain (· ≠ ·) := by
  induction observations using List.reverseRecOn with
  | nil => exact List.isChain_nil
  | append_singleton past b ih =>
    rw [listen_concat, List.reduceOption_append, List.reduceOption_singleton]
    have hspec := advanceHysteresis_spec (listen past).1 b
    cases hreport : (advanceHysteresis (listen past).1 b).2 with
    | none => simpa using ih
    | some up =>
      rw [hreport] at hspec
      -- the report before is the state that is left
      have hlast : ∀ x ∈ (listen past).2.reduceOption.getLast?, x ≠ up := by
        intro x hx heq
        exact hspec.2 ((responsive_listen past).trans (by rw [lastReported, hx, heq]))
      exact ih.append (List.isChain_singleton up) fun x hx y hy => by
        simp only [List.head?_cons, Option.toList_some, Option.mem_def, Option.some.injEq] at hy
        exact hy ▸ hlast x hx

/-- **Every sequence of observations is reported by the rule.** -/
theorem hysteresis_ruled (observations : List Bool) : Ruled observations where
  first b rest heq := by
    subst heq
    obtain ⟨later, hlater⟩ := listen_prefix [b] rest
    show (listen ([b] ++ rest)).2.head? = _
    rw [← hlater]
    rfl
  alternate := alternate_listen observations
  later past b rest state heq hstate := by
    subst heq
    obtain ⟨later, hlater⟩ := listen_prefix (past ++ [b]) rest
    have hsplit : past ++ b :: rest = past ++ [b] ++ rest := by simp
    have hheld : (listen past).1.responsive = some state := (responsive_listen past).trans hstate
    rw [hsplit, ← hlater, listen_concat, (counted_listen past).report hheld b]
    rw [List.append_assoc, List.getElem?_append_right (length_listen past).le, length_listen]
    simp
  restart past b rest _ hheld := by rw [listen_concat, advanceHysteresis_same hheld]
  responsive := responsive_listen observations

end JaspyNexus.Collectors.Pinger
