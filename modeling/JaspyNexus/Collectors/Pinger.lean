import Mathlib
import JaspyNexus.Lib.PMap

/-! # The pinger's accounting

`collectors/pinger.rs`: what a shard worker remembers of its devices, and how a
round of replies changes it. A device's state is reported when it is first
observed and when ten contrary observations in a row have turned it. -/

namespace JaspyNexus.Collectors.Pinger
open JaspyNexus.Lib

/-- `PING_HYST_LIMIT`. -/
def pingHystLimit : Nat := 10

/-- `PingAccountingInfo`; the counters are `u8`. -/
structure PingAccountingInfo where
  responsive : Option Bool
  hysteresisResponsive : Nat
  hysteresisUnresponsive : Nat
  deriving DecidableEq, Repr

abbrev Accounting := PMap String PingAccountingInfo

/-- `u8::saturating_add(1)`. -/
def saturatingSucc (n : Nat) : Nat := min 255 (n + 1)

/-- `advance_hysteresis`: the accounting, and the state to report, if any. -/
def advanceHysteresis (info : PingAccountingInfo) (responding : Bool) :
    PingAccountingInfo × Option Bool :=
  match info.responsive with
  | none => ({ info with responsive := some responding }, some responding)
  | some current =>
    if current = responding then
      ({ info with hysteresisResponsive := 0, hysteresisUnresponsive := 0 }, none)
    else if responding then
      let counted := { info with
        hysteresisUnresponsive := 0
        hysteresisResponsive := saturatingSucc info.hysteresisResponsive }
      if pingHystLimit ≤ counted.hysteresisResponsive then
        ({ counted with responsive := some true }, some true)
      else (counted, none)
    else
      let counted := { info with
        hysteresisResponsive := 0
        hysteresisUnresponsive := saturatingSucc info.hysteresisUnresponsive }
      if pingHystLimit ≤ counted.hysteresisUnresponsive then
        ({ counted with responsive := some false }, some false)
      else (counted, none)

/-- One device of `advance_shard`. -/
def advanceDevice (responded : PMap String Bool) (st : Accounting × List (String × Bool))
    (fqdn : String) : Accounting × List (String × Bool) :=
  match st.1 fqdn with
  | none => st
  | some info =>
    let out := advanceHysteresis info ((responded fqdn).getD false)
    (PMap.insert st.1 fqdn out.1, st.2 ++ (out.2.map fun up => (fqdn, up)).toList)

/-- `advance_shard`: the accounting after a round, and the reports to make. -/
def advanceShard (accounting : Accounting) (shard : List String) (responded : PMap String Bool) :
    Accounting × List (String × Bool) :=
  shard.foldl (advanceDevice responded) (accounting, [])

/-- `resolve_shard_targets`; `addr` is what the resolver gives. -/
def resolveShardTargets (addr : String → Option String) (shard : List String) :
    List (String × String) :=
  shard.filterMap fun fqdn => (addr fqdn).map fun a => (fqdn, a)

/-- `responses_by_fqdn`. -/
def responsesByFqdn (targets : List (String × String)) (respondedByAddr : PMap String Bool) :
    PMap String Bool :=
  targets.foldl (fun responded target =>
    match respondedByAddr target.2 with
    | some up => PMap.insert responded target.1 up
    | none => responded) PMap.empty

/-- A row of a ping's result: the address it echoes, and `is_responding` of it. -/
structure PingItem where
  address : String
  responding : Bool

/-- How a round of pings went: what resolved, and the rows that came back, if the
round could be sent. -/
structure Round where
  addr : String → Option String
  results : Option (List PingItem)

/-- The replies of a round by fqdn, if it was sent. -/
def Round.responded (round : Round) (shard : List String) : Option (PMap String Bool) :=
  round.results.map fun results => responsesByFqdn (resolveShardTargets round.addr shard)
    (results.foldl (fun byAddr item => PMap.insert byAddr item.address item.responding) PMap.empty)

/-! ## What a round does to one device -/

/-- A report is made exactly when the state changes, and says the state entered. -/
theorem advanceHysteresis_spec (info : PingAccountingInfo) (responding : Bool) :
    match (advanceHysteresis info responding).2 with
    | some up => (advanceHysteresis info responding).1.responsive = some up ∧
        info.responsive ≠ some up
    | none => (advanceHysteresis info responding).1.responsive = info.responsive ∧
        info.responsive ≠ none := by
  obtain ⟨responsive, counted, missed⟩ := info
  unfold advanceHysteresis
  cases responsive with
  | none => exact ⟨rfl, by simp⟩
  | some current =>
    dsimp only
    split_ifs with hsame hresponding hlimit hlimit
    · exact ⟨rfl, by simp⟩
    · subst hresponding
      exact ⟨rfl, by simpa using hsame⟩
    · exact ⟨rfl, by simp⟩
    · have hfalse : responding = false := by simpa using hresponding
      subst hfalse
      exact ⟨rfl, by simpa using hsame⟩
    · exact ⟨rfl, by simp⟩

/-- **What a round does**: it reports each device at most once, a report is of the
state the accounting has entered, and without one the state is as before. -/
structure Advanced (shard : List String) (before after : Accounting)
    (reports : List (String × Bool)) : Prop where
  sublist : (reports.map Prod.fst).Sublist shard
  entered : ∀ f b, (f, b) ∈ reports → ∃ info, after f = some info ∧ info.responsive = some b
  kept : ∀ f info, after f = some info → ∃ old, before f = some old ∧
    (f ∉ reports.map Prod.fst → info.responsive = old.responsive)

theorem advanceDevice_advanced {shard : List String} {before : Accounting} {f : String}
    (responded : PMap String Bool) {st : Accounting × List (String × Bool)} (hf : f ∉ shard)
    (h : Advanced shard before st.1 st.2) :
    Advanced (shard ++ [f]) before (advanceDevice responded st f).1 (advanceDevice responded st f).2 := by
  unfold advanceDevice
  cases hinfo : st.1 f with
  | none => exact ⟨h.sublist.trans (List.sublist_append_left ..), h.entered, h.kept⟩
  | some info =>
    dsimp only
    have hnew : f ∉ st.2.map Prod.fst := fun hmem => hf (h.sublist.subset hmem)
    obtain ⟨old, hold, hsame⟩ := h.kept f info hinfo
    have hspec := advanceHysteresis_spec info ((responded f).getD false)
    generalize hout : advanceHysteresis info ((responded f).getD false) = out at hspec ⊢
    obtain ⟨info', report⟩ := out
    -- the entry written, whether the device is reported or not
    have hkept : ∀ g info'', PMap.insert st.1 f info' g = some info'' → g ≠ f →
        ∃ old, before g = some old ∧ (g ∉ st.2.map Prod.fst → info''.responsive = old.responsive) := by
      intro g info'' hg hne
      rw [PMap.insert_of_ne _ _ hne] at hg
      exact h.kept g info'' hg
    cases report with
    | none =>
      refine ⟨by simpa using h.sublist.trans (List.sublist_append_left ..), fun g b hg => ?_,
        fun g info'' hg => ?_⟩
      · obtain ⟨info'', hinfo'', hb⟩ := h.entered g b (by simpa using hg)
        have hne : g ≠ f := fun he => hnew (he ▸ List.mem_map.mpr ⟨_, by simpa using hg, rfl⟩)
        exact ⟨info'', by rw [PMap.insert_of_ne _ _ hne]; exact hinfo'', hb⟩
      · by_cases hne : g = f
        · subst hne
          rw [PMap.insert_self] at hg
          cases hg
          exact ⟨old, hold, fun _ => hspec.1.trans (hsame hnew)⟩
        · simpa using hkept g info'' hg hne
    | some up =>
      refine ⟨by simpa using h.sublist.append (List.Sublist.refl [f]), fun g b hg => ?_,
        fun g info'' hg => ?_⟩
      · rcases List.mem_append.mp hg with hg | hg
        · obtain ⟨info'', hinfo'', hb⟩ := h.entered g b hg
          have hne : g ≠ f := fun he => hnew (he ▸ List.mem_map.mpr ⟨_, hg, rfl⟩)
          exact ⟨info'', by rw [PMap.insert_of_ne _ _ hne]; exact hinfo'', hb⟩
        · obtain ⟨rfl, rfl⟩ : g = f ∧ b = up := by simpa using hg
          exact ⟨info', PMap.insert_self .., hspec.1⟩
      · by_cases hne : g = f
        · subst hne
          exact ⟨old, hold, fun hnot => absurd (by simp) hnot⟩
        · obtain ⟨old', hold', hkeep⟩ := hkept g info'' hg hne
          exact ⟨old', hold', fun hnot => hkeep fun hmem => hnot (by simp [hmem])⟩

theorem advanceShard_advanced (accounting : Accounting) {shard : List String} (hnd : shard.Nodup)
    (responded : PMap String Bool) :
    Advanced shard accounting (advanceShard accounting shard responded).1
      (advanceShard accounting shard responded).2 := by
  unfold advanceShard
  induction shard using List.reverseRecOn with
  | nil => exact ⟨List.Sublist.refl _, by simp, fun f info h => ⟨info, h, fun _ => rfl⟩⟩
  | append_singleton shard f ih =>
    rw [List.nodup_append] at hnd
    rw [List.foldl_append, List.foldl_cons, List.foldl_nil]
    exact advanceDevice_advanced responded (fun hf => hnd.2.2 f hf f (by simp) rfl) (ih hnd.1)

end JaspyNexus.Collectors.Pinger
