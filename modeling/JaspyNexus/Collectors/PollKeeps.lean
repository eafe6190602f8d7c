import Mathlib
import JaspyNexus.Collectors.VlanSpec
import JaspyNexus.Collectors.LagSpec

/-! # What a poll may lose

A poll replaces what is stored of a device by the answer of the first source
that has one. A source treats most of its tables as optional: a table whose
query failed decodes like an empty one, so what only that table shows is gone
from the store. A poll keeps every membership the device still has exactly when
the tables that were answered show it. -/

namespace JaspyNexus.Collectors.PollKeeps
open JaspyNexus.Lib JaspyNexus.Snmp

section Poll
variable {Output M : Type}

/-- One device of a collector's cycle: the store and the cache after its poll. -/
def pollOne (sources : List (Source Fetch Output)) (fqdn : String) (hint : Vendor) (lock : Bool)
    (fetch : Fetch) (store : PMap String Output) (cache : SourceCache) :
    PMap String Output × SourceCache :=
  let (answer, cache') := collectFirst cache fqdn hint sources fetch
  match answer with
  | some out => (if lock then PMap.insert store fqdn out else store, cache')
  | none => (store, cache')

/-- What the sources decode, said of the tables: when a source answers, and which
memberships it then shows. -/
structure Described (sources : List (Source Fetch Output)) (knows : Output → M → Prop)
    (answers : Polled → String → Prop) (shows : Polled → String → M → Prop) : Prop where
  answers_iff : ∀ source ∈ sources, ∀ p : Polled,
    (source.collect p.fetch).isSome = true ↔ answers p source.name
  knows_iff : ∀ source ∈ sources, ∀ (p : Polled) out, source.collect p.fetch = some out →
    ∀ m, knows out m ↔ shows p source.name m

/-- The first source of the order that answers. -/
def FirstAnswers (answers : Polled → String → Prop) (order : List (Source Fetch Output))
    (p : Polled) (name : String) : Prop :=
  ∃ before source after, order = before ++ source :: after ∧ source.name = name ∧
    answers p name ∧ ∀ earlier ∈ before, ¬answers p earlier.name

variable (sources : List (Source Fetch Output)) (knows : Output → M → Prop)
  (answers : Polled → String → Prop) (shows : Polled → String → M → Prop)
  (fqdn : String) (hint : Vendor) (lock : Bool) (p : Polled)
  (store : PMap String Output) (cache : SourceCache)

/-- **The poll loses nothing**: what was known and what the device still has, in
the answer it gives when every query succeeds, is known after the poll. -/
def Keeps : Prop :=
  ∀ m, (∃ out ∈ store fqdn, knows out m) →
    (∃ out ∈ (collectFirst cache fqdn hint sources p.full.fetch).1, knows out m) →
    ∃ out ∈ (pollOne sources fqdn hint lock p.fetch store cache).1 fqdn, knows out m

/-- **When it does**: no source answers; or the answered tables of the first that
does show every stored membership which the first source to answer with all
tables shows. -/
def Safe : Prop :=
  lock = true → ∀ name, FirstAnswers answers (probeOrder (cache fqdn) hint sources) p name →
    ∀ m, (∃ out ∈ store fqdn, knows out m) →
      (∃ full, FirstAnswers answers (probeOrder (cache fqdn) hint sources) p.full full ∧
        shows p.full full m) →
      shows p name m

variable {sources knows answers shows}

/-- The answer of a poll, by its tables. -/
theorem collectFirst_spec (h : Described sources knows answers shows) (out : Output) :
    (collectFirst cache fqdn hint sources p.fetch).1 = some out →
      ∃ name, FirstAnswers answers (probeOrder (cache fqdn) hint sources) p name ∧
        ∀ m, knows out m ↔ shows p name m := by
  rw [collectFirst_eq, answering]
  intro hout
  obtain ⟨source, hfind, hcollect⟩ := Option.bind_eq_some_iff.mp hout
  obtain ⟨hsome, before, after, horder, hbefore⟩ := List.find?_eq_some_iff_append.mp hfind
  have hmem : ∀ s ∈ before ++ source :: after, s ∈ sources := fun s hs =>
    mem_probeOrder.mp (horder ▸ hs)
  have hsource := hmem source (by simp)
  refine ⟨source.name, ⟨before, source, after, horder, rfl, (h.answers_iff source hsource p).mp hsome,
    fun earlier he hans => ?_⟩, h.knows_iff source hsource p out hcollect⟩
  have hno := hbefore earlier he
  rw [(h.answers_iff earlier (hmem earlier (by simp [he])) p).mpr hans] at hno
  cases hno

/-- When a source answers, the poll has its answer. -/
theorem exists_collectFirst (h : Described sources knows answers shows) {name : String}
    (hfirst : FirstAnswers answers (probeOrder (cache fqdn) hint sources) p name) :
    ∃ out, (collectFirst cache fqdn hint sources p.fetch).1 = some out ∧
      ∀ m, knows out m ↔ shows p name m := by
  obtain ⟨before, source, after, horder, rfl, hans, hbefore⟩ := hfirst
  have hmem : ∀ s ∈ before ++ source :: after, s ∈ sources := fun s hs =>
    mem_probeOrder.mp (horder ▸ hs)
  have hsource := hmem source (by simp)
  have hsome := (h.answers_iff source hsource p).mpr hans
  obtain ⟨out, hout⟩ := Option.isSome_iff_exists.mp hsome
  refine ⟨out, ?_, h.knows_iff source hsource p out hout⟩
  rw [collectFirst_eq, answering, horder]
  have hfind : (before ++ source :: after).find? (fun s => (s.collect p.fetch).isSome) =
      some source := by
    refine List.find?_eq_some_iff_append.mpr ⟨hsome, before, after, rfl, fun earlier he => ?_⟩
    by_contra hc
    exact hbefore earlier he ((h.answers_iff earlier (hmem earlier (by simp [he])) p).mp
      (Option.isSome_iff_ne_none.mpr (by simpa using hc)))
  rw [hfind]
  exact hout

/-- **A poll keeps what the device still has exactly when it is safe.** -/
theorem keeps_iff (h : Described sources knows answers shows) :
    Keeps sources knows fqdn hint lock p store cache ↔
      Safe sources knows answers shows fqdn hint lock p store cache := by
  unfold Keeps Safe
  have hfull : ∀ m, (∃ out ∈ (collectFirst cache fqdn hint sources p.full.fetch).1, knows out m) ↔
      ∃ full, FirstAnswers answers (probeOrder (cache fqdn) hint sources) p.full full ∧
        shows p.full full m := by
    intro m
    constructor
    · rintro ⟨out, hout, hknows⟩
      obtain ⟨name, hfirst, hshows⟩ := collectFirst_spec fqdn hint p.full cache h out hout
      exact ⟨name, hfirst, (hshows m).mp hknows⟩
    · rintro ⟨name, hfirst, hshows⟩
      obtain ⟨out, hout, hiff⟩ := exists_collectFirst fqdn hint p.full cache h hfirst
      exact ⟨out, hout, (hiff m).mpr hshows⟩
  simp only [hfull]
  have hpoll : (pollOne sources fqdn hint lock p.fetch store cache).1 fqdn =
      match (collectFirst cache fqdn hint sources p.fetch).1 with
      | some out => if lock then some out else store fqdn
      | none => store fqdn := by
    unfold pollOne
    dsimp only
    cases (collectFirst cache fqdn hint sources p.fetch).1 with
    | none => rfl
    | some out => cases lock <;> simp
  rw [hpoll]
  constructor
  · rintro hkeeps rfl name hfirst m hstored hhas
    obtain ⟨out, hout, hiff⟩ := exists_collectFirst fqdn hint p cache h hfirst
    rw [hout] at hkeeps
    obtain ⟨out', hout', hknows⟩ := hkeeps m hstored hhas
    obtain rfl : out' = out := by simpa using hout'.symm
    exact (hiff m).mp hknows
  · intro hsafe m hstored hhas
    cases hout : (collectFirst cache fqdn hint sources p.fetch).1 with
    | none => exact hstored
    | some out =>
      cases lock with
      | false => exact hstored
      | true =>
        obtain ⟨name, hfirst, hiff⟩ := collectFirst_spec fqdn hint p cache h out hout
        exact ⟨out, rfl, (hiff m).mpr (hsafe rfl name hfirst m hstored hhas)⟩

end Poll

/-! ## The two features -/

/-- When a VLAN source answers. -/
def vlanAnswers (p : Polled) (source : String) : Prop :=
  if source = "cisco-vtp" then Vlanpoller.CiscoAnswers p else Vlanpoller.QBridgeAnswers p

/-- The memberships it then shows. -/
def vlanShows (p : Polled) (source : String) : Vlanpoller.VlanMembership → Prop :=
  if source = "cisco-vtp" then Vlanpoller.CiscoShows p else Vlanpoller.QBridgeShows p

def vlanKnows (vlans : Vlanpoller.DeviceVlans) : Vlanpoller.VlanMembership → Prop :=
  Vlanpoller.Knows vlans.interfaces

theorem vlan_described : Described Vlanpoller.sources vlanKnows vlanAnswers vlanShows where
  answers_iff source hsource p := by
    rcases List.mem_pair.mp hsource with rfl | rfl
    · exact (Vlanpoller.ciscoCollect_spec p).1
    · exact (Vlanpoller.qbridgeCollect_spec p).1
  knows_iff source hsource p out hout m := by
    rcases List.mem_pair.mp hsource with rfl | rfl
    · exact (Vlanpoller.ciscoCollect_spec p).2 out hout m
    · exact (Vlanpoller.qbridgeCollect_spec p).2 out hout m

def lagKnows (lags : Lagpoller.DeviceLags) : Lagpoller.LagMembership → Prop := lags.groups.Knows

instance (lags : Lagpoller.DeviceLags) (m : Lagpoller.LagMembership) : Decidable (lagKnows lags m) :=
  inferInstanceAs (Decidable (lags.groups.Knows m))

def lagShows (p : Polled) (source : String) : Lagpoller.LagMembership → Prop :=
  Lagpoller.Names (Lagpoller.Shows p source)

theorem lag_described : Described Lagpoller.sources lagKnows Lagpoller.Answers lagShows where
  answers_iff source hsource p := by
    rcases List.mem_pair.mp hsource with rfl | rfl
    · exact (Lagpoller.ciscoCollect_spec p).1
    · exact (Lagpoller.dot3adCollect_spec p).1
  knows_iff source hsource p out hout m := by
    rcases List.mem_pair.mp hsource with rfl | rfl
    · exact (Lagpoller.ciscoCollect_spec p).2 out hout m
    · exact (Lagpoller.dot3adCollect_spec p).2 out hout m

/-- **The polls of both collectors** keep what the device still has exactly when
the tables answered show it, whichever source won before. -/
theorem polls_keep_iff (p : Polled) (fqdn : String) (hint : Vendor) (lock : Bool)
    (vlans : Vlanpoller.VlanStore) (lags : Lagpoller.LagStore) (vlanCache lagCache : SourceCache) :
    (Keeps Vlanpoller.sources vlanKnows fqdn hint lock p vlans vlanCache ↔
      Safe Vlanpoller.sources vlanKnows vlanAnswers vlanShows fqdn hint lock p vlans vlanCache) ∧
    (Keeps Lagpoller.sources lagKnows fqdn hint lock p lags lagCache ↔
      Safe Lagpoller.sources lagKnows Lagpoller.Answers lagShows fqdn hint lock p lags lagCache) :=
  ⟨keeps_iff fqdn hint lock p vlans vlanCache vlan_described,
    keeps_iff fqdn hint lock p lags lagCache lag_described⟩

/-! ## An LACP bundle is lost -/

/-- A Cisco switch whose port 10101 is attached to aggregate 5001, and which does
not report it over PAgP. -/
def lacpSwitch (table : String) : Response :=
  let row (index : String) (objects : List (String × Val)) : ResultEntry :=
    ⟨"sw1", fun key => if key = index then some 10101 else none, fun key => objects.lookup key⟩
  let entries :=
    if table = "CISCO-PAGP-MIB::pagpPortTable" then
      [row "IF-MIB::ifIndex" [("CISCO-PAGP-MIB::pagpGroupIfIndex", .uint64 0)]]
    else if table = "IEEE8023-LAG-MIB::dot3adAggPortTable" then
      [row "IEEE8023-LAG-MIB::dot3adAggPortIndex"
        [("IEEE8023-LAG-MIB::dot3adAggPortAttachedAggID", .uint64 5001)]]
    else []
  ⟨table, [], [], entries⟩

/-- The bundle is known from an earlier poll. -/
def lacpStore : Lagpoller.LagStore := fun _ =>
  (collectFirst PMap.empty "sw1" .cisco Lagpoller.sources
    (Polled.fetch ⟨lacpSwitch, fun _ _ => true⟩)).1

/-- **The query for the LACP ports fails, and the poll overwrites the bundle**:
the PAgP table answers, so the source does. -/
theorem lacp_bundle_lost : ¬Keeps Lagpoller.sources lagKnows "sw1" .cisco true
    ⟨lacpSwitch, fun _ table => table ≠ "IEEE8023-LAG-MIB::dot3adAggPortTable"⟩
    lacpStore PMap.empty := by
  intro hkeeps
  have hlost := hkeeps (.member 5001 10101) (by decide +kernel) (by decide +kernel)
  exact absurd hlost (by decide +kernel)

end JaspyNexus.Collectors.PollKeeps
