import Mathlib
import JaspyNexus.Lib.StableSort
import JaspyNexus.Collectors.Lagpoller

/-! # The order of the probes

Which sources a poll asks, one after another, and what the cache remembers of it. -/

namespace JaspyNexus.Collectors
open JaspyNexus.Lib

variable {Ctx Output : Type}

/-! ## The loop -/

/-- The sources that `collect_first` probes. -/
def probed (cache : SourceCache) (fqdn : String) (hint : Vendor) (sources : List (Source Ctx Output)) (ctx : Ctx) :
    List (Source Ctx Output) := (probeEach ctx (probeOrder (cache fqdn) hint sources)).1

/-- The answer of the first source that gives one, after those that give none. -/
theorem probeEach_some {ctx : Ctx} {order : List (Source Ctx Output)} {source : Source Ctx Output} {result : Output}
    (h : (probeEach ctx order).2 = some (source, result)) : ∃ before after, order = before ++ source :: after ∧
      (∀ s ∈ before, s.collect ctx = none) ∧ source.collect ctx = some result ∧
      (probeEach ctx order).1 = before ++ [source] := by
  induction order with
  | nil => cases h
  | cons first rest ih =>
    rw [probeEach] at h ⊢
    cases hc : first.collect ctx with
    | some result' =>
      rw [hc] at h
      cases h
      exact ⟨[], rest, rfl, by simp, hc, rfl⟩
    | none =>
      rw [hc] at h
      obtain ⟨before, after, hsplit, hbefore, hsource, hprobed⟩ := ih h
      refine ⟨first :: before, after, by rw [hsplit]; rfl, ?_, hsource, by rw [hprobed]; rfl⟩
      exact List.forall_mem_cons.mpr ⟨hc, hbefore⟩

theorem probeEach_none {ctx : Ctx} {order : List (Source Ctx Output)} (h : (probeEach ctx order).2 = none) :
    (∀ s ∈ order, s.collect ctx = none) ∧ (probeEach ctx order).1 = order := by
  induction order with
  | nil => exact ⟨by simp, rfl⟩
  | cons first rest ih =>
    rw [probeEach] at h ⊢
    cases hc : first.collect ctx with
    | some result => rw [hc] at h; cases h
    | none =>
      rw [hc] at h
      obtain ⟨hnone, hprobed⟩ := ih h
      exact ⟨List.forall_mem_cons.mpr ⟨hc, hnone⟩, congrArg _ hprobed⟩

/-! ## The order -/

/-- What the hint says of a source: with a vendor named, its own sources come first, then those
of the standards, then the others'. -/
def hintRank (hint : Vendor) (source : Source Ctx Output) : Nat :=
  if hint = .generic ∨ source.vendor = hint then 1 else if source.vendor = .generic then 2 else 3

/-- The source that answered last. -/
def IsCached (cached : Option String) (source : Source Ctx Output) : Prop := some source.name = cached

instance (cached : Option String) (source : Source Ctx Output) : Decidable (IsCached cached source) :=
  inferInstanceAs (Decidable (_ = _))

theorem probeRank_of_cached {cached : Option String} (hint : Vendor) {source : Source Ctx Output}
    (h : IsCached cached source) : probeRank cached hint source = 0 := if_pos h

theorem probeRank_of_not_cached {cached : Option String} (hint : Vendor) {source : Source Ctx Output}
    (h : ¬IsCached cached source) : probeRank cached hint source = hintRank hint source := by
  have hname : some source.name ≠ cached := h
  unfold probeRank hintRank
  rw [if_neg hname]
  by_cases hg : hint = .generic
  · simp [hg]
  · simp [hg]

theorem hintRank_pos (hint : Vendor) (source : Source Ctx Output) : 0 < hintRank hint source := by
  unfold hintRank
  split
  · decide
  · split <;> decide

/-- Sources of distinct names. -/
abbrev Sources (Ctx Output : Type) : Type := { sources : List (Source Ctx Output) // (sources.map Source.name).Nodup }

/-- A permutation that starts with the source that answered last; the others come by the rank
the hint gives them, and those of one rank as they are declared. -/
structure Ordered (cached : Option String) (hint : Vendor) (sources order : List (Source Ctx Output)) : Prop where
  perm : order.Perm sources
  first : ∀ source ∈ sources, IsCached cached source → order.head? = some source
  ranked : (order.filter fun s => ¬IsCached cached s).Pairwise fun a b => hintRank hint a ≤ hintRank hint b
  declared : ∀ rank, (order.filter fun s => ¬IsCached cached s ∧ hintRank hint s = rank) =
    sources.filter fun s => ¬IsCached cached s ∧ hintRank hint s = rank

theorem ordered_probeOrder (cached : Option String) (hint : Vendor) (sources : Sources Ctx Output) :
    Ordered cached hint sources.val (probeOrder cached hint sources.val) := by
  have hperm := sortByKey_perm (probeRank cached hint) sources.val
  have hsorted := pairwise_sortByKey (probeRank cached hint) sources.val
  refine ⟨hperm, fun source hmem hcached => ?_, ?_, fun rank => ?_⟩
  · have hin : source ∈ probeOrder cached hint sources.val := hperm.mem_iff.mpr hmem
    cases horder : probeOrder cached hint sources.val with
    | nil => rw [horder] at hin; cases hin
    | cons head rest =>
      rw [show sortByKey (probeRank cached hint) sources.val = _ from horder] at hsorted hperm
      rw [horder] at hin
      rcases List.mem_cons.mp hin with rfl | hrest
      · rfl
      · have hle := (List.pairwise_cons.mp hsorted).1 source hrest
        rw [probeRank_of_cached hint hcached, Nat.le_zero] at hle
        have hhead : IsCached cached head := by
          by_contra hnot
          rw [probeRank_of_not_cached hint hnot] at hle
          exact absurd hle (hintRank_pos hint head).ne'
        have hname : head.name = source.name := Option.some.inj (hhead.trans hcached.symm)
        rw [List.inj_on_of_nodup_map sources.property (hperm.mem_iff.mp List.mem_cons_self) hmem hname]
        rfl
  · refine (hsorted.filter _).imp_of_mem fun {a b} ha hb hab => ?_
    have hna := of_decide_eq_true (List.mem_filter.mp ha).2
    have hnb := of_decide_eq_true (List.mem_filter.mp hb).2
    rwa [probeRank_of_not_cached hint hna, probeRank_of_not_cached hint hnb] at hab
  · -- the sort is by a rank that the cached source does not share
    have hstable := filter_sortByKey (probeRank cached hint) sources.val rank
    have hsame : ∀ l : List (Source Ctx Output), (l.filter fun s => ¬IsCached cached s ∧ hintRank hint s = rank) =
        (l.filter fun s => probeRank cached hint s = rank).filter fun s => ¬IsCached cached s := by
      intro l
      rw [List.filter_filter]
      refine List.filter_congr fun s _ => ?_
      by_cases hs : IsCached cached s
      · simp [hs]
      · simp [hs, probeRank_of_not_cached hint hs]
    rw [hsame, hsame]
    exact congrArg _ hstable

/-! ## The choice -/

/-- **What a poll does**: the sources are probed in that order, none twice, until one answers;
its answer is the outcome, and its name is what is remembered of the device. -/
structure Chooses (cache : SourceCache) (fqdn : String) (hint : Vendor) (sources : List (Source Ctx Output)) (ctx : Ctx)
    (order probes : List (Source Ctx Output)) (out : Option Output × SourceCache) : Prop where
  ordered : Ordered (cache fqdn) hint sources order
  probes_prefix : probes <+: order
  once : (probes.map Source.name).Nodup
  isSome_iff : out.1.isSome ↔ ∃ source ∈ sources, (source.collect ctx).isSome
  answered : ∀ result, out.1 = some result → ∃ before source after, order = before ++ source :: after ∧
    (∀ s ∈ before, s.collect ctx = none) ∧ source.collect ctx = some result ∧ probes = before ++ [source] ∧
    out.2 fqdn = some source.name
  unanswered : out.1 = none → probes = order ∧ out.2 fqdn = none
  others : ∀ fqdn', fqdn' ≠ fqdn → out.2 fqdn' = cache fqdn'

theorem collectFirst_of_found {cache : SourceCache} {fqdn : String} {hint : Vendor} {sources : List (Source Ctx Output)}
    {ctx : Ctx} {source : Source Ctx Output} {result : Output}
    (h : (probeEach ctx (probeOrder (cache fqdn) hint sources)).2 = some (source, result)) :
    collectFirst cache fqdn hint sources ctx = (some result, PMap.insert cache fqdn source.name) := by
  rw [collectFirst, h]

theorem collectFirst_of_not_found {cache : SourceCache} {fqdn : String} {hint : Vendor}
    {sources : List (Source Ctx Output)} {ctx : Ctx}
    (h : (probeEach ctx (probeOrder (cache fqdn) hint sources)).2 = none) :
    collectFirst cache fqdn hint sources ctx = (none, Function.update cache fqdn none) := by
  rw [collectFirst, h]

theorem collectFirst_chooses (cache : SourceCache) (fqdn : String) (hint : Vendor) (sources : Sources Ctx Output)
    (ctx : Ctx) : Chooses cache fqdn hint sources.val ctx (probeOrder (cache fqdn) hint sources.val)
      (probed cache fqdn hint sources.val ctx) (collectFirst cache fqdn hint sources.val ctx) := by
  have hordered := ordered_probeOrder (cache fqdn) hint sources
  have honce : ((probeOrder (cache fqdn) hint sources.val).map Source.name).Nodup :=
    (hordered.perm.map Source.name).nodup_iff.mpr sources.property
  unfold probed
  cases hfound : (probeEach ctx (probeOrder (cache fqdn) hint sources.val)).2 with
  | none =>
    obtain ⟨hnone, hprobed⟩ := probeEach_none hfound
    rw [collectFirst_of_not_found hfound, hprobed]
    refine ⟨hordered, List.prefix_rfl, honce, ?_, fun result h => (by cases h), fun _ => ⟨rfl, Function.update_self ..⟩,
      fun fqdn' hne => Function.update_of_ne hne ..⟩
    refine iff_of_false Bool.false_ne_true ?_
    rintro ⟨source, hmem, hsome⟩
    rw [hnone source (hordered.perm.mem_iff.mpr hmem)] at hsome
    cases hsome
  | some found =>
    obtain ⟨source, result⟩ := found
    obtain ⟨before, after, hsplit, hbefore, hsource, hprobed⟩ := probeEach_some hfound
    rw [collectFirst_of_found hfound, hprobed]
    have hfront : before ++ [source] <+: probeOrder (cache fqdn) hint sources.val := ⟨after, by rw [hsplit]; simp⟩
    refine ⟨hordered, hfront, honce.sublist (hfront.sublist.map _), ?_, fun result' h => ?_, fun h => (by cases h),
      fun fqdn' hne => PMap.insert_of_ne _ _ hne⟩
    · have hin : source ∈ probeOrder (cache fqdn) hint sources.val := by rw [hsplit]; simp
      exact iff_of_true rfl ⟨source, hordered.perm.mem_iff.mp hin, by rw [hsource]; rfl⟩
    · cases h
      exact ⟨before, source, after, hsplit, hbefore, hsource, rfl, PMap.insert_self ..⟩

/-- The switch answers for the LACP ports only: port 1 is attached to aggregate 10. -/
def lacpOnly (_ table : String) : Option Snmp.Response :=
  if table = "IEEE8023-LAG-MIB::dot3adAggPortTable" then
    some (tableOf [tableRow [("IEEE8023-LAG-MIB::dot3adAggPortIndex", 1)]
      [("IEEE8023-LAG-MIB::dot3adAggPortAttachedAggID", .uint64 10)]])
  else none

/-- The source that answered last does not any more, and the other one is remembered. -/
theorem collectFirst_chooses_lacpOnly :
    (probed (fun _ => some "cisco-pagp") "sw1" .generic Lagpoller.sources lacpOnly).map Source.name =
        ["cisco-pagp", "dot3ad"] ∧
      Chooses (fun _ => some "cisco-pagp") "sw1" .generic Lagpoller.sources lacpOnly
        (probeOrder (some "cisco-pagp") .generic Lagpoller.sources)
        (probed (fun _ => some "cisco-pagp") "sw1" .generic Lagpoller.sources lacpOnly)
        (collectFirst (fun _ => some "cisco-pagp") "sw1" .generic Lagpoller.sources lacpOnly) :=
  ⟨by decide +kernel,
    collectFirst_chooses (fun _ => some "cisco-pagp") "sw1" .generic ⟨Lagpoller.sources, by decide⟩ lacpOnly⟩

end JaspyNexus.Collectors
