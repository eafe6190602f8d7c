import Mathlib
import JaspyNexus.Collectors.Tables

/-! # Choosing a source

`collectors/vendor.rs`: a feature has one source for each vendor's MIBs. A poll
probes them in an order that starts with the one that answered last, and takes
the first answer. -/

namespace JaspyNexus.Collectors
open JaspyNexus.Lib

inductive Vendor where
  | cisco
  | hpProcurve
  | generic
  deriving DecidableEq, Repr

/-- `vendor_hint`; only letters of ASCII matter to what it looks for. -/
def vendorHint (osInfo deviceType : Option String) : Vendor :=
  let haystack := ((osInfo.getD "") ++ " " ++ (deviceType.getD "")).toLower.toList
  let contains (needle : String) : Bool := needle.toList <:+: haystack
  if contains "cisco" then .cisco
  else if contains "procurve" || contains "aruba" || contains "hewlett" ||
      (splitWhitespace haystack).any (fun token => token = "hp".toList) then .hpProcurve
  else .generic

/-- `Source`: one way to collect a feature's data. -/
structure Source (Ctx Output : Type) where
  name : String
  vendor : Vendor
  collect : Ctx → Option Output

/-- `SourceCache`: the source that answered last, by fqdn. -/
abbrev SourceCache := PMap String String

/-- The rank of a source in the probe order. -/
def probeRank {Ctx Output : Type} (cached : Option String) (hint : Vendor)
    (source : Source Ctx Output) : Nat :=
  if some source.name = cached then 0
  else if hint = .generic then 1
  else if source.vendor = hint then 1
  else if source.vendor = .generic then 2
  else 3

/-- The sources in probe order; the sort is stable. -/
def probeOrder {Ctx Output : Type} (cached : Option String) (hint : Vendor)
    (sources : List (Source Ctx Output)) : List (Source Ctx Output) :=
  sources.insertionSort fun a b => probeRank cached hint a ≤ probeRank cached hint b

/-- The loop of `collect_first`, with the sources it probes: it stops at the first answer. -/
def probeEach {Ctx Output : Type} (ctx : Ctx) :
    List (Source Ctx Output) → List (Source Ctx Output) × Option (Source Ctx Output × Output)
  | [] => ([], none)
  | source :: rest =>
    match source.collect ctx with
    | some result => ([source], some (source, result))
    | none => (source :: (probeEach ctx rest).1, (probeEach ctx rest).2)

/-- `collect_first`: the answer and the cache after it. -/
def collectFirst {Ctx Output : Type} (cache : SourceCache) (fqdn : String) (hint : Vendor)
    (sources : List (Source Ctx Output)) (ctx : Ctx) : Option Output × SourceCache :=
  match (probeEach ctx (probeOrder (cache fqdn) hint sources)).2 with
  | some (source, result) => (some result, PMap.insert cache fqdn source.name)
  | none => (none, Function.update cache fqdn none)

/-- The source that answers a probe. -/
def answering {Ctx Output : Type} (order : List (Source Ctx Output)) (ctx : Ctx) :
    Option (Source Ctx Output) :=
  order.find? fun source => (source.collect ctx).isSome

/-- The answer is the first answering source's. -/
theorem collectFirst_eq {Ctx Output : Type} (cache : SourceCache) (fqdn : String) (hint : Vendor)
    (sources : List (Source Ctx Output)) (ctx : Ctx) :
    (collectFirst cache fqdn hint sources ctx).1 =
      (answering (probeOrder (cache fqdn) hint sources) ctx).bind fun source =>
        source.collect ctx := by
  unfold collectFirst answering
  generalize probeOrder (cache fqdn) hint sources = order
  induction order with
  | nil => rfl
  | cons source rest ih =>
    rw [probeEach, List.find?_cons]
    cases hc : source.collect ctx with
    | none => simpa using ih
    | some result => simp [hc]

/-- Every source is probed. -/
theorem mem_probeOrder {Ctx Output : Type} {cached : Option String} {hint : Vendor}
    {sources : List (Source Ctx Output)} {source : Source Ctx Output} :
    source ∈ probeOrder cached hint sources ↔ source ∈ sources := List.mem_insertionSort _

end JaspyNexus.Collectors
