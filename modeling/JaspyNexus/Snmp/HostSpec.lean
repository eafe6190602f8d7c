import Mathlib
import JaspyNexus.Lib.Text

/-! # Addressing a device

`snmp/hostspec.rs`: a device's name, community and VLAN, given apart or written into one
string, `community@fqdn` or `community@vlan@fqdn`. -/

namespace JaspyNexus.Snmp
open JaspyNexus.Lib

inductive Style where
  | queryParam
  | inline
  deriving DecidableEq, Repr

structure HostSpec where
  fqdn : String
  community : Option String
  vlan : Option Int
  style : Style
  deriving DecidableEq, Repr

namespace HostSpec

def withCommunity (fqdn community : String) : HostSpec := ⟨fqdn, some community, none, .queryParam⟩

def parse (host : String) : HostSpec :=
  match Text.split host '@' with
  | [fqdn] => ⟨fqdn, none, none, .inline⟩
  | [community, fqdn] => ⟨fqdn, some community, none, .inline⟩
  | [community, vlan, fqdn] => ⟨fqdn, some community, Text.parseI64 vlan, .inline⟩
  -- malformed: the whole string stands for the name
  | _ => ⟨host, none, none, .inline⟩

def pathHost (spec : HostSpec) : String :=
  match spec.style with
  | .queryParam => spec.fqdn
  | .inline =>
    match spec.community, spec.vlan with
    | some c, some v => c ++ "@" ++ toString v ++ "@" ++ spec.fqdn
    | some c, none => c ++ "@" ++ spec.fqdn
    | none, _ => spec.fqdn

def effectiveCommunity (spec : HostSpec) : Option String :=
  spec.community.map fun community =>
    match spec.vlan with
    | some vlan => community ++ "@" ++ toString vlan
    | none => community

/-- The host string that a poller builds, of a community and for one VLAN if it is asked
for one. -/
def inlineHost (fqdn community : String) : Option Int → String
  | none => community ++ "@" ++ fqdn
  | some vlan => community ++ "@" ++ toString vlan ++ "@" ++ fqdn

/-! ## The inline form -/

/-- **The inline form reaches the device** as the other one does: what was written in is
read back, the device gets the same credentials, and the path is the string itself. -/
structure Reaches (fqdn community : String) (vlan : Option Int) : Prop where
  recovers : parse (inlineHost fqdn community vlan) = ⟨fqdn, some community, vlan, .inline⟩
  credentials : (parse (inlineHost fqdn community vlan)).effectiveCommunity =
    match vlan with
    | none => (withCommunity fqdn community).effectiveCommunity
    | some v => some (community ++ "@" ++ toString v)
  path : (parse (inlineHost fqdn community vlan)).pathHost = inlineHost fqdn community vlan

section
variable {fqdn community : String} {vlan : Option Int}

/-- No number has a separator in it. -/
theorem at_notMem_toString (v : Int) : '@' ∉ (toString v).toList := by
  have hrepr : ∀ n : Nat, '@' ∉ (Nat.repr n).toList := fun n hmem =>
    absurd (Text.isDigit_of_mem_repr hmem) (by decide)
  cases v with
  | ofNat n => exact hrepr n
  | negSucc n =>
    show '@' ∉ ("-" ++ Nat.repr (n + 1)).toList
    simpa using hrepr (n + 1)

/-- A community that is read has no separator in it. -/
theorem at_notMem_of_parse {host : String} (h : (parse host).community = some community) :
    '@' ∉ community.toList := by
  unfold parse at h
  split at h
  · cases h
  next c fqdn hparts =>
    cases h
    exact Text.notMem_of_mem_split (by rw [hparts]; exact List.mem_cons_self)
  next c vlan fqdn hparts =>
    cases h
    exact Text.notMem_of_mem_split (by rw [hparts]; exact List.mem_cons_self)
  · cases h

theorem parse_inlineHost (hfqdn : '@' ∉ fqdn.toList) (hcommunity : '@' ∉ community.toList)
    (hvlan : ∀ v, vlan = some v → -2 ^ 63 ≤ v ∧ v < 2 ^ 63) :
    parse (inlineHost fqdn community vlan) = ⟨fqdn, some community, vlan, .inline⟩ := by
  cases vlan with
  | none =>
    have hparts : Text.split (inlineHost fqdn community none) '@' = [community, fqdn] := by
      show Text.split (community ++ String.singleton '@' ++ fqdn) '@' = _
      rw [Text.split_append, Text.split_eq_singleton hcommunity, Text.split_eq_singleton hfqdn]
      rfl
    rw [parse, hparts]
  | some v =>
    have hparts : Text.split (inlineHost fqdn community (some v)) '@' = [community, toString v, fqdn] := by
      show Text.split (community ++ String.singleton '@' ++ toString v ++ String.singleton '@' ++ fqdn) '@' = _
      rw [Text.split_append, Text.split_append, Text.split_eq_singleton hcommunity,
        Text.split_eq_singleton (at_notMem_toString v), Text.split_eq_singleton hfqdn]
      rfl
    rw [parse, hparts]
    show (⟨fqdn, some community, Text.parseI64 (toString v), .inline⟩ : HostSpec) = _
    rw [Text.parseI64_toString (hvlan v rfl)]

end

/-- **Which communities can be written in**: those without a separator, for every device
and every VLAN. -/
theorem inline_reaches_iff {fqdn : String} (hfqdn : '@' ∉ fqdn.toList) (community : String) {vlan : Option Int}
    (hvlan : ∀ v, vlan = some v → -2 ^ 63 ≤ v ∧ v < 2 ^ 63) :
    Reaches fqdn community vlan ↔ '@' ∉ community.toList := by
  constructor
  · intro hreaches
    exact at_notMem_of_parse (congrArg HostSpec.community hreaches.recovers)
  · intro hcommunity
    have hparse := parse_inlineHost hfqdn hcommunity hvlan
    refine ⟨hparse, ?_, ?_⟩
    · rw [hparse]
      cases vlan <;> rfl
    · rw [hparse]
      cases vlan <;> rfl

theorem inline_reaches_vlan : Reaches "sw.lan" "public" (some 10) :=
  (inline_reaches_iff (by decide) "public" fun v hv => by cases hv; decide).mpr (by decide)

/-- **A community with a separator**: its second half goes for a VLAN, is no number, and
is lost. -/
theorem separator_in_community :
    let spec := parse (inlineHost "sw.lan" "a@b" none)
    (spec.fqdn = "sw.lan" ∧ spec.community = some "a" ∧ spec.vlan = none) ∧
      spec.effectiveCommunity = some "a" ∧
      (withCommunity "sw.lan" "a@b").effectiveCommunity = some "a@b" ∧
      spec.pathHost = "a@sw.lan" ∧ inlineHost "sw.lan" "a@b" none = "a@b@sw.lan" ∧
      ¬Reaches "sw.lan" "a@b" none := by
  have hspec : parse (inlineHost "sw.lan" "a@b" none) = ⟨"sw.lan", some "a", none, .inline⟩ := by decide +kernel
  refine ⟨by decide +kernel, by decide +kernel, rfl, by decide +kernel, by decide +kernel, fun hreaches => ?_⟩
  have hrecovers := hreaches.recovers
  rw [hspec] at hrecovers
  exact absurd hrecovers (by decide +kernel)

end HostSpec
end JaspyNexus.Snmp
