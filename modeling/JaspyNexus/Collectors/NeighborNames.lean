import Mathlib
import JaspyNexus.Collectors.LinksOrder

/-! # The name of a neighbour, crawled and looked up

The crawl resolves the name that a neighbour gives without the white space around it;
link resolution resolves it as it is. -/

namespace JaspyNexus.Collectors.Discovery.Links
open JaspyNexus.Lib JaspyNexus.Lib.Text

section Names
variable (params : RunParams) (network : Network) (detected : HashMap String DetectedDevice)
  (device : DetectedDevice)

/-- The parameters without the remap table. -/
def plain : RunParams := { params with remap := PMap.empty }

/-- A name of the remap table leads to a device by its target. -/
def RemapsTo (name : String) : Prop :=
  ∃ target fqdn, params.remap name = some target ∧
    tryResolve (plain params) network target = some fqdn ∧ detected.lookup fqdn = some device

/-- A name leads to the device that the crawl knows by it: it has no white space around
it, or has an entry of its own in the remap table. -/
def LeadsTo (name : String) : Prop := trim name = name ∨ RemapsTo params network detected device name

/-- The first device visited that has the chassis id of an entry. -/
def ChassisLeadsTo (neighbor : LldpNeighbor) : Prop :=
  ∃ fqdn, firstWith detected (colond neighbor.remChassisId) = some fqdn ∧ detected.lookup fqdn = some device

end Names

variable {params : RunParams} {network : Network} {detected : HashMap String DetectedDevice}
  {device : DetectedDevice} {name fqdn : String}

theorem gather_eq_singleton : gather params network [] name = [fqdn] ↔
    tryResolve params network (trim name) = some fqdn ∧ fqdn ∉ params.ignore := by
  unfold gather
  cases tryResolve params network (trim name) with
  | none => simp
  | some found =>
    by_cases hignore : found ∈ params.ignore
    · simp only [List.not_mem_nil, not_false_eq_true, decide_true, hignore, not_true_eq_false,
        decide_false, Bool.and_false, Bool.false_eq_true, if_false, Option.some.injEq]
      exact ⟨(fun h => by cases h), fun h => absurd (h.1 ▸ hignore) h.2⟩
    · simp only [List.not_mem_nil, not_false_eq_true, decide_true, hignore, Bool.and_true, if_true,
        List.nil_append, List.cons.injEq, and_true, Option.some.injEq]
      exact ⟨fun hfound => ⟨hfound, hfound ▸ hignore⟩, fun h => h.1⟩

/-- A name is resolved by the target of its entry in the remap table. -/
theorem tryResolve_of_remap {target : String} (h : params.remap name = some target) :
    tryResolve params network name = tryResolve (plain params) network target := by
  unfold tryResolve plain
  simp only [h, Option.getD_some, PMap.empty_apply, Option.getD_none]
  rfl

theorem not_whitespace_of_isHostChar {c : Char} (h : isHostChar c = true) : isWhitespace c = false := by
  simp only [isHostChar, Char.isAlphanum, Char.isAlpha, Char.isUpper, Char.isLower, Char.isDigit,
    Bool.or_eq_true, Bool.and_eq_true, decide_eq_true_eq, UInt32.le_iff_toNat_le, ge_iff_le] at h
  have hcode : (0x30 ≤ c.toNat ∧ c.toNat ≤ 0x7a) ∨ c = '-' ∨ c = '.' ∨ c = '_' := by
    rcases h with ((((h | h) | h) | h) | h) | h
    · exact .inl ⟨Nat.le_trans (by decide) h.1, Nat.le_trans h.2 (by decide)⟩
    · exact .inl ⟨Nat.le_trans (by decide) h.1, Nat.le_trans h.2 (by decide)⟩
    · exact .inl ⟨h.1, Nat.le_trans h.2 (by decide)⟩
    · exact .inr (.inl h)
    · exact .inr (.inr (.inl h))
    · exact .inr (.inr (.inr h))
  rcases hcode with hcode | rfl | rfl | rfl
  · by_contra hspace
    simp only [isWhitespace, Bool.not_eq_false, Bool.or_eq_true, Bool.and_eq_true, decide_eq_true_eq] at hspace
    omega
  all_goals decide

/-- White space around a name that has no entry keeps it from being resolved. -/
theorem tryResolve_of_padded (h : params.remap name = none) (hpad : trim name ≠ name) :
    tryResolve params network name = none := by
  have hhost : name.toList.all isHostChar = false := by
    by_contra hall
    rw [Bool.not_eq_false, List.all_eq_true] at hall
    exact hpad (trim_eq_self fun c hc => not_whitespace_of_isHostChar (hall c hc))
  unfold tryResolve
  simp [h, hhost]

/-- What a name leads to by itself, where the crawl knows the neighbour by it. -/
theorem lookup_tryResolve_iff (hdetected : detected.lookup fqdn = some device)
    (hcrawl : tryResolve params network (trim name) = some fqdn) :
    (tryResolve params network name).bind detected.lookup = some device ↔
      LeadsTo params network detected device name := by
  by_cases hpad : trim name = name
  · rw [hpad] at hcrawl
    exact ⟨fun _ => .inl hpad, fun _ => by rw [hcrawl]; exact hdetected⟩
  cases hremap : params.remap name with
  | none =>
    rw [tryResolve_of_padded hremap hpad]
    refine ⟨nofun, fun h => ?_⟩
    rcases h with h | ⟨target, fqdn', htarget, -, -⟩
    · exact absurd h hpad
    · rw [hremap] at htarget
      cases htarget
  | some target =>
    rw [tryResolve_of_remap hremap, Option.bind_eq_some_iff]
    constructor
    · intro ⟨fqdn', hresolved, hlookup⟩
      exact .inr ⟨target, fqdn', hremap, hresolved, hlookup⟩
    · intro h
      rcases h with h | ⟨target', fqdn', htarget, hresolved, hlookup⟩
      · exact absurd h hpad
      · rw [hremap] at htarget
        obtain rfl := Option.some.inj htarget
        exact ⟨fqdn', hresolved, hlookup⟩

/-- **A neighbour is looked up under the name it was crawled by** exactly when that name
leads to it as it is; an LLDP neighbour that no name leads to may be found by its chassis
id. -/
theorem lookups_agree_iff (hdetected : detected.lookup fqdn = some device) :
    (∀ neighbor : CdpNeighbor, gather params network [] neighbor.deviceId = [fqdn] →
      (lookupCdpNeighbor params network detected neighbor = some device ↔
        LeadsTo params network detected device neighbor.deviceId)) ∧
    ∀ neighbor : LldpNeighbor, gather params network [] neighbor.remSysName = [fqdn] →
      (lookupLldpNeighbor params network detected neighbor = some device ↔
        LeadsTo params network detected device neighbor.remSysName ∨
        (trim neighbor.remSysName ≠ neighbor.remSysName ∧
          (∀ other, ¬RemapsTo params network detected other neighbor.remSysName) ∧
          ChassisLeadsTo detected device neighbor)) := by
  refine ⟨fun neighbor hcrawl => ?_, fun neighbor hcrawl => ?_⟩
  · exact lookup_tryResolve_iff hdetected (gather_eq_singleton.mp hcrawl).1
  have hname := (gather_eq_singleton.mp hcrawl).1
  rw [lookupLldpNeighbor_eq, neighborIn]
  cases hfound : (tryResolve params network neighbor.remSysName).bind detected.lookup with
  | some found =>
    obtain ⟨fqdn', hresolved, hlookup⟩ := Option.bind_eq_some_iff.mp hfound
    rw [← lookup_tryResolve_iff hdetected hname, hresolved]
    simp only [topology, hlookup, Option.filter_some, Option.map_some, Option.isSome_some, if_true,
      Option.some_or, Option.bind_some]
    refine ⟨.inl, fun h => h.resolve_right fun hpadded => ?_⟩
    obtain ⟨hpad, hnot, -⟩ := hpadded
    cases hremap : params.remap neighbor.remSysName with
    | none =>
      rw [tryResolve_of_padded hremap hpad] at hresolved
      cases hresolved
    | some target =>
      rw [tryResolve_of_remap hremap] at hresolved
      exact hnot found ⟨target, fqdn', hremap, hresolved, hlookup⟩
  | none =>
    have hnone : ((tryResolve params network neighbor.remSysName).filter
        fun fqdn => (topology detected fqdn).isSome) = none := by
      cases hresolved : tryResolve params network neighbor.remSysName with
      | none => rfl
      | some fqdn' =>
        rw [hresolved] at hfound
        replace hfound : detected.lookup fqdn' = none := hfound
        simp [topology, hfound, Option.filter_some]
    have hnot : ¬LeadsTo params network detected device neighbor.remSysName := fun h => by
      rw [← lookup_tryResolve_iff hdetected hname, hfound] at h
      cases h
    rw [hnone, Option.none_or, Option.bind_eq_some_iff]
    refine ⟨fun h => .inr ⟨fun hpad => hnot (.inl hpad), fun other hremaps => ?_, h⟩,
      fun h => (h.resolve_left hnot).2.2⟩
    obtain ⟨target, fqdn', htarget, hresolved, hlookup⟩ := hremaps
    rw [tryResolve_of_remap htarget, hresolved, Option.bind_some, hlookup] at hfound
    cases hfound

/-! ## A name with a space before it -/

/-- Names without white space are looked up as they were crawled. -/
theorem lookups_agree_twoSwitches :
    twoSwitches.lookup "b.lan" = some (collectedFrom (switch "a") "b.lan") ∧
    lookupCdpNeighbor offline silent twoSwitches ⟨⟨"b"⟩, "ge1"⟩ = some (collectedFrom (switch "a") "b.lan") ∧
    lookupLldpNeighbor offline silent twoSwitches ⟨⟨"b"⟩, "", "ge1", ""⟩ =
      some (collectedFrom (switch "a") "b.lan") := by
  have hdetected : twoSwitches.lookup "b.lan" = some (collectedFrom (switch "a") "b.lan") := by
    refine (AList.lookup_insert_ne (by decide)).trans ?_
    exact HashMap.mem_entries.mp List.mem_cons_self
  have hagree := @lookups_agree_iff offline silent _ _ _ hdetected
  exact ⟨hdetected, (hagree.1 ⟨⟨"b"⟩, "ge1"⟩ (by decide +kernel)).mpr (.inl (by decide +kernel)),
    (hagree.2 ⟨⟨"b"⟩, "", "ge1", ""⟩ (by decide +kernel)).mpr (.inl (.inl (by decide +kernel)))⟩

/-- **A padded name is lost**: the crawl goes on to `b.lan` by `" b"`, and neither look-up
finds it by that name. -/
theorem padded_name_not_found :
    twoSwitches.lookup "b.lan" = some (collectedFrom (switch "a") "b.lan") ∧
    gather offline silent [] " b" = ["b.lan"] ∧
    lookupCdpNeighbor offline silent twoSwitches ⟨⟨" b"⟩, "ge1"⟩ ≠ some (collectedFrom (switch "a") "b.lan") ∧
    lookupLldpNeighbor offline silent twoSwitches ⟨⟨" b"⟩, "", "ge1", ""⟩ ≠
      some (collectedFrom (switch "a") "b.lan") := by
  have hresolved : tryResolve offline silent " b" = none := by decide +kernel
  have hchassis : firstWith twoSwitches (colond "") = none := by decide +kernel
  refine ⟨?_, by decide +kernel, ?_, ?_⟩
  · refine (AList.lookup_insert_ne (by decide)).trans ?_
    exact HashMap.mem_entries.mp List.mem_cons_self
  · unfold lookupCdpNeighbor
    rw [hresolved]
    exact nofun
  · rw [lookupLldpNeighbor_eq, neighborIn, hresolved, hchassis]
    exact nofun

end JaspyNexus.Collectors.Discovery.Links
