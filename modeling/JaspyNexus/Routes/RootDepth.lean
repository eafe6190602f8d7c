import Mathlib
import JaspyNexus.Lib.LeastWrite
import JaspyNexus.Routes.Fleet

/-! # Distances to the root

What `collect_issues` hands to the aggregates as `root_depth` is to be a device's
shallowest distance from a computed root, over all VLANs. A tree also starts at its
strays, at depth 0 like a root, so a device under a stray is read as near (`rootDepth_eq_some_iff`).
That goes unnoticed exactly where a root is as near in another VLAN (`trueDepths_iff`). -/

namespace JaspyNexus.Routes.Fleet
open JaspyNexus.Lib JaspyNexus.Lib.ParentGraph JaspyNexus.Utilities JaspyNexus.Utilities.Issues
open JaspyNexus.Utilities.Stp (StpPort StpInputs StpTree StpNode)
open JaspyNexus.Utilities.StpForest

/-! ## The depths of one tree -/

section Tree
variable {inputs : StpInputs} {vlan : Int} {fqdn : String} {n : Nat}

instance : Decidable (HasRootPort inputs vlan fqdn) :=
  inferInstanceAs (Decidable (∃ p ∈ portsOn inputs vlan fqdn, p.role = "root"))

/-- The device is `n` hops below a computed root of the VLAN. -/
def BelowRoot (inputs : StpInputs) (vlan : Int) (fqdn : String) (n : Nat) : Prop :=
  ∃ root, ancestor (upstream inputs vlan) n fqdn = some root ∧ OnVlan inputs vlan root ∧
    ¬HasRootPort inputs vlan root

/-- The device's root port leads to no device of the VLAN, or round a cycle. -/
def Stray (inputs : StpInputs) (vlan : Int) (fqdn : String) : Prop :=
  HasRootPort inputs vlan fqdn ∧ (upstream inputs vlan fqdn = none ∨ OnCycle (upstream inputs vlan) fqdn)

/-- The way up from the device comes to a stray after `n` hops. -/
def BelowStray (inputs : StpInputs) (vlan : Int) (fqdn : String) (n : Nat) : Prop :=
  ∃ stray, Nearest (upstream inputs vlan) (Stray inputs vlan) fqdn n stray

/-- No way up from here, or none that ends. -/
def Ends (inputs : StpInputs) (vlan : Int) (fqdn : String) : Prop :=
  upstream inputs vlan fqdn = none ∨ OnCycle (upstream inputs vlan) fqdn

theorem upstream_of_not_hasRootPort (h : ¬HasRootPort inputs vlan fqdn) : upstream inputs vlan fqdn = none := by
  rw [hasRootPort_iff, Bool.not_eq_true, Option.isSome_eq_false_iff, Option.isNone_iff_eq_none] at h
  rw [upstream, h, Option.bind_none]

theorem onVlan_of_hasRootPort (h : HasRootPort inputs vlan fqdn) : OnVlan inputs vlan fqdn := by
  obtain ⟨p, hp, -⟩ := h
  exact List.ne_nil_of_mem hp

theorem onVlan_ancestor {top : String} (hon : OnVlan inputs vlan fqdn)
    (h : ancestor (upstream inputs vlan) n fqdn = some top) : OnVlan inputs vlan top := by
  have hclosed : Closed (upstream inputs vlan) (nodes inputs vlan) := fun x _ y hxy =>
    mem_nodes.mpr (upstream_onVlan hxy).2
  exact mem_nodes.mp (hclosed.ancestor (mem_nodes.mpr hon) h)

theorem onVlan_of_ancestor {top : String} (hon : OnVlan inputs vlan top)
    (h : ancestor (upstream inputs vlan) n fqdn = some top) : OnVlan inputs vlan fqdn := by
  cases n with
  | zero => cases h; exact hon
  | succ n =>
    obtain ⟨parent, hparent, -⟩ := Option.bind_eq_some_iff.mp h
    exact (upstream_onVlan hparent).1

/-- Before the top of a way up nothing ends. -/
theorem not_ends_below {top z : String} {m : Nat} (htop : ancestor (upstream inputs vlan) n fqdn = some top)
    (hnone : upstream inputs vlan top = none) (hm : m < n)
    (hz : ancestor (upstream inputs vlan) m fqdn = some z) : ¬Ends inputs vlan z := by
  rintro (hstop | hcycle)
  · rw [ancestor_past_top hz hstop hm] at htop
    cases htop
  · -- from a cycle one can always go on, but not past the top
    have hrest : ancestor (upstream inputs vlan) (n - m) z = some top := by
      rwa [show n = m + (n - m) by omega, ancestor_add, hz, Option.bind_some] at htop
    exact hcycle.ancestor_ne_none (n - m + 1) (ancestor_past_top hrest hnone (Nat.lt_succ_self _))

/-- The way up ends at a root or at a stray. -/
theorem nearest_ends_iff (hon : OnVlan inputs vlan fqdn) :
    (∃ top, Nearest (upstream inputs vlan) (Ends inputs vlan) fqdn n top) ↔
      BelowRoot inputs vlan fqdn n ∨ BelowStray inputs vlan fqdn n := by
  constructor
  · rintro ⟨top, h⟩
    by_cases hroot : HasRootPort inputs vlan top
    · exact .inr ⟨top, h.reach, ⟨hroot, h.found⟩, fun m hm z hz hstray => h.before m hm z hz hstray.2⟩
    · exact .inl ⟨top, h.reach, onVlan_ancestor hon h.reach, hroot⟩
  · rintro (⟨root, hreach, -, hroot⟩ | ⟨stray, h⟩)
    · have hnone := upstream_of_not_hasRootPort hroot
      exact ⟨root, hreach, .inl hnone, fun m hm z hz => not_ends_below hreach hnone hm hz⟩
    · refine ⟨stray, h.reach, h.found.2, fun m hm z hz hend => ?_⟩
      by_cases hroot : HasRootPort inputs vlan z
      · exact h.before m hm z hz ⟨hroot, hend⟩
      · have hpast := ancestor_past_top hz (upstream_of_not_hasRootPort hroot) hm
        rw [h.reach] at hpast
        cases hpast

/-- A node is as deep as its way up is long. -/
theorem nearest_depth {tree : StpTree} (h : IsForest inputs vlan tree) : ∀ (i : Nat) (node : StpNode),
    tree.nodes[i]? = some node →
      ∃ top, Nearest (upstream inputs vlan) (Ends inputs vlan) node.fqdn node.depth top := by
  intro i
  induction i using Nat.strong_induction_on with
  | _ i ih =>
    intro node hi
    have hnode := List.mem_of_getElem? hi
    obtain ⟨hcycle, hoff⟩ := h.parent node hnode
    cases hp : node.parent with
    | none =>
      refine ⟨node.fqdn, ?_⟩
      rw [(h.top node hnode hp).1]
      refine Nearest.self ?_
      by_cases hc : OnCycle (upstream inputs vlan) node.fqdn
      · exact .inr hc
      · exact .inl ((hoff hc).symm.trans hp)
    | some p =>
      have hc : ¬OnCycle (upstream inputs vlan) node.fqdn := fun hc => by rw [hcycle hc] at hp; cases hp
      have hup : upstream inputs vlan node.fqdn = some p := (hoff hc).symm.trans hp
      obtain ⟨j, parent, hji, hj, rfl, hdepth⟩ := h.child i node hi p hp
      obtain ⟨top, htop⟩ := ih j hji parent hj
      rw [hdepth]
      refine ⟨top, htop.step hup ?_⟩
      rintro (hnone | hon)
      · rw [hup] at hnone
        cases hnone
      · exact hc hon

/-- **The depths of a tree**: hops below a root or below a stray. -/
theorem depth_iff {tree : StpTree} (h : IsForest inputs vlan tree) :
    (∃ node ∈ tree.nodes, node.fqdn = fqdn ∧ node.depth = n) ↔
      BelowRoot inputs vlan fqdn n ∨ BelowStray inputs vlan fqdn n := by
  constructor
  · rintro ⟨node, hnode, rfl, rfl⟩
    obtain ⟨i, hi⟩ := List.mem_iff_getElem?.mp hnode
    exact (nearest_ends_iff ((h.covers _).mp (List.mem_map.mpr ⟨node, hnode, rfl⟩))).mp (nearest_depth h i node hi)
  · intro hbelow
    have hon : OnVlan inputs vlan fqdn := by
      rcases hbelow with ⟨root, hreach, hon, -⟩ | ⟨stray, hstray⟩
      · exact onVlan_of_ancestor hon hreach
      · exact onVlan_of_ancestor (onVlan_of_hasRootPort hstray.found.1) hstray.reach
    obtain ⟨node, hnode, rfl⟩ := List.mem_map.mp ((h.covers _).mpr hon)
    obtain ⟨i, hi⟩ := List.mem_iff_getElem?.mp hnode
    obtain ⟨top, htop⟩ := (nearest_ends_iff hon).mpr hbelow
    obtain ⟨top', htop'⟩ := nearest_depth h i node hi
    exact ⟨node, hnode, rfl, (htop'.unique htop).1⟩

end Tree

/-! ## The least over the VLANs -/

namespace Snapshot
variable (s : Snapshot)

/-- The device is connected to a root in some VLAN's tree, `n` hops below it. -/
def RootDistance (fqdn : String) (n : Nat) : Prop := ∃ vlan ∈ s.vlans, BelowRoot s.stpInputs vlan fqdn n

/-- The device is `n` hops below a stray in some VLAN's tree. -/
def StrayDistance (fqdn : String) (n : Nat) : Prop := ∃ vlan ∈ s.vlans, BelowStray s.stpInputs vlan fqdn n

/-- **What the code takes the least of**: the distances to roots, and those to strays. -/
theorem rootDepth_eq_some_iff (fqdn : String) (n : Nat) : s.rootDepth fqdn = some n ↔
    IsLeast {n | s.RootDistance fqdn n ∨ s.StrayDistance fqdn n} n := by
  have hfold : s.rootDepth = keepLeast StpNode.fqdn StpNode.depth
      ((s.vlans.filterMap s.stpTree).flatMap StpTree.nodes) PMap.empty := by
    rw [keepLeast_flatMap]
    rfl
  have hset : {n | ∃ node ∈ (s.vlans.filterMap s.stpTree).flatMap StpTree.nodes, node.fqdn = fqdn ∧ node.depth = n} =
      {n | s.RootDistance fqdn n ∨ s.StrayDistance fqdn n} := by
    ext n
    have htree : ∀ vlan, ∃ tree, s.stpTree vlan = some tree ∧ IsForest s.stpInputs vlan tree := fun vlan =>
      buildStpTree_isForest s.stpInputs vlan _ le_rfl
    constructor
    · rintro ⟨node, hnode, hnode'⟩
      obtain ⟨tree, hmem, hnode⟩ := List.mem_flatMap.mp hnode
      obtain ⟨vlan, hvlan, hbuilt⟩ := List.mem_filterMap.mp hmem
      obtain ⟨tree', hbuilt', hforest⟩ := htree vlan
      obtain rfl := Option.some.inj (hbuilt.symm.trans hbuilt')
      rcases (depth_iff hforest).mp ⟨node, hnode, hnode'⟩ with h | h
      · exact .inl ⟨vlan, hvlan, h⟩
      · exact .inr ⟨vlan, hvlan, h⟩
    · intro h
      obtain ⟨vlan, hvlan, hbelow⟩ : ∃ vlan ∈ s.vlans,
          BelowRoot s.stpInputs vlan fqdn n ∨ BelowStray s.stpInputs vlan fqdn n := by
        rcases h with ⟨vlan, hvlan, h⟩ | ⟨vlan, hvlan, h⟩
        · exact ⟨vlan, hvlan, .inl h⟩
        · exact ⟨vlan, hvlan, .inr h⟩
      obtain ⟨tree, hbuilt, hforest⟩ := htree vlan
      obtain ⟨node, hnode, hnode'⟩ := (depth_iff hforest).mpr hbelow
      exact ⟨node, List.mem_flatMap.mpr ⟨tree, List.mem_filterMap.mpr ⟨vlan, hvlan, hbuilt⟩, hnode⟩, hnode'⟩
  rw [hfold, keepLeast_eq_some_iff, hset]

/-- The verdict that blames neither end. -/
def cannotTell : String :=
  " We can't tell which end is loose — check both, starting with the switch furthest from the STP root."

/-- `root_depth` is the least distance to a root, of the devices that have one, and an end of a
cable is blamed only by two such distances. -/
structure TrueDepths : Prop where
  depth : ∀ fqdn n, s.rootDepth fqdn = some n ↔ IsLeast {n | s.RootDistance fqdn n} n
  hint : ∀ fqdn peer, looseEnd fqdn peer s.rootDepth ≠ cannotTell → ∃ peerFqdn, peer = some peerFqdn ∧
    ∃ here there, IsLeast {n | s.RootDistance fqdn n} here ∧ IsLeast {n | s.RootDistance peerFqdn n} there ∧
      here ≠ there

/-- Whoever is below a stray in one VLAN is as near to a root in another. -/
def StraysOutdone : Prop := ∀ fqdn n, s.StrayDistance fqdn n → ∃ m ≤ n, s.RootDistance fqdn m

/-- An end is blamed only when both depths are known, and they differ. -/
theorem depths_of_looseEnd {depths : PMap String Nat} {fqdn : String} {peer : Option String}
    (h : looseEnd fqdn peer depths ≠ cannotTell) : ∃ peerFqdn, peer = some peerFqdn ∧ ∃ here there,
      depths fqdn = some here ∧ depths peerFqdn = some there ∧ here ≠ there := by
  unfold looseEnd at h
  split at h
  · next here there hhere hthere =>
    obtain ⟨peerFqdn, rfl, hthere⟩ := Option.bind_eq_some_iff.mp hthere
    refine ⟨peerFqdn, rfl, here, there, hhere, hthere, ?_⟩
    rintro rfl
    rw [if_neg (lt_irrefl _), if_neg (lt_irrefl _)] at h
    exact h rfl
  · exact absurd rfl h

/-- **Distances to the root**: they are true exactly when no stray is nearer than a root. -/
theorem trueDepths_iff (s : Snapshot) : s.TrueDepths ↔ s.StraysOutdone := by
  constructor
  · intro h fqdn n hstray
    -- the least of both kinds is a distance to a root
    have hne : {n | s.RootDistance fqdn n ∨ s.StrayDistance fqdn n}.Nonempty := ⟨n, .inr hstray⟩
    have hleast := (s.rootDepth_eq_some_iff fqdn _).mpr ⟨Nat.sInf_mem hne, fun _ hk => Nat.sInf_le hk⟩
    exact ⟨_, Nat.sInf_le (.inr hstray), ((h.depth fqdn _).mp hleast).1⟩
  · intro h
    have hdepth : ∀ fqdn n, s.rootDepth fqdn = some n ↔ IsLeast {n | s.RootDistance fqdn n} n := by
      intro fqdn n
      rw [rootDepth_eq_some_iff]
      constructor
      · rintro ⟨hmem, hlower⟩
        refine ⟨?_, fun k hk => hlower (.inl hk)⟩
        rcases hmem with hroot | hstray
        · exact hroot
        · obtain ⟨m, hm, hroot⟩ := h fqdn n hstray
          rwa [le_antisymm (hlower (.inl hroot)) hm]
      · rintro ⟨hroot, hlower⟩
        refine ⟨.inl hroot, ?_⟩
        rintro k (hk | hk)
        · exact hlower hk
        · obtain ⟨m, hm, hmroot⟩ := h fqdn k hk
          exact (hlower hmroot).trans hm
    refine ⟨hdepth, fun fqdn peer hblame => ?_⟩
    obtain ⟨peerFqdn, rfl, here, there, hhere, hthere, hne⟩ := depths_of_looseEnd hblame
    exact ⟨peerFqdn, rfl, here, there, (hdepth _ _).mp hhere, (hdepth _ _).mp hthere, hne⟩

/-- A switch two hops below the core in VLAN 10, with the uplink port in VLAN 63 too, which
the switch above does not run. -/
def uplinkOutsideVlan : Snapshot where
  now := 0
  db := ⟨[⟨1, "core", "lan", none, none, none, none, none, none⟩, ⟨2, "dist", "lan", none, none, none, none, none, none⟩,
    ⟨3, "access", "lan", none, none, none, none, none, none⟩], []⟩
  cfg := .default
  imds := .empty
  visited := fun _ => []
  lags := PMap.empty
  stpPorts := [⟨"core.lan", [⟨10, 1, some "Te1", some 1, "designated", "forwarding", 2⟩]⟩,
    ⟨"dist.lan", [⟨10, 1, some "Te1", some 1, "root", "forwarding", 2⟩,
      ⟨10, 2, some "Te2", some 2, "designated", "forwarding", 2⟩]⟩,
    ⟨"access.lan", [⟨10, 1, some "Te1", some 1, "root", "forwarding", 2⟩,
      ⟨63, 1, some "Te1", some 1, "root", "forwarding", 2⟩]⟩].toAList
  stpBridges := PMap.empty
  topology := ⟨fun fqdn =>
    if fqdn = "core.lan" then some ⟨[⟨"Te1", ⟨"Te1", 1, some ⟨"dist.lan", "Te1"⟩⟩⟩].toAList⟩
    else if fqdn = "dist.lan" then some ⟨[⟨"Te1", ⟨"Te1", 1, some ⟨"core.lan", "Te1"⟩⟩⟩,
      ⟨"Te2", ⟨"Te2", 2, some ⟨"access.lan", "Te1"⟩⟩⟩].toAList⟩
    else if fqdn = "access.lan" then some ⟨[⟨"Te1", ⟨"Te1", 1, some ⟨"dist.lan", "Te2"⟩⟩⟩].toAList⟩
    else none⟩
  vlanMembers := PMap.empty
  vlanNames := PMap.empty
  expectedRoots := PMap.empty
  poeBudgets := ∅
  media := fun _ => PMap.empty
  suppressed := []

/-- **A stray at depth 0**: the switch has root ports only. -/
theorem uplinkOutsideVlan_not_trueDepths : ¬uplinkOutsideVlan.TrueDepths := by
  intro h
  have hports : ∀ vlan ∈ uplinkOutsideVlan.vlans, HasRootPort uplinkOutsideVlan.stpInputs vlan "access.lan" := by
    decide +kernel
  obtain ⟨⟨vlan, hvlan, root, hroot, -, hno⟩, -⟩ := (h.depth "access.lan" 0).mp (by decide +kernel)
  cases hroot
  exact hno (hports vlan hvlan)

/-- The access switch is two hops from the core, and its peer is blamed. -/
example : looseEnd "access.lan" (some "dist.lan") uplinkOutsideVlan.rootDepth = " The loose end is most likely " ++
    "at the far end (dist), which sits further from the STP root — but check both." := by decide +kernel

end Snapshot

end JaspyNexus.Routes.Fleet
