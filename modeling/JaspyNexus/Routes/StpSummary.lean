import Mathlib
import JaspyNexus.Lib.HashMap
import JaspyNexus.Lib.LastWrite
import JaspyNexus.Lib.MaxBy
import JaspyNexus.Utilities.StpForest

/-! # The VLANs of the STP page

`stp_summary` of `routes/api/v1.rs`: one line for each VLAN with STP data, with the root that is
resolved without the topology. The tree of the VLAN (`build_stp_tree`) comes to the same figures
the long way. -/

namespace JaspyNexus.Routes.StpSummary
open JaspyNexus.Lib JaspyNexus.Utilities.Stp JaspyNexus.Utilities.StpForest

/-- `ApiStpBridge`. -/
structure Bridge extends StpBridge where
  topologyChanges : Option Int
  deriving DecidableEq, Repr

/-- `ApiStpVlanSummary`. -/
structure VlanSummary where
  vlan : Int
  rootFqdn : Option String
  nodeCount : Nat
  blockedPortCount : Nat
  topologyChanges : Option Int
  timeSinceTopologyChangeSecs : Option Int
  names : List String
  deriving DecidableEq, Repr

/-- What the page reads: `network_stp`, `device_base_macs` and `vlan_names`. -/
structure Sources where
  ports : HashMap String (List StpPort)
  bridges : HashMap String (List Bridge)
  baseMacs : HashMap String (Option String)
  vlanNames : PMap Int (List String)

/-- `elect_majority_mac`: the most votes, and of these the lowest MAC. -/
def electMajorityMac (votes : HashMap String Nat) : Option String :=
  (maxBy (fun e : Sigma fun _ : String => Nat => toLex (e.2, OrderDual.toDual e.1)) votes.entries).map Sigma.fst

namespace Sources
variable (s : Sources) (vlan : Int)

/-- The ports on the VLAN, for the devices that have any. -/
def onVlan : List (String × List StpPort) :=
  s.ports.entries.filterMap fun e =>
    let onVlan := e.2.filter fun p => p.vlan = vlan
    if onVlan.isEmpty then none else some (e.1, onVlan)

def rootCandidates : List String :=
  ((s.onVlan vlan).filter fun e => !e.2.any fun p => p.role = "root").map Prod.fst

def vlanBridges : List Bridge := (HashMap.values s.bridges).flatten.filter fun b => b.vlan = vlan

/-- The root MACs that the devices report. -/
def rootMacs : List String := (s.vlanBridges vlan).filterMap fun b => b.rootMac.map normalizeMac

def votes : HashMap String Nat := (s.rootMacs vlan).foldl (fun votes mac => votes.upsert mac 0 (· + 1)) ∅

/-- `fqdn_by_mac`. -/
def fqdnByMac : HashMap String String :=
  writeAll (fun e : Sigma fun _ : String => Option String => e.2.map fun mac => (normalizeMac mac, e.1))
    s.baseMacs.entries

def elected : Option String := (electMajorityMac (s.votes vlan)).bind fun mac => s.fqdnByMac.lookup mac

/-- The one device without a root port, or else who most bridges take for the root. -/
def rootFqdn : Option String :=
  match s.rootCandidates vlan with
  | [single] => some single
  | _ => s.elected vlan

def summary : VlanSummary where
  vlan := vlan
  rootFqdn := s.rootFqdn vlan
  nodeCount := (s.onVlan vlan).length
  blockedPortCount :=
    ((s.onVlan vlan).map fun e => (e.2.filter fun p => p.role = "alternate" || p.role = "backUp").length).sum
  topologyChanges := ((s.vlanBridges vlan).filterMap Bridge.topologyChanges).max?
  timeSinceTopologyChangeSecs := ((s.vlanBridges vlan).filterMap fun b => b.timeSinceTopologyChangeSecs).min?
  names := PMap.getD s.vlanNames vlan []

/-- The VLANs of all ports, in order. -/
def vlans : List Int := (((HashMap.values s.ports).flatten.map StpPort.vlan).dedup).insertionSort (· ≤ ·)

/-- `stp_summary`. -/
def stpSummary : List VlanSummary := s.vlans.map s.summary

/-- What the tree of a VLAN is built of. -/
def stpInputs (topology : WeathermapBase) (lagMembers : PMap String (HashMap Int (List Int)))
    (vlanMembers : PMap String (PMap Int (Option Int × List Int))) : StpInputs where
  ports := s.ports
  bridges fqdn := (s.bridges.lookup fqdn).map fun bridges => bridges.map Bridge.toStpBridge
  baseMacs := s.baseMacs
  topology := topology
  lagMembers := lagMembers
  vlanMembers := vlanMembers

/-! ## What the election decides -/

/-- More votes, or as many and a MAC that is not higher. -/
def Wins (macs : List String) (mac other : String) : Prop :=
  macs.count other < macs.count mac ∨ macs.count other = macs.count mac ∧ mac ≤ other

theorem lookup_votes (macs : List String) (mac : String) :
    (macs.foldl (fun votes mac => votes.upsert mac 0 (· + 1)) (∅ : HashMap String Nat)).lookup mac =
      if mac ∈ macs then some (macs.count mac) else none := by
  induction macs using List.reverseRecOn with
  | nil => rfl
  | append_singleton macs last ih =>
    rw [List.foldl_append, List.foldl_cons, List.foldl_nil, HashMap.upsert]
    by_cases hlast : mac = last
    · subst hlast
      rw [AList.lookup_insert, ih]
      by_cases hmem : mac ∈ macs
      · simp [hmem]
      · simp [hmem, List.count_eq_zero_of_not_mem hmem]
    · rw [AList.lookup_insert_ne hlast, ih]
      simp [hlast, List.count_append, Ne.symm hlast]

/-- **The election** has one winner, whichever order the votes are counted in. -/
theorem electMajorityMac_eq_some_iff {macs : List String} {mac : String} :
    electMajorityMac (macs.foldl (fun votes mac => votes.upsert mac 0 (· + 1)) ∅) = some mac ↔
      mac ∈ macs ∧ ∀ other ∈ macs, Wins macs mac other := by
  have hentry : ∀ {e : Sigma fun _ : String => Nat},
      e ∈ (macs.foldl (fun votes mac => votes.upsert mac 0 (· + 1)) (∅ : HashMap String Nat)).entries ↔
        e.1 ∈ macs ∧ e.2 = macs.count e.1 := by
    intro e
    rw [← AList.mem_lookup_iff, lookup_votes, Option.mem_def]
    by_cases hmem : e.1 ∈ macs
    · simp [hmem, eq_comm]
    · simp [hmem]
  unfold electMajorityMac
  rw [Option.map_eq_some_iff]
  have hinj : ∀ a b : Sigma fun _ : String => Nat,
      toLex (a.2, OrderDual.toDual a.1) = toLex (b.2, OrderDual.toDual b.1) → a = b := by
    intro a b hab
    have hpair : (a.2, OrderDual.toDual a.1) = (b.2, OrderDual.toDual b.1) := toLex.injective hab
    obtain ⟨hcount, hmac⟩ := Prod.mk.inj hpair
    exact Sigma.ext (OrderDual.toDual.injective hmac) (heq_of_eq hcount)
  constructor
  · rintro ⟨e, he, rfl⟩
    obtain ⟨hmem, hmax⟩ := (maxBy_eq_some_iff fun a _ b _ => hinj a b).mp he
    obtain ⟨hmac, hcount⟩ := hentry.mp hmem
    refine ⟨hmac, fun other hother => ?_⟩
    have hle := hmax ⟨other, macs.count other⟩ (hentry.mpr ⟨hother, rfl⟩)
    rw [Prod.Lex.toLex_le_toLex, hcount] at hle
    exact hle
  · rintro ⟨hmac, hwins⟩
    refine ⟨⟨mac, macs.count mac⟩, (maxBy_eq_some_iff fun a _ b _ => hinj a b).mpr
      ⟨hentry.mpr ⟨hmac, rfl⟩, fun other hother => ?_⟩, rfl⟩
    obtain ⟨hmem, hcount⟩ := hentry.mp hother
    rw [Prod.Lex.toLex_le_toLex, hcount]
    exact hwins other.1 hmem

/-! ## The line and the tree of a VLAN -/

variable {s} {vlan : Int} (topology : WeathermapBase) (lagMembers : PMap String (HashMap Int (List Int)))
  (vlanMembers : PMap String (PMap Int (Option Int × List Int)))

theorem roots_demote (info : Info) (cycleNodes : List String) : (info.demote cycleNodes).roots = info.roots := by
  unfold Info.roots Info.demote
  induction info with
  | nil => rfl
  | cons e rest ih =>
    rw [List.map_cons, List.filter_cons, List.filter_cons]
    by_cases hc : e.1 ∈ cycleNodes
    · rw [if_pos hc]
      dsimp only
      split
      · rw [List.map_cons, List.map_cons, ih]
      · exact ih
    · rw [if_neg hc]
      split
      · rw [List.map_cons, List.map_cons, ih]
      · exact ih

theorem tree_eq {fuel : Nat} {inputs : StpInputs} {tree : StpTree} (h : buildStpTree fuel inputs vlan = some tree) :
    tree.roots = (buildInfo inputs vlan).roots ∧ tree.blockedLinks = blockedLinks inputs vlan := by
  unfold buildStpTree at h
  dsimp only at h
  obtain ⟨⟨flags, cycleNodes⟩, -, h⟩ := Option.bind_eq_some_iff.mp h
  obtain ⟨emitted, -, rfl⟩ := Option.map_eq_some_iff.mp h
  exact ⟨roots_demote _ _, rfl⟩

theorem vlanPorts_perm : (vlanPorts (s.stpInputs topology lagMembers vlanMembers) vlan).Perm (s.onVlan vlan) :=
  List.perm_insertionSort _ _

/-- The candidates are the roots of the tree. -/
theorem roots_perm :
    (buildInfo (s.stpInputs topology lagMembers vlanMembers) vlan).roots.Perm (s.rootCandidates vlan) := by
  have hroots : (buildInfo (s.stpInputs topology lagMembers vlanMembers) vlan).roots =
      ((vlanPorts (s.stpInputs topology lagMembers vlanMembers) vlan).filter
        fun e => !e.2.any fun p => p.role = "root").map Prod.fst := by
    unfold Info.roots buildInfo
    dsimp only
    rw [List.filter_map, List.map_map]
    refine congrArg (List.map Prod.fst) (List.filter_congr fun e _ => ?_)
    have hhead : (rootPorts e.2).head? = none ↔ ∀ p ∈ e.2, p.role ≠ "root" := by
      rw [List.head?_eq_none_iff, ← List.length_eq_zero_iff, rootPorts, List.length_insertionSort,
        List.length_eq_zero_iff, List.filter_eq_nil_iff]
      simp
    have hport : (nodeInfo (s.stpInputs topology lagMembers vlanMembers)
        ((vlanPorts (s.stpInputs topology lagMembers vlanMembers) vlan).map Prod.fst) e.1 e.2).rootPort =
        (rootPorts e.2).head? := by
      unfold nodeInfo
      cases (rootPorts e.2).head? with
      | none => rfl
      | some port =>
        dsimp only
        split
        · split <;> rfl
        · rfl
    rw [Function.comp_apply, Bool.eq_iff_iff]
    dsimp only
    rw [hport, Option.isNone_iff_eq_none, hhead]
    simp
  rw [hroots]
  exact ((vlanPorts_perm topology lagMembers vlanMembers).filter _).map _

theorem rootFqdn_eq : (∀ root, s.rootCandidates vlan = [root] → s.rootFqdn vlan = some root) ∧
    ((s.rootCandidates vlan).length ≠ 1 → s.rootFqdn vlan = s.elected vlan) := by
  unfold rootFqdn
  constructor
  · intro root hroot
    rw [hroot]
  · intro hlength
    split
    · next single hsingle =>
      rw [hsingle] at hlength
      exact absurd rfl hlength
    · rfl

theorem length_blockedLinks : (blockedLinks (s.stpInputs topology lagMembers vlanMembers) vlan).length =
    (s.summary vlan).blockedPortCount := by
  unfold blockedLinks summary
  simp only [List.length_flatMap, List.length_map]
  exact ((vlanPorts_perm topology lagMembers vlanMembers).map _).sum_eq

theorem mem_vlans : vlan ∈ s.vlans ↔ ∃ fqdn, OnVlan (s.stpInputs topology lagMembers vlanMembers) vlan fqdn := by
  unfold vlans OnVlan portsOn
  rw [List.mem_insertionSort, List.mem_dedup, List.mem_map]
  constructor
  · rintro ⟨p, hp, rfl⟩
    obtain ⟨ports, hports, hp⟩ := List.mem_flatten.mp hp
    obtain ⟨fqdn, hfqdn⟩ := HashMap.mem_values.mp hports
    refine ⟨fqdn, List.ne_nil_of_mem (a := p) ?_⟩
    rw [show (s.stpInputs topology lagMembers vlanMembers).ports.lookup fqdn = some ports from hfqdn]
    exact List.mem_filter.mpr ⟨hp, by simp⟩
  · rintro ⟨fqdn, hne⟩
    obtain ⟨p, hp⟩ := List.exists_mem_of_ne_nil _ hne
    obtain ⟨hp, hvlan⟩ := List.mem_filter.mp hp
    cases hports : s.ports.lookup fqdn with
    | none =>
      rw [show (s.stpInputs topology lagMembers vlanMembers).ports.lookup fqdn = none from hports] at hp
      cases hp
    | some ports =>
      rw [show (s.stpInputs topology lagMembers vlanMembers).ports.lookup fqdn = some ports from hports] at hp
      exact ⟨p, List.mem_flatten.mpr ⟨ports, HashMap.mem_values.mpr ⟨fqdn, hports⟩, hp⟩, of_decide_eq_true hvlan⟩

/-- **The lines agree with the trees.** There is one for each VLAN that a tree has a node on, in
order; it counts the nodes and the blocked links of the tree, and names its root where there is
one; where there are more or none, the device whose MAC is elected. -/
theorem stpSummary_agrees (s : Sources) (extra : Nat) :
    (∀ vlan, vlan ∈ s.stpSummary.map VlanSummary.vlan ↔
      ∃ fqdn, OnVlan (s.stpInputs topology lagMembers vlanMembers) vlan fqdn) ∧
    (s.stpSummary.map VlanSummary.vlan).Pairwise (· < ·) ∧
    ∀ line ∈ s.stpSummary, ∃ tree, buildStpTree (s.ports.entries.length + 2 + extra)
        (s.stpInputs topology lagMembers vlanMembers) line.vlan = some tree ∧
      line.nodeCount = tree.nodes.length ∧ line.blockedPortCount = tree.blockedLinks.length ∧
      (∀ root, tree.roots = [root] → line.rootFqdn = some root) ∧
      (tree.roots.length ≠ 1 → line.rootFqdn = s.elected line.vlan) := by
  have hvlans : s.stpSummary.map VlanSummary.vlan = s.vlans := by
    unfold stpSummary
    rw [List.map_map]
    exact List.map_id _
  refine ⟨fun vlan => by rw [hvlans]; exact mem_vlans topology lagMembers vlanMembers, ?_, fun line hline => ?_⟩
  · rw [hvlans]
    have hsorted : s.vlans.Pairwise (· ≤ ·) := List.pairwise_insertionSort _ _
    have hnodup : s.vlans.Nodup := ((List.perm_insertionSort _ _).nodup_iff).mpr (List.nodup_dedup _)
    exact (hsorted.and hnodup).imp fun h => lt_of_le_of_ne h.1 h.2
  · obtain ⟨vlan, -, rfl⟩ := List.mem_map.mp hline
    obtain ⟨tree, htree, hforest⟩ := buildStpTree_isForest (s.stpInputs topology lagMembers vlanMembers) vlan
      (s.ports.entries.length + 2 + extra) (Nat.le_add_right _ _)
    obtain ⟨hroots, hblocked⟩ := tree_eq htree
    have hperm : (buildInfo (s.stpInputs topology lagMembers vlanMembers) vlan).roots.Perm (s.rootCandidates vlan) :=
      roots_perm topology lagMembers vlanMembers
    refine ⟨tree, htree, ?_, ?_, fun root hroot => ?_, fun hlength => ?_⟩
    · -- both list the devices of the VLAN once
      have hnodes : (tree.nodes.map StpNode.fqdn).Perm (nodes (s.stpInputs topology lagMembers vlanMembers) vlan) :=
        (List.perm_ext_iff_of_nodup hforest.nodup (nodes_nodup _ _)).mpr fun fqdn => by
          rw [hforest.covers, mem_nodes]
      have hlength := hnodes.length_eq
      rw [List.length_map, nodes, List.length_map,
        (vlanPorts_perm topology lagMembers vlanMembers).length_eq] at hlength
      exact hlength.symm
    · rw [hblocked]
      exact (length_blockedLinks topology lagMembers vlanMembers).symm
    · rw [hroots] at hroot
      rw [hroot] at hperm
      exact rootFqdn_eq.1 root hperm.symm.eq_singleton
    · rw [hroots, hperm.length_eq] at hlength
      exact rootFqdn_eq.2 hlength

/-! ## The order of the maps -/

/-- The same data, in maps that are visited in other orders. -/
structure Reorders (s s' : Sources) : Prop where
  ports : HashMap.Reorders s.ports s'.ports
  bridges : HashMap.Reorders s.bridges s'.bridges
  baseMacs : HashMap.Reorders s.baseMacs s'.baseMacs
  vlanNames : s.vlanNames = s'.vlanNames

/-- The device was discovered with this MAC. -/
def HasMac (s : Sources) (fqdn mac : String) : Prop :=
  ∃ written, s.baseMacs.lookup fqdn = some (some written) ∧ normalizeMac written = mac

/-- The election of a VLAN is won by a MAC that two devices have. -/
def Disputed (s : Sources) (vlan : Int) : Prop :=
  (s.rootCandidates vlan).length ≠ 1 ∧ ∃ mac, electMajorityMac (s.votes vlan) = some mac ∧
    ∃ f g, s.HasMac f mac ∧ s.HasMac g mac ∧ f ≠ g

theorem max?_perm {l l' : List Int} (h : l.Perm l') : l.max? = l'.max? := by
  refine Option.ext fun a => ?_
  rw [List.max?_eq_some_iff, List.max?_eq_some_iff, h.mem_iff]
  simp only [h.mem_iff]

theorem min?_perm {l l' : List Int} (h : l.Perm l') : l.min? = l'.min? := by
  refine Option.ext fun a => ?_
  rw [List.min?_eq_some_iff, List.min?_eq_some_iff, h.mem_iff]
  simp only [h.mem_iff]

/-- The devices with a MAC, in the order they are visited in. -/
def holders (s : Sources) (mac : String) : List String :=
  s.baseMacs.entries.filterMap (sayOf
    (fun e : Sigma fun _ : String => Option String => e.2.map fun mac => (normalizeMac mac, e.1)) mac)

theorem sayOf_holder {mac fqdn : String} {e : Sigma fun _ : String => Option String} :
    sayOf (fun e : Sigma fun _ : String => Option String => e.2.map fun mac => (normalizeMac mac, e.1)) mac e =
      some fqdn ↔ ∃ written, e = ⟨fqdn, some written⟩ ∧ normalizeMac written = mac := by
  rw [sayOf_eq_some_iff]
  obtain ⟨name, written⟩ := e
  cases written with
  | none => simp
  | some written =>
    simp only [Option.map_some, Option.some.injEq, Prod.mk.injEq, Sigma.mk.injEq, heq_eq_eq]
    constructor
    · rintro ⟨hmac, rfl⟩
      exact ⟨written, ⟨rfl, rfl⟩, hmac⟩
    · rintro ⟨written', ⟨rfl, rfl⟩, hmac⟩
      exact ⟨hmac, rfl⟩

theorem mem_holders {mac fqdn : String} : fqdn ∈ s.holders mac ↔ s.HasMac fqdn mac := by
  unfold holders HasMac
  rw [List.mem_filterMap]
  constructor
  · rintro ⟨e, he, hfqdn⟩
    obtain ⟨written, rfl, hmac⟩ := sayOf_holder.mp hfqdn
    exact ⟨written, HashMap.mem_entries.mp he, hmac⟩
  · rintro ⟨written, hlookup, hmac⟩
    exact ⟨_, HashMap.mem_entries.mpr hlookup, sayOf_holder.mpr ⟨written, rfl, hmac⟩⟩

theorem nodup_holders (s : Sources) (mac : String) : (s.holders mac).Nodup := by
  have hkeys : (s.baseMacs.entries.map Sigma.fst).Nodup := s.baseMacs.nodupKeys
  refine hkeys.sublist ?_
  unfold holders
  induction s.baseMacs.entries with
  | nil => exact .slnil
  | cons e rest ih =>
    rw [List.filterMap_cons, List.map_cons]
    split
    · exact ih.cons _
    · next fqdn hfqdn =>
      obtain ⟨written, rfl, -⟩ := sayOf_holder.mp hfqdn
      exact ih.cons_cons _

theorem lookup_fqdnByMac (s : Sources) (mac : String) : s.fqdnByMac.lookup mac = (s.holders mac).getLast? :=
  lookup_writeAll _ _ _

theorem Reorders.vlanBridges {s' : Sources} (h : s.Reorders s') (vlan : Int) :
    (s.vlanBridges vlan).Perm (s'.vlanBridges vlan) := h.bridges.values.flatten.filter _

theorem Reorders.onVlan {s' : Sources} (h : s.Reorders s') (vlan : Int) :
    (s.onVlan vlan).Perm (s'.onVlan vlan) := h.ports.filterMap _

/-- The election does not depend on the order. -/
theorem Reorders.electMajorityMac {s' : Sources} (h : s.Reorders s') (vlan : Int) :
    StpSummary.electMajorityMac (s.votes vlan) = StpSummary.electMajorityMac (s'.votes vlan) := by
  have hmacs : (s.rootMacs vlan).Perm (s'.rootMacs vlan) := (h.vlanBridges vlan).filterMap _
  refine Option.ext fun mac => ?_
  unfold votes
  rw [electMajorityMac_eq_some_iff, electMajorityMac_eq_some_iff, hmacs.mem_iff]
  simp only [Wins, hmacs.mem_iff, hmacs.count_eq]

theorem Reorders.vlans {s' : Sources} (h : s.Reorders s') : s.vlans = s'.vlans := by
  have hperm := (h.ports.values.flatten.map StpPort.vlan).dedup
  have hsorted : ∀ l : List Int, (l.insertionSort (· ≤ ·)).Pairwise (· ≤ ·) := List.pairwise_insertionSort _
  unfold Sources.vlans
  refine List.Perm.eq_of_pairwise (fun a b _ _ => le_antisymm) (hsorted _) (hsorted _) ?_
  exact (List.perm_insertionSort _ _).trans (hperm.trans (List.perm_insertionSort _ _).symm)

/-- A line whose election is not disputed is the same in any order. -/
theorem Reorders.summary {s' : Sources} (h : s.Reorders s') {vlan : Int} (hsettled : ¬s.Disputed vlan) :
    s'.summary vlan = s.summary vlan := by
  have hon := h.onVlan vlan
  have hbridges := h.vlanBridges vlan
  have hcandidates : (s.rootCandidates vlan).Perm (s'.rootCandidates vlan) := (hon.filter _).map _
  have hroot : s'.rootFqdn vlan = s.rootFqdn vlan := by
    by_cases hone : (s.rootCandidates vlan).length = 1
    · obtain ⟨root, hroot⟩ := List.length_eq_one_iff.mp hone
      rw [hroot] at hcandidates
      rw [rootFqdn_eq.1 root hroot, rootFqdn_eq.1 root hcandidates.symm.eq_singleton]
    · rw [rootFqdn_eq.2 hone, rootFqdn_eq.2 (by rwa [hcandidates.length_eq] at hone)]
      unfold elected
      rw [← h.electMajorityMac]
      cases hmac : StpSummary.electMajorityMac (s.votes vlan) with
      | none => rfl
      | some mac =>
        rw [Option.bind_some, Option.bind_some, lookup_fqdnByMac, lookup_fqdnByMac]
        have hholders : (s.holders mac).Perm (s'.holders mac) := h.baseMacs.filterMap _
        -- one device has the MAC at most
        have hshort : (s.holders mac).length ≤ 1 := by
          by_contra hlong
          obtain ⟨f, g, rest, hlist⟩ : ∃ f g rest, s.holders mac = f :: g :: rest := by
            rcases hcase : s.holders mac with _ | ⟨f, _ | ⟨g, rest⟩⟩
            · rw [hcase] at hlong
              exact absurd (Nat.zero_le 1) hlong
            · rw [hcase] at hlong
              exact absurd le_rfl hlong
            · exact ⟨f, g, rest, rfl⟩
          have hnodup := s.nodup_holders mac
          rw [hlist, List.nodup_cons] at hnodup
          refine hsettled ⟨hone, mac, hmac, f, g, mem_holders.mp (by rw [hlist]; exact List.mem_cons_self),
            mem_holders.mp (by rw [hlist]; exact List.mem_cons_of_mem _ List.mem_cons_self), fun heq => ?_⟩
          exact hnodup.1 (heq ▸ List.mem_cons_self)
        rcases hcase : s.holders mac with _ | ⟨f, _ | ⟨g, rest⟩⟩
        · rw [hcase] at hholders
          rw [hholders.symm.eq_nil]
        · rw [hcase] at hholders
          rw [hholders.symm.eq_singleton]
        · rw [hcase] at hshort
          exact absurd hshort (by simp)
  unfold Sources.summary
  simp only [VlanSummary.mk.injEq, true_and]
  exact ⟨hroot, hon.length_eq.symm, ((hon.map _).sum_eq).symm, (max?_perm (hbridges.filterMap _)).symm,
    (min?_perm (hbridges.filterMap _)).symm, by rw [h.vlanNames]⟩

/-- The devices are visited the other way round. -/
def reversed (s : Sources) : Sources :=
  { s with baseMacs := ⟨s.baseMacs.entries.reverse, by
      show (List.map Sigma.fst _).Nodup
      rw [List.map_reverse, List.nodup_reverse]
      exact s.baseMacs.nodupKeys⟩ }

theorem reorders_reversed (s : Sources) : s.Reorders s.reversed :=
  ⟨HashMap.Reorders.refl _, HashMap.Reorders.refl _, (List.reverse_perm _).symm, rfl⟩

theorem holders_reversed (s : Sources) (mac : String) : s.reversed.holders mac = (s.holders mac).reverse :=
  List.filterMap_reverse

/-- **The page is the same on every call**, whichever order the maps are visited in, exactly when
no VLAN's election is won by a MAC that two devices were discovered with. -/
theorem stpSummary_order_iff (s : Sources) :
    (∀ s', s.Reorders s' → s'.stpSummary = s.stpSummary) ↔ ∀ vlan ∈ s.vlans, ¬s.Disputed vlan := by
  constructor
  · rintro hsame vlan hvlan ⟨hone, mac, hmac, f, g, hf, hg, hne⟩
    have hlines := hsame s.reversed s.reorders_reversed
    unfold stpSummary at hlines
    rw [← s.reorders_reversed.vlans] at hlines
    have hline : s.reversed.summary vlan = s.summary vlan := List.map_inj_left.mp hlines vlan hvlan
    have hroot : s.reversed.rootFqdn vlan = s.rootFqdn vlan := congrArg VlanSummary.rootFqdn hline
    have hcandidates : (s.rootCandidates vlan).Perm (s.reversed.rootCandidates vlan) :=
      ((s.reorders_reversed.onVlan vlan).filter _).map _
    rw [rootFqdn_eq.2 hone, rootFqdn_eq.2 (by rwa [hcandidates.length_eq] at hone)] at hroot
    unfold elected at hroot
    rw [← s.reorders_reversed.electMajorityMac, hmac, Option.bind_some, Option.bind_some, lookup_fqdnByMac,
      lookup_fqdnByMac, holders_reversed, List.getLast?_reverse] at hroot
    -- the first holder would be the last
    have hnodup := s.nodup_holders mac
    have hf := mem_holders.mpr hf
    have hg := mem_holders.mpr hg
    cases hlist : s.holders mac with
    | nil =>
      rw [hlist] at hf
      cases hf
    | cons first rest =>
      rw [hlist] at hroot hnodup hf hg
      rw [List.head?_cons] at hroot
      cases hrest : rest.getLast? with
      | none =>
        rw [List.getLast?_eq_none_iff.mp hrest, List.mem_singleton] at hf hg
        exact hne (hf.trans hg.symm)
      | some last =>
        rw [List.getLast?_cons, hrest, Option.getD_some] at hroot
        obtain rfl := Option.some.inj hroot
        exact (List.nodup_cons.mp hnodup).1 (List.mem_of_getLast? hrest)
  · intro hsettled s' h
    unfold stpSummary
    rw [← h.vlans]
    exact List.map_congr_left fun vlan hvlan => h.summary (hsettled vlan hvlan)

end Sources

end JaspyNexus.Routes.StpSummary
