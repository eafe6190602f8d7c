import JaspyNexus.Utilities.Stp

/-! # The spanning tree is a forest

Whatever the devices report, the resolved root ports are a partial parent
function on the devices of the VLAN (`upstream`). `cycleGuard` finds its cycles
(`Lib.ParentGraph.findCycles_spec`), `demote` cuts them, and the emission visits
what is left once each (`Lib.ParentGraph.preorderAll_spec`). -/

namespace JaspyNexus.Utilities.StpForest
open JaspyNexus.Lib JaspyNexus.Lib.ParentGraph JaspyNexus.Utilities.Stp

variable {inputs : StpInputs} {vlan : Int}

/-! ## What the inputs say -/

/-- The device's ports on the VLAN. -/
def portsOn (inputs : StpInputs) (vlan : Int) (fqdn : String) : List StpPort :=
  ((inputs.ports.lookup fqdn).getD []).filter fun p => p.vlan = vlan

/-- The device has a port on the VLAN. -/
def OnVlan (inputs : StpInputs) (vlan : Int) (fqdn : String) : Prop :=
  portsOn inputs vlan fqdn ≠ []

/-- The device has a port with role "root" on the VLAN. -/
def HasRootPort (inputs : StpInputs) (vlan : Int) (fqdn : String) : Prop :=
  ∃ p ∈ portsOn inputs vlan fqdn, p.role = "root"

/-- The device of the tree that the chosen root port resolves to. -/
def upstream (inputs : StpInputs) (vlan : Int) (fqdn : String) : Option String :=
  (rootPorts (portsOn inputs vlan fqdn)).head?.bind fun port =>
    (stpPortConnectedTo inputs fqdn port.interfaceId).bind fun connection =>
      if portsOn inputs vlan connection.fqdn = [] then none else some connection.fqdn

/-- The devices of the tree, in order. -/
def nodes (inputs : StpInputs) (vlan : Int) : List String := (vlanPorts inputs vlan).map Prod.fst

theorem hasRootPort_iff {fqdn : String} :
    HasRootPort inputs vlan fqdn ↔
      (rootPorts (portsOn inputs vlan fqdn)).head?.isSome = true := by
  have hnil : rootPorts (portsOn inputs vlan fqdn) = [] ↔
      (portsOn inputs vlan fqdn).filter (fun p => p.role = "root") = [] := by
    rw [← List.length_eq_zero_iff, ← List.length_eq_zero_iff, rootPorts,
      List.length_insertionSort]
  rw [List.isSome_head?, ← not_iff_not]
  simp [HasRootPort, hnil, List.filter_eq_nil_iff]

/-! ## The node list -/

theorem mem_vlanPorts {fqdn : String} {ports : List StpPort} :
    (fqdn, ports) ∈ vlanPorts inputs vlan ↔ ports = portsOn inputs vlan fqdn ∧ ports ≠ [] := by
  unfold vlanPorts
  rw [List.mem_insertionSort, List.mem_filterMap]
  constructor
  · rintro ⟨e, he, h⟩
    dsimp only at h
    split at h
    · cases h
    · next hne =>
      cases h
      have hlookup : inputs.ports.lookup e.1 = some e.2 := AList.mem_lookup_iff.mpr he
      exact ⟨by simp [portsOn, hlookup], by simpa using hne⟩
  · rintro ⟨rfl, hne⟩
    cases hlookup : inputs.ports.lookup fqdn with
    | none => simp [portsOn, hlookup] at hne
    | some all =>
      refine ⟨⟨fqdn, all⟩, AList.mem_lookup_iff.mp hlookup, ?_⟩
      have hports : portsOn inputs vlan fqdn = all.filter fun p => p.vlan = vlan := by
        simp [portsOn, hlookup]
      rw [hports] at hne ⊢
      simp only [List.isEmpty_iff, if_neg hne]

theorem nodes_nodup (inputs : StpInputs) (vlan : Int) : (nodes inputs vlan).Nodup := by
  have hperm := List.perm_insertionSort (fun a b : String × List StpPort => a.1 ≤ b.1)
    (inputs.ports.entries.filterMap fun e =>
      let onVlan := e.2.filter fun p => p.vlan = vlan
      if onVlan.isEmpty then none else some (e.1, onVlan))
  refine ((hperm.map Prod.fst).nodup_iff).mpr ?_
  have hkeys : (inputs.ports.entries.map Sigma.fst).Nodup := inputs.ports.nodupKeys
  refine hkeys.sublist ?_
  induction inputs.ports.entries with
  | nil => exact .slnil
  | cons e rest ih =>
    rw [List.filterMap_cons]
    dsimp only
    split
    · next h => exact (List.map_cons ▸ ih.cons _)
    · next h =>
      split at h
      · cases h
      · cases h
        exact ih.cons_cons _

theorem mem_nodes {fqdn : String} : fqdn ∈ nodes inputs vlan ↔ OnVlan inputs vlan fqdn := by
  unfold nodes OnVlan
  constructor
  · intro h
    obtain ⟨⟨d, ports⟩, he, rfl⟩ := List.mem_map.mp h
    obtain ⟨rfl, hne⟩ := mem_vlanPorts.mp he
    exact hne
  · intro h
    exact List.mem_map.mpr ⟨(fqdn, portsOn inputs vlan fqdn), mem_vlanPorts.mpr ⟨rfl, h⟩, rfl⟩

theorem nodes_length_le (inputs : StpInputs) (vlan : Int) :
    (nodes inputs vlan).length ≤ inputs.ports.entries.length := by
  unfold nodes vlanPorts
  rw [List.length_map, List.length_insertionSort]
  exact List.length_filterMap_le _ _

/-! ## The parents -/

theorem keys_buildInfo : (buildInfo inputs vlan).map Prod.fst = nodes inputs vlan := by
  simp [buildInfo, nodes, Function.comp_def]

/-- The entry of a device, if it is on the VLAN. -/
theorem lookup_buildInfo (fqdn : String) : (buildInfo inputs vlan).lookup fqdn =
    if portsOn inputs vlan fqdn = [] then none
    else some (nodeInfo inputs (nodes inputs vlan) fqdn (portsOn inputs vlan fqdn)) := by
  have hmap : (buildInfo inputs vlan).lookup fqdn =
      ((vlanPorts inputs vlan).lookup fqdn).map (nodeInfo inputs (nodes inputs vlan) fqdn) :=
    lookup_map_value _ _ _
  rw [hmap]
  split
  · next hnil =>
    have hnone : (vlanPorts inputs vlan).lookup fqdn = none := by
      cases h : (vlanPorts inputs vlan).lookup fqdn with
      | none => rfl
      | some ports =>
        have := (lookup_eq_some_iff_mem (nodes_nodup inputs vlan)).mp h
        obtain ⟨rfl, hne⟩ := mem_vlanPorts.mp this
        exact absurd hnil hne
    rw [hnone]
    rfl
  · next hne =>
    have hsome : (vlanPorts inputs vlan).lookup fqdn = some (portsOn inputs vlan fqdn) :=
      (lookup_eq_some_iff_mem (nodes_nodup inputs vlan)).mpr (mem_vlanPorts.mpr ⟨rfl, hne⟩)
    rw [hsome]
    rfl

/-- A node's parent is its upstream device, and without one it is an orphan if it
has a root port. -/
theorem nodeInfo_spec (inputs : StpInputs) (vlan : Int) (fqdn : String) :
    (nodeInfo inputs (nodes inputs vlan) fqdn (portsOn inputs vlan fqdn)).rootPort =
      (rootPorts (portsOn inputs vlan fqdn)).head? ∧
    (nodeInfo inputs (nodes inputs vlan) fqdn (portsOn inputs vlan fqdn)).parent.map
      InterfaceConnection.fqdn = upstream inputs vlan fqdn ∧
    ((nodeInfo inputs (nodes inputs vlan) fqdn (portsOn inputs vlan fqdn)).orphan = true ↔
      HasRootPort inputs vlan fqdn ∧ upstream inputs vlan fqdn = none) := by
  rw [hasRootPort_iff]
  unfold nodeInfo upstream
  cases hroot : (rootPorts (portsOn inputs vlan fqdn)).head? with
  | none => simp
  | some port =>
    cases hconn : stpPortConnectedTo inputs fqdn port.interfaceId with
    | none => simp [hconn]
    | some connection =>
      have hmem : connection.fqdn ∈ nodes inputs vlan ↔ OnVlan inputs vlan connection.fqdn := mem_nodes
      unfold OnVlan at hmem
      by_cases hin : portsOn inputs vlan connection.fqdn = []
      · have hout : connection.fqdn ∉ nodes inputs vlan := fun h => hmem.mp h hin
        simp [hconn, hin, hout]
      · simp [hconn, hin, hmem.mpr hin]

theorem upstream_onVlan {fqdn parent : String} (h : upstream inputs vlan fqdn = some parent) :
    OnVlan inputs vlan fqdn ∧ OnVlan inputs vlan parent := by
  obtain ⟨port, hport, h⟩ := Option.bind_eq_some_iff.mp h
  obtain ⟨connection, _, h⟩ := Option.bind_eq_some_iff.mp h
  split at h
  · cases h
  · next hne =>
    cases h
    refine ⟨?_, hne⟩
    intro hnil
    rw [hnil] at hport
    cases hport

/-- **The parents of the code are the upstream devices.** -/
theorem up_buildInfo : (buildInfo inputs vlan).up = upstream inputs vlan := by
  funext fqdn
  unfold Info.up
  rw [keys_buildInfo, lookup_buildInfo]
  obtain ⟨-, hparent, -⟩ := nodeInfo_spec inputs vlan fqdn
  split
  · next hnil =>
    symm
    rw [Option.bind_none, Option.eq_none_iff_forall_ne_some]
    intro parent h
    exact (upstream_onVlan h).1 hnil
  · rw [Option.bind_some]
    cases hp : (nodeInfo inputs (nodes inputs vlan) fqdn (portsOn inputs vlan fqdn)).parent with
    | none => rw [← hparent, hp]; rfl
    | some parent =>
      rw [hp, Option.map_some] at hparent
      have hmem := mem_nodes.mpr (upstream_onVlan hparent.symm).2
      rw [← hparent, Option.bind_some, List.find?_eq_some_iff_append]
      obtain ⟨pre, post, hsplit⟩ := List.append_of_mem hmem
      refine ⟨by simp, pre, post, hsplit, fun d hd => ?_⟩
      have hnd := nodes_nodup inputs vlan
      rw [hsplit, List.nodup_append] at hnd
      simpa using hnd.2.2 d hd parent.fqdn List.mem_cons_self

theorem keys_demote (info : Info) (cycleNodes : List String) :
    (info.demote cycleNodes).map Prod.fst = info.map Prod.fst := by
  unfold Info.demote
  rw [List.map_map]
  refine List.map_congr_left fun e _ => ?_
  simp only [Function.comp_apply]
  split <;> rfl

theorem lookup_demote (info : Info) (cycleNodes : List String) (fqdn : String) :
    (info.demote cycleNodes).lookup fqdn = (info.lookup fqdn).map fun node =>
      if fqdn ∈ cycleNodes then { node with parent := none, orphan := true } else node := by
  have hmap : info.demote cycleNodes = info.map fun e => (e.1,
      if e.1 ∈ cycleNodes then { e.2 with parent := none, orphan := true } else e.2) := by
    refine List.map_congr_left fun e _ => ?_
    split <;> rfl
  rw [hmap]
  exact lookup_map_value (fun fqdn node =>
    if fqdn ∈ cycleNodes then { node with parent := none, orphan := true } else node) info fqdn

/-- Demoting the members of the cycles cuts the graph there. -/
theorem up_demote (info : Info) (cycleNodes : List String) :
    (info.demote cycleNodes).up = cut info.up cycleNodes := by
  funext fqdn
  unfold Info.up cut
  rw [keys_demote, lookup_demote]
  by_cases hin : fqdn ∈ cycleNodes
  · simp only [if_pos hin]
    cases info.lookup fqdn <;> rfl
  · simp only [if_neg hin, Option.map_id']

/-! ## The cycle guard -/

/-- The guard is the search for cycles, and raises its flag when it meets one. -/
theorem cycleGuard_spec (info : Info) (fuel : Nat) :
    ∀ (starts flags seen : List String), ("cycle" ∈ flags ↔ seen ≠ []) →
      ∀ out, findCycles info.up fuel starts seen = some out →
      ∃ flags', cycleGuard info fuel starts (flags, seen) = some (flags', out) ∧
        ("cycle" ∈ flags' ↔ out ≠ []) := by
  intro starts
  induction starts with
  | nil => intro flags seen hflag out h; cases h; exact ⟨flags, rfl, hflag⟩
  | cons start rest ih =>
    intro flags seen hflag out h
    obtain ⟨members, hm, h⟩ := Option.bind_eq_some_iff.mp h
    rw [cycleGuard, hm, Option.bind_some]
    refine ih _ _ ?_ out h
    cases members with
    | nil => simpa using hflag
    | cons x members =>
      by_cases hc : "cycle" ∈ flags <;> simp [hc]

theorem not_cycle_mem_flags (inputs : StpInputs) (vlan : Int) :
    "cycle" ∉ multipleRootPortsFlags inputs vlan ++ rootFlags (buildInfo inputs vlan) := by
  intro h
  rcases List.mem_append.mp h with h | h
  · obtain ⟨e, -, he⟩ := List.mem_filterMap.mp h
    split at he
    · have hlist := congrArg String.toList (Option.some.inj he)
      rw [String.toList_append] at hlist
      simp at hlist
    · cases he
  · unfold rootFlags at h
    split at h
    · split at h <;> simp at h
    · simp at h
    · simp at h

/-! ## The emission -/

/-- Under each parent, the nodes that have it, in key order. -/
theorem getD_foldl_children (info : Info) (parent : String) (l : Info) (acc : PMap String (List String)) :
    (l.foldl (fun children e =>
      match info.up e.1 with
      | some parent => PMap.insert children parent (PMap.getD children parent [] ++ [e.1])
      | none => children) acc).getD parent [] =
    acc.getD parent [] ++ (l.map Prod.fst).filter fun child => info.up child = some parent := by
  induction l generalizing acc with
  | nil => simp
  | cons e rest ih =>
    rw [List.foldl_cons, ih, List.map_cons, List.filter_cons]
    cases hup : info.up e.1 with
    | none => simp
    | some p =>
      by_cases hp : p = parent
      · subst hp
        simp [PMap.getD]
      · simp [PMap.getD, hp, PMap.insert_of_ne _ _ (Ne.symm hp)]

theorem children_eq (info : Info) (parent : String) : info.children parent =
    (info.map Prod.fst).filter fun child => info.up child = some parent :=
  (getD_foldl_children info parent info PMap.empty).trans rfl

theorem lists_children (info : Info) (hnd : (info.map Prod.fst).Nodup) :
    Lists info.up (info.map Prod.fst) info.children where
  mem parent child := by rw [children_eq, List.mem_filter, decide_eq_true_eq]
  nodup parent := by rw [children_eq]; exact hnd.filter _

/-! ## The tree -/

/-- `parent` is the entry of `nodes` above `node`. -/
def Under (tree : StpTree) (node parent : StpNode) : Prop :=
  parent ∈ tree.nodes ∧ node.parent = some parent.fqdn

/-- What `build_stp_tree` promises of its tree, against the inputs. -/
structure IsForest (inputs : StpInputs) (vlan : Int) (tree : StpTree) : Prop where
  /-- each device on the VLAN is one node -/
  nodup : (tree.nodes.map StpNode.fqdn).Nodup
  covers : ∀ fqdn, fqdn ∈ tree.nodes.map StpNode.fqdn ↔ OnVlan inputs vlan fqdn
  /-- a node with a parent comes after it, one deeper -/
  child : ∀ (i : Nat) (node : StpNode), tree.nodes[i]? = some node → ∀ p, node.parent = some p →
    ∃ (j : Nat) (parent : StpNode), j < i ∧ tree.nodes[j]? = some parent ∧ parent.fqdn = p ∧
      node.depth = parent.depth + 1
  /-- a node without a parent is at depth 0, and a root or an orphan -/
  top : ∀ node ∈ tree.nodes, node.parent = none →
    node.depth = 0 ∧ (¬HasRootPort inputs vlan node.fqdn ∨ node.orphan = true)
  /-- parents lead to a node without one -/
  ends : ∀ node ∈ tree.nodes, ∃ top ∈ tree.nodes,
    Relation.ReflTransGen (Under tree) node top ∧ top.parent = none
  /-- orphans are the nodes whose root port resolves to no node or lies on a cycle -/
  orphan : ∀ node ∈ tree.nodes, (node.orphan = true ↔ HasRootPort inputs vlan node.fqdn ∧
    (upstream inputs vlan node.fqdn = none ∨ OnCycle (upstream inputs vlan) node.fqdn))
  /-- a node off the cycles keeps its parent -/
  parent : ∀ node ∈ tree.nodes,
    (OnCycle (upstream inputs vlan) node.fqdn → node.parent = none) ∧
    (¬OnCycle (upstream inputs vlan) node.fqdn → node.parent = upstream inputs vlan node.fqdn)
  /-- the flag tells whether there was a cycle -/
  cycle : "cycle" ∈ tree.flags ↔ ∃ fqdn, OnCycle (upstream inputs vlan) fqdn

/-- A device of the tree after the demotion. -/
theorem lookup_demoted {cycleNodes : List String}
    (hcycle : ∀ x, x ∈ cycleNodes ↔ OnCycle (upstream inputs vlan) x) {fqdn : String}
    (hon : OnVlan inputs vlan fqdn) :
    ∃ node, ((buildInfo inputs vlan).demote cycleNodes).lookup fqdn = some node ∧
      node.rootPort = (rootPorts (portsOn inputs vlan fqdn)).head? ∧
      node.parent.map InterfaceConnection.fqdn = cut (upstream inputs vlan) cycleNodes fqdn ∧
      (node.orphan = true ↔ HasRootPort inputs vlan fqdn ∧
        (upstream inputs vlan fqdn = none ∨ OnCycle (upstream inputs vlan) fqdn)) := by
  obtain ⟨hroot, hparent, horphan⟩ := nodeInfo_spec inputs vlan fqdn
  have hlookup := lookup_demote (buildInfo inputs vlan) cycleNodes fqdn
  rw [lookup_buildInfo, if_neg hon, Option.map_some] at hlookup
  refine ⟨_, hlookup, ?_⟩
  by_cases hin : fqdn ∈ cycleNodes
  · have hc := (hcycle fqdn).mp hin
    have hhas : HasRootPort inputs vlan fqdn := by
      rw [hasRootPort_iff]
      have hne := hc.ancestor_ne_none 1
      cases hhead : (rootPorts (portsOn inputs vlan fqdn)).head? with
      | none => simp [ancestor, upstream, hhead] at hne
      | some port => rfl
    simp [hin, hc, hhas, hroot, cut]
  · have hc : ¬OnCycle (upstream inputs vlan) fqdn := fun h => hin ((hcycle fqdn).mpr h)
    simp [hin, hc, hroot, hparent, horphan, cut]

/-- A start of the emission is a node without a parent. -/
theorem mem_starts_iff {cycleNodes : List String}
    (hcycle : ∀ x, x ∈ cycleNodes ↔ OnCycle (upstream inputs vlan) x) (fqdn : String) :
    fqdn ∈ ((buildInfo inputs vlan).demote cycleNodes).starts ↔
      fqdn ∈ nodes inputs vlan ∧ cut (upstream inputs vlan) cycleNodes fqdn = none := by
  have hkeys : ((buildInfo inputs vlan).demote cycleNodes).map Prod.fst = nodes inputs vlan := by
    rw [keys_demote, keys_buildInfo]
  have hnd : (((buildInfo inputs vlan).demote cycleNodes).map Prod.fst).Nodup :=
    hkeys ▸ nodes_nodup inputs vlan
  have hentry : fqdn ∈ ((buildInfo inputs vlan).demote cycleNodes).starts ↔
      ∃ node, ((buildInfo inputs vlan).demote cycleNodes).lookup fqdn = some node ∧
        (node.rootPort.isNone || node.orphan) = true := by
    simp only [Info.starts, List.mem_map, List.mem_filter, lookup_eq_some_iff_mem hnd]
    constructor
    · rintro ⟨e, ⟨he, hstart⟩, rfl⟩; exact ⟨e.2, he, hstart⟩
    · rintro ⟨node, he, hstart⟩; exact ⟨(fqdn, node), ⟨he, hstart⟩, rfl⟩
  rw [hentry]
  constructor
  · rintro ⟨node, hlookup, hstart⟩
    have hin : fqdn ∈ nodes inputs vlan := hkeys ▸
      List.mem_map.mpr ⟨_, (lookup_eq_some_iff_mem hnd).mp hlookup, rfl⟩
    obtain ⟨node', hlookup', hroot, hparent, horphan⟩ := lookup_demoted hcycle (mem_nodes.mp hin)
    rw [hlookup] at hlookup'
    cases hlookup'
    refine ⟨hin, ?_⟩
    rw [Bool.or_eq_true, horphan, hroot] at hstart
    unfold cut
    rcases hstart with hnone | ⟨-, hnone | hon⟩
    · have : upstream inputs vlan fqdn = none := by simp [upstream, Option.isNone_iff_eq_none.mp hnone]
      simp [this]
    · simp [hnone]
    · simp [(hcycle fqdn).mpr hon]
  · rintro ⟨hin, hcut⟩
    obtain ⟨node, hlookup, hroot, -, horphan⟩ := lookup_demoted hcycle (mem_nodes.mp hin)
    refine ⟨node, hlookup, ?_⟩
    rw [Bool.or_eq_true, horphan, hroot, hasRootPort_iff]
    cases hhead : (rootPorts (portsOn inputs vlan fqdn)).head? with
    | none => exact .inl rfl
    | some port =>
      refine .inr ⟨rfl, ?_⟩
      unfold cut at hcut
      split at hcut
      · next hmem => exact .inr ((hcycle fqdn).mp hmem)
      · exact .inl hcut

/-- A visited forest, rendered, is a forest of nodes. -/
theorem isForest_of_visited {cycleNodes flags : List String}
    (hcycle : ∀ x, x ∈ cycleNodes ↔ OnCycle (upstream inputs vlan) x)
    (hflags : "cycle" ∈ flags ↔ cycleNodes ≠ [])
    {out : List (String × Nat)}
    (hvisited : Visited (cut (upstream inputs vlan) cycleNodes) (nodes inputs vlan) out)
    (hcover : ∀ x, x ∈ out.map Prod.fst ↔ x ∈ nodes inputs vlan)
    (hends : ∀ x ∈ nodes inputs vlan,
      ∃ n, ancestor (cut (upstream inputs vlan) cycleNodes) n x = none)
    {tree : StpTree} (htreeFlags : tree.flags = flags)
    (htreeNodes : tree.nodes = out.map fun e =>
      stpNode inputs vlan ((buildInfo inputs vlan).demote cycleNodes) e.1 e.2) :
    IsForest inputs vlan tree := by
  have hfqdns : tree.nodes.map StpNode.fqdn = out.map Prod.fst := by
    rw [htreeNodes, List.map_map]
    rfl
  have hget : ∀ (i : Nat) (node : StpNode), tree.nodes[i]? = some node → ∃ e, out[i]? = some e ∧
      node.fqdn = e.1 ∧ node.depth = e.2 ∧
      node.parent = cut (upstream inputs vlan) cycleNodes e.1 ∧
      (node.orphan = true ↔ HasRootPort inputs vlan e.1 ∧
        (upstream inputs vlan e.1 = none ∨ OnCycle (upstream inputs vlan) e.1)) := by
    intro i node h
    rw [htreeNodes, List.getElem?_map, Option.map_eq_some_iff] at h
    obtain ⟨e, he, rfl⟩ := h
    have hon := mem_nodes.mp (hvisited.mem e (List.mem_of_getElem? he))
    obtain ⟨node, hlookup, -, hparent, horphan⟩ := lookup_demoted hcycle hon
    refine ⟨e, he, rfl, rfl, ?_, ?_⟩
    · simp only [stpNode, hlookup, Option.getD_some]; exact hparent
    · simp only [stpNode, hlookup, Option.getD_some]; exact horphan
  have hmem : ∀ node ∈ tree.nodes, node.fqdn ∈ nodes inputs vlan ∧
      node.parent = cut (upstream inputs vlan) cycleNodes node.fqdn ∧
      (node.orphan = true ↔ HasRootPort inputs vlan node.fqdn ∧
        (upstream inputs vlan node.fqdn = none ∨ OnCycle (upstream inputs vlan) node.fqdn)) := by
    intro node hnode
    obtain ⟨i, hi⟩ := List.mem_iff_getElem?.mp hnode
    obtain ⟨e, he, hf, -, hparent, horphan⟩ := hget i node hi
    rw [hf]
    exact ⟨hvisited.mem e (List.mem_of_getElem? he), hparent, horphan⟩
  refine ⟨hfqdns ▸ hvisited.nodup, fun x => by rw [hfqdns, hcover, mem_nodes], ?_, ?_, ?_,
    fun node hnode => (hmem node hnode).2.2, fun node hnode => ?_, ?_⟩
  · intro i node hi p hp
    obtain ⟨e, he, -, hdepth, hparent, -⟩ := hget i node hi
    rw [hparent] at hp
    obtain ⟨d, hd, hed⟩ := (hvisited.placed i e he).2 p hp
    obtain ⟨j, hj⟩ := List.mem_iff_getElem?.mp hd
    have hji : j < i := by
      have := (List.getElem?_eq_some_iff.mp hj).1
      rw [List.length_take] at this
      omega
    rw [List.getElem?_take_of_lt hji] at hj
    refine ⟨j, stpNode inputs vlan ((buildInfo inputs vlan).demote cycleNodes) p d, hji, ?_, rfl, ?_⟩
    · rw [htreeNodes, List.getElem?_map, hj]; rfl
    · rw [hdepth, hed]; rfl
  · intro node hnode hp
    obtain ⟨i, hi⟩ := List.mem_iff_getElem?.mp hnode
    obtain ⟨e, he, hf, hdepth, hparent, horphan⟩ := hget i node hi
    rw [hparent] at hp
    refine ⟨by rw [hdepth]; exact (hvisited.placed i e he).1 hp, ?_⟩
    by_cases hroot : HasRootPort inputs vlan node.fqdn
    · refine .inr (horphan.mpr ⟨hf ▸ hroot, ?_⟩)
      unfold cut at hp
      split at hp
      · next hin => exact .inr ((hcycle _).mp hin)
      · exact .inl hp
    · exact .inl hroot
  · intro node hnode
    obtain ⟨hin, hparent, -⟩ := hmem node hnode
    obtain ⟨n, hn⟩ := hends node.fqdn hin
    -- by induction on the steps up to the top
    induction n generalizing node with
    | zero => cases hn
    | succ n ih =>
      cases hp : node.parent with
      | none => exact ⟨node, hnode, .refl, hp⟩
      | some p =>
        rw [hparent] at hp
        rw [ancestor, hp, Option.bind_some] at hn
        have hpin : p ∈ tree.nodes.map StpNode.fqdn := by
          rw [hfqdns, hcover]
          unfold cut at hp
          split at hp
          · cases hp
          · exact mem_nodes.mpr (upstream_onVlan hp).2
        obtain ⟨parent, hpn, rfl⟩ := List.mem_map.mp hpin
        obtain ⟨hin', hparent', -⟩ := hmem parent hpn
        obtain ⟨top, htop, hpath, hnone⟩ := ih parent hpn hin' hparent' hn
        exact ⟨top, htop, .head ⟨hpn, hparent.trans hp⟩ hpath, hnone⟩
  · obtain ⟨-, hparent, -⟩ := hmem node hnode
    refine ⟨fun hon => ?_, fun hoff => ?_⟩
    · rw [hparent, cut, if_pos ((hcycle _).mpr hon)]
    · rw [hparent, cut, if_neg fun h => hoff ((hcycle _).mp h)]
  · rw [htreeFlags, hflags]
    constructor
    · intro hne
      obtain ⟨x, hx⟩ := List.exists_mem_of_ne_nil _ hne
      exact ⟨x, (hcycle x).mp hx⟩
    · rintro ⟨x, hx⟩
      exact List.ne_nil_of_mem ((hcycle x).mpr hx)

/-- **The tree is a forest over the devices of the VLAN**, for any inputs. -/
theorem buildStpTree_isForest (inputs : StpInputs) (vlan : Int) (fuel : Nat)
    (hfuel : inputs.ports.entries.length + 2 ≤ fuel) :
    ∃ tree, buildStpTree fuel inputs vlan = some tree ∧ IsForest inputs vlan tree := by
  have hlen : (nodes inputs vlan).length + 2 ≤ fuel := by
    have := nodes_length_le inputs vlan
    omega
  have hup : ∀ x y, upstream inputs vlan x = some y →
      x ∈ nodes inputs vlan ∧ y ∈ nodes inputs vlan := fun x y h =>
    ⟨mem_nodes.mpr (upstream_onVlan h).1, mem_nodes.mpr (upstream_onVlan h).2⟩
  -- the guard finds the cycles
  have hfind : (findCycles (upstream inputs vlan) fuel (nodes inputs vlan) []).isSome :=
    findCycles_isSome (fun x _ y h => (hup x y h).2) (by omega) _ _ (List.Subset.refl _)
  obtain ⟨cycleNodes, hcycles⟩ := Option.isSome_iff_exists.mp hfind
  obtain ⟨hcycle, hends⟩ := findCycles_spec (fun x y h => (hup x y h).1) hcycles
  obtain ⟨flags, hguard, hflags⟩ := cycleGuard_spec (buildInfo inputs vlan) fuel
    (nodes inputs vlan) (multipleRootPortsFlags inputs vlan ++ rootFlags (buildInfo inputs vlan)) []
    (by simpa using not_cycle_mem_flags inputs vlan) cycleNodes (by rw [up_buildInfo]; exact hcycles)
  -- the emission visits what is left
  have hkeys : ((buildInfo inputs vlan).demote cycleNodes).map Prod.fst = nodes inputs vlan := by
    rw [keys_demote, keys_buildInfo]
  have hlists := lists_children ((buildInfo inputs vlan).demote cycleNodes)
    (by rw [hkeys]; exact nodes_nodup _ _)
  rw [hkeys, up_demote, up_buildInfo] at hlists
  obtain ⟨out, hout, hvisited, hcover⟩ := preorderAll_spec hlists hlen (mem_starts_iff hcycle)
    (fun x _ y h => by
      unfold cut at h
      split at h
      · cases h
      · exact (hup x y h).2) hends
  have htree : buildStpTree fuel inputs vlan = some
      { vlan := vlan
        roots := ((buildInfo inputs vlan).demote cycleNodes).roots
        nodes := out.map fun e =>
          stpNode inputs vlan ((buildInfo inputs vlan).demote cycleNodes) e.1 e.2
        blockedLinks := blockedLinks inputs vlan
        flags := flags
        multipleRootsDetail :=
          multipleRootsDetail inputs vlan ((buildInfo inputs vlan).demote cycleNodes).roots } := by
    unfold buildStpTree
    dsimp only
    rw [keys_buildInfo, hguard, Option.bind_some, hout]
    rfl
  exact ⟨_, htree, isForest_of_visited hcycle hflags hvisited hcover hends rfl rfl⟩

/-- Two switches whose root ports face each other. -/
def facingInputs : StpInputs where
  ports := [⟨"sw-a", [⟨100, 1, none, some 1, "root", "forwarding", 4⟩]⟩,
    ⟨"sw-b", [⟨100, 2, none, some 2, "root", "forwarding", 4⟩]⟩].toAList
  bridges := PMap.empty
  baseMacs := ∅
  topology := ⟨fun fqdn =>
    if fqdn = "sw-a" then some ⟨[⟨"Gi1", ⟨"Gi1", 1, some ⟨"sw-b", "Gi2"⟩⟩⟩].toAList⟩
    else if fqdn = "sw-b" then some ⟨[⟨"Gi2", ⟨"Gi2", 2, some ⟨"sw-a", "Gi1"⟩⟩⟩].toAList⟩
    else none⟩
  lagMembers := PMap.empty
  vlanMembers := PMap.empty

theorem buildStpTree_isForest_facing :
    ∃ tree, buildStpTree 4 facingInputs 100 = some tree ∧ IsForest facingInputs 100 tree :=
  buildStpTree_isForest facingInputs 100 4 (by decide)

example : (buildStpTree 4 facingInputs 100).map (fun t => (t.flags, t.nodes.map StpNode.orphan)) =
    some (["no-root", "cycle"], [true, true]) := by decide

end JaspyNexus.Utilities.StpForest
