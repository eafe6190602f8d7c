import Mathlib
import JaspyNexus.Routes.Fleet

/-! # The keys of issues

A key is the device, the kind and the subject of an issue, with bars between them. Where
no device has a bar in its name, keys are distinct when these three are: here for the
issues of devices, interfaces, spanning trees and PoE budgets. -/

namespace JaspyNexus.Routes.Fleet
open JaspyNexus.Lib JaspyNexus.Lib.Text JaspyNexus.Models JaspyNexus.Utilities JaspyNexus.Utilities.Issues
open JaspyNexus.Collectors.Lagpoller
open JaspyNexus.Utilities.Stp (StpTree StpNode)

/-! ## Keys -/

/-- What the key is made of. -/
def parts (issue : DerivedIssue) : String × String × String := (issue.fqdn, issue.kind, issue.subject)

/-- The issues are told apart by their device, kind and subject. -/
def Apart (a b : DerivedIssue) : Prop := parts a ≠ parts b

theorem Apart.of_fqdn {a b : DerivedIssue} (h : a.fqdn ≠ b.fqdn) : Apart a b :=
  fun heq => h (congrArg Prod.fst heq)

theorem Apart.of_kind {a b : DerivedIssue} (h : a.kind ≠ b.kind) : Apart a b :=
  fun heq => h (congrArg (fun p => p.2.1) heq)

theorem Apart.of_subject {a b : DerivedIssue} (h : a.subject ≠ b.subject) : Apart a b :=
  fun heq => h (congrArg (fun p => p.2.2) heq)

theorem append_bar_inj {a b x y : String} (ha : '|' ∉ a.toList) (hb : '|' ∉ b.toList)
    (h : a ++ "|" ++ x = b ++ "|" ++ y) : a = b ∧ x = y := by
  have hsplit := congrArg (fun s => splitOnce s '|') h
  have hbar : "|" = String.singleton '|' := by decide
  rw [hbar, splitOnce_append ha, splitOnce_append hb] at hsplit
  exact ⟨congrArg Prod.fst (Option.some.inj hsplit), congrArg Prod.snd (Option.some.inj hsplit)⟩

/-- The kinds of the catalog have no bars. -/
theorem plain_kind {kind : String} (h : isKnownKind kind = true) : '|' ∉ kind.toList := by
  obtain ⟨info, hinfo, hkind⟩ := List.any_eq_true.mp h
  have hall : ∀ info ∈ issueTypeCatalog, '|' ∉ info.kind.toList := by decide
  exact of_decide_eq_true hkind ▸ hall info hinfo

/-- The key tells as much as its parts. -/
theorem issueKey_inj {a b : DerivedIssue} (ha : '|' ∉ a.fqdn.toList) (hb : '|' ∉ b.fqdn.toList)
    (hka : isKnownKind a.kind = true) (hkb : isKnownKind b.kind = true) :
    a.issueKey = b.issueKey ↔ parts a = parts b := by
  constructor
  · intro h
    have h' : a.fqdn ++ "|" ++ (a.kind ++ "|" ++ a.subject) = b.fqdn ++ "|" ++ (b.kind ++ "|" ++ b.subject) := by
      simpa [DerivedIssue.issueKey, String.append_assoc] using h
    obtain ⟨hfqdn, hrest⟩ := append_bar_inj ha hb h'
    obtain ⟨hkind, hsubject⟩ := append_bar_inj (plain_kind hka) (plain_kind hkb) hrest
    simp only [parts, hfqdn, hkind, hsubject]
  · intro h
    simp only [parts, Prod.mk.injEq] at h
    simp only [DerivedIssue.issueKey, h.1, h.2.1, h.2.2]

/-! ## Lists -/

section
variable {α β κ : Type} {R : β → β → Prop}

/-- Lists of distinct owners are apart when each is. -/
theorem pairwise_flatMap_of_owner {l : List α} {f : α → List β} (owner : α → κ) (hl : (l.map owner).Nodup)
    (hown : ∀ a ∈ l, ∀ b ∈ l, owner a ≠ owner b → ∀ x ∈ f a, ∀ y ∈ f b, R x y) :
    (l.flatMap f).Pairwise R ↔ ∀ a ∈ l, (f a).Pairwise R := by
  rw [List.pairwise_flatMap]
  refine and_iff_left ?_
  refine (List.pairwise_map.mp hl).imp_of_mem ?_
  exact fun ha hb hne x hx y hy => hown _ ha _ hb hne x hx y hy

theorem ite_sublist {c : Prop} [Decidable c] {a : β} {f : β → κ} {k : κ} (h : f a = k) :
    ((if c then [a] else []).map f).Sublist [k] := by
  split
  · rw [List.map_singleton, h]
  · exact List.nil_sublist _

end

/-- Issues of distinct kinds are apart. -/
theorem pairwise_of_kinds {issues : List DerivedIssue} (h : (issues.map DerivedIssue.kind).Nodup) :
    issues.Pairwise Apart :=
  (List.pairwise_map.mp h).imp Apart.of_kind

/-! ## Kinds -/

def ifaceKinds : List String :=
  ["iface-flapping", "iface-stale", "iface-errors", "iface-discards", "iface-high-util", "iface-speed",
    "iface-err-disabled"]

def deviceKinds : List String := "device-down" :: ifaceKinds

def stpFlagKinds : List String :=
  ["stp-flag:no-root", "stp-flag:multiple-roots", "stp-flag:cycle", "stp-flag:multiple-root-ports"]

def stpNodeKinds : List String := ["stp-unmonitored-root", "stp-root-mismatch", "stp-orphan"]

def poeKinds : List String := ["poe-pse-down", "poe-budget"]

def memberKinds : List String := ["lag:member-no-lacp-partner", "lag:member-not-bundled"]

def lagKinds : List String :=
  ["lag:member-link-down", "lag:speed-mismatch", "lag:not-lacp", "lag:single-member",
    "lag:members-report-different-partners", "lag:members-wired-to-different-devices",
    "lag:far-end-lag-not-found", "lag:far-end-member-count-mismatch"] ++ memberKinds

/-- All of them are in the catalog, each once. -/
theorem kinds_catalog : (deviceKinds ++ (stpFlagKinds ++ stpNodeKinds) ++ poeKinds ++ lagKinds).Perm
    (issueTypeCatalog.map IssueTypeInfo.kind) := by
  decide

theorem isKnownKind_iff {kind : String} : isKnownKind kind = true ↔
    kind ∈ deviceKinds ++ (stpFlagKinds ++ stpNodeKinds) ++ poeKinds ++ lagKinds := by
  rw [kinds_catalog.mem_iff]
  simp [isKnownKind]

/-! ## Devices and interfaces -/

theorem mem_ite_single {β : Type} {c : Prop} [Decidable c] {a x : β} (h : x ∈ if c then [a] else []) : x = a := by
  split at h
  · exact List.mem_singleton.mp h
  · cases h

/-- The kinds of an interface's health issues are some of six, in this order. -/
theorem healthKinds_sublist (fqdn : String) (ifIndex : Int) (ifaceName : String) (h : ApiInterfaceHealth)
    (infra : Bool) (connectedTo : Option Stp.InterfaceConnection) (cdp : Option CdpNeighbor) :
    ((interfaceHealthIssues fqdn ifIndex ifaceName h infra connectedTo cdp).map DerivedIssue.kind).Sublist
      (["iface-flapping"] ++ ["iface-stale"] ++ ["iface-errors"] ++ ["iface-discards"] ++ ["iface-high-util"] ++
        ["iface-speed"]) := by
  unfold interfaceHealthIssues
  split
  · exact List.nil_sublist _
  · simp only [List.map_append]
    exact (((((ite_sublist rfl).append (ite_sublist rfl)).append (ite_sublist rfl)).append
      (ite_sublist rfl)).append (ite_sublist rfl)).append (ite_sublist rfl)

theorem mem_interfaceHealthIssues {fqdn : String} {ifIndex : Int} {ifaceName : String} {h : ApiInterfaceHealth}
    {infra : Bool} {connectedTo : Option Stp.InterfaceConnection} {cdp : Option CdpNeighbor} {issue : DerivedIssue}
    (hissue : issue ∈ interfaceHealthIssues fqdn ifIndex ifaceName h infra connectedTo cdp) :
    issue.fqdn = fqdn ∧ issue.subject = toString ifIndex := by
  unfold interfaceHealthIssues at hissue
  split at hissue
  · cases hissue
  · dsimp only at hissue
    simp only [List.mem_append] at hissue
    rcases hissue with ((((hissue | hissue) | hissue) | hissue) | hissue) | hissue
    all_goals
      rw [mem_ite_single hissue]
      exact ⟨rfl, rfl⟩

section
variable (s : NamedSnapshot) {device : Device} {metrics : DeviceMetrics} {ifIndex : Int} {issue : DerivedIssue}

/-- The kinds of an interface's issues are some of seven. -/
theorem interfaceKinds_sublist :
    ((s.interfaceIssues device metrics ifIndex).map DerivedIssue.kind).Sublist ifaceKinds := by
  unfold Snapshot.interfaceIssues
  split
  · exact List.nil_sublist _
  · dsimp only
    have hkinds : ifaceKinds = (["iface-flapping"] ++ ["iface-stale"] ++ ["iface-errors"] ++ ["iface-discards"] ++
      ["iface-high-util"] ++ ["iface-speed"]) ++ ["iface-err-disabled"] := rfl
    rw [List.map_append, hkinds]
    refine List.Sublist.append ?_ (ite_sublist rfl)
    split
    · exact healthKinds_sublist _ _ _ _ _ _ _
    · exact List.nil_sublist _

theorem mem_interfaceIssues (h : issue ∈ s.interfaceIssues device metrics ifIndex) :
    issue.fqdn = device.fqdn ∧ issue.subject = toString ifIndex := by
  unfold Snapshot.interfaceIssues at h
  split at h
  · cases h
  · rcases List.mem_append.mp h with h | h
    · split at h
      · exact mem_interfaceHealthIssues h
      · cases h
    · rw [mem_ite_single h]
      exact ⟨rfl, rfl⟩

theorem interfaceIssues_kind (h : issue ∈ s.interfaceIssues device metrics ifIndex) : issue.kind ∈ ifaceKinds :=
  (interfaceKinds_sublist s).subset (List.mem_map_of_mem h)

theorem mem_deviceDown {fqdn : String} {up : Option Bool} {secs : Option Nat}
    (h : issue ∈ (deviceDownIssue fqdn up secs).toList) : issue.fqdn = fqdn ∧ issue.kind = "device-down" := by
  rw [Option.mem_toList] at h
  unfold deviceDownIssue at h
  split at h <;> cases h
  exact ⟨rfl, rfl⟩

theorem mem_deviceIssues (h : issue ∈ s.deviceIssues device) :
    issue.fqdn = device.fqdn ∧ issue.kind ∈ deviceKinds := by
  unfold Snapshot.deviceIssues at h
  split at h
  · cases h
  · rcases List.mem_append.mp h with h | h
    · obtain ⟨hfqdn, hkind⟩ := mem_deviceDown h
      exact ⟨hfqdn, hkind ▸ List.mem_cons_self⟩
    · obtain ⟨i, -, h⟩ := List.mem_flatMap.mp h
      exact ⟨(mem_interfaceIssues s h).1, List.mem_cons_of_mem _ (interfaceIssues_kind s h)⟩

/-- A device's issues are apart. -/
theorem deviceIssues_apart : (s.deviceIssues device).Pairwise Apart := by
  unfold Snapshot.deviceIssues
  split
  · exact .nil
  next metrics hmetrics =>
  refine List.pairwise_append.mpr ⟨?_, ?_, ?_⟩
  · cases deviceDownIssue device.fqdn metrics.up _ with
    | none => exact .nil
    | some issue => exact List.pairwise_singleton _ _
  · refine (pairwise_flatMap_of_owner id ?_ ?_).mpr fun i _ => ?_
    · rw [List.map_id]
      exact (s.visits device.fqdn metrics hmetrics).1
    · intro i _ j _ hne x hx y hy
      refine Apart.of_subject fun hsame => hne ?_
      rw [(mem_interfaceIssues s hx).2, (mem_interfaceIssues s hy).2] at hsame
      exact Int.repr_injective hsame
    · exact pairwise_of_kinds ((interfaceKinds_sublist s).nodup (by decide))
  · intro x hx y hy
    obtain ⟨i, -, hy⟩ := List.mem_flatMap.mp hy
    refine Apart.of_kind fun hsame => ?_
    rw [(mem_deviceDown hx).2] at hsame
    have hkind := interfaceIssues_kind s hy
    rw [← hsame] at hkind
    exact absurd hkind (by decide)

/-! ## PoE -/

theorem mem_poeBudgetIssue {fqdn : String} {budget : PoeBudget} (h : poeBudgetIssue fqdn budget = some issue) :
    issue.fqdn = fqdn ∧ issue.subject = toString budget.group ∧ issue.kind ∈ poeKinds := by
  unfold poeBudgetIssue at h
  dsimp only at h
  split at h
  · cases h
    exact ⟨rfl, rfl, List.mem_cons_self⟩
  · split at h
    · cases h
    · split at h <;> cases h
      exact ⟨rfl, rfl, List.mem_cons_of_mem _ List.mem_cons_self⟩

theorem mem_poeIssues (h : issue ∈ s.poeIssues) : issue.fqdn ∈ s.poeBudgets ∧ issue.kind ∈ poeKinds := by
  obtain ⟨e, he, h⟩ := List.mem_flatMap.mp h
  obtain ⟨budget, -, h⟩ := List.mem_filterMap.mp h
  obtain ⟨hfqdn, -, hkind⟩ := mem_poeBudgetIssue h
  refine ⟨?_, hkind⟩
  rw [hfqdn]
  exact HashMap.mem_iff_lookup.mpr ⟨e.2, HashMap.mem_entries.mp he⟩

theorem poeIssues_apart : s.poeIssues.Pairwise Apart := by
  refine (pairwise_flatMap_of_owner Sigma.fst s.poeBudgets.nodupKeys ?_).mpr ?_
  · intro e _ e' _ hne x hx y hy
    obtain ⟨budget, -, hx⟩ := List.mem_filterMap.mp hx
    obtain ⟨budget', -, hy⟩ := List.mem_filterMap.mp hy
    refine Apart.of_fqdn ?_
    rwa [(mem_poeBudgetIssue hx).1, (mem_poeBudgetIssue hy).1]
  · intro e he
    have hgroups := s.groups e.1 e.2 (HashMap.mem_entries.mp he)
    refine List.pairwise_filterMap.mpr ((List.pairwise_map.mp hgroups).imp ?_)
    intro budget budget' hne x hx y hy
    refine Apart.of_subject fun hsame => hne ?_
    rw [(mem_poeBudgetIssue hx).2.1, (mem_poeBudgetIssue hy).2.1] at hsame
    exact Int.repr_injective hsame

end

/-! ## Spanning trees -/

section
open JaspyNexus.Utilities.Stp JaspyNexus.Utilities.StpForest
variable {inputs : StpInputs} {vlan : Int} {issue : DerivedIssue}

/-- The cycle guard adds its flag at most once. -/
theorem cycleGuard_adds (info : Info) (fuel : Nat) (starts : List String) :
    ∀ flags seen flags' out, cycleGuard info fuel starts (flags, seen) = some (flags', out) →
      flags' = flags ∨ flags' = flags ++ ["cycle"] ∧ "cycle" ∉ flags := by
  induction starts with
  | nil =>
    intro flags seen flags' out h
    cases h
    exact .inl rfl
  | cons start rest ih =>
    intro flags seen flags' out h
    obtain ⟨members, -, h⟩ := Option.bind_eq_some_iff.mp h
    have hrest := ih _ _ _ _ h
    split at hrest
    · exact hrest
    next hadds =>
      have hnot : "cycle" ∉ flags := by
        intro hmem
        exact hadds (by simp [hmem])
      rcases hrest with hrest | ⟨-, hagain⟩
      · exact .inr ⟨hrest, hnot⟩
      · exact absurd (List.mem_append_right _ (List.mem_singleton_self _)) hagain

/-- The flags of nodes with several root ports. -/
theorem mem_multipleRootPortsFlags {flag : String} (h : flag ∈ multipleRootPortsFlags inputs vlan) :
    ∃ fqdn ∈ nodes inputs vlan, flag = "multiple-root-ports:" ++ fqdn := by
  obtain ⟨e, he, h⟩ := List.mem_filterMap.mp h
  split at h <;> cases h
  exact ⟨e.1, List.mem_map_of_mem he, rfl⟩

/-- What a flag says. -/
def flagParts (flag : String) : String × String := (flagDevice flag, flagCode flag)

theorem multipleRootPortsFlags_nodup (inputs : StpInputs) (vlan : Int) :
    ((multipleRootPortsFlags inputs vlan).map flagParts).Nodup := by
  have hnodes := nodes_nodup inputs vlan
  rw [nodes] at hnodes
  refine List.pairwise_map.mpr (List.pairwise_filterMap.mpr ((List.pairwise_map.mp hnodes).imp ?_))
  intro e e' hne flag hflag flag' hflag' hsame
  split at hflag <;> cases hflag
  split at hflag' <;> cases hflag'
  have hdevice := congrArg Prod.fst hsame
  rw [flagParts, flagParts, (flag_rootPorts e.1).1, (flag_rootPorts e'.1).1] at hdevice
  exact hne hdevice

/-- The flags of the tree besides those of its nodes. -/
theorem flags_eq {fuel : Nat} {tree : StpTree} (h : buildStpTree fuel inputs vlan = some tree) : tree.vlan = vlan ∧
    ∃ others, tree.flags = multipleRootPortsFlags inputs vlan ++ others ∧
      others.Sublist ["no-root", "multiple-roots", "cycle"] := by
  obtain ⟨⟨flags, cycleNodes⟩, hguard, h⟩ := Option.bind_eq_some_iff.mp h
  obtain ⟨emitted, -, rfl⟩ := Option.map_eq_some_iff.mp h
  refine ⟨rfl, ?_⟩
  have hroot : (rootFlags (buildInfo inputs vlan)).Sublist ["no-root", "multiple-roots"] := by
    unfold rootFlags
    split
    · split
      · exact List.nil_sublist _
      · decide
    · exact List.nil_sublist _
    · decide
  rcases cycleGuard_adds _ _ _ _ _ _ _ hguard with hflags | ⟨hflags, -⟩
  · exact ⟨rootFlags (buildInfo inputs vlan), hflags, hroot.trans (by decide)⟩
  · refine ⟨rootFlags (buildInfo inputs vlan) ++ ["cycle"], ?_, hroot.append (List.Sublist.refl ["cycle"])⟩
    rw [← List.append_assoc]
    exact hflags

/-- The flags of a tree are told apart by their device and code. -/
theorem flags_nodup {fuel : Nat} {tree : StpTree} (h : buildStpTree fuel inputs vlan = some tree) :
    (tree.flags.map flagParts).Nodup := by
  obtain ⟨-, others, hflags, hothers⟩ := flags_eq h
  rw [hflags, List.map_append]
  refine (multipleRootPortsFlags_nodup inputs vlan).append ((hothers.map flagParts).nodup (by decide)) ?_
  intro p hp hp'
  obtain ⟨flag, hflag, rfl⟩ := List.mem_map.mp hp
  obtain ⟨fqdn, -, rfl⟩ := mem_multipleRootPortsFlags hflag
  obtain ⟨other, hother, hsame⟩ := List.mem_map.mp hp'
  have hcode := congrArg Prod.snd hsame
  simp only [flagParts] at hcode
  rw [(flag_rootPorts fqdn).2] at hcode
  have hall : ∀ other ∈ ["no-root", "multiple-roots", "cycle"], flagCode other ≠ "multiple-root-ports" := by decide
  exact hall other (hothers.subset hother) hcode

/-- A flag is one of four, and about no device or about one of the tree. -/
theorem mem_flags {fuel : Nat} {tree : StpTree} (h : buildStpTree fuel inputs vlan = some tree) {flag : String}
    (hflag : flag ∈ tree.flags) : "stp-flag:" ++ flagCode flag ∈ stpFlagKinds ∧
      (flagDevice flag = "" ∨ flagDevice flag ∈ nodes inputs vlan) := by
  obtain ⟨-, others, hflags, hothers⟩ := flags_eq h
  rw [hflags] at hflag
  rcases List.mem_append.mp hflag with hflag | hflag
  · obtain ⟨fqdn, hfqdn, rfl⟩ := mem_multipleRootPortsFlags hflag
    rw [(flag_rootPorts fqdn).1, (flag_rootPorts fqdn).2]
    exact ⟨by decide, .inr hfqdn⟩
  · have hall : ∀ other ∈ ["no-root", "multiple-roots", "cycle"],
        "stp-flag:" ++ flagCode other ∈ stpFlagKinds ∧ flagDevice other = "" := by decide
    obtain ⟨hkind, hdevice⟩ := hall flag (hothers.subset hflag)
    exact ⟨hkind, .inl hdevice⟩

theorem mem_flagIssue {names : List String} {tree : StpTree} {expected : PMap String (Option String)}
    {flag : String} (h : flagIssue names tree expected flag = some issue) :
    issue.fqdn = flagDevice flag ∧ issue.kind = "stp-flag:" ++ flagCode flag ∧
      issue.subject = s!"vlan{tree.vlan}" := by
  unfold flagIssue at h
  dsimp only at h
  split at h
  · split at h
    · split at h <;> cases h
      exact ⟨rfl, rfl, rfl⟩
    · cases h
      exact ⟨rfl, rfl, rfl⟩
  · cases h
    exact ⟨rfl, rfl, rfl⟩

theorem mem_mismatchIssue (names : List String) (node : StpNode) :
    (mismatchIssue names vlan node).fqdn = node.fqdn ∧
      (mismatchIssue names vlan node).kind ∈ ["stp-unmonitored-root", "stp-root-mismatch"] ∧
      (mismatchIssue names vlan node).subject = s!"vlan{vlan}" := by
  unfold mismatchIssue
  dsimp only
  split
  · exact ⟨rfl, List.mem_cons_self, rfl⟩
  · exact ⟨rfl, List.mem_cons_of_mem _ List.mem_cons_self, rfl⟩

theorem mem_nodeIssues {names : List String} {node : StpNode} (h : issue ∈ nodeIssues names vlan node) :
    issue.fqdn = node.fqdn ∧ issue.kind ∈ stpNodeKinds ∧ issue.subject = s!"vlan{vlan}" := by
  rcases List.mem_append.mp h with h | h
  · obtain ⟨hfqdn, hkind, hsubject⟩ := @mem_mismatchIssue vlan names node
    rw [mem_ite_single h]
    exact ⟨hfqdn, List.mem_append_left ["stp-orphan"] hkind, hsubject⟩
  · rw [mem_ite_single h]
    exact ⟨rfl, List.mem_append_right ["stp-unmonitored-root", "stp-root-mismatch"] List.mem_cons_self, rfl⟩

/-- A node's issues are apart: only one of them is about its root. -/
theorem nodeIssues_apart (names : List String) (node : StpNode) : (nodeIssues names vlan node).Pairwise Apart := by
  refine List.pairwise_append.mpr ⟨?_, ?_, ?_⟩
  · split
    · exact List.pairwise_singleton _ _
    · exact .nil
  · split
    · exact List.pairwise_singleton _ _
    · exact .nil
  · intro x hx y hy
    rw [mem_ite_single hx, mem_ite_single hy]
    refine Apart.of_kind fun hsame => ?_
    have hkind := (@mem_mismatchIssue vlan names node).2.1
    rw [hsame] at hkind
    exact absurd hkind (by show "stp-orphan" ∉ _; decide)

/-- Every issue of a tree is about its VLAN, and about one of its devices or none. -/
theorem mem_stpTreeIssues {names : List String} {expected : PMap String (Option String)} {fuel : Nat}
    {tree : StpTree} (htree : buildStpTree fuel inputs vlan = some tree) (hforest : IsForest inputs vlan tree)
    (h : issue ∈ stpTreeIssues names tree expected) :
    (issue.fqdn = "" ∨ issue.fqdn ∈ nodes inputs vlan) ∧ issue.kind ∈ stpFlagKinds ++ stpNodeKinds ∧
      issue.subject = s!"vlan{vlan}" := by
  rw [← (flags_eq htree).1]
  rcases List.mem_append.mp h with h | h
  · obtain ⟨flag, hflag, h⟩ := List.mem_filterMap.mp h
    obtain ⟨hfqdn, hkind, hsubject⟩ := mem_flagIssue h
    obtain ⟨hkinds, hdevice⟩ := mem_flags htree hflag
    rw [(flags_eq htree).1]
    exact ⟨hfqdn ▸ hdevice, List.mem_append_left _ (hkind ▸ hkinds), (flags_eq htree).1 ▸ hsubject⟩
  · obtain ⟨node, hnode, h⟩ := List.mem_flatMap.mp h
    obtain ⟨hfqdn, hkind, hsubject⟩ := mem_nodeIssues h
    rw [(flags_eq htree).1]
    refine ⟨.inr ?_, List.mem_append_right _ hkind, (flags_eq htree).1 ▸ hsubject⟩
    rw [hfqdn]
    exact mem_nodes.mpr ((hforest.covers node.fqdn).mp (List.mem_map_of_mem hnode))

/-- The issues of a tree are apart. -/
theorem stpTreeIssues_apart (names : List String) (expected : PMap String (Option String)) {fuel : Nat}
    {tree : StpTree} (htree : buildStpTree fuel inputs vlan = some tree) (hforest : IsForest inputs vlan tree) :
    (stpTreeIssues names tree expected).Pairwise Apart := by
  refine List.pairwise_append.mpr ⟨?_, ?_, ?_⟩
  · refine List.pairwise_filterMap.mpr ((List.pairwise_map.mp (flags_nodup htree)).imp ?_)
    intro flag flag' hne x hx y hy hsame
    obtain ⟨hfqdn, hkind, -⟩ := mem_flagIssue hx
    obtain ⟨hfqdn', hkind', -⟩ := mem_flagIssue hy
    simp only [parts, hfqdn, hfqdn', hkind, hkind', Prod.mk.injEq] at hsame
    exact hne (Prod.ext hsame.1 (by simpa [flagParts] using hsame.2.1))
  · refine (pairwise_flatMap_of_owner StpNode.fqdn hforest.nodup ?_).mpr fun node _ => nodeIssues_apart names node
    intro node _ node' _ hne x hx y hy
    refine Apart.of_fqdn ?_
    rwa [(mem_nodeIssues hx).1, (mem_nodeIssues hy).1]
  · intro x hx y hy
    obtain ⟨flag, hflag, hx⟩ := List.mem_filterMap.mp hx
    obtain ⟨node, -, hy⟩ := List.mem_flatMap.mp hy
    refine Apart.of_kind fun hsame => ?_
    have hkind := (mem_flags htree hflag).1
    rw [← (mem_flagIssue hx).2.1, hsame] at hkind
    have hdisjoint : ∀ kind ∈ stpNodeKinds, kind ∉ stpFlagKinds := by decide
    exact hdisjoint y.kind (mem_nodeIssues hy).2.1 hkind

end

section
open JaspyNexus.Utilities.Stp JaspyNexus.Utilities.StpForest
variable (s : NamedSnapshot) {issue : DerivedIssue}

theorem stpTree_isForest (vlan : Int) : ∃ tree, s.stpTree vlan = some tree ∧ IsForest s.stpInputs vlan tree :=
  buildStpTree_isForest s.stpInputs vlan _ le_rfl

theorem nodes_stpPorts {vlan : Int} {fqdn : String} (h : fqdn ∈ nodes s.stpInputs vlan) : fqdn ∈ s.stpPorts := by
  have hon := mem_nodes.mp h
  rw [OnVlan, portsOn] at hon
  rw [HashMap.mem_iff_lookup]
  cases hlookup : s.stpPorts.lookup fqdn with
  | none =>
    have hnone : s.stpInputs.ports.lookup fqdn = none := hlookup
    simp [hnone] at hon
  | some ports => exact ⟨ports, rfl⟩

theorem mem_stpIssues (h : issue ∈ s.stpIssues) :
    (issue.fqdn = "" ∨ issue.fqdn ∈ s.stpPorts) ∧ issue.kind ∈ stpFlagKinds ++ stpNodeKinds := by
  obtain ⟨vlan, -, h⟩ := List.mem_flatMap.mp h
  obtain ⟨tree, htree, hforest⟩ := stpTree_isForest s vlan
  rw [htree] at h
  obtain ⟨hfqdn, hkind, -⟩ := mem_stpTreeIssues htree hforest h
  exact ⟨hfqdn.imp_right (nodes_stpPorts s), hkind⟩

theorem vlans_nodup : s.vlans.Nodup :=
  ((List.perm_insertionSort _ _).nodup_iff).mpr (List.nodup_dedup _)

/-- The issues of all trees are apart. -/
theorem stpIssues_apart : s.stpIssues.Pairwise Apart := by
  refine (pairwise_flatMap_of_owner id ?_ ?_).mpr fun vlan _ => ?_
  · rw [List.map_id]
    exact vlans_nodup s
  · intro vlan _ vlan' _ hne x hx y hy
    obtain ⟨tree, htree, hforest⟩ := stpTree_isForest s vlan
    obtain ⟨tree', htree', hforest'⟩ := stpTree_isForest s vlan'
    rw [htree] at hx
    rw [htree'] at hy
    refine Apart.of_subject fun hsame => hne ?_
    rw [(mem_stpTreeIssues htree hforest hx).2.2, (mem_stpTreeIssues htree' hforest' hy).2.2] at hsame
    exact Int.repr_injective (by simpa using hsame)
  · obtain ⟨tree, htree, hforest⟩ := stpTree_isForest s vlan
    rw [htree]
    exact stpTreeIssues_apart _ _ htree hforest

end

end JaspyNexus.Routes.Fleet
