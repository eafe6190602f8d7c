import Mathlib
import JaspyNexus.Utilities.StpForest
import JaspyNexus.Utilities.Issues

/-! # How severe multiple roots are

Several roots that share a path for the VLAN have failed to converge, which is
bad; on separate segments they are a warning. The tree hands the derivation one
link as evidence, the first that is found between two roots, before it is known
which roots the operator expects. `multipleRoots_severity_iff` states when that
link speaks for all of them. -/

namespace JaspyNexus.Utilities.StpSeverity
open JaspyNexus.Lib JaspyNexus.Lib.Text
open JaspyNexus.Utilities.Stp JaspyNexus.Utilities.StpForest
open JaspyNexus.Utilities.Issues hiding multipleRootsDetail

/-! ## Links -/

/-- One end of a link: the interface's name and, if it is discovered, its index. -/
abbrev LinkEnd := String × Option Int

/-- The index of the interface that a connection names. -/
def farIfindex (inputs : StpInputs) (conn : InterfaceConnection) : Option Int :=
  (inputs.topology.devices conn.fqdn).bind fun device =>
    (device.values.find? fun i => i.name = conn.interface).map WeathermapInterface.ifIndex

/-- The two ends of the link that an interface records, if it leads to `dst`. -/
def recorded (inputs : StpInputs) (dst : String) (iface : WeathermapInterface) :
    Option (LinkEnd × LinkEnd) :=
  iface.connectedTo.bind fun conn =>
    if conn.fqdn = dst then
      some ((iface.name, some iface.ifIndex), (conn.interface, farIfindex inputs conn))
    else none

/-- The links recorded at `src` that lead to `dst`. -/
def linksAt (inputs : StpInputs) (src dst : String) : List (LinkEnd × LinkEnd) :=
  ((inputs.topology.devices src).map fun device =>
    device.values.filterMap (recorded inputs dst)).getD []

/-- The links between two devices, recorded at either end. -/
def linksBetween (inputs : StpInputs) (a b : String) : List (LinkEnd × LinkEnd) :=
  linksAt inputs a b ++ (linksAt inputs b a).map Prod.swap

/-- The link carries the VLAN on both ends. -/
def Carries (inputs : StpInputs) (vlan : Int) (a b : String) (link : LinkEnd × LinkEnd) : Prop :=
  ifaceHasVlan inputs a link.1.2 vlan = true ∧ ifaceHasVlan inputs b link.2.2 vlan = true

instance (inputs : StpInputs) (vlan : Int) (a b : String) (link : LinkEnd × LinkEnd) :
    Decidable (Carries inputs vlan a b link) := inferInstanceAs (Decidable (_ ∧ _))

/-! ## What the issue is to say -/

/-- The computed roots of the VLAN. -/
def roots (inputs : StpInputs) (vlan : Int) : List String := (buildInfo inputs vlan).roots

/-- Those that the operator does not expect. -/
def unacknowledged (inputs : StpInputs) (vlan : Int) (expected : PMap String (Option String)) :
    List String := (roots inputs vlan).filter fun fqdn => (expected fqdn).isNone

/-- **The roots share a path**: some link between two of them that the operator does
not expect carries the VLAN on both ends. -/
def SharePath (inputs : StpInputs) (vlan : Int) (expected : PMap String (Option String)) : Prop :=
  ∃ a ∈ unacknowledged inputs vlan expected, ∃ b ∈ unacknowledged inputs vlan expected, a ≠ b ∧
    ∃ link ∈ linksBetween inputs a b, Carries inputs vlan a b link

/-- There is one issue about the roots, bad if they share a path and otherwise a
warning. -/
def SeverityAsMeant (inputs : StpInputs) (vlan : Int) (expected : PMap String (Option String))
    (issues : List DerivedIssue) : Prop :=
  ∃ issue, (issues.filter fun i => i.kind = "stp-flag:multiple-roots") = [issue] ∧
    (issue.severity = sevBad ↔ SharePath inputs vlan expected) ∧
    (issue.severity = sevWarn ↔ ¬SharePath inputs vlan expected)

/-! ## When it does -/

/-- The links between two of the roots, pair by pair, and of a pair those recorded at
the first before those recorded at the second. -/
def rootLinks (inputs : StpInputs) : List String → List ((String × String) × LinkEnd × LinkEnd)
  | [] => []
  | a :: rest =>
    (rest.flatMap fun b => (linksBetween inputs a b).map fun link => ((a, b), link)) ++
      rootLinks inputs rest

/-- The link that is found first lacks the VLAN, and another one between two roots
that the operator does not expect carries it. -/
def Masked (inputs : StpInputs) (vlan : Int) (expected : PMap String (Option String)) : Prop :=
  ∃ first, (rootLinks inputs (roots inputs vlan)).head? = some first ∧
    ¬Carries inputs vlan first.1.1 first.1.2 first.2 ∧ SharePath inputs vlan expected

/-- The link that is found first carries the VLAN and ends at a root that the operator
expects, and no link between two that the operator does not expect carries it. -/
def Borrowed (inputs : StpInputs) (vlan : Int) (expected : PMap String (Option String)) : Prop :=
  ∃ first, (rootLinks inputs (roots inputs vlan)).head? = some first ∧
    Carries inputs vlan first.1.1 first.1.2 first.2 ∧
    ((expected first.1.1).isSome ∨ (expected first.1.2).isSome) ∧
    ¬SharePath inputs vlan expected

/-! ## The evidence -/

variable {inputs : StpInputs} {vlan : Int} {expected : PMap String (Option String)}

theorem findLink_eq (src dst : String) : findLink inputs src dst =
    (linksAt inputs src dst).head?.map fun link => (link.1.1, link.1.2, link.2.1, link.2.2) := by
  unfold findLink linksAt
  cases hdev : inputs.topology.devices src with
  | none => rfl
  | some device =>
    simp only [Option.bind_eq_bind, Option.bind_some, Option.map_some, Option.getD_some,
      List.head?_filterMap, List.map_findSome?]
    congr 1
    funext iface
    cases hconn : iface.connectedTo with
    | none => simp [recorded, hconn]
    | some conn =>
      by_cases hdst : conn.fqdn = dst
      · subst hdst
        simp [recorded, hconn, farIfindex]
      · simp [recorded, hconn, hdst]

/-- A link, with what the VLAN's membership says of its ends. -/
def linkEnds (inputs : StpInputs) (vlan : Int) (link : (String × String) × LinkEnd × LinkEnd) :
    LinkEnds where
  aFqdn := link.1.1
  aInterface := link.2.1.1
  aHasVlan := ifaceHasVlan inputs link.1.1 link.2.1.2 vlan
  bFqdn := link.1.2
  bInterface := link.2.2.1
  bHasVlan := ifaceHasVlan inputs link.1.2 link.2.2.2 vlan

/-- Of a pair of roots, the code takes the first link recorded at either end. -/
theorem link_of_pair (a b : String) :
    ((findLink inputs a b).or ((findLink inputs b a).map fun l =>
      (l.2.2.1, l.2.2.2, l.1, l.2.1))) =
    (linksBetween inputs a b).head?.map fun link =>
      (link.1.1, link.1.2, link.2.1, link.2.2) := by
  rw [linksBetween, List.head?_append, List.head?_map, findLink_eq, findLink_eq]
  cases (linksAt inputs a b).head? with
  | some link => rfl
  | none => cases (linksAt inputs b a).head? <;> rfl

/-- **The evidence is the first of all links between the roots.** -/
theorem rootsAdjacency_eq (roots : List String) : rootsAdjacency inputs vlan roots =
    ((some (rootLinks inputs roots).head?.isSome),
      (rootLinks inputs roots).head?.map (linkEnds inputs vlan)) := by
  induction roots with
  | nil => rfl
  | cons a rest ih =>
    have hpairs : (rest.findSome? fun b => ((findLink inputs a b).or
          ((findLink inputs b a).map fun l => (l.2.2.1, l.2.2.2, l.1, l.2.1))).map fun l => (b, l)) =
        (rest.flatMap fun b => (linksBetween inputs a b).map fun link => ((a, b), link)).head?.map
          fun first => (first.1.2, first.2.1.1, first.2.1.2, first.2.2.1, first.2.2.2) := by
      rw [List.head?_flatMap, List.map_findSome?]
      congr 1
      funext b
      simp only [link_of_pair, Function.comp_apply, List.head?_map, Option.map_map,
        Function.comp_def]
    rw [rootsAdjacency, hpairs, rootLinks, List.head?_append]
    have hfirst : ∀ first, (rest.flatMap fun b =>
        (linksBetween inputs a b).map fun link => ((a, b), link)).head? = some first →
        first.1.1 = a := by
      intro first h
      obtain ⟨b, -, hb⟩ := List.mem_flatMap.mp (List.mem_of_head? h)
      obtain ⟨link, -, rfl⟩ := List.mem_map.mp hb
      rfl
    cases h : (rest.flatMap fun b =>
        (linksBetween inputs a b).map fun link => ((a, b), link)).head? with
    | none => simpa using ih
    | some first =>
      have ha := hfirst first h
      subst ha
      rfl

@[simp] theorem map_fqdn_preferFirst (claims : List RootClaim) :
    (preferFirst claims).map RootClaim.fqdn = claims.map RootClaim.fqdn := by
  cases claims <;> rfl

theorem sharedVlanPath_iff {roots : List String} (hroots : 1 < roots.length) :
    ∃ d, multipleRootsDetail inputs vlan roots = some d ∧
      (d.roots.map RootClaim.fqdn).Perm roots ∧
      (sharedVlanPath d = true ↔ ∃ first, (rootLinks inputs roots).head? = some first ∧
        Carries inputs vlan first.1.1 first.1.2 first.2) := by
  refine ⟨_, if_pos hroots, ?_, ?_⟩
  · rw [map_fqdn_preferFirst]
    refine ((List.perm_insertionSort bridgeIdLe (roots.map (rootClaim inputs vlan))).map _).trans ?_
    rw [List.map_map, show RootClaim.fqdn ∘ rootClaim inputs vlan = id from rfl, List.map_id]
  · simp only [sharedVlanPath, rootsAdjacency_eq, Option.map_map]
    cases (rootLinks inputs roots).head? with
    | none => simp
    | some first => simp [linkEnds, Carries]

/-! ## The flag -/

theorem cycleGuard_flags (info : Info) (fuel : Nat) :
    ∀ (starts flags seen flags' out : List String),
      cycleGuard info fuel starts (flags, seen) = some (flags', out) →
      flags'.filter (· ≠ "cycle") = flags.filter (· ≠ "cycle") := by
  intro starts
  induction starts with
  | nil => intro flags seen flags' out h; cases h; rfl
  | cons start rest ih =>
    intro flags seen flags' out h
    obtain ⟨members, -, h⟩ := Option.bind_eq_some_iff.mp h
    rw [ih _ _ _ _ h]
    split
    · rfl
    · simp

theorem roots_demote (info : Info) (cycleNodes : List String) :
    (info.demote cycleNodes).roots = info.roots := by
  unfold Info.roots Info.demote
  induction info with
  | nil => rfl
  | cons e rest ih =>
    rw [List.map_cons, List.filter_cons, List.filter_cons]
    by_cases hmem : e.1 ∈ cycleNodes <;> by_cases hroot : e.2.rootPort.isNone <;>
      simp [hmem, hroot, ih]

theorem roots_nodup (inputs : StpInputs) (vlan : Int) : (roots inputs vlan).Nodup := by
  have h := nodes_nodup inputs vlan
  rw [← keys_buildInfo] at h
  exact (List.filter_sublist.map Prod.fst).nodup h

/-- The tree carries the flag, once, and the evidence about the roots. -/
theorem buildStpTree_roots {fuel : Nat} {tree : StpTree}
    (h : buildStpTree fuel inputs vlan = some tree) (hroots : 1 < (roots inputs vlan).length) :
    tree.multipleRootsDetail = multipleRootsDetail inputs vlan (roots inputs vlan) ∧
      (tree.flags.filter fun flag => flagCode flag = "multiple-roots") = ["multiple-roots"] := by
  obtain ⟨⟨flags, cycleNodes⟩, hguard, h⟩ := Option.bind_eq_some_iff.mp h
  obtain ⟨emitted, -, rfl⟩ := Option.map_eq_some_iff.mp h
  refine ⟨by simp only [roots_demote]; rfl, ?_⟩
  have hcycle : flagCode "cycle" = "cycle" := by decide
  have hcode : flagCode "multiple-roots" = "multiple-roots" := by decide
  -- raising "cycle" adds no flag of this code
  have hdrop : ∀ l : List String, (l.filter fun flag => flagCode flag = "multiple-roots") =
      (l.filter (· ≠ "cycle")).filter fun flag => flagCode flag = "multiple-roots" := by
    intro l
    rw [List.filter_filter]
    refine List.filter_congr fun flag _ => ?_
    by_cases hflag : flag = "cycle"
    · subst hflag; simp [hcycle]
    · simp [hflag]
  have hports : ((multipleRootPortsFlags inputs vlan).filter
      fun flag => flagCode flag = "multiple-roots") = [] := by
    refine List.filter_eq_nil_iff.mpr fun flag hflag => ?_
    obtain ⟨e, -, he⟩ := List.mem_filterMap.mp hflag
    split at he
    · cases he
      simp [flag_rootPorts]
    · cases he
  have hroot : rootFlags (buildInfo inputs vlan) = ["multiple-roots"] := by
    unfold rootFlags
    split
    · next h0 => rw [roots, h0] at hroots; omega
    · next h1 => rw [roots, h1] at hroots; omega
    · rfl
  show (flags.filter fun flag => flagCode flag = "multiple-roots") = _
  rw [hdrop, cycleGuard_flags _ _ _ _ _ _ _ hguard, ← hdrop, List.filter_append, hports, hroot]
  simp [hcode]

/-! ## The issue -/

theorem flagIssue_kind {names : List String} {tree : StpTree} {flag : String} {issue : DerivedIssue}
    (h : flagIssue names tree expected flag = some issue) :
    issue.kind = "stp-flag:" ++ flagCode flag := by
  unfold flagIssue at h
  dsimp only at h
  split at h
  · split at h
    · split at h
      · cases h
      · cases h; rfl
    · cases h; rfl
  · cases h; rfl

theorem nodeIssues_kind {names : List String} {node : StpNode} {issue : DerivedIssue}
    (h : issue ∈ nodeIssues names vlan node) : issue.kind ≠ "stp-flag:multiple-roots" := by
  rcases List.mem_append.mp h with h | h
  · split at h
    · rw [List.mem_singleton.mp h, mismatchIssue]
      split <;> simp [nodeIssue]
    · cases h
  · split at h
    · rw [List.mem_singleton.mp h]
      simp [orphanIssue, nodeIssue]
    · cases h

theorem filter_filterMap_of_iff {α β : Type} {f : α → Option β} {p : β → Bool} {q : α → Bool}
    (h : ∀ a b, f a = some b → p b = q a) (l : List α) :
    (l.filterMap f).filter p = (l.filter q).filterMap f := by
  induction l with
  | nil => rfl
  | cons a l ih =>
    cases hf : f a with
    | none =>
      rw [List.filterMap_cons_none hf, ih, List.filter_cons]
      split
      · rw [List.filterMap_cons_none hf]
      · rfl
    | some b =>
      rw [List.filterMap_cons_some hf, List.filter_cons, List.filter_cons, h a b hf, ih]
      split
      · rw [List.filterMap_cons_some hf]
      · rfl

/-- The issues about the roots are those of the flag. -/
theorem rootIssues_eq (names : List String) (tree : StpTree) :
    ((stpTreeIssues names tree expected).filter fun i => i.kind = "stp-flag:multiple-roots") =
      (tree.flags.filter fun flag => flagCode flag = "multiple-roots").filterMap
        (flagIssue names tree expected) := by
  have hnodes : ((tree.nodes.flatMap (nodeIssues names tree.vlan)).filter
      fun i => i.kind = "stp-flag:multiple-roots") = [] := by
    refine List.filter_eq_nil_iff.mpr fun issue h => ?_
    obtain ⟨node, -, h⟩ := List.mem_flatMap.mp h
    simpa using nodeIssues_kind h
  rw [stpTreeIssues, List.filter_append, hnodes, List.append_nil]
  refine filter_filterMap_of_iff (fun flag issue h => ?_) _
  rw [flagIssue_kind h]
  exact decide_eq_decide.mpr ⟨fun heq => String.append_right_inj "stp-flag:" |>.mp heq,
    fun heq => by rw [heq]; decide⟩

/-- With more than one root left to account for, the issue is raised, and the evidence
decides how severe it is. -/
theorem flagIssue_severity (names : List String) {tree : StpTree} {d : MultipleRootsDetail}
    (hd : tree.multipleRootsDetail = some d) (hunacked : 1 < (applyExpectedRoots d expected).2) :
    ∃ issue, flagIssue names tree expected "multiple-roots" = some issue ∧
      (issue.severity = sevBad ↔ sharedVlanPath d = true) ∧
      (issue.severity = sevWarn ↔ sharedVlanPath d = false) := by
  have hcode : flagCode "multiple-roots" = "multiple-roots" := by decide
  have hne : ¬(applyExpectedRoots d expected).2 ≤ 1 := by omega
  have hissue : ∃ issue, flagIssue names tree expected "multiple-roots" = some issue ∧
      issue.severity = if sharedVlanPath d = true then sevBad else sevWarn := by
    simp only [flagIssue, hcode, hd, if_true, if_neg hne]
    exact ⟨_, rfl, rfl⟩
  obtain ⟨issue, hissue, hsev⟩ := hissue
  refine ⟨issue, hissue, ?_⟩
  rw [hsev]
  cases sharedVlanPath d <;> simp [sevBad, sevWarn]

theorem applyExpectedRoots_count {d : MultipleRootsDetail} {roots : List String}
    (hperm : (d.roots.map RootClaim.fqdn).Perm roots) :
    (applyExpectedRoots d expected).2 = (roots.filter fun fqdn => (expected fqdn).isNone).length := by
  rw [← (hperm.filter _).length_eq, List.filter_map, List.length_map]
  rfl

/-! ## The links between the roots -/

theorem mem_rootLinks {roots : List String} {l : (String × String) × LinkEnd × LinkEnd}
    (h : l ∈ rootLinks inputs roots) (hnd : roots.Nodup) :
    l.1.1 ∈ roots ∧ l.1.2 ∈ roots ∧ l.1.1 ≠ l.1.2 ∧ l.2 ∈ linksBetween inputs l.1.1 l.1.2 := by
  induction roots with
  | nil => cases h
  | cons a rest ih =>
    rw [List.nodup_cons] at hnd
    rcases List.mem_append.mp h with h | h
    · obtain ⟨b, hb, h⟩ := List.mem_flatMap.mp h
      obtain ⟨link, hlink, rfl⟩ := List.mem_map.mp h
      have hne : a ≠ b := fun heq => hnd.1 (heq.symm ▸ hb)
      exact ⟨List.mem_cons_self, List.mem_cons_of_mem _ hb, hne, hlink⟩
    · obtain ⟨ha, hb, hne, hlink⟩ := ih h hnd.2
      exact ⟨List.mem_cons_of_mem _ ha, List.mem_cons_of_mem _ hb, hne, hlink⟩

/-- A link between two devices is one between them the other way around. -/
theorem linksBetween_swap {a b : String} {link : LinkEnd × LinkEnd}
    (h : link ∈ linksBetween inputs a b) : link.swap ∈ linksBetween inputs b a := by
  rcases List.mem_append.mp h with h | h
  · exact List.mem_append_right _ (List.mem_map_of_mem h)
  · obtain ⟨link', h, rfl⟩ := List.mem_map.mp h
    exact List.mem_append_left _ (by simpa using h)

theorem rootLinks_ne_nil {roots : List String} {a b : String} {link : LinkEnd × LinkEnd}
    (ha : a ∈ roots) (hb : b ∈ roots) (hne : a ≠ b) (h : link ∈ linksBetween inputs a b) :
    rootLinks inputs roots ≠ [] := by
  induction roots with
  | nil => cases ha
  | cons r rest ih =>
    have hpair : ∀ {x y : String} {l : LinkEnd × LinkEnd}, x = r → y ∈ rest →
        l ∈ linksBetween inputs x y → rootLinks inputs (r :: rest) ≠ [] := by
      rintro x y l rfl hy hl
      exact List.ne_nil_of_mem (List.mem_append_left _
        (List.mem_flatMap.mpr ⟨y, hy, List.mem_map_of_mem hl⟩))
    rcases List.mem_cons.mp ha with ha' | ha' <;> rcases List.mem_cons.mp hb with hb' | hb'
    · exact absurd (ha'.trans hb'.symm) hne
    · exact hpair ha' hb' h
    · exact hpair hb' ha' (linksBetween_swap h)
    · intro hnil
      exact ih ha' hb' (List.append_eq_nil_iff.mp hnil).2

/-- The first link speaks for all of them unless it masks or is borrowed. -/
theorem evidence_iff : ((∃ first, (rootLinks inputs (roots inputs vlan)).head? = some first ∧
      Carries inputs vlan first.1.1 first.1.2 first.2) ↔ SharePath inputs vlan expected) ↔
    ¬Masked inputs vlan expected ∧ ¬Borrowed inputs vlan expected := by
  unfold Masked Borrowed
  cases hfirst : (rootLinks inputs (roots inputs vlan)).head? with
  | none =>
    have hshare : ¬SharePath inputs vlan expected := by
      rintro ⟨a, ha, b, hb, hne, link, hlink, -⟩
      exact rootLinks_ne_nil (List.mem_of_mem_filter ha) (List.mem_of_mem_filter hb) hne hlink
        (List.head?_eq_none_iff.mp hfirst)
    simp [hshare]
  | some first =>
    obtain ⟨ha, hb, hne, hlink⟩ := mem_rootLinks (List.mem_of_head? hfirst) (roots_nodup inputs vlan)
    by_cases hcarries : Carries inputs vlan first.1.1 first.1.2 first.2
    · -- a link between two roots that are not expected is a shared path
      have hexpected : ¬SharePath inputs vlan expected →
          (expected first.1.1).isSome ∨ (expected first.1.2).isSome := by
        intro hshare
        by_contra hnone
        rw [not_or, Option.not_isSome_iff_eq_none, Option.not_isSome_iff_eq_none] at hnone
        refine hshare ⟨_, List.mem_filter.mpr ⟨ha, ?_⟩, _, List.mem_filter.mpr ⟨hb, ?_⟩, hne, _,
          hlink, hcarries⟩
        · simp [hnone.1]
        · simp [hnone.2]
      simp only [Option.some.injEq, exists_eq_left', hcarries, not_true_eq_false, false_and,
        not_false_eq_true, true_and, true_iff]
      refine ⟨fun hshare h => h.2 hshare, fun h => ?_⟩
      by_contra hshare
      exact h ⟨hexpected hshare, hshare⟩
    · simp [hcarries]

/-! ## The severity -/

/-- **The issue is as severe as it is meant to be** exactly when the link that is found
first neither masks one that carries the VLAN nor is borrowed from an expected root. -/
theorem multipleRoots_severity_iff (inputs : StpInputs) (vlan : Int)
    (expected : PMap String (Option String)) (names : List String) (fuel : Nat)
    (hfuel : inputs.ports.entries.length + 2 ≤ fuel)
    (hroots : 1 < (unacknowledged inputs vlan expected).length) :
    ∃ tree, buildStpTree fuel inputs vlan = some tree ∧
      (SeverityAsMeant inputs vlan expected (stpTreeIssues names tree expected) ↔
        ¬Masked inputs vlan expected ∧ ¬Borrowed inputs vlan expected) := by
  obtain ⟨tree, htree, -⟩ := buildStpTree_isForest inputs vlan fuel hfuel
  refine ⟨tree, htree, ?_⟩
  have hmany : 1 < (roots inputs vlan).length :=
    hroots.trans_le (List.length_filter_le _ _)
  obtain ⟨hdetail, hflag⟩ := buildStpTree_roots htree hmany
  obtain ⟨d, hd, hperm, hshared⟩ := sharedVlanPath_iff hmany
  obtain ⟨issue, hissue, hbad, hwarn⟩ := flagIssue_severity names (hdetail.trans hd)
    (by rw [applyExpectedRoots_count hperm]; exact hroots)
  have hissues : ((stpTreeIssues names tree expected).filter
      fun i => i.kind = "stp-flag:multiple-roots") = [issue] := by
    rw [rootIssues_eq, hflag, List.filterMap_cons_some hissue, List.filterMap_nil]
  rw [← evidence_iff, ← hshared, SeverityAsMeant]
  constructor
  · rintro ⟨other, hother, hbad', -⟩
    obtain rfl : issue = other := by simpa using hissues.symm.trans hother
    exact hbad.symm.trans hbad'
  · intro h
    refine ⟨issue, hissues, hbad.trans h, ?_⟩
    rw [hwarn, ← h, Bool.not_eq_true]

/-- Two roots with two links between them, of which the second carries the VLAN. -/
def parallelInputs : StpInputs where
  ports := [⟨"sw-a", [⟨100, 1, none, some 2, "designated", "forwarding", 4⟩]⟩,
    ⟨"sw-b", [⟨100, 1, none, some 2, "designated", "forwarding", 4⟩]⟩].toAList
  bridges := PMap.empty
  baseMacs := ∅
  topology := ⟨fun fqdn =>
    if fqdn = "sw-a" then some ⟨[⟨"Gi1", ⟨"Gi1", 1, some ⟨"sw-b", "Gi1"⟩⟩⟩,
      ⟨"Gi2", ⟨"Gi2", 2, some ⟨"sw-b", "Gi2"⟩⟩⟩].toAList⟩
    else if fqdn = "sw-b" then some ⟨[⟨"Gi1", ⟨"Gi1", 1, some ⟨"sw-a", "Gi1"⟩⟩⟩,
      ⟨"Gi2", ⟨"Gi2", 2, some ⟨"sw-a", "Gi2"⟩⟩⟩].toAList⟩
    else none⟩
  lagMembers := PMap.empty
  vlanMembers := fun _ => some fun ifindex => if ifindex = 2 then some (none, [100]) else none

/-- The roots share the second link, and the issue is a warning. -/
theorem parallel_link_masked : ∃ tree, buildStpTree 4 parallelInputs 100 = some tree ∧
    ¬SeverityAsMeant parallelInputs 100 PMap.empty (stpTreeIssues [] tree PMap.empty) := by
  have hshare : SharePath parallelInputs 100 PMap.empty :=
    ⟨"sw-a", by decide +kernel, "sw-b", by decide +kernel, by decide,
      (("Gi2", some 2), ("Gi2", some 2)), by decide +kernel, by decide +kernel⟩
  have hwarn : (buildStpTree 4 parallelInputs 100).map (fun tree =>
      ((stpTreeIssues [] tree PMap.empty).filter fun i => i.kind = "stp-flag:multiple-roots").map
        DerivedIssue.severity) = some ["warn"] := by decide +kernel
  obtain ⟨tree, htree, hwarn⟩ := Option.map_eq_some_iff.mp hwarn
  refine ⟨tree, htree, fun ⟨issue, hissue, hbad, _⟩ => ?_⟩
  rw [hissue] at hwarn
  have hsev : issue.severity = "warn" := by simpa using hwarn
  have : issue.severity = sevBad := hbad.mpr hshare
  rw [hsev] at this
  exact absurd this (by decide)

theorem multipleRoots_severity_iff_parallel :
    ∃ tree, buildStpTree 4 parallelInputs 100 = some tree ∧
      (SeverityAsMeant parallelInputs 100 PMap.empty (stpTreeIssues [] tree PMap.empty) ↔
        ¬Masked parallelInputs 100 PMap.empty ∧ ¬Borrowed parallelInputs 100 PMap.empty) :=
  multipleRoots_severity_iff parallelInputs 100 PMap.empty [] 4 (by decide) (by decide +kernel)

end JaspyNexus.Utilities.StpSeverity
