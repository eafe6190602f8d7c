import Mathlib
import JaspyNexus.Routes.IssueParts

/-! # Whether keys are distinct

The issues of aggregates are told apart by the aggregate's ifIndex and by what a warning
is about: the name of a member, or its ifIndex where the member has no row. A port that is
named by a number can take the place of a member without a row. -/

namespace JaspyNexus.Routes.Fleet
open JaspyNexus.Lib JaspyNexus.Lib.Text JaspyNexus.Models JaspyNexus.Utilities JaspyNexus.Utilities.Issues
open JaspyNexus.Collectors.Lagpoller

/-- Issues whose kinds are not suppressed are apart. -/
def Free (suppressed : List String) (a b : DerivedIssue) : Prop :=
  a.kind ∉ suppressed → b.kind ∉ suppressed → Apart a b

theorem Apart.free {a b : DerivedIssue} {suppressed : List String} (h : Apart a b) : Free suppressed a b :=
  fun _ _ => h

theorem Apart.symm {a b : DerivedIssue} (h : Apart a b) : Apart b a := fun heq => h heq.symm

namespace Snapshot
variable (s : Snapshot)

/-- The aggregate's members are told apart by their labels, where it matters: none without
a row has the number for its ifIndex that another one has for its name, with the same
warning, unless that is suppressed or another issue covers it. -/
def LabelsApart (device : Device) (agg : Int) (group : LagGroup) : Prop :=
  ∀ i j member member' code, group.members.lookup i = some member → group.members.lookup j = some member' →
    s.rowAt device i = none → (s.rowAt device j).map Interface.name = some (toString i) →
    memberCode group.protocol member = some code → memberCode group.protocol member' = some code →
    "lag:" ++ code ∈ s.suppressed ∨ covered (s.portChannel device agg group) (code ++ ":" ++ toString i) = true

/-- **When keys are distinct**: in every aggregate, members are told apart. -/
def NumbersApart : Prop :=
  ∀ device ∈ s.db.devices, ∀ e ∈ s.aggregates device, s.LabelsApart device e.1 e.2

end Snapshot

/-! ## Warnings -/

theorem splitOnce_code {code rest : String} (h : ':' ∉ code.toList) :
    splitOnce (code ++ ":" ++ rest) ':' = some (code, rest) := by
  have hcolon : ":" = String.singleton ':' := by decide
  rw [hcolon, splitOnce_append h]

theorem flagCode_append {code rest : String} (h : ':' ∉ code.toList) :
    flagCode (code ++ ":" ++ rest) = code ∧ warningSuffix (code ++ ":" ++ rest) = some rest := by
  simp [flagCode, warningSuffix, splitOnce_code h]

/-- The codes of members. -/
def memberCodes : List String := ["member-no-lacp-partner", "member-not-bundled"]

theorem memberCode_mem {protocol code : String} {member : LagMember} (h : memberCode protocol member = some code) :
    code ∈ memberCodes := by
  unfold memberCode at h
  split at h
  · cases h
    exact List.mem_cons_self
  · split at h <;> cases h
    exact List.mem_cons_of_mem _ List.mem_cons_self

theorem memberCode_plain {protocol code : String} {member : LagMember} (h : memberCode protocol member = some code) :
    ':' ∉ code.toList := by
  have hall : ∀ code ∈ memberCodes, ':' ∉ code.toList := by decide
  exact hall code (memberCode_mem h)

section
variable (group : LagGroup) (info : PMap Int MemberMeta) (peerLags : PMap String DeviceLags)

/-- The codes of the warnings before those about members. -/
def codesBefore : List String := ["not-lacp", "single-member"]

/-- The codes of the warnings after those about members. -/
def codesAfter : List String :=
  ["members-report-different-partners", "members-wired-to-different-devices", "far-end-lag-not-found",
    "far-end-member-count-mismatch"]

theorem farEnd_codes : ((group.farEndWarnings info peerLags).map flagCode).Sublist
    ["far-end-lag-not-found", "far-end-member-count-mismatch"] := by
  unfold LagGroup.farEndWarnings
  split
  · split
    · split
      · decide
      · split
        · decide
        · exact List.nil_sublist _
    · exact List.nil_sublist _
  · exact List.nil_sublist _

/-- The warnings about members stand between others that have codes of their own. -/
theorem warnings_eq : ∃ before after, portChannelWarnings group info peerLags =
    before ++ group.memberWarnings info ++ after ∧ (before.map flagCode).Sublist codesBefore ∧
      (after.map flagCode).Sublist codesAfter := by
  refine ⟨(if group.protocol ≠ "lacp" then ["not-lacp:" ++ group.protocol] else []) ++
    (if group.members.entries.length < 2 then ["single-member"] else []),
    (if 1 < group.partnerIds.length then ["members-report-different-partners"] else []) ++
    (if 1 < (group.peerFqdns info).length then ["members-wired-to-different-devices"] else []) ++
    group.farEndWarnings info peerLags, ?_, ?_, ?_⟩
  · simp only [portChannelWarnings, List.append_assoc]
  · have hcode : flagCode ("not-lacp:" ++ group.protocol) = "not-lacp" := by
      have heq : "not-lacp:" = "not-lacp" ++ ":" := by decide
      rw [heq, (flagCode_append (by decide)).1]
    rw [List.map_append]
    exact (ite_sublist hcode).append (ite_sublist (k := "single-member") (by decide))
  · simp only [List.map_append]
    exact ((ite_sublist (k := "members-report-different-partners") (by decide)).append
      (ite_sublist (k := "members-wired-to-different-devices") (by decide))).append (farEnd_codes group info peerLags)

variable {group info peerLags}

theorem mem_memberWarnings {warning : String} (h : warning ∈ group.memberWarnings info) :
    flagCode warning ∈ memberCodes := by
  obtain ⟨e, -, h⟩ := List.mem_filterMap.mp h
  obtain ⟨code, hcode, rfl⟩ := Option.map_eq_some_iff.mp h
  rw [(flagCode_append (memberCode_plain hcode)).1]
  exact memberCode_mem hcode

/-- A relation of warnings with different codes is decided by those about members. -/
theorem warnings_pairwise_iff {P : String → String → Prop} (hcode : ∀ w w', flagCode w ≠ flagCode w' → P w w') :
    (portChannelWarnings group info peerLags).Pairwise P ↔ (group.memberWarnings info).Pairwise P := by
  obtain ⟨before, after, heq, hbefore, hafter⟩ := warnings_eq group info peerLags
  have hsolo : ∀ {l codes : List String}, (l.map flagCode).Sublist codes → codes.Nodup → l.Pairwise P :=
    fun hl hcodes => (List.pairwise_map.mp (hl.nodup hcodes)).imp (hcode _ _)
  have hacross : ∀ {l l' codes codes' : List String}, (∀ w ∈ l, flagCode w ∈ codes) →
      (∀ w ∈ l', flagCode w ∈ codes') → (∀ code ∈ codes, code ∉ codes') → ∀ w ∈ l, ∀ w' ∈ l', P w w' :=
    fun hl hl' hdisjoint w hw w' hw' => hcode w w' fun hsame => hdisjoint _ (hl w hw) (hsame ▸ hl' w' hw')
  have hb : ∀ w ∈ before, flagCode w ∈ codesBefore := fun w hw => hbefore.subset (List.mem_map_of_mem hw)
  have ha : ∀ w ∈ after, flagCode w ∈ codesAfter := fun w hw => hafter.subset (List.mem_map_of_mem hw)
  have hm : ∀ w ∈ group.memberWarnings info, flagCode w ∈ memberCodes := fun w hw => mem_memberWarnings hw
  have hbm : ∀ w ∈ before ++ group.memberWarnings info, flagCode w ∈ codesBefore ++ memberCodes := by
    intro w hw
    rcases List.mem_append.mp hw with hw | hw
    · exact List.mem_append_left _ (hb w hw)
    · exact List.mem_append_right _ (hm w hw)
  rw [heq, List.pairwise_append, List.pairwise_append]
  refine ⟨fun h => h.1.2.1, fun h => ⟨⟨hsolo hbefore (by decide), h, hacross hb hm (by decide)⟩,
    hsolo hafter (by decide), hacross hbm ha (by decide)⟩⟩

end

/-! ## Issues of one aggregate -/

section
variable {fqdn : String} {pc : PortChannel} {rootDepth : PMap String Nat} {issue : DerivedIssue}

theorem mem_warningIssue {warning : String} (h : warningIssue fqdn pc warning = some issue) :
    parts issue = (fqdn, "lag:" ++ flagCode warning, toString pc.ifIndex ++ ":" ++ (warningSuffix warning).getD "") := by
  unfold warningIssue at h
  dsimp only at h
  split at h <;> cases h
  rfl

/-- A warning has an issue unless another one covers it. -/
theorem warningIssue_isSome {warning : String} (h : covered pc warning = false) :
    ∃ issue, warningIssue fqdn pc warning = some issue := by
  unfold warningIssue
  dsimp only
  rw [h]
  exact ⟨_, rfl⟩

theorem mem_memberDownIssue (h : memberDownIssue fqdn pc rootDepth = some issue) :
    ∃ names, parts issue = (fqdn, "lag:member-link-down", toString pc.ifIndex ++ ":" ++ names) := by
  unfold memberDownIssue at h
  split at h <;> cases h
  exact ⟨_, rfl⟩

theorem mem_speedIssue (h : speedIssue fqdn pc = some issue) :
    parts issue = (fqdn, "lag:speed-mismatch", toString pc.ifIndex ++ ":" ++ "speed") := by
  unfold speedIssue at h
  dsimp only at h
  split at h <;> cases h
  rfl

/-- Every issue of an aggregate is about the device and starts with the aggregate. -/
theorem mem_portChannelIssues (h : issue ∈ portChannelIssues fqdn pc rootDepth) : ∃ kind subject,
    parts issue = (fqdn, kind, toString pc.ifIndex ++ ":" ++ subject) ∧
      (kind ∈ ["lag:member-link-down", "lag:speed-mismatch"] ∨ ∃ w ∈ pc.warnings, kind = "lag:" ++ flagCode w) := by
  rcases List.mem_append.mp h with h | h
  · rcases List.mem_append.mp h with h | h
    · obtain ⟨names, hparts⟩ := mem_memberDownIssue (Option.mem_toList.mp h)
      exact ⟨_, _, hparts, .inl List.mem_cons_self⟩
    · exact ⟨_, _, mem_speedIssue (Option.mem_toList.mp h), .inl (List.mem_cons_of_mem _ List.mem_cons_self)⟩
  · obtain ⟨w, hw, h⟩ := List.mem_filterMap.mp h
    exact ⟨_, _, mem_warningIssue h, .inr ⟨w, hw, rfl⟩⟩

theorem kind_of_parts {fqdn kind subject fqdn' kind' subject' : String}
    (h : (fqdn, kind, subject) = (fqdn', kind', subject')) : kind = kind' := by
  simp only [Prod.mk.injEq] at h
  exact h.2.1

theorem lag_append_inj {a b : String} (h : "lag:" ++ a = "lag:" ++ b) : a = b := by simpa using h

/-- The issues of two warnings are told apart, where they are not suppressed. -/
def WarningsFree (suppressed : List String) (fqdn : String) (pc : PortChannel) (w w' : String) : Prop :=
  ∀ x, warningIssue fqdn pc w = some x → ∀ y, warningIssue fqdn pc w' = some y → Free suppressed x y

theorem warningsFree_of_code {suppressed : List String} {w w' : String} (h : flagCode w ≠ flagCode w') :
    WarningsFree suppressed fqdn pc w w' := by
  intro x hx y hy _ _ hsame
  rw [mem_warningIssue hx, mem_warningIssue hy] at hsame
  exact h (lag_append_inj (kind_of_parts hsame))

end

section
variable {s : NamedSnapshot} {device : Device} {agg : Int} {group : LagGroup} {rootDepth : PMap String Nat}

/-- The codes of an aggregate's warnings. -/
theorem warnings_code {w : String} (hw : w ∈ (s.portChannel device agg group).warnings) :
    flagCode w ∈ codesBefore ++ memberCodes ++ codesAfter := by
  obtain ⟨before, after, heq, hbefore, hafter⟩ :=
    warnings_eq group (s.memberInfo device group) (s.peerLags device group)
  have hw' : w ∈ before ++ group.memberWarnings (s.memberInfo device group) ++ after := heq ▸ hw
  rcases List.mem_append.mp hw' with hw | hw
  · rcases List.mem_append.mp hw with hw | hw
    · exact List.mem_append_left _ (List.mem_append_left _ (hbefore.subset (List.mem_map_of_mem hw)))
    · exact List.mem_append_left _ (List.mem_append_right _ (mem_memberWarnings hw))
  · exact List.mem_append_right _ (hafter.subset (List.mem_map_of_mem hw))

theorem lagKinds_of_code {code : String} (h : code ∈ codesBefore ++ memberCodes ++ codesAfter) :
    "lag:" ++ code ∈ lagKinds ∧ "lag:" ++ code ∉ ["lag:member-link-down", "lag:speed-mismatch"] := by
  have hall : ∀ code ∈ codesBefore ++ memberCodes ++ codesAfter, "lag:" ++ code ∈ lagKinds ∧
      "lag:" ++ code ∉ ["lag:member-link-down", "lag:speed-mismatch"] := by decide
  exact hall code h

/-- **The issues of an aggregate** are told apart when those of its members' warnings are. -/
theorem portChannelIssues_iff : (portChannelIssues device.fqdn (s.portChannel device agg group) rootDepth).Pairwise
      (Free s.suppressed) ↔
    (group.memberWarnings (s.memberInfo device group)).Pairwise
      (WarningsFree s.suppressed device.fqdn (s.portChannel device agg group)) := by
  rw [portChannelIssues, List.pairwise_append, List.pairwise_filterMap]
  have hwarnings : (s.portChannel device agg group).warnings.Pairwise
      (fun w w' => ∀ x, warningIssue device.fqdn (s.portChannel device agg group) w = some x →
        ∀ y, warningIssue device.fqdn (s.portChannel device agg group) w' = some y → Free s.suppressed x y) ↔ _ :=
    warnings_pairwise_iff (fun w w' h => warningsFree_of_code h)
  rw [hwarnings]
  refine ⟨fun h => h.2.1, fun h => ⟨?_, h, ?_⟩⟩
  · refine List.pairwise_append.mpr ⟨?_, ?_, ?_⟩
    · cases memberDownIssue device.fqdn (s.portChannel device agg group) rootDepth with
      | none => exact .nil
      | some issue => exact List.pairwise_singleton _ _
    · cases speedIssue device.fqdn (s.portChannel device agg group) with
      | none => exact .nil
      | some issue => exact List.pairwise_singleton _ _
    · intro x hx y hy
      obtain ⟨names, hparts⟩ := mem_memberDownIssue (Option.mem_toList.mp hx)
      refine Apart.free fun hsame => ?_
      rw [hparts, mem_speedIssue (Option.mem_toList.mp hy)] at hsame
      exact absurd (kind_of_parts hsame) (by decide)
  · intro x hx y hy
    obtain ⟨w, hw, hy⟩ := List.mem_filterMap.mp hy
    refine Apart.free fun hsame => ?_
    have hkind := (lagKinds_of_code (warnings_code hw)).2
    rw [mem_warningIssue hy] at hsame
    rcases List.mem_append.mp hx with hx | hx
    · obtain ⟨names, hparts⟩ := mem_memberDownIssue (Option.mem_toList.mp hx)
      rw [hparts] at hsame
      exact hkind (kind_of_parts hsame ▸ List.mem_cons_self)
    · rw [mem_speedIssue (Option.mem_toList.mp hx)] at hsame
      exact hkind (kind_of_parts hsame ▸ List.mem_cons_of_mem _ List.mem_cons_self)

/-! ## Labels -/

theorem colon_not_mem_toString (n : Int) : ':' ∉ (toString n).toList := by
  have hnat : ∀ m : Nat, ':' ∉ (Nat.repr m).toList := by
    intro m hmem
    rw [Nat.toList_repr] at hmem
    exact absurd (Nat.isDigit_of_mem_toDigits (by decide) (by decide) hmem) (by decide)
  cases n with
  | ofNat m => exact hnat m
  | negSucc m =>
    show ':' ∉ ("-" ++ Nat.repr (m + 1)).toList
    rw [String.toList_append, List.mem_append]
    rintro (hmem | hmem)
    · exact absurd hmem (by decide)
    · exact hnat (m + 1) hmem

theorem toString_injective {i j : Int} (h : toString i = toString j) : i = j := Int.repr_injective h

theorem memberLabel_eq {i : Int} (hi : i ∈ group.members) :
    memberLabel (s.memberInfo device group) i = ((s.rowAt device i).map Interface.name).getD (toString i) := by
  rw [memberLabel, Snapshot.memberInfo, if_pos hi, Option.map_map]
  rfl

/-- Two members with one label: one without a row has the other's name for its number. -/
theorem label_collision (hdevice : device ∈ s.db.devices) {i j : Int} (hi : i ∈ group.members)
    (hj : j ∈ group.members) (hne : i ≠ j)
    (h : memberLabel (s.memberInfo device group) i = memberLabel (s.memberInfo device group) j) :
    (s.rowAt device i = none ∧ (s.rowAt device j).map Interface.name = some (toString i)) ∨
      (s.rowAt device j = none ∧ (s.rowAt device i).map Interface.name = some (toString j)) := by
  rw [memberLabel_eq hi, memberLabel_eq hj] at h
  cases hrow : s.rowAt device i with
  | none =>
    cases hrow' : s.rowAt device j with
    | none =>
      rw [hrow, hrow'] at h
      exact absurd (toString_injective h) hne
    | some row' =>
      rw [hrow, hrow'] at h
      exact .inl ⟨rfl, congrArg some h.symm⟩
  | some row =>
    cases hrow' : s.rowAt device j with
    | none =>
      rw [hrow, hrow'] at h
      exact .inr ⟨rfl, congrArg some h⟩
    | some row' =>
      rw [hrow, hrow'] at h
      have hsame : row = row' := List.inj_on_of_nodup_map (s.names device hdevice)
        (List.mem_of_find?_eq_some hrow) (List.mem_of_find?_eq_some hrow') h
      have hindex : row.index = i := by simpa using List.find?_some hrow
      have hindex' : row'.index = j := by simpa using List.find?_some hrow'
      exact absurd (hindex.symm.trans (hsame ▸ hindex')) hne

/-- A warning is told apart from another one with the same text only if it gets no issue. -/
theorem warningsFree_self {suppressed : List String} {fqdn : String} {pc : PortChannel} {w : String} :
    WarningsFree suppressed fqdn pc w w ↔ "lag:" ++ flagCode w ∈ suppressed ∨ covered pc w = true := by
  constructor
  · intro h
    by_contra hnot
    obtain ⟨hkind, hcovered⟩ := not_or.mp hnot
    obtain ⟨issue, hissue⟩ : ∃ issue, warningIssue fqdn pc w = some issue :=
      warningIssue_isSome (Bool.eq_false_iff.mpr hcovered)
    have hnotsup : issue.kind ∉ suppressed := by
      rwa [kind_of_parts (mem_warningIssue hissue)]
    exact h issue hissue issue hissue hnotsup hnotsup rfl
  · rintro (hkind | hcovered) x hx y hy
    · intro hnot
      rw [kind_of_parts (mem_warningIssue hx)] at hnot
      exact absurd hkind hnot
    · rw [warningIssue, if_pos hcovered] at hx
      cases hx

theorem warningsFree_symm (suppressed : List String) (fqdn : String) (pc : PortChannel) :
    Std.Symm (WarningsFree suppressed fqdn pc) where
  symm _ _ h x hx y hy hkind hkind' := (h y hy x hx hkind' hkind).symm

/-- The relation of two members whose warnings have issues that are told apart. -/
def EntriesFree (s : Snapshot) (device : Device) (agg : Int) (group : LagGroup) (e e' : Int × LagMember) : Prop :=
  ∀ code, memberCode group.protocol e.2 = some code → ∀ code', memberCode group.protocol e'.2 = some code' →
    WarningsFree s.suppressed device.fqdn (s.portChannel device agg group)
      (code ++ ":" ++ memberLabel (s.memberInfo device group) e.1)
      (code' ++ ":" ++ memberLabel (s.memberInfo device group) e'.1)

theorem entriesFree_symm (s : Snapshot) (device : Device) (agg : Int) (group : LagGroup) :
    Std.Symm (EntriesFree s device agg group) where
  symm _ _ h code hcode code' hcode' := (warningsFree_symm _ _ _).symm _ _ (h code' hcode' code hcode)

/-- **The warnings about members** have issues that are told apart exactly when their
labels are. -/
theorem memberWarnings_iff (hdevice : device ∈ s.db.devices) :
    (group.memberWarnings (s.memberInfo device group)).Pairwise
      (WarningsFree s.suppressed device.fqdn (s.portChannel device agg group)) ↔
    s.LabelsApart device agg group := by
  have hentries : (group.memberWarnings (s.memberInfo device group)).Pairwise
      (WarningsFree s.suppressed device.fqdn (s.portChannel device agg group)) ↔
      (HashMap.byKey group.members).Pairwise (EntriesFree s.toSnapshot device agg group) := by
    rw [LagGroup.memberWarnings, List.pairwise_filterMap]
    simp only [Option.map_eq_some_iff, forall_exists_index, and_imp, forall_apply_eq_imp_iff₂]
    rfl
  rw [hentries]
  constructor
  · intro h i j member member' code hi hj hnone hname hcode hcode'
    have hne : ((i, member) : Int × LagMember) ≠ (j, member') := by
      intro hsame
      cases hsame
      rw [hnone] at hname
      cases hname
    have := entriesFree_symm s.toSnapshot device agg group
    have hfree := h.forall (HashMap.mem_byKey.mpr hi) (HashMap.mem_byKey.mpr hj) hne code hcode code hcode'
    rw [memberLabel_eq (HashMap.mem_iff_lookup.mpr ⟨_, hi⟩), memberLabel_eq (HashMap.mem_iff_lookup.mpr ⟨_, hj⟩),
      hnone, hname] at hfree
    have hself := warningsFree_self.mp hfree
    rwa [(flagCode_append (memberCode_plain hcode)).1] at hself
  · intro h
    refine (List.pairwise_map.mp HashMap.nodup_byKey).imp_of_mem ?_
    intro e e' he he' hne code hcode code' hcode'
    have hmember : e.1 ∈ group.members := HashMap.mem_iff_lookup.mpr ⟨_, HashMap.mem_byKey.mp he⟩
    have hmember' : e'.1 ∈ group.members := HashMap.mem_iff_lookup.mpr ⟨_, HashMap.mem_byKey.mp he'⟩
    by_cases hsame : code = code'
    · subst hsame
      by_cases hlabel : memberLabel (s.memberInfo device group) e.1 = memberLabel (s.memberInfo device group) e'.1
      · rw [hlabel, warningsFree_self, (flagCode_append (memberCode_plain hcode)).1, memberLabel_eq hmember']
        rcases label_collision hdevice hmember hmember' hne hlabel with ⟨hnone, hname⟩ | ⟨hnone, hname⟩
        · rw [hname]
          exact h _ _ _ _ code (HashMap.mem_byKey.mp he) (HashMap.mem_byKey.mp he') hnone hname hcode hcode'
        · rw [hnone]
          exact h _ _ _ _ code (HashMap.mem_byKey.mp he') (HashMap.mem_byKey.mp he) hnone hname hcode' hcode
      · intro x hx y hy _ _ hparts
        rw [mem_warningIssue hx, mem_warningIssue hy, (flagCode_append (memberCode_plain hcode)).2,
          (flagCode_append (memberCode_plain hcode)).2] at hparts
        have hsubject := congrArg (fun p => p.2.2) hparts
        exact hlabel (by simpa using hsubject)
    · refine warningsFree_of_code ?_
      rwa [(flagCode_append (memberCode_plain hcode)).1, (flagCode_append (memberCode_plain hcode')).1]

/-! ## Issues of all aggregates -/

theorem aggregates_nodup : ((s.aggregates device).map Prod.fst).Nodup := by
  unfold Snapshot.aggregates
  cases s.lags device.fqdn with
  | none => exact List.nodup_nil
  | some lags => exact HashMap.nodup_byKey

theorem mem_lagIssues {issue : DerivedIssue} (h : issue ∈ s.lagIssues device) :
    issue.fqdn = device.fqdn ∧ issue.kind ∈ lagKinds := by
  obtain ⟨e, -, h⟩ := List.mem_flatMap.mp h
  obtain ⟨kind, subject, hparts, hkind⟩ := mem_portChannelIssues h
  refine ⟨congrArg Prod.fst hparts, ?_⟩
  have hissue : issue.kind = kind := kind_of_parts hparts
  rw [hissue]
  rcases hkind with hkind | ⟨w, hw, rfl⟩
  · have hall : ∀ kind ∈ ["lag:member-link-down", "lag:speed-mismatch"], kind ∈ lagKinds := by decide
    exact hall kind hkind
  · exact (lagKinds_of_code (warnings_code hw)).1

/-- The issues of a device's aggregates are told apart when the members of each are. -/
theorem lagIssues_iff (hdevice : device ∈ s.db.devices) : (s.lagIssues device).Pairwise (Free s.suppressed) ↔
    ∀ e ∈ s.aggregates device, s.LabelsApart device e.1 e.2 := by
  rw [Snapshot.lagIssues, pairwise_flatMap_of_owner Prod.fst aggregates_nodup]
  · refine forall₂_congr fun e _ => ?_
    rw [portChannelIssues_iff, memberWarnings_iff hdevice]
  · intro e _ e' _ hne x hx y hy
    obtain ⟨kind, subject, hparts, -⟩ := mem_portChannelIssues hx
    obtain ⟨kind', subject', hparts', -⟩ := mem_portChannelIssues hy
    refine Apart.free fun hsame => hne ?_
    rw [hparts, hparts'] at hsame
    have hsubject := congrArg (fun p => splitOnce p.2.2 ':') hsame
    simp only [Snapshot.portChannel] at hsubject
    rw [splitOnce_code (colon_not_mem_toString _), splitOnce_code (colon_not_mem_toString _)] at hsubject
    exact toString_injective (congrArg Prod.fst (Option.some.inj hsubject))

end

/-! ## All issues -/

section
variable (s : NamedSnapshot)

/-- Issues of disjoint lists of kinds are apart. -/
theorem free_of_kinds {suppressed kinds kinds' : List String} {l l' : List DerivedIssue}
    (hl : ∀ x ∈ l, x.kind ∈ kinds) (hl' : ∀ y ∈ l', y.kind ∈ kinds') (hdisjoint : ∀ kind ∈ kinds, kind ∉ kinds') :
    ∀ x ∈ l, ∀ y ∈ l', Free suppressed x y :=
  fun x hx y hy => Apart.free (Apart.of_kind fun hsame => hdisjoint _ (hl x hx) (hsame ▸ hl' y hy))

theorem kind_deviceIssues : ∀ x ∈ s.db.devices.flatMap s.deviceIssues, x.kind ∈ deviceKinds := by
  intro x hx
  obtain ⟨device, -, hx⟩ := List.mem_flatMap.mp hx
  exact (mem_deviceIssues s hx).2

theorem kind_lagIssues : ∀ x ∈ s.db.devices.flatMap s.lagIssues, x.kind ∈ lagKinds := by
  intro x hx
  obtain ⟨device, -, hx⟩ := List.mem_flatMap.mp hx
  exact (mem_lagIssues hx).2

theorem kind_beforeLags : ∀ x ∈ s.db.devices.flatMap s.deviceIssues ++ s.stpIssues ++ s.poeIssues,
    x.kind ∈ deviceKinds ++ (stpFlagKinds ++ stpNodeKinds) ++ poeKinds := by
  intro x hx
  rcases List.mem_append.mp hx with hx | hx
  · rcases List.mem_append.mp hx with hx | hx
    · exact List.mem_append_left _ (List.mem_append_left _ (kind_deviceIssues s x hx))
    · exact List.mem_append_left _ (List.mem_append_right _ (mem_stpIssues s hx).2)
  · exact List.mem_append_right _ (mem_poeIssues s hx).2

/-- Every issue is of a kind of the catalog. -/
theorem collectIssues_known {issue : DerivedIssue} (h : issue ∈ s.collectIssues) : isKnownKind issue.kind = true := by
  rw [isKnownKind_iff]
  rcases List.mem_append.mp (List.mem_of_mem_filter h) with h | h
  · exact List.mem_append_left _ (kind_beforeLags s issue h)
  · exact List.mem_append_right _ (kind_lagIssues s issue h)

/-- No issue is about a device with a bar in its name. -/
theorem collectIssues_plain {issue : DerivedIssue} (h : issue ∈ s.collectIssues) : '|' ∉ issue.fqdn.toList := by
  have hdevice : ∀ device ∈ s.db.devices, '|' ∉ device.fqdn.toList := fun device hdevice =>
    s.plain _ (.inl (List.mem_map_of_mem hdevice))
  rcases List.mem_append.mp (List.mem_of_mem_filter h) with h | h
  · rcases List.mem_append.mp h with h | h
    · rcases List.mem_append.mp h with h | h
      · obtain ⟨device, hmem, h⟩ := List.mem_flatMap.mp h
        rw [(mem_deviceIssues s h).1]
        exact hdevice device hmem
      · rcases (mem_stpIssues s h).1 with hempty | hfqdn
        · rw [hempty]
          decide
        · exact s.plain _ (.inr (.inl hfqdn))
    · exact s.plain _ (.inr (.inr (mem_poeIssues s h).1))
  · obtain ⟨device, hmem, h⟩ := List.mem_flatMap.mp h
    rw [(mem_lagIssues h).1]
    exact hdevice device hmem

theorem collectIssues_apart_iff : s.collectIssues.Pairwise Apart ↔ s.NumbersApart := by
  have hfree : s.collectIssues.Pairwise Apart ↔ (s.db.devices.flatMap s.deviceIssues ++ s.stpIssues ++
      s.poeIssues ++ s.db.devices.flatMap s.lagIssues).Pairwise (Free s.suppressed) := by
    rw [Snapshot.collectIssues, List.pairwise_filter]
    simp only [decide_eq_true_eq]
    rfl
  have hlags : (s.db.devices.flatMap s.lagIssues).Pairwise (Free s.suppressed) ↔ s.NumbersApart := by
    rw [pairwise_flatMap_of_owner Device.fqdn s.fqdns]
    · exact forall₂_congr fun device hdevice => lagIssues_iff hdevice
    · intro device _ device' _ hne x hx y hy
      refine Apart.free (Apart.of_fqdn ?_)
      rwa [(mem_lagIssues hx).1, (mem_lagIssues hy).1]
  have hdevices : (s.db.devices.flatMap s.deviceIssues).Pairwise Apart := by
    refine (pairwise_flatMap_of_owner Device.fqdn s.fqdns ?_).mpr fun device _ => deviceIssues_apart s
    intro device _ device' _ hne x hx y hy
    refine Apart.of_fqdn ?_
    rwa [(mem_deviceIssues s hx).1, (mem_deviceIssues s hy).1]
  rw [hfree, List.pairwise_append, hlags]
  refine ⟨fun h => h.2.1, fun h => ⟨?_, h, free_of_kinds (kind_beforeLags s) (kind_lagIssues s) (by decide)⟩⟩
  refine List.pairwise_append.mpr ⟨?_, (poeIssues_apart s).imp Apart.free, ?_⟩
  · exact List.pairwise_append.mpr ⟨hdevices.imp Apart.free, (stpIssues_apart s).imp Apart.free,
      free_of_kinds (kind_deviceIssues s) (fun x hx => (mem_stpIssues s hx).2) (by decide)⟩
  · have hbefore : ∀ x ∈ s.db.devices.flatMap s.deviceIssues ++ s.stpIssues,
        x.kind ∈ deviceKinds ++ (stpFlagKinds ++ stpNodeKinds) := by
      intro x hx
      rcases List.mem_append.mp hx with hx | hx
      · exact List.mem_append_left _ (kind_deviceIssues s x hx)
      · exact List.mem_append_right _ (mem_stpIssues s hx).2
    exact free_of_kinds hbefore (fun x hx => (mem_poeIssues s hx).2) (by decide)

/-- **Keys of issues**: they are distinct, and each is of a kind of the catalog, exactly
when no member of an aggregate without a row shares its number with another one's name. -/
theorem keys_distinct_iff : (s.collectIssues.map DerivedIssue.issueKey).Nodup ∧
    (∀ issue ∈ s.collectIssues, isKnownKind issue.kind = true) ↔ s.NumbersApart := by
  rw [and_iff_left fun issue h => collectIssues_known s h, ← collectIssues_apart_iff, List.Nodup, List.pairwise_map]
  have hkeys : ∀ {a b : DerivedIssue}, a ∈ s.collectIssues → b ∈ s.collectIssues →
      (a.issueKey ≠ b.issueKey ↔ Apart a b) := fun ha hb =>
    not_congr (issueKey_inj (collectIssues_plain s ha) (collectIssues_plain s hb) (collectIssues_known s ha)
      (collectIssues_known s hb))
  exact ⟨fun h => h.imp_of_mem fun ha hb => (hkeys ha hb).mp, fun h => h.imp_of_mem fun ha hb => (hkeys ha hb).mpr⟩

/-- A switch whose port 5 is named 10, in an aggregate with port 10, of which there is no
row yet; neither port is bundled. -/
def numberedPort : NamedSnapshot where
  now := 0
  db := ⟨[⟨1, "sw", "lan", none, none, none, none, none, none⟩],
    [⟨1, 5, "ethernetCsmacd", none, 1, none, "10", none, none, none, none, none, none, none, none⟩]⟩
  cfg := .default
  imds := .empty
  visited := fun _ => []
  lags := PMap.insert PMap.empty "sw.lan" ⟨[⟨100, "lacp", none, none,
    [⟨5, LagMember.default⟩, ⟨10, LagMember.default⟩].toAList⟩].toAList⟩
  stpPorts := ∅
  stpBridges := PMap.empty
  topology := ⟨PMap.empty⟩
  vlanMembers := PMap.empty
  vlanNames := PMap.empty
  expectedRoots := PMap.empty
  poeBudgets := ∅
  media := fun _ => PMap.empty
  suppressed := []
  fqdns := by decide
  plain := by
    rintro fqdn (hdevice | hport | hbudget)
    · rw [List.mem_singleton.mp hdevice]
      decide
    · exact absurd hport (AList.notMem_empty _)
    · exact absurd hbudget (AList.notMem_empty _)
  names := by decide
  groups := groups_empty
  visits := visits_empty

/-- **Two members with one key**: the row named 10 and the port numbered 10. -/
theorem numbered_port_collides : numberedPort.collectIssues.map DerivedIssue.issueKey =
      ["sw.lan|lag:member-not-bundled|100:10", "sw.lan|lag:member-not-bundled|100:10"] ∧
    ¬ (numberedPort.collectIssues.map DerivedIssue.issueKey).Nodup := by
  decide +kernel

end

end JaspyNexus.Routes.Fleet
