import Mathlib
import JaspyNexus.Lib.FirstWrite
import JaspyNexus.Lib.Exposition
import JaspyNexus.Snmp.Trap

/-! # The trap handler

`traphandler.rs`: snmptrapd runs it for a trap and pipes the trap in as text, the host's name
first, then the transport address, then a line for each variable binding, its OID translated
by the MIBs. It reads the text and reports the same state change that the receiver of
`snmp/trap.rs` reads off the wire. The translation is snmptrapd's; what the handler relies
on in it is a structure of its own. -/

namespace JaspyNexus.Traphandler
open JaspyNexus.Lib JaspyNexus.Lib.Text JaspyNexus.Models JaspyNexus.Snmp JaspyNexus.Snmp.Trap
open JaspyNexus.Collectors.Poller (asI32)

/-! ## Reading a trap -/

/-- What comes before the first separator. -/
def upTo (s : String) (sep : Char) : String := (splitOnce s sep).elim s Prod.fst

/-- What a line says: the key without its instance, and the value. -/
def entryOf (line : String) : Option (String × String) :=
  (splitOnce (trim line) ' ').map fun parts => (upTo parts.1 '.', parts.2)

/-- `parse_trap_text` -/
def parseTrapText (trap : String) : Option (String × PMap String String) :=
  match split trap '\n' with
  | [] => none
  | hostname :: lines => some (trim hostname, writeNew entryOf lines PMap.empty)

/-- `link_event_from_trap` -/
def linkEventFromTrap (trap : PMap String String) : Option (Int × Bool) :=
  (trap "SNMPv2-MIB::snmpTrapOID").bind fun trapType =>
    let isLinkUp := startsWith trapType "IF-MIB::linkUp"
    let isLinkDown := startsWith trapType "IF-MIB::linkDown"
    if isLinkUp || isLinkDown then
      let ifindexIfmib := (trap "IF-MIB::ifIndex").bind parseI64
      let ifindexRfc1213mib := (trap "RFC1213-MIB::ifIndex").bind parseI64
      (ifindexIfmib.or ifindexRfc1213mib).map fun ifindex => (ifindex, isLinkUp)
    else none

/-- `handle_trap`: the report that is sent, if any. -/
def handleTrap (trap : String) : Option InterfaceMonitorReport :=
  (parseTrapText trap).bind fun parsed => (linkEventFromTrap parsed.2).map fun event =>
    .linkEvent parsed.1 (asI32 event.1) event.2

/-! ## What snmptrapd writes -/

/-- How OIDs and values are written: an OID as the name of its object and what names the
instance. -/
structure Translation where
  object : Oid → String
  instanceOf : Oid → String
  value : VarBind → String

namespace Translation
variable (t : Translation)

def name (oid : Oid) : String := t.object oid ++ t.instanceOf oid

def line (vb : VarBind) : String := t.name vb.oid ++ " " ++ t.value vb

/-- The text of a trap. -/
def text (hostname address : String) (varbinds : List VarBind) : String :=
  String.join ((hostname :: address :: varbinds.map t.line).map (· ++ "\n"))

/-- What the documentation says of the translation, as far as the handler relies on it. -/
structure Documented (t : Translation) : Prop where
  /-- an object is named by its MIB and its descriptor -/
  object_plain : ∀ oid, ∀ c ∈ (t.object oid).toList, isWhitespace c = false ∧ c ≠ '.'
  object_ne : ∀ oid, t.object oid ≠ ""
  /-- the instance is set off by a dot -/
  instanceOf_dot : ∀ oid, t.instanceOf oid = "" ∨ ∃ rest, t.instanceOf oid = "." ++ rest
  /-- `snmpTrapOID` of SNMPv2-MIB -/
  object_trapOid : ∀ oid, t.object oid = "SNMPv2-MIB::snmpTrapOID" ↔ oidSnmpTrapOid.dropLast <+: oid
  /-- `ifIndex`, of the one MIB or the other, whichever is loaded -/
  object_ifIndex : ∃ shown hidden,
    (shown = "IF-MIB::ifIndex" ∧ hidden = "RFC1213-MIB::ifIndex" ∨
      shown = "RFC1213-MIB::ifIndex" ∧ hidden = "IF-MIB::ifIndex") ∧
    ∀ oid, t.object oid ≠ hidden ∧ (t.object oid = shown ↔ oidIfIndex <+: oid)
  /-- the two notifications of IF-MIB, and no other name begins like theirs -/
  object_linkUp : ∀ oid, startsWith (t.object oid) "IF-MIB::linkUp" = true ↔ oidLinkUp <+: oid
  object_linkDown : ∀ oid, startsWith (t.object oid) "IF-MIB::linkDown" = true ↔ oidLinkDown <+: oid
  /-- the instance of a scalar, and of a row under an integer, is written in numbers -/
  instanceOf_plain : ∀ oid, oidSnmpTrapOid.dropLast <+: oid ∨ oidIfIndex <+: oid →
    ∀ c ∈ (t.instanceOf oid).toList, isWhitespace c = false
  /-- an OID is written as a name -/
  value_oid : ∀ oid parts, t.value ⟨oid, .oid parts⟩ = t.name parts
  /-- numbers are written in decimal -/
  value_integer : ∀ oid v, oidIfIndex <+: oid → t.value ⟨oid, .integer v⟩ = toString v
  value_counter32 : ∀ oid n, oidIfIndex <+: oid → t.value ⟨oid, .counter32 n⟩ = Nat.repr n
  value_unsigned32 : ∀ oid n, oidIfIndex <+: oid → t.value ⟨oid, .unsigned32 n⟩ = Nat.repr n

end Translation

/-- `snmpTraps`, under which the generic traps have their notifications. -/
def oidSnmpTraps : Oid := [1, 3, 6, 1, 6, 3, 1, 1, 5]

/-- The notification of a v1 trap: a generic one has its own, another is named by the
enterprise and its specific number. -/
def notificationOf (genericTrap : Int) (enterprise : Oid) (specific : SubId) : Oid :=
  if genericTrap = 6 then enterprise ++ [0, specific]
  else oidSnmpTraps ++ [Fin.ofNat _ (genericTrap.toNat + 1)]

def oidSysUpTime : Oid := [1, 3, 6, 1, 2, 1, 1, 3, 0]

/-- **What snmptrapd makes of a message**: the variable bindings as they are, those of a v1
trap after its notification and before what its header says otherwise. -/
inductive Notified : Pdu → List VarBind → Prop where
  | v2 (pdu : Pdu) (htype : pdu.messageType = .trap ∨ pdu.messageType = .informRequest) :
      Notified pdu pdu.varbinds
  | v1 (pdu : Pdu) (genericTrap : Int) (enterprise : Oid) (specific : SubId) (uptime : Nat)
      (header : List VarBind) (htype : pdu.messageType = .trapV1) (hgeneric : pdu.genericTrap = some genericTrap)
      (hrange : 0 ≤ genericTrap ∧ genericTrap ≤ 6) (hheader : ∀ vb ∈ header, ¬oidIfIndex <+: vb.oid) :
      Notified pdu (⟨oidSysUpTime, .timeticks uptime⟩ ::
        ⟨oidSnmpTrapOid, .oid (notificationOf genericTrap enterprise specific)⟩ :: (pdu.varbinds ++ header))

/-- **A trap as the two readers understand it**: each variable binding is one line, the trap's
OID stands at `snmpTrapOID.0` and is no OID below a notification, and the `ifIndex` is a number. -/
structure WellFormed (t : Translation) (varbinds : List VarBind) : Prop where
  oneLine : ∀ vb ∈ varbinds, '\n' ∉ (t.line vb).toList
  trapOid : ∀ vb ∈ varbinds, oidSnmpTrapOid.dropLast <+: vb.oid → vb.oid = oidSnmpTrapOid ∧
    ∃ parts, vb.value = .oid parts ∧ (∀ c ∈ (t.name parts).toList, isWhitespace c = false) ∧
      (oidLinkUp <+: parts → parts = oidLinkUp) ∧ (oidLinkDown <+: parts → parts = oidLinkDown)
  ifIndex : ∀ vb ∈ varbinds, oidIfIndex <+: vb.oid →
    (∃ v, vb.value = .integer v ∧ -2 ^ 63 ≤ v ∧ v < 2 ^ 63) ∨
    ∃ n, n < 2 ^ 32 ∧ (vb.value = .counter32 n ∨ vb.value = .unsigned32 n)

/-! ## Traps of the first version -/

theorem append_zero_ne (enterprise before : Oid) (specific last : SubId) {c : SubId} (hc : c ≠ 0) :
    enterprise ++ [0, specific] ≠ before ++ [c, last] := by
  intro heq
  have hreverse := congrArg List.reverse heq
  simp only [List.reverse_append, List.reverse_cons, List.reverse_nil, List.nil_append, List.cons_append,
    List.cons.injEq] at hreverse
  exact hc hreverse.2.1.symm

/-- A v1 trap has the notification of a generic trap only where it is that trap. -/
theorem notificationOf_eq_iff {g : Int} {enterprise : Oid} {specific : SubId} (h : 0 ≤ g ∧ g ≤ 6) {n : Nat}
    (hn : n < 6) :
    notificationOf g enterprise specific = oidSnmpTraps ++ [Fin.ofNat _ (n + 1)] ↔ g = n := by
  unfold notificationOf
  by_cases hsix : g = 6
  · have hne := append_zero_ne enterprise [1, 3, 6, 1, 6, 3, 1, 1] specific (Fin.ofNat _ (n + 1))
      (c := 5) (by decide)
    rw [if_pos hsix]
    exact ⟨fun heq => absurd heq hne, fun heq => by omega⟩
  · rw [if_neg hsix, List.append_right_inj, List.singleton_inj]
    constructor
    · intro heq
      have hval := congrArg Fin.val heq
      simp only [Fin.val_ofNat] at hval
      omega
    · intro heq
      rw [heq, Int.toNat_natCast]

/-- **A trap of either version is the notification that snmptrapd makes of it.** -/
theorem linkEventFromPdu_eq {pdu : Pdu} {varbinds : List VarBind} (h : Notified pdu varbinds) :
    linkEventFromPdu pdu = linkEvent .v2 varbinds := by
  cases h with
  | v2 htype =>
    unfold linkEventFromPdu
    rcases htype with htype | htype <;> rw [htype]
  | v1 genericTrap enterprise specific uptime header htype hgeneric hrange hheader =>
    have hup : notificationOf genericTrap enterprise specific = oidLinkUp ↔ genericTrap = 3 :=
      notificationOf_eq_iff hrange (n := 3) (by omega)
    have hdown : notificationOf genericTrap enterprise specific = oidLinkDown ↔ genericTrap = 2 :=
      notificationOf_eq_iff hrange (n := 2) (by omega)
    have huptime : oidSysUpTime ≠ oidSnmpTrapOid := by decide
    have hkind : linkUp .v2 (⟨oidSysUpTime, .timeticks uptime⟩ ::
        ⟨oidSnmpTrapOid, .oid (notificationOf genericTrap enterprise specific)⟩ :: (pdu.varbinds ++ header)) =
        linkUp (.v1 genericTrap) pdu.varbinds := by
      simp [linkUp, huptime, hup, hdown]
    have hnone : (header.find? fun vb => Embedded.startsWith vb.oid oidIfIndex) = none :=
      List.find?_eq_none.mpr fun vb hvb => by simpa [Embedded.startsWith] using hheader vb hvb
    have huptimeIndex : Embedded.startsWith oidSysUpTime oidIfIndex = false := by decide
    have htrapIndex : Embedded.startsWith oidSnmpTrapOid oidIfIndex = false := by decide
    rw [linkEventFromPdu, htype, hgeneric, Option.getD_some]
    dsimp only
    unfold linkEvent
    rw [hkind, List.find?_cons_of_neg (by simp [huptimeIndex]), List.find?_cons_of_neg (by simp [htrapIndex]),
      List.find?_append, hnone, Option.or_none]

/-! ## Lines -/

theorem toList_upTo (s : String) (sep : Char) : (upTo s sep).toList = s.toList.takeWhile (· != sep) := by
  unfold upTo splitOnce
  cases hdrop : s.toList.dropWhile (· != sep) with
  | nil =>
    have hall := List.takeWhile_append_dropWhile (p := (· != sep)) (l := s.toList)
    rw [hdrop, List.append_nil] at hall
    exact hall.symm
  | cons c rest => simp

namespace Translation
variable {t : Translation} (ht : t.Documented)
include ht

theorem Documented.head_plain (vb : VarBind) : ∀ c ∈ (t.line vb).toList.head?, isWhitespace c = false := by
  intro c hc
  have hne : (t.object vb.oid).toList ≠ [] := fun heq => ht.object_ne vb.oid (String.toList_eq_nil_iff.mp heq)
  have hline : (t.line vb).toList = (t.object vb.oid).toList ++
      ((t.instanceOf vb.oid).toList ++ (' ' :: (t.value vb).toList)) := by
    simp [line, name]
  rw [hline, List.head?_append_of_ne_nil _ hne] at hc
  exact (ht.object_plain vb.oid c (List.mem_of_mem_head? hc)).1

/-- Up to its first dot or blank, a line is the name of the object. -/
theorem Documented.takeWhile_line (vb : VarBind) :
    (t.line vb).toList.takeWhile (fun c => c != '.' && c != ' ') = (t.object vb.oid).toList := by
  have hplain : ∀ c ∈ (t.object vb.oid).toList, (c != '.' && c != ' ') = true := by
    intro c hc
    obtain ⟨hblank, hdot⟩ := ht.object_plain vb.oid c hc
    have hne : c ≠ ' ' := fun heq => by
      rw [heq] at hblank
      exact absurd hblank (by decide)
    simp [hdot, hne]
  have hline : (t.line vb).toList = (t.object vb.oid).toList ++
      ((t.instanceOf vb.oid).toList ++ (' ' :: (t.value vb).toList)) := by
    simp [line, name]
  rw [hline, List.takeWhile_append_of_pos hplain]
  rcases ht.instanceOf_dot vb.oid with hnone | ⟨rest, hrest⟩
  · simp [hnone]
  · simp [hrest]

/-- **The key of a line is the name of its object.** -/
theorem Documented.key_of_entryOf {vb : VarBind} {e : String × String} (h : entryOf (t.line vb) = some e) :
    e.1 = t.object vb.oid := by
  obtain ⟨parts, hparts, rfl⟩ := Option.map_eq_some_iff.mp h
  have hblank : ' ' ∈ (trim (t.line vb)).toList := by
    by_contra hnone
    have hdrop : (trim (t.line vb)).toList.dropWhile (· != ' ') = [] :=
      List.dropWhile_eq_nil_iff.mpr fun c hc => bne_iff_ne.mpr (ne_of_mem_of_not_mem hc hnone)
    rw [splitOnce, hdrop] at hparts
    cases hparts
  obtain ⟨parts', hparts', happend⟩ := append_splitOnce hblank
  obtain rfl : parts = parts' := Option.some.inj (hparts.symm.trans hparts')
  have hfirst : parts.1.toList = (trim (t.line vb)).toList.takeWhile (· != ' ') := by
    rw [← toList_upTo, upTo, hparts, Option.elim_some]
  refine String.toList_injective ?_
  dsimp only
  rw [toList_upTo, hfirst, List.takeWhile_takeWhile, ← ht.takeWhile_line vb]
  simp only [Bool.decide_and, Bool.decide_eq_true]
  exact takeWhile_isPrefix (trim_isPrefix (ht.head_plain vb)) hblank (by simp)

/-- A line without white space but the blank that parts it is read as it was written. -/
theorem Documented.entryOf_line {vb : VarBind} (hinstance : ∀ c ∈ (t.instanceOf vb.oid).toList, isWhitespace c = false)
    (hvalue : ∀ c ∈ (t.value vb).toList, isWhitespace c = false) (hne : t.value vb ≠ "") :
    entryOf (t.line vb) = some (t.object vb.oid, t.value vb) := by
  have hblank : ' ' ∉ (t.name vb.oid).toList := by
    intro hmem
    have hplain : isWhitespace ' ' = false := by
      rw [name, String.toList_append] at hmem
      rcases List.mem_append.mp hmem with hmem | hmem
      · exact (ht.object_plain vb.oid _ hmem).1
      · exact hinstance _ hmem
    exact absurd hplain (by decide)
  have hlast : ∀ c ∈ (t.line vb).toList.getLast?, isWhitespace c = false := by
    intro c hc
    have hvalueNe : (t.value vb).toList ≠ [] := fun heq => hne (String.toList_eq_nil_iff.mp heq)
    rw [line, String.toList_append, List.getLast?_append_of_ne_nil _ hvalueNe] at hc
    exact hvalue c (List.mem_of_getLast? hc)
  have hobject : upTo (t.name vb.oid) '.' = t.object vb.oid := by
    refine String.toList_injective ?_
    have hdot : ∀ c ∈ (t.object vb.oid).toList, (c != '.') = true := fun c hc =>
      bne_iff_ne.mpr (ht.object_plain vb.oid c hc).2
    rw [toList_upTo, name, String.toList_append, List.takeWhile_append_of_pos hdot]
    rcases ht.instanceOf_dot vb.oid with hnone | ⟨rest, hrest⟩
    · simp [hnone]
    · simp [hrest]
  rw [entryOf, trim_eq_self_of_ends (ht.head_plain vb) hlast, line, show " " = String.singleton ' ' from rfl,
    splitOnce_append hblank, Option.map_some, hobject]

/-- A name begins with what its object begins with. -/
theorem Documented.startsWith_name {start : String} (hdot : '.' ∉ start.toList) (oid : Oid) :
    startsWith (t.name oid) start = startsWith (t.object oid) start := by
  rw [Bool.eq_iff_iff, startsWith, startsWith, List.isPrefixOf_iff_prefix, List.isPrefixOf_iff_prefix, name,
    String.toList_append]
  constructor
  · intro hbegins
    by_contra hnot
    have hobject := List.prefix_of_prefix_length_le (List.prefix_append _ (t.instanceOf oid).toList) hbegins
      (not_lt.mp fun hlt => hnot (List.prefix_of_prefix_length_le hbegins (List.prefix_append _ _) hlt.le))
    obtain ⟨rest, hrest⟩ := hobject
    rw [← hrest, List.prefix_append_right_inj] at hbegins
    rcases ht.instanceOf_dot oid with hnone | ⟨suffix, hsuffix⟩
    · rw [hnone, String.toList_empty, List.prefix_nil] at hbegins
      rw [hbegins, List.append_nil] at hrest
      exact hnot (hrest ▸ List.prefix_rfl)
    · cases rest with
      | nil =>
        rw [List.append_nil] at hrest
        exact hnot (hrest ▸ List.prefix_rfl)
      | cons c rest =>
        rw [hsuffix, String.toList_append] at hbegins
        obtain ⟨rfl, -⟩ := List.cons_prefix_cons.mp hbegins
        exact hdot (hrest ▸ List.mem_append_right _ List.mem_cons_self)
  · exact fun hbegins => hbegins.trans (List.prefix_append _ _)

end Translation

/-! ## The text read back -/

/-- A search for what a row says is one for the row, where rows that differ say nothing. -/
theorem findSome?_eq_find?_map {α β : Type} {f : α → Option β} {p : α → Bool} {g : α → β} {l : List α}
    (hpos : ∀ x ∈ l, p x = true → f x = some (g x)) (hneg : ∀ x ∈ l, p x = false → f x = none) :
    l.findSome? f = (l.find? p).map g := by
  induction l with
  | nil => rfl
  | cons x rest ih =>
    obtain ⟨hposX, hpos⟩ := List.forall_mem_cons.mp hpos
    obtain ⟨hnegX, hneg⟩ := List.forall_mem_cons.mp hneg
    rw [List.findSome?_cons, List.find?_cons]
    cases hx : p x with
    | true => rw [hposX hx]; rfl
    | false => rw [hnegX hx]; exact ih hpos hneg

/-- The keys that the handler looks up. -/
def readKeys : List String := ["SNMPv2-MIB::snmpTrapOID", "IF-MIB::ifIndex", "RFC1213-MIB::ifIndex"]

variable {t : Translation} {hostname address : String} {varbinds : List VarBind}

/-- **The text is read back line by line**: under a key that the transport address does not
give stands what the first variable binding with it says. -/
theorem parseTrapText_text (hhost : '\n' ∉ hostname.toList) (haddress : '\n' ∉ address.toList)
    (hlines : ∀ vb ∈ varbinds, '\n' ∉ (t.line vb).toList) :
    ∃ trap, parseTrapText (t.text hostname address varbinds) = some (trim hostname, trap) ∧
      ∀ key, told entryOf key address = none →
        trap key = varbinds.findSome? fun vb => told entryOf key (t.line vb) := by
  have hall : ∀ line ∈ hostname :: address :: varbinds.map t.line, '\n' ∉ line.toList := by
    simpa [hhost, haddress] using hlines
  have hempty : ∀ key, told entryOf key "" = none := by
    intro key
    have hnone : entryOf "" = none := by decide
    rw [told, hnone, Option.bind_none]
  refine ⟨_, by rw [parseTrapText, Translation.text, Exposition.split_lines hall, List.cons_append], ?_⟩
  intro key hkey
  rw [writeNew_apply, PMap.empty_apply, Option.none_or, List.cons_append, List.findSome?_cons, hkey,
    List.findSome?_append, List.findSome?_map]
  simp [hempty, Function.comp_def]

theorem isWhitespace_of_isDigit {c : Char} (h : c.isDigit = true) : isWhitespace c = false := by
  rw [Char.isDigit_iff_toNat] at h
  have hzero : '0'.toNat = 48 := rfl
  have hnine : '9'.toNat = 57 := rfl
  simp only [isWhitespace, Bool.or_eq_false_iff, Bool.and_eq_false_iff, decide_eq_false_iff_not]
  omega

theorem isWhitespace_of_mem_repr {n : Nat} {c : Char} (h : c ∈ (Nat.repr n).toList) : isWhitespace c = false :=
  isWhitespace_of_isDigit (isDigit_of_mem_repr h)

theorem isWhitespace_of_mem_toString {v : Int} {c : Char} (h : c ∈ (toString v).toList) : isWhitespace c = false := by
  cases v with
  | ofNat n => exact isWhitespace_of_mem_repr h
  | negSucc n =>
    have h' : c ∈ ("-" ++ Nat.repr (n + 1)).toList := h
    rw [String.toList_append] at h'
    rcases List.mem_append.mp h' with hsign | hdigits
    · obtain rfl : c = '-' := by simpa using hsign
      decide
    · exact isWhitespace_of_mem_repr hdigits

section Agreement
variable (ht : t.Documented) (hw : WellFormed t varbinds)
include ht

/-- A line speaks of its object only. -/
theorem told_line_eq_none {vb : VarBind} {key : String} (h : t.object vb.oid ≠ key) :
    told entryOf key (t.line vb) = none :=
  told_eq_none_iff.mpr fun _ he => ht.key_of_entryOf he ▸ h

include hw

/-- What is read of `snmpTrapOID`. -/
theorem findSome?_trapOid :
    (varbinds.findSome? fun vb => told entryOf "SNMPv2-MIB::snmpTrapOID" (t.line vb)) =
      (varbinds.find? fun vb => decide (vb.oid = oidSnmpTrapOid)).map t.value := by
  refine findSome?_eq_find?_map (fun vb hvb hoid => ?_) (fun vb hvb hoid => told_line_eq_none ht fun hkey => ?_)
  · have hbegins : oidSnmpTrapOid.dropLast <+: vb.oid := of_decide_eq_true hoid ▸ List.dropLast_prefix _
    obtain ⟨-, parts, hparts, hplain, -⟩ := hw.trapOid vb hvb hbegins
    have hvalue : t.value vb = t.name parts := by
      rw [← ht.value_oid vb.oid parts, ← hparts]
    have hne : t.value vb ≠ "" := by
      rw [hvalue, Translation.name, ne_eq, String.append_eq_empty_iff]
      exact fun hboth => ht.object_ne parts hboth.1
    rw [← (ht.object_trapOid vb.oid).mpr hbegins]
    exact told_of_say (ht.entryOf_line (ht.instanceOf_plain vb.oid (.inl hbegins)) (hvalue ▸ hplain) hne)
  · have hbegins := (ht.object_trapOid vb.oid).mp hkey
    exact of_decide_eq_false hoid (hw.trapOid vb hvb hbegins).1

omit hw in
/-- The value of an `ifIndex` is written as the number it is. -/
theorem value_ifIndex {vb : VarBind} (hbegins : oidIfIndex <+: vb.oid)
    (hvalue : (∃ v, vb.value = .integer v ∧ -2 ^ 63 ≤ v ∧ v < 2 ^ 63) ∨
      ∃ n, n < 2 ^ 32 ∧ (vb.value = .counter32 n ∨ vb.value = .unsigned32 n)) :
    (∀ c ∈ (t.value vb).toList, isWhitespace c = false) ∧ t.value vb ≠ "" ∧
      ∃ v, parseI64 (t.value vb) = some v ∧ ifindexValue vb.oid vb.value = some v := by
  have hnumber : ∀ {v : Int}, -2 ^ 63 ≤ v ∧ v < 2 ^ 63 → t.value vb = toString v →
      (∀ c ∈ (t.value vb).toList, isWhitespace c = false) ∧ t.value vb ≠ "" ∧
        parseI64 (t.value vb) = some v := by
    intro v hrange hwritten
    have hparse := parseI64_toString hrange
    rw [hwritten]
    refine ⟨fun c hc => isWhitespace_of_mem_toString hc, fun hempty => ?_, hparse⟩
    have hnone : parseI64 "" = none := by decide
    rw [hempty, hnone] at hparse
    cases hparse
  obtain ⟨oid, value⟩ := vb
  rcases hvalue with ⟨v, rfl, hrange⟩ | ⟨n, hn, rfl | rfl⟩
  · obtain ⟨hplain, hne, hparse⟩ := hnumber hrange (ht.value_integer oid v hbegins)
    exact ⟨hplain, hne, v, hparse, rfl⟩
  · obtain ⟨hplain, hne, hparse⟩ := hnumber (v := n) (by omega) (ht.value_counter32 oid n hbegins)
    exact ⟨hplain, hne, n, hparse, rfl⟩
  · obtain ⟨hplain, hne, hparse⟩ := hnumber (v := n) (by omega) (ht.value_unsigned32 oid n hbegins)
    exact ⟨hplain, hne, n, hparse, rfl⟩

/-- What is read of `ifIndex`, under the name that it is shown by. -/
theorem findSome?_ifIndex {shown : String} (hshown : ∀ oid, t.object oid = shown ↔ oidIfIndex <+: oid) :
    ((varbinds.findSome? fun vb => told entryOf shown (t.line vb)).bind parseI64) =
      (varbinds.find? fun vb => Embedded.startsWith vb.oid oidIfIndex).bind fun vb => ifindexValue vb.oid vb.value := by
  have hfind : (varbinds.findSome? fun vb => told entryOf shown (t.line vb)) =
      (varbinds.find? fun vb => Embedded.startsWith vb.oid oidIfIndex).map t.value := by
    refine findSome?_eq_find?_map (fun vb hvb hoid => ?_) (fun vb hvb hoid => told_line_eq_none ht fun hkey => ?_)
    · have hbegins : oidIfIndex <+: vb.oid := of_decide_eq_true hoid
      obtain ⟨hplain, hne, -⟩ := value_ifIndex ht hbegins (hw.ifIndex vb hvb hbegins)
      rw [← (hshown vb.oid).mpr hbegins]
      exact told_of_say (ht.entryOf_line (ht.instanceOf_plain vb.oid (.inr hbegins)) hplain hne)
    · exact of_decide_eq_false hoid ((hshown vb.oid).mp hkey)
  rw [hfind]
  cases hvb : varbinds.find? fun vb => Embedded.startsWith vb.oid oidIfIndex with
  | none => rfl
  | some vb =>
    have hbegins : oidIfIndex <+: vb.oid := by simpa [Embedded.startsWith] using List.find?_some hvb
    obtain ⟨-, -, v, hparse, hdecoded⟩ :=
      value_ifIndex ht hbegins (hw.ifIndex vb (List.mem_of_find?_eq_some hvb) hbegins)
    rw [Option.map_some, Option.bind_some, Option.bind_some, hparse, hdecoded]

/-- **What is read of the text is what is decoded of the trap.** -/
theorem linkEventFromTrap_eq {trap : PMap String String}
    (htrap : ∀ key ∈ readKeys, trap key = varbinds.findSome? fun vb => told entryOf key (t.line vb)) :
    linkEventFromTrap trap = linkEvent .v2 varbinds := by
  have hindex : ((trap "IF-MIB::ifIndex").bind parseI64).or ((trap "RFC1213-MIB::ifIndex").bind parseI64) =
      (varbinds.find? fun vb => Embedded.startsWith vb.oid oidIfIndex).bind fun vb =>
        ifindexValue vb.oid vb.value := by
    obtain ⟨shown, hidden, hnames, hobjects⟩ := ht.object_ifIndex
    have hshown := findSome?_ifIndex ht hw fun oid => (hobjects oid).2
    have hhidden : (varbinds.findSome? fun vb => told entryOf hidden (t.line vb)) = none :=
      List.findSome?_eq_none_iff.mpr fun vb _ => told_line_eq_none ht (hobjects vb.oid).1
    rw [htrap "IF-MIB::ifIndex" (by simp [readKeys]), htrap "RFC1213-MIB::ifIndex" (by simp [readKeys]), ← hshown]
    rcases hnames with ⟨rfl, rfl⟩ | ⟨rfl, rfl⟩
    · rw [hhidden, Option.bind_none, Option.or_none]
    · rw [hhidden, Option.bind_none, Option.none_or]
  have hread : linkEventFromTrap trap = (trap "SNMPv2-MIB::snmpTrapOID").bind fun trapType =>
      if startsWith trapType "IF-MIB::linkUp" || startsWith trapType "IF-MIB::linkDown" then
        (((trap "IF-MIB::ifIndex").bind parseI64).or ((trap "RFC1213-MIB::ifIndex").bind parseI64)).map
          fun ifindex => (ifindex, startsWith trapType "IF-MIB::linkUp")
      else none := rfl
  rw [hread, hindex, htrap _ (List.mem_cons_self), findSome?_trapOid ht hw, linkEvent_eq, linkUp]
  cases htype : varbinds.find? fun vb => decide (vb.oid = oidSnmpTrapOid) with
  | none => rfl
  | some vb =>
    have hoid : vb.oid = oidSnmpTrapOid := by simpa using List.find?_some htype
    obtain ⟨-, parts, hparts, -, hup, hdown⟩ :=
      hw.trapOid vb (List.mem_of_find?_eq_some htype) (hoid ▸ List.dropLast_prefix _)
    have hvalue : t.value vb = t.name parts := by rw [← ht.value_oid vb.oid parts, ← hparts]
    have hisUp : startsWith (t.name parts) "IF-MIB::linkUp" = decide (parts = oidLinkUp) := by
      rw [Bool.eq_iff_iff, ht.startsWith_name (by simp), ht.object_linkUp, decide_eq_true_eq]
      exact ⟨hup, fun heq => heq ▸ List.prefix_rfl⟩
    have hisDown : startsWith (t.name parts) "IF-MIB::linkDown" = decide (parts = oidLinkDown) := by
      rw [Bool.eq_iff_iff, ht.startsWith_name (by simp), ht.object_linkDown, decide_eq_true_eq]
      exact ⟨hdown, fun heq => heq ▸ List.prefix_rfl⟩
    have hdistinct : oidLinkDown ≠ oidLinkUp := by decide
    simp only [Option.map_some, Option.bind_some, hvalue, hparts, hisUp, hisDown]
    by_cases heqUp : parts = oidLinkUp
    · simp [heqUp]
    · by_cases heqDown : parts = oidLinkDown
      · simp [heqDown, hdistinct]
      · simp [heqUp, heqDown]

/-- **The two ways in report the same**: what the handler makes of the text that snmptrapd
writes of a trap is the report that the receiver makes of the trap itself. -/
theorem handleTrap_text {pdu : Pdu} (hnotified : Notified pdu varbinds) (hhost : '\n' ∉ hostname.toList)
    (haddress : '\n' ∉ address.toList) (htransport : ∀ e, entryOf address = some e → e.1 ∉ readKeys) :
    handleTrap (t.text hostname address varbinds) =
      (linkEventFromPdu pdu).map fun event => .linkEvent (trim hostname) (asI32 event.1) event.2 := by
  obtain ⟨trap, hparse, htrap⟩ := parseTrapText_text (t := t) hhost haddress hw.oneLine
  have hevent : linkEventFromTrap trap = linkEventFromPdu pdu := by
    rw [linkEventFromPdu_eq hnotified]
    refine linkEventFromTrap_eq ht hw fun key hkey => htrap key ?_
    exact told_eq_none_iff.mpr fun e he heq => htransport e he (heq ▸ hkey)
  rw [handleTrap, hparse, Option.bind_some, hevent]

end Agreement

/-! ## A translation -/

/-- The objects that the trap is about, with their names. -/
def namedObjects : List (Oid × String) :=
  [(oidSnmpTrapOid.dropLast, "SNMPv2-MIB::snmpTrapOID"), (oidIfIndex, "IF-MIB::ifIndex"),
    (oidLinkUp, "IF-MIB::linkUp"), (oidLinkDown, "IF-MIB::linkDown")]

def namedObject (oid : Oid) : Option (Oid × String) := namedObjects.find? fun e => decide (e.1 <+: oid)

/-- Sub-identifiers in numbers, each after a dot. -/
def dotted (oid : Oid) : String := String.join (oid.map fun sub : SubId => "." ++ Nat.repr sub)

theorem isWhitespace_of_mem_dotted {oid : Oid} {c : Char} (h : c ∈ (dotted oid).toList) : isWhitespace c = false := by
  unfold dotted at h
  induction oid with
  | nil => simp at h
  | cons sub rest ih =>
    rw [List.map_cons, String.join_cons, String.toList_append, String.toList_append] at h
    rcases List.mem_append.mp h with h | h
    · rcases List.mem_append.mp h with h | h
      · obtain rfl : c = '.' := by simpa using h
        decide
      · exact isWhitespace_of_mem_repr h
    · exact ih h

/-- The sub-identifiers after the object. -/
def instanceDigits (oid : Oid) : String := dotted (oid.drop ((namedObject oid).elim 1 fun e => e.1.length))

def shownObject (oid : Oid) : String := (namedObject oid).elim "iso" Prod.snd

/-- The objects of the trap by their names, all else in numbers. -/
def ifMib : Translation where
  object := shownObject
  instanceOf := instanceDigits
  value vb := match vb.value with
    | .integer v => toString v
    | .counter32 n | .unsigned32 n | .timeticks n => Nat.repr n
    | .oid parts => shownObject parts ++ instanceDigits parts
    | _ => ""

/-- No named object is below another. -/
theorem namedObject_eq {e : Oid × String} (he : e ∈ namedObjects) {oid : Oid} (h : e.1 <+: oid) :
    namedObject oid = some e := by
  have hapart : ∀ e ∈ namedObjects, ∀ e' ∈ namedObjects, e.1 <+: e'.1 → e = e' := by decide
  cases hfind : namedObject oid with
  | none => exact absurd h (of_decide_eq_false (Bool.eq_false_iff.mpr (List.find?_eq_none.mp hfind e he)))
  | some e' =>
    have he' : e' ∈ namedObjects := List.mem_of_find?_eq_some hfind
    have h' : e'.1 <+: oid := by simpa using List.find?_some hfind
    rcases le_total e.1.length e'.1.length with hle | hle
    · rw [hapart e he e' he' (List.prefix_of_prefix_length_le h h' hle)]
    · rw [hapart e' he' e he (List.prefix_of_prefix_length_le h' h hle)]

theorem object_mem (oid : Oid) : ifMib.object oid = "iso" ∨ ∃ e ∈ namedObjects, e.1 <+: oid ∧ ifMib.object oid = e.2 := by
  cases hfind : namedObject oid with
  | none => exact .inl (by simp [ifMib, shownObject, hfind])
  | some e =>
    have hbegins : e.1 <+: oid := by simpa using List.find?_some hfind
    exact .inr ⟨e, List.mem_of_find?_eq_some hfind, hbegins, by simp [ifMib, shownObject, hfind]⟩

/-- A name is told apart by what is true of it alone. -/
theorem object_iff {e : Oid × String} (he : e ∈ namedObjects) {p : String → Prop}
    (hp : ∀ e' ∈ namedObjects, p e'.2 → e' = e) (hself : p e.2) (hother : ¬p "iso") (oid : Oid) :
    p (ifMib.object oid) ↔ e.1 <+: oid := by
  constructor
  · intro hobject
    rcases object_mem oid with hiso | ⟨e', he', hbegins, hname⟩
    · rw [hiso] at hobject
      exact absurd hobject hother
    · rw [hname] at hobject
      rwa [← hp e' he' hobject]
  · intro hbegins
    simpa [ifMib, shownObject, namedObject_eq he hbegins] using hself

theorem ifMib_documented : ifMib.Documented where
  object_plain oid := by
    have hnames : ∀ e ∈ namedObjects, ∀ c ∈ e.2.toList, isWhitespace c = false ∧ c ≠ '.' := by
      simp [namedObjects, isWhitespace]
    rcases object_mem oid with hiso | ⟨e, he, -, hname⟩
    · rw [hiso]
      simp [isWhitespace]
    · rw [hname]
      exact hnames e he
  object_ne oid := by
    have hnames : ∀ e ∈ namedObjects, e.2 ≠ "" := by simp [namedObjects]
    rcases object_mem oid with hiso | ⟨e, he, -, hname⟩
    · simp [hiso]
    · rw [hname]
      exact hnames e he
  instanceOf_dot oid := by
    show instanceDigits oid = "" ∨ ∃ rest, instanceDigits oid = "." ++ rest
    rw [instanceDigits, dotted]
    cases oid.drop ((namedObject oid).elim 1 fun e => e.1.length) with
    | nil => exact .inl rfl
    | cons sub rest => exact .inr ⟨_, by rw [List.map_cons, String.join_cons, String.append_assoc]⟩
  object_trapOid := object_iff (e := (oidSnmpTrapOid.dropLast, "SNMPv2-MIB::snmpTrapOID")) (by simp [namedObjects])
    (p := fun s => s = "SNMPv2-MIB::snmpTrapOID") (by simp [namedObjects]) rfl (by simp)
  object_ifIndex := by
    refine ⟨"IF-MIB::ifIndex", "RFC1213-MIB::ifIndex", .inl ⟨rfl, rfl⟩, fun oid => ⟨?_, ?_⟩⟩
    · rcases object_mem oid with hiso | ⟨e, he, -, hname⟩
      · simp [hiso]
      · rw [hname]
        revert e
        simp [namedObjects]
    · exact object_iff (e := (oidIfIndex, "IF-MIB::ifIndex")) (by simp [namedObjects])
        (p := fun s => s = "IF-MIB::ifIndex") (by simp [namedObjects]) rfl (by simp) oid
  object_linkUp := object_iff (e := (oidLinkUp, "IF-MIB::linkUp")) (by simp [namedObjects])
    (p := fun s => startsWith s "IF-MIB::linkUp" = true) (by simp [namedObjects, startsWith])
    (by simp [startsWith, List.isPrefixOf]) (by simp [startsWith, List.isPrefixOf])
  object_linkDown := object_iff (e := (oidLinkDown, "IF-MIB::linkDown")) (by simp [namedObjects])
    (p := fun s => startsWith s "IF-MIB::linkDown" = true) (by simp [namedObjects, startsWith])
    (by simp [startsWith, List.isPrefixOf]) (by simp [startsWith, List.isPrefixOf])
  instanceOf_plain _ _ _ hc := isWhitespace_of_mem_dotted hc
  value_oid _ _ := rfl
  value_integer _ _ _ := rfl
  value_counter32 _ _ _ := rfl
  value_unsigned32 _ _ _ := rfl

/-- A linkDown of the second version. -/
def linkDownTrap : Pdu where
  messageType := .trap
  genericTrap := none
  varbinds := [⟨oidSysUpTime, .timeticks 5⟩, ⟨oidSnmpTrapOid, .oid oidLinkDown⟩,
    ⟨oidIfIndex ++ [10101], .integer 10101⟩]

/-- Nothing that is written is white space. -/
theorem isWhitespace_of_mem_name {oid : Oid} {c : Char} (h : c ∈ (ifMib.name oid).toList) : isWhitespace c = false := by
  rw [Translation.name, String.toList_append] at h
  rcases List.mem_append.mp h with h | h
  · exact (ifMib_documented.object_plain oid c h).1
  · exact isWhitespace_of_mem_dotted h

theorem isWhitespace_of_mem_value {vb : VarBind} {c : Char} (h : c ∈ (ifMib.value vb).toList) :
    isWhitespace c = false := by
  obtain ⟨oid, value⟩ := vb
  cases value with
  | integer v => exact isWhitespace_of_mem_toString h
  | counter32 n | unsigned32 n | timeticks n => exact isWhitespace_of_mem_repr h
  | oid parts => exact isWhitespace_of_mem_name h
  | _ => simp [ifMib] at h

theorem ifMib_oneLine (vb : VarBind) : '\n' ∉ (ifMib.line vb).toList := by
  have hblank : isWhitespace '\n' = true := by decide
  rw [Translation.line, String.toList_append, String.toList_append, List.mem_append, List.mem_append, not_or, not_or]
  refine ⟨⟨fun h => ?_, by simp⟩, fun h => ?_⟩
  · rw [isWhitespace_of_mem_name h] at hblank
    cases hblank
  · rw [isWhitespace_of_mem_value h] at hblank
    cases hblank

theorem linkDownTrap_wellFormed : WellFormed ifMib linkDownTrap.varbinds where
  oneLine vb _ := ifMib_oneLine vb
  trapOid := by
    intro vb hvb hbegins
    rcases List.mem_cons.mp hvb with rfl | hvb
    · exact absurd hbegins (by decide)
    rcases List.mem_cons.mp hvb with rfl | hvb
    · exact ⟨rfl, oidLinkDown, rfl, fun c hc => isWhitespace_of_mem_name hc, fun h => absurd h (by decide), fun _ => rfl⟩
    · obtain rfl := List.mem_singleton.mp hvb
      exact absurd hbegins (by decide)
  ifIndex := by
    intro vb hvb hbegins
    rcases List.mem_cons.mp hvb with rfl | hvb
    · exact absurd hbegins (by decide)
    rcases List.mem_cons.mp hvb with rfl | hvb
    · exact absurd hbegins (by decide)
    · obtain rfl := List.mem_singleton.mp hvb
      exact .inl ⟨10101, rfl, by decide⟩

theorem handleTrap_text_linkDown :
    handleTrap (ifMib.text "sw1.lan" "UDP: [10.0.0.1]:55240->[10.0.0.2]:162" linkDownTrap.varbinds) =
      some (.linkEvent "sw1.lan" 10101 false) := by
  have htransport : ∀ e, entryOf "UDP: [10.0.0.1]:55240->[10.0.0.2]:162" = some e → e.1 ∉ readKeys := by
    intro e he
    have htrim : trim "UDP: [10.0.0.1]:55240->[10.0.0.2]:162" = "UDP: [10.0.0.1]:55240->[10.0.0.2]:162" :=
      trim_eq_self_of_ends (by simp [isWhitespace]) (by simp [isWhitespace])
    have hparts : splitOnce "UDP: [10.0.0.1]:55240->[10.0.0.2]:162" ' ' =
        some ("UDP:", "[10.0.0.1]:55240->[10.0.0.2]:162") :=
      @splitOnce_append "UDP:" "[10.0.0.1]:55240->[10.0.0.2]:162" ' ' (by simp)
    have hkey : upTo "UDP:" '.' = "UDP:" := String.toList_injective (by rw [toList_upTo]; rfl)
    rw [entryOf, htrim, hparts, Option.map_some, hkey] at he
    obtain rfl := Option.some.inj he
    simp [readKeys]
  rw [handleTrap_text ifMib_documented linkDownTrap_wellFormed (.v2 linkDownTrap (.inl rfl)) (by simp) (by simp) htransport]
  have hevent : linkEventFromPdu linkDownTrap = some (10101, false) := by decide
  have htrim : trim "sw1.lan" = "sw1.lan" := trim_eq_self (by simp [isWhitespace])
  rw [hevent, Option.map_some, htrim]
  rfl

end JaspyNexus.Traphandler
