import Mathlib
import JaspyNexus.Lib.StableSort
import JaspyNexus.Models.MetricText
import JaspyNexus.Utilities.Pollstats

/-! # The counters of the polls as text

`render_from` of `utilities/pollstats.rs`. The counters of a key are loaded while others add
to them, so what the loads give is a parameter. -/

namespace JaspyNexus.Utilities.QueryStats
open JaspyNexus.Lib JaspyNexus.Lib.Exposition

def escape (v : String) : String :=
  Text.replace (Text.replace (Text.replace v "\\" "\\\\") "\"" "\\\"") "\n" "\\n"

structure Row where
  fqdn : String
  query : String
  counters : QueryCounters
  deriving DecidableEq, Repr

structure Family where
  name : String
  help : String
  counter : Counter
  deriving DecidableEq, Repr

def families : List Family :=
  [⟨"jaspy_poll_snmp_requests_total", "SNMP table/object requests issued, by device and query", .requests⟩,
   ⟨"jaspy_poll_snmp_values_total", "SNMP metric data points fetched, by device and query", .values⟩,
   ⟨"jaspy_poll_snmp_errors_total", "SNMP requests returning a genuine (non-timeout) error", .errors⟩,
   ⟨"jaspy_poll_snmp_timeouts_total", "SNMP requests where the device did not respond", .timeouts⟩,
   ⟨"jaspy_poll_snmp_nanos_total", "Time spent in non-timeout SNMP requests (ns)", .nanos⟩]

/-- `splitn(2)` at the separator. -/
def keyParts (key : String) : String × String := (Text.splitOnce key separator).getD (key, "")

/-- What the rows are sorted by: all of them. -/
def Row.sortKey (row : Row) : String ×ₗ String ×ₗ List Nat :=
  toLex (row.fqdn, toLex (row.query, row.counters.snapshot))

def rowOf (loads : Nat → QueryCounters) (key : String) (id : Nat) : Row :=
  ⟨(keyParts key).1, (keyParts key).2, loads id⟩

def rows (registry : HashMap String Nat) (loads : Nat → QueryCounters) : List Row :=
  sortByKey Row.sortKey (registry.entries.map fun e => rowOf loads e.1 e.2)

def Family.header (family : Family) : List String :=
  ["# HELP " ++ family.name ++ " " ++ family.help, "# TYPE " ++ family.name ++ " counter"]

def Row.line (family : Family) (row : Row) : String :=
  family.name ++ "\x7bfqdn=\"" ++ escape row.fqdn ++ "\",query=\"" ++ escape row.query ++ "\"\x7d " ++
    Nat.repr (row.counters.get family.counter)

def lines (registry : HashMap String Nat) (loads : Nat → QueryCounters) : List String :=
  families.flatMap fun family => family.header ++ (rows registry loads).map (Row.line family)

def renderFrom (registry : HashMap String Nat) (loads : Nat → QueryCounters) : String :=
  String.join ((lines registry loads).map (· ++ "\n"))

/-- The sample of a row. -/
def Row.sample (family : Family) (row : Row) : Sample :=
  ⟨family.name, [("fqdn", row.fqdn), ("query", row.query)], Nat.repr (row.counters.get family.counter), none⟩

def cells (registry : HashMap String Nat) (loads : Nat → QueryCounters) : List (Family × Row) :=
  families.product (rows registry loads)

def samples (registry : HashMap String Nat) (loads : Nat → QueryCounters) : List Sample :=
  (cells registry loads).map fun cell => cell.2.sample cell.1

/-! ## The escapes are those of the format -/

theorem escape_toList (v : String) : (escape v).toList ++ ['"'] = escapes.quote v.toList := by
  have hescape : ∀ c : Char,
      ((if c = '\\' then "\\\\".toList else [c]).flatMap fun d =>
        (if d = '"' then "\\\"".toList else [d]).flatMap fun e => if e = '\n' then "\\n".toList else [e]) =
          escapes.escape c := by
    intro c
    by_cases hslash : c = '\\'
    · subst hslash
      rfl
    by_cases hquote : c = '"'
    · subst hquote
      rfl
    by_cases hline : c = '\n'
    · subst hline
      rfl
    simp [hslash, hquote, hline, Escapes.escape, escapes, Ne.symm hslash, Ne.symm hquote, Ne.symm hline]
  have hflat : (escape v).toList = v.toList.flatMap escapes.escape := by
    simp only [escape, Text.replace, String.toList_ofList]
    rw [show "\\".toList = ['\\'] from rfl, show "\"".toList = ['"'] from rfl, show "\n".toList = ['\n'] from rfl,
      Text.replaceFrom_singleton, Text.replaceFrom_singleton, Text.replaceFrom_singleton, List.flatMap_assoc,
      List.flatMap_assoc]
    exact List.flatMap_congr fun c _ => hescape c
  rw [hflat, Escapes.quote]

/-- A quoted value stands on one line. -/
theorem newline_notMem_escape (v : String) : '\n' ∉ (escape v).toList := by
  intro hmem
  have hquote : '\n' ∈ escapes.quote v.toList := by
    rw [← escape_toList]
    exact List.mem_append_left _ hmem
  rw [Escapes.quote, List.mem_append, List.mem_flatMap] at hquote
  rcases hquote with ⟨c, -, hc⟩ | hlast
  · by_cases hspecial : c = '\\' ∨ c = '"' ∨ c = '\n'
    · rcases hspecial with rfl | rfl | rfl <;> revert hc <;> decide
    · simp only [not_or] at hspecial
      have hescape : escapes.escape c = [c] := by
        simp [Escapes.escape, escapes, Ne.symm hspecial.1, Ne.symm hspecial.2.1, Ne.symm hspecial.2.2]
      rw [hescape, List.mem_singleton] at hc
      exact hspecial.2.2 hc.symm
  · cases List.mem_singleton.mp hlast

/-! ## Lines -/

structure Family.Legal (family : Family) : Prop where
  name : IsName isNameStart isNameChar family.name.toList
  header : ∀ line ∈ family.header, '\n' ∉ line.toList ∧ isSampleLine line = false

theorem legal_of_mem {family : Family} (h : family ∈ families) : family.Legal := by
  have hname : IsName isNameStart isNameChar family.name.toList := by
    simp only [families, List.mem_cons, List.not_mem_nil, or_false] at h
    rcases h with rfl | rfl | rfl | rfl | rfl <;>
      exact ⟨by simp [isNameStart], by simp [isNameChar, isNameStart]⟩
  refine ⟨hname, fun line hline => ?_⟩
  have htext : '\n' ∉ family.name.toList ∧ '\n' ∉ family.help.toList := by
    simp only [families, List.mem_cons, List.not_mem_nil, or_false] at h
    rcases h with rfl | rfl | rfl | rfl | rfl <;> simp
  rcases List.mem_pair.mp hline with rfl | rfl
  · simp [htext, isSampleLine, skipBlanks, isBlank]
  · simp [htext, isSampleLine, skipBlanks, isBlank]

/-- What stands after the name. -/
def Row.afterName (row : Row) (c : Counter) : List Char :=
  "fqdn".toList ++ '=' :: '"' :: (escapes.quote row.fqdn.toList ++
    ',' :: ("query".toList ++ '=' :: '"' :: (escapes.quote row.query.toList ++
      '}' :: ' ' :: (Nat.repr (row.counters.get c)).toList)))

theorem line_eq (family : Family) (row : Row) :
    row.line family = String.ofList (family.name.toList ++ '{' :: row.afterName family.counter) := by
  refine String.toList_injective ?_
  simp only [Row.line, Row.afterName, String.toList_append, String.toList_ofList, ← escape_toList]
  simp

/-- Both labels, whatever their values are. -/
theorem readLabels_afterName (row : Row) (c : Counter) (fuel : Nat) :
    readLabels (fuel + 2) (row.afterName c) = some ([("fqdn", row.fqdn), ("query", row.query)],
      ' ' :: (Nat.repr (row.counters.get c)).toList) := by
  have hfqdn : IsName isLabelStart isLabelChar "fqdn".toList :=
    ⟨by simp [isLabelStart], by simp [isLabelChar, isLabelStart]⟩
  have hquery : IsName isLabelStart isLabelChar "query".toList :=
    ⟨by simp [isLabelStart], by simp [isLabelChar, isLabelStart]⟩
  rw [Row.afterName, readLabels_next hfqdn, readLabels_last hquery]
  rfl

/-- **A line is read back.** -/
theorem readLine_line {family : Family} (h : family.Legal) (row : Row) :
    readLine (row.line family) = some (row.sample family) := by
  have hlength : ∃ fuel, (row.afterName family.counter).length + 1 = fuel + 2 :=
    ⟨(row.afterName family.counter).tail.length, by rw [Row.afterName]; simp⟩
  obtain ⟨fuel, hfuel⟩ := hlength
  have hrest := readRest_token (Models.isToken_repr (row.counters.get family.counter)).1 family.name
    [("fqdn", row.fqdn), ("query", row.query)]
  rw [String.ofList_toList] at hrest
  rw [line_eq, readLine_name h.name, hfuel, readLabels_afterName, Option.bind_some, if_pos (by simp),
    String.ofList_toList]
  exact hrest

theorem newline_notMem_line {family : Family} (h : family.Legal) (row : Row) : '\n' ∉ (row.line family).toList := by
  have hname : '\n' ∉ family.name.toList := fun hmem => by cases h.name.more '\n' hmem
  have hvalue : '\n' ∉ (Nat.repr (row.counters.get family.counter)).toList := fun hmem => by
    cases Text.isDigit_of_mem_repr hmem
  simp only [Row.line, String.toList_append, List.mem_append, not_or]
  exact ⟨⟨⟨⟨⟨⟨hname, by decide⟩, newline_notMem_escape _⟩, by decide⟩, newline_notMem_escape _⟩, by decide⟩, hvalue⟩

theorem isSampleLine_line {family : Family} (h : family.Legal) (row : Row) : isSampleLine (row.line family) = true := by
  have hstart := h.name.start
  rw [line_eq, isSampleLine, String.toList_ofList]
  cases hname : family.name.toList with
  | nil =>
    rw [hname] at hstart
    cases hstart
  | cons c cs =>
    rw [hname] at hstart
    have hc : isNameStart c = true := by simpa using hstart
    have hblank : isBlank c = false := by
      by_contra hne
      have hblank : c = ' ' ∨ c = '\t' := by simpa [isBlank, or_iff_not_imp_left] using hne
      rcases hblank with rfl | rfl <;> cases hc
    rw [List.cons_append, skipBlanks_cons hblank]
    refine decide_eq_true fun heq => ?_
    subst heq
    cases hc

theorem mapM_eq_some {α β : Type} {f : α → Option β} {g : α → β} {l : List α} (h : ∀ a ∈ l, f a = some (g a)) :
    l.mapM f = some (l.map g) := by
  induction l with
  | nil => rfl
  | cons a rest ih =>
    obtain ⟨hfirst, hrest⟩ := List.forall_mem_cons.mp h
    rw [List.mapM_cons, hfirst, ih hrest]
    rfl

theorem lines_filter (registry : HashMap String Nat) (loads : Nat → QueryCounters) :
    (lines registry loads).filter isSampleLine = (cells registry loads).map fun cell => cell.2.line cell.1 := by
  rw [lines, cells, List.product, List.filter_flatMap, List.map_flatMap]
  refine List.flatMap_congr fun family hfamily => ?_
  have hlegal := legal_of_mem hfamily
  have hheader : family.header.filter isSampleLine = [] :=
    List.filter_eq_nil_iff.mpr fun line hline => by simp [(hlegal.header line hline).2]
  have hrows : ((rows registry loads).map (Row.line family)).filter isSampleLine =
      (rows registry loads).map (Row.line family) := by
    refine List.filter_eq_self.mpr fun line hline => ?_
    obtain ⟨row, -, rfl⟩ := List.mem_map.mp hline
    exact isSampleLine_line hlegal row
  rw [List.filter_append, hheader, hrows, List.nil_append, List.map_map]
  rfl

/-- **The text is read back.** -/
theorem readText_renderFrom (registry : HashMap String Nat) (loads : Nat → QueryCounters) :
    readText (renderFrom registry loads) = some (samples registry loads) := by
  have hlines : ∀ line ∈ lines registry loads, '\n' ∉ line.toList := by
    intro line hline
    obtain ⟨family, hfamily, hline⟩ := List.mem_flatMap.mp hline
    have hlegal := legal_of_mem hfamily
    rcases List.mem_append.mp hline with hline | hline
    · exact (hlegal.header line hline).1
    · obtain ⟨row, -, rfl⟩ := List.mem_map.mp hline
      exact newline_notMem_line hlegal row
  have hread : ∀ cell ∈ cells registry loads, readLine (cell.2.line cell.1) = some (cell.2.sample cell.1) := by
    intro cell hcell
    exact readLine_line (legal_of_mem (List.mem_product.mp hcell).1) cell.2
  rw [renderFrom, readText_lines hlines, lines_filter, List.mapM_map]
  exact mapM_eq_some hread

/-! ## One sample for each name and labels -/

theorem append_keyParts {key : String} (h : separator ∈ key.toList) :
    (keyParts key).1 ++ String.singleton separator ++ (keyParts key).2 = key := by
  obtain ⟨parts, hparts, hkey⟩ := Text.append_splitOnce h
  rw [keyParts, hparts]
  exact hkey

theorem keyParts_makeKey {fqdn : String} (h : separator ∉ fqdn.toList) (query : String) :
    keyParts (makeKey fqdn query) = (fqdn, query) := by
  rw [keyParts, makeKey, Text.splitOnce_append h]
  rfl

theorem separator_mem_key (r : Request) : separator ∈ r.key.toList := by
  simp [Request.key, makeKey]

/-- All keys have a separator, as those of requests have. -/
def Keyed (registry : HashMap String Nat) : Prop := ∀ e ∈ registry.entries, separator ∈ e.1.toList

theorem nodup_rows {registry : HashMap String Nat} (h : Keyed registry) (loads : Nat → QueryCounters) :
    ((rows registry loads).map fun row => (row.fqdn, row.query)).Nodup := by
  have hperm := (sortByKey_perm Row.sortKey (registry.entries.map fun e => rowOf loads e.1 e.2)).map
    fun row => (row.fqdn, row.query)
  rw [rows, hperm.nodup_iff, List.map_map]
  refine List.Nodup.map_on (fun e he e' he' heq => ?_) registry.nodupKeys.nodup
  have hparts : keyParts e.1 = keyParts e'.1 := heq
  have hkey : e.1 = e'.1 := by
    rw [← append_keyParts (h e he), hparts, append_keyParts (h e' he')]
  exact List.NodupKeys.eq_of_fst_eq registry.nodupKeys he he' hkey

theorem nodup_samples {registry : HashMap String Nat} (h : Keyed registry) (loads : Nat → QueryCounters) :
    ((samples registry loads).map fun sample => (sample.name, sample.labels)).Nodup := by
  have hnames : (families.map Family.name).Nodup := by decide
  have hcells := (List.Nodup.of_map _ hnames).product (List.Nodup.of_map _ (nodup_rows h loads))
  rw [samples, List.map_map]
  refine List.Nodup.map_on (fun cell hcell cell' hcell' heq => ?_) hcells
  obtain ⟨hfamily, hrow⟩ := List.mem_product.mp hcell
  obtain ⟨hfamily', hrow'⟩ := List.mem_product.mp hcell'
  have hname : cell.1.name = cell'.1.name := congrArg Prod.fst heq
  have hlabels : cell.2.fqdn = cell'.2.fqdn ∧ cell.2.query = cell'.2.query := by
    simpa [Row.sample] using congrArg Prod.snd heq
  refine Prod.ext (List.inj_on_of_nodup_map hnames hfamily hfamily' hname) ?_
  exact List.inj_on_of_nodup_map (nodup_rows h loads) hrow hrow' (Prod.ext hlabels.1 hlabels.2)

theorem snapshot_injective : Function.Injective QueryCounters.snapshot := by
  intro a b heq
  cases a
  cases b
  simpa [QueryCounters.snapshot] using heq

/-- The order of the registry is sorted away. -/
theorem rows_congr {registry registry' : HashMap String Nat} (h : HashMap.Reorders registry registry')
    (loads : Nat → QueryCounters) : rows registry loads = rows registry' loads := by
  refine sortByKey_congr Row.sortKey (h.map _) fun a _ b _ heq => ?_
  have hparts : a.fqdn = b.fqdn ∧ a.query = b.query ∧ a.counters.snapshot = b.counters.snapshot := by
    simpa [Row.sortKey] using heq
  cases a
  cases b
  simpa [snapshot_injective.eq_iff] using hparts

theorem mem_rows {registry : HashMap String Nat} {loads : Nat → QueryCounters} {key : String} {id : Nat}
    (h : registry.lookup key = some id) : rowOf loads key id ∈ rows registry loads :=
  (sortByKey_perm _ _).mem_iff.mpr (List.mem_map.mpr ⟨_, HashMap.mem_entries.mpr h, rfl⟩)

/-- **What a scrape of the counters is worth**, whatever the loads give. -/
structure Exposes (registry : HashMap String Nat) (loads : Nat → QueryCounters) : Prop where
  /-- every line is a sample of the format, whatever the names of devices and queries hold -/
  read : readText (renderFrom registry loads) = some (samples registry loads)
  /-- no two samples have one name and the same labels -/
  unique : ((samples registry loads).map fun sample => (sample.name, sample.labels)).Nodup
  /-- the counters of a request are there -/
  complete : ∀ family ∈ families, ∀ r : Request, separator ∉ r.fqdn.toList → ∀ id,
    registry.lookup r.key = some id →
      ⟨family.name, [("fqdn", r.fqdn), ("query", r.query)], Nat.repr ((loads id).get family.counter), none⟩ ∈
        samples registry loads
  /-- the text does not depend on the order of the registry -/
  order : ∀ registry', HashMap.Reorders registry registry' → renderFrom registry' loads = renderFrom registry loads

/-- **The exposition of the counters is sound in every state.** -/
theorem exposes_run (actions : List StatsAction) (loads : Nat → QueryCounters) :
    Exposes (Pollstats.new.run actions).registry loads where
  read := readText_renderFrom _ loads
  unique := by
    refine nodup_samples (fun e he => ?_) loads
    obtain ⟨r, hr⟩ := Pollstats.keyed_run actions e.1 e.2 (HashMap.mem_entries.mp he)
    exact hr ▸ separator_mem_key r
  complete family hfamily r hfqdn id hid := by
    refine List.mem_map.mpr ⟨(family, rowOf loads r.key id), List.mem_product.mpr ⟨hfamily, mem_rows hid⟩, ?_⟩
    simp only [Row.sample, rowOf, Request.key, keyParts_makeKey hfqdn]
  order registry' h := by
    rw [renderFrom, renderFrom, lines, lines, rows_congr h]

end JaspyNexus.Utilities.QueryStats
