import Mathlib
import JaspyNexus.Lib.Exposition
import JaspyNexus.Models.LabeledMetric

/-! # Metrics as text

A sample is exposed as a line of text. `asText_readBack_iff` states which samples are read
back from their line. -/

namespace JaspyNexus.Models
open JaspyNexus.Lib JaspyNexus.Lib.Exposition JaspyNexus.Lib.Text

variable {F : Type}

/-- How floats are displayed and parsed. -/
structure FloatText (F : Type) where
  display : F → String
  parse : String → Option F

/-- A float is displayed as a number, and parsed from what is displayed. -/
structure FloatText.RoundTrips (floats : FloatText F) : Prop where
  parse_display : ∀ v, floats.parse (floats.display v) = some v
  token : ∀ v, IsToken (floats.display v).toList
  brace : ∀ v, '}' ∉ (floats.display v).toList

namespace LabeledMetric

/-- The names are names of the format. -/
structure Legal (m : LabeledMetric F) : Prop where
  name : IsName isNameStart isNameChar m.name.toList
  labels : ∀ label value, m.labels.lookup label = some value → IsName isLabelStart isLabelChar label.toList

/-- No label value has a quote, a backslash or a newline. -/
def Plain (m : LabeledMetric F) : Prop :=
  ∀ label value, m.labels.lookup label = some value → ∀ c ∈ value.toList, Escapes.isSpecial c = false

end LabeledMetric

/-- The text says the value. -/
def MetricValue.IsReadFrom (floats : FloatText F) (text : String) : MetricValue F → Prop
  | .int64 v => readInt text = some v
  | .uint64 v => readInt text = some (v : Int)
  | .float64 v => floats.parse text = some v

/-- **What is read is the sample.** -/
structure GivesBack (floats : FloatText F) (m : LabeledMetric F) (sample : Sample) : Prop where
  name : sample.name = m.name
  labels : ∀ label, sample.labels.lookup label = m.labels.lookup label
  value : m.value.IsReadFrom floats sample.value
  timestamp : sample.timestamp.bind readInt = some (m.timestamp : Int)

/-- The same number: one text says both. -/
def SameNumber (floats : FloatText F) (a b : MetricValue F) : Prop :=
  ∃ text, a.IsReadFrom floats text ∧ b.IsReadFrom floats text

structure SameSample (floats : FloatText F) (a b : LabeledMetric F) : Prop where
  name : a.name = b.name
  labels : ∀ label, a.labels.lookup label = b.labels.lookup label
  value : SameNumber floats a.value b.value
  timestamp : a.timestamp = b.timestamp

/-! ## The line -/

section
variable {floats : FloatText F} {m : LabeledMetric F}

/-- The labels in the order of their texts. -/
def sortedLabels (m : LabeledMetric F) : List (String × String) :=
  (m.labels.entries.map fun e => (e.1, e.2)).mergeSort fun a b => decide (renderLabel a ≤ renderLabel b)

theorem renderLabel_toList (label : String × String) : (renderLabel label).toList = labelText label := by
  simp [renderLabel, labelText]

/-- What stands after the labels. -/
def afterLabels (floats : FloatText F) (m : LabeledMetric F) : List Char :=
  ' ' :: ((m.value.text floats.display).toList ++ ' ' :: (toString m.timestamp).toList)

def labelsText (m : LabeledMetric F) : List Char := [','].intercalate ((sortedLabels m).map labelText)

theorem asText_eq (floats : FloatText F) (m : LabeledMetric F) : m.asText floats.display =
    String.ofList (m.name.toList ++ '{' :: (labelsText m ++ '}' :: afterLabels floats m)) := by
  have hsorted : (m.labels.entries.map fun e => renderLabel (e.1, e.2)).mergeSort (fun a b => decide (a ≤ b)) =
      (sortedLabels m).map renderLabel := by
    have hmap := List.map_mergeSort (f := renderLabel) (l := m.labels.entries.map fun e => (e.1, e.2))
      (r := fun a b => decide (renderLabel a ≤ renderLabel b)) (s := fun a b => decide (a ≤ b)) fun _ _ _ _ => rfl
    rw [List.map_map] at hmap
    exact hmap.symm
  have htexts : (List.map String.toList ((sortedLabels m).map renderLabel)) = (sortedLabels m).map labelText := by
    rw [List.map_map]
    exact List.map_congr_left fun label _ => renderLabel_toList label
  refine String.toList_injective ?_
  rw [LabeledMetric.asText, hsorted]
  simp only [String.toList_append, String.toList_ofList, String.toList_intercalate, htexts, labelsText, afterLabels]
  simp

theorem sortedLabels_perm (m : LabeledMetric F) :
    (sortedLabels m).Perm (m.labels.entries.map fun e => (e.1, e.2)) := List.mergeSort_perm _ _

theorem mem_sortedLabels {label value : String} :
    (label, value) ∈ sortedLabels m ↔ m.labels.lookup label = some value := by
  rw [(sortedLabels_perm m).mem_iff, List.mem_map, ← HashMap.mem_entries]
  exact ⟨fun ⟨e, he, heq⟩ => by cases heq; exact he, fun h => ⟨_, h, rfl⟩⟩

theorem nodup_sortedLabels (m : LabeledMetric F) : ((sortedLabels m).map Prod.fst).Nodup := by
  refine ((sortedLabels_perm m).map Prod.fst).nodup_iff.mpr ?_
  rw [List.map_map]
  exact m.labels.nodupKeys

/-! ## Numbers -/

theorem isTokenChar_of_isDigit {c : Char} (h : c.isDigit = true) : isTokenChar c = true ∧ c ≠ '}' := by
  refine ⟨?_, fun heq => by rw [heq] at h; cases h⟩
  by_contra hne
  have hblank : c = ' ' ∨ c = '\t' ∨ c = '\n' := by
    simp only [isTokenChar, isBlank, Bool.and_eq_true, Bool.not_eq_true', Bool.or_eq_false_iff, decide_eq_false_iff_not,
      ne_eq, decide_not] at hne
    tauto
  rcases hblank with rfl | rfl | rfl <;> cases h

theorem isToken_repr (n : Nat) : IsToken (Nat.repr n).toList ∧ '}' ∉ (Nat.repr n).toList := by
  have hdigits := digits_repr n
  refine ⟨⟨?_, fun c hc => (isTokenChar_of_isDigit (isDigit_of_mem_repr hc)).1⟩,
    fun hmem => (isTokenChar_of_isDigit (isDigit_of_mem_repr hmem)).2 rfl⟩
  intro hnil
  rw [hnil] at hdigits
  cases hdigits

theorem toString_int_cases (v : Int) : (∃ n : Nat, v = n ∧ toString v = Nat.repr n) ∨
    ∃ n : Nat, v = -(n : Int) ∧ toString v = String.ofList ('-' :: (Nat.repr n).toList) := by
  cases v with
  | ofNat n => exact .inl ⟨n, rfl, rfl⟩
  | negSucc n =>
    refine .inr ⟨n + 1, rfl, ?_⟩
    show "-" ++ Nat.repr (n + 1) = _
    refine String.toList_injective ?_
    simp

theorem isToken_int (v : Int) : IsToken (toString v).toList ∧ '}' ∉ (toString v).toList := by
  rcases toString_int_cases v with ⟨n, -, htext⟩ | ⟨n, -, htext⟩
  · rw [htext]
    exact isToken_repr n
  · obtain ⟨⟨-, hchars⟩, hbrace⟩ := isToken_repr n
    rw [htext, String.toList_ofList]
    refine ⟨⟨List.cons_ne_nil _ _, List.forall_mem_cons.mpr ⟨by decide, hchars⟩⟩, fun hmem => ?_⟩
    rcases List.mem_cons.mp hmem with heq | hmem
    · cases heq
    · exact hbrace hmem

theorem readInt_repr (n : Nat) : readInt (Nat.repr n) = some (n : Int) := by
  have hdigits := digits_repr n
  unfold readInt
  split
  next rest hrest =>
    have hdigit : ('-' : Char).isDigit = true := isDigit_of_mem_repr (by rw [hrest]; exact List.mem_cons_self)
    cases hdigit
  next => rw [hdigits]; rfl

theorem readInt_toString (v : Int) : readInt (toString v) = some v := by
  rcases toString_int_cases v with ⟨n, rfl, htext⟩ | ⟨n, rfl, htext⟩
  · rw [htext]
    exact readInt_repr n
  · rw [htext, readInt, String.toList_ofList]
    simp only [digits_repr, Option.map_some]

theorem isToken_value (hfloats : floats.RoundTrips) (v : MetricValue F) :
    IsToken (v.text floats.display).toList ∧ '}' ∉ (v.text floats.display).toList := by
  cases v with
  | int64 v => exact isToken_int v
  | uint64 v => exact isToken_repr v
  | float64 v => exact ⟨hfloats.token v, hfloats.brace v⟩

theorem isReadFrom_text (hfloats : floats.RoundTrips) (v : MetricValue F) :
    v.IsReadFrom floats (v.text floats.display) := by
  cases v with
  | int64 v => exact readInt_toString v
  | uint64 v => exact readInt_repr v
  | float64 v => exact hfloats.parse_display v

theorem brace_notMem_afterLabels (hfloats : floats.RoundTrips) : '}' ∉ afterLabels floats m := by
  have hvalue := (isToken_value hfloats m.value).2
  have htimestamp := (isToken_repr m.timestamp).2
  intro hmem
  rcases List.mem_cons.mp hmem with heq | hmem
  · cases heq
  rcases List.mem_append.mp hmem with hmem | hmem
  · exact hvalue hmem
  rcases List.mem_cons.mp hmem with heq | hmem
  · cases heq
  · exact htimestamp hmem

/-! ## Reading back -/

/-- **A sample without special characters is read back.** -/
theorem readBack_of_plain (hfloats : floats.RoundTrips) (hlegal : m.Legal) (hplain : m.Plain) :
    ∃ sample, readLine (m.asText floats.display) = some sample ∧ GivesBack floats m sample := by
  have hlabels : ∀ label ∈ sortedLabels m, IsPlain label := fun label hlabel =>
    ⟨hlegal.labels _ _ (mem_sortedLabels.mp hlabel), hplain _ _ (mem_sortedLabels.mp hlabel)⟩
  have hread : ∀ rest, readLabels ((labelsText m ++ '}' :: rest).length + 1) (labelsText m ++ '}' :: rest) =
      some (sortedLabels m, rest) := by
    intro rest
    refine readLabels_labelText hlabels rest ?_
    have hlength := length_le_labelTexts (sortedLabels m)
    rw [List.length_append, List.length_cons, labelsText]
    omega
  refine ⟨⟨m.name, sortedLabels m, m.value.text floats.display, some (toString m.timestamp)⟩, ?_, ?_⟩
  · have hrest := readRest_tokens (isToken_value hfloats m.value).1 (isToken_repr m.timestamp).1 m.name (sortedLabels m)
    rw [String.ofList_toList, String.ofList_toList] at hrest
    rw [asText_eq, readLine_name hlegal.name, hread, Option.bind_some, if_pos (nodup_sortedLabels m),
      String.ofList_toList]
    exact hrest
  · refine ⟨rfl, fun label => Option.ext fun value => ?_, isReadFrom_text hfloats m.value, readInt_repr m.timestamp⟩
    rw [lookup_eq_some_iff_mem (nodup_sortedLabels m), mem_sortedLabels]

/-- What the reader makes of a line has the labels that it reads. -/
theorem readRest_labels {name : String} {labels : List (String × String)} {l : List Char} {sample : Sample}
    (h : readRest name labels l = some sample) : sample.labels = labels := by
  obtain ⟨value, -, h⟩ := Option.bind_eq_some_iff.mp h
  split at h
  next =>
    split at h
    · cases h
      rfl
    · cases h
  next =>
    split at h
    · cases h
      rfl
    · cases h

/-- Where a text has two closing braces to end at, and the second is taken, the first is
within what is read. -/
theorem brace_of_append {body used tail rest : List Char} (h : body ++ '}' :: tail = used ++ '}' :: rest)
    (hlength : body.length < used.length) : '}' ∈ tail := by
  rcases List.append_eq_append_iff.mp h with ⟨more, hused, htail⟩ | ⟨more, hbody, -⟩
  · cases more with
    | nil =>
      rw [List.append_nil] at hused
      rw [hused] at hlength
      exact absurd hlength (Nat.lt_irrefl _)
    | cons c more =>
      rw [List.cons_append, List.cons.injEq] at htail
      rw [htail.2]
      simp
  · rw [hbody, List.length_append] at hlength
    omega

/-- **A sample that is read back has no special characters**: they would take more room
than there is before the first closing brace. -/
theorem plain_of_readBack (hfloats : floats.RoundTrips) (hlegal : m.Legal) {sample : Sample}
    (hread : readLine (m.asText floats.display) = some sample) (hback : GivesBack floats m sample) : m.Plain := by
  rw [asText_eq, readLine_name hlegal.name] at hread
  obtain ⟨⟨labels, rest⟩, hlabels, hread⟩ := Option.bind_eq_some_iff.mp hread
  split at hread
  next hnd =>
    have hperm : labels.Perm (sortedLabels m) := by
      refine (List.perm_ext_iff_of_nodup (List.Nodup.of_map _ hnd) (List.Nodup.of_map _ (nodup_sortedLabels m))).mpr ?_
      rintro ⟨label, value⟩
      rw [mem_sortedLabels, ← hback.labels label, readRest_labels hread, lookup_eq_some_iff_mem hnd]
    obtain ⟨used, hused, hlength⟩ := readLabels_length hlabels
    have hsum := (hperm.map labelLength).sum_eq
    by_contra hspecial
    unfold LabeledMetric.Plain at hspecial
    push Not at hspecial
    obtain ⟨label, value, hlookup, c, hc, hcspecial⟩ := hspecial
    have hmem := mem_sortedLabels.mpr hlookup
    have hne : sortedLabels m ≠ [] := List.ne_nil_of_mem hmem
    have hlonger : ((sortedLabels m).map fun label => (labelText label).length + 1).sum <
        ((sortedLabels m).map labelLength).sum := by
      refine List.sum_lt_sum _ _ (fun l _ => ?_) ⟨(label, value), hmem, ?_⟩
      · rw [labelLength_eq]
        exact Nat.le_add_right _ _
      · have hcount : 0 < value.toList.countP Escapes.isSpecial :=
          List.countP_pos_iff.mpr ⟨c, hc, by simpa using hcspecial⟩
        rw [labelLength_eq]
        exact Nat.lt_add_of_pos_right hcount
    have hbody := length_labelTexts hne
    refine brace_notMem_afterLabels hfloats (brace_of_append hused ?_)
    rw [labelsText]
    omega
  next => cases hread

theorem newline_of_mem_intercalate {texts : List (List Char)} (h : '\n' ∈ [','].intercalate texts) :
    ∃ text ∈ texts, '\n' ∈ text := by
  induction texts with
  | nil => cases h
  | cons text others ih =>
    cases others with
    | nil =>
      rw [List.intercalate_singleton] at h
      exact ⟨text, List.mem_cons_self, h⟩
    | cons next others =>
      rw [List.intercalate_cons_cons] at h
      rcases List.mem_append.mp h with h | h
      · rcases List.mem_append.mp h with h | h
        · exact ⟨text, List.mem_cons_self, h⟩
        · cases List.mem_singleton.mp h
      · obtain ⟨other, hother, hmem⟩ := ih h
        exact ⟨other, List.mem_cons_of_mem text hother, hmem⟩

theorem newline_notMem_token {token : List Char} (h : IsToken token) : '\n' ∉ token := fun hmem => by
  have hchar := h.chars '\n' hmem
  cases hchar

/-- **One sample is one line**, where no label value has a newline. -/
theorem newline_notMem_asText (hfloats : floats.RoundTrips) (hlegal : m.Legal) (hplain : m.Plain) :
    '\n' ∉ (m.asText floats.display).toList := by
  rw [asText_eq, String.toList_ofList]
  intro hmem
  rcases List.mem_append.mp hmem with hmem | hmem
  · cases hlegal.name.more '\n' hmem
  rcases List.mem_cons.mp hmem with heq | hmem
  · cases heq
  rcases List.mem_append.mp hmem with hmem | hmem
  · obtain ⟨text, htext, hmem⟩ := newline_of_mem_intercalate hmem
    obtain ⟨⟨label, value⟩, hlabel, rfl⟩ := List.mem_map.mp htext
    have hlookup := mem_sortedLabels.mp hlabel
    rcases List.mem_append.mp hmem with hmem | hmem
    · cases (hlegal.labels label value hlookup).more '\n' hmem
    · simp only [List.mem_cons, List.mem_append, List.not_mem_nil, or_false] at hmem
      rcases hmem with heq | heq | hmem | heq
      · cases heq
      · cases heq
      · cases hplain label value hlookup '\n' hmem
      · cases heq
  rcases List.mem_cons.mp hmem with heq | hmem
  · cases heq
  rcases List.mem_cons.mp hmem with heq | hmem
  · cases heq
  rcases List.mem_append.mp hmem with hmem | hmem
  · exact newline_notMem_token (isToken_value hfloats m.value).1 hmem
  rcases List.mem_cons.mp hmem with heq | hmem
  · cases heq
  · exact newline_notMem_token (isToken_repr m.timestamp).1 hmem

/-- Samples that are read back from one line are the same. -/
theorem sameSample_of_readBack {m' : LabeledMetric F} {sample : Sample} (h : GivesBack floats m sample)
    (h' : GivesBack floats m' sample) : SameSample floats m m' where
  name := h.name.symm.trans h'.name
  labels label := (h.labels label).symm.trans (h'.labels label)
  value := ⟨sample.value, h.value, h'.value⟩
  timestamp := Int.ofNat.inj (Option.some.inj (h.timestamp.symm.trans h'.timestamp))

/-- **A sample is read back from its line** exactly when no label value has a quote, a
backslash or a newline. Such samples are one line each, and different ones have different
lines. -/
theorem asText_readBack_iff (hfloats : floats.RoundTrips) (hlegal : m.Legal) :
    ((∃ sample, readLine (m.asText floats.display) = some sample ∧ GivesBack floats m sample) ↔ m.Plain) ∧
    (m.Plain → '\n' ∉ (m.asText floats.display).toList) ∧
    (m.Plain → ∀ m' : LabeledMetric F, m'.Legal → m'.Plain →
      m.asText floats.display = m'.asText floats.display → SameSample floats m m') := by
  refine ⟨⟨fun ⟨_, hread, hback⟩ => plain_of_readBack hfloats hlegal hread hback, readBack_of_plain hfloats hlegal⟩,
    newline_notMem_asText hfloats hlegal, fun hplain m' hlegal' hplain' heq => ?_⟩
  obtain ⟨sample, hread, hback⟩ := readBack_of_plain hfloats hlegal hplain
  obtain ⟨sample', hread', hback'⟩ := readBack_of_plain hfloats hlegal' hplain'
  rw [heq, hread'] at hread
  cases hread
  exact sameSample_of_readBack hback hback'

end

/-! ## An interface with a name of its own -/

/-- Floats without a fraction. -/
def wholeFloats : FloatText Int := ⟨toString, readInt⟩

theorem wholeFloats_roundTrips : wholeFloats.RoundTrips :=
  ⟨readInt_toString, fun v => (isToken_int v).1, fun v => (isToken_int v).2⟩

/-- A sample of an interface. -/
def upOf (labels : HashMap String String) : LabeledMetric Int := ⟨"jaspy_interface_up", labels, .int64 1, 1000⟩

def interfaceUp (name : String) : LabeledMetric Int := upOf ((∅ : HashMap String String).insert "name" name)

theorem interfaceUp_legal (name : String) : (interfaceUp name).Legal where
  name := by
    have hstart : "jaspy_interface_up".toList.head?.any isNameStart = true := by decide +kernel
    have hmore : "jaspy_interface_up".toList.all isNameChar = true := by decide +kernel
    exact ⟨hstart, List.all_eq_true.mp hmore⟩
  labels label value h := by
    have hlabel : label = "name" := by
      by_contra hne
      rw [interfaceUp, upOf, AList.lookup_insert_ne hne, AList.lookup_empty] at h
      cases h
    have hstart : "name".toList.head?.any isLabelStart = true := by decide +kernel
    have hmore : "name".toList.all isLabelChar = true := by decide +kernel
    rw [hlabel]
    exact ⟨hstart, List.all_eq_true.mp hmore⟩

def twoLabels : HashMap String String := ((∅ : HashMap String String).insert "site" "B").insert "name" "Gi1"

/-- A name with a quote gives a line that is no sample, or that of another; a name with a
newline gives two lines. -/
theorem name_breaks_line :
    readLine ((interfaceUp "port \"7\"").asText wholeFloats.display) = none ∧
    (interfaceUp "Gi1\",site=\"B").asText wholeFloats.display =
      (upOf twoLabels).asText wholeFloats.display ∧
    '\n' ∈ ((interfaceUp "Gi1\nuplink").asText wholeFloats.display).toList := by
  refine ⟨by decide +kernel, ?_, by decide +kernel⟩
  have hsorted : (twoLabels.entries.map fun e => renderLabel (e.1, e.2)).mergeSort (fun a b => decide (a ≤ b)) =
      twoLabels.entries.map fun e => renderLabel (e.1, e.2) := List.mergeSort_of_pairwise (by decide +kernel)
  show _ = (upOf twoLabels).name ++ "\x7b" ++ ",".intercalate (List.mergeSort _ _) ++ "\x7d " ++
    (upOf twoLabels).value.text wholeFloats.display ++ " " ++ toString (upOf twoLabels).timestamp
  rw [show (upOf twoLabels).labels = twoLabels from rfl, hsorted]
  decide +kernel

/-- A name as it usually is. -/
theorem asText_readBack_iff_plain :
    ((∃ sample, readLine ((interfaceUp "Gi1/0/1").asText wholeFloats.display) = some sample ∧
      GivesBack wholeFloats (interfaceUp "Gi1/0/1") sample) ↔ (interfaceUp "Gi1/0/1").Plain) :=
  (asText_readBack_iff wholeFloats_roundTrips (interfaceUp_legal "Gi1/0/1")).1

end JaspyNexus.Models
