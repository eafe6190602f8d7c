import Mathlib
import JaspyNexus.Lib.Quoted
import JaspyNexus.Lib.Text

/-! # Lines of the text exposition format

A reader of one sample of the format that Prometheus scrapes: a name, labels whose values
are quoted, a value and a timestamp, with blanks between them. The labels that are read
are never longer than their text, and shorter by every escape (`readLabels_length`). -/

namespace JaspyNexus.Lib.Exposition
open JaspyNexus.Lib.Text

/-! ## The reader -/

def isBlank (c : Char) : Bool := c = ' ' || c = '\t'

def isNameStart (c : Char) : Bool := c.isAlpha || c = '_' || c = ':'

def isNameChar (c : Char) : Bool := isNameStart c || c.isDigit

def isLabelStart (c : Char) : Bool := c.isAlpha || c = '_'

def isLabelChar (c : Char) : Bool := isLabelStart c || c.isDigit

def isTokenChar (c : Char) : Bool := !isBlank c && c ≠ '\n'

/-- A backslash, a double quote and a newline are escaped. -/
def escapes : Escapes where
  table := [('\\', '\\'), ('"', '"'), ('\n', 'n')]
  letters := by simp
  special := by simp

structure Sample where
  name : String
  labels : List (String × String)
  value : String
  timestamp : Option String
  deriving DecidableEq, Repr

def skipBlanks (l : List Char) : List Char := l.dropWhile isBlank

def expect (c : Char) (l : List Char) : Option (List Char) := if l.head? = some c then some l.tail else none

def readName (start rest : Char → Bool) (l : List Char) : Option (List Char × List Char) :=
  if l.head?.any start then some (l.takeWhile rest, l.dropWhile rest) else none

def readLabel (l : List Char) : Option ((String × String) × List Char) :=
  (readName isLabelStart isLabelChar l).bind fun name =>
  (expect '=' (skipBlanks name.2)).bind fun l =>
  (expect '"' (skipBlanks l)).bind fun l =>
  (escapes.read l).map fun value => ((String.ofList name.1, String.ofList value.1), value.2)

/-- Labels up to the closing brace; a comma may stand after the last. The fuel bounds
their number. -/
def readLabels : Nat → List Char → Option (List (String × String) × List Char)
  | 0, _ => none
  | fuel + 1, l =>
    match expect '}' (skipBlanks l) with
    | some rest => some ([], rest)
    | none =>
      (readLabel (skipBlanks l)).bind fun label =>
        match expect ',' (skipBlanks label.2) with
        | some rest => (readLabels fuel rest).map fun r => (label.1 :: r.1, r.2)
        | none => (expect '}' (skipBlanks label.2)).map fun rest => ([label.1], rest)

/-- A value or a timestamp. -/
def readToken (l : List Char) : Option (String × List Char) :=
  let l := skipBlanks l
  if l.takeWhile isTokenChar = [] then none
  else some (String.ofList (l.takeWhile isTokenChar), l.dropWhile isTokenChar)

/-- What stands after the labels. -/
def readRest (name : String) (labels : List (String × String)) (l : List Char) : Option Sample :=
  (readToken l).bind fun value =>
    match readToken value.2 with
    | none => if skipBlanks value.2 = [] then some ⟨name, labels, value.1, none⟩ else none
    | some timestamp =>
      if skipBlanks timestamp.2 = [] then some ⟨name, labels, value.1, some timestamp.1⟩ else none

/-- One line. No two labels of a sample have one name. -/
def readLine (line : String) : Option Sample :=
  (readName isNameStart isNameChar (skipBlanks line.toList)).bind fun name =>
    let l := skipBlanks name.2
    let labels := match expect '{' l with
      | some l => readLabels (l.length + 1) l
      | none => some ([], l)
    labels.bind fun labels =>
      if (labels.1.map Prod.fst).Nodup then readRest (String.ofList name.1) labels.1 labels.2 else none

/-- The number that a decimal text without a point says. -/
def readInt (text : String) : Option Int :=
  match text.toList with
  | '-' :: rest => (digits rest).map fun n : Nat => -(n : Int)
  | l => (digits l).map fun n : Nat => (n : Int)

/-! ## What is read is shorter than its text -/

/-- How long a label is at least, with what follows it. -/
def labelLength (label : String × String) : Nat :=
  label.1.toList.length + (label.2.toList.length + label.2.toList.countP Escapes.isSpecial) + 4

section
variable {l rest : List Char} {c : Char}

theorem expect_eq_some_iff : expect c l = some rest ↔ l = c :: rest := by
  unfold expect
  cases l with
  | nil => simp
  | cons d l => simp [eq_comm]

theorem skipBlanks_suffix (l : List Char) : ∃ blanks, l = blanks ++ skipBlanks l :=
  ⟨l.takeWhile isBlank, List.takeWhile_append_dropWhile.symm⟩

theorem expect_skipBlanks (h : expect c (skipBlanks l) = some rest) : ∃ blanks, l = blanks ++ c :: rest := by
  obtain ⟨blanks, hl⟩ := skipBlanks_suffix l
  rw [expect_eq_some_iff.mp h] at hl
  exact ⟨blanks, hl⟩

theorem readName_append {start more : Char → Bool} {name : List Char × List Char}
    (h : readName start more l = some name) : l = name.1 ++ name.2 := by
  unfold readName at h
  split at h
  next =>
    cases h
    exact List.takeWhile_append_dropWhile.symm
  next => cases h

theorem readLabel_length {label : String × String} (h : readLabel l = some (label, rest)) :
    ∃ used, l = used ++ rest ∧ labelLength label ≤ used.length + 1 := by
  obtain ⟨⟨name, l₁⟩, hname, h⟩ := Option.bind_eq_some_iff.mp h
  obtain ⟨l₂, hequals, h⟩ := Option.bind_eq_some_iff.mp h
  obtain ⟨l₃, hquote, h⟩ := Option.bind_eq_some_iff.mp h
  obtain ⟨⟨value, l₄⟩, hvalue, h⟩ := Option.map_eq_some_iff.mp h
  cases h
  obtain ⟨blanks, rfl⟩ := expect_skipBlanks hequals
  obtain ⟨blanks', rfl⟩ := expect_skipBlanks hquote
  obtain ⟨used, rfl, hused⟩ := Escapes.read_length hvalue
  refine ⟨name ++ blanks ++ '=' :: blanks' ++ '"' :: used, ?_, ?_⟩
  · rw [readName_append hname]
    simp
  · simp only [labelLength, String.toList_ofList, List.length_append, List.length_cons]
    omega

/-- **The labels are shorter than their text**, by the special characters that they have. -/
theorem readLabels_length {fuel : Nat} {labels : List (String × String)} (h : readLabels fuel l = some (labels, rest)) :
    ∃ used, l = used ++ '}' :: rest ∧ (labels.map labelLength).sum ≤ used.length + 1 := by
  induction fuel generalizing l labels with
  | zero => cases h
  | succ fuel ih =>
    unfold readLabels at h
    split at h
    next after hclose =>
      cases h
      obtain ⟨blanks, rfl⟩ := expect_skipBlanks hclose
      exact ⟨blanks, rfl, Nat.zero_le _⟩
    next =>
      obtain ⟨⟨label, after⟩, hlabel, h⟩ := Option.bind_eq_some_iff.mp h
      obtain ⟨blanks, hl⟩ := skipBlanks_suffix l
      obtain ⟨used, hafter, hused⟩ := readLabel_length hlabel
      rw [hafter] at hl
      split at h
      next more hcomma =>
        obtain ⟨⟨others, rest'⟩, hothers, h⟩ := Option.map_eq_some_iff.mp h
        cases h
        obtain ⟨blanks', rfl⟩ := expect_skipBlanks hcomma
        obtain ⟨used', rfl, hused'⟩ := ih hothers
        refine ⟨blanks ++ used ++ blanks' ++ ',' :: used', by rw [hl]; simp, ?_⟩
        simp only [List.map_cons, List.sum_cons, List.length_append, List.length_cons]
        omega
      next =>
        obtain ⟨rest', hclose, h⟩ := Option.map_eq_some_iff.mp h
        cases h
        obtain ⟨blanks', rfl⟩ := expect_skipBlanks hclose
        refine ⟨blanks ++ used ++ blanks', by rw [hl]; simp, ?_⟩
        simp only [List.map_cons, List.map_nil, List.sum_cons, List.sum_nil, List.length_append]
        omega

end

/-! ## Lines that are read back -/

/-- A name of the format. -/
structure IsName (start more : Char → Bool) (name : List Char) : Prop where
  start : name.head?.any start = true
  more : ∀ c ∈ name, more c = true

/-- A label as it is written when nothing in it is escaped. -/
def labelText (label : String × String) : List Char := label.1.toList ++ '=' :: '"' :: (label.2.toList ++ ['"'])

/-- A label that is read back. -/
structure IsPlain (label : String × String) : Prop where
  name : IsName isLabelStart isLabelChar label.1.toList
  value : ∀ c ∈ label.2.toList, Escapes.isSpecial c = false

section
variable {l rest : List Char} {c : Char}

theorem expect_cons (c : Char) (rest : List Char) : expect c (c :: rest) = some rest := expect_eq_some_iff.mpr rfl

theorem expect_of_ne {d : Char} (h : d ≠ c) (rest : List Char) : expect c (d :: rest) = none := by
  rw [expect, List.head?_cons, if_neg (by simpa using h)]

theorem skipBlanks_cons (h : isBlank c = false) (rest : List Char) : skipBlanks (c :: rest) = c :: rest := by
  rw [skipBlanks, List.dropWhile_cons_of_neg (by simp [h])]

theorem readName_name {start more : Char → Bool} {name : List Char} (hname : IsName start more name)
    (hstop : more c = false) (rest : List Char) :
    readName start more (name ++ c :: rest) = some (name, c :: rest) := by
  have hhead : (name ++ c :: rest).head?.any start = true := by
    cases name with
    | nil => cases hname.start
    | cons d name => exact hname.start
  rw [readName, if_pos hhead, List.takeWhile_append_of_pos hname.more, List.dropWhile_append_of_pos hname.more,
    List.takeWhile_cons_of_neg (by simp [hstop]), List.dropWhile_cons_of_neg (by simp [hstop]), List.append_nil]

theorem readLabel_labelText {label : String × String} (h : IsPlain label) (rest : List Char) :
    readLabel (labelText label ++ rest) = some (label, rest) := by
  have hquote : escapes.quote label.2.toList = label.2.toList ++ ['"'] := by
    refine Escapes.quote_of_plain fun c hc hmem => ?_
    have hplain := h.value c hc
    simp only [escapes, List.map_cons, List.map_nil, List.mem_cons, List.not_mem_nil, or_false] at hmem
    rcases hmem with rfl | rfl | rfl <;> cases hplain
  have hvalue : escapes.read (label.2.toList ++ '"' :: rest) = some (label.2.toList, rest) := by
    have hread := escapes.read_quote label.2.toList rest
    rw [hquote, List.append_assoc] at hread
    exact hread
  have htext : labelText label ++ rest = label.1.toList ++ '=' :: '"' :: (label.2.toList ++ '"' :: rest) := by
    simp [labelText]
  rw [htext, readLabel, readName_name h.name (by decide)]
  simp only [Option.bind_some]
  rw [skipBlanks_cons (by decide), expect_cons, Option.bind_some, skipBlanks_cons (by decide), expect_cons,
    Option.bind_some, hvalue]
  simp

/-- The length of labels with commas between them. -/
theorem length_labelTexts {labels : List (String × String)} (hne : labels ≠ []) :
    ([','].intercalate (labels.map labelText)).length + 1 = (labels.map fun label => (labelText label).length + 1).sum := by
  induction labels with
  | nil => exact absurd rfl hne
  | cons label others ih =>
    cases others with
    | nil => simp
    | cons next others =>
      have hrest := ih (List.cons_ne_nil next others)
      rw [List.map_cons] at hrest
      simp only [List.map_cons, List.intercalate_cons_cons, List.length_append, List.length_cons, List.length_nil,
        List.sum_cons] at hrest ⊢
      omega

theorem labelLength_eq (label : String × String) :
    labelLength label = (labelText label).length + 1 + label.2.toList.countP Escapes.isSpecial := by
  simp only [labelLength, labelText, List.length_append, List.length_cons, List.length_nil]
  omega

theorem length_le_labelTexts (labels : List (String × String)) :
    labels.length ≤ ([','].intercalate (labels.map labelText)).length + 1 := by
  by_cases hne : labels = []
  · subst hne
    exact Nat.zero_le _
  · rw [length_labelTexts hne]
    have hcount := List.length_le_sum_of_one_le (labels.map fun label => (labelText label).length + 1)
    rw [List.length_map] at hcount
    refine hcount fun n hn => ?_
    obtain ⟨label, -, rfl⟩ := List.mem_map.mp hn
    exact Nat.le_add_left 1 _

/-- **Plain labels are read back.** -/
theorem readLabels_labelText {labels : List (String × String)} (h : ∀ label ∈ labels, IsPlain label) (rest : List Char)
    {fuel : Nat} (hfuel : labels.length < fuel) :
    readLabels fuel ([','].intercalate (labels.map labelText) ++ '}' :: rest) = some (labels, rest) := by
  induction labels generalizing fuel with
  | nil =>
    obtain ⟨fuel, rfl⟩ := Nat.exists_eq_succ_of_ne_zero (Nat.ne_of_gt hfuel)
    show readLabels (fuel + 1) ('}' :: rest) = _
    rw [readLabels, skipBlanks_cons (by decide), expect_cons]
  | cons label others ih =>
    obtain ⟨fuel, rfl⟩ := Nat.exists_eq_succ_of_ne_zero (Nat.ne_of_gt (Nat.zero_lt_of_lt hfuel))
    have hlabel := h label List.mem_cons_self
    obtain ⟨c, cs, htext, hclose, hblank⟩ : ∃ c cs, labelText label = c :: cs ∧ c ≠ '}' ∧ isBlank c = false := by
      have hstart := hlabel.name.start
      cases hname : label.1.toList with
      | nil =>
        rw [hname] at hstart
        cases hstart
      | cons c cs =>
        rw [hname] at hstart
        have hc : isLabelStart c = true := by simpa using hstart
        refine ⟨c, _, by rw [labelText, hname, List.cons_append], ?_, ?_⟩
        · rintro rfl
          cases hc
        · by_contra hne
          have hblank : c = ' ' ∨ c = '\t' := by simpa [isBlank, or_iff_not_imp_left] using hne
          rcases hblank with rfl | rfl <;> cases hc
    have hskip : ∀ tail, expect '}' (skipBlanks (labelText label ++ tail)) = none ∧
        skipBlanks (labelText label ++ tail) = labelText label ++ tail := by
      intro tail
      rw [htext, List.cons_append, skipBlanks_cons hblank]
      exact ⟨expect_of_ne hclose _, rfl⟩
    cases others with
    | nil =>
      rw [List.map_cons, List.map_nil, List.intercalate_singleton, readLabels, (hskip _).1, (hskip _).2]
      simp only
      rw [readLabel_labelText hlabel, Option.bind_some, skipBlanks_cons (by decide), expect_of_ne (by decide), expect_cons]
      rfl
    | cons next others =>
      have hrest := ih (fun l hl => h l (List.mem_cons_of_mem label hl)) (Nat.lt_of_succ_lt_succ hfuel)
      have hsplit : [','].intercalate ((label :: next :: others).map labelText) ++ '}' :: rest =
          labelText label ++ ',' :: ([','].intercalate ((next :: others).map labelText) ++ '}' :: rest) := by
        simp [List.intercalate_cons_cons]
      rw [hsplit, readLabels, (hskip _).1, (hskip _).2]
      simp only
      rw [readLabel_labelText hlabel, Option.bind_some, skipBlanks_cons (by decide), expect_cons]
      simp only
      rw [hrest]
      rfl

/-- A value or a timestamp. -/
structure IsToken (token : List Char) : Prop where
  nonempty : token ≠ []
  chars : ∀ c ∈ token, isTokenChar c = true

theorem skipBlanks_token {token : List Char} (h : IsToken token) (rest : List Char) :
    skipBlanks (token ++ rest) = token ++ rest := by
  cases token with
  | nil => exact absurd rfl h.nonempty
  | cons c token =>
    have hc := h.chars c List.mem_cons_self
    refine skipBlanks_cons ?_ (token ++ rest)
    simp only [isTokenChar, Bool.and_eq_true, Bool.not_eq_true'] at hc
    exact hc.1

theorem readToken_blank {token : List Char} (h : IsToken token) {rest : List Char}
    (hrest : rest = [] ∨ ∃ tail, rest = ' ' :: tail) :
    readToken (' ' :: (token ++ rest)) = some (String.ofList token, rest) := by
  have hskip : skipBlanks (' ' :: (token ++ rest)) = token ++ rest := by
    rw [skipBlanks, List.dropWhile_cons_of_pos (by decide)]
    exact skipBlanks_token h rest
  have htake : (token ++ rest).takeWhile isTokenChar = token ∧ (token ++ rest).dropWhile isTokenChar = rest := by
    rw [List.takeWhile_append_of_pos h.chars, List.dropWhile_append_of_pos h.chars]
    rcases hrest with rfl | ⟨tail, rfl⟩
    · simp
    · rw [List.takeWhile_cons_of_neg (by decide), List.dropWhile_cons_of_neg (by decide), List.append_nil]
      exact ⟨rfl, rfl⟩
  rw [readToken]
  simp only [hskip, htake]
  rw [if_neg h.nonempty]

theorem readRest_tokens {value timestamp : List Char} (hvalue : IsToken value) (htimestamp : IsToken timestamp)
    (name : String) (labels : List (String × String)) :
    readRest name labels (' ' :: (value ++ ' ' :: timestamp)) =
      some ⟨name, labels, String.ofList value, some (String.ofList timestamp)⟩ := by
  have hlast := readToken_blank htimestamp (.inl rfl)
  rw [List.append_nil] at hlast
  rw [readRest, readToken_blank hvalue (.inr ⟨timestamp, rfl⟩), Option.bind_some]
  simp only [hlast]
  rfl

theorem readLine_name {name : List Char} (hname : IsName isNameStart isNameChar name) (l : List Char) :
    readLine (String.ofList (name ++ '{' :: l)) = (readLabels (l.length + 1) l).bind fun labels =>
      if (labels.1.map Prod.fst).Nodup then readRest (String.ofList name) labels.1 labels.2 else none := by
  have hskip : skipBlanks (name ++ '{' :: l) = name ++ '{' :: l := by
    cases hcase : name with
    | nil =>
      have hstart := hname.start
      rw [hcase] at hstart
      cases hstart
    | cons c cs =>
      have hstart := hname.start
      rw [hcase] at hstart
      have hc : isNameStart c = true := by simpa using hstart
      refine skipBlanks_cons ?_ (cs ++ '{' :: l)
      by_contra hne
      have hblank : c = ' ' ∨ c = '\t' := by simpa [isBlank, or_iff_not_imp_left] using hne
      rcases hblank with rfl | rfl <;> cases hc
  rw [readLine, String.toList_ofList, hskip, readName_name hname (by decide), Option.bind_some]
  simp only
  rw [skipBlanks_cons (by decide), expect_cons]

/-- **A label is read back** from its quoted value. -/
theorem readLabel_quote {name : List Char} (hname : IsName isLabelStart isLabelChar name) (value : String)
    (rest : List Char) :
    readLabel (name ++ '=' :: '"' :: (escapes.quote value.toList ++ rest)) = some ((String.ofList name, value), rest) := by
  rw [readLabel, readName_name hname (by decide)]
  simp only [Option.bind_some]
  rw [skipBlanks_cons (by decide), expect_cons, Option.bind_some, skipBlanks_cons (by decide), expect_cons,
    Option.bind_some, escapes.read_quote]
  simp

theorem name_cons {name : List Char} (h : IsName isLabelStart isLabelChar name) :
    ∃ c cs, name = c :: cs ∧ c ≠ '}' ∧ isBlank c = false := by
  cases name with
  | nil => cases h.start
  | cons c cs =>
    have hc : isLabelStart c = true := by simpa using h.start
    have hclose : c ≠ '}' := by
      rintro rfl
      cases hc
    refine ⟨c, cs, rfl, hclose, ?_⟩
    by_contra hne
    have hblank : c = ' ' ∨ c = '\t' := by simpa [isBlank, or_iff_not_imp_left] using hne
    rcases hblank with rfl | rfl <;> cases hc

/-- A label with another behind it. -/
theorem readLabels_next {name : List Char} (hname : IsName isLabelStart isLabelChar name) (value : String)
    (rest : List Char) (fuel : Nat) :
    readLabels (fuel + 1) (name ++ '=' :: '"' :: (escapes.quote value.toList ++ ',' :: rest)) =
      (readLabels fuel rest).map fun r => ((String.ofList name, value) :: r.1, r.2) := by
  have hread := readLabel_quote hname value (',' :: rest)
  obtain ⟨c, cs, rfl, hclose, hblank⟩ := name_cons hname
  rw [List.cons_append] at hread ⊢
  rw [readLabels, skipBlanks_cons hblank, expect_of_ne hclose]
  simp only
  rw [hread, Option.bind_some, skipBlanks_cons (by decide), expect_cons]

/-- The last one. -/
theorem readLabels_last {name : List Char} (hname : IsName isLabelStart isLabelChar name) (value : String)
    (rest : List Char) (fuel : Nat) :
    readLabels (fuel + 1) (name ++ '=' :: '"' :: (escapes.quote value.toList ++ '}' :: rest)) =
      some ([(String.ofList name, value)], rest) := by
  have hread := readLabel_quote hname value ('}' :: rest)
  obtain ⟨c, cs, rfl, hclose, hblank⟩ := name_cons hname
  rw [List.cons_append] at hread ⊢
  rw [readLabels, skipBlanks_cons hblank, expect_of_ne hclose]
  simp only
  rw [hread, Option.bind_some, skipBlanks_cons (by decide), expect_of_ne (by decide), expect_cons]
  rfl

theorem readRest_token {value : List Char} (hvalue : IsToken value) (name : String) (labels : List (String × String)) :
    readRest name labels (' ' :: value) = some ⟨name, labels, String.ofList value, none⟩ := by
  have hread := readToken_blank hvalue (.inl rfl)
  rw [List.append_nil] at hread
  rw [readRest, hread, Option.bind_some]
  rfl

/-! ## Whole texts -/

/-- A line that is not empty and no comment. -/
def isSampleLine (line : String) : Bool := (skipBlanks line.toList).head?.any (· ≠ '#')

/-- The samples of a text. -/
def readText (text : String) : Option (List Sample) :=
  ((Text.split text '\n').filter isSampleLine).mapM readLine

theorem split_lines {lines : List String} (h : ∀ line ∈ lines, '\n' ∉ line.toList) :
    Text.split (String.join (lines.map (· ++ "\n"))) '\n' = lines ++ [""] := by
  induction lines with
  | nil => rfl
  | cons line others ih =>
    obtain ⟨hline, hothers⟩ := List.forall_mem_cons.mp h
    rw [List.map_cons, String.join_cons, show "\n" = String.singleton '\n' from rfl, Text.split_append,
      Text.split_eq_singleton hline, ← show "\n" = String.singleton '\n' from rfl, ih hothers]
    rfl

/-- Lines are read one by one. -/
theorem readText_lines {lines : List String} (h : ∀ line ∈ lines, '\n' ∉ line.toList) :
    readText (String.join (lines.map (· ++ "\n"))) = (lines.filter isSampleLine).mapM readLine := by
  have hlast : [""].filter isSampleLine = [] := by simp [isSampleLine, skipBlanks]
  rw [readText, split_lines h, List.filter_append, hlast, List.append_nil]

end

end JaspyNexus.Lib.Exposition

