import Mathlib

/-! # Strings

Functions of the standard library that the code rests on, as they are documented. -/

namespace JaspyNexus.Lib.Text

/-- `char::is_whitespace`: the Unicode `White_Space` characters. -/
def isWhitespace (c : Char) : Bool :=
  (0x09 ≤ c.toNat && c.toNat ≤ 0x0d) || c.toNat = 0x20 || c.toNat = 0x85 || c.toNat = 0xa0 ||
    c.toNat = 0x1680 || (0x2000 ≤ c.toNat && c.toNat ≤ 0x200a) || c.toNat = 0x2028 ||
    c.toNat = 0x2029 || c.toNat = 0x202f || c.toNat = 0x205f || c.toNat = 0x3000

/-- `str::trim`. -/
def trim (s : String) : String :=
  String.ofList ((s.toList.dropWhile isWhitespace).reverse.dropWhile isWhitespace).reverse

/-- Without white space, there is nothing to trim. -/
theorem trim_eq_self {s : String} (h : ∀ c ∈ s.toList, isWhitespace c = false) : trim s = s := by
  have hdrop : ∀ {l : List Char}, (∀ c ∈ l, isWhitespace c = false) → l.dropWhile isWhitespace = l := by
    intro l hl
    cases l with
    | nil => rfl
    | cons c rest => rw [List.dropWhile_cons_of_neg (by simp [hl c List.mem_cons_self])]
  unfold trim
  rw [hdrop h, hdrop fun c hc => h c (List.mem_reverse.mp hc), List.reverse_reverse, String.ofList_toList]

theorem dropWhile_eq_self_of_head {l : List Char} {p : Char → Bool} (h : ∀ c ∈ l.head?, p c = false) :
    l.dropWhile p = l := by
  cases l with
  | nil => rfl
  | cons c rest => rw [List.dropWhile_cons_of_neg (by simp [h c rfl])]

/-- A string that begins with no white space is trimmed at its end alone. -/
theorem trim_isPrefix {s : String} (h : ∀ c ∈ s.toList.head?, isWhitespace c = false) :
    (trim s).toList <+: s.toList := by
  rw [trim, String.toList_ofList, dropWhile_eq_self_of_head h]
  have hsuffix := (List.dropWhile_suffix isWhitespace (l := s.toList.reverse)).reverse
  rwa [List.reverse_reverse] at hsuffix

/-- Without white space at its ends, there is nothing to trim. -/
theorem trim_eq_self_of_ends {s : String} (hhead : ∀ c ∈ s.toList.head?, isWhitespace c = false)
    (hlast : ∀ c ∈ s.toList.getLast?, isWhitespace c = false) : trim s = s := by
  have hreverse : ∀ c ∈ s.toList.reverse.head?, isWhitespace c = false := by
    rwa [List.head?_reverse]
  rw [trim, dropWhile_eq_self_of_head hhead, dropWhile_eq_self_of_head hreverse, List.reverse_reverse,
    String.ofList_toList]

/-- What is taken up to a character that the prefix has, is taken from the prefix. -/
theorem takeWhile_isPrefix {l l' : List Char} {p : Char → Bool} {c : Char} (h : l' <+: l) (hc : c ∈ l')
    (hp : p c = false) : l'.takeWhile p = l.takeWhile p := by
  obtain ⟨rest, rfl⟩ := h
  induction l' with
  | nil => cases hc
  | cons d l' ih =>
    rw [List.cons_append, List.takeWhile_cons, List.takeWhile_cons]
    by_cases hd : p d = true
    · rw [if_pos hd, if_pos hd, ih ?_]
      rcases List.mem_cons.mp hc with rfl | hc
      · rw [hp] at hd
        cases hd
      · exact hc
    · rw [if_neg hd, if_neg hd]

/-- `str::split_once`: what stands before and after the first separator. -/
def splitOnce (s : String) (sep : Char) : Option (String × String) :=
  match s.toList.dropWhile (· != sep) with
  | [] => none
  | _ :: after => some (String.ofList (s.toList.takeWhile (· != sep)), String.ofList after)

/-- `str::replace`, of a pattern that is not empty: the characters of an occurrence that
are still to be passed over, and the rest of the string. -/
def replaceFrom (pattern replacement : List Char) : Nat → List Char → List Char
  | _, [] => []
  | skipped + 1, _ :: rest => replaceFrom pattern replacement skipped rest
  | 0, c :: rest =>
    if pattern.isPrefixOf (c :: rest) then replacement ++ replaceFrom pattern replacement (pattern.length - 1) rest
    else c :: replaceFrom pattern replacement 0 rest

def replace (s pattern replacement : String) : String :=
  String.ofList (replaceFrom pattern.toList replacement.toList 0 s.toList)

/-- A character goes alone. -/
theorem replaceFrom_singleton (c : Char) (replacement l : List Char) :
    replaceFrom [c] replacement 0 l = l.flatMap fun d => if d = c then replacement else [d] := by
  induction l with
  | nil => rfl
  | cons d rest ih =>
    rw [replaceFrom, List.flatMap_cons]
    by_cases heq : d = c
    · subst heq
      rw [if_pos (by simp), if_pos rfl]
      exact congrArg (replacement ++ ·) ih
    · rw [if_neg (by simp [Ne.symm heq]), if_neg heq, ih]
      rfl

/-- `str::strip_prefix`. -/
def stripPrefix (s start : String) : Option String :=
  if start.toList.isPrefixOf s.toList then some (String.ofList (s.toList.drop start.toList.length)) else none

/-- `str::strip_suffix`. -/
def stripSuffix (s ending : String) : Option String :=
  if ending.toList.isSuffixOf s.toList then
    some (String.ofList (s.toList.take (s.toList.length - ending.toList.length)))
  else none

/-- The number that a string of nothing but digits gives, when it is an `i64`. -/
def digitsI64 (s : String) : Option Int :=
  if s ≠ "" && s.toList.all Char.isDigit then
    let v := s.toList.foldl (fun acc c => acc * 10 + (c.toNat - '0'.toNat)) 0
    if v < 2 ^ 63 then some v else none
  else none

theorem splitOnce_append {before after : String} {sep : Char} (h : sep ∉ before.toList) :
    splitOnce (before ++ String.singleton sep ++ after) sep = some (before, after) := by
  have hp : ∀ c ∈ before.toList, (c != sep) = true := fun c hc =>
    bne_iff_ne.mpr fun heq => h (heq ▸ hc)
  have htoList : (before ++ String.singleton sep ++ after).toList =
      before.toList ++ sep :: after.toList := by simp
  have hdrop : (before.toList ++ sep :: after.toList).dropWhile (· != sep) = sep :: after.toList := by
    rw [List.dropWhile_append_of_pos hp]
    simp
  have htake : (before.toList ++ sep :: after.toList).takeWhile (· != sep) = before.toList := by
    rw [List.takeWhile_append_of_pos hp]
    simp
  simp only [splitOnce, htoList, hdrop, htake, String.ofList_toList]

/-- The parts and the separator make the string. -/
theorem append_splitOnce {s : String} {sep : Char} (h : sep ∈ s.toList) :
    ∃ parts, splitOnce s sep = some parts ∧ parts.1 ++ String.singleton sep ++ parts.2 = s := by
  have hsplit : s.toList.takeWhile (· != sep) ++ s.toList.dropWhile (· != sep) = s.toList :=
    List.takeWhile_append_dropWhile
  cases hdrop : s.toList.dropWhile (· != sep) with
  | nil =>
    have hnone := List.dropWhile_eq_nil_iff.mp hdrop sep h
    simp at hnone
  | cons c after =>
    have hc : c = sep := by
      have hhead := List.head?_dropWhile_not (p := (· != sep)) s.toList
      rw [hdrop] at hhead
      simpa using hhead
    subst hc
    refine ⟨_, by rw [splitOnce, hdrop], String.toList_injective ?_⟩
    rw [hdrop] at hsplit
    simpa using hsplit

/-- `str::rsplit_once`: what stands before and after the last separator. -/
def rsplitOnce (s : String) (sep : Char) : Option (String × String) :=
  match s.toList.reverse.dropWhile (· != sep) with
  | [] => none
  | _ :: before =>
    some (String.ofList before.reverse, String.ofList (s.toList.reverse.takeWhile (· != sep)).reverse)

theorem rsplitOnce_append {before after : String} {sep : Char} (h : sep ∉ after.toList) :
    rsplitOnce (before ++ String.singleton sep ++ after) sep = some (before, after) := by
  have hp : ∀ c ∈ after.toList.reverse, (c != sep) = true := fun c hc =>
    bne_iff_ne.mpr fun heq => h (heq ▸ List.mem_reverse.mp hc)
  have htoList : (before ++ String.singleton sep ++ after).toList.reverse =
      after.toList.reverse ++ sep :: before.toList.reverse := by simp
  have hdrop : (after.toList.reverse ++ sep :: before.toList.reverse).dropWhile (· != sep) =
      sep :: before.toList.reverse := by
    rw [List.dropWhile_append_of_pos hp]
    simp
  have htake : (after.toList.reverse ++ sep :: before.toList.reverse).takeWhile (· != sep) =
      after.toList.reverse := by
    rw [List.takeWhile_append_of_pos hp]
    simp
  simp only [rsplitOnce, htoList, hdrop, htake, List.reverse_reverse, String.ofList_toList]

theorem rsplitOnce_eq_none {s : String} {sep : Char} (h : sep ∉ s.toList) : rsplitOnce s sep = none := by
  have hdrop : s.toList.reverse.dropWhile (· != sep) = [] :=
    List.dropWhile_eq_nil_iff.mpr fun c hc => bne_iff_ne.mpr fun heq => h (heq ▸ List.mem_reverse.mp hc)
  rw [rsplitOnce, hdrop]

/-- `str::starts_with`. -/
def startsWith (s start : String) : Bool := start.toList.isPrefixOf s.toList

/-- Two strings that begin alike up to a separator, which neither has before it, do so up to
theirs. -/
theorem append_separator_inj {sep : Char} {a b : List Char} {s t : List Char} (ha : sep ∉ a) (hb : sep ∉ b)
    (h : a ++ sep :: s = b ++ sep :: t) : a = b ∧ s = t := by
  induction a generalizing b with
  | nil =>
    cases b with
    | nil => exact ⟨rfl, (List.cons.inj h).2⟩
    | cons c b => exact absurd ((List.cons.inj h).1 ▸ List.mem_cons_self) hb
  | cons c a ih =>
    cases b with
    | nil => exact absurd ((List.cons.inj h).1 ▸ List.mem_cons_self) ha
    | cons d b =>
      obtain ⟨hcd, hrest⟩ := List.cons.inj h
      obtain ⟨hab, hst⟩ := ih (fun hm => ha (List.mem_cons_of_mem _ hm))
        (fun hm => hb (List.mem_cons_of_mem _ hm)) hrest
      exact ⟨by rw [hcd, hab], hst⟩

/-! ## Splitting -/

/-- `str::split`, at a character. -/
def split (s : String) (sep : Char) : List String := (s.toList.splitOn sep).map String.ofList

section
variable {sep : Char} {s t : String}

theorem split_append (s t : String) (sep : Char) :
    split (s ++ String.singleton sep ++ t) sep = split s sep ++ split t sep := by
  have htoList : (s ++ String.singleton sep ++ t).toList = s.toList ++ sep :: t.toList := by simp
  rw [split, htoList, List.splitOn_append_cons_self, List.map_append]
  rfl

theorem split_eq_singleton (h : sep ∉ s.toList) : split s sep = [s] := by
  rw [split, List.splitOn_eq_singleton h]
  simp

/-- No part has the separator. -/
theorem notMem_of_mem_split (h : t ∈ split s sep) : sep ∉ t.toList := by
  obtain ⟨part, hpart, rfl⟩ := List.mem_map.mp h
  rw [String.toList_ofList]
  clear h
  generalize s.toList = l at hpart
  induction l generalizing part with
  | nil =>
    rw [List.splitOn_nil, List.mem_singleton] at hpart
    simp [hpart]
  | cons c rest ih =>
    rw [List.splitOn_cons_eq_if_modifyHead] at hpart
    split at hpart
    · rcases List.mem_cons.mp hpart with rfl | hpart
      · simp
      · exact ih part hpart
    next hc =>
      cases hparts : rest.splitOn sep with
      | nil => exact absurd hparts (List.splitOn_ne_nil sep rest)
      | cons first others =>
        rw [hparts, List.modifyHead_cons] at hpart
        rcases List.mem_cons.mp hpart with rfl | hpart
        · have hfirst := ih first (by rw [hparts]; exact List.mem_cons_self)
          exact List.not_mem_cons_of_ne_of_not_mem (fun heq => hc (by simp [heq])) hfirst
        · exact ih part (by rw [hparts]; exact List.mem_cons_of_mem _ hpart)

end

/-! ## Numbers -/

/-- What a nonempty string of digits gives. -/
def digits (l : List Char) : Option Nat :=
  if l ≠ [] && l.all Char.isDigit then some (Nat.ofDigitChars 10 l 0) else none

/-- `parse::<i64>`: digits after an optional sign. -/
def parseI64 (s : String) : Option Int :=
  let v := match s.toList with
    | '-' :: rest => (digits rest).map fun n => -(n : Int)
    | '+' :: rest => (digits rest).map fun n => (n : Int)
    | l => (digits l).map fun n => (n : Int)
  v.filter fun v => -2 ^ 63 ≤ v ∧ v < 2 ^ 63

theorem isDigit_of_mem_repr {n : Nat} {c : Char} (h : c ∈ (Nat.repr n).toList) : c.isDigit = true := by
  rw [Nat.repr, String.toList_ofList] at h
  exact Nat.isDigit_of_mem_toDigits (by decide) (by decide) h

theorem digits_repr (n : Nat) : digits (Nat.repr n).toList = some n := by
  have hall : (Nat.repr n).toList.all Char.isDigit = true :=
    List.all_eq_true.mpr fun c hc => isDigit_of_mem_repr hc
  have hne : (Nat.repr n).toList ≠ [] := by
    rw [Nat.repr, String.toList_ofList]
    exact Nat.toDigits_ne_nil
  have hvalue : Nat.ofDigitChars 10 (Nat.repr n).toList 0 = n := by
    rw [Nat.repr, String.toList_ofList, Nat.ofDigitChars_ten_toDigits]
  rw [digits, hvalue, hall, Bool.and_true, if_pos (decide_eq_true hne)]

/-- An `i64` is read back from its text. -/
theorem parseI64_toString {v : Int} (h : -2 ^ 63 ≤ v ∧ v < 2 ^ 63) : parseI64 (toString v) = some v := by
  cases v with
  | ofNat n =>
    have hdigits := digits_repr n
    have hsign : ∀ c rest, (Nat.repr n).toList = c :: rest → c ≠ '-' ∧ c ≠ '+' := by
      intro c rest hc
      have hdigit : c.isDigit = true := isDigit_of_mem_repr (by rw [hc]; exact List.mem_cons_self)
      exact ⟨fun heq => by rw [heq] at hdigit; exact absurd hdigit (by decide),
        fun heq => by rw [heq] at hdigit; exact absurd hdigit (by decide)⟩
    show parseI64 (Nat.repr n) = _
    unfold parseI64
    split
    next rest hrest => exact absurd rfl (hsign _ _ hrest).1
    next rest hrest => exact absurd rfl (hsign _ _ hrest).2
    next =>
      rw [hdigits]
      simpa [Option.filter] using h
  | negSucc n =>
    show parseI64 ("-" ++ Nat.repr (n + 1)) = _
    have htoList : ("-" ++ Nat.repr (n + 1)).toList = '-' :: (Nat.repr (n + 1)).toList := by simp
    unfold parseI64
    rw [htoList]
    simp only [digits_repr]
    simpa [Option.filter, Int.negSucc_eq] using h

/-- `parse` of an unsigned integer: digits after an optional plus. -/
def parseUnsigned (limit : Nat) (s : String) : Option Nat :=
  (match s.toList with
    | '+' :: rest => digits rest
    | l => digits l).filter (· < limit)

theorem parseUnsigned_repr_eq (limit n : Nat) :
    parseUnsigned limit (Nat.repr n) = (some n).filter (· < limit) := by
  have hdigits := digits_repr n
  unfold parseUnsigned
  split
  next rest hrest =>
    have hdigit : Char.isDigit '+' = true := isDigit_of_mem_repr (by rw [hrest]; exact List.mem_cons_self)
    exact absurd hdigit (by decide)
  next => rw [hdigits]

/-- A number is read back from its text. -/
theorem parseUnsigned_repr {limit n : Nat} (h : n < limit) : parseUnsigned limit (Nat.repr n) = some n := by
  rw [parseUnsigned_repr_eq]
  simpa [Option.filter] using h

theorem parseUnsigned_repr_eq_none {limit n : Nat} (h : ¬n < limit) : parseUnsigned limit (Nat.repr n) = none := by
  rw [parseUnsigned_repr_eq]
  simpa [Option.filter] using h

/-- What is no digit does not begin a number. -/
theorem parseUnsigned_cons (limit : Nat) {c : Char} (hplus : c ≠ '+') (hdigit : c.isDigit = false)
    (rest : List Char) : parseUnsigned limit (String.ofList (c :: rest)) = none := by
  have hdigits : digits (c :: rest) = none := by
    unfold digits
    simp [hdigit]
  unfold parseUnsigned
  rw [String.toList_ofList]
  split
  next rest' hrest => exact absurd (List.cons.inj hrest).1 hplus
  next =>
    rw [hdigits]
    rfl

end JaspyNexus.Lib.Text
