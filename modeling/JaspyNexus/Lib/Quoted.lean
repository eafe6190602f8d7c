import Mathlib

/-! # Quoted text

Text between double quotes, in which some characters are written as a backslash and a
letter. What is quoted is read back (`read_quote`), and so are items in a row. -/

namespace JaspyNexus.Lib

universe u

/-- Which characters are escaped, each with its letter. A quote, a backslash and a
newline have to be. -/
structure Escapes where
  table : List (Char × Char)
  letters : (table.map Prod.snd).Nodup
  special : ∀ c ∈ ['"', '\\', '\n'], c ∈ table.map Prod.fst

namespace Escapes
variable (esc : Escapes)

def escape (c : Char) : List Char :=
  match esc.table.find? fun e => e.1 = c with
  | some e => ['\\', e.2]
  | none => [c]

/-- The character of a letter. -/
def unescape (letter : Char) : Option Char := (esc.table.find? fun e => e.2 = letter).map Prod.fst

/-- The text between its quotes, with the quote that ends it. -/
def quote (s : List Char) : List Char := s.flatMap esc.escape ++ ['"']

/-- What is read after the first quote, and what is left after the last. -/
def read : List Char → Option (List Char × List Char)
  | [] => none
  | c :: rest =>
    if c = '"' then some ([], rest)
    else if c = '\n' then none
    else if c = '\\' then
      match rest with
      | [] => none
      | letter :: rest => (esc.unescape letter).bind fun c => (read rest).map fun r => (c :: r.1, r.2)
    else (read rest).map fun r => (c :: r.1, r.2)

variable {esc}

theorem unescape_of_mem {c letter : Char} (h : (c, letter) ∈ esc.table) : esc.unescape letter = some c := by
  unfold unescape
  cases hfind : esc.table.find? fun e => decide (e.2 = letter) with
  | none => exact absurd (decide_eq_true rfl) (List.find?_eq_none.mp hfind (c, letter) h)
  | some e =>
    have hletter : e.2 = letter := by simpa using List.find?_some hfind
    have heq := List.inj_on_of_nodup_map esc.letters (List.mem_of_find?_eq_some hfind) h hletter
    rw [heq]
    rfl

theorem read_end (rest : List Char) : esc.read ('"' :: rest) = some ([], rest) := by
  rw [read.eq_def]
  rfl

theorem read_plain {c : Char} (hquote : c ≠ '"') (hslash : c ≠ '\\') (hline : c ≠ '\n') (rest : List Char) :
    esc.read (c :: rest) = (esc.read rest).map fun r => (c :: r.1, r.2) := by
  rw [read.eq_def]
  simp only [hquote, hslash, hline, if_false]

/-- **An escaped character is read back.** -/
theorem read_escape (c : Char) (rest : List Char) :
    esc.read (esc.escape c ++ rest) = (esc.read rest).map fun r => (c :: r.1, r.2) := by
  unfold escape
  split
  next e hfind =>
    have hc : e.1 = c := by simpa using List.find?_some hfind
    have hletter : esc.unescape e.2 = some c := by
      rw [← hc]
      exact unescape_of_mem (List.mem_of_find?_eq_some hfind)
    simp [read, hletter]
  next hfind =>
    have hplain : c ∉ ['"', '\\', '\n'] := fun hmem => by
      obtain ⟨e, he, hc⟩ := List.mem_map.mp (esc.special c hmem)
      simpa [hc] using List.find?_eq_none.mp hfind e he
    simp only [List.mem_cons, not_or, List.not_mem_nil, not_false_eq_true, and_true] at hplain
    rw [List.singleton_append]
    exact read_plain hplain.1 hplain.2.1 hplain.2.2 rest

/-- **Quoted text is read back.** -/
theorem read_quote (s rest : List Char) : esc.read (esc.quote s ++ rest) = some (s, rest) := by
  induction s with
  | nil => exact read_end rest
  | cons c s ih =>
    have hcons : esc.quote (c :: s) ++ rest = esc.escape c ++ (esc.quote s ++ rest) := by
      simp [quote]
    rw [hcons, read_escape, ih]
    rfl

/-- Text without anything to escape stands as it is. -/
theorem quote_of_plain {s : List Char} (h : ∀ c ∈ s, c ∉ esc.table.map Prod.fst) : esc.quote s = s ++ ['"'] := by
  have hescape : ∀ c ∈ s, esc.escape c = [c] := by
    intro c hc
    have hfind : esc.table.find? (fun e => decide (e.1 = c)) = none :=
      List.find?_eq_none.mpr fun e he heq => h c hc (List.mem_map.mpr ⟨e, he, of_decide_eq_true heq⟩)
    rw [escape, hfind]
  rw [quote, List.flatMap_congr hescape, List.flatMap_singleton']

/-- A character that no quoted text has as it is. -/
def isSpecial (c : Char) : Bool := c = '"' || c = '\\' || c = '\n'

/-- **Special characters take two**: what is read is shorter than its text by the special
characters that it has. -/
theorem read_length {l s rest : List Char} (h : esc.read l = some (s, rest)) :
    ∃ used, l = used ++ rest ∧ s.length + s.countP isSpecial + 1 ≤ used.length := by
  fun_induction read generalizing s with
  | case1 => cases h
  | case2 rest' =>
    cases h
    exact ⟨['"'], rfl, Nat.le_refl 1⟩
  | case3 => cases h
  | case4 => cases h
  | case5 letter rest' _ _ ih =>
    obtain ⟨c, hc, h⟩ := Option.bind_eq_some_iff.mp h
    obtain ⟨⟨s', after⟩, hr, h⟩ := Option.map_eq_some_iff.mp h
    cases h
    obtain ⟨used, rfl, hread⟩ := ih hr
    have hused : s'.length + s'.countP isSpecial + 1 ≤ used.length := hread
    refine ⟨'\\' :: letter :: used, rfl, ?_⟩
    show (c :: s').length + (c :: s').countP isSpecial + 1 ≤ _
    simp only [List.length_cons, List.countP_cons] at hused ⊢
    split <;> omega
  | case6 c rest' hquote hline hslash ih =>
    obtain ⟨⟨s', after⟩, hr, h⟩ := Option.map_eq_some_iff.mp h
    cases h
    obtain ⟨used, rfl, hread⟩ := ih hr
    have hused : s'.length + s'.countP isSpecial + 1 ≤ used.length := hread
    refine ⟨c :: used, rfl, ?_⟩
    show (c :: s').length + (c :: s').countP isSpecial + 1 ≤ _
    have hplain : isSpecial c = false := by simp [isSpecial, hquote, hline, hslash]
    rw [List.length_cons, List.countP_cons_of_neg (by simp [hplain]), List.length_cons]
    omega

end Escapes

/-! ## Items in a row -/

section
variable {α : Type u} (item : α → List Char) (readItem : List Char → Option (α × List Char)) (close : Char)

/-- What follows an item. -/
def moreItems : List α → List Char
  | [] => [close]
  | a :: more => ',' :: (item a ++ moreItems more)

/-- Items with commas between them, up to the closing bracket. -/
def items : List α → List Char
  | [] => [close]
  | a :: more => item a ++ moreItems item close more

/-- The fuel bounds how many items are read. -/
def readMore : Nat → List Char → Option (List α × List Char)
  | 0, _ => none
  | _, [] => none
  | fuel + 1, c :: rest =>
    if c = close then some ([], rest)
    else if c = ',' then
      (readItem rest).bind fun a => (readMore fuel a.2).map fun more => (a.1 :: more.1, more.2)
    else none

def readItems (l : List Char) : Option (List α × List Char) :=
  if l.head? = some close then some ([], l.tail)
  else (readItem l).bind fun a => (readMore readItem close l.length a.2).map fun more => (a.1 :: more.1, more.2)

variable {item readItem close} (hread : ∀ a rest, readItem (item a ++ rest) = some (a, rest))

include hread in
theorem readMore_moreItems (hclose : close ≠ ',') (l : List α) (rest : List Char) {fuel : Nat}
    (hfuel : l.length < fuel) : readMore readItem close fuel (moreItems item close l ++ rest) = some (l, rest) := by
  induction l generalizing fuel with
  | nil =>
    obtain ⟨fuel, rfl⟩ := Nat.exists_eq_add_of_lt hfuel
    simp [moreItems, readMore]
  | cons a more ih =>
    obtain ⟨fuel, rfl⟩ := Nat.exists_eq_succ_of_ne_zero (Nat.ne_of_gt (Nat.zero_lt_of_lt hfuel))
    have hfuel' : more.length < fuel := by simpa using hfuel
    have hmore := ih hfuel'
    rw [moreItems, List.cons_append, List.append_assoc, readMore, if_neg (Ne.symm hclose), if_pos rfl, hread,
      Option.bind_some, hmore]
    rfl

include hread in
/-- **Items in a row are read back**, where none starts with the closing bracket. -/
theorem readItems_items (hclose : close ≠ ',') (hstart : ∀ a rest, (item a ++ rest).head? ≠ some close)
    (l : List α) (rest : List Char) : readItems readItem close (items item close l ++ rest) = some (l, rest) := by
  cases l with
  | nil => simp [readItems, items]
  | cons a more =>
    have hfuel : more.length < (items item close (a :: more) ++ rest).length := by
      have hcount : ∀ l : List α, l.length < (moreItems item close l).length := by
        intro l
        induction l with
        | nil => exact Nat.zero_lt_one
        | cons b l ih =>
          simp only [moreItems, List.length_cons, List.length_append]
          omega
      have := hcount more
      simp only [items, List.length_append]
      omega
    have hnot : (items item close (a :: more) ++ rest).head? ≠ some close := by
      rw [items, List.append_assoc]
      exact hstart a _
    rw [readItems, if_neg hnot, show items item close (a :: more) ++ rest =
      item a ++ (moreItems item close more ++ rest) by rw [items, List.append_assoc], hread, Option.bind_some]
    rw [items, List.append_assoc] at hfuel
    rw [readMore_moreItems hread hclose more rest hfuel]
    rfl

end

end JaspyNexus.Lib
