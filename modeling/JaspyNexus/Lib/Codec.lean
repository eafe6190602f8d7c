import Mathlib
import JaspyNexus.Lib.Quoted
import JaspyNexus.Lib.Text

/-! # Texts that are read back

A codec prints a value and reads it back from the front of a text, whatever stands behind
it (`read_print`). Numbers are printed with the character that ends them. -/

namespace JaspyNexus.Lib

universe u v
variable {α : Type u} {β : Type v}

structure Codec (α : Type u) where
  print : α → List Char
  read : List Char → Option (α × List Char)
  read_print : ∀ a rest, read (print a ++ rest) = some (a, rest)

namespace Codec

/-- A fixed text before the value. -/
def after (s : List Char) (p : Codec α) : Codec α where
  print a := s ++ p.print a
  read l := if s.isPrefixOf l then p.read (l.drop s.length) else none
  read_print a rest := by
    have hbegins : s.isPrefixOf (s ++ p.print a ++ rest) = true := by simp
    rw [if_pos hbegins, List.append_assoc, List.drop_left, p.read_print]

/-- A fixed text behind it. -/
def before (p : Codec α) (s : List Char) : Codec α where
  print a := p.print a ++ s
  read l := (p.read l).bind fun r => if s.isPrefixOf r.2 then some (r.1, r.2.drop s.length) else none
  read_print a rest := by
    rw [List.append_assoc, p.read_print, Option.bind_some, if_pos (by simp), List.drop_left]

def seq (p : Codec α) (q : Codec β) : Codec (α × β) where
  print a := p.print a.1 ++ q.print a.2
  read l := (p.read l).bind fun r => (q.read r.2).map fun r' => ((r.1, r'.1), r'.2)
  read_print a rest := by
    rw [List.append_assoc, p.read_print, Option.bind_some, q.read_print]
    rfl

/-- Values that are built from others. -/
def via (p : Codec α) (build : α → β) (parts : β → α) (h : ∀ b, build (parts b) = b) : Codec β where
  print b := p.print (parts b)
  read l := (p.read l).map fun r => (build r.1, r.2)
  read_print b rest := by
    rw [p.read_print, Option.map_some, h]

/-- Nothing. -/
def unit : Codec Unit where
  print _ := []
  read l := some ((), l)
  read_print _ _ := rfl

/-- One of two kinds of values, told apart by the first character. -/
def either (p : Codec α) (q : Codec β) (left : Char → Bool)
    (hp : ∀ a rest, (p.print a ++ rest).head?.any left = true)
    (hq : ∀ b rest, (q.print b ++ rest).head?.any left = false) : Codec (α ⊕ β) where
  print
    | .inl a => p.print a
    | .inr b => q.print b
  read l :=
    if l.head?.any left then (p.read l).map fun r => (.inl r.1, r.2) else (q.read l).map fun r => (.inr r.1, r.2)
  read_print c rest := by
    cases c with
    | inl a =>
      dsimp only
      rw [if_pos (hp a rest), p.read_print]
      rfl
    | inr b =>
      dsimp only
      rw [if_neg (Bool.eq_false_iff.mp (hq b rest)), q.read_print]
      rfl

/-- A number, to the character behind it. -/
def nat (stop : Char) (h : stop.isDigit = false) : Codec Nat where
  print n := (Nat.repr n).toList ++ [stop]
  read l :=
    (Text.digits (l.takeWhile Char.isDigit)).bind fun n =>
      if (l.dropWhile Char.isDigit).head? = some stop then some (n, (l.dropWhile Char.isDigit).tail) else none
  read_print n rest := by
    have hdigits : ∀ c ∈ (Nat.repr n).toList, c.isDigit = true := fun _ => Text.isDigit_of_mem_repr
    have hsplit : (Nat.repr n).toList ++ [stop] ++ rest = (Nat.repr n).toList ++ stop :: rest := by simp
    rw [hsplit, List.takeWhile_append_of_pos hdigits, List.dropWhile_append_of_pos hdigits,
      List.takeWhile_cons_of_neg (by simp [h]), List.dropWhile_cons_of_neg (by simp [h]), List.append_nil,
      Text.digits_repr, Option.bind_some, List.head?_cons, if_pos rfl, List.tail_cons]

theorem head_nat {stop : Char} (h : stop.isDigit = false) (n : Nat) (rest : List Char) :
    ∃ c, ((nat stop h).print n ++ rest).head? = some c ∧ c.isDigit = true := by
  have hne : (Nat.repr n).toList ≠ [] := by
    rw [Nat.repr, String.toList_ofList]
    exact Nat.toDigits_ne_nil
  obtain ⟨c, cs, hcs⟩ := List.exists_cons_of_ne_nil hne
  refine ⟨c, ?_, Text.isDigit_of_mem_repr (hcs ▸ List.mem_cons_self)⟩
  rw [nat]
  dsimp only
  rw [hcs]
  rfl

/-- An integer, to the character behind it. -/
def int (stop : Char) (h : stop.isDigit = false) : Codec Int :=
  (either (after ['-'] (nat stop h)) (nat stop h) (· = '-') (fun _ _ => rfl) (fun n rest => by
    obtain ⟨c, hc, hdigit⟩ := head_nat h n rest
    rw [hc]
    refine decide_eq_false fun heq => ?_
    subst heq
    cases hdigit)).via
  (fun
    | .inl n => -(n : Int)
    | .inr n => n)
  (fun v => if v < 0 then .inl v.natAbs else .inr v.natAbs)
  (fun v => by
    by_cases hv : v < 0
    · simp only [if_pos hv]
      omega
    · simp only [if_neg hv]
      omega)

/-- A value, or the word for none. -/
def option (p : Codec α) (none : List Char) (first : Char) (hnone : none.head? = some first)
    (hp : ∀ a rest, (p.print a ++ rest).head?.any (· = first) = false) : Codec (Option α) :=
  (either (after none unit) p (· = first) (fun _ rest => by
    simp [after, unit, hnone]) hp).via
  (fun
    | .inl _ => Option.none
    | .inr a => some a)
  (fun
    | Option.none => .inl ()
    | some a => .inr a)
  (fun a => by cases a <;> rfl)

theorem head_int {stop : Char} (h : stop.isDigit = false) (v : Int) (rest : List Char) :
    ∃ c, ((int stop h).print v ++ rest).head? = some c ∧ (c = '-' ∨ c.isDigit = true) := by
  by_cases hv : v < 0
  · refine ⟨'-', ?_, .inl rfl⟩
    simp [int, via, either, after, hv]
  · obtain ⟨c, hc, hdigit⟩ := head_nat h v.natAbs rest
    refine ⟨c, ?_, .inr hdigit⟩
    rw [← hc]
    simp [int, via, either, hv]

/-- Values between brackets, with commas between them. -/
def list (p : Codec α) (opening close : Char) (hclose : close ≠ ',')
    (hstart : ∀ a rest, (p.print a ++ rest).head? ≠ some close) : Codec (List α) where
  print l := opening :: items p.print close l
  read l := if l.head? = some opening then readItems p.read close l.tail else none
  read_print l rest := by
    rw [List.cons_append, List.head?_cons, if_pos rfl, List.tail_cons, readItems_items p.read_print hclose hstart]

/-! ## Strings -/

/-- The escapes with a letter of their own. -/
def letters : List (Char × Char) :=
  [('"', '"'), ('\\', '\\'), ('\x08', 'b'), ('\x0c', 'f'), ('\n', 'n'), ('\r', 'r'), ('\t', 't')]

/-- The other control characters are written by their number. -/
def escape (c : Char) : List Char :=
  match letters.find? fun e => e.1 = c with
  | some e => ['\\', e.2]
  | none => if c.toNat < 32 then ['\\', 'u', '0', '0', Nat.digitChar (c.toNat / 16), Nat.digitChar (c.toNat % 16)] else [c]

def hexValue (c : Char) : Option Nat := (List.range 16).find? fun d => Nat.digitChar d = c

/-- The character of a number in hexadecimal digits. -/
def ofHex (digits : List Char) : Option Char :=
  (digits.mapM hexValue).map fun ds => Char.ofNat (Nat.ofDigits 16 ds.reverse)

/-- What is read after the first quote, and what is left after the last. -/
def readQuoted : List Char → Option (List Char × List Char)
  | [] => none
  | c :: rest =>
    if c = '"' then some ([], rest)
    else if c = '\\' then
      match rest with
      | [] => none
      | letter :: rest =>
        if letter = 'u' then
          match rest with
          | a :: b :: c :: d :: rest => (ofHex [a, b, c, d]).bind fun c => (readQuoted rest).map fun r => (c :: r.1, r.2)
          | _ => none
        else ((letters.find? fun e => e.2 = letter).map Prod.fst).bind fun c =>
          (readQuoted rest).map fun r => (c :: r.1, r.2)
    else if c.toNat < 32 then none
    else (readQuoted rest).map fun r => (c :: r.1, r.2)

theorem hexValue_digitChar {d : Nat} (h : d < 16) : hexValue (Nat.digitChar d) = some d := by
  revert h
  revert d
  decide

theorem ofHex_control {c : Char} (h : c.toNat < 32) :
    ofHex ['0', '0', Nat.digitChar (c.toNat / 16), Nat.digitChar (c.toNat % 16)] = some c := by
  have hzero : hexValue '0' = some 0 := rfl
  have hhigh := hexValue_digitChar (show c.toNat / 16 < 16 by omega)
  have hlow := hexValue_digitChar (Nat.mod_lt c.toNat (show 0 < 16 by omega))
  have hnumber : Nat.ofDigits 16 [c.toNat % 16, c.toNat / 16, 0, 0] = c.toNat := by
    simp only [Nat.ofDigits_cons, Nat.ofDigits_nil]
    push_cast
    omega
  simp only [ofHex, List.mapM_cons, List.mapM_nil, hzero, hhigh, hlow, Option.bind_eq_bind, Option.bind_some,
    Option.pure_def, Option.map_some, List.reverse_cons, List.reverse_nil, List.nil_append, List.cons_append, hnumber,
    Char.ofNat_toNat]

theorem readQuoted_end (rest : List Char) : readQuoted ('"' :: rest) = some ([], rest) := by
  rw [readQuoted.eq_def]
  rfl

theorem readQuoted_plain {c : Char} (hquote : c ≠ '"') (hslash : c ≠ '\\') (hcontrol : ¬c.toNat < 32) (rest : List Char) :
    readQuoted (c :: rest) = (readQuoted rest).map fun r => (c :: r.1, r.2) := by
  rw [readQuoted.eq_def]
  simp only [hquote, hslash, hcontrol, if_false]

theorem readQuoted_letter {e : Char × Char} (h : e ∈ letters) (rest : List Char) :
    readQuoted ('\\' :: e.2 :: rest) = (readQuoted rest).map fun r => (e.1 :: r.1, r.2) := by
  have hletters : ∀ e ∈ letters, (letters.find? fun e' => e'.2 = e.2).map Prod.fst = some e.1 ∧ e.2 ≠ 'u' := by
    decide
  obtain ⟨hfind, hnumber⟩ := hletters e h
  rw [readQuoted.eq_def]
  simp only [hnumber, hfind, Option.bind_some, if_false, if_true, Char.reduceEq]

theorem readQuoted_number {a b c d e : Char} (h : ofHex [a, b, c, d] = some e) (rest : List Char) :
    readQuoted ('\\' :: 'u' :: a :: b :: c :: d :: rest) = (readQuoted rest).map fun r => (e :: r.1, r.2) := by
  rw [readQuoted.eq_def]
  simp only [h, Option.bind_some, if_false, if_true, Char.reduceEq]

/-- **An escaped character is read back.** -/
theorem readQuoted_escape (c : Char) (rest : List Char) :
    readQuoted (escape c ++ rest) = (readQuoted rest).map fun r => (c :: r.1, r.2) := by
  unfold escape
  split
  · next e hfind =>
    obtain rfl : e.1 = c := by simpa using List.find?_some hfind
    exact readQuoted_letter (List.mem_of_find?_eq_some hfind) rest
  · next hfind =>
    split
    · next hcontrol => exact readQuoted_number (ofHex_control hcontrol) rest
    · next hcontrol =>
      refine readQuoted_plain ?_ ?_ hcontrol rest
      all_goals
        rintro rfl
        cases hfind

theorem readQuoted_flatMap (s rest : List Char) :
    readQuoted (s.flatMap escape ++ '"' :: rest) = some (s, rest) := by
  induction s with
  | nil => exact readQuoted_end rest
  | cons c s ih =>
    rw [List.flatMap_cons, List.append_assoc, readQuoted_escape, ih]
    rfl

/-- A string between quotes. -/
def text : Codec String where
  print s := '"' :: (s.toList.flatMap escape ++ ['"'])
  read l := if l.head? = some '"' then (readQuoted l.tail).map fun r => (String.ofList r.1, r.2) else none
  read_print s rest := by
    rw [List.cons_append, List.head?_cons, if_pos rfl, List.tail_cons, List.append_assoc]
    have hread := readQuoted_flatMap s.toList rest
    rw [List.singleton_append, hread, Option.map_some, String.ofList_toList]

end Codec

end JaspyNexus.Lib
