import Mathlib
import JaspyNexus.Collectors.Links

/-! # Hexadecimal port ids

`try_unhex_ascii` takes a string apart by its bytes, two at a time. It goes wrong where two
bytes end within a character, and takes a plus sign before a digit for a number, as the
parser of integers does. -/

namespace JaspyNexus.Collectors.Discovery.Links
open JaspyNexus.Lib JaspyNexus.Lib.Text JaspyNexus.Utilities.Discovery

/-! ## What is asked for -/

/-- The string without white space. -/
def bare (s : String) : List Char := s.toList.filter fun c => !isWhitespace c

def IsHexDigit (c : Char) : Prop := (hexDigit c).isSome

instance (c : Char) : Decidable (IsHexDigit c) := inferInstanceAs (Decidable (_ = true))

/-- Hexadecimal digits, an even number of them and not none. -/
structure IsHex (l : List Char) : Prop where
  nonempty : l ≠ []
  even : l.length % 2 = 0
  digits : ∀ c ∈ l, IsHexDigit c

/-- The bytes that the digits write. -/
def hexBytes : List Char → List Nat
  | a :: b :: rest => ((hexDigit a).getD 0 * 16 + (hexDigit b).getD 0) :: hexBytes rest
  | _ => []

/-- The bytes of ASCII among them. -/
def asciiText (bytes : List Nat) : String := String.ofList ((bytes.filter (· < 128)).map Char.ofNat)

/-- **The function is total and exact at the string**, and no port id aborts what asks it. -/
structure Unhexed (s : String) : Prop where
  returns : tryUnhexAscii s ≠ none
  hex_iff : (∃ out, tryUnhexAscii s = some (some out)) ↔ IsHex (bare s)
  decoded : IsHex (bare s) → tryUnhexAscii s = some (some (asciiText (hexBytes (bare s))))
  /-- neither the worker of a crawl nor the supervisor is aborted -/
  worker : ∀ (d : DetectedDevice) lldpIndex, d.lldpTryMapIdUsingAnything lldpIndex s ≠ none
  supervisor : ∀ (d : DetectedDevice) subtype, d.lookupPortByLldpRemoteInfo s subtype ≠ none

/-! ## What is done -/

/-- Two characters that the parser of integers reads. -/
def IsNumber (a b : Char) : Prop := (a = '+' ∨ IsHexDigit a) ∧ IsHexDigit b

instance (a b : Char) : Decidable (IsNumber a b) := inferInstanceAs (Decidable (_ ∧ _))

/-- What is left after the pairs that are read as numbers. -/
def afterNumbers : List Char → List Char
  | a :: b :: rest => if IsNumber a b then afterNumbers rest else a :: b :: rest
  | l => l

/-- The first two bytes are whole characters. -/
def wholePair : List Char → Bool
  | a :: b :: _ => (a.utf8Size = 1 && b.utf8Size = 1) || a.utf8Size = 2
  | [c] => c.utf8Size = 2
  | [] => true

def utf8Len (l : List Char) : Nat := (l.map Char.utf8Size).sum

/-- **The condition.** An odd number of bytes; or nothing but pairs of digits; or, after the
pairs that are read as numbers, two bytes that are whole characters. -/
def Sound (l : List Char) : Prop :=
  utf8Len l % 2 = 1 ∨ match afterNumbers l with
    | [] => '+' ∉ l
    | rest => wholePair rest = true

/-! ## Digits -/

theorem toNat_of_between {c lo hi : Char} (h : (lo ≤ c && c ≤ hi) = true) : lo.toNat ≤ c.toNat ∧ c.toNat ≤ hi.toNat := by
  rw [Bool.and_eq_true, decide_eq_true_eq, decide_eq_true_eq] at h
  exact h

/-- A digit is a character of ASCII, and less than sixteen. -/
theorem hexDigit_bounds {c : Char} {n : Nat} (h : hexDigit c = some n) : c.toNat ≤ 127 ∧ n < 16 := by
  unfold hexDigit at h
  split at h
  next hc =>
    obtain rfl := Option.some.inj h
    have hrange := toNat_of_between hc
    simp at hrange ⊢
    omega
  next =>
    split at h
    next hc =>
      obtain rfl := Option.some.inj h
      have hrange := toNat_of_between hc
      simp at hrange ⊢
      omega
    next =>
      split at h
      next hc =>
        obtain rfl := Option.some.inj h
        have hrange := toNat_of_between hc
        simp at hrange ⊢
        omega
      next => cases h

theorem utf8Size_of_ascii {c : Char} (h : c.toNat ≤ 127) : c.utf8Size = 1 := by
  have hval : c.val ≤ 0x7f := UInt32.le_iff_toNat_le.mpr h
  simp [Char.utf8Size, hval]

theorem IsHexDigit.utf8Size {c : Char} (h : IsHexDigit c) : c.utf8Size = 1 := by
  obtain ⟨n, hn⟩ := Option.isSome_iff_exists.mp h
  exact utf8Size_of_ascii (hexDigit_bounds hn).1

theorem not_isHexDigit_plus : ¬IsHexDigit '+' := by decide

theorem IsNumber.utf8Size {a b : Char} (h : IsNumber a b) : a.utf8Size = 1 ∧ b.utf8Size = 1 := by
  refine ⟨?_, h.2.utf8Size⟩
  rcases h.1 with rfl | ha
  · rfl
  · exact ha.utf8Size

/-- The parser of integers, on two characters. -/
theorem parseHexOctet_pair (a b : Char) : parseHexOctet [a, b] =
    if IsNumber a b then some ((hexDigit a).getD 0 * 16 + (hexDigit b).getD 0) else none := by
  unfold parseHexOctet
  by_cases hplus : a = '+'
  · subst hplus
    have hzero : (hexDigit '+').getD 0 = 0 := by decide
    cases hb : hexDigit b with
    | none =>
      have hnot : ¬IsNumber '+' b := fun h => by simpa [IsHexDigit, hb] using h.2
      simp [hb, hnot]
    | some y =>
      have hy := (hexDigit_bounds hb).2
      have hnumber : IsNumber '+' b := ⟨.inl rfl, by simp [IsHexDigit, hb]⟩
      have hfits : y < 256 := by omega
      simp [hb, hnumber, hzero, hfits]
  · dsimp only
    split
    next heq => exact absurd (List.cons.inj heq).1 hplus
    cases ha : hexDigit a with
    | none =>
      have hnot : ¬IsNumber a b := fun h => by simpa [IsHexDigit, ha, hplus] using h.1
      simp [ha, hnot]
    | some x =>
      cases hb : hexDigit b with
      | none =>
        have hnot : ¬IsNumber a b := fun h => by simpa [IsHexDigit, hb] using h.2
        simp [ha, hb, hnot]
      | some y =>
        have hx := (hexDigit_bounds ha).2
        have hy := (hexDigit_bounds hb).2
        have hnumber : IsNumber a b := ⟨.inr (by simp [IsHexDigit, ha]), by simp [IsHexDigit, hb]⟩
        have hfits : x * 16 + y < 256 := by omega
        simp [ha, hb, hnumber, hfits]

/-! ## The loop -/

@[simp] theorem utf8Len_cons (c : Char) (l : List Char) : utf8Len (c :: l) = c.utf8Size + utf8Len l := by
  simp [utf8Len]

/-- The text of the pairs that are read. -/
def textOf (l : List Char) : List Char := ((hexBytes l).filter (· < 128)).map Char.ofNat

/-- **What the loop does** with an even number of bytes. -/
theorem unhexPairs_eq (l : List Char) (heven : utf8Len l % 2 = 0) : unhexPairs l =
    if afterNumbers l = [] then some (some (textOf l))
    else if wholePair (afterNumbers l) then some none else none := by
  fun_induction unhexPairs l with
  | case1 => rfl
  | case2 c hsize => simp [afterNumbers, wholePair, hsize]
  | case3 c hsize => simp [afterNumbers, wholePair, hsize]
  | case4 a b rest hsizes byte hbyte ih =>
    have hnumber : IsNumber a b := by
      by_contra hnot
      rw [parseHexOctet_pair, if_neg hnot] at hbyte
      cases hbyte
    have hvalue : (hexDigit a).getD 0 * 16 + (hexDigit b).getD 0 = byte := by
      rw [parseHexOctet_pair, if_pos hnumber] at hbyte
      exact Option.some.inj hbyte
    have hrest : utf8Len rest % 2 = 0 := by
      simp only [utf8Len_cons, hsizes.1, hsizes.2] at heven
      omega
    have htext : textOf (a :: b :: rest) = if byte < 128 then Char.ofNat byte :: textOf rest else textOf rest := by
      rw [textOf, hexBytes, hvalue, List.filter_cons]
      split <;> simp_all [textOf]
    rw [ih hrest, afterNumbers, if_pos hnumber, htext]
    by_cases hnil : afterNumbers rest = []
    · simp [hnil]
    · by_cases hwhole : wholePair (afterNumbers rest) = true <;> simp [hnil, hwhole]
  | case5 a b rest hsizes hnone =>
    have hnot : ¬IsNumber a b := by
      intro hnumber
      rw [parseHexOctet_pair, if_pos hnumber] at hnone
      cases hnone
    simp [afterNumbers, hnot, wholePair, hsizes]
  | case6 a b rest hsizes hsize =>
    have hnot : ¬IsNumber a b := fun hnumber => hsizes hnumber.utf8Size
    simp [afterNumbers, hnot, wholePair, hsize]
  | case7 a b rest hsizes hsize =>
    have hnot : ¬IsNumber a b := fun hnumber => hsizes hnumber.utf8Size
    have hcut : wholePair (a :: b :: rest) = false := by
      simpa [wholePair, hsize] using hsizes
    simp [afterNumbers, hnot, hcut]

/-! ## Digits and nothing else -/

theorem utf8Len_of_digits {l : List Char} (h : ∀ c ∈ l, IsHexDigit c) : utf8Len l = l.length := by
  induction l with
  | nil => rfl
  | cons c rest ih =>
    rw [utf8Len_cons, (h c List.mem_cons_self).utf8Size, ih fun c' hc' => h c' (List.mem_cons_of_mem c hc'),
      List.length_cons, Nat.add_comm]

/-- All is read, and none of it is a plus sign: it is digits. -/
theorem afterNumbers_eq_nil_and_iff (l : List Char) :
    (afterNumbers l = [] ∧ '+' ∉ l) ↔ l.length % 2 = 0 ∧ ∀ c ∈ l, IsHexDigit c := by
  fun_induction afterNumbers l with
  | case1 a b rest hnumber ih =>
    constructor
    · intro h
      obtain ⟨hnil, hplus⟩ := h
      simp only [List.mem_cons, not_or] at hplus
      obtain ⟨heven, hdigits⟩ := ih.mp ⟨hnil, hplus.2.2⟩
      refine ⟨by simp only [List.length_cons]; omega, fun c hc => ?_⟩
      rcases List.mem_cons.mp hc with rfl | hc
      · exact hnumber.1.resolve_left (Ne.symm hplus.1)
      rcases List.mem_cons.mp hc with rfl | hc
      · exact hnumber.2
      · exact hdigits c hc
    · intro h
      obtain ⟨heven, hdigits⟩ := h
      simp only [List.length_cons] at heven
      obtain ⟨hnil, hplus⟩ := ih.mpr ⟨by omega, fun c hc => hdigits c (by simp [hc])⟩
      refine ⟨hnil, fun hmem => ?_⟩
      exact not_isHexDigit_plus (hdigits _ hmem)
  | case2 a b rest hnot =>
    refine iff_of_false (fun h => by cases h.1) fun h => ?_
    exact hnot ⟨.inr (h.2 a (by simp)), h.2 b (by simp)⟩
  | case3 l hshort =>
    rcases l with _ | ⟨a, _ | ⟨b, rest⟩⟩
    · simp
    · simp
    · exact absurd rfl (hshort a b rest)

theorem isHex_iff {l : List Char} (hne : l ≠ []) : IsHex l ↔ afterNumbers l = [] ∧ '+' ∉ l := by
  rw [afterNumbers_eq_nil_and_iff]
  exact ⟨fun h => ⟨h.even, h.digits⟩, fun h => ⟨hne, h.1, h.2⟩⟩

/-! ## Who asks -/

/-- Who asks is aborted only where the function goes wrong. -/
theorem callers_return {s : String} (h : tryUnhexAscii s ≠ none) :
    (∀ (d : DetectedDevice) lldpIndex, d.lldpTryMapIdUsingAnything lldpIndex s ≠ none) ∧
    ∀ (d : DetectedDevice) subtype, d.lookupPortByLldpRemoteInfo s subtype ≠ none := by
  obtain ⟨out, hout⟩ := Option.ne_none_iff_exists'.mp h
  refine ⟨fun d lldpIndex => ?_, fun d subtype => ?_⟩
  · rw [DetectedDevice.lldpTryMapIdUsingAnything, hout]
    exact Option.some_ne_none _
  · unfold DetectedDevice.lookupPortByLldpRemoteInfo
    rw [hout]
    split
    · exact Option.some_ne_none _
    · split
      · exact Option.some_ne_none _
      · split
        · exact Option.some_ne_none _
        · exact Option.some_ne_none _

/-- A result that says what it should. -/
theorem unhexed_of {s : String} {out : Option String} (hout : tryUnhexAscii s = some out)
    (hnone : out = none → ¬IsHex (bare s))
    (hsome : ∀ text, out = some text → IsHex (bare s) ∧ text = asciiText (hexBytes (bare s))) : Unhexed s := by
  have hreturns : tryUnhexAscii s ≠ none := by rw [hout]; exact Option.some_ne_none _
  have hcallers := callers_return hreturns
  cases out with
  | none =>
    have hnot := hnone rfl
    refine ⟨hreturns, iff_of_false ?_ hnot, fun h => absurd h hnot, hcallers.1, hcallers.2⟩
    rw [hout]
    exact fun ⟨_, h⟩ => by cases h
  | some text =>
    obtain ⟨hhex, rfl⟩ := hsome text rfl
    exact ⟨hreturns, iff_of_true ⟨_, hout⟩ hhex, fun _ => hout, hcallers.1, hcallers.2⟩

/-- **When a port id is taken for what it is**, and aborts nothing. -/
theorem unhexed_iff (s : String) : Unhexed s ↔ Sound (bare s) := by
  have hdef : tryUnhexAscii s = if utf8Len (bare s) % 2 ≠ 0 || (bare s).isEmpty then some none
    else (unhexPairs (bare s)).map fun out => out.map String.ofList := rfl
  by_cases hodd : utf8Len (bare s) % 2 = 1
  · have hout : tryUnhexAscii s = some none := by rw [hdef]; simp [hodd]
    refine iff_of_true (unhexed_of hout (fun _ hhex => ?_) (fun _ h => by cases h)) (.inl hodd)
    have hlen := utf8Len_of_digits hhex.digits
    have heven := hhex.even
    omega
  have heven : utf8Len (bare s) % 2 = 0 := by omega
  by_cases hnil : bare s = []
  · have hout : tryUnhexAscii s = some none := by rw [hdef]; simp [hnil]
    refine iff_of_true (unhexed_of hout (fun _ hhex => hhex.nonempty hnil) (fun _ h => by cases h)) (.inr ?_)
    rw [hnil]
    exact List.not_mem_nil
  have hloop : tryUnhexAscii s = (unhexPairs (bare s)).map fun out => out.map String.ofList := by
    rw [hdef]
    simp [heven, hnil]
  rw [unhexPairs_eq _ heven] at hloop
  unfold Sound
  by_cases hall : afterNumbers (bare s) = []
  · -- all pairs are numbers, so that something is returned
    rw [if_pos hall] at hloop
    have hsound : (utf8Len (bare s) % 2 = 1 ∨ match afterNumbers (bare s) with
        | [] => '+' ∉ bare s
        | rest => wholePair rest = true) ↔ '+' ∉ bare s := by
      simp [hodd, hall]
    rw [hsound]
    constructor
    · intro h
      exact ((isHex_iff hnil).mp (h.hex_iff.mp ⟨_, hloop⟩)).2
    · intro hplus
      refine unhexed_of hloop (fun h => by cases h) fun text htext => ?_
      exact ⟨(isHex_iff hnil).mpr ⟨hall, hplus⟩, (Option.some.inj htext).symm⟩
  · rw [if_neg hall] at hloop
    have hnot : ¬IsHex (bare s) := fun hhex => hall ((isHex_iff hnil).mp hhex).1
    have hsound : (utf8Len (bare s) % 2 = 1 ∨ match afterNumbers (bare s) with
        | [] => '+' ∉ bare s
        | rest => wholePair rest = true) ↔ wholePair (afterNumbers (bare s)) = true := by
      cases hrest : afterNumbers (bare s) with
      | nil => exact absurd hrest hall
      | cons => simp [hodd]
    rw [hsound]
    by_cases hwhole : wholePair (afterNumbers (bare s)) = true
    · rw [if_pos hwhole] at hloop
      exact iff_of_true (unhexed_of hloop (fun _ => hnot) fun _ h => by cases h) hwhole
    · rw [if_neg hwhole] at hloop
      exact iff_of_false (fun h => h.returns hloop) hwhole

/-- **A port id that aborts**: its third byte is within a character. -/
theorem port_id_aborts : ¬Unhexed "aéb" ∧ tryUnhexAscii "aéb" = none := by
  have hnone : tryUnhexAscii "aéb" = none := by decide +kernel
  exact ⟨fun h => h.returns hnone, hnone⟩

end JaspyNexus.Collectors.Discovery.Links
