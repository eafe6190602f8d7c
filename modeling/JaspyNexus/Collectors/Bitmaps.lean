import Mathlib
import JaspyNexus.Collectors.Tables
import JaspyNexus.Snmp.Render

/-! # Bitmap columns

An OCTET STRING reaches the collectors as hex text. Reading the text gives the octets back,
and a bitmap's values are the positions of the bits set, in order. -/

namespace JaspyNexus.Collectors
open JaspyNexus.Snmp.Render

/-! ## The text -/

theorem hexDigit_digitChar {n : Nat} (h : n < 16) : hexDigit (Nat.digitChar n) = some n := by
  interval_cases n <;> rfl

theorem isWhitespace_digitChar {n : Nat} (h : n < 16) : isWhitespace (Nat.digitChar n) = false := by
  interval_cases n <;> rfl

theorem digitChar_ne_plus {n : Nat} (h : n < 16) : Nat.digitChar n ≠ '+' := by
  interval_cases n <;> decide

/-- The two digits of an octet read back as the octet. -/
theorem parseHexOctet_hexDigits (b : UInt8) : parseHexOctet (hexDigits b).toList = some b.toNat := by
  have hb : b.toNat < 256 := b.toNat_lt
  have hhigh : b.toNat / 16 < 16 := by omega
  have hlow : b.toNat % 16 < 16 := by omega
  have hvalue : b.toNat / 16 * 16 + b.toNat % 16 = b.toNat := by omega
  have hmap : [Nat.digitChar (b.toNat / 16), Nat.digitChar (b.toNat % 16)].mapM hexDigit =
      some [b.toNat / 16, b.toNat % 16] := by
    simp [List.mapM_cons, hexDigit_digitChar hhigh, hexDigit_digitChar hlow]
  have hplus := digitChar_ne_plus hhigh
  simp only [hexDigits, String.toList_ofList, parseHexOctet]
  split
  next rest heq => exact absurd (List.cons.inj heq).1 hplus
  next => simp [hmap, hvalue, hb]

theorem mem_hexDigits_toList {b : UInt8} {c : Char} (h : c ∈ (hexDigits b).toList) : isWhitespace c = false := by
  have hb : b.toNat < 256 := b.toNat_lt
  simp only [hexDigits, String.toList_ofList, List.mem_cons, List.not_mem_nil, or_false] at h
  rcases h with rfl | rfl
  · exact isWhitespace_digitChar (by omega)
  · exact isWhitespace_digitChar (by omega)

/-- Splitting what was joined by blanks. -/
theorem splitWhitespace_intercalate {tokens : List (List Char)} (hne : ∀ t ∈ tokens, t ≠ [])
    (hplain : ∀ t ∈ tokens, ∀ c ∈ t, isWhitespace c = false) :
    splitWhitespace ([' '].intercalate tokens) = tokens := by
  induction tokens with
  | nil => rfl
  | cons token rest ih =>
    have htoken := hne token List.mem_cons_self
    have hchars := hplain token List.mem_cons_self
    have hrest := ih (fun t ht => hne t (List.mem_cons_of_mem _ ht))
      (fun t ht => hplain t (List.mem_cons_of_mem _ ht))
    cases rest with
    | nil =>
      rw [List.intercalate_singleton, splitWhitespace, List.splitOnP_eq_singleton hchars]
      simp [htoken]
    | cons next others =>
      rw [splitWhitespace] at hrest ⊢
      rw [List.intercalate_cons_cons, List.append_assoc, List.singleton_append,
        List.splitOnP_append_cons_of_forall_mem hchars _ rfl, List.filter_cons]
      simpa [htoken] using hrest

theorem mapM_parseHexOctet (bytes : List UInt8) :
    (bytes.map fun b => (hexDigits b).toList).mapM parseHexOctet = some (bytes.map UInt8.toNat) := by
  induction bytes with
  | nil => rfl
  | cons b rest ih =>
    rw [List.map_cons, List.mapM_cons, parseHexOctet_hexDigits, ih]
    rfl

/-- The tokens of the text are the octets. -/
theorem mapM_splitWhitespace_hexSpaces (bytes : List UInt8) :
    (splitWhitespace (hexSpaces bytes).toList).mapM parseHexOctet = some (bytes.map UInt8.toNat) := by
  have htext : (hexSpaces bytes).toList = [' '].intercalate (bytes.map fun b => (hexDigits b).toList) := by
    simp [hexSpaces, hexJoin, String.toList_intercalate, List.map_map, Function.comp_def]
  have hne : ∀ t ∈ bytes.map (fun b => (hexDigits b).toList), t ≠ [] := by
    intro t ht
    obtain ⟨b, -, rfl⟩ := List.mem_map.mp ht
    simp [hexDigits]
  have hplain : ∀ t ∈ bytes.map (fun b => (hexDigits b).toList), ∀ c ∈ t, isWhitespace c = false := by
    intro t ht c hc
    obtain ⟨b, -, rfl⟩ := List.mem_map.mp ht
    exact mem_hexDigits_toList hc
  rw [htext, splitWhitespace_intercalate hne hplain, mapM_parseHexOctet]

/-- **Nothing is lost in the text**: the octets read are the octets rendered. -/
theorem parseHexOctets_hexSpaces (bytes : List UInt8) :
    parseHexOctets (hexSpaces bytes) = bytes.map UInt8.toNat := by
  rw [parseHexOctets, mapM_splitWhitespace_hexSpaces, Option.getD_some]

/-! ## The bits -/

/-- Bit `n` of the octets, the most significant bit of each first. -/
def octetBit (octets : List Nat) (n : Nat) : Bool :=
  match octets[n / 8]? with
  | some octet => octet.testBit (7 - n % 8)
  | none => false

theorem octetBit_lt {octets : List Nat} {n : Nat} (h : octetBit octets n = true) : n < octets.length * 8 := by
  unfold octetBit at h
  cases hget : octets[n / 8]? with
  | none => rw [hget] at h; cases h
  | some octet =>
    have hlt := (List.getElem?_eq_some_iff.mp hget).1
    omega

/-- **The values are the bits set**, each `base` and its position. -/
theorem mem_bitmapValues {octets : List Nat} {base v : Int} :
    v ∈ bitmapValues octets base ↔ ∃ n : Nat, v = base + n ∧ octetBit octets n = true := by
  unfold bitmapValues
  simp only [List.mem_flatMap, List.mem_filterMap, List.mem_range, Option.ite_none_right_eq_some,
    Option.some.injEq, Prod.exists, List.mem_zipIdx_iff_getElem?]
  constructor
  · rintro ⟨octet, i, hget, j, hj, hbit, rfl⟩
    refine ⟨i * 8 + j, by push_cast; ring, ?_⟩
    have hdiv : (i * 8 + j) / 8 = i := by omega
    have hmod : (i * 8 + j) % 8 = j := by omega
    rw [octetBit, hdiv, hmod, hget]
    exact hbit
  · rintro ⟨n, rfl, hbit⟩
    unfold octetBit at hbit
    cases hget : octets[n / 8]? with
    | none => rw [hget] at hbit; cases hbit
    | some octet =>
      rw [hget] at hbit
      exact ⟨octet, n / 8, hget, n % 8, by omega, hbit, by push_cast; omega⟩

/-- The values of one octet ascend within its eight positions. -/
theorem pairwise_octet (octet : Nat) (start : Int) :
    ((List.range 8).filterMap fun j : Nat => if octet.testBit (7 - j) then some (start + j) else none).Pairwise (· < ·) := by
  refine List.Pairwise.filterMap _ ?_ List.pairwise_lt_range
  intro j j' hlt v hv v' hv'
  simp only [Option.ite_none_right_eq_some, Option.some.injEq] at hv hv'
  omega

theorem pairwise_bitmapValues (octets : List Nat) (base : Int) : (bitmapValues octets base).Pairwise (· < ·) := by
  unfold bitmapValues
  rw [List.pairwise_flatMap]
  refine ⟨fun e _ => pairwise_octet e.1 _, ?_⟩
  have hindices : (octets.zipIdx).Pairwise fun e e' => e.2 < e'.2 := by
    rw [← List.pairwise_map (f := Prod.snd) (R := (· < ·)), List.zipIdx_map_snd]
    exact List.pairwise_lt_range'
  refine hindices.imp fun {e e'} hlt v hv v' hv' => ?_
  simp only [List.mem_filterMap, List.mem_range, Option.ite_none_right_eq_some, Option.some.injEq] at hv hv'
  obtain ⟨j, hj, -, rfl⟩ := hv
  obtain ⟨j', -, -, rfl⟩ := hv'
  omega

end JaspyNexus.Collectors
