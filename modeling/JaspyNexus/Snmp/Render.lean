import JaspyNexus.Snmp.Types

/-! # Value rendering and index decoding

`snmp/render.rs`: one SNMP value rendered under its MIB syntax, and the index
suffix of a row decoded into the map the collectors read. Every index object
consumes exactly one sub-identifier, so two rows of a table whose index objects
have distinct ids never decode to the same map (`decodeIndex_injective`). -/

namespace JaspyNexus.Snmp.Render
open JaspyNexus.Lib JaspyNexus.Snmp

/-! ## Text -/

def hexDigits (b : UInt8) : String :=
  String.ofList [Nat.digitChar (b.toNat / 16), Nat.digitChar (b.toNat % 16)]

/-- Lowercase hex bytes joined by `separator`. -/
def hexJoin (separator : String) (bytes : List UInt8) : String :=
  separator.intercalate (bytes.map hexDigits)

def hexColons (bytes : List UInt8) : String := hexJoin ":" bytes

def hexSpaces (bytes : List UInt8) : String := hexJoin " " bytes

/-- The ranges of the bytes that must follow a UTF-8 lead byte; `none` for a
byte that starts no sequence. -/
def continuations (b : Nat) : Option (List (Nat × Nat)) :=
  if b < 0x80 then some []
  else if b < 0xC2 then none
  else if b ≤ 0xDF then some [(0x80, 0xBF)]
  else if b = 0xE0 then some [(0xA0, 0xBF), (0x80, 0xBF)]
  else if b = 0xED then some [(0x80, 0x9F), (0x80, 0xBF)]
  else if b ≤ 0xEF then some [(0x80, 0xBF), (0x80, 0xBF)]
  else if b = 0xF0 then some [(0x90, 0xBF), (0x80, 0xBF), (0x80, 0xBF)]
  else if b ≤ 0xF3 then some [(0x80, 0xBF), (0x80, 0xBF), (0x80, 0xBF)]
  else if b = 0xF4 then some [(0x80, 0x8F), (0x80, 0xBF), (0x80, 0xBF)]
  else none

/-- The longest run of `bytes` that fits the ranges. -/
def matching : List (Nat × Nat) → List Nat → List Nat
  | (lo, hi) :: ranges, b :: bytes => if lo ≤ b ∧ b ≤ hi then b :: matching ranges bytes else []
  | _, _ => []

/-- The scalar value of a complete sequence. -/
def scalar (lead : Nat) (rest : List Nat) : Nat :=
  rest.foldl (fun acc b => acc * 64 + b % 64)
    (match rest.length with
      | 0 => lead
      | 1 => lead % 32
      | 2 => lead % 16
      | _ => lead % 8)

/-- `String::from_utf8_lossy`: every maximal invalid part becomes one U+FFFD.
One character consumes at least one byte, so `fuel` is the number of bytes. -/
def lossyChars : Nat → List Nat → List Char
  | 0, _ => []
  | _, [] => []
  | fuel + 1, b :: bytes =>
    match continuations b with
    | none => Char.ofNat 0xFFFD :: lossyChars fuel bytes
    | some ranges =>
      let run := matching ranges bytes
      let c := if run.length = ranges.length then scalar b run else 0xFFFD
      Char.ofNat c :: lossyChars fuel (bytes.drop run.length)

def fromUtf8Lossy (bytes : List UInt8) : String :=
  String.ofList (lossyChars bytes.length (bytes.map UInt8.toNat))

/-- UTF-8 (lossy) with a single trailing NUL stripped. -/
def displayString (bytes : List UInt8) : String :=
  fromUtf8Lossy (if bytes.getLast? = some 0 then bytes.dropLast else bytes)

/-- Bit `n` lives in byte `n / 8`, MSB first; the names of the set bits. -/
def decodeBits (bytes : List UInt8) (bitNames : List (Nat × String)) : List String :=
  bitNames.filterMap fun (bit, name) =>
    match bytes[bit / 8]? with
    | some byte => if byte.toNat.testBit (7 - bit % 8) then some name else none
    | none => none

/-! ## Values -/

def rawAsU64 : RawValue → Option Nat
  | .integer v => if 0 ≤ v then some v.toNat else none
  | .counter32 v | .unsigned32 v | .timeticks v | .counter64 v => some v
  | _ => none

def rawAsI64 : RawValue → Option Int
  | .integer v => some v
  | .counter32 v | .unsigned32 v | .timeticks v => some v
  | .counter64 v => some (asI64 v)
  | _ => none

def rawBytes : RawValue → Option (List UInt8)
  | .octetString bytes | .opaqueBytes bytes => some bytes
  | _ => none

/-- A negative INTEGER becomes a float: the response type has no signed variant. -/
def renderInteger (v : Int) : Val := if 0 ≤ v then .uint64 v.toNat else .float64 (F64.round v)

def dotted (parts : List Nat) : String := ".".intercalate (parts.map toString)

/-- `render_value`. The no-value sentinels render as empty under any syntax. -/
def renderValue (raw : RawValue) (valueSyntax : Syntax) : Val :=
  if raw.isEndOfView || raw = .null then .empty
  else match valueSyntax with
    | .unsigned => ((rawAsU64 raw).map Val.uint64).getD .empty
    | .integer => ((rawAsI64 raw).map renderInteger).getD .empty
    | .enum names =>
      match rawAsI64 raw with
      | some v => ((names v).map Val.str).getD (renderInteger v)
      | none => .empty
    | .displayString => ((rawBytes raw).map fun b => Val.str (displayString b)).getD .empty
    | .macAddress => ((rawBytes raw).map fun b => Val.str (hexColons b)).getD .empty
    | .octetString => ((rawBytes raw).map fun b => Val.str (hexSpaces b)).getD .empty
    | .ipAddress =>
      match raw with
      | .ipAddress a b c d => .str (dotted [a.toNat, b.toNat, c.toNat, d.toNat])
      | .octetString [a, b, c, d] => .str (dotted [a.toNat, b.toNat, c.toNat, d.toNat])
      | _ => .empty
    | .objectIdentifier =>
      match raw with
      | .oid parts => .str (dotted (parts.map Fin.val))
      | _ => .empty
    | .bits names =>
      ((rawBytes raw).map fun b => Val.other (.array ((decodeBits b names).map some))).getD .empty

/-! ## Index suffixes -/

/-- The syntaxes whose objects take exactly one sub-identifier of an index. -/
def integerFamily : Syntax → Bool
  | .integer | .unsigned | .enum _ => true
  | _ => false

/-- The loop of `decode_index` over the index objects and their sub-identifiers. -/
def decodeIndexFrom (out : PMap String Int) : List (MibObject × SubId) → Option (PMap String Int)
  | [] => some out
  | (obj, sub) :: rest =>
    if integerFamily obj.valueSyntax then
      decodeIndexFrom (PMap.insert out obj.id (asI64 sub)) rest
    else none

/-- `decode_index`: one sub-identifier for each index object. -/
def decodeIndex (suffix : Oid) (indexObjs : List MibObject) : Option (PMap String Int) :=
  if suffix.length ≠ indexObjs.length then none
  else decodeIndexFrom PMap.empty (indexObjs.zip suffix)

theorem decodeIndex_length {suffix : Oid} {objs : List MibObject} {index : PMap String Int}
    (h : decodeIndex suffix objs = some index) : suffix.length = objs.length := by
  unfold decodeIndex at h
  split at h
  · cases h
  · next hne => simpa using hne

/-- The objects the loop has not reached yet keep what `out` held. -/
theorem decodeIndexFrom_not_mem {pairs : List (MibObject × SubId)} {out index : PMap String Int}
    (h : decodeIndexFrom out pairs = some index) {id : String}
    (hid : id ∉ pairs.map fun p => p.1.id) : index id = out id := by
  induction pairs generalizing out with
  | nil => simp only [decodeIndexFrom, Option.some.injEq] at h; rw [h]
  | cons p rest ih =>
    obtain ⟨obj, sub⟩ := p
    simp only [decodeIndexFrom] at h
    split at h
    · simp only [List.map_cons, List.mem_cons, not_or] at hid
      rw [ih h hid.2, PMap.insert_of_ne _ _ hid.1]
    · cases h

/-- With distinct object ids each object reads its own sub-identifier. -/
theorem decodeIndexFrom_mem {pairs : List (MibObject × SubId)} {out index : PMap String Int}
    (h : decodeIndexFrom out pairs = some index) (hnd : (pairs.map fun p => p.1.id).Nodup)
    {obj : MibObject} {sub : SubId} (hp : (obj, sub) ∈ pairs) : index obj.id = some (asI64 sub) := by
  induction pairs generalizing out with
  | nil => cases hp
  | cons p rest ih =>
    obtain ⟨obj', sub'⟩ := p
    simp only [decodeIndexFrom] at h
    split at h
    · simp only [List.map_cons, List.nodup_cons] at hnd
      rcases List.mem_cons.mp hp with he | hp
      · cases he
        rw [decodeIndexFrom_not_mem h hnd.1, PMap.insert_self]
      · exact ih h hnd.2 hp
    · cases h

/-- **Distinct suffixes decode to distinct index maps** when the index objects
have pairwise distinct ids: `as i64` loses no sub-identifier. -/
theorem decodeIndex_injective {s s' : Oid} {objs : List MibObject} {index : PMap String Int}
    (hnd : (objs.map MibObject.id).Nodup) (h : decodeIndex s objs = some index)
    (h' : decodeIndex s' objs = some index) : s = s' := by
  have hl := decodeIndex_length h
  have hl' := decodeIndex_length h'
  unfold decodeIndex at h h'
  rw [if_neg (by simpa using hl)] at h
  rw [if_neg (by simpa using hl')] at h'
  have hids : ∀ t : Oid, t.length = objs.length →
      ((objs.zip t).map fun p => p.1.id) = objs.map MibObject.id := by
    intro t ht
    rw [show (fun p : MibObject × SubId => p.1.id) = MibObject.id ∘ Prod.fst from rfl,
      ← List.map_map, List.map_fst_zip (by omega)]
  apply List.ext_getElem (by omega)
  intro i hi hi'
  have ho : i < objs.length := hl ▸ hi
  have hmem : (objs[i], s[i]) ∈ objs.zip s := by
    rw [List.mem_iff_getElem]
    exact ⟨i, by simp; omega, by simp⟩
  have hmem' : (objs[i], s'[i]) ∈ objs.zip s' := by
    rw [List.mem_iff_getElem]
    exact ⟨i, by simp; omega, by simp⟩
  have hv := decodeIndexFrom_mem h (by rw [hids s hl]; exact hnd) hmem
  have hv' := decodeIndexFrom_mem h' (by rw [hids s' hl']; exact hnd) hmem'
  rw [hv] at hv'
  exact asI64_injective (Option.some.inj hv')

end JaspyNexus.Snmp.Render
