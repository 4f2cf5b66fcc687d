import FcsServer.Lib.BitFields
import FcsServer.Utils

/-!
# `CommandHeader`: the header word of requests and responses

The decoder takes the fields off the low end of the word one after the other; the encoder
shifts them into an accumulator in the opposite order.  Both are the source's own sequences.

* `fromUint32_fields` — each decoded field is a bit range of the word;
* `toUint32_fields` — each bit range of the encoded word is the field cut to its width;
* `fromUint32_toUint32` — encoding and decoding again cuts the fields and nothing else;
* `parse_eq` / `encode_eq` — the codec on a buffer that holds a header;
* `codec_bijective` — buffers and reduced headers correspond one to one.
-/

namespace FcsServer

open LittleEndian BitFields Utils

structure CommandHeader where
  client : UInt8 := 0
  id : UInt8 := 0
  res1 : UInt8 := 0
  length : UInt16 := 0
  res2 : UInt8 := 0
  code : UInt16 := 0
  deriving DecidableEq, Repr

namespace CommandHeader

/-- `sizeof(uint32_t)`. -/
def getRequiredSize : ℕ := 4

@[simp] theorem getRequiredSize_eq : getRequiredSize = 4 := rfl

/-- The lowest bits of `source`, and `source` without them. -/
def readBits (source : UInt32) (numberOfBits : UInt8) : UInt32 × UInt32 :=
  (source &&& mask numberOfBits.toUInt32, source >>> numberOfBits.toUInt32)

def writeBits (destination source : UInt32) (numberOfBits : UInt8) : UInt32 :=
  destination <<< numberOfBits.toUInt32 ||| source &&& mask numberOfBits.toUInt32

def fromUint32 (input : UInt32) : CommandHeader :=
  let (code, input) := readBits input 11
  let (res2, input) := readBits input 1
  let (length, input) := readBits input 11
  let (res1, input) := readBits input 1
  let (id, input) := readBits input 4
  let (client, _) := readBits input 4
  { client := client.toUInt8, id := id.toUInt8, res1 := res1.toUInt8, length := length.toUInt16,
    res2 := res2.toUInt8, code := code.toUInt16 }

def toUint32 (h : CommandHeader) : UInt32 :=
  let output := writeBits 0 h.client.toUInt32 4
  let output := writeBits output h.id.toUInt32 4
  let output := writeBits output h.res1.toUInt32 1
  let output := writeBits output h.length.toUInt32 11
  let output := writeBits output h.res2.toUInt32 1
  writeBits output h.code.toUInt32 11

/-- The previous field values do not matter: `fromUint32` assigns every one of them. -/
def parse (buffer : List UInt8) : Except Fault CommandHeader := do
  let header ← decodeFromLittleEndianBuffer buffer 0
  return fromUint32 header

def encode (h : CommandHeader) (buffer : List UInt8) : Except Fault (List UInt8) :=
  encodeToLittleEndianBuffer h.toUint32 buffer 0

/-! ### The layout of the word -/

/-- The header whose fields are the bit ranges of the word `w`. -/
structure FieldsOf (h : CommandHeader) (w : UInt32) : Prop where
  code : h.code.toNat = field w 0 11
  res2 : h.res2.toNat = field w 11 1
  length : h.length.toNat = field w 12 11
  res1 : h.res1.toNat = field w 23 1
  id : h.id.toNat = field w 24 4
  client : h.client.toNat = field w 28 4

/-- A word has one header. -/
theorem FieldsOf.unique {h h' : CommandHeader} {w : UInt32} (hw : FieldsOf h w)
    (hw' : FieldsOf h' w) : h = h' := by
  have hclient := UInt8.toNat_inj.mp (hw.client.trans hw'.client.symm)
  have hid := UInt8.toNat_inj.mp (hw.id.trans hw'.id.symm)
  have hres1 := UInt8.toNat_inj.mp (hw.res1.trans hw'.res1.symm)
  have hlength := UInt16.toNat_inj.mp (hw.length.trans hw'.length.symm)
  have hres2 := UInt8.toNat_inj.mp (hw.res2.trans hw'.res2.symm)
  have hcode := UInt16.toNat_inj.mp (hw.code.trans hw'.code.symm)
  cases h
  cases h'
  simp_all only

/-! ### Decoding -/

/-- Taking `k` bits off a word that starts at bit `i` of `w` reads a field of `w` and leaves
the word that starts at bit `i + k`. -/
theorem readBits_spec {s w : UInt32} {n : UInt8} {k i : ℕ} (hn : n.toUInt32.toNat = k)
    (hk : k < 32) (hs : s.toNat = w.toNat / 2 ^ i) :
    (readBits s n).1.toNat = field w i k ∧ (readBits s n).2.toNat = w.toNat / 2 ^ (i + k) := by
  subst hn
  refine ⟨?_, ?_⟩
  · rw [readBits, toNat_and_mask s hk, hs, field]
  · rw [readBits, toNat_shiftRight s hk, hs, Nat.div_div_eq_div_mul, Nat.pow_add]

theorem fromUint32_fields (w : UInt32) : FieldsOf (fromUint32 w) w := by
  obtain ⟨hcode, r₁⟩ := readBits_spec (s := w) (w := w) (n := 11) (k := 11) (i := 0) rfl
    (by decide) (by rw [Nat.pow_zero, Nat.div_one])
  obtain ⟨hres2, r₂⟩ := readBits_spec (n := 1) (k := 1) rfl (by decide) r₁
  obtain ⟨hlength, r₃⟩ := readBits_spec (n := 11) (k := 11) rfl (by decide) r₂
  obtain ⟨hres1, r₄⟩ := readBits_spec (n := 1) (k := 1) rfl (by decide) r₃
  obtain ⟨hid, r₅⟩ := readBits_spec (n := 4) (k := 4) rfl (by decide) r₄
  obtain ⟨hclient, -⟩ := readBits_spec (n := 4) (k := 4) rfl (by decide) r₅
  have narrow8 : ∀ {v : UInt32} {lo k : ℕ}, k ≤ 8 → v.toNat = field w lo k →
      v.toUInt8.toNat = field w lo k := by
    intro v lo k hk hv
    rw [UInt32.toNat_toUInt8, hv]
    exact Nat.mod_eq_of_lt ((field_lt w lo k).trans_le (Nat.pow_le_pow_right (by decide) hk))
  have narrow16 : ∀ {v : UInt32} {lo k : ℕ}, k ≤ 16 → v.toNat = field w lo k →
      v.toUInt16.toNat = field w lo k := by
    intro v lo k hk hv
    rw [UInt32.toNat_toUInt16, hv]
    exact Nat.mod_eq_of_lt ((field_lt w lo k).trans_le (Nat.pow_le_pow_right (by decide) hk))
  exact
    { code := narrow16 (by decide) hcode
      res2 := narrow8 (by decide) hres2
      length := narrow16 (by decide) hlength
      res1 := narrow8 (by decide) hres1
      id := narrow8 (by decide) hid
      client := narrow8 (by decide) hclient }

/-! ### Encoding -/

/-- The header with each field cut to the width it has on the wire. -/
def reduced (h : CommandHeader) : CommandHeader :=
  { client := h.client % 16, id := h.id % 16, res1 := h.res1 % 2, length := h.length % 2048,
    res2 := h.res2 % 2, code := h.code % 2048 }

/-- Appending a field to an accumulator of `b` bits gives one of `b + k` bits. -/
theorem writeBits_spec {d : UInt32} (s : UInt32) {n : UInt8} {k b : ℕ}
    (hn : n.toUInt32.toNat = k) (hk : k < 32) (hd : d.toNat < 2 ^ b) (hb : b + k ≤ 32) :
    (writeBits d s n).toNat = d.toNat * 2 ^ k + s.toNat % 2 ^ k ∧
      (writeBits d s n).toNat < 2 ^ (b + k) := by
  subst hn
  have hroom : d.toNat * 2 ^ n.toUInt32.toNat + 2 ^ n.toUInt32.toNat
      ≤ 2 ^ (b + n.toUInt32.toNat) := by
    rw [Nat.pow_add, ← Nat.succ_mul]
    exact Nat.mul_le_mul_right _ hd
  have htop : 2 ^ (b + n.toUInt32.toNat) ≤ 2 ^ 32 := Nat.pow_le_pow_right (by decide) hb
  have hpos : 0 < 2 ^ n.toUInt32.toNat := Nat.two_pow_pos _
  have hvalue := toNat_shift_or_mask (d := d) s hk (by omega)
  have hlow : s.toNat % 2 ^ n.toUInt32.toNat < 2 ^ n.toUInt32.toNat := Nat.mod_lt _ hpos
  exact ⟨hvalue, by rw [writeBits, hvalue]; omega⟩

/-- **The encoded word.**  The accumulator never loses a bit: the six widths add up to 32. -/
theorem toNat_toUint32 (h : CommandHeader) :
    h.toUint32.toNat = h.client.toNat % 2 ^ 4 * 2 ^ 28 + h.id.toNat % 2 ^ 4 * 2 ^ 24
      + h.res1.toNat % 2 ^ 1 * 2 ^ 23 + h.length.toNat % 2 ^ 11 * 2 ^ 12
      + h.res2.toNat % 2 ^ 1 * 2 ^ 11 + h.code.toNat % 2 ^ 11 := by
  obtain ⟨h₁, b₁⟩ := writeBits_spec (d := 0) (n := 4) (k := 4) (b := 0) h.client.toUInt32 rfl
    (by decide) (by decide) (by decide)
  obtain ⟨h₂, b₂⟩ := writeBits_spec (n := 4) (k := 4) h.id.toUInt32 rfl (by decide) b₁ (by decide)
  obtain ⟨h₃, b₃⟩ := writeBits_spec (n := 1) (k := 1) h.res1.toUInt32 rfl (by decide) b₂ (by decide)
  obtain ⟨h₄, b₄⟩ := writeBits_spec (n := 11) (k := 11) h.length.toUInt32 rfl (by decide) b₃
    (by decide)
  obtain ⟨h₅, b₅⟩ := writeBits_spec (n := 1) (k := 1) h.res2.toUInt32 rfl (by decide) b₄ (by decide)
  obtain ⟨h₆, -⟩ := writeBits_spec (n := 11) (k := 11) h.code.toUInt32 rfl (by decide) b₅
    (by decide)
  rw [toUint32, h₆, h₅, h₄, h₃, h₂, h₁]
  simp only [UInt8.toNat_toUInt32, UInt16.toNat_toUInt32, UInt32.toNat_zero]
  omega

theorem toUint32_fields (h : CommandHeader) : FieldsOf h.reduced h.toUint32 := by
  have hw := toNat_toUint32 h
  constructor <;> simp only [reduced, field, UInt8.toNat_mod, UInt16.toNat_mod, hw,
    UInt8.reduceToNat, UInt16.reduceToNat] <;> omega

/-- **Encoding and decoding again** cuts each field to its width and changes nothing else. -/
theorem fromUint32_toUint32 (h : CommandHeader) : fromUint32 h.toUint32 = h.reduced :=
  (fromUint32_fields h.toUint32).unique (toUint32_fields h)

/-- **Decoding and encoding again** gives back the word: the six fields cover its 32 bits. -/
theorem toUint32_fromUint32 (w : UInt32) : (fromUint32 w).toUint32 = w := by
  have hfields := fromUint32_fields w
  have h₁ : field w 0 12 = field w 11 1 * 2 ^ 11 + field w 0 11 := field_append w 0 11 1
  have h₂ : field w 0 23 = field w 12 11 * 2 ^ 12 + field w 0 12 := field_append w 0 12 11
  have h₃ : field w 0 24 = field w 23 1 * 2 ^ 23 + field w 0 23 := field_append w 0 23 1
  have h₄ : field w 0 28 = field w 24 4 * 2 ^ 24 + field w 0 24 := field_append w 0 24 4
  have h₅ : field w 0 32 = field w 28 4 * 2 ^ 28 + field w 0 28 := field_append w 0 28 4
  apply UInt32.toNat_inj.mp
  rw [toNat_toUint32, hfields.client, hfields.id, hfields.res1, hfields.length, hfields.res2,
    hfields.code, field_mod, field_mod, field_mod, field_mod, field_mod, field_mod,
    ← field_all w]
  omega

/-- The bits that do not fit are not encoded. -/
theorem toUint32_reduced (h : CommandHeader) : h.reduced.toUint32 = h.toUint32 := by
  rw [← fromUint32_toUint32, toUint32_fromUint32]

/-! ### The codec on buffers -/

theorem parse_eq {buffer : List UInt8} (h : getRequiredSize ≤ buffer.length) :
    parse buffer = .ok (fromUint32 (wordAt buffer 0)) := by
  rw [parse, decodeFromLittleEndianBuffer_eq (o := 0) rfl (by rw [Nat.zero_add]; exact h)
    (by decide), ok_bind]
  rfl

theorem encode_eq (h : CommandHeader) {buffer : List UInt8}
    (hb : getRequiredSize ≤ buffer.length) :
    h.encode buffer = .ok (wordBytes h.toUint32 ++ buffer.drop getRequiredSize) := by
  rw [encode, encodeToLittleEndianBuffer_eq (o := 0) _ rfl (by rw [Nat.zero_add]; exact hb)
    (by decide), putWord, List.take_zero, List.nil_append]
  rfl

/-- **The header codec is a bijection on the wire format.**  A decoded buffer is encoded back
into itself; an encoded header is decoded to its reduced fields, and only the first four bytes
of the buffer change; the word of a header is that of its reduced fields and of no others. -/
theorem codec_bijective :
    (∀ b : List UInt8, getRequiredSize ≤ b.length →
      ∃ h, parse b = .ok h ∧ h.encode b = .ok b) ∧
    (∀ (h : CommandHeader) (b : List UInt8), getRequiredSize ≤ b.length →
      ∃ b', h.encode b = .ok b' ∧ parse b' = .ok h.reduced ∧ b'.length = b.length ∧
        b'.drop getRequiredSize = b.drop getRequiredSize) ∧
    ∀ h h' : CommandHeader, h.toUint32 = h'.toUint32 ↔ h.reduced = h'.reduced := by
  refine ⟨?_, ?_, ?_⟩
  · intro b hb
    refine ⟨fromUint32 (wordAt b 0), parse_eq hb, ?_⟩
    rw [encode_eq _ hb, toUint32_fromUint32, wordBytes_wordAt (by rw [Nat.zero_add]; exact hb),
      List.drop_zero, getRequiredSize_eq, List.take_append_drop]
  · intro h b hb
    have hencode := encode_eq h hb
    have hlength : (wordBytes h.toUint32 ++ b.drop getRequiredSize).length = b.length := by
      rw [getRequiredSize_eq] at hb ⊢
      rw [List.length_append, length_wordBytes, List.length_drop]
      omega
    refine ⟨_, hencode, ?_, hlength, ?_⟩
    · rw [parse_eq (by rw [hlength]; exact hb), wordAt_wordBytes_append, fromUint32_toUint32]
    · exact List.drop_left' (length_wordBytes _)
  · intro h h'
    constructor
    · intro hword
      rw [← fromUint32_toUint32, hword, fromUint32_toUint32]
    · intro hreduced
      rw [← toUint32_reduced, hreduced, toUint32_reduced]

end CommandHeader

end FcsServer
