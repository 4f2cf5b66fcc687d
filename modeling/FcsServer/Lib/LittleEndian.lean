import Mathlib.Data.Int.Notation
import Mathlib.Data.List.GetD
import Mathlib.Tactic

/-!
# Byte buffers and little-endian words

Growing and shrinking buffers, overwriting the front of a buffer, and 32-bit words
stored least significant byte first.  Nothing here is about a particular program.

* `resize` — a buffer cut or zero-extended to a given size, and its length;
* `overwrite` — a buffer whose front has been written over, of unchanged length;
* `word` / `wordBytes` — four bytes as a word and back, inverse to each other;
* `wordAt` / `putWord` — the same at an offset of a buffer;
* `wordAt_putWord`, `putWord_wordAt`, `putWord_comm`, `getElem?_putWord` — what was put is read
  back, putting back what was read changes nothing, disjoint places do not meet;
* `bitAt` — the bits of a buffer, and those of its bytes and words among them;
* `wordsOf` / `bytesOf` — buffers of whole words, inverse to each other.
-/

namespace LittleEndian

variable {α : Type*}

/-! ### Buffers -/

/-- The buffer cut to `n` elements, or extended with copies of `fill` up to `n`. -/
def resize (n : ℕ) (fill : α) (l : List α) : List α :=
  l.take n ++ List.replicate (n - l.length) fill

@[simp] theorem length_resize (n : ℕ) (fill : α) (l : List α) :
    (resize n fill l).length = n := by
  simp only [resize, List.length_append, List.length_take, List.length_replicate]
  omega

/-- Shrinking drops the tail and adds nothing. -/
theorem resize_of_le {n : ℕ} {l : List α} (fill : α) (h : n ≤ l.length) :
    resize n fill l = l.take n := by
  rw [resize, Nat.sub_eq_zero_of_le h, List.replicate_zero, List.append_nil]

theorem resize_nil (n : ℕ) (fill : α) : resize n fill [] = List.replicate n fill := by
  simp [resize]

/-- `bytes` written over the front of `l`; what does not fit is not written. -/
def overwrite (bytes l : List α) : List α :=
  bytes.take l.length ++ l.drop bytes.length

@[simp] theorem length_overwrite (bytes l : List α) : (overwrite bytes l).length = l.length := by
  simp only [overwrite, List.length_append, List.length_take, List.length_drop]
  omega

/-- What was written can be read back, whatever the buffer held before. -/
theorem take_overwrite {bytes l : List α} (h : bytes.length ≤ l.length) :
    (overwrite bytes l).take bytes.length = bytes := by
  rw [overwrite, List.take_of_length_le h, List.take_left]

/-! ### Words -/

/-- The word with the given bytes, least significant first. -/
def word (b₀ b₁ b₂ b₃ : UInt8) : UInt32 :=
  UInt32.ofNat (b₀.toNat + 2 ^ 8 * b₁.toNat + 2 ^ 16 * b₂.toNat + 2 ^ 24 * b₃.toNat)

theorem toNat_word (b₀ b₁ b₂ b₃ : UInt8) :
    (word b₀ b₁ b₂ b₃).toNat
      = b₀.toNat + 2 ^ 8 * b₁.toNat + 2 ^ 16 * b₂.toNat + 2 ^ 24 * b₃.toNat := by
  have h₀ := b₀.toNat_lt
  have h₁ := b₁.toNat_lt
  have h₂ := b₂.toNat_lt
  have h₃ := b₃.toNat_lt
  rw [word, UInt32.toNat_ofNat_of_lt']
  show _ < 2 ^ 32
  omega

/-- The four bytes of a word, least significant first. -/
def wordBytes (w : UInt32) : List UInt8 :=
  [w.toUInt8, (w >>> 8).toUInt8, (w >>> 16).toUInt8, (w >>> 24).toUInt8]

@[simp] theorem length_wordBytes (w : UInt32) : (wordBytes w).length = 4 := rfl

/-- Byte `k` of a word is its value divided by `256 ^ k`, modulo 256. -/
theorem toNat_byte (w k : UInt32) (hk : k.toNat < 32) :
    (w >>> k).toUInt8.toNat = w.toNat / 2 ^ k.toNat % 2 ^ 8 := by
  rw [UInt32.toNat_toUInt8, UInt32.toNat_shiftRight, Nat.mod_eq_of_lt hk,
    Nat.shiftRight_eq_div_pow]

/-- The four bytes of a word make up the word. -/
theorem word_bytes (w : UInt32) :
    word w.toUInt8 (w >>> 8).toUInt8 (w >>> 16).toUInt8 (w >>> 24).toUInt8 = w := by
  apply UInt32.toNat_inj.mp
  have hw := w.toNat_lt
  rw [toNat_word, toNat_byte w 8 (by decide), toNat_byte w 16 (by decide),
    toNat_byte w 24 (by decide), UInt32.toNat_toUInt8]
  show _ % 2 ^ 8 + 2 ^ 8 * (_ / 2 ^ 8 % 2 ^ 8) + 2 ^ 16 * (_ / 2 ^ 16 % 2 ^ 8)
    + 2 ^ 24 * (_ / 2 ^ 24 % 2 ^ 8) = _
  omega

/-- The lowest byte of a word made of four bytes. -/
theorem toUInt8_word (b₀ b₁ b₂ b₃ : UInt8) : (word b₀ b₁ b₂ b₃).toUInt8 = b₀ := by
  have h₀ := b₀.toNat_lt
  apply UInt8.toNat_inj.mp
  rw [UInt32.toNat_toUInt8, toNat_word]
  omega

/-- A word made of four bytes has these bytes. -/
theorem wordBytes_word (b₀ b₁ b₂ b₃ : UInt8) :
    wordBytes (word b₀ b₁ b₂ b₃) = [b₀, b₁, b₂, b₃] := by
  have h₀ := b₀.toNat_lt
  have h₁ := b₁.toNat_lt
  have h₂ := b₂.toNat_lt
  have h₃ := b₃.toNat_lt
  have byte : ∀ (k : UInt32) (hk : k.toNat < 32) (b : UInt8),
      (b₀.toNat + 2 ^ 8 * b₁.toNat + 2 ^ 16 * b₂.toNat + 2 ^ 24 * b₃.toNat) / 2 ^ k.toNat % 2 ^ 8
        = b.toNat → (word b₀ b₁ b₂ b₃ >>> k).toUInt8 = b := by
    intro k hk b h
    apply UInt8.toNat_inj.mp
    rw [toNat_byte _ k hk, toNat_word, h]
  rw [wordBytes, toUInt8_word, byte 8 (by decide) b₁, byte 16 (by decide) b₂,
    byte 24 (by decide) b₃]
  · show _ / 2 ^ 24 % 2 ^ 8 = _
    omega
  · show _ / 2 ^ 16 % 2 ^ 8 = _
    omega
  · show _ / 2 ^ 8 % 2 ^ 8 = _
    omega

/-! ### Words at an offset -/

/-- The word at offset `o` of a buffer; bytes past the end count as zero. -/
def wordAt (l : List UInt8) (o : ℕ) : UInt32 :=
  word (l.getD o 0) (l.getD (o + 1) 0) (l.getD (o + 2) 0) (l.getD (o + 3) 0)

/-- The lowest byte of a word is the first one. -/
theorem toUInt8_wordAt (l : List UInt8) (o : ℕ) : (wordAt l o).toUInt8 = l.getD o 0 :=
  toUInt8_word _ _ _ _

/-- Dropping a prefix moves the offset. -/
theorem wordAt_drop (l : List UInt8) (n o : ℕ) : wordAt (l.drop n) o = wordAt l (n + o) := by
  simp only [wordAt, List.getD_eq_getElem?_getD, List.getElem?_drop, Nat.add_assoc]

/-- Bytes in front move the offset. -/
theorem wordAt_append_length (pre l : List UInt8) :
    wordAt (pre ++ l) pre.length = wordAt l 0 := by
  have hdrop := wordAt_drop (pre ++ l) pre.length 0
  rw [List.drop_left, Nat.add_zero] at hdrop
  exact hdrop.symm

/-- The four bytes of a word inside the buffer. -/
theorem wordBytes_wordAt {l : List UInt8} {o : ℕ} (h : o + 4 ≤ l.length) :
    wordBytes (wordAt l o) = (l.drop o).take 4 := by
  have hlen : 4 ≤ (l.drop o).length := by
    rw [List.length_drop]
    omega
  have hword : wordAt l o = wordAt (l.drop o) 0 := by
    rw [wordAt_drop, Nat.add_zero]
  rw [hword]
  match l.drop o, hlen with
  | b₀ :: b₁ :: b₂ :: b₃ :: rest, _ => exact wordBytes_word b₀ b₁ b₂ b₃

/-- A buffer with the bytes of `w` at offset `o`. -/
def putWord (w : UInt32) (l : List UInt8) (o : ℕ) : List UInt8 :=
  l.take o ++ wordBytes w ++ l.drop (o + 4)

theorem length_putWord {w : UInt32} {l : List UInt8} {o : ℕ} (h : o + 4 ≤ l.length) :
    (putWord w l o).length = l.length := by
  simp only [putWord, List.length_append, List.length_take, length_wordBytes, List.length_drop]
  omega

/-- A buffer that starts with the bytes of `w` reads back `w`. -/
theorem wordAt_wordBytes_append (w : UInt32) (l : List UInt8) :
    wordAt (wordBytes w ++ l) 0 = w := by
  simpa [wordAt, wordBytes] using word_bytes w

/-- The bytes of the word stand at its offset, and every other byte is what it was. -/
theorem getElem?_putWord (w : UInt32) {l : List UInt8} {o : ℕ} (h : o + 4 ≤ l.length) (i : ℕ) :
    (putWord w l o)[i]? = if o ≤ i ∧ i < o + 4 then (wordBytes w)[i - o]? else l[i]? := by
  have hlen : (l.take o).length = o := List.length_take_of_le (by omega)
  rw [putWord, List.append_assoc]
  by_cases hlo : i < o
  · rw [List.getElem?_append_left (by omega), List.getElem?_take_of_lt hlo, if_neg (by omega)]
  · rw [List.getElem?_append_right (by omega), hlen]
    by_cases hhi : i < o + 4
    · rw [List.getElem?_append_left (by rw [length_wordBytes]; omega), if_pos (by omega)]
    · have hi : o + 4 + (i - o - 4) = i := by omega
      rw [List.getElem?_append_right (by rw [length_wordBytes]; omega), length_wordBytes,
        List.getElem?_drop, hi, if_neg (by omega)]

/-- A word that was put is read back. -/
theorem wordAt_putWord (w : UInt32) {l : List UInt8} {o : ℕ} (h : o + 4 ≤ l.length) :
    wordAt (putWord w l o) o = w := by
  have hlen : (l.take o).length = o := List.length_take_of_le (by omega)
  have hword := wordAt_append_length (l.take o) (wordBytes w ++ l.drop (o + 4))
  rw [hlen, ← List.append_assoc, wordAt_wordBytes_append] at hword
  exact hword

/-- Putting the word that is there changes nothing. -/
theorem putWord_wordAt {l : List UInt8} {o : ℕ} (h : o + 4 ≤ l.length) :
    putWord (wordAt l o) l o = l := by
  rw [putWord, wordBytes_wordAt h, List.append_assoc, ← List.drop_drop, List.take_append_drop,
    List.take_append_drop]

/-- Words at disjoint places can be put in either order. -/
theorem putWord_comm (w w' : UInt32) {l : List UInt8} {o o' : ℕ} (h : o + 4 ≤ l.length)
    (h' : o' + 4 ≤ l.length) (hdisjoint : o + 4 ≤ o' ∨ o' + 4 ≤ o) :
    putWord w' (putWord w l o) o' = putWord w (putWord w' l o') o := by
  apply List.ext_getElem?
  intro i
  rw [getElem?_putWord w' (by rwa [length_putWord h]), getElem?_putWord w h,
    getElem?_putWord w (by rwa [length_putWord h']), getElem?_putWord w' h']
  by_cases hi : o ≤ i ∧ i < o + 4
  · rw [if_pos hi, if_pos hi, if_neg (by omega)]
  · rw [if_neg hi, if_neg hi]

/-! ### Bits -/

/-- Bit `n` of a buffer: byte after byte, each from its least significant bit on. -/
def bitAt (l : List UInt8) (n : ℕ) : Bool := (l.getD (n / 8) 0).toNat.testBit (n % 8)

theorem bitAt_byte (l : List UInt8) (i : ℕ) {k : ℕ} (hk : k < 8) :
    bitAt l (8 * i + k) = (l.getD i 0).toNat.testBit k := by
  have hbyte : (8 * i + k) / 8 = i := by omega
  have hbit : (8 * i + k) % 8 = k := by omega
  rw [bitAt, hbyte, hbit]

/-- Past the end every bit is zero. -/
theorem bitAt_of_length_le {l : List UInt8} {n : ℕ} (h : 8 * l.length ≤ n) :
    bitAt l n = false := by
  rw [bitAt, List.getD_eq_default _ _ (by omega)]
  exact Nat.zero_testBit _

/-- Buffers that agree from byte `k` on have the same bits from there on. -/
theorem bitAt_congr_drop {l l' : List UInt8} {k n : ℕ} (h : l.drop k = l'.drop k)
    (hn : 8 * k ≤ n) : bitAt l n = bitAt l' n := by
  have hbyte : ∀ b : List UInt8, b.getD (n / 8) 0 = (b.drop k).getD (n / 8 - k) 0 := by
    intro b
    rw [List.getD_eq_getElem?_getD, List.getD_eq_getElem?_getD, List.getElem?_drop,
      Nat.add_sub_cancel' (by omega)]
  rw [bitAt, bitAt, hbyte l, hbyte l', h]

/-- Bytes with the same bits are the same. -/
theorem getD_congr_bits {l l' : List UInt8} {i : ℕ}
    (h : ∀ k < 8, bitAt l (8 * i + k) = bitAt l' (8 * i + k)) : l.getD i 0 = l'.getD i 0 := by
  apply UInt8.toNat_inj.mp
  apply Nat.eq_of_testBit_eq
  intro k
  by_cases hk : k < 8
  · rw [← bitAt_byte l i hk, ← bitAt_byte l' i hk, h k hk]
  · have hpow : 2 ^ 8 ≤ 2 ^ k := Nat.pow_le_pow_right (by decide) (Nat.le_of_not_lt hk)
    rw [Nat.testBit_lt_two_pow ((l.getD i 0).toNat_lt.trans_le hpow),
      Nat.testBit_lt_two_pow ((l'.getD i 0).toNat_lt.trans_le hpow)]

/-- A word is stored least significant bit first. -/
theorem testBit_wordAt (l : List UInt8) (o : ℕ) {k : ℕ} (hk : k < 32) :
    (wordAt l o).toNat.testBit k = bitAt l (8 * o + k) := by
  have h₀ := (l.getD o 0).toNat_lt
  have h₁ := (l.getD (o + 1) 0).toNat_lt
  have h₂ := (l.getD (o + 2) 0).toNat_lt
  have hbyte : (8 * o + k) / 8 = o + k / 8 := by omega
  have hbit : (8 * o + k) % 8 = k % 8 := by omega
  -- the sum, from the most significant byte on
  have hsum : (wordAt l o).toNat = 2 ^ 8 * (2 ^ 8 * (2 ^ 8 * (l.getD (o + 3) 0).toNat
      + (l.getD (o + 2) 0).toNat) + (l.getD (o + 1) 0).toNat) + (l.getD o 0).toNat := by
    rw [wordAt, toNat_word]
    omega
  rw [hsum, bitAt, hbyte, hbit, Nat.testBit_two_pow_mul_add _ h₀,
    Nat.testBit_two_pow_mul_add _ h₁, Nat.testBit_two_pow_mul_add _ h₂]
  split
  · rw [show k / 8 = 0 by omega, show k % 8 = k by omega, Nat.add_zero]
  · split
    · rw [show k / 8 = 1 by omega, show k % 8 = k - 8 by omega]
    · split
      · rw [show k / 8 = 2 by omega, show k % 8 = k - 8 - 8 by omega]
      · rw [show k / 8 = 3 by omega, show k % 8 = k - 8 - 8 - 8 by omega]

/-! ### Buffers of words -/

/-- The bytes of the words, one word after the other. -/
def bytesOf (ws : List UInt32) : List UInt8 := ws.flatMap wordBytes

/-- The words a buffer is made of; up to three bytes at its end are left out. -/
def wordsOf : List UInt8 → List UInt32
  | b₀ :: b₁ :: b₂ :: b₃ :: rest => word b₀ b₁ b₂ b₃ :: wordsOf rest
  | _ => []

@[simp] theorem bytesOf_cons (w : UInt32) (ws : List UInt32) :
    bytesOf (w :: ws) = wordBytes w ++ bytesOf ws := rfl

@[simp] theorem length_bytesOf (ws : List UInt32) : (bytesOf ws).length = 4 * ws.length := by
  induction ws with
  | nil => rfl
  | cons w ws ih =>
    rw [bytesOf_cons, List.length_append, length_wordBytes, ih, List.length_cons]
    omega

/-- Splitting the bytes of words gives back the words. -/
theorem wordsOf_bytesOf (ws : List UInt32) : wordsOf (bytesOf ws) = ws := by
  induction ws with
  | nil => rfl
  | cons w ws ih =>
    show word _ _ _ _ :: wordsOf (bytesOf ws) = w :: ws
    rw [word_bytes, ih]

/-- A buffer of whole words without a first word is empty. -/
theorem eq_nil_of_words {l : List UInt8} (h : l.length % 4 = 0)
    (hshort : ∀ b₀ b₁ b₂ b₃ rest, l = b₀ :: b₁ :: b₂ :: b₃ :: rest → False) : l = [] := by
  match l, h, hshort with
  | [], _, _ => rfl
  | b₀ :: b₁ :: b₂ :: b₃ :: rest, _, hshort => exact absurd rfl (hshort b₀ b₁ b₂ b₃ rest)

/-- A buffer of whole words is made of the bytes of its words. -/
theorem bytesOf_wordsOf (l : List UInt8) (h : l.length % 4 = 0) : bytesOf (wordsOf l) = l := by
  induction l using wordsOf.induct with
  | case1 b₀ b₁ b₂ b₃ rest ih =>
    have hrest : rest.length % 4 = 0 := by
      simp only [List.length_cons] at h
      omega
    rw [wordsOf, bytesOf_cons, wordBytes_word, ih hrest]
    rfl
  | case2 l hshort =>
    rw [eq_nil_of_words h hshort]
    rfl

theorem length_wordsOf (l : List UInt8) (h : l.length % 4 = 0) :
    4 * (wordsOf l).length = l.length := by
  rw [← length_bytesOf, bytesOf_wordsOf l h]

end LittleEndian
