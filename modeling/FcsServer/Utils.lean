import FcsServer.Lib.LittleEndian

/-!
# `utils.h`: words in byte vectors

The accessors of `Utils` as the header computes them: the guard adds in `size_t`, the bytes
are promoted to `int` before they are shifted and added, and a vector is indexed without a
check.  What C++ leaves undefined is a fault of its own, next to the exceptions.

* `wordBufferFromByteBuffer`, `byteBufferFromWordBuffer` and the two on word pointers — the
  conversions, loop by loop;
* `sum_bytes` — no `int` addition overflows, byte 3 at or above `0x80` included;
* `decode_of_passes`, `encode_of_passes` — past the guard, a call succeeds exactly when its four
  indices are inside the buffer, wrapped around or not;
* `decodeFromLittleEndianBuffer_eq`, `encodeToLittleEndianBuffer_eq` — a word that lies inside the
  buffer is read, or written over its four bytes, and nothing else changes.
-/

namespace FcsServer

open LittleEndian

/-- What can stop a function of the filter: an exception of the standard library, or a step
whose behaviour C++ does not define. -/
inductive Fault where
  | invalidArgument (what : String)
  | logicError (what : String)
  | indexOutOfBounds
  | iteratorPastEnd
  | signedOverflow
  | stackExhausted
  deriving DecidableEq, Repr

/-- A step that succeeded hands its value to the next one.  Not a `rfl` lemma for `simp`: the
kernel would unfold the steps that follow to compare them. -/
@[simp] theorem ok_bind {ε : Type*} {α β : Type} (a : α) (f : α → Except ε β) :
    (Except.ok a >>= f) = f a := (rfl)

namespace Utils

/-- `sizeof(uint32_t)`. -/
def wordSize : UInt64 := 4

@[simp] theorem toNat_wordSize : wordSize.toNat = 4 := rfl

/-- `buffer[i]` read: undefined past the end. -/
def readAt (buffer : List UInt8) (i : UInt64) : Except Fault UInt8 :=
  match buffer[i.toNat]? with
  | some b => .ok b
  | none => .error .indexOutOfBounds

/-- `buffer[i] = b`: undefined past the end. -/
def writeAt (buffer : List UInt8) (i : UInt64) (b : UInt8) : Except Fault (List UInt8) :=
  if i.toNat < buffer.length then .ok (buffer.set i.toNat b) else .error .indexOutOfBounds

/-- `b << n` on a byte promoted to `int`: the bits that leave the word are lost and bit 31
is the sign. -/
def shiftLeftInt (b : UInt8) (n : ℕ) : ℤ :=
  Int.bmod (b.toNat * 2 ^ n) (2 ^ 32)

/-- Addition of two `int`s, which must not overflow. -/
def addInt (x y : ℤ) : Except Fault ℤ :=
  if -2 ^ 31 ≤ x + y ∧ x + y < 2 ^ 31 then .ok (x + y) else .error .signedOverflow

/-- `static_cast<uint32_t>` of an `int`. -/
def toUInt32 (x : ℤ) : UInt32 := UInt32.ofNat (x % 2 ^ 32).toNat

def decodeFromLittleEndianBuffer (buffer : List UInt8) (offset : UInt64) :
    Except Fault UInt32 :=
  if buffer.length < (offset + wordSize).toNat then
    .error (.invalidArgument "decodeFromLittleEndianBuffer: buffer too small")
  else do
    let b₃ ← readAt buffer (3 + offset)
    let b₂ ← readAt buffer (2 + offset)
    let b₁ ← readAt buffer (1 + offset)
    let b₀ ← readAt buffer (0 + offset)
    let x ← addInt (shiftLeftInt b₃ 24) (shiftLeftInt b₂ 16)
    let y ← addInt x (shiftLeftInt b₁ 8)
    let z ← addInt y b₀.toNat
    return toUInt32 z

def encodeToLittleEndianBuffer (uintValue : UInt32) (buffer : List UInt8) (offset : UInt64) :
    Except Fault (List UInt8) :=
  if buffer.length < (offset + wordSize).toNat then
    .error (.invalidArgument "encodeToLittleEndianBuffer: buffer too small")
  else do
    let buffer ← writeAt buffer (3 + offset) (uintValue >>> 24).toUInt8
    let buffer ← writeAt buffer (2 + offset) (uintValue >>> 16).toUInt8
    let buffer ← writeAt buffer (1 + offset) (uintValue >>> 8).toUInt8
    writeAt buffer (0 + offset) uintValue.toUInt8

/-! ### Buffers of words

A loop over a vector runs over its indices, which stay far below `2 ^ 64`
(`ByteVector`, `WordVector`); the offsets handed to the accessors are `size_t`. -/

/-- A `std::vector<uint8_t>`: its size is at most `PTRDIFF_MAX`. -/
structure ByteVector where
  bytes : List UInt8
  size_lt : bytes.length < 2 ^ 63

/-- A `std::vector<uint32_t>`: its size in bytes is at most `PTRDIFF_MAX`. -/
structure WordVector where
  words : List UInt32
  size_lt : 4 * words.length < 2 ^ 63

/-- The loop of `wordBufferFromByteBuffer` from index `i` on. -/
def wordBufferLoop (input : List UInt8) (i : ℕ) (output : List UInt32) :
    Except Fault (List UInt32) :=
  if i < input.length then do
    let word ← decodeFromLittleEndianBuffer input (UInt64.ofNat i)
    wordBufferLoop input (i + 4) (output ++ [word])
  else
    return output
  termination_by input.length - i

def wordBufferFromByteBuffer (input : List UInt8) : Except Fault (List UInt32) :=
  if input.length % wordSize.toNat ≠ 0 then
    .error (.invalidArgument "wordBufferFromByteBuffer: input buffer size not multiple of 4")
  else
    wordBufferLoop input 0 []

/-- The loop of `byteBufferFromWordBuffer`: the words from index `i` on. -/
def byteBufferLoop : List UInt32 → (i : ℕ) → (output : List UInt8) → Except Fault (List UInt8)
  | [], _, output => .ok output
  | word :: rest, i, output => do
    let output ← encodeToLittleEndianBuffer word output (UInt64.ofNat i * wordSize)
    byteBufferLoop rest (i + 1) output

/-- The output vector after the call. -/
def byteBufferFromWordBuffer (input : List UInt32) (output : List UInt8) :
    Except Fault (List UInt8) :=
  byteBufferLoop input 0 (resize (UInt64.ofNat input.length * wordSize).toNat 0 output)

/-- `input` is the memory behind the pointer; reading past its end is undefined. -/
def byteBufferFromWordPointer (input : List UInt32) (inputSize : UInt64) :
    Except Fault (List UInt8) :=
  if inputSize.toNat ≤ input.length then
    byteBufferFromWordBuffer (input.take inputSize.toNat) []
  else
    .error .iteratorPastEnd

/-- An array of words and the variable that holds its capacity. -/
structure WordOutput where
  words : List UInt32
  outputSize : UInt64
  deriving DecidableEq, Repr

/-- How the call ends, and the array and `outputSize` after it, also when it throws. -/
def writeToWordPointerFromByteBuffer (input : List UInt8) (output : WordOutput) :
    Except Fault Unit × WordOutput :=
  match wordBufferFromByteBuffer input with
  | .error fault => (.error fault, output)
  | .ok wordBuffer =>
    if output.outputSize.toNat < wordBuffer.length then
      (.error (.invalidArgument "writeToWordPointerFromByteBuffer: output size too small"), output)
    else if wordBuffer.length ≤ output.words.length then
      (.ok (), ⟨overwrite wordBuffer output.words, UInt64.ofNat wordBuffer.length⟩)
    else
      (.error .indexOutOfBounds, output)

/-! ### Index arithmetic that does not wrap -/

/-- The guard of the accessors adds without wrapping around below `2 ^ 64`. -/
theorem toNat_add_wordSize {offset : UInt64} (h : offset.toNat + 4 < 2 ^ 64) :
    (offset + wordSize).toNat = offset.toNat + 4 := by
  rw [UInt64.toNat_add, toNat_wordSize, Nat.mod_eq_of_lt h]

/-- The indices do not wrap around unless the sum of the guard does. -/
theorem toNat_indices {offset : UInt64} (h : offset.toNat + 4 < 2 ^ 64) :
    (3 + offset).toNat = offset.toNat + 3 ∧ (2 + offset).toNat = offset.toNat + 2 ∧
      (1 + offset).toNat = offset.toNat + 1 ∧ (0 + offset).toNat = offset.toNat := by
  have hindex : ∀ k : UInt64, k.toNat < 4 → (k + offset).toNat = offset.toNat + k.toNat := by
    intro k hk
    rw [UInt64.toNat_add, Nat.add_comm, Nat.mod_eq_of_lt (by omega)]
  exact ⟨hindex 3 (by decide), hindex 2 (by decide), hindex 1 (by decide), hindex 0 (by decide)⟩

/-! ### The sum of the four bytes -/

/-- The signed reading of a 32-bit value. -/
theorem bmod_natCast {v : ℕ} (h : v < 2 ^ 32) :
    Int.bmod v (2 ^ 32) = if v < 2 ^ 31 then (v : ℤ) else v - 2 ^ 32 := by
  rw [Int.bmod_def]
  norm_num at h ⊢
  split <;> split <;> omega

theorem shiftLeftInt_eq (b : UInt8) {n : ℕ} (hn : n ≤ 24) :
    shiftLeftInt b n = if b.toNat * 2 ^ n < 2 ^ 31 then ((b.toNat * 2 ^ n : ℕ) : ℤ)
      else ((b.toNat * 2 ^ n : ℕ) : ℤ) - 2 ^ 32 := by
  have hp : 2 ^ n ≤ 2 ^ 24 := Nat.pow_le_pow_right (by decide) hn
  have hlt : b.toNat * 2 ^ n < 2 ^ 8 * 2 ^ 24 :=
    Nat.mul_lt_mul_of_lt_of_le b.toNat_lt hp (by decide)
  have hcast : ((b.toNat : ℤ) * 2 ^ n) = ((b.toNat * 2 ^ n : ℕ) : ℤ) := by
    rw [Nat.cast_mul, Nat.cast_pow, Nat.cast_ofNat]
  exact (congrArg (Int.bmod · (2 ^ 32)) hcast).trans (bmod_natCast (by omega))

/-- Only the top byte can reach the sign bit. -/
theorem shiftLeftInt_of_le (b : UInt8) {n : ℕ} (hn : n ≤ 16) :
    shiftLeftInt b n = (b.toNat * 2 ^ n : ℕ) := by
  have hp : 2 ^ n ≤ 2 ^ 16 := Nat.pow_le_pow_right (by decide) hn
  have hlt : b.toNat * 2 ^ n < 2 ^ 8 * 2 ^ 16 :=
    Nat.mul_lt_mul_of_lt_of_le b.toNat_lt hp (by decide)
  rw [shiftLeftInt_eq b (by omega), if_pos (by omega)]

theorem addInt_eq {x y : ℤ} (hlo : -2 ^ 31 ≤ x + y) (hhi : x + y < 2 ^ 31) :
    addInt x y = .ok (x + y) := if_pos ⟨hlo, hhi⟩

/-- **No overflow and the right value.**  The three `int` additions stay in range and the
cast of their result is the word made of the four bytes. -/
theorem sum_bytes (b₀ b₁ b₂ b₃ : UInt8) :
    (do
      let x ← addInt (shiftLeftInt b₃ 24) (shiftLeftInt b₂ 16)
      let y ← addInt x (shiftLeftInt b₁ 8)
      let z ← addInt y b₀.toNat
      return toUInt32 z) = .ok (word b₀ b₁ b₂ b₃) := by
  have h₀ := b₀.toNat_lt
  have h₁ := b₁.toNat_lt
  have h₂ := b₂.toNat_lt
  have h₃ := b₃.toNat_lt
  have htop := shiftLeftInt_eq b₃ (n := 24) le_rfl
  have hrange : -2 ^ 31 ≤ shiftLeftInt b₃ 24 ∧ shiftLeftInt b₃ 24 ≤ 2 ^ 31 - 2 ^ 24 := by
    rw [htop]
    split <;> omega
  have hvalue : shiftLeftInt b₃ 24 % 2 ^ 32 = b₃.toNat * 2 ^ 24 := by
    rw [htop]
    split <;> omega
  rw [shiftLeftInt_of_le b₂ (n := 16) le_rfl, shiftLeftInt_of_le b₁ (n := 8) (by decide)]
  generalize shiftLeftInt b₃ 24 = top at hrange hvalue
  rw [addInt_eq (by omega) (by omega), ok_bind, addInt_eq (by omega) (by omega), ok_bind,
    addInt_eq (by omega) (by omega), ok_bind]
  have hword : (top + (b₂.toNat * 2 ^ 16 : ℕ) + (b₁.toNat * 2 ^ 8 : ℕ) + b₀.toNat) % 2 ^ 32
      = (b₀.toNat + 2 ^ 8 * b₁.toNat + 2 ^ 16 * b₂.toNat + 2 ^ 24 * b₃.toNat : ℕ) := by
    push_cast
    omega
  rw [toUInt32, hword, Int.toNat_natCast, ← word]
  rfl

/-! ### The accessors at any offset -/

variable {buffer : List UInt8} {offset : UInt64}

/-- The guard of both accessors lets the call through. -/
def PassesGuard (buffer : List UInt8) (offset : UInt64) : Prop :=
  ¬ buffer.length < (offset + wordSize).toNat

instance (buffer : List UInt8) (offset : UInt64) : Decidable (PassesGuard buffer offset) :=
  inferInstanceAs (Decidable (¬ _))

/-- The indices of the four accesses, in the order in which they are made. -/
def indices (offset : UInt64) : List UInt64 := [3 + offset, 2 + offset, 1 + offset, 0 + offset]

/-- All four accesses are to elements of the buffer. -/
def Inside (buffer : List UInt8) (offset : UInt64) : Prop :=
  ∀ i ∈ indices offset, i.toNat < buffer.length

instance (buffer : List UInt8) (offset : UInt64) : Decidable (Inside buffer offset) :=
  inferInstanceAs (Decidable (∀ i ∈ indices offset, i.toNat < buffer.length))

theorem inside_iff : Inside buffer offset ↔ (3 + offset).toNat < buffer.length ∧
    (2 + offset).toNat < buffer.length ∧ (1 + offset).toNat < buffer.length ∧
      (0 + offset).toNat < buffer.length := by
  simp [Inside, indices]

theorem readAt_bind {α : Type} (i : UInt64) (f : UInt8 → Except Fault α) :
    (readAt buffer i >>= f) = if i.toNat < buffer.length then f (buffer.getD i.toNat 0)
      else .error .indexOutOfBounds := by
  rw [readAt]
  split
  · rename_i b hb
    obtain ⟨hi, hget⟩ := List.getElem?_eq_some_iff.mp hb
    rw [ok_bind, if_pos hi, List.getD_eq_getElem _ _ hi, hget]
  · rename_i hnone
    rw [if_neg (Nat.not_lt_of_le (List.getElem?_eq_none_iff.mp hnone))]
    rfl

theorem writeAt_bind {α : Type} (i : UInt64) (b : UInt8) (f : List UInt8 → Except Fault α) :
    (writeAt buffer i b >>= f) = if i.toNat < buffer.length then f (buffer.set i.toNat b)
      else .error .indexOutOfBounds := by
  rw [writeAt]
  split
  · rw [ok_bind]
  · rfl

/-- Past the guard, the four bytes are read if they are there. -/
theorem decode_of_passes (h : PassesGuard buffer offset) :
    decodeFromLittleEndianBuffer buffer offset = if Inside buffer offset then
      .ok (word (buffer.getD (0 + offset).toNat 0) (buffer.getD (1 + offset).toNat 0)
        (buffer.getD (2 + offset).toNat 0) (buffer.getD (3 + offset).toNat 0))
      else .error .indexOutOfBounds := by
  rw [decodeFromLittleEndianBuffer, if_neg h]
  simp only [readAt_bind, sum_bytes, inside_iff, ite_and]

/-- Past the guard, the four bytes are written if they are there. -/
theorem encode_of_passes (v : UInt32) (h : PassesGuard buffer offset) :
    encodeToLittleEndianBuffer v buffer offset = if Inside buffer offset then
      .ok ((((buffer.set (3 + offset).toNat (v >>> 24).toUInt8).set (2 + offset).toNat
        (v >>> 16).toUInt8).set (1 + offset).toNat (v >>> 8).toUInt8).set (0 + offset).toNat
          v.toUInt8)
      else .error .indexOutOfBounds := by
  rw [encodeToLittleEndianBuffer, if_neg h]
  simp only [writeAt_bind, List.length_set, inside_iff, ite_and]
  simp only [writeAt, List.length_set]

theorem decode_of_throws (h : ¬ PassesGuard buffer offset) :
    decodeFromLittleEndianBuffer buffer offset
      = .error (.invalidArgument "decodeFromLittleEndianBuffer: buffer too small") := by
  rw [decodeFromLittleEndianBuffer, if_pos (not_not.mp h)]

theorem encode_of_throws (v : UInt32) (h : ¬ PassesGuard buffer offset) :
    encodeToLittleEndianBuffer v buffer offset
      = .error (.invalidArgument "encodeToLittleEndianBuffer: buffer too small") := by
  rw [encodeToLittleEndianBuffer, if_pos (not_not.mp h)]

/-! ### The accessors on a word that lies inside the buffer -/

theorem passesGuard_of_fits (h : offset.toNat + 4 ≤ buffer.length)
    (hb : offset.toNat + 4 < 2 ^ 64) : PassesGuard buffer offset := by
  rw [PassesGuard, toNat_add_wordSize hb]
  omega

/-- None of the indices wraps around. -/
theorem inside_of_fits (h : offset.toNat + 4 ≤ buffer.length) (hb : offset.toNat + 4 < 2 ^ 64) :
    Inside buffer offset := by
  obtain ⟨h₃, h₂, h₁, h₀⟩ := toNat_indices hb
  rw [inside_iff, h₃, h₂, h₁, h₀]
  omega

theorem decodeFromLittleEndianBuffer_eq {o : ℕ} (ho : offset.toNat = o)
    (h : o + 4 ≤ buffer.length) (hb : o + 4 < 2 ^ 64) :
    decodeFromLittleEndianBuffer buffer offset = .ok (wordAt buffer o) := by
  subst ho
  obtain ⟨h₃, h₂, h₁, h₀⟩ := toNat_indices hb
  rw [decode_of_passes (passesGuard_of_fits h hb), if_pos (inside_of_fits h hb), h₃, h₂, h₁, h₀]
  rfl

/-- Writing the four bytes from the last to the first is writing them as one block. -/
theorem set_bytes (l : List UInt8) (w : UInt32) (o : ℕ) (h : o + 4 ≤ l.length) :
    (((l.set (o + 3) (w >>> 24).toUInt8).set (o + 2) (w >>> 16).toUInt8).set (o + 1)
      (w >>> 8).toUInt8).set o w.toUInt8 = putWord w l o := by
  apply List.ext_getElem?
  intro i
  rw [getElem?_putWord w h]
  by_cases hi : o ≤ i ∧ i < o + 4
  · have hin : i < l.length := by omega
    rw [if_pos hi]
    obtain rfl | rfl | rfl | rfl : i = o ∨ i = o + 1 ∨ i = o + 2 ∨ i = o + 3 := by omega
    all_goals simp [wordBytes, hin]
  · rw [if_neg hi, List.getElem?_set_ne (by omega), List.getElem?_set_ne (by omega),
      List.getElem?_set_ne (by omega), List.getElem?_set_ne (by omega)]

theorem encodeToLittleEndianBuffer_eq {o : ℕ} (w : UInt32) (ho : offset.toNat = o)
    (h : o + 4 ≤ buffer.length) (hb : o + 4 < 2 ^ 64) :
    encodeToLittleEndianBuffer w buffer offset = .ok (putWord w buffer o) := by
  subst ho
  obtain ⟨h₃, h₂, h₁, h₀⟩ := toNat_indices hb
  rw [encode_of_passes w (passesGuard_of_fits h hb), if_pos (inside_of_fits h hb), h₃, h₂, h₁, h₀,
    set_bytes buffer w _ h]

/-- Byte 3 at or above `0x80`: the shifted byte is a negative `int`. -/
example : decodeFromLittleEndianBuffer [0xff, 0xff, 0xff, 0xff, 0xaa, 0xbb] 2
    = .ok 0xbbaaffff := by decide +kernel

end Utils

end FcsServer
