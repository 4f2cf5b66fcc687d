import FcsServer.Utils

/-!
# Words at any offset

The two accessors of `utils.h` on their own, for every `size_t` offset.  The guard adds to the
offset before it compares, so its sum wraps around at the last four offsets, and the indices wrap
around there too, each at another one.

* `Guarded` / `guarded_iff` — the guard keeps the accessors inside the buffer unless its sum
  wraps around;
* `outside_of_wrapped` — where the sum wraps around, an index is past the end;
* `CodecAt` / `codec_at_offset` — value, frame, round trips and commutation of a word that lies
  inside the buffer.
-/

namespace FcsServer

open LittleEndian Utils

namespace Accessors

variable {buffer : List UInt8} {offset : UInt64}

/-! ### Sums that wrap around -/

/-- The sum of the guard. -/
theorem toNat_sum (offset : UInt64) : (offset + wordSize).toNat
    = if offset.toNat + 4 < 2 ^ 64 then offset.toNat + 4 else offset.toNat + 4 - 2 ^ 64 := by
  have hlt := offset.toNat_lt
  rw [UInt64.toNat_add, toNat_wordSize]
  split
  · rename_i hsum
    exact Nat.mod_eq_of_lt hsum
  · omega

/-- Where the sum wraps around, one of the indices is the largest `size_t`, and no buffer has
that. -/
theorem outside_of_wrapped (hsize : buffer.length < 2 ^ 64) (h : 2 ^ 64 ≤ offset.toNat + 4) :
    ¬ Inside buffer offset := by
  have hlt := offset.toNat_lt
  have hindex : ∀ k : UInt64, (k + offset).toNat = (k.toNat + offset.toNat) % 2 ^ 64 :=
    fun k => UInt64.toNat_add k offset
  rw [inside_iff, hindex, hindex, hindex, hindex]
  show ¬ ((3 + _) % _ < _ ∧ (2 + _) % _ < _ ∧ (1 + _) % _ < _ ∧ (0 + _) % _ < _)
  omega

/-! ### The guard -/

/-- The call throws `invalid_argument`, or it returns.  An access past the end is neither. -/
def ThrowsOrReturns {α : Type} (x : Except Fault α) : Prop :=
  (∃ what, x = .error (.invalidArgument what)) ∨ ∃ a, x = .ok a

/-- What the bounds check is for: both accessors throw or return, and a call that the guard lets
through is for a word inside the buffer, neither the sum nor an index having wrapped around. -/
structure Guarded (buffer : List UInt8) (offset : UInt64) : Prop where
  decode : ThrowsOrReturns (decodeFromLittleEndianBuffer buffer offset)
  encode : ∀ v, ThrowsOrReturns (encodeToLittleEndianBuffer v buffer offset)
  inside : PassesGuard buffer offset → Inside buffer offset
  fits : PassesGuard buffer offset → offset.toNat + 4 ≤ buffer.length
  sum : PassesGuard buffer offset → (offset + wordSize).toNat = offset.toNat + 4
  unwrapped : PassesGuard buffer offset →
    (indices offset).map UInt64.toNat = [3, 2, 1, 0].map (offset.toNat + ·)

/-- A call that throws has not got past the guard. -/
theorem Guarded.of_throws (h : ¬ PassesGuard buffer offset) : Guarded buffer offset where
  decode := Or.inl ⟨_, decode_of_throws h⟩
  encode := fun v => Or.inl ⟨_, encode_of_throws v h⟩
  inside := fun hpasses => absurd hpasses h
  fits := fun hpasses => absurd hpasses h
  sum := fun hpasses => absurd hpasses h
  unwrapped := fun hpasses => absurd hpasses h

theorem Guarded.of_fits (hfits : offset.toNat + 4 ≤ buffer.length)
    (hsum : offset.toNat + 4 < 2 ^ 64) : Guarded buffer offset where
  decode := Or.inr ⟨_, decodeFromLittleEndianBuffer_eq rfl hfits hsum⟩
  encode := fun v => Or.inr ⟨_, encodeToLittleEndianBuffer_eq v rfl hfits hsum⟩
  inside := fun _ => inside_of_fits hfits hsum
  fits := fun _ => hfits
  sum := fun _ => toNat_add_wordSize hsum
  unwrapped := by
    obtain ⟨h₃, h₂, h₁, h₀⟩ := toNat_indices hsum
    simp only [indices, List.map_cons, List.map_nil, h₃, h₂, h₁, h₀, Nat.add_zero, implies_true]

/-- **When the bounds check is sound**, for every buffer and every `size_t` offset: exactly when
its sum does not wrap around, or the buffer is shorter than what is left of the sum. -/
theorem guarded_iff (buffer : List UInt8) (offset : UInt64) :
    Guarded buffer offset ↔
      offset.toNat + 4 < 2 ^ 64 ∨ buffer.length < offset.toNat + 4 - 2 ^ 64 := by
  have hsum := toNat_sum offset
  by_cases hwrap : offset.toNat + 4 < 2 ^ 64
  · rw [if_pos hwrap] at hsum
    refine iff_of_true ?_ (Or.inl hwrap)
    by_cases hfits : offset.toNat + 4 ≤ buffer.length
    · exact .of_fits hfits hwrap
    · apply Guarded.of_throws
      rw [PassesGuard, hsum]
      omega
  · rw [if_neg hwrap] at hsum
    constructor
    · intro h
      right
      by_contra hpasses
      rw [← hsum] at hpasses
      have hexact := h.sum hpasses
      omega
    · intro h
      apply Guarded.of_throws
      rw [PassesGuard, hsum]
      exact not_not.mpr (h.resolve_left hwrap)

/-- At offset `SIZE_MAX - 3` the sum is 0: an empty buffer is read and written past its end. -/
theorem wrapped_offset_accepted :
    ∃ offset, decodeFromLittleEndianBuffer [] offset = .error .indexOutOfBounds ∧
      (∀ v, encodeToLittleEndianBuffer v [] offset = .error .indexOutOfBounds) ∧
      ¬ Guarded [] offset := by
  have hpasses : PassesGuard [] 0xfffffffffffffffc := by decide +kernel
  have hout : ¬ Inside [] 0xfffffffffffffffc := outside_of_wrapped (by decide) (by decide)
  refine ⟨0xfffffffffffffffc, ?_, ?_, ?_⟩
  · rw [decode_of_passes hpasses, if_neg hout]
  · intro v
    rw [encode_of_passes v hpasses, if_neg hout]
  · intro h
    exact hout (h.inside hpasses)

/-! ### The codec -/

/-- The word at offset `o`: its value, with no `int` addition that overflows, since that is a
fault; what writing it changes; and that reading and writing undo each other. -/
structure CodecAt (b : List UInt8) (o : UInt64) : Prop where
  value : ∃ w, decodeFromLittleEndianBuffer b o = .ok w ∧
    w.toNat = (b.getD o.toNat 0).toNat + 2 ^ 8 * (b.getD (o.toNat + 1) 0).toNat
      + 2 ^ 16 * (b.getD (o.toNat + 2) 0).toNat + 2 ^ 24 * (b.getD (o.toNat + 3) 0).toNat
  written : ∀ v, ∃ b', encodeToLittleEndianBuffer v b o = .ok b' ∧ b'.length = b.length ∧
    (∀ i, i < o.toNat ∨ o.toNat + 4 ≤ i → b'[i]? = b[i]?) ∧
    decodeFromLittleEndianBuffer b' o = .ok v
  kept : ∀ w, decodeFromLittleEndianBuffer b o = .ok w →
    encodeToLittleEndianBuffer w b o = .ok b
  commutes : ∀ v v' o', o'.toNat + 4 ≤ b.length →
    o.toNat + 4 ≤ o'.toNat ∨ o'.toNat + 4 ≤ o.toNat →
    ∃ b', (encodeToLittleEndianBuffer v b o >>= (encodeToLittleEndianBuffer v' · o')) = .ok b' ∧
      (encodeToLittleEndianBuffer v' b o' >>= (encodeToLittleEndianBuffer v · o)) = .ok b'

/-- **The codec at an offset.**  In every vector, at every offset with room for a word, the
accessors read and write the little-endian word there and nothing else. -/
theorem codec_at_offset (b : ByteVector) (o : UInt64) (h : o.toNat + 4 ≤ b.bytes.length) :
    CodecAt b.bytes o := by
  have hsize := b.size_lt
  have hdecode : decodeFromLittleEndianBuffer b.bytes o = .ok (wordAt b.bytes o.toNat) :=
    decodeFromLittleEndianBuffer_eq rfl h (by omega)
  have hencode : ∀ v, encodeToLittleEndianBuffer v b.bytes o
      = .ok (putWord v b.bytes o.toNat) :=
    fun v => encodeToLittleEndianBuffer_eq v rfl h (by omega)
  refine ⟨⟨_, hdecode, toNat_word _ _ _ _⟩, ?_, ?_, ?_⟩
  · intro v
    have hlength := length_putWord (w := v) h
    refine ⟨_, hencode v, hlength, ?_, ?_⟩
    · intro i hi
      rw [getElem?_putWord v h, if_neg (by omega)]
    · rw [decodeFromLittleEndianBuffer_eq rfl (by rwa [hlength]) (by omega), wordAt_putWord v h]
  · intro w hw
    rw [hdecode, Except.ok.injEq] at hw
    rw [← hw, hencode, putWord_wordAt h]
  · intro v v' o' h' hdisjoint
    have hencode' : encodeToLittleEndianBuffer v' b.bytes o'
        = .ok (putWord v' b.bytes o'.toNat) :=
      encodeToLittleEndianBuffer_eq v' rfl h' (by omega)
    refine ⟨putWord v' (putWord v b.bytes o.toNat) o'.toNat, ?_, ?_⟩
    · rw [hencode, ok_bind]
      exact encodeToLittleEndianBuffer_eq v' rfl (by rwa [length_putWord h]) (by omega)
    · rw [hencode', ok_bind, putWord_comm v v' h h' hdisjoint]
      exact encodeToLittleEndianBuffer_eq v rfl (by rwa [length_putWord h']) (by omega)

/-- Six bytes with the top bit of byte 3 set, at offset 2. -/
theorem codec_at_offset_two : CodecAt [0xff, 0xff, 0xff, 0xff, 0xaa, 0xbb] 2 :=
  codec_at_offset ⟨[0xff, 0xff, 0xff, 0xff, 0xaa, 0xbb], by decide⟩ 2 (by decide)

end Accessors

end FcsServer
