import FcsServer.Utils

/-!
# Byte buffers and word buffers

The conversions of `utils.h` between vectors of bytes and vectors or arrays of words.  Their
loops go over the words of a buffer; each step leaves the words before it as they are.

* `wordBufferLoop_eq`, `byteBufferLoop_eq` — one loop from any index on;
* `wordBufferFromByteBuffer_eq`, `byteBufferFromWordBuffer_eq` — the conversions are `wordsOf`
  and `bytesOf`;
* `Written` — what a successful `writeToWordPointerFromByteBuffer` leaves;
* `conversions_inverse` — the conversions are inverse to each other and fail atomically.
-/

namespace FcsServer

open LittleEndian

namespace Utils

/-! ### The loops -/

/-- The loop over the bytes: the words from index `i` on are added to the output. -/
theorem wordBufferLoop_eq (suf : List UInt8) (h : suf.length % 4 = 0) (pre : List UInt8)
    (output : List UInt32) (hsize : pre.length + suf.length < 2 ^ 63) :
    wordBufferLoop (pre ++ suf) pre.length output = .ok (output ++ wordsOf suf) := by
  induction suf using wordsOf.induct generalizing pre output with
  | case1 b₀ b₁ b₂ b₃ rest ih =>
    have hrest : rest.length % 4 = 0 := by
      simp only [List.length_cons] at h
      omega
    have hlen : (pre ++ b₀ :: b₁ :: b₂ :: b₃ :: rest).length = pre.length + 4 + rest.length := by
      simp only [List.length_append, List.length_cons]
      omega
    have hindex : (UInt64.ofNat pre.length).toNat = pre.length :=
      UInt64.toNat_ofNat_of_lt' (by show _ < 2 ^ 64; omega)
    have hword : wordAt (pre ++ b₀ :: b₁ :: b₂ :: b₃ :: rest) pre.length = word b₀ b₁ b₂ b₃ :=
      wordAt_append_length _ _
    simp only [List.length_cons] at hsize
    have hstep := ih hrest (pre ++ [b₀, b₁, b₂, b₃]) (output ++ [word b₀ b₁ b₂ b₃])
      (by rw [List.length_append]; simp only [List.length_cons, List.length_nil]; omega)
    rw [List.append_assoc pre, List.length_append] at hstep
    rw [wordBufferLoop, if_pos (by omega),
      decodeFromLittleEndianBuffer_eq hindex (by omega) (by omega), ok_bind, hword, wordsOf,
      List.append_cons output _ (wordsOf rest)]
    exact hstep
  | case2 suf hshort =>
    rw [eq_nil_of_words h hshort, List.append_nil, wordBufferLoop, if_neg (lt_irrefl _), wordsOf,
      List.append_nil]
    · rfl
    · intro b₀ b₁ b₂ b₃ rest hcons
      cases hcons

/-- The loop over the words: the bytes before the index stay, and the rest is written over. -/
theorem byteBufferLoop_eq (ws : List UInt32) (pre suf : List UInt8) (i : ℕ)
    (hpre : pre.length = 4 * i) (hsuf : suf.length = 4 * ws.length)
    (hsize : 4 * (i + ws.length) < 2 ^ 63) :
    byteBufferLoop ws i (pre ++ suf) = .ok (pre ++ bytesOf ws) := by
  induction ws generalizing pre suf i with
  | nil =>
    rw [List.eq_nil_of_length_eq_zero hsuf]
    rfl
  | cons w ws ih =>
    rw [List.length_cons] at hsuf hsize
    have hindex : (UInt64.ofNat i * wordSize).toNat = pre.length := by
      rw [UInt64.toNat_mul, toNat_wordSize, UInt64.toNat_ofNat_of_lt' (by show _ < 2 ^ 64; omega),
        hpre]
      omega
    have hput : putWord w (pre ++ suf) pre.length = (pre ++ wordBytes w) ++ suf.drop 4 := by
      rw [putWord, List.take_left, List.drop_append, List.drop_of_length_le (by omega),
        List.nil_append, Nat.add_sub_cancel_left]
    rw [byteBufferLoop, encodeToLittleEndianBuffer_eq w hindex
      (by rw [List.length_append]; omega) (by omega), ok_bind, hput,
      ih (pre ++ wordBytes w) (suf.drop 4) (i + 1)]
    · rw [bytesOf_cons, List.append_assoc]
    · rw [List.length_append, length_wordBytes]
      omega
    · rw [List.length_drop]
      omega
    · omega

/-! ### The conversions -/

/-- A buffer that is not made of whole words is refused. -/
theorem wordBufferFromByteBuffer_error {b : List UInt8} (h : b.length % 4 ≠ 0) :
    wordBufferFromByteBuffer b = .error (.invalidArgument
      "wordBufferFromByteBuffer: input buffer size not multiple of 4") := if_pos h

theorem wordBufferFromByteBuffer_eq (b : ByteVector) (h : b.bytes.length % 4 = 0) :
    wordBufferFromByteBuffer b.bytes = .ok (wordsOf b.bytes) := by
  rw [wordBufferFromByteBuffer, toNat_wordSize, if_neg (not_not.mpr h)]
  exact wordBufferLoop_eq b.bytes h [] [] (by rw [List.length_nil, Nat.zero_add]; exact b.size_lt)

theorem byteBufferFromWordBuffer_eq {ws : List UInt32} (h : 4 * ws.length < 2 ^ 63)
    (output : List UInt8) : byteBufferFromWordBuffer ws output = .ok (bytesOf ws) := by
  have hsize : (UInt64.ofNat ws.length * wordSize).toNat = 4 * ws.length := by
    rw [UInt64.toNat_mul, toNat_wordSize, UInt64.toNat_ofNat_of_lt' (by show _ < 2 ^ 64; omega)]
    omega
  rw [byteBufferFromWordBuffer, hsize]
  exact byteBufferLoop_eq ws [] _ 0 rfl (length_resize _ _ _) (by omega)

/-- The call does not throw: the array starts with the words of `b`, the rest of it is as it
was, and it reads back as `b`. -/
structure Written (b : List UInt8) (output output' : WordOutput) : Prop where
  outputSize : output'.outputSize.toNat = b.length / 4
  length : output'.words.length = output.words.length
  front : output'.words.take (b.length / 4) = wordsOf b
  rest : output'.words.drop (b.length / 4) = output.words.drop (b.length / 4)
  back : byteBufferFromWordPointer output'.words output'.outputSize = .ok b

theorem writeToWordPointerFromByteBuffer_written (b : ByteVector) (output : WordOutput)
    (harray : output.outputSize.toNat ≤ output.words.length) (hwords : b.bytes.length % 4 = 0)
    (hfits : b.bytes.length / 4 ≤ output.outputSize.toNat) :
    ∃ output', writeToWordPointerFromByteBuffer b.bytes output = (.ok (), output') ∧
      Written b.bytes output output' := by
  have hlen := length_wordsOf b.bytes hwords
  have hsize := b.size_lt
  have hcount : (wordsOf b.bytes).length = b.bytes.length / 4 := by omega
  have hindex : (UInt64.ofNat (wordsOf b.bytes).length).toNat = b.bytes.length / 4 := by
    rw [UInt64.toNat_ofNat_of_lt' (by show _ < 2 ^ 64; omega), hcount]
  have hroom : (wordsOf b.bytes).length ≤ output.words.length := by omega
  have hfront : (overwrite (wordsOf b.bytes) output.words).take (b.bytes.length / 4)
      = wordsOf b.bytes := by
    rw [← hcount, take_overwrite hroom]
  refine ⟨⟨overwrite (wordsOf b.bytes) output.words, UInt64.ofNat (wordsOf b.bytes).length⟩,
    ?_, ?_⟩
  · rw [writeToWordPointerFromByteBuffer, wordBufferFromByteBuffer_eq b hwords]
    dsimp only
    rw [if_neg (by omega), if_pos hroom]
  · refine ⟨hindex, length_overwrite _ _, hfront, ?_, ?_⟩
    · rw [← hcount, overwrite, List.take_of_length_le hroom, List.drop_left]
    · rw [byteBufferFromWordPointer, hindex, if_pos (by rw [length_overwrite]; omega), hfront,
        byteBufferFromWordBuffer_eq (by omega), bytesOf_wordsOf b.bytes hwords]

theorem writeToWordPointerFromByteBuffer_throws (b : ByteVector) (output : WordOutput)
    (h : b.bytes.length % 4 ≠ 0 ∨ output.outputSize.toNat < b.bytes.length / 4) :
    ∃ what, writeToWordPointerFromByteBuffer b.bytes output
      = (.error (.invalidArgument what), output) := by
  rw [writeToWordPointerFromByteBuffer]
  by_cases hwords : b.bytes.length % 4 = 0
  · have hlen := length_wordsOf b.bytes hwords
    rw [wordBufferFromByteBuffer_eq b hwords]
    dsimp only
    rw [if_pos (by omega)]
    exact ⟨_, rfl⟩
  · rw [wordBufferFromByteBuffer_error hwords]
    exact ⟨_, rfl⟩

/-- **The conversions are inverse to each other and fail atomically.**  Only sizes decide
whether they throw; a call that throws leaves the array and its size variable as they were. -/
theorem conversions_inverse :
    (∀ (w : WordVector) (output : List UInt8), ∃ bytes,
      byteBufferFromWordBuffer w.words output = .ok bytes ∧
        wordBufferFromByteBuffer bytes = .ok w.words) ∧
    (∀ b : ByteVector,
      ((∃ what, wordBufferFromByteBuffer b.bytes = .error (.invalidArgument what)) ↔
        b.bytes.length % 4 ≠ 0) ∧
      (b.bytes.length % 4 = 0 → ∃ words, wordBufferFromByteBuffer b.bytes = .ok words ∧
        ∀ output, byteBufferFromWordBuffer words output = .ok b.bytes)) ∧
    ∀ (b : ByteVector) (output : WordOutput),
      output.outputSize.toNat ≤ output.words.length →
      ((∃ what, (writeToWordPointerFromByteBuffer b.bytes output).1
          = .error (.invalidArgument what)) ↔
        b.bytes.length % 4 ≠ 0 ∨ output.outputSize.toNat < b.bytes.length / 4) ∧
      ((∃ what, writeToWordPointerFromByteBuffer b.bytes output
          = (.error (.invalidArgument what), output)) ∨
        ∃ output', writeToWordPointerFromByteBuffer b.bytes output = (.ok (), output') ∧
          Written b.bytes output output') := by
  refine ⟨?_, ?_, ?_⟩
  · intro w output
    have hlen := length_bytesOf w.words
    refine ⟨bytesOf w.words, byteBufferFromWordBuffer_eq w.size_lt output, ?_⟩
    have hwords := wordBufferFromByteBuffer_eq ⟨bytesOf w.words, hlen ▸ w.size_lt⟩
      (by dsimp only; omega)
    rwa [wordsOf_bytesOf] at hwords
  · intro b
    refine ⟨⟨?_, ?_⟩, ?_⟩
    · intro hthrows hwords
      obtain ⟨what, hthrows⟩ := hthrows
      rw [wordBufferFromByteBuffer_eq b hwords] at hthrows
      cases hthrows
    · intro hodd
      exact ⟨_, wordBufferFromByteBuffer_error hodd⟩
    · intro hwords
      refine ⟨_, wordBufferFromByteBuffer_eq b hwords, ?_⟩
      intro output
      have hlen := length_wordsOf b.bytes hwords
      have hsize := b.size_lt
      rw [byteBufferFromWordBuffer_eq (by omega), bytesOf_wordsOf b.bytes hwords]
  · intro b output harray
    by_cases h : b.bytes.length % 4 ≠ 0 ∨ output.outputSize.toNat < b.bytes.length / 4
    · obtain ⟨what, hthrows⟩ := writeToWordPointerFromByteBuffer_throws b output h
      refine ⟨iff_of_true ⟨what, ?_⟩ h, Or.inl ⟨what, hthrows⟩⟩
      rw [hthrows]
    · have hok := h
      rw [not_or, not_not, not_lt] at hok
      obtain ⟨output', hresult, hwritten⟩ :=
        writeToWordPointerFromByteBuffer_written b output harray hok.1 hok.2
      refine ⟨iff_of_false ?_ h, Or.inr ⟨output', hresult, hwritten⟩⟩
      rw [hresult]
      rintro ⟨what, hthrows⟩
      cases hthrows

end Utils

end FcsServer
