import Mathlib.Algebra.BigOperators.Group.List.Basic
import Mathlib.Data.List.Basic
import Mathlib.Data.Nat.Notation
import Mathlib.InformationTheory.Coding.UniquelyDecodable

/-!
# Messages whose header gives their length

A format in which the first letters of a message determine how long it is.  No message is then
a proper prefix of another, and a stream of messages can be cut up in one way only.

* `eq_of_append` — two messages that start the same stream are equal;
* `uniquelyDecodable` — two lists of messages with the same concatenation are equal;
* `cut` — a reader of streams; `cut_flatten` — it finds the messages.
-/

/-- Every word of `S` has a header of `n` letters, from which `size` reads off its length. -/
structure HeaderDelimited {α : Type*} (S : Set (List α)) (n : ℕ) (size : List α → ℕ) : Prop where
  pos : 0 < n
  header : ∀ w ∈ S, n ≤ w.length
  length : ∀ w ∈ S, w.length = size (w.take n)

namespace HeaderDelimited

variable {α : Type*} {S : Set (List α)} {n : ℕ} {size : List α → ℕ}

/-- Two words that start the same stream are equal. -/
theorem eq_of_append (h : HeaderDelimited S n size) {w w' rest rest' : List α} (hw : w ∈ S)
    (hw' : w' ∈ S) (heq : w ++ rest = w' ++ rest') : w = w' ∧ rest = rest' := by
  have htake : w.take n = w'.take n := by
    rw [← List.take_append_of_le_length (h.header w hw), heq,
      List.take_append_of_le_length (h.header w' hw')]
  have hlen : w.length = w'.length := by
    rw [h.length w hw, h.length w' hw', htake]
  exact List.append_inj heq hlen

/-- Fewer words. -/
theorem mono {T : Set (List α)} (h : HeaderDelimited S n size) (hT : T ⊆ S) :
    HeaderDelimited T n size :=
  ⟨h.pos, fun w hw => h.header w (hT hw), fun w hw => h.length w (hT hw)⟩

theorem ne_nil (h : HeaderDelimited S n size) {w : List α} (hw : w ∈ S) : w ≠ [] := by
  have hlen := h.header w hw
  have hpos := h.pos
  rw [← List.length_pos_iff]
  omega

/-- **The stream determines the words.** -/
theorem uniquelyDecodable (h : HeaderDelimited S n size) :
    InformationTheory.UniquelyDecodable S := by
  intro ws
  induction ws with
  | nil =>
    intro ws' _ hws' heq
    cases ws' with
    | nil => rfl
    | cons w' ws' =>
      have hne := h.ne_nil (hws' w' List.mem_cons_self)
      simp [hne] at heq
  | cons w ws ih =>
    intro ws' hws hws' heq
    cases ws' with
    | nil =>
      have hne := h.ne_nil (hws w List.mem_cons_self)
      simp [hne] at heq
    | cons w' ws' =>
      rw [List.flatten_cons, List.flatten_cons] at heq
      obtain ⟨hfirst, hrest⟩ := h.eq_of_append (hws w List.mem_cons_self)
        (hws' w' List.mem_cons_self) heq
      have htail : ws = ws' := by
        apply ih ws' _ _ hrest
        · intro x hx
          exact hws x (List.mem_cons_of_mem w hx)
        · intro x hx
          exact hws' x (List.mem_cons_of_mem w' hx)
      rw [hfirst, htail]

/-! ### Reading a stream -/

/-- Cuts at most `words` words off a stream, each as long as its header says.  `none` for a stream
that ends inside a word or has more words. -/
def cut (n : ℕ) (size : List α → ℕ) : (words : ℕ) → List α → Option (List (List α))
  | _, [] => some []
  | 0, _ :: _ => none
  | words + 1, x :: xs =>
    let length := size ((x :: xs).take n)
    if n ≤ length ∧ length ≤ (x :: xs).length then
      (cut n size words ((x :: xs).drop length)).map fun ws => (x :: xs).take length :: ws
    else none

/-- One word is cut off. -/
theorem cut_append (h : HeaderDelimited S n size) {w rest : List α} (hw : w ∈ S) (words : ℕ) :
    cut n size (words + 1) (w ++ rest) = (cut n size words rest).map fun ws => w :: ws := by
  have hheader := h.header w hw
  have hlength : size ((w ++ rest).take n) = w.length := by
    rw [List.take_append_of_le_length hheader, ← h.length w hw]
  cases hstream : w ++ rest with
  | nil => exact absurd (List.append_eq_nil_iff.mp hstream).1 (h.ne_nil hw)
  | cons x xs =>
    rw [hstream] at hlength
    have hle : w.length ≤ (x :: xs).length := by
      rw [← hstream, List.length_append]
      omega
    rw [cut, hlength, if_pos ⟨hheader, hle⟩, ← hstream, List.drop_left, List.take_left]

/-- **The reader finds the words of a stream.** -/
theorem cut_flatten (h : HeaderDelimited S n size) (ws : List (List α)) (hws : ∀ w ∈ ws, w ∈ S)
    (words : ℕ) (hwords : ws.length ≤ words) : cut n size words ws.flatten = some ws := by
  induction ws generalizing words with
  | nil => rw [List.flatten_nil, cut]
  | cons w ws ih =>
    rw [List.length_cons] at hwords
    obtain ⟨words, rfl⟩ := Nat.exists_eq_add_of_le' hwords
    have hrest := ih (fun w' hw' => hws w' (List.mem_cons_of_mem w hw')) (words + ws.length)
      (Nat.le_add_left _ _)
    rw [List.flatten_cons, ← Nat.add_assoc, h.cut_append (hws w List.mem_cons_self), hrest]
    rfl

/-- A stream has no more words than letters. -/
theorem length_le_flatten (h : HeaderDelimited S n size) (ws : List (List α))
    (hws : ∀ w ∈ ws, w ∈ S) : ws.length ≤ ws.flatten.length := by
  have hpos : ∀ k ∈ ws.map List.length, 1 ≤ k := by
    intro k hk
    obtain ⟨w, hw, rfl⟩ := List.mem_map.mp hk
    exact List.length_pos_iff.mpr (h.ne_nil (hws w hw))
  rw [List.length_flatten, ← List.length_map (f := List.length)]
  exact List.length_le_sum_of_one_le _ hpos

end HeaderDelimited
