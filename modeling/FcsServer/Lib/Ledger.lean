import Mathlib.Data.List.Basic
import Mathlib.Tactic

/-!
# Ledgers of resources

A program acquires and releases resources that are known by an identifier, and the environment
may hand out an identifier again once it has been released.  A ledger replays the calls a
program made and keeps what is held, with an owner for each entry.

* `held` — what the calls so far leave in hand;
* `Obeys` — a condition on every call against what is held when it is made;
* `Fresh` / `Safe` — identifiers are acquired only while free, released only while held;
* `mem_held_iff` — an entry is held when it was acquired and not released since.
-/

namespace Ledger

/-- What a call does to the ledger. -/
inductive Effect (ο ι : Type) where
  | acquire (owner : ο) (id : ι)
  | release (id : ι)
  | nothing
  deriving DecidableEq, Repr

variable {κ ο ι : Type} [DecidableEq ι]

/-- The entries after one call. -/
def book (h : List (ο × ι)) : Effect ο ι → List (ο × ι)
  | .acquire o i => (o, i) :: h
  | .release i => h.filter fun e => e.2 ≠ i
  | .nothing => h

/-- The entries after a list of calls, from those held before. -/
def heldFrom (effect : κ → Effect ο ι) (h : List (ο × ι)) (calls : List κ) : List (ο × ι) :=
  calls.foldl (fun h c => book h (effect c)) h

/-- What a program that started with nothing holds. -/
def held (effect : κ → Effect ο ι) (calls : List κ) : List (ο × ι) := heldFrom effect [] calls

/-- Every call satisfies `ok` against what is held when it is made. -/
def Obeys (ok : List (ο × ι) → Effect ο ι → Prop) (effect : κ → Effect ο ι) :
    List (ο × ι) → List κ → Prop
  | _, [] => True
  | h, c :: calls => ok h (effect c) ∧ Obeys ok effect (book h (effect c)) calls

/-- The identifier acquired is not held. -/
def FreshAt (h : List (ο × ι)) : Effect ο ι → Prop
  | .acquire _ i => i ∉ h.map Prod.snd
  | _ => True

/-- The identifier released is held. -/
def SafeAt (h : List (ο × ι)) : Effect ο ι → Prop
  | .release i => i ∈ h.map Prod.snd
  | _ => True

/-- The environment never hands out an identifier that is held. -/
def Fresh (effect : κ → Effect ο ι) (calls : List κ) : Prop := Obeys FreshAt effect [] calls

/-- The program never releases an identifier that it does not hold. -/
def Safe (effect : κ → Effect ο ι) (calls : List κ) : Prop := Obeys SafeAt effect [] calls

omit [DecidableEq ι] in
theorem freshAt_acquire {h : List (ο × ι)} {o : ο} {i : ι} :
    FreshAt h (.acquire o i) ↔ ∀ o', (o', i) ∉ h := by
  simp [FreshAt]

omit [DecidableEq ι] in
theorem safeAt_release {h : List (ο × ι)} {i : ι} :
    SafeAt h (.release i : Effect ο ι) ↔ ∃ o, (o, i) ∈ h := by
  simp [SafeAt]

/-! ### Replaying a list of calls decides the two conditions -/

instance (h : List (ο × ι)) : DecidablePred (FreshAt h) := fun e =>
  match e with
  | .acquire _ i => inferInstanceAs (Decidable (i ∉ h.map Prod.snd))
  | .release _ => inferInstanceAs (Decidable True)
  | .nothing => inferInstanceAs (Decidable True)

instance (h : List (ο × ι)) : DecidablePred (SafeAt h) := fun e =>
  match e with
  | .acquire _ _ => inferInstanceAs (Decidable True)
  | .release i => inferInstanceAs (Decidable (i ∈ h.map Prod.snd))
  | .nothing => inferInstanceAs (Decidable True)

instance decidableObeys (ok : List (ο × ι) → Effect ο ι → Prop) [∀ h, DecidablePred (ok h)]
    (effect : κ → Effect ο ι) : (h : List (ο × ι)) → (calls : List κ) →
    Decidable (Obeys ok effect h calls)
  | _, [] => .isTrue trivial
  | h, c :: calls =>
    have := decidableObeys ok effect (book h (effect c)) calls
    inferInstanceAs (Decidable (_ ∧ _))

instance (effect : κ → Effect ο ι) (calls : List κ) : Decidable (Fresh effect calls) :=
  decidableObeys _ effect [] calls

instance (effect : κ → Effect ο ι) (calls : List κ) : Decidable (Safe effect calls) :=
  decidableObeys _ effect [] calls

/-! ### One call after another -/

section Replay

variable {effect : κ → Effect ο ι} {ok : List (ο × ι) → Effect ο ι → Prop}
  {h : List (ο × ι)} {c d : List κ}

theorem heldFrom_append : heldFrom effect h (c ++ d) = heldFrom effect (heldFrom effect h c) d :=
  List.foldl_append

theorem held_append : held effect (c ++ d) = heldFrom effect (held effect c) d := heldFrom_append

theorem held_snoc (x : κ) : held effect (c ++ [x]) = book (held effect c) (effect x) :=
  held_append

theorem obeys_append :
    Obeys ok effect h (c ++ d) ↔ Obeys ok effect h c ∧ Obeys ok effect (heldFrom effect h c) d := by
  induction c generalizing h with
  | nil => exact (iff_of_eq (true_and _)).symm
  | cons x c ih =>
    rw [List.cons_append, Obeys, Obeys, ih, and_assoc]
    rfl

/-- What holds of a run holds of its beginning. -/
theorem Obeys.left (hcd : Obeys ok effect h (c ++ d)) : Obeys ok effect h c :=
  (obeys_append.mp hcd).1

/-- The condition at one call of the run. -/
theorem Obeys.at {x : κ} (hcd : Obeys ok effect h (c ++ x :: d)) :
    ok (heldFrom effect h c) (effect x) :=
  (obeys_append.mp hcd).2.1

theorem Fresh.left (hcd : Fresh effect (c ++ d)) : Fresh effect c := Obeys.left hcd

end Replay

/-! ### Entries -/

section Entries

variable {effect : κ → Effect ο ι} {h : List (ο × ι)}

theorem mem_book_acquire {o o' : ο} {i i' : ι} :
    (o, i) ∈ book h (.acquire o' i') ↔ (o = o' ∧ i = i') ∨ (o, i) ∈ h := by
  rw [book, List.mem_cons, Prod.mk.injEq]

theorem mem_book_release {o : ο} {i i' : ι} :
    (o, i) ∈ book h (.release i') ↔ (o, i) ∈ h ∧ i ≠ i' := by
  rw [book, List.mem_filter, decide_eq_true_iff]

/-- **An entry is held when it was acquired and not released since.** -/
theorem mem_held_iff {o : ο} {i : ι} (calls : List κ) :
    (o, i) ∈ held effect calls ↔ ∃ pre x post, calls = pre ++ x :: post ∧
      effect x = .acquire o i ∧ ∀ y ∈ post, effect y ≠ .release i := by
  induction calls using List.reverseRecOn with
  | nil =>
    constructor
    · intro hmem
      cases hmem
    · intro hacquired
      obtain ⟨pre, x, post, hsplit, -, -⟩ := hacquired
      exact absurd hsplit.symm (by simp)
  | append_singleton calls z ih =>
    -- an acquisition in `calls ++ [z]` is `z` itself or one in `calls` that `z` leaves alone
    have split : (∃ pre x post, calls ++ [z] = pre ++ x :: post ∧ effect x = .acquire o i ∧
        ∀ y ∈ post, effect y ≠ .release i) ↔
        effect z = .acquire o i ∨ ((o, i) ∈ held effect calls ∧ effect z ≠ .release i) := by
      constructor
      · intro hacquired
        obtain ⟨pre, x, post, hsplit, hx, hpost⟩ := hacquired
        cases post using List.reverseRecOn with
        | nil =>
          obtain ⟨-, hz⟩ := List.append_inj' hsplit rfl
          left
          rw [(List.cons.inj hz).1]
          exact hx
        | append_singleton post y =>
          rw [← List.cons_append, ← List.append_assoc] at hsplit
          obtain ⟨hcalls, hz⟩ := List.append_inj' hsplit rfl
          right
          refine ⟨ih.mpr ⟨pre, x, post, hcalls, hx, ?_⟩, ?_⟩
          · intro y' hy'
            exact hpost y' (List.mem_append_left _ hy')
          · rw [(List.cons.inj hz).1]
            exact hpost y (List.mem_append_right _ (List.mem_singleton_self y))
      · intro hlast
        rcases hlast with hz | ⟨hmem, hz⟩
        · exact ⟨calls, z, [], rfl, hz, fun y hy => absurd hy List.not_mem_nil⟩
        · obtain ⟨pre, x, post, hcalls, hx, hpost⟩ := ih.mp hmem
          refine ⟨pre, x, post ++ [z], by rw [hcalls]; simp, hx, ?_⟩
          intro y hy
          rcases List.mem_append.mp hy with hy | hy
          · exact hpost y hy
          · rw [List.mem_singleton.mp hy]
            exact hz
    rw [split, held_snoc]
    cases hz : effect z with
    | acquire o' i' =>
      rw [mem_book_acquire]
      constructor
      · intro hbooked
        rcases hbooked with ⟨rfl, rfl⟩ | hmem
        · exact Or.inl rfl
        · exact Or.inr ⟨hmem, by simp⟩
      · intro hbooked
        rcases hbooked with heq | ⟨hmem, -⟩
        · cases heq
          exact Or.inl ⟨rfl, rfl⟩
        · exact Or.inr hmem
    | release i' =>
      rw [mem_book_release]
      constructor
      · intro hkept
        obtain ⟨hmem, hne⟩ := hkept
        exact Or.inr ⟨hmem, fun heq => hne (by cases heq; rfl)⟩
      · intro hbooked
        rcases hbooked with heq | ⟨hmem, hne⟩
        · cases heq
        · exact ⟨hmem, fun heq => hne (by rw [heq])⟩
    | nothing =>
      rw [book]
      simp

end Entries

end Ledger
