import FcsServer.Lib.Traced
import Mathlib.Computability.Language

/-!
# Computations whose calls follow a grammar

The calls of a computation are a sequence of blocks, however the computation ends.  What stands
next to a call is then read off the blocks that the call can be in.

* `Emits` — the calls are blocks of a language, one after the other;
* `Emits.block`, `Emits.bind`, `Emits.foldlM` — its rules;
* `exists_block` — the block that an element stands in.
-/

open scoped Computability

namespace Language

variable {κ : Type} {B : Language κ} {es fs pre post : List κ} {x : κ}

theorem append_mem_kstar (hes : es ∈ B∗) (hfs : fs ∈ B∗) : es ++ fs ∈ B∗ := by
  obtain ⟨bs, rfl, hbs⟩ := mem_kstar.mp hes
  obtain ⟨cs, rfl, hcs⟩ := mem_kstar.mp hfs
  rw [← List.flatten_append]
  refine join_mem_kstar ?_
  intro b hb
  exact (List.mem_append.mp hb).elim (hbs b) (hcs b)

theorem block_mem_kstar {b : List κ} (hb : b ∈ B) : b ∈ B∗ := by
  have h : [b].flatten ∈ B∗ := join_mem_kstar (by simpa using hb)
  simpa using h

/-- **Every element stands in a block.** -/
theorem exists_block (h : pre ++ x :: post ∈ B∗) :
    ∃ before left right after, left ++ x :: right ∈ B ∧ pre = before ++ left ∧
      post = right ++ after := by
  obtain ⟨bs, hsplit, hbs⟩ := mem_kstar.mp h
  clear h
  induction bs generalizing pre with
  | nil => simp at hsplit
  | cons b bs ih =>
    rw [List.flatten_cons, List.append_eq_append_iff] at hsplit
    rcases hsplit with ⟨left, hb, hrest⟩ | ⟨mid, hpre, hflat⟩
    · cases left with
      | nil =>
        have hflat : [] ++ x :: post = bs.flatten := hrest
        obtain ⟨before, left, right, after, hblock, hnil, hpost⟩ :=
          ih hflat fun c hc => hbs c (List.mem_cons_of_mem b hc)
        refine ⟨b ++ before, left, right, after, hblock, ?_, hpost⟩
        rw [List.append_assoc, ← hnil, hb, List.append_nil, List.append_nil]
      | cons y right =>
        rw [List.cons_append, List.cons.injEq] at hrest
        obtain ⟨rfl, hpost⟩ := hrest
        exact ⟨[], pre, right, bs.flatten, hb ▸ hbs b List.mem_cons_self, rfl, hpost⟩
    · obtain ⟨before, left, right, after, hblock, hmid, hpost⟩ :=
        ih hflat.symm fun c hc => hbs c (List.mem_cons_of_mem b hc)
      exact ⟨b ++ before, left, right, after, hblock, by rw [hpre, hmid, List.append_assoc], hpost⟩

end Language

namespace Traced

variable {ε ε' κ α β σ ι : Type} {B : Language κ} {x : Traced ε κ α}

/-- The calls are blocks, also when the computation stops. -/
def Emits (B : Language κ) (x : Traced ε κ α) : Prop := x.calls ∈ B∗

namespace Emits

theorem pure' (a : α) : Emits B (Pure.pure a : Traced ε κ α) := Language.nil_mem_kstar B

theorem stop' (e : ε) : Emits B (stop e : Traced ε κ α) := Language.nil_mem_kstar B

theorem ofExcept' (h : ε' → ε) (z : Except ε' α) : Emits B (ofExcept h z : Traced ε κ α) :=
  Language.nil_mem_kstar B

/-- A block, and what comes after it. -/
theorem block {b : List κ} {y : Traced ε κ β} (hb : b ∈ B) (hx : x.calls = b ++ y.calls)
    (hy : Emits B y) : Emits B x := by
  rw [Emits, hx]
  exact Language.append_mem_kstar (Language.block_mem_kstar hb) hy

/-- **Sequence rule.** -/
theorem bind {f : α → Traced ε κ β} (hx : Emits B x) (hf : ∀ a, Emits B (f a)) :
    Emits B (x >>= f) := by
  cases hres : x.result with
  | ok a =>
    rw [Emits, bind_of_ok f hres]
    exact Language.append_mem_kstar hx (hf a)
  | error e =>
    rw [Emits, bind_of_error f hres]
    exact hx

/-- **Loop rule.** -/
theorem foldlM {step : σ → ι → Traced ε κ σ} (is : List ι) (hstep : ∀ i s, Emits B (step s i))
    (s : σ) : Emits B (is.foldlM step s) :=
  foldlM_calls (q := fun c => c ∈ B∗) (Language.nil_mem_kstar B)
    (fun _ _ => Language.append_mem_kstar) is (fun i _ => hstep i) s

end Emits

end Traced
