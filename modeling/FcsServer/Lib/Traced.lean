import Mathlib.Data.Nat.Notation
import Mathlib.Tactic

/-!
# Computations that make calls

A computation of type `Traced ε κ α` makes calls of type `κ` to its environment, and then
returns an `α` or stops with an `ε`.  The calls made before a stop are kept.  What the
environment answers is an input of the computation, so a computation is a value and its
calls can be read off.

* `bind_of_ok` / `bind_of_error` — the calls and the result of a sequence;
* `foldlM_invariant`, `foldlM_remaining`, `foldlM_eq_error` — what a loop keeps, and where it stops;
* `StopsWith` — what a computation has called when it stops;
* `Triple` — rely, guarantee, precondition and postcondition over the calls made so far;
* `Triple.bind` / `Triple.foldlM` — the sequence rule and the loop rule.
-/

/-- The calls a computation makes, and how it ends. -/
structure Traced (ε κ α : Type) where
  calls : List κ
  result : Except ε α

namespace Traced

variable {ε ε' κ α β σ ι : Type}

instance : Monad (Traced ε κ) where
  pure a := ⟨[], .ok a⟩
  bind x f := match x.result with
    | .ok a => ⟨x.calls ++ (f a).calls, (f a).result⟩
    | .error e => ⟨x.calls, .error e⟩

/-- One call. -/
def call (c : κ) : Traced ε κ Unit := ⟨[c], .ok ()⟩

/-- No further step. -/
def stop (e : ε) : Traced ε κ α := ⟨[], .error e⟩

/-- A computation that makes no calls. -/
def ofExcept (f : ε' → ε) (x : Except ε' α) : Traced ε κ α := ⟨[], x.mapError f⟩

theorem pure_eq (a : α) : (pure a : Traced ε κ α) = ⟨[], .ok a⟩ := rfl

/-- A first part that returns hands its value on; the calls add up. -/
theorem bind_of_ok {x : Traced ε κ α} {a : α} (f : α → Traced ε κ β) (h : x.result = .ok a) :
    x >>= f = ⟨x.calls ++ (f a).calls, (f a).result⟩ := by
  show (match x.result with
    | .ok a => (⟨x.calls ++ (f a).calls, (f a).result⟩ : Traced ε κ β)
    | .error e => ⟨x.calls, .error e⟩) = _
  rw [h]

/-- A first part that stops is the whole computation. -/
theorem bind_of_error {x : Traced ε κ α} {e : ε} (f : α → Traced ε κ β)
    (h : x.result = .error e) : x >>= f = ⟨x.calls, .error e⟩ := by
  show (match x.result with
    | .ok a => (⟨x.calls ++ (f a).calls, (f a).result⟩ : Traced ε κ β)
    | .error e => ⟨x.calls, .error e⟩) = _
  rw [h]

@[simp] theorem mk_ok_bind (c : List κ) (a : α) (f : α → Traced ε κ β) :
    ((⟨c, .ok a⟩ : Traced ε κ α) >>= f) = ⟨c ++ (f a).calls, (f a).result⟩ :=
  bind_of_ok f rfl

@[simp] theorem mk_error_bind (c : List κ) (e : ε) (f : α → Traced ε κ β) :
    ((⟨c, .error e⟩ : Traced ε κ α) >>= f) = ⟨c, .error e⟩ :=
  bind_of_error f rfl

@[simp] theorem pure_bind' (a : α) (f : α → Traced ε κ β) : (pure a >>= f) = f a := by
  rw [pure_eq, mk_ok_bind, List.nil_append]

/-- A first part without calls leaves only the second. -/
theorem mk_nil_bind (a : α) (f : α → Traced ε κ β) :
    ((⟨[], .ok a⟩ : Traced ε κ α) >>= f) = f a :=
  pure_bind' a f

@[simp] theorem call_bind (c : κ) (f : Unit → Traced ε κ β) :
    (call c >>= f) = ⟨c :: (f ()).calls, (f ()).result⟩ := by
  rw [call, mk_ok_bind, List.singleton_append]

/-- A sequence of two parts without calls. -/
theorem ofExcept_bind (f : ε' → ε) (x : Except ε' α) (g : α → Except ε' β) :
    (ofExcept f (x >>= g) : Traced ε κ β) = ofExcept f x >>= fun a => ofExcept f (g a) := by
  cases x with
  | ok a => exact (mk_nil_bind a fun a => ofExcept f (g a)).symm
  | error e => rfl

/-- A sequence returns when both parts do. -/
theorem bind_result_eq_ok {x : Traced ε κ α} {f : α → Traced ε κ β} {b : β} :
    (x >>= f).result = .ok b ↔ ∃ a, x.result = .ok a ∧ (f a).result = .ok b := by
  cases hx : x.result with
  | ok a =>
    rw [bind_of_ok f hx]
    constructor
    · intro h
      exact ⟨a, rfl, h⟩
    · intro hparts
      obtain ⟨a', ha, h⟩ := hparts
      cases ha
      exact h
  | error e =>
    rw [bind_of_error f hx]
    constructor
    · intro h
      cases h
    · intro hparts
      obtain ⟨a', ha, -⟩ := hparts
      cases ha

/-- The calls of a loop step come before those of the rest of the loop. -/
theorem foldlM_cons_of_ok {step : σ → ι → Traced ε κ σ} {s s' : σ} {i : ι} (is : List ι)
    (h : (step s i).result = .ok s') :
    (i :: is).foldlM step s
      = ⟨(step s i).calls ++ (is.foldlM step s').calls, (is.foldlM step s').result⟩ := by
  rw [List.foldlM_cons, bind_of_ok _ h]

theorem foldlM_cons_of_error {step : σ → ι → Traced ε κ σ} {s : σ} {i : ι} {e : ε}
    (is : List ι) (h : (step s i).result = .error e) :
    (i :: is).foldlM step s = ⟨(step s i).calls, .error e⟩ := by
  rw [List.foldlM_cons, bind_of_error _ h]

/-- Running one list of steps after another. -/
theorem foldlM_append_of_ok {step : σ → ι → Traced ε κ σ} {s s' : σ} (is js : List ι)
    (h : (is.foldlM step s).result = .ok s') :
    (is ++ js).foldlM step s
      = ⟨(is.foldlM step s).calls ++ (js.foldlM step s').calls, (js.foldlM step s').result⟩ := by
  induction is generalizing s with
  | nil =>
    cases h
    rfl
  | cons i is ih =>
    cases hi : (step s i).result with
    | error e =>
      rw [foldlM_cons_of_error is hi] at h
      cases h
    | ok t =>
      rw [foldlM_cons_of_ok is hi] at h
      rw [List.cons_append, foldlM_cons_of_ok _ hi, ih h, foldlM_cons_of_ok is hi,
        List.append_assoc]

/-- A loop over one list and then another, taken apart. -/
theorem foldlM_append_eq_ok {step : σ → ι → Traced ε κ σ} {s s' : σ} {is js : List ι}
    (h : ((is ++ js).foldlM step s).result = .ok s') :
    ∃ t, (is.foldlM step s).result = .ok t ∧ (js.foldlM step t).result = .ok s' ∧
      ((is ++ js).foldlM step s).calls
        = (is.foldlM step s).calls ++ (js.foldlM step t).calls := by
  have hfirst : ∃ t, (is.foldlM step s).result = .ok t := by
    induction is generalizing s with
    | nil => exact ⟨s, rfl⟩
    | cons i is ih =>
      rw [List.cons_append, List.foldlM_cons, bind_result_eq_ok] at h
      obtain ⟨next, hnext, hrest⟩ := h
      obtain ⟨t, ht⟩ := ih hrest
      refine ⟨t, ?_⟩
      rw [foldlM_cons_of_ok is hnext]
      exact ht
  obtain ⟨t, ht⟩ := hfirst
  rw [foldlM_append_of_ok is js ht] at h ⊢
  exact ⟨t, ht, h, rfl⟩

/-- A property of call lists that is kept by putting them together, and holds of every step,
holds of the loop. -/
theorem foldlM_calls {step : σ → ι → Traced ε κ σ} {q : List κ → Prop} (hnil : q [])
    (happend : ∀ c d, q c → q d → q (c ++ d)) (is : List ι)
    (hstep : ∀ i ∈ is, ∀ s, q (step s i).calls) (s : σ) : q (is.foldlM step s).calls := by
  induction is generalizing s with
  | nil => exact hnil
  | cons i is ih =>
    have hi := hstep i List.mem_cons_self s
    have his := ih fun j hj => hstep j (List.mem_cons_of_mem i hj)
    cases hres : (step s i).result with
    | error e =>
      rw [foldlM_cons_of_error is hres]
      exact hi
    | ok t =>
      rw [foldlM_cons_of_ok is hres]
      exact happend _ _ hi (his t)

/-- **A call of a loop is made in one of its steps**, after the calls of the steps before it. -/
theorem foldlM_call {step : σ → ι → Traced ε κ σ} {is : List ι} {s : σ} {pre post : List κ} {x : κ}
    (h : (is.foldlM step s).calls = pre ++ x :: post) :
    ∃ js i ks t left right, is = js ++ i :: ks ∧ (js.foldlM step s).result = .ok t ∧
      (step t i).calls = left ++ x :: right ∧ pre = (js.foldlM step s).calls ++ left := by
  induction is generalizing s pre with
  | nil =>
    rw [List.foldlM_nil, pure_eq] at h
    simp at h
  | cons i is ih =>
    cases hi : (step s i).result with
    | error e =>
      rw [foldlM_cons_of_error is hi] at h
      exact ⟨[], i, is, s, pre, post, rfl, rfl, h, rfl⟩
    | ok t =>
      have later : ∀ mid, pre = (step s i).calls ++ mid →
          (is.foldlM step t).calls = mid ++ x :: post →
          ∃ js j ks u left right, i :: is = js ++ j :: ks ∧ (js.foldlM step s).result = .ok u ∧
            (step u j).calls = left ++ x :: right ∧ pre = (js.foldlM step s).calls ++ left := by
        intro mid hpre hmid
        obtain ⟨js, j, ks, u, left, right, hsplit, hjs, hj, hleft⟩ := ih hmid
        refine ⟨i :: js, j, ks, u, left, right, congrArg (i :: ·) hsplit, ?_, hj, ?_⟩
        · rw [foldlM_cons_of_ok js hi]
          exact hjs
        · rw [foldlM_cons_of_ok js hi, hpre, hleft, List.append_assoc]
      rw [foldlM_cons_of_ok is hi] at h
      rcases List.append_eq_append_iff.mp h with ⟨mid, hpre, hmid⟩ | ⟨mid, hstep, hmid⟩
      · exact later mid hpre hmid
      · cases mid with
        | nil =>
          rw [List.append_nil] at hstep
          exact later [] (hstep ▸ (List.append_nil _).symm) hmid.symm
        | cons y mid =>
          obtain ⟨rfl, -⟩ := List.cons.inj hmid
          exact ⟨[], i, is, s, pre, mid, rfl, rfl, hstep, rfl⟩

/-- The calls of a loop are those of its steps, in order, each from the state that the steps
before it reach.  When a step stops, the loop has taken only a first part of its list. -/
theorem foldlM_calls_eq_flatten (step : σ → ι → Traced ε κ σ) (is : List ι) (s : σ) :
    ∃ steps : List (σ × ι), steps.map Prod.snd <+: is ∧
      (∀ pre x post, steps = pre ++ x :: post →
        ((pre.map Prod.snd).foldlM step s).result = .ok x.1) ∧
      (is.foldlM step s).calls = (steps.map fun x => (step x.1 x.2).calls).flatten := by
  induction is generalizing s with
  | nil => exact ⟨[], List.prefix_rfl, by simp, rfl⟩
  | cons i is ih =>
    cases hi : (step s i).result with
    | error e =>
      refine ⟨[(s, i)], ⟨is, rfl⟩, ?_, ?_⟩
      · intro pre x post hsplit
        rw [List.singleton_eq_append_iff] at hsplit
        rcases hsplit with ⟨rfl, hx⟩ | ⟨-, hx⟩
        · cases hx
          rfl
        · cases hx
      · rw [foldlM_cons_of_error is hi]
        exact (List.append_nil _).symm
    | ok t =>
      obtain ⟨steps, hprefix, hreached, hcalls⟩ := ih t
      refine ⟨(s, i) :: steps, (List.prefix_cons_inj i).mpr hprefix, ?_, ?_⟩
      · intro pre x post hsplit
        cases pre with
        | nil =>
          cases hsplit
          rfl
        | cons y pre =>
          obtain ⟨rfl, hrest⟩ := List.cons.inj hsplit
          rw [List.map_cons, foldlM_cons_of_ok _ hi]
          exact hreached pre x post hrest
      · rw [foldlM_cons_of_ok is hi, hcalls]
        rfl

/-- A property that every step keeps is kept by the loop. -/
theorem foldlM_invariant {step : σ → ι → Traced ε κ σ} {p : σ → Prop} (is : List ι)
    (hstep : ∀ i ∈ is, ∀ s s', p s → (step s i).result = .ok s' → p s') {s s' : σ} (hs : p s)
    (h : (is.foldlM step s).result = .ok s') : p s' := by
  induction is generalizing s with
  | nil =>
    cases h
    exact hs
  | cons i is ih =>
    rw [List.foldlM_cons, bind_result_eq_ok] at h
    obtain ⟨t, ht, hrest⟩ := h
    exact ih (fun j hj => hstep j (List.mem_cons_of_mem i hj))
      (hstep i List.mem_cons_self s t hs ht) hrest

/-- A property of the state and of the steps still to be made. -/
theorem foldlM_remaining {step : σ → ι → Traced ε κ σ} {p : List ι → σ → Prop}
    (hstep : ∀ i is s s', p (i :: is) s → (step s i).result = .ok s' → p is s')
    (is js : List ι) {s s' : σ} (hs : p (is ++ js) s) (h : (is.foldlM step s).result = .ok s') :
    p js s' := by
  induction is generalizing s with
  | nil =>
    cases h
    exact hs
  | cons i is ih =>
    rw [List.foldlM_cons, bind_result_eq_ok] at h
    obtain ⟨t, ht, hrest⟩ := h
    exact ih (hstep i (is ++ js) s t hs ht) hrest

/-- **A loop stops in one of its steps**, and all steps before it return. -/
theorem foldlM_eq_error {step : σ → ι → Traced ε κ σ} {is : List ι} {s : σ} {e : ε} :
    (is.foldlM step s).result = .error e ↔ ∃ pre i post t, is = pre ++ i :: post ∧
      (pre.foldlM step s).result = .ok t ∧ (step t i).result = .error e := by
  constructor
  · intro h
    induction is generalizing s with
    | nil => cases h
    | cons i is ih =>
      cases hi : (step s i).result with
      | error e' =>
        rw [foldlM_cons_of_error is hi] at h
        cases h
        exact ⟨[], i, is, s, rfl, rfl, hi⟩
      | ok t =>
        rw [foldlM_cons_of_ok is hi] at h
        obtain ⟨pre, j, post, u, hsplit, hpre, hj⟩ := ih h
        refine ⟨i :: pre, j, post, u, congrArg (i :: ·) hsplit, ?_, hj⟩
        rw [foldlM_cons_of_ok pre hi]
        exact hpre
  · intro hstops
    obtain ⟨pre, i, post, t, rfl, hpre, hi⟩ := hstops
    rw [foldlM_append_of_ok pre _ hpre, foldlM_cons_of_error post hi]

/-! ### Stops -/

/-- What holds of the calls of a computation when it stops. -/
def StopsWith (q : ε → List κ → Prop) (x : Traced ε κ α) : Prop :=
  ∀ e, x.result = .error e → q e x.calls

theorem StopsWith.of_ok {q : ε → List κ → Prop} {x : Traced ε κ α} {a : α}
    (h : x.result = .ok a) : StopsWith q x := by
  intro e he
  rw [h] at he
  cases he

/-- **Sequence rule**, for a property of the last calls. -/
theorem StopsWith.bind {q : ε → List κ → Prop} (hq : ∀ e c d, q e d → q e (c ++ d))
    {x : Traced ε κ α} {f : α → Traced ε κ β} (hx : StopsWith q x)
    (hf : ∀ a, StopsWith q (f a)) : StopsWith q (x >>= f) := by
  intro e he
  cases hres : x.result with
  | ok a =>
    rw [bind_of_ok f hres] at he ⊢
    exact hq e _ _ (hf a e he)
  | error e' =>
    rw [bind_of_error f hres] at he ⊢
    cases he
    exact hx e hres

/-- **Loop rule.** -/
theorem StopsWith.foldlM {q : ε → List κ → Prop} (hq : ∀ e c d, q e d → q e (c ++ d))
    {step : σ → ι → Traced ε κ σ} (is : List ι) (hstep : ∀ i s, StopsWith q (step s i)) (s : σ) :
    StopsWith q (is.foldlM step s) := by
  induction is generalizing s with
  | nil => exact .of_ok rfl
  | cons i is ih =>
    rw [List.foldlM_cons]
    exact (hstep i s).bind hq ih

/-! ### Triples

`rely` is what the environment keeps to over all calls made so far; it must hold of every
earlier moment as well.  `guar` is what the computation keeps to, also when it stops.  The
pre- and postcondition speak of the calls made so far and the value at hand. -/

/-- Whatever was called before, a computation started under `pre` whose environment keeps to
`rely` keeps to `guar`, and returns only under `post`. -/
def Triple (rely guar : List κ → Prop) (pre : List κ → Prop) (x : Traced ε κ α)
    (post : List κ → α → Prop) : Prop :=
  ∀ c, pre c → rely (c ++ x.calls) →
    guar (c ++ x.calls) ∧ ∀ a, x.result = .ok a → post (c ++ x.calls) a

variable {rely guar pre : List κ → Prop} {x : Traced ε κ α} {post mid : List κ → α → Prop}

theorem Triple.pure' {a : α} (hg : ∀ c, pre c → guar c) (hp : ∀ c, pre c → post c a) :
    Triple rely guar pre (Pure.pure a : Traced ε κ α) post := by
  intro c hc _
  rw [pure_eq]
  refine ⟨by simpa using hg c hc, ?_⟩
  intro a' ha
  cases ha
  simpa using hp c hc

/-- A stop returns nothing. -/
theorem Triple.stop' {e : ε} (hg : ∀ c, pre c → guar c) :
    Triple rely guar pre (stop e : Traced ε κ α) post := by
  intro c hc _
  refine ⟨by simpa [stop] using hg c hc, ?_⟩
  intro a ha
  cases ha

/-- A weaker postcondition. -/
theorem Triple.imp {post' : List κ → α → Prop} (h : Triple rely guar pre x post)
    (hpost : ∀ c a, post c a → post' c a) : Triple rely guar pre x post' := by
  intro c hc hr
  obtain ⟨hguar, hok⟩ := h c hc hr
  exact ⟨hguar, fun a ha => hpost _ a (hok a ha)⟩

/-- One call adds itself. -/
theorem Triple.call' {k : κ} {q : List κ → Prop} (hg : ∀ c, q c → guar c)
    (hq : ∀ c, pre c → rely (c ++ [k]) → q (c ++ [k])) :
    Triple rely guar pre (call k : Traced ε κ Unit) (fun c _ => q c) := by
  intro c hc hr
  have h := hq c hc hr
  exact ⟨hg _ h, fun _ _ => h⟩

/-- **Sequence rule.** -/
theorem Triple.bind {f : α → Traced ε κ β} {post' : List κ → β → Prop}
    (hrely : ∀ c d, rely (c ++ d) → rely c) (hx : Triple rely guar pre x mid)
    (hf : ∀ a, Triple rely guar (fun c => mid c a) (f a) post') :
    Triple rely guar pre (x >>= f) post' := by
  intro c hc hr
  cases hres : x.result with
  | error e =>
    rw [bind_of_error f hres] at hr ⊢
    refine ⟨(hx c hc hr).1, ?_⟩
    intro b hb
    cases hb
  | ok a =>
    rw [bind_of_ok f hres] at hr ⊢
    rw [← List.append_assoc] at hr ⊢
    exact hf a _ ((hx c hc (hrely _ _ hr)).2 a hres) hr

/-- **Loop rule.**  An invariant that every step keeps, is kept by the loop. -/
theorem Triple.foldlM {p : List κ → σ → Prop} {step : σ → ι → Traced ε κ σ}
    (hrely : ∀ c d, rely (c ++ d) → rely c) (hguar : ∀ c s, p c s → guar c) (is : List ι)
    (hstep : ∀ i ∈ is, ∀ s, Triple rely guar (fun c => p c s) (step s i) p) (s : σ) :
    Triple rely guar (fun c => p c s) (is.foldlM step s) p := by
  induction is generalizing s with
  | nil => exact Triple.pure' (fun c => hguar c s) (fun _ => id)
  | cons i is ih =>
    rw [List.foldlM_cons]
    refine Triple.bind hrely (hstep i List.mem_cons_self s) ?_
    intro s'
    exact ih (fun j hj => hstep j (List.mem_cons_of_mem i hj)) s'

/-- **Loop rule**, for an invariant that also speaks of the steps still to be made. -/
theorem Triple.foldlM_remaining {p : List ι → List κ → σ → Prop} {step : σ → ι → Traced ε κ σ}
    (hrely : ∀ c d, rely (c ++ d) → rely c) (hguar : ∀ is c s, p is c s → guar c)
    (hstep : ∀ i is s, Triple rely guar (fun c => p (i :: is) c s) (step s i) (p is))
    (is : List ι) (s : σ) : Triple rely guar (fun c => p is c s) (is.foldlM step s) (p []) := by
  induction is generalizing s with
  | nil => exact Triple.pure' (fun c => hguar [] c s) (fun _ => id)
  | cons i is ih =>
    rw [List.foldlM_cons]
    exact Triple.bind hrely (hstep i is s) ih

end Traced
