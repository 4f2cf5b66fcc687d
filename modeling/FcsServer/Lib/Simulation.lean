import FcsServer.Lib.Traced

/-!
# Simulation of computations that make calls

Two computations simulate each other when their calls, each seen through a partial map, are the
same, and both end alike.  The maps hide the steps that only one of them has, or that are not to be
told apart.

* `EndsAlike` — both return related values, or both stop for the same reason;
* `Simulates` — the relation; `Simulates.bind`, `Simulates.foldlM` — its rules;
* `Simulates.hidden` — a step of the first computation that is not seen;
* `Simulates.refl` — a computation simulates itself.
-/

namespace Traced

variable {ε ε' κ κ' ν α α' β β' σ σ' ι ι' : Type}

/-- Both computations return, or both stop. -/
inductive EndsAlike (r : α → α' → Prop) : Except ε α → Except ε α' → Prop where
  | ok {a : α} {a' : α'} (h : r a a') : EndsAlike r (.ok a) (.ok a')
  | error (e : ε) : EndsAlike r (.error e) (.error e)

theorem EndsAlike.mono {r q : α → α' → Prop} (hrq : ∀ a a', r a a' → q a a') {x : Except ε α}
    {y : Except ε α'} (h : EndsAlike r x y) : EndsAlike q x y := by
  cases h with
  | ok h => exact .ok (hrq _ _ h)
  | error e => exact .error e

theorem EndsAlike.refl (x : Except ε α) : EndsAlike Eq x x := by
  cases x with
  | ok a => exact .ok rfl
  | error e => exact .error e

theorem EndsAlike.eq {x y : Except ε α} (h : EndsAlike Eq x y) : x = y := by
  cases h with
  | ok h => rw [h]
  | error e => rfl

/-- What the first one returns is related to what the second one returns. -/
theorem EndsAlike.exists_ok {r : α → α' → Prop} {x : Except ε α} {y : Except ε α'} {a : α}
    (h : EndsAlike r x y) (hx : x = .ok a) : ∃ a', y = .ok a' ∧ r a a' := by
  cases h with
  | ok h =>
    cases hx
    exact ⟨_, rfl, h⟩
  | error e => cases hx

theorem EndsAlike.eq_error {r : α → α' → Prop} {x : Except ε α} {y : Except ε α'} {e : ε}
    (h : EndsAlike r x y) (hx : x = .error e) : y = .error e := by
  cases h with
  | ok h => cases hx
  | error e' =>
    cases hx
    rfl

theorem EndsAlike.mapError {r : α → α' → Prop} {x : Except ε' α} {y : Except ε' α'} (f : ε' → ε)
    (h : EndsAlike r x y) : EndsAlike r (x.mapError f) (y.mapError f) := by
  cases h with
  | ok h => exact .ok h
  | error e => exact .error (f e)

/-- What `f` shows of the calls of `x` is what `g` shows of those of `y`, and both end alike. -/
structure Simulates (f : κ → Option ν) (g : κ' → Option ν) (r : α → α' → Prop)
    (x : Traced ε κ α) (y : Traced ε κ' α') : Prop where
  calls : x.calls.filterMap f = y.calls.filterMap g
  result : EndsAlike r x.result y.result

namespace Simulates

variable {f : κ → Option ν} {g : κ' → Option ν} {r : α → α' → Prop} {q : β → β' → Prop}
  {x : Traced ε κ α} {y : Traced ε κ' α'}

/-- All calls of the second computation are seen. -/
theorem calls_eq {f : κ → Option κ'} (h : Simulates f some r x y) :
    x.calls.filterMap f = y.calls := by
  rw [h.calls, List.filterMap_some]

theorem mono {r' : α → α' → Prop} (h : Simulates f g r x y) (hr : ∀ a a', r a a' → r' a a') :
    Simulates f g r' x y :=
  ⟨h.calls, h.result.mono hr⟩

theorem refl (f : κ → Option ν) (x : Traced ε κ α) : Simulates f f Eq x x := ⟨rfl, .refl _⟩

theorem pure' {a : α} {a' : α'} (h : r a a') :
    Simulates f g r (Pure.pure a : Traced ε κ α) (Pure.pure a') :=
  ⟨rfl, .ok h⟩

theorem stop' (e : ε) : Simulates f g r (stop e : Traced ε κ α) (stop e : Traced ε κ' α') :=
  ⟨rfl, .error e⟩

/-- Computations that make no calls. -/
theorem ofExcept' (h : ε' → ε) {z : Except ε' α} {z' : Except ε' α'} (hz : EndsAlike r z z') :
    Simulates f g r (ofExcept h z : Traced ε κ α) (ofExcept h z' : Traced ε κ' α') :=
  ⟨rfl, hz.mapError h⟩

/-- Two calls that look the same. -/
theorem call' {k : κ} {k' : κ'} (h : f k = g k') :
    Simulates f g (fun _ _ => True) (call k : Traced ε κ Unit) (call k') := by
  refine ⟨?_, .ok trivial⟩
  show [k].filterMap f = [k'].filterMap g
  rw [List.filterMap_cons, List.filterMap_cons, h]
  rfl

/-- **Sequence rule.** -/
theorem bind {s : α → Traced ε κ β} {s' : α' → Traced ε κ' β'} (hx : Simulates f g r x y)
    (hs : ∀ a a', r a a' → Simulates f g q (s a) (s' a')) :
    Simulates f g q (x >>= s) (y >>= s') := by
  obtain ⟨hcalls, hresult⟩ := hx
  cases hxr : x.result with
  | ok a =>
    obtain ⟨a', hyr, ha⟩ := hresult.exists_ok hxr
    obtain ⟨hscalls, hsresult⟩ := hs a a' ha
    rw [bind_of_ok s hxr, bind_of_ok s' hyr]
    refine ⟨?_, hsresult⟩
    rw [List.filterMap_append, List.filterMap_append, hcalls, hscalls]
  | error e =>
    have hyr := hresult.eq_error hxr
    rw [bind_of_error s hxr, bind_of_error s' hyr]
    exact ⟨hcalls, .error e⟩

/-- A first part that returns, with nothing to be seen, before the rest. -/
theorem bind_pure {a : α} {s : α → Traced ε κ β} {z : Traced ε κ' β'}
    (hx : Simulates f g Eq x (Pure.pure a)) (hs : Simulates f g q (s a) z) :
    Simulates f g q (x >>= s) z := by
  have hresult : x.result = .ok a := hx.result.eq
  rw [bind_of_ok s hresult]
  refine ⟨?_, hs.result⟩
  rw [List.filterMap_append, hx.calls]
  exact hs.calls

/-- A call of the first computation that is not seen, before the rest. -/
theorem hidden {k : κ} {s : Unit → Traced ε κ α} (hk : f k = none)
    (h : Simulates f g r (s ()) y) : Simulates f g r (call k >>= s) y := by
  rw [call_bind]
  refine ⟨?_, h.result⟩
  rw [List.filterMap_cons, hk]
  exact h.calls

/-- **Loop rule**, over two lists of steps. -/
theorem foldlM₂ {r : σ → σ' → Prop} {p : ι → ι' → Prop} {step : σ → ι → Traced ε κ σ}
    {step' : σ' → ι' → Traced ε κ' σ'} {is : List ι} {is' : List ι'} (his : List.Forall₂ p is is')
    (hstep : ∀ i i', p i i' → ∀ s s', r s s' → Simulates f g r (step s i) (step' s' i')) {s : σ}
    {s' : σ'} (h : r s s') : Simulates f g r (is.foldlM step s) (is'.foldlM step' s') := by
  induction his generalizing s s' with
  | nil => exact pure' h
  | cons hi _ ih =>
    rw [List.foldlM_cons, List.foldlM_cons]
    refine (hstep _ _ hi s s' h).bind ?_
    intro t t' ht
    exact ih ht

/-- **Loop rule.** -/
theorem foldlM {r : σ → σ' → Prop} {step : σ → ι → Traced ε κ σ} {step' : σ' → ι → Traced ε κ' σ'}
    (is : List ι) (hstep : ∀ i s s', r s s' → Simulates f g r (step s i) (step' s' i)) {s : σ}
    {s' : σ'} (h : r s s') : Simulates f g r (is.foldlM step s) (is.foldlM step' s') := by
  have his : List.Forall₂ Eq is is := List.forall₂_eq_eq_eq ▸ rfl
  refine foldlM₂ his ?_ h
  intro i i' heq
  cases heq
  exact hstep i

end Simulates

end Traced
