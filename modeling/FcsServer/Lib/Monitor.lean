import FcsServer.Lib.Traced

/-!
# Monitors

A monitor watches the calls of a program one after the other and blocks at a call that is out of
turn.  It is an abstract model of the program: its states are what the program may do next.

* `run` — the state after a list of calls; `run_append`, `run_at` — at a call of the list;
* `run_history` — what holds of the calls so far and the state, at every moment;
* `Watched` — a program whose state matches that of the monitor; `Watched.after` — what comes next.
-/

/-- A partial, deterministic transition function on calls. -/
structure Monitor (σ κ : Type) where
  step : σ → κ → Option σ

namespace Monitor

variable {σ κ α : Type} (M : Monitor σ κ)

/-- The state after a list of calls; `none` when one of them is out of turn. -/
def run (s : σ) (calls : List κ) : Option σ := calls.foldlM M.step s

variable {M} {s t : σ} {calls : List κ}

@[simp] theorem run_nil : M.run s [] = some s := rfl

theorem run_cons {x : κ} (h : M.step s x = some t) : M.run s (x :: calls) = M.run t calls := by
  rw [run, List.foldlM_cons, h]
  rfl

theorem run_singleton {x : κ} : M.run s [x] = M.step s x := by
  rw [run, List.foldlM_cons]
  exact bind_pure (M.step s x)

theorem run_append (c d : List κ) : M.run s (c ++ d) = (M.run s c).bind fun t => M.run t d :=
  List.foldlM_append

theorem run_append_of_some {c d : List κ} (h : M.run s c = some t) :
    M.run s (c ++ d) = M.run t d := by
  rw [run_append, h, Option.bind_some]

/-- What is accepted is accepted call by call. -/
theorem run_at {pre post : List κ} {x : κ} (h : (M.run s (pre ++ x :: post)).isSome) :
    ∃ u v, M.run s pre = some u ∧ M.step u x = some v := by
  obtain ⟨t, ht⟩ := Option.isSome_iff_exists.mp h
  rw [run_append] at ht
  obtain ⟨u, hu, hrest⟩ := Option.bind_eq_some_iff.mp ht
  rw [run, List.foldlM_cons] at hrest
  obtain ⟨v, hv, -⟩ := Option.bind_eq_some_iff.mp hrest
  exact ⟨u, v, hu, hv⟩

/-- **A property of the history and the state** that every step keeps. -/
theorem run_history {p : List κ → σ → Prop} (hs : p [] s)
    (hstep : ∀ c u x v, p c u → M.step u x = some v → p (c ++ [x]) v)
    (h : M.run s calls = some t) : p calls t := by
  induction calls using List.reverseRecOn generalizing t with
  | nil =>
    cases h
    exact hs
  | append_singleton c x ih =>
    rw [run_append] at h
    obtain ⟨u, hu, hx⟩ := Option.bind_eq_some_iff.mp h
    rw [run_singleton] at hx
    exact hstep c u x t (ih hu) hx

variable (M s) in
/-- The calls so far are accepted, and the value at hand matches the state of the monitor. -/
def Watched (p : α → σ → Prop) (calls : List κ) (a : α) : Prop :=
  ∃ t, M.run s calls = some t ∧ p a t

theorem Watched.accepted {p : α → σ → Prop} {a : α} (h : Watched M s p calls a) :
    (M.run s calls).isSome := by
  obtain ⟨t, ht, -⟩ := h
  rw [ht]
  rfl

/-- A computation goes on from the state that the monitor is in. -/
theorem Watched.after {ε β : Type} {p : α → σ → Prop} {q : β → σ → Prop} {a : α}
    {x : Traced ε κ β} (h : Watched M s p calls a)
    (hx : ∀ t, p a t → ∃ u, M.run t x.calls = some u ∧ ∀ b, x.result = .ok b → q b u) :
    (M.run s (calls ++ x.calls)).isSome ∧
      ∀ b, x.result = .ok b → Watched M s q (calls ++ x.calls) b := by
  obtain ⟨t, ht, hp⟩ := h
  obtain ⟨u, hu, hq⟩ := hx t hp
  have hrun := (run_append_of_some ht).trans hu
  refine ⟨by rw [hrun]; rfl, ?_⟩
  intro b hb
  exact ⟨u, hrun, hq b hb⟩

end Monitor
