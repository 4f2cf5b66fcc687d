import FcsServer.EventPass

/-!
# Reads are of readable sockets

Accepted sockets block, so the one thread of the server must not read a socket without data.  The
pass changes the table it goes over: a slot may be filled after `poll` was called, and is visited
later in the same pass.

* `reads` — the descriptors read from, in order;
* `reads_visit` — a visit reads its own slot, when that slot is readable;
* `ReadsReported` — what is read in an iteration was reported by the `poll` of that iteration;
* `recv_only_reported` — every iteration of every run is so.
-/

namespace FcsServer

open TcpServer MessageHandler

namespace ReadReadiness

/-- The descriptors of the `recv` calls. -/
def reads (calls : List Call) : List ℤ :=
  calls.filterMap fun x => match x with
    | .recv fd _ => some fd
    | _ => none

theorem reads_append (c d : List Call) : reads (c ++ d) = reads c ++ reads d :=
  List.filterMap_append

theorem reads_of_deviceOnly {calls : List Call} (h : DeviceOnly calls) : reads calls = [] := by
  rw [reads, List.filterMap_eq_nil_iff]
  intro x hx
  have hdevice := h x hx
  cases x with
  | recv fd result => exact hdevice.elim
  | _ => rfl

instance (server : TcpServer) (i : Slot) : Decidable (Readable server i) :=
  inferInstanceAs (Decidable (_ ∧ _))

/-- Slot `i` was in use when `poll` was called, and `poll` reported data for it. -/
def Reported (server : TcpServer) (env : LoopEnv) (i : Slot) : Prop :=
  0 ≤ (server.sockets i).fd ∧ ((server.polled env.revents).sockets i).revents = pollIn

/-- The reads of an iteration, by slot and all together.  Whatever is in a slot when the pass
comes to it, it is read only for an event of the descriptor that was in it when `poll` was
called. -/
structure ReadsReported (server : TcpServer) (env : LoopEnv) : Prop where
  slot : ∀ i now, Reaches handleIncomingMessage server env i now →
    reads (now.visit handleIncomingMessage env.slot i).calls ≠ [] →
    reads (now.visit handleIncomingMessage env.slot i).calls = [(server.sockets i).fd] ∧
      Reported server env i
  pass : ∃ (rest : List Call) (slots : List Slot),
    (server.iteration handleIncomingMessage env).calls = server.pollCall env :: rest ∧
      reads rest = slots.map (fun i => (server.sockets i).fd) ∧
      slots.Sublist (List.finRange kNumberOfSockets) ∧ ∀ i ∈ slots, Reported server env i

variable {server now : TcpServer} {env : Slot → SlotEnv} {i : Slot}

/-- **A visit reads at most once**, from its own slot. -/
theorem reads_visit : reads (server.visit handleIncomingMessage env i).calls
    = if (server.sockets i).fd ≠ -1 ∧ Readable server i then [(server.sockets i).fd] else [] := by
  rcases visit_cases handleIncomingMessage env server i with
    ⟨hfree, hvisit⟩ | ⟨hused, calls, result, hvisit, hH⟩
  · rw [hvisit, if_neg (fun h => h.1 hfree)]
    rfl
  · rw [hvisit]
    cases hH with
    | accepted hlisten hfree => exact (if_neg fun h => h.2.1 hlisten.1).symm
    | tableFull hlisten hfull => exact (if_neg fun h => h.2.1 hlisten.1).symm
    | noData hread hresult hnone => exact (if_pos ⟨hused, hread⟩).symm
    | faulted hread hresult hne hcall => exact absurd hcall handled_ne_error
    | answered hread hresult hne hcall hresponse hsent =>
      rw [if_pos ⟨hused, hread⟩, ← List.singleton_append, reads_append, reads_append,
        reads_of_deviceOnly (handled_deviceOnly hcall)]
      rfl
    | brokenPipe hread hresult hne hcall hresponse hsent =>
      rw [if_pos ⟨hused, hread⟩, ← List.singleton_append, reads_append, reads_append,
        reads_of_deviceOnly (handled_deviceOnly hcall)]
      rfl
    | silent hread hresult hne hcall =>
      rw [if_pos ⟨hused, hread⟩, ← List.singleton_append, reads_append, reads_append,
        reads_of_deviceOnly (handled_deviceOnly hcall)]
      rfl
    | hungUp hevent =>
      have hnot := ne_pollIn_of_hungUp hevent
      exact (if_neg fun h => hnot h.2.2).symm
    | ignored hin hhup herr => exact (if_neg fun h => hin h.2.2).symm

/-- The visit to a slot of the pass: the descriptor and the event are those of the table that
`poll` left. -/
theorem reads_of_unvisited (env : Slot → SlotEnv) {is : List Slot} {revents : Slot → UInt16}
    (h : Unvisited (server.polled revents) (i :: is) now) :
    reads (now.visit handleIncomingMessage env i).calls = [] ∨
      reads (now.visit handleIncomingMessage env i).calls = [(server.sockets i).fd] ∧
        0 ≤ (server.sockets i).fd ∧ ((server.polled revents).sockets i).revents = pollIn := by
  rw [reads_visit]
  split
  · rename_i hread
    have hin : ((server.polled revents).sockets i).revents = pollIn :=
      (h.readable_iff.mp hread.2).2
    have hne : ((server.polled revents).sockets i).revents ≠ 0 := by
      rw [hin]
      decide
    refine Or.inr ⟨?_, polled_used hne, hin⟩
    rw [h.fd_of_reported hne]
  · exact Or.inl rfl

/-- The rest of the pass. -/
theorem reads_pass (env : Slot → SlotEnv) {revents : Slot → UInt16} (is : List Slot)
    (now : TcpServer) (h : Unvisited (server.polled revents) is now) :
    ∃ slots : List Slot, slots.Sublist is ∧
      reads (is.foldlM (visit handleIncomingMessage env) now).calls
        = slots.map (fun i => (server.sockets i).fd) ∧
      ∀ i ∈ slots, 0 ≤ (server.sockets i).fd ∧
        ((server.polled revents).sockets i).revents = pollIn := by
  induction is generalizing now with
  | nil => exact ⟨[], List.Sublist.slnil, rfl, fun i hi => absurd hi List.not_mem_nil⟩
  | cons i is ih =>
    have hrest : ∃ slots : List Slot, slots.Sublist is ∧
        reads ((i :: is).foldlM (visit handleIncomingMessage env) now).calls
          = reads (now.visit handleIncomingMessage env i).calls
            ++ slots.map (fun i => (server.sockets i).fd) ∧
        ∀ i ∈ slots, 0 ≤ (server.sockets i).fd ∧
          ((server.polled revents).sockets i).revents = pollIn := by
      cases hvisit : (now.visit handleIncomingMessage env i).result with
      | error stop =>
        refine ⟨[], List.nil_sublist is, ?_, fun i hi => absurd hi List.not_mem_nil⟩
        rw [Traced.foldlM_cons_of_error is hvisit]
        exact (List.append_nil _).symm
      | ok next =>
        obtain ⟨slots, hsub, hreads, hslots⟩ := ih next (h.step hvisit)
        refine ⟨slots, hsub, ?_, hslots⟩
        rw [Traced.foldlM_cons_of_ok is hvisit, reads_append, hreads]
    obtain ⟨slots, hsub, hreads, hslots⟩ := hrest
    rcases reads_of_unvisited env h with hnone | ⟨hone, hreported⟩
    · refine ⟨slots, hsub.cons i, ?_, hslots⟩
      rw [hreads, hnone, List.nil_append]
    · refine ⟨i :: slots, hsub.cons_cons i, ?_, ?_⟩
      · rw [hreads, hone]
        rfl
      · intro j hj
        rcases List.mem_cons.mp hj with rfl | hj
        · exact hreported
        · exact hslots j hj

theorem reads_dropUnusedConnections (server : TcpServer) :
    reads server.dropUnusedConnections.calls = [] := by
  refine Traced.foldlM_calls (q := fun calls => reads calls = []) rfl ?_ clientSlots ?_ server
  · intro c d hc hd
    rw [reads_append, hc, hd]
    rfl
  · intro i _ s
    rcases dropIfUsed_cases s i with ⟨-, hdrop⟩ | ⟨-, hdrop⟩
    · rw [hdrop]
      rfl
    · rw [hdrop]
      rfl

/-- **One iteration**, from any state and with any answers. -/
theorem iteration_readsReported (server : TcpServer) (env : LoopEnv) :
    ReadsReported server env := by
  constructor
  · intro i now hreaches hsome
    obtain ⟨is, hnow⟩ := hreaches.unvisited
    exact (reads_of_unvisited env.slot hnow).resolve_left hsome
  · rw [iteration, Traced.call_bind]
    split
    · exact ⟨_, [], rfl, rfl, List.nil_sublist _, fun i hi => absurd hi List.not_mem_nil⟩
    · split
      · refine ⟨_, [], rfl, ?_, List.nil_sublist _, fun i hi => absurd hi List.not_mem_nil⟩
        exact reads_dropUnusedConnections _
      · obtain ⟨slots, hsub, hreads, hslots⟩ :=
          reads_pass env.slot _ _ (.refl (server.polled env.revents))
        exact ⟨_, slots, rfl, hreads, hsub, hslots⟩

/-- **The loop never reads a socket that was not reported readable.**  The calls of a run, of any
length and from any state, are those of its iterations; in each of them every `recv` is on the
descriptor that its slot held when the `poll` of that iteration reported data for it, and no slot
is read twice. -/
theorem recv_only_reported (server : TcpServer) (envs : List LoopEnv) :
    ∃ iterations : List (TcpServer × LoopEnv), iterations.map Prod.snd <+: envs ∧
      (∀ pre x post, iterations = pre ++ x :: post →
        (server.loop handleIncomingMessage (pre.map Prod.snd)).result = .ok x.1) ∧
      (server.loop handleIncomingMessage envs).calls = (iterations.map fun x =>
        (x.1.iteration handleIncomingMessage x.2).calls).flatten ∧
      ∀ x ∈ iterations, ReadsReported x.1 x.2 := by
  obtain ⟨iterations, hprefix, hreached, hcalls⟩ :=
    Traced.foldlM_calls_eq_flatten (iteration handleIncomingMessage) envs server
  exact ⟨iterations, hprefix, hreached, hcalls, fun x _ => iteration_readsReported x.1 x.2⟩

end ReadReadiness

end FcsServer
