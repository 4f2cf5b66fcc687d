import FcsServer.SlotEvents

/-!
# The event pass

The slots are visited in order, the listening socket first.  A slot without an event is left
alone, so a pass in which no client reports anything is the visit to slot 0.

* `visit_of_not_handled` / `foldlM_of_not_handled` — slots without an event, or with one that the
  handler has no branch for;
* `Leaves` / `run_invariant` — the updates of the table, and the rule for invariants of runs;
* `Unvisited` / `Reaches` — what the pass has not changed in the slots that it comes to;
* `loop_calls` — the rule for properties of the calls of a run;
* `ComesTo` / `loop_call` — the visit in which a call of a run is made;
* `iteration_single` — an iteration in which one slot reports an event;
* `iteration_timeout`, `iteration_accepts`, `iteration_spins` — the iterations in which no client
  reports an event.
-/

namespace FcsServer

namespace TcpServer

variable {onMessage : OnMessage} {server : TcpServer} {i : Slot}

/-- The loop over the table starts with the listening socket. -/
theorem finRange_eq : List.finRange kNumberOfSockets = serverSlot :: clientSlots := by
  decide +kernel

/-! ### Slots that are left alone -/

/-- The values of `revents` that the event handler has a branch for.  The bits come in
combinations, but the handler compares the whole value. -/
def Handled (revents : UInt16) : Prop :=
  revents = pollIn ∨ revents = pollHup ∨ revents = pollErr

instance (revents : UInt16) : Decidable (Handled revents) :=
  inferInstanceAs (Decidable (_ ∨ _ ∨ _))

theorem not_handled_zero : ¬ Handled 0 := by decide

theorem visit_of_free (env : Slot → SlotEnv) (h : (server.sockets i).fd = -1) :
    server.visit onMessage env i = ⟨[], .ok server⟩ := by
  simp [visit, h, Traced.pure_eq]

/-- No event, or a combination of events. -/
theorem visit_of_not_handled (env : Slot → SlotEnv) (h : ¬ Handled (server.sockets i).revents) :
    server.visit onMessage env i = ⟨[], .ok server⟩ := by
  by_cases hfree : (server.sockets i).fd = -1
  · exact visit_of_free env hfree
  · simp only [Handled, not_or] at h
    simp [visit, handleEventIfAny, hfree, h.1, h.2.1, h.2.2, Traced.pure_eq]

/-- A slot that hung up is closed, whichever slot it is. -/
theorem visit_of_hungUp (env : Slot → SlotEnv) (hused : (server.sockets i).fd ≠ -1)
    (hevent : (server.sockets i).revents = pollHup ∨ (server.sockets i).revents = pollErr) :
    server.visit onMessage env i
      = ⟨[.close (server.sockets i).fd], .ok (server.setFd i (-1))⟩ := by
  have hin := ne_pollIn_of_hungUp hevent
  rw [visit, if_pos hused, handleEventIfAny]
  dsimp only
  rw [if_neg (fun h => hin h.2), if_neg hin, if_pos hevent, closeConnectionAndEnableForReuse_eq]

/-- A stretch of the pass without handled events changes nothing. -/
theorem foldlM_of_not_handled (env : Slot → SlotEnv) (is : List Slot)
    (h : ∀ i ∈ is, ¬ Handled (server.sockets i).revents) :
    is.foldlM (visit onMessage env) server = ⟨[], .ok server⟩ := by
  induction is with
  | nil => rfl
  | cons i is ih =>
    have hi : server.visit onMessage env i = ⟨[], .ok server⟩ :=
      visit_of_not_handled env (h i List.mem_cons_self)
    rw [List.foldlM_cons, hi, Traced.mk_nil_bind]
    exact ih fun j hj => h j (List.mem_cons_of_mem i hj)

/-! ### What a visit leaves behind -/

/-- The states a visit to slot `i` can leave: the buffer changes, a connection is accepted, or
the slot is closed. -/
inductive Leaves (server : TcpServer) (i : Slot) : TcpServer → Prop where
  | same : Leaves server i server
  | buffer (buffer : List UInt8) : Leaves server i (server.setBuffer buffer)
  | accepted (j : Slot) (fd : ℤ) (hlisten : Listens server i) (hfree : server.freeSlot = some j) :
    Leaves server i (server.setFd j fd)
  | closed (buffer : List UInt8) : Leaves server i ((server.setBuffer buffer).setFd i (-1))

theorem visit_leaves {env : Slot → SlotEnv} {server' : TcpServer}
    (h : (server.visit onMessage env i).result = .ok server') : Leaves server i server' := by
  rcases visit_cases onMessage env server i with ⟨-, hvisit⟩ | ⟨-, calls, result, hvisit, hH⟩
  · rw [hvisit] at h
    cases h
    exact .same
  · rw [hvisit] at h
    cases h
    cases hH with
    | accepted hlisten hfree => exact .accepted _ _ hlisten hfree
    | tableFull hlisten hfull => exact .same
    | noData hread hresult hnone => exact .closed _
    | answered hread hresult hne hcall hresponse hsent => exact .buffer _
    | silent hread hresult hne hcall => exact .closed _
    | hungUp hevent => exact .closed server.messageBuffer
    | ignored hin hhup herr => exact .same

theorem dropIfUsed_leaves {server' : TcpServer} (h : (server.dropIfUsed i).result = .ok server') :
    Leaves server i server' := by
  rcases dropIfUsed_cases server i with ⟨-, hdrop⟩ | ⟨-, hdrop⟩
  · rw [hdrop] at h
    cases h
    exact .same
  · rw [hdrop] at h
    cases h
    exact .closed server.messageBuffer

/-- The pass reads the events; only `poll` writes them. -/
theorem visit_revents {env : Slot → SlotEnv} {server' : TcpServer}
    (h : (server.visit onMessage env i).result = .ok server') (j : Slot) :
    (server'.sockets j).revents = (server.sockets j).revents := by
  cases visit_leaves h with
  | same => rfl
  | buffer buffer => rfl
  | accepted k fd hlisten hfree => exact setFd_revents ..
  | closed buffer => exact setFd_revents ..

/-! ### Dropping the connections -/

/-- The loop of `dropUnusedConnections` frees the slots it goes over, and no other. -/
theorem foldlM_dropIfUsed (server : TcpServer) (is : List Slot) :
    ∃ server', (is.foldlM dropIfUsed server).result = .ok server' ∧
      ∀ i, (server'.sockets i).fd = if i ∈ is then -1 else (server.sockets i).fd := by
  induction is generalizing server with
  | nil => exact ⟨server, rfl, fun i => (if_neg List.not_mem_nil).symm⟩
  | cons j is ih =>
    have hdrop : ∃ next, (server.dropIfUsed j).result = .ok next ∧
        ∀ i, (next.sockets i).fd = if i = j then -1 else (server.sockets i).fd := by
      rcases dropIfUsed_cases server j with ⟨hfree, hdrop⟩ | ⟨-, hdrop⟩
      · refine ⟨server, congrArg Traced.result hdrop, ?_⟩
        intro i
        split
        · rename_i hij
          rw [hij]
          exact hfree
        · rfl
      · refine ⟨server.setFd j (-1), congrArg Traced.result hdrop, ?_⟩
        intro i
        rw [setFd_fd]
    obtain ⟨next, hnext, hfd⟩ := hdrop
    obtain ⟨server', hrest, hfd'⟩ := ih next
    refine ⟨server', ?_, ?_⟩
    · rw [Traced.foldlM_cons_of_ok is hnext]
      exact hrest
    · intro i
      rw [hfd', hfd]
      by_cases hi : i ∈ is
      · rw [if_pos hi, if_pos (List.mem_cons_of_mem j hi)]
      · rw [if_neg hi]
        by_cases hij : i = j
        · rw [if_pos hij, if_pos (List.mem_cons.mpr (Or.inl hij))]
        · rw [if_neg hij, if_neg (fun h => (List.mem_cons.mp h).elim hij hi)]

/-! ### The table during the pass -/

/-- What a pass over the table of `start` has not changed, with the slots `is` still to be
visited: the events of every slot, and the descriptors of those slots that were in use. -/
structure Unvisited (start : TcpServer) (is : List Slot) (server : TcpServer) : Prop where
  nodup : is.Nodup
  revents : ∀ i, (server.sockets i).revents = (start.sockets i).revents
  listener : server.serverSocketFd = start.serverSocketFd
  fd : ∀ i ∈ is, (start.sockets i).fd ≠ -1 → (server.sockets i).fd = (start.sockets i).fd

/-- An accepted connection goes to a slot that was free, and only the visited slot is closed. -/
theorem Unvisited.step {start server' : TcpServer} {env : Slot → SlotEnv} {is : List Slot}
    (h : Unvisited start (i :: is) server)
    (hvisit : (server.visit onMessage env i).result = .ok server') :
    Unvisited start is server' := by
  obtain ⟨hi, hnodup⟩ := List.nodup_cons.mp h.nodup
  have hfd : ∀ j ∈ is, (start.sockets j).fd ≠ -1 →
      (server.sockets j).fd = (start.sockets j).fd :=
    fun j hj => h.fd j (List.mem_cons_of_mem i hj)
  have hleaves := visit_leaves hvisit
  refine ⟨hnodup, ?_, ?_, ?_⟩
  · intro j
    rw [visit_revents hvisit, h.revents]
  · cases hleaves with
    | same => exact h.listener
    | buffer buffer => exact h.listener
    | accepted k fd hlisten hfree => exact h.listener
    | closed buffer => exact h.listener
  · intro j hj hused
    cases hleaves with
    | same => exact hfd j hj hused
    | buffer buffer => exact hfd j hj hused
    | accepted k fd hlisten hfree =>
      have hjk : j ≠ k := by
        intro hjk
        have hfree := (freeSlot_eq_some hfree).2
        rw [← hjk, hfd j hj hused] at hfree
        exact hused hfree
      rw [setFd_fd_of_ne _ _ hjk]
      exact hfd j hj hused
    | closed buffer =>
      have hji : j ≠ i := by
        intro hji
        rw [hji] at hj
        exact hi hj
      rw [setFd_fd_of_ne _ _ hji]
      exact hfd j hj hused

theorem Unvisited.refl (server : TcpServer) :
    Unvisited server (List.finRange kNumberOfSockets) server :=
  ⟨List.nodup_finRange _, fun _ => rfl, rfl, fun _ _ _ => rfl⟩

/-- The table when the pass has come to slot `i`. -/
theorem unvisited_of_pass {env : Slot → SlotEnv} {server' : TcpServer} {pre post : List Slot}
    (hsplit : List.finRange kNumberOfSockets = pre ++ post)
    (h : (pre.foldlM (visit onMessage env) server).result = .ok server') :
    Unvisited server post server' := by
  refine Traced.foldlM_remaining (fun i is s s' hs hs' => hs.step hs') pre post ?_ h
  rw [← hsplit]
  exact .refl server

/-- The pass of an iteration comes to slot `i` in the state `now`. -/
def Reaches (onMessage : OnMessage) (server : TcpServer) (env : LoopEnv) (i : Slot)
    (now : TcpServer) : Prop :=
  0 < env.numberOfEvents ∧ ∃ pre post, List.finRange kNumberOfSockets = pre ++ i :: post ∧
    (pre.foldlM (visit onMessage env.slot) (server.polled env.revents)).result = .ok now

theorem Reaches.unvisited {env : LoopEnv} {now : TcpServer}
    (h : Reaches onMessage server env i now) :
    ∃ is, Unvisited (server.polled env.revents) (i :: is) now := by
  obtain ⟨-, pre, post, hsplit, hpre⟩ := h
  exact ⟨post, unvisited_of_pass hsplit hpre⟩

/-- `poll` reports events of open descriptors only. -/
theorem polled_used {revents : Slot → UInt16}
    (h : ((server.polled revents).sockets i).revents ≠ 0) : 0 ≤ (server.sockets i).fd := by
  by_contra hfd
  apply h
  rw [polled_revents, if_pos (by omega)]

/-- A slot that is still to be visited has the descriptor for which its event was reported. -/
theorem Unvisited.fd_of_reported {revents : Slot → UInt16} {is : List Slot} {now : TcpServer}
    (h : Unvisited (server.polled revents) (i :: is) now)
    (hevent : ((server.polled revents).sockets i).revents ≠ 0) :
    (now.sockets i).fd = (server.sockets i).fd := by
  have hopen := polled_used hevent
  rw [h.fd i List.mem_cons_self (by rw [polled_fd]; omega), polled_fd]

theorem Unvisited.readable_iff {revents : Slot → UInt16} {is : List Slot} {now : TcpServer}
    (h : Unvisited (server.polled revents) (i :: is) now) :
    Readable now i ↔ Readable (server.polled revents) i := by
  rw [Readable, Readable, h.revents i, h.listener, polled_fd]
  constructor
  · intro hread
    rw [← h.fd_of_reported (by rw [hread.2]; decide)]
    exact hread
  · intro hread
    rw [h.fd_of_reported (by rw [hread.2]; decide)]
    exact hread

/-- A property of the table that is kept by the four updates is kept by the loop. -/
theorem loop_invariant {p : TcpServer → Prop} (hpolled : ∀ s revents, p s → p (s.polled revents))
    (hbuffer : ∀ s buffer, p s → p (s.setBuffer buffer))
    (hclosed : ∀ s i, p s → p (s.setFd i (-1)))
    (haccepted : ∀ s j fd, j ≠ serverSlot → p s → p (s.setFd j fd))
    {start : TcpServer} {envs : List LoopEnv} (hstart : p start)
    (h : (start.loop onMessage envs).result = .ok server) : p server := by
  have hleaves : ∀ s i s', p s → Leaves s i s' → p s' := by
    intro s i s' hs hs'
    cases hs' with
    | same => exact hs
    | buffer buffer => exact hbuffer s buffer hs
    | accepted j fd hlisten hfree => exact haccepted s j fd (freeSlot_eq_some hfree).1 hs
    | closed buffer => exact hclosed _ i (hbuffer s buffer hs)
  refine Traced.foldlM_invariant envs ?_ hstart h
  intro env _ s s' hs hiter
  rw [iteration, Traced.call_bind] at hiter
  split at hiter
  · cases hiter
  · split at hiter
    · refine Traced.foldlM_invariant _ ?_ (hpolled s env.revents hs) hiter
      exact fun i _ t t' ht ht' => hleaves t i t' ht (dropIfUsed_leaves ht')
    · refine Traced.foldlM_invariant _ ?_ (hpolled s env.revents hs) hiter
      exact fun i _ t t' ht ht' => hleaves t i t' ht (visit_leaves ht')

/-- **Invariants of runs.**  A property of the table that holds after `setup` and is kept by the
four updates holds whenever the loop is entered. -/
theorem run_invariant {p : TcpServer → Prop}
    (hstart : ∀ fd, fd ≠ -1 → p (clearSockets { serverSocketFd := fd }))
    (hpolled : ∀ s revents, p s → p (s.polled revents))
    (hbuffer : ∀ s buffer, p s → p (s.setBuffer buffer))
    (hclosed : ∀ s i, p s → p (s.setFd i (-1)))
    (haccepted : ∀ s j fd, j ≠ serverSlot → p s → p (s.setFd j fd))
    {setupEnv : SetupEnv} {envs : List LoopEnv}
    (h : (run onMessage setupEnv envs).result = .ok server) : p server := by
  rw [run, Traced.bind_result_eq_ok] at h
  obtain ⟨started, hsetup, hloop⟩ := h
  refine loop_invariant hpolled hbuffer hclosed haccepted ?_ hloop
  rw [setup_eq] at hsetup
  split at hsetup
  · cases hsetup
  · rename_i hsocket
    split at hsetup
    · cases hsetup
    · split at hsetup
      · cases hsetup
      · cases hsetup
        exact hstart _ hsocket

/-- A longer run goes on from where the shorter one is. -/
theorem run_append {setupEnv : SetupEnv} {envs : List LoopEnv}
    (h : (run onMessage setupEnv envs).result = .ok server) (rest : List LoopEnv) :
    run onMessage setupEnv (envs ++ rest)
      = ⟨(run onMessage setupEnv envs).calls ++ (server.loop onMessage rest).calls,
          (server.loop onMessage rest).result⟩ := by
  obtain ⟨started, hsetup, hloop⟩ := Traced.bind_result_eq_ok.mp h
  have hfirst : run onMessage setupEnv envs
      = ⟨(setup setupEnv {}).calls ++ (started.loop onMessage envs).calls, .ok server⟩ := by
    rw [run, Traced.bind_of_ok _ hsetup, hloop]
  rw [hfirst, run, Traced.bind_of_ok _ hsetup, loop, Traced.foldlM_append_of_ok envs rest hloop,
    List.append_assoc]
  rfl

/-- The calls of the iteration that comes next. -/
theorem run_snoc_calls {setupEnv : SetupEnv} {envs : List LoopEnv}
    (h : (run onMessage setupEnv envs).result = .ok server) (env : LoopEnv)
    (rest : List LoopEnv) :
    ∃ d, (run onMessage setupEnv (envs ++ env :: rest)).calls
      = (run onMessage setupEnv envs).calls ++ (server.iteration onMessage env).calls ++ d := by
  rw [run_append h, loop]
  cases hnext : (server.iteration onMessage env).result with
  | error stop =>
    rw [Traced.foldlM_cons_of_error rest hnext]
    exact ⟨[], (List.append_nil _).symm⟩
  | ok next =>
    rw [Traced.foldlM_cons_of_ok rest hnext]
    exact ⟨_, (List.append_assoc _ _ _).symm⟩

/-- Slot 0 holds the listening socket or nothing. -/
theorem serverSlot_of_run {setupEnv : SetupEnv} {envs : List LoopEnv}
    (h : (run onMessage setupEnv envs).result = .ok server) :
    (server.sockets serverSlot).fd = server.serverSocketFd ∨
      (server.sockets serverSlot).fd = -1 := by
  refine run_invariant (p := fun s => (s.sockets serverSlot).fd = s.serverSocketFd ∨
    (s.sockets serverSlot).fd = -1) ?_ ?_ ?_ ?_ ?_ h
  · intro fd _
    rw [clearSockets_fd, if_pos rfl]
    exact Or.inl rfl
  · intro s revents hs
    rw [polled_fd]
    exact hs
  · exact fun s buffer hs => hs
  · intro s i hs
    rw [setFd_fd, setFd_serverSocketFd]
    split
    · exact Or.inr rfl
    · exact hs
  · intro s j fd hj hs
    rw [setFd_fd_of_ne _ _ hj.symm]
    exact hs

/-- Slot 0 is polled for `POLLIN`, whatever happens to it. -/
theorem events_of_run {setupEnv : SetupEnv} {envs : List LoopEnv}
    (h : (run onMessage setupEnv envs).result = .ok server) :
    (server.sockets serverSlot).events = pollIn := by
  refine run_invariant (p := fun s => (s.sockets serverSlot).events = pollIn) ?_ ?_ ?_ ?_ ?_ h
  · exact fun fd _ => rfl
  · intro s revents hs
    rw [polled_events_serverSlot]
    exact hs
  · exact fun s buffer hs => hs
  · intro s i hs
    rw [setFd_events]
    exact hs
  · intro s j fd _ hs
    rw [setFd_events]
    exact hs

/-! ### The calls of an iteration -/

/-- The record of a call to `poll`. -/
def pollCall (server : TcpServer) (env : LoopEnv) : Call :=
  .poll (server.polled env.revents).fds (server.polled env.revents).allEvents
    (server.polled env.revents).allRevents env.numberOfEvents

/-- A property of call lists that is kept by putting them together, and holds of the steps of
the event loop, holds of all its calls. -/
theorem loop_calls {p : List Call → Prop} (hnil : p []) (happend : ∀ c d, p c → p d → p (c ++ d))
    {envs : List LoopEnv} (hpoll : ∀ s env, p [pollCall s env])
    (hdrop : ∀ s i, p (dropIfUsed s i).calls)
    (hvisit : ∀ env ∈ envs, ∀ s i, p (visit onMessage env.slot s i).calls) (server : TcpServer) :
    p (server.loop onMessage envs).calls := by
  refine Traced.foldlM_calls hnil happend envs ?_ server
  intro env henv s
  rw [iteration, Traced.call_bind]
  refine happend [_] _ (hpoll s env) ?_
  split
  · exact hnil
  · split
    · exact Traced.foldlM_calls hnil happend clientSlots (fun i _ t => hdrop t i) _
    · exact Traced.foldlM_calls hnil happend _ (fun i _ t => hvisit env henv t i) _

/-- The loop comes to slot `i` in the state `now`, in the iteration with the answers `env` and after
the calls `sofar`. -/
def ComesTo (onMessage : OnMessage) (server : TcpServer) (envs : List LoopEnv) (env : LoopEnv)
    (i : Slot) (now : TcpServer) (sofar : List Call) : Prop :=
  ∃ earlier later before passed rest,
    envs = earlier ++ env :: later ∧ (server.loop onMessage earlier).result = .ok before ∧
    0 < env.numberOfEvents ∧ List.finRange kNumberOfSockets = passed ++ i :: rest ∧
    (passed.foldlM (visit onMessage env.slot) (before.polled env.revents)).result = .ok now ∧
    sofar = (server.loop onMessage earlier).calls ++ before.pollCall env ::
      (passed.foldlM (visit onMessage env.slot) (before.polled env.revents)).calls

theorem ComesTo.mem {envs : List LoopEnv} {env : LoopEnv} {now : TcpServer} {sofar : List Call}
    (h : ComesTo onMessage server envs env i now sofar) : env ∈ envs := by
  obtain ⟨earlier, later, before, passed, rest, rfl, -⟩ := h
  exact List.mem_append_right _ List.mem_cons_self

/-- **A call of the loop is made in a visit**, if it is no `poll` and closes no dropped
connection. -/
theorem loop_call {envs : List LoopEnv} {pre post : List Call} {x : Call}
    (hpoll : ∀ s env, x ≠ pollCall s env) (hdrop : ∀ s i, x ∉ (dropIfUsed s i).calls)
    (h : (server.loop onMessage envs).calls = pre ++ x :: post) :
    ∃ env i now sofar left right, ComesTo onMessage server envs env i now sofar ∧
      (now.visit onMessage env.slot i).calls = left ++ x :: right ∧ pre = sofar ++ left := by
  obtain ⟨earlier, env, later, before, left, right, hsplit, hearlier, hiter, rfl⟩ :=
    Traced.foldlM_call h
  rw [iteration, Traced.call_bind] at hiter
  dsimp only at hiter
  rcases List.append_eq_cons_iff.mp hiter.symm with ⟨-, hx⟩ | ⟨left', rfl, hcalls⟩
  · exact absurd (List.cons.inj hx).1 (hpoll before env)
  · split at hcalls
    · simp [Traced.stop] at hcalls
    · split at hcalls
      · obtain ⟨_, i, _, s, _, _, -, -, hi, -⟩ := Traced.foldlM_call hcalls
        exact absurd (hi ▸ by simp) (hdrop s i)
      · obtain ⟨passed, i, rest, now, left, right, hslots, hnow, hvisit, rfl⟩ :=
          Traced.foldlM_call hcalls
        have hcomes : ComesTo onMessage server envs env i now _ :=
          ⟨earlier, later, before, passed, rest, hsplit, hearlier, by omega, hslots, hnow, rfl⟩
        refine ⟨env, i, now, _, left, right, hcomes, hvisit, ?_⟩
        rw [List.append_assoc]
        rfl

/-- `poll` timed out: the connections are dropped. -/
theorem iteration_timeout {env : LoopEnv} (h : env.numberOfEvents = 0) :
    server.iteration onMessage env
      = ⟨server.pollCall env :: (server.polled env.revents).dropUnusedConnections.calls,
          (server.polled env.revents).dropUnusedConnections.result⟩ := by
  rw [iteration]
  rw [Traced.call_bind, if_neg (by omega), if_pos h]
  rfl

/-- One slot reports an event that is handled, if any does: the pass is the visit to it. -/
theorem iteration_single {env : LoopEnv} (i : Slot) (hevents : 0 < env.numberOfEvents)
    (hothers : ∀ j, j ≠ i → ¬ Handled ((server.polled env.revents).sockets j).revents) :
    server.iteration onMessage env
      = ⟨server.pollCall env :: ((server.polled env.revents).visit onMessage env.slot i).calls,
          ((server.polled env.revents).visit onMessage env.slot i).result⟩ := by
  obtain ⟨pre, post, hsplit⟩ := List.append_of_mem (List.mem_finRange i)
  have hnodup := List.nodup_finRange kNumberOfSockets
  rw [hsplit, List.nodup_middle, List.nodup_cons, List.mem_append, not_or] at hnodup
  obtain ⟨⟨hpre, hpost⟩, -⟩ := hnodup
  have hbefore : pre.foldlM (visit onMessage env.slot) (server.polled env.revents)
      = ⟨[], .ok (server.polled env.revents)⟩ := by
    apply foldlM_of_not_handled
    intro j hj
    exact hothers j (ne_of_mem_of_not_mem hj hpre)
  rw [iteration, Traced.call_bind, if_neg (by omega), if_neg (by omega), hsplit,
    Traced.foldlM_append_of_ok pre _ (congrArg Traced.result hbefore), hbefore]
  cases hvisit : ((server.polled env.revents).visit onMessage env.slot i).result with
  | error stop =>
    rw [Traced.foldlM_cons_of_error post hvisit]
    rfl
  | ok server' =>
    have hafter : post.foldlM (visit onMessage env.slot) server' = ⟨[], .ok server'⟩ := by
      apply foldlM_of_not_handled
      intro j hj
      rw [visit_revents hvisit]
      exact hothers j (ne_of_mem_of_not_mem hj hpost)
    rw [Traced.foldlM_cons_of_ok post hvisit, hafter, List.append_nil]
    rfl

/-- No client reports an event: the pass is the visit to slot 0. -/
theorem iteration_idle {env : LoopEnv} (hevents : 0 < env.numberOfEvents)
    (hclients : ∀ i, i ≠ serverSlot → ((server.polled env.revents).sockets i).revents = 0) :
    server.iteration onMessage env
      = ⟨server.pollCall env
            :: ((server.polled env.revents).visit onMessage env.slot serverSlot).calls,
          ((server.polled env.revents).visit onMessage env.slot serverSlot).result⟩ := by
  apply iteration_single serverSlot hevents
  intro j hj
  rw [hclients j hj]
  exact not_handled_zero

/-- No slot reports an event that is handled: the table stays as it is. -/
theorem iteration_of_not_handled {env : LoopEnv} (hevents : 0 < env.numberOfEvents)
    (h : ∀ i, ¬ Handled ((server.polled env.revents).sockets i).revents) :
    server.iteration onMessage env = ⟨[server.pollCall env], .ok (server.polled env.revents)⟩ := by
  rw [iteration, Traced.call_bind, if_neg (by omega), if_neg (by omega),
    foldlM_of_not_handled env.slot _ (fun i _ => h i)]
  rfl

theorem handleEventIfAny_of_listens {env : SlotEnv} (h : Listens server i) :
    server.handleEventIfAny onMessage env i = server.acceptConnection env := if_pos h

/-- A connection request and a free slot: the request is accepted. -/
theorem iteration_accepts {env : LoopEnv} {j : Slot} (hevents : 0 < env.numberOfEvents)
    (hclients : ∀ i, i ≠ serverSlot → ((server.polled env.revents).sockets i).revents = 0)
    (hopen : (server.sockets serverSlot).fd ≠ -1)
    (hlisten : Listens (server.polled env.revents) serverSlot)
    (hfree : (server.polled env.revents).freeSlot = some j) :
    server.iteration onMessage env
      = ⟨[server.pollCall env, .accept (env.slot serverSlot).accepted],
          .ok ((server.polled env.revents).setFd j (env.slot serverSlot).accepted)⟩ := by
  rw [iteration_idle hevents hclients, visit, if_pos (by rwa [polled_fd]),
    handleEventIfAny_of_listens hlisten, acceptConnection, hfree]
  dsimp only
  rw [Traced.call_bind, Traced.pure_eq]

/-- A connection request and no free slot: nothing happens at all. -/
theorem iteration_spins {env : LoopEnv} (hevents : 0 < env.numberOfEvents)
    (hclients : ∀ i, i ≠ serverSlot → ((server.polled env.revents).sockets i).revents = 0)
    (hopen : (server.sockets serverSlot).fd ≠ -1)
    (hlisten : Listens (server.polled env.revents) serverSlot)
    (hfull : (server.polled env.revents).freeSlot = none) :
    server.iteration onMessage env
      = ⟨[server.pollCall env], .ok (server.polled env.revents)⟩ := by
  rw [iteration_idle hevents hclients, visit, if_pos (by rwa [polled_fd]),
    handleEventIfAny_of_listens hlisten, acceptConnection, hfull]
  rfl

/-- The answers when `poll` reports events for one slot and no other. -/
def only (i : Slot) (events : UInt16) (answers : SlotEnv) : LoopEnv :=
  { numberOfEvents := 1
    revents := fun j => if j = i then events else 0
    slot := fun _ => answers }

theorem polled_only (events : UInt16) (answers : SlotEnv) (hopen : 0 ≤ (server.sockets i).fd) :
    ((server.polled (only i events answers).revents).sockets i).revents = events := by
  rw [polled_revents, if_neg (by omega)]
  exact if_pos rfl

theorem polled_only_of_ne (events : UInt16) (answers : SlotEnv) {j : Slot} (hj : j ≠ i) :
    ((server.polled (only i events answers).revents).sockets j).revents = 0 := by
  have hzero : (only i events answers).revents j = 0 := if_neg hj
  rw [polled_revents, hzero, ite_self]

theorem only_not_handled (events : UInt16) (answers : SlotEnv) (j : Slot) (hj : j ≠ i) :
    ¬ Handled ((server.polled (only i events answers).revents).sockets j).revents := by
  rw [polled_only_of_ne events answers hj]
  exact not_handled_zero

/-- The answers when a client connects and nothing else happens; `accept` returns `fd`. -/
def connects (fd : ℤ) : LoopEnv :=
  only serverSlot pollIn
    { accepted := fd
      received := .failed
      handler := ⟨⟨-1, fun _ _ => ⟨-1, -1, ⟨0, 0⟩, 0, 0, 0, 0, []⟩⟩, 0⟩
      sent := .failed }

theorem freeSlot_polled (server : TcpServer) (revents : Slot → UInt16) :
    (server.polled revents).freeSlot = server.freeSlot := by
  simp only [freeSlot, polled_fd]

/-- A listening server with a free slot takes the connection. -/
theorem iteration_request (onMessage : OnMessage) {j : Slot} (answers : SlotEnv)
    (hlisten : (server.sockets serverSlot).fd = server.serverSocketFd)
    (hopen : 0 ≤ server.serverSocketFd) (hfree : server.freeSlot = some j) :
    server.iteration onMessage (only serverSlot pollIn answers)
      = ⟨[server.pollCall (only serverSlot pollIn answers), .accept answers.accepted],
          .ok ((server.polled (only serverSlot pollIn answers).revents).setFd j
            answers.accepted)⟩ := by
  refine iteration_accepts Int.one_pos ?_ (by omega) ⟨?_, ?_⟩ ?_
  · intro i hi
    exact polled_only_of_ne pollIn answers hi
  · rw [polled_fd]
    exact hlisten
  · exact polled_only _ _ (by omega)
  · rw [freeSlot_polled]
    exact hfree

theorem iteration_connects (onMessage : OnMessage) {j : Slot} (fd : ℤ)
    (hlisten : (server.sockets serverSlot).fd = server.serverSocketFd)
    (hopen : 0 ≤ server.serverSocketFd) (hfree : server.freeSlot = some j) :
    server.iteration onMessage (connects fd)
      = ⟨[server.pollCall (connects fd), .accept fd],
          .ok ((server.polled (connects fd).revents).setFd j fd)⟩ :=
  iteration_request onMessage _ hlisten hopen hfree

/-- The state after `setup` with listening socket 3. -/
def started : TcpServer := clearSockets { serverSocketFd := 3 }

theorem run_started (onMessage : OnMessage) (envs : List LoopEnv) :
    (run onMessage ⟨3, 0, 0⟩ envs).result = (started.loop onMessage envs).result := by
  rw [run, setup_eq, if_neg (by decide), if_neg (by decide), if_neg (by decide),
    Traced.mk_ok_bind]
  rfl

/-- The state after a first client has connected, with descriptor 4. -/
def connected : TcpServer := (started.polled (connects 4).revents).setFd firstClient 4

theorem run_connected (onMessage : OnMessage) :
    (run onMessage ⟨3, 0, 0⟩ [connects 4]).result = .ok connected := by
  have hlisten : (started.sockets serverSlot).fd = started.serverSocketFd := by
    rw [started, clearSockets_fd, if_pos rfl]
    rfl
  have hfree : started.freeSlot = some firstClient := by decide +kernel
  rw [run_started, loop, List.foldlM_cons,
    iteration_connects onMessage 4 hlisten (by decide) hfree, Traced.mk_ok_bind]
  rfl

theorem connected_fd (i : Slot) : (connected.sockets i).fd
    = if i = firstClient then 4 else if i = serverSlot then 3 else -1 := by
  rw [connected, setFd_fd, polled_fd, started, clearSockets_fd]

end TcpServer

end FcsServer
