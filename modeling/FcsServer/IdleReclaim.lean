import FcsServer.EventPass

/-!
# Reclaiming idle connections

`poll` is level-triggered: it reports slot 0 as long as a connection request is pending, and
returns 0 only when no slot reports an event.  With clients that stay silent, an iteration
should accept a request or drop the connections.

* `IdleAnswers` — what `poll` and `accept` answer while the clients are silent;
* `Progress` — a request is accepted, or every client slot is freed;
* `idle_progress_iff` — an iteration makes progress unless a request is pending and the table is
  full; then it changes nothing, so that the next one does not either.
-/

namespace FcsServer

open TcpServer

namespace IdleReclaim

/-- The number of slots for which `poll` reports an event. -/
def reported (server : TcpServer) (revents : Slot → UInt16) : ℕ :=
  (List.finRange kNumberOfSockets).countP fun i =>
    ((server.polled revents).sockets i).revents ≠ 0

/-- No client reports an event, and `pending` connection requests wait in the backlog. -/
structure IdleAnswers (server : TcpServer) (pending : ℕ) (env : LoopEnv) : Prop where
  listening : env.revents serverSlot = if 0 < pending then pollIn else 0
  clients : ∀ i, i ≠ serverSlot → env.revents i = 0
  counted : env.numberOfEvents = reported server env.revents
  accepts : 0 < pending → 0 ≤ (env.slot serverSlot).accepted

/-- The requests that still wait after these calls. -/
def backlogAfter (pending : ℕ) (calls : List Call) : ℕ :=
  pending - calls.countP fun c => match c with
    | .accept _ => true
    | _ => false

/-- A pending request goes into a client slot that was free. -/
def Accepts (server : TcpServer) (pending : ℕ) (x : Proc TcpServer) (server' : TcpServer) : Prop :=
  backlogAfter pending x.calls + 1 = pending ∧
    ∃ j fd, j ≠ serverSlot ∧ (server.sockets j).fd = -1 ∧ .accept fd ∈ x.calls ∧ fd ≠ -1 ∧
      ∀ i, (server'.sockets i).fd = if i = j then fd else (server.sockets i).fd

/-- `dropUnusedConnections` runs and frees every client slot. -/
def Drops (server : TcpServer) (env : LoopEnv) (x : Proc TcpServer) (server' : TcpServer) : Prop :=
  x.calls = server.pollCall env :: (server.polled env.revents).dropUnusedConnections.calls ∧
    ∀ i, i ≠ serverSlot → (server'.sockets i).fd = -1

/-- The table and the backlog are as they were, and some client slot is in use. -/
def Unchanged (server : TcpServer) (pending : ℕ) (x : Proc TcpServer) (server' : TcpServer) :
    Prop :=
  (∀ i, (server'.sockets i).fd = (server.sockets i).fd) ∧ backlogAfter pending x.calls = pending ∧
    ∃ i, i ≠ serverSlot ∧ (server.sockets i).fd ≠ -1

/-- What an idle iteration should do. -/
def Progress (server : TcpServer) (pending : ℕ) (env : LoopEnv) (x : Proc TcpServer)
    (server' : TcpServer) : Prop :=
  (Accepts server pending x server' ∨ Drops server env x server') ∧
    ¬ Unchanged server pending x server'

/-- A request is pending, slot 0 is polled, and no client slot is free. -/
def Stuck (server : TcpServer) (pending : ℕ) : Prop :=
  0 < pending ∧ 0 ≤ (server.sockets serverSlot).fd ∧
    ∀ i, i ≠ serverSlot → (server.sockets i).fd ≠ -1

/-! ### Idle iterations -/

section Idle

variable {onMessage : OnMessage} {server : TcpServer} {pending : ℕ} {env : LoopEnv}

theorem first_revents {revents : Slot → UInt16}
    (hfirst : revents serverSlot = if 0 < pending then pollIn else 0) :
    ((server.polled revents).sockets serverSlot).revents
      = if 0 < pending ∧ 0 ≤ (server.sockets serverSlot).fd then pollIn else 0 := by
  rw [polled_revents, hfirst]
  by_cases hfd : (server.sockets serverSlot).fd < 0
  · rw [if_pos hfd, if_neg (by omega)]
  · rw [if_neg hfd]
    by_cases hpending : 0 < pending
    · rw [if_pos hpending, if_pos ⟨hpending, by omega⟩]
    · rw [if_neg hpending, if_neg (fun hp => hpending hp.1)]

theorem client_revents {revents : Slot → UInt16} (hclients : ∀ i, i ≠ serverSlot → revents i = 0)
    (i : Slot) (hi : i ≠ serverSlot) : ((server.polled revents).sockets i).revents = 0 := by
  rw [polled_revents, hclients i hi]
  split <;> rfl

/-- With silent clients one event is reported, or none. -/
theorem reported_idle {revents : Slot → UInt16}
    (hfirst : revents serverSlot = if 0 < pending then pollIn else 0)
    (hclients : ∀ i, i ≠ serverSlot → revents i = 0) :
    reported server revents
      = if 0 < pending ∧ 0 ≤ (server.sockets serverSlot).fd then 1 else 0 := by
  have hcount : clientSlots.countP (fun i =>
      ((server.polled revents).sockets i).revents ≠ 0) = 0 := by
    rw [List.countP_eq_zero]
    intro i hi
    rw [client_revents hclients i (mem_clientSlots.mp hi)]
    decide
  rw [reported, finRange_eq, List.countP_cons, hcount, first_revents hfirst]
  split <;> rfl

/-- **An idle iteration makes progress** in every state a run reaches, unless a connection
request is pending and no client slot is free. -/
theorem idle_iteration (onMessage : OnMessage)
    (hslot : (server.sockets serverSlot).fd = server.serverSocketFd ∨
      (server.sockets serverSlot).fd = -1)
    (h : IdleAnswers server pending env) :
    ∃ server', (server.iteration onMessage env).result = .ok server' ∧
      (Stuck server pending →
        Unchanged server pending (server.iteration onMessage env) server') ∧
      (¬ Stuck server pending →
        Progress server pending env (server.iteration onMessage env) server') := by
  by_cases hreports : 0 < pending ∧ 0 ≤ (server.sockets serverSlot).fd
  · have hevents : 0 < env.numberOfEvents := by
      rw [h.counted, reported_idle h.listening h.clients, if_pos hreports]
      exact Int.one_pos
    have hsilent : ∀ i, i ≠ serverSlot →
        ((server.polled env.revents).sockets i).revents = 0 := client_revents h.clients
    have hopen : (server.sockets serverSlot).fd ≠ -1 := by omega
    have hlisten : Listens (server.polled env.revents) serverSlot := by
      refine ⟨?_, ?_⟩
      · rw [polled_fd]
        exact hslot.resolve_right hopen
      · rw [first_revents h.listening, if_pos hreports]
    cases hfree : (server.polled env.revents).freeSlot with
    | none =>
      rw [iteration_spins hevents hsilent hopen hlisten hfree]
      rw [freeSlot_polled] at hfree
      have hfull := freeSlot_eq_none.mp hfree
      refine ⟨_, rfl, ?_, ?_⟩
      · intro hstuck
        exact ⟨fun i => polled_fd server i env.revents, rfl, firstClient, by decide,
          hfull firstClient (by decide)⟩
      · intro hfine
        exact absurd ⟨hreports.1, hreports.2, hfull⟩ hfine
    | some j =>
      rw [iteration_accepts hevents hsilent hopen hlisten hfree]
      rw [freeSlot_polled] at hfree
      obtain ⟨hj, hjfd⟩ := freeSlot_eq_some hfree
      have haccepted := h.accepts hreports.1
      have hbacklog : backlogAfter pending
          [server.pollCall env, .accept (env.slot serverSlot).accepted] = pending - 1 := rfl
      have htable : ∀ i, (((server.polled env.revents).setFd j
          (env.slot serverSlot).accepted).sockets i).fd
          = if i = j then (env.slot serverSlot).accepted else (server.sockets i).fd := by
        intro i
        rw [setFd_fd, polled_fd]
      refine ⟨_, rfl, ?_, ?_⟩
      · intro hstuck
        exact absurd hjfd (hstuck.2.2 j hj)
      · intro _
        refine ⟨Or.inl ⟨?_, j, (env.slot serverSlot).accepted, hj, hjfd, ?_, by omega, htable⟩, ?_⟩
        · rw [hbacklog]
          omega
        · exact List.mem_cons_of_mem _ List.mem_cons_self
        · intro hunchanged
          obtain ⟨-, hsame, -⟩ := hunchanged
          rw [hbacklog] at hsame
          omega
  · have htimeout : env.numberOfEvents = 0 := by
      rw [h.counted, reported_idle h.listening h.clients, if_neg hreports]
      rfl
    obtain ⟨server', hdrop, hfd⟩ := foldlM_dropIfUsed (server.polled env.revents) clientSlots
    have hfreed : ∀ i, i ≠ serverSlot → (server'.sockets i).fd = -1 := by
      intro i hi
      rw [hfd, if_pos (mem_clientSlots.mpr hi)]
    rw [iteration_timeout htimeout]
    refine ⟨server', hdrop, ?_, ?_⟩
    · intro hfull
      obtain ⟨hpending, hopen, -⟩ := hfull
      exact absurd ⟨hpending, hopen⟩ hreports
    · intro _
      refine ⟨Or.inr ⟨rfl, hfreed⟩, ?_⟩
      intro hunchanged
      obtain ⟨hsame, -, i, hi, hused⟩ := hunchanged
      rw [← hsame i, hfreed i hi] at hused
      exact hused rfl

/-- **Idle connections are reclaimed**, in every run and whenever the clients are silent, exactly
as long as no connection request waits for a full table. -/
theorem idle_progress_iff {setupEnv : SetupEnv} {envs : List LoopEnv}
    (hrun : (run onMessage setupEnv envs).result = .ok server)
    (h : IdleAnswers server pending env) :
    ∃ server', (server.iteration onMessage env).result = .ok server' ∧
      (Progress server pending env (server.iteration onMessage env) server' ↔
        ¬ Stuck server pending) := by
  obtain ⟨server', hresult, hstuck, hfine⟩ :=
    idle_iteration onMessage (serverSlot_of_run hrun) h
  refine ⟨server', hresult, ?_, hfine⟩
  intro hprogress hfull
  exact hprogress.2 (hstuck hfull)

/-- A client that connects to a listening server. -/
theorem connects_idle {fd : ℤ} (hopen : 0 ≤ (server.sockets serverSlot).fd) (hfd : 0 ≤ fd) :
    IdleAnswers server 1 (connects fd) := by
  refine ⟨rfl, fun i hi => if_neg hi, ?_, fun _ => hfd⟩
  have hone : reported server (connects fd).revents
      = if 0 < 1 ∧ 0 ≤ (server.sockets serverSlot).fd then 1 else 0 :=
    reported_idle rfl (fun i hi => if_neg hi)
  rw [hone, if_pos ⟨by decide, hopen⟩]
  rfl

/-- The answers when `poll` times out. -/
def timesOut : LoopEnv := { connects 4 with numberOfEvents := 0, revents := fun _ => 0 }

theorem timesOut_idle (server : TcpServer) : IdleAnswers server 0 timesOut := by
  refine ⟨rfl, fun _ _ => rfl, ?_, fun h => absurd h (lt_irrefl 0)⟩
  have hnone : reported server timesOut.revents
      = if 0 < 0 ∧ 0 ≤ (server.sockets serverSlot).fd then 1 else 0 :=
    reported_idle rfl fun _ _ => rfl
  rw [hnone]
  rfl

/-- A server with one silent client: a second client connects, and nothing happens at all. -/
theorem idle_progress_connects :
    (∃ server', (connected.iteration MessageHandler.handleIncomingMessage (connects 5)).result
        = .ok server' ∧
      (Progress connected 1 (connects 5)
          (connected.iteration MessageHandler.handleIncomingMessage (connects 5)) server' ↔
        ¬ Stuck connected 1)) ∧
      ∃ server', (connected.iteration MessageHandler.handleIncomingMessage timesOut).result
          = .ok server' ∧
        (Progress connected 0 timesOut
            (connected.iteration MessageHandler.handleIncomingMessage timesOut) server' ↔
          ¬ Stuck connected 0) := by
  have hopen : 0 ≤ (connected.sockets serverSlot).fd := by
    rw [connected_fd]
    decide
  exact ⟨idle_progress_iff (run_connected _) (connects_idle hopen (by decide)),
    idle_progress_iff (run_connected _) (timesOut_idle connected)⟩

/-! ### A full table can be reached -/

/-- The slots that are not in use. -/
def freeSlots (server : TcpServer) : Finset Slot :=
  Finset.univ.filter fun i => i ≠ serverSlot ∧ (server.sockets i).fd = -1

/-- Connecting clients fill the table. -/
theorem exists_full (onMessage : OnMessage) (bound : ℕ) (server : TcpServer)
    (hbound : (freeSlots server).card ≤ bound)
    (hlisten : (server.sockets serverSlot).fd = server.serverSocketFd)
    (hopen : 0 ≤ server.serverSocketFd) :
    ∃ envs server', (server.loop onMessage envs).result = .ok server' ∧
      (server'.sockets serverSlot).fd = server'.serverSocketFd ∧ 0 ≤ server'.serverSocketFd ∧
      server'.freeSlot = none := by
  induction bound generalizing server with
  | zero =>
    refine ⟨[], server, rfl, hlisten, hopen, freeSlot_eq_none.mpr ?_⟩
    intro i hi hfree
    have hempty := Finset.card_eq_zero.mp (Nat.le_zero.mp hbound)
    have hmem : i ∈ freeSlots server := Finset.mem_filter.mpr ⟨Finset.mem_univ i, hi, hfree⟩
    rw [hempty] at hmem
    exact absurd hmem (Finset.notMem_empty i)
  | succ bound ih =>
    cases hfree : server.freeSlot with
    | none => exact ⟨[], server, rfl, hlisten, hopen, hfree⟩
    | some j =>
      obtain ⟨hj, hjfd⟩ := freeSlot_eq_some hfree
      -- the descriptor of slot `j` is `j + 3`, so no two slots get the same
      have hstep := iteration_connects onMessage (j + 3 : ℕ) hlisten hopen hfree
      have htable : ∀ i, (((server.polled (connects (j + 3 : ℕ)).revents).setFd j
          (j + 3 : ℕ)).sockets i).fd
            = if i = j then ((j + 3 : ℕ) : ℤ) else (server.sockets i).fd := by
        intro i
        rw [setFd_fd, polled_fd]
      have hsocket : ((server.polled (connects (j + 3 : ℕ)).revents).setFd j
          (j + 3 : ℕ)).serverSocketFd = server.serverSocketFd := rfl
      generalize (server.polled (connects (j + 3 : ℕ)).revents).setFd j (j + 3 : ℕ) = next
        at hstep htable hsocket
      have hfewer : freeSlots next ⊂ freeSlots server := by
        refine Finset.ssubset_iff_of_subset ?_ |>.mpr ⟨j, ?_, ?_⟩
        · intro i hi
          obtain ⟨-, hi0, hifd⟩ := Finset.mem_filter.mp hi
          rw [htable] at hifd
          split at hifd
          · omega
          · exact Finset.mem_filter.mpr ⟨Finset.mem_univ i, hi0, hifd⟩
        · exact Finset.mem_filter.mpr ⟨Finset.mem_univ j, hj, hjfd⟩
        · intro hmem
          obtain ⟨-, -, hused⟩ := Finset.mem_filter.mp hmem
          rw [htable, if_pos rfl] at hused
          omega
      have hcard := Finset.card_lt_card hfewer
      obtain ⟨envs, server', hloop, hlisten', hopen', hfull⟩ := ih next (by omega)
        (by rw [htable, if_neg hj.symm, hsocket]; exact hlisten) (by rw [hsocket]; exact hopen)
      refine ⟨connects (j + 3 : ℕ) :: envs, server', ?_, hlisten', hopen', hfull⟩
      rw [loop, Traced.foldlM_cons_of_ok envs (congrArg Traced.result hstep)]
      exact hloop

/-- A server that reached a full table, with a further client waiting. -/
theorem idle_timeout_disabled :
    ∃ envs server env server', (run MessageHandler.handleIncomingMessage ⟨3, 0, 0⟩ envs).result
        = .ok server ∧ IdleAnswers server 1 env ∧
      (server.iteration MessageHandler.handleIncomingMessage env).result = .ok server' ∧
      ¬ Progress server 1 env
        (server.iteration MessageHandler.handleIncomingMessage env) server' := by
  have hfirst : (started.sockets serverSlot).fd = 3 := by
    rw [started, clearSockets_fd, if_pos rfl]
  obtain ⟨envs, server, hloop, hlisten, hopen, hfull⟩ :=
    exists_full MessageHandler.handleIncomingMessage (freeSlots started).card started le_rfl
      hfirst (by decide)
  have hidle : IdleAnswers server 1 (connects 24) :=
    connects_idle (by rw [hlisten]; exact hopen) (by decide)
  obtain ⟨server', hresult, hstuck, -⟩ :=
    idle_iteration MessageHandler.handleIncomingMessage (Or.inl hlisten) hidle
  refine ⟨envs, server, connects 24, server', ?_, hidle, hresult, ?_⟩
  · rw [run_started]
    exact hloop
  · intro hprogress
    exact hprogress.2 (hstuck ⟨by decide, by rw [hlisten]; exact hopen,
      freeSlot_eq_none.mp hfull⟩)

end Idle

end IdleReclaim

end FcsServer
