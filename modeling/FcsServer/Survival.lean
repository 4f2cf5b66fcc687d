import FcsServer.CallOutcome
import FcsServer.EventPass

/-!
# How the loop is left

A call that fails is logged, a message that makes no sense is answered, and the callback always
returns.  What is left is a negative result of `poll`, and `SIGPIPE`: the server sends with flags
0 and only the handlers of `SIGINT` and `SIGTERM` are its own.

* `BreaksPipe` — a client whose request is answered when its connection is gone;
* `visit_stops_iff`, `pass_stops_iff`, `iteration_stops_iff` — the ways out of a visit, of a pass
  and of an iteration;
* `survives_iff` — the loop is left by `poll` alone exactly when no answered client is gone.
-/

namespace FcsServer

open TcpServer MessageHandler

namespace Survival

/-- Slot `i` is readable, `recv` returns a message that gets a response, and the connection is
gone when the response is sent. -/
def BreaksPipe (server : TcpServer) (env : Slot → SlotEnv) (i : Slot) : Prop :=
  Readable server i ∧ ∃ bytes,
    (env i).received.within kMaxMessageSizeInBytes = .received bytes ∧ bytes ≠ [] ∧
      responseFor (env i).handler bytes [] ≠ [] ∧ (env i).sent = .brokenPipe

variable {server : TcpServer} {env : Slot → SlotEnv} {i : Slot} {stop : Stop}

/-- The callback returns, so only the signal ends a visit. -/
theorem visit_stops_iff :
    (server.visit handleIncomingMessage env i).result = .error stop ↔
      (server.sockets i).fd ≠ -1 ∧ stop = .sigpipe ∧ BreaksPipe server env i := by
  rcases visit_cases handleIncomingMessage env server i with
    ⟨hfree, hvisit⟩ | ⟨hused, calls, result, hvisit, hH⟩
  · rw [hvisit]
    simp [hfree]
  · have hreturns : ∀ {next : TcpServer}, ¬ BreaksPipe server env i →
        ((.ok next : Except Stop TcpServer) = .error stop ↔
          (server.sockets i).fd ≠ -1 ∧ stop = .sigpipe ∧ BreaksPipe server env i) := by
      intro next hnot
      simp [hnot]
    rw [hvisit]
    cases hH with
    | accepted hlisten hfree => exact hreturns fun h => h.1.1 hlisten.1
    | tableFull hlisten hfull => exact hreturns fun h => h.1.1 hlisten.1
    | noData hread hresult hnone =>
      apply hreturns
      intro h
      obtain ⟨-, bytes, hbytes, hne, -, -⟩ := h
      rw [hresult] at hbytes
      rcases hnone with rfl | rfl
      · cases hbytes
      · cases hbytes
        exact hne rfl
    | faulted hread hresult hne hcall => exact absurd hcall handled_ne_error
    | answered hread hresult hne hcall hresponse hsent =>
      apply hreturns
      intro h
      obtain ⟨-, -, -, -, -, hbroken⟩ := h
      exact hsent hbroken
    | @brokenPipe bytes response calls hread hresult hne hcall hresponse hsent =>
      obtain ⟨-, rfl⟩ := handled_ok hcall
      have hbreaks : BreaksPipe server env i := ⟨hread, bytes, hresult, hne, hresponse, hsent⟩
      simp [hused, hbreaks, eq_comm]
    | silent hread hresult hne hcall =>
      obtain ⟨-, hsilent⟩ := handled_ok hcall
      apply hreturns
      intro h
      obtain ⟨-, bytes', hbytes, -, hresponse, -⟩ := h
      rw [hresult] at hbytes
      cases hbytes
      exact hresponse hsilent
    | hungUp hevent =>
      have hnot := ne_pollIn_of_hungUp hevent
      exact hreturns fun h => hnot h.1.2
    | ignored hin hhup herr => exact hreturns fun h => hin h.1.2

/-- Until the pass comes to it, a reported slot keeps its descriptor: what breaks the pipe can be
read off the table that `poll` leaves. -/
theorem pass_stops_iff {revents : Slot → UInt16} :
    ((List.finRange kNumberOfSockets).foldlM (visit handleIncomingMessage env)
        (server.polled revents)).result = .error stop ↔
      stop = .sigpipe ∧ ∃ i, BreaksPipe (server.polled revents) env i := by
  have hbreaks : ∀ {pre post : List Slot} {i : Slot} {now : TcpServer},
      List.finRange kNumberOfSockets = pre ++ i :: post →
      (pre.foldlM (visit handleIncomingMessage env) (server.polled revents)).result = .ok now →
      (BreaksPipe now env i ↔ BreaksPipe (server.polled revents) env i) := by
    intro pre post i now hsplit hpre
    rw [BreaksPipe, BreaksPipe, (unvisited_of_pass hsplit hpre).readable_iff]
  constructor
  · intro h
    obtain ⟨pre, i, post, now, hsplit, hpre, hvisit⟩ := Traced.foldlM_eq_error.mp h
    obtain ⟨-, hstop, hpipe⟩ := visit_stops_iff.mp hvisit
    exact ⟨hstop, i, (hbreaks hsplit hpre).mp hpipe⟩
  · intro h
    obtain ⟨rfl, i, hpipe⟩ := h
    obtain ⟨pre, post, hsplit⟩ := List.append_of_mem (List.mem_finRange i)
    have hopen : 0 ≤ (server.sockets i).fd := polled_used (by rw [hpipe.1.2]; decide)
    cases hpre : (pre.foldlM (visit handleIncomingMessage env) (server.polled revents)).result with
    | ok now =>
      have hfd := (unvisited_of_pass hsplit hpre).fd_of_reported (by rw [hpipe.1.2]; decide)
      refine Traced.foldlM_eq_error.mpr ⟨pre, i, post, now, hsplit, hpre, ?_⟩
      exact visit_stops_iff.mpr ⟨by omega, rfl, (hbreaks hsplit hpre).mpr hpipe⟩
    | error stop =>
      -- an earlier slot has raised the signal already
      obtain ⟨pre', j, post', now, hpre', hbefore, hvisit⟩ := Traced.foldlM_eq_error.mp hpre
      obtain ⟨-, rfl, -⟩ := visit_stops_iff.mp hvisit
      refine Traced.foldlM_eq_error.mpr ⟨pre', j, post' ++ i :: post, now, ?_, hbefore, hvisit⟩
      rw [hsplit, hpre', List.append_assoc]
      rfl

theorem iteration_stops_iff {env : LoopEnv} :
    (server.iteration handleIncomingMessage env).result = .error stop ↔
      env.numberOfEvents < 0 ∧ stop = .exit 1 ∨ 0 < env.numberOfEvents ∧ stop = .sigpipe ∧
        ∃ i, BreaksPipe (server.polled env.revents) env.slot i := by
  rw [iteration, Traced.call_bind]
  by_cases hneg : env.numberOfEvents < 0
  · rw [if_pos hneg]
    simp [hneg, not_lt.mpr hneg.le, Traced.stop, eq_comm]
  · rw [if_neg hneg]
    by_cases hzero : env.numberOfEvents = 0
    · rw [if_pos hzero]
      obtain ⟨server', hdrop, -⟩ := foldlM_dropIfUsed (server.polled env.revents) clientSlots
      simp [dropUnusedConnections, hdrop, hzero]
    · have hpos : 0 < env.numberOfEvents := by omega
      rw [if_neg hzero]
      simp only [pass_stops_iff, hneg, hpos, false_and, true_and, false_or]

/-- **How the loop is left.**  In every run, from any state: it is left by a negative result of
`poll` alone exactly when no client whose request is answered is gone before the response is
sent. -/
theorem survives_iff (server : TcpServer) (envs : List LoopEnv) :
    (∀ stop, (server.loop handleIncomingMessage envs).result = .error stop →
        stop = .exit 1 ∧ ∃ pre env post now, envs = pre ++ env :: post ∧
          (server.loop handleIncomingMessage pre).result = .ok now ∧ env.numberOfEvents < 0) ↔
      ∀ pre env post now, envs = pre ++ env :: post →
        (server.loop handleIncomingMessage pre).result = .ok now → 0 < env.numberOfEvents →
        ∀ i, ¬ BreaksPipe (now.polled env.revents) env.slot i := by
  constructor
  · intro h pre env post now hsplit hpre hevents i hpipe
    have hstops : (now.iteration handleIncomingMessage env).result = .error .sigpipe :=
      iteration_stops_iff.mpr (Or.inr ⟨hevents, rfl, i, hpipe⟩)
    have hloop := Traced.foldlM_eq_error.mpr ⟨pre, env, post, now, hsplit, hpre, hstops⟩
    cases (h .sigpipe hloop).1
  · intro h stop hloop
    obtain ⟨pre, env, post, now, hsplit, hpre, hstops⟩ := Traced.foldlM_eq_error.mp hloop
    rcases iteration_stops_iff.mp hstops with ⟨hneg, rfl⟩ | ⟨hevents, -, i, hpipe⟩
    · exact ⟨rfl, pre, env, post, now, hsplit, hpre, hneg⟩
    · exact absurd hpipe (h pre env post now hsplit hpre hevents i)

/-- Two bytes arrive from the first client, and `send` has this outcome. -/
def shortMessage (outcome : SendResult) : LoopEnv :=
  only firstClient pollIn
    { accepted := -1
      received := .received [0x12, 0]
      handler := ⟨CallOutcome.chipIdDevice 0, 0⟩
      sent := outcome }

theorem shortMessage_readable (outcome : SendResult) :
    Readable (connected.polled (shortMessage outcome).revents) firstClient := by
  have hfd : (connected.sockets firstClient).fd = 4 := by
    rw [connected_fd, if_pos rfl]
  constructor
  · rw [polled_fd, hfd]
    show (4 : ℤ) ≠ 3
    decide
  · rw [polled_revents, hfd]
    rfl

/-- Fewer bytes than a header are answered with four bytes. -/
theorem shortMessage_response :
    (responseFor ⟨CallOutcome.chipIdDevice 0, 0⟩ [0x12, 0] []).length = 4 := by
  rw [ResponseFraming.responseFor_refused _ _ (by decide +kernel), ResponseFraming.length_frame]
  rfl

/-- A client that is gone when its message is answered ends the server. -/
theorem vanished_client_ends_loop :
    ∃ env, 0 < env.numberOfEvents ∧
      (run handleIncomingMessage ⟨3, 0, 0⟩ [connects 4]).result = .ok connected ∧
      (connected.loop handleIncomingMessage [env]).result = .error .sigpipe := by
  have hresponse : responseFor ⟨CallOutcome.chipIdDevice 0, 0⟩ [0x12, 0] [] ≠ [] := by
    rw [← List.length_pos_iff, shortMessage_response]
    decide
  have hpipe : BreaksPipe (connected.polled (shortMessage .brokenPipe).revents)
      (shortMessage .brokenPipe).slot firstClient :=
    ⟨shortMessage_readable _, [0x12, 0], by decide +kernel, by decide, hresponse, rfl⟩
  refine ⟨shortMessage .brokenPipe, Int.one_pos, run_connected _, ?_⟩
  refine Traced.foldlM_eq_error.mpr ⟨[], shortMessage .brokenPipe, [], connected, rfl, rfl, ?_⟩
  exact iteration_stops_iff.mpr (Or.inr ⟨Int.one_pos, rfl, firstClient, hpipe⟩)

end Survival

end FcsServer
