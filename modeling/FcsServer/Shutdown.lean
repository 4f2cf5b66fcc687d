import FcsServer.Lib.Simulation
import FcsServer.SlotEvents

/-!
# Shutting down

`SIGINT` and `SIGTERM` run a handler that closes the sockets of the table and ends the process.  A
signal comes between any two steps of the server, so the handler finds the table as the last store
left it, and not as the calls say: a connection is closed before its slot is freed, and accepted
before its slot is filled.

* `Moment` — a call or a store; the functions of the server, store by store;
* `onSignal` — the handler;
* `visit_simulates`, `run_simulates` — the calls among the moments of a run are those of
  `TcpServer.run`.
-/

namespace FcsServer

open LittleEndian

/-- A step that a signal can come after. -/
inductive Moment where
  | called (c : Call)
  /-- The table is written. -/
  | stored (server : TcpServer)

/-- A computation with its stores. -/
abbrev Steps := Traced Stop Moment

namespace Shutdown

def sigInt : ℤ := 2
def sigTerm : ℤ := 15

/-! ### The server, store by store -/

def call (c : Call) : Steps Unit := Traced.call (.called c)

def store (server : TcpServer) : Steps TcpServer := do
  Traced.call (.stored server)
  return server

/-- A computation that does not write the table. -/
def tableless {α : Type} (x : Proc α) : Steps α := ⟨x.calls.map .called, x.result⟩

def closeConnectionAndEnableForReuse (server : TcpServer) (i : Slot) : Steps TcpServer := do
  call (.close (server.sockets i).fd)
  store (server.setFd i (-1))

def acceptConnection (server : TcpServer) (env : SlotEnv) : Steps TcpServer :=
  match server.freeSlot with
  | none => return server
  | some i => do
    call (.accept env.accepted)
    store (server.setFd i env.accepted)

/-- The message buffer is not part of the table. -/
def handleEventIfAny (onMessage : OnMessage) (env : SlotEnv) (server : TcpServer) (i : Slot) :
    Steps TcpServer :=
  let socket := server.sockets i
  if socket.fd = server.serverSocketFd ∧ socket.revents = pollIn then
    acceptConnection server env
  else if socket.revents = pollIn then do
    let server := server.setBuffer (resize kMaxMessageSizeInBytes 0 server.messageBuffer)
    let result := env.received.within server.messageBuffer.length
    call (.recv socket.fd result)
    match result with
    | .failed => closeConnectionAndEnableForReuse server i
    | .received bytes =>
      if bytes.length = 0 then
        closeConnectionAndEnableForReuse server i
      else
        let server := server.setBuffer
          (resize bytes.length 0 (overwrite bytes server.messageBuffer))
        let responseBuffer ← tableless (onMessage env.handler server.messageBuffer [])
        call (.onMessage socket.fd server.messageBuffer responseBuffer)
        if responseBuffer.length > 0 then
          call (.send socket.fd responseBuffer env.sent)
          if env.sent = .brokenPipe then
            Traced.stop .sigpipe
          else
            return server
        else
          closeConnectionAndEnableForReuse server i
  else if socket.revents = pollHup ∨ socket.revents = pollErr then
    closeConnectionAndEnableForReuse server i
  else
    return server

def visit (onMessage : OnMessage) (env : Slot → SlotEnv) (server : TcpServer) (i : Slot) :
    Steps TcpServer :=
  if (server.sockets i).fd ≠ -1 then
    handleEventIfAny onMessage (env i) server i
  else
    return server

def dropIfUsed (server : TcpServer) (i : Slot) : Steps TcpServer :=
  if (server.sockets i).fd ≠ -1 then
    closeConnectionAndEnableForReuse server i
  else
    return server

/-- The events are not part of what the handler reads. -/
def iteration (onMessage : OnMessage) (server : TcpServer) (env : LoopEnv) : Steps TcpServer := do
  let server := server.polled env.revents
  call (.poll server.fds server.allEvents server.allRevents env.numberOfEvents)
  if env.numberOfEvents < 0 then
    Traced.stop (.exit 1)
  else if env.numberOfEvents = 0 then
    clientSlots.foldlM dropIfUsed server
  else
    (List.finRange kNumberOfSockets).foldlM (visit onMessage env.slot) server

/-- The listening socket goes into the first slot. -/
def setListener (server : TcpServer) : TcpServer :=
  { server with
    sockets := Function.update server.sockets serverSlot
      { server.sockets serverSlot with fd := server.serverSocketFd, events := pollIn } }

def clear (server : TcpServer) (i : Slot) : Steps TcpServer := store (server.setFd i (-1))

def setup (env : SetupEnv) (server : TcpServer) : Steps TcpServer := do
  call (.socket env.socket)
  let server ← store { server with serverSocketFd := env.socket }
  if server.serverSocketFd = -1 then
    Traced.stop (.exit 1)
  else
    call (.bind server.serverSocketFd env.bind)
    if env.bind < 0 then
      Traced.stop (.exit 1)
    else
      call (.listen server.serverSocketFd env.listen)
      if env.listen = -1 then
        Traced.stop (.exit 1)
      else
        let server ← store (setListener server)
        clientSlots.foldlM clear server

def run (onMessage : OnMessage) (setupEnv : SetupEnv) (envs : List LoopEnv) :
    Steps TcpServer := do
  let server ← setup setupEnv {}
  envs.foldlM (iteration onMessage) server

/-- The handler of the two signals, on the table that it finds. -/
def onSignal (s : ℤ) (server : TcpServer) : Proc Unit :=
  if s = sigInt ∨ s = sigTerm then do
    server.closeSockets
    Traced.stop (.exit 0)
  else
    return ()

/-! ### The same calls -/

/-- The call of a moment. -/
def callOf : Moment → Option Call
  | .called c => some c
  | .stored _ => none

def callsOf (moments : List Moment) : List Call := moments.filterMap callOf

section Simulation

variable {onMessage : OnMessage}

theorem call_simulates (c : Call) :
    Traced.Simulates callOf some (fun _ _ => True) (call c) (Traced.call c : Proc Unit) :=
  .call' rfl

theorem store_eq (server : TcpServer) : store server = ⟨[.stored server], .ok server⟩ := by
  rw [store, Traced.call_bind, Traced.pure_eq]

/-- A store is no call. -/
theorem store_simulates (server : TcpServer) :
    Traced.Simulates callOf some Eq (store server) (pure server : Proc TcpServer) := by
  rw [store_eq]
  exact ⟨rfl, .ok rfl⟩

theorem store_then {server : TcpServer} {g : TcpServer → Steps TcpServer} {y : Proc TcpServer}
    (h : Traced.Simulates callOf some Eq (g server) y) :
    Traced.Simulates callOf some Eq (store server >>= g) y := by
  have hstore : store server >>= g = Traced.call (.stored server) >>= fun _ => g server := by
    rw [store_eq, Traced.mk_ok_bind, Traced.call_bind, List.singleton_append]
  rw [hstore]
  exact .hidden rfl h

theorem tableless_simulates {α : Type} (x : Proc α) :
    Traced.Simulates callOf some Eq (tableless x) x := by
  refine ⟨?_, ?_⟩
  · show (x.calls.map Moment.called).filterMap callOf = x.calls.filterMap some
    rw [List.filterMap_map]
    rfl
  · exact Traced.EndsAlike.refl x.result

theorem close_simulates (server : TcpServer) (i : Slot) :
    Traced.Simulates callOf some Eq (closeConnectionAndEnableForReuse server i)
      (server.closeConnectionAndEnableForReuse i) :=
  (call_simulates _).bind fun _ _ _ => store_simulates _

theorem accept_simulates (server : TcpServer) (env : SlotEnv) :
    Traced.Simulates callOf some Eq (acceptConnection server env)
      (server.acceptConnection env) := by
  rw [acceptConnection, TcpServer.acceptConnection]
  cases server.freeSlot with
  | none => exact .pure' rfl
  | some i => exact (call_simulates _).bind fun _ _ _ => store_simulates _

theorem handle_simulates (env : SlotEnv) (server : TcpServer) (i : Slot) :
    Traced.Simulates callOf some Eq (handleEventIfAny onMessage env server i)
      (server.handleEventIfAny onMessage env i) := by
  rw [handleEventIfAny, TcpServer.handleEventIfAny]
  dsimp only
  split
  · exact accept_simulates server env
  · split
    · have hsize : (server.setBuffer
          (resize kMaxMessageSizeInBytes 0 server.messageBuffer)).messageBuffer.length
          = kMaxMessageSizeInBytes := length_resize _ _ _
      rw [hsize]
      refine (call_simulates _).bind ?_
      intro _ _ _
      cases env.received.within kMaxMessageSizeInBytes with
      | failed => exact close_simulates _ i
      | received bytes =>
        dsimp only
        split
        · exact close_simulates _ i
        · refine (tableless_simulates _).bind ?_
          intro response _ heq
          cases heq
          refine (call_simulates _).bind ?_
          intro _ _ _
          split
          · refine (call_simulates _).bind ?_
            intro _ _ _
            split
            · exact .stop' Stop.sigpipe
            · exact .pure' rfl
          · exact close_simulates _ i
    · split
      · exact close_simulates _ i
      · exact .pure' rfl

theorem visit_simulates (env : Slot → SlotEnv) (server : TcpServer) (i : Slot) :
    Traced.Simulates callOf some Eq (visit onMessage env server i)
      (server.visit onMessage env i) := by
  rw [visit, TcpServer.visit]
  split
  · exact handle_simulates (env i) server i
  · exact .pure' rfl

theorem dropIfUsed_simulates (server : TcpServer) (i : Slot) :
    Traced.Simulates callOf some Eq (dropIfUsed server i) (server.dropIfUsed i) := by
  rw [dropIfUsed, TcpServer.dropIfUsed]
  split
  · exact close_simulates server i
  · exact .pure' rfl

theorem iteration_simulates (server : TcpServer) (env : LoopEnv) :
    Traced.Simulates callOf some Eq (iteration onMessage server env)
      (server.iteration onMessage env) := by
  rw [iteration, TcpServer.iteration]
  refine (call_simulates _).bind ?_
  intro _ _ _
  split
  · exact .stop' _
  · split
    · refine Traced.Simulates.foldlM clientSlots ?_ rfl
      intro i s _ heq
      cases heq
      exact dropIfUsed_simulates s i
    · refine Traced.Simulates.foldlM _ ?_ rfl
      intro i s _ heq
      cases heq
      exact visit_simulates env.slot s i

/-- The loop of `setup` frees the slots one after the other. -/
theorem foldlM_clear (is : List Slot) (server : TcpServer) :
    ∃ next, Traced.Simulates callOf some Eq (is.foldlM clear server) (pure next : Proc TcpServer) ∧
      next.serverSocketFd = server.serverSocketFd ∧ next.messageBuffer = server.messageBuffer ∧
      ∀ i, next.sockets i
        = if i ∈ is then { server.sockets i with fd := -1 } else server.sockets i := by
  induction is generalizing server with
  | nil => exact ⟨server, .pure' rfl, rfl, rfl, fun i => (if_neg List.not_mem_nil).symm⟩
  | cons j is ih =>
    obtain ⟨next, hsim, hfd, hbuffer, hsockets⟩ := ih (server.setFd j (-1))
    refine ⟨next, ?_, hfd, hbuffer, ?_⟩
    · rw [List.foldlM_cons]
      exact store_then hsim
    · intro i
      rw [hsockets]
      by_cases hij : i = j
      · rw [hij, if_pos List.mem_cons_self, TcpServer.setFd]
        dsimp only
        rw [Function.update_self]
        exact ite_self _
      · rw [TcpServer.setFd]
        dsimp only
        rw [Function.update_of_ne hij]
        by_cases hi : i ∈ is
        · rw [if_pos hi, if_pos (List.mem_cons_of_mem j hi)]
        · rw [if_neg hi, if_neg fun hmem => (List.mem_cons.mp hmem).elim hij hi]

theorem clear_simulates (server : TcpServer) :
    Traced.Simulates callOf some Eq (do
      let server ← store (setListener server)
      clientSlots.foldlM clear server) (pure server.clearSockets : Proc TcpServer) := by
  obtain ⟨next, hsim, hfd, hbuffer, hsockets⟩ := foldlM_clear clientSlots (setListener server)
  have hnext : next = server.clearSockets := by
    have htable : next.sockets = server.clearSockets.sockets := by
      funext i
      rw [hsockets, setListener, TcpServer.clearSockets]
      by_cases hi : i = serverSlot
      · rw [if_neg fun hmem => TcpServer.mem_clientSlots.mp hmem hi, hi]
        dsimp only
        rw [Function.update_self, if_pos rfl]
      · rw [if_pos (TcpServer.mem_clientSlots.mpr hi)]
        dsimp only
        rw [Function.update_of_ne hi, if_neg hi]
    cases next with
    | mk buffer sockets fd =>
      cases hfd
      cases hbuffer
      cases htable
      rfl
  rw [← hnext]
  exact store_then hsim

theorem setup_simulates (env : SetupEnv) (server : TcpServer) :
    Traced.Simulates callOf some Eq (setup env server) (TcpServer.setup env server) := by
  rw [setup, TcpServer.setup]
  refine (call_simulates _).bind ?_
  intro _ _ _
  refine store_then ?_
  dsimp only
  split
  · exact .stop' _
  · refine (call_simulates _).bind ?_
    intro _ _ _
    split
    · exact .stop' _
    · refine (call_simulates _).bind ?_
      intro _ _ _
      split
      · exact .stop' _
      · exact clear_simulates _

/-- **The calls among the moments of a run are those of the run**, and it ends the same way. -/
theorem run_simulates (setupEnv : SetupEnv) (envs : List LoopEnv) :
    Traced.Simulates callOf some Eq (run onMessage setupEnv envs)
      (TcpServer.run onMessage setupEnv envs) := by
  refine (setup_simulates setupEnv {}).bind ?_
  intro s _ heq
  cases heq
  refine Traced.Simulates.foldlM envs ?_ rfl
  intro env t _ heq
  cases heq
  exact iteration_simulates t env

end Simulation

end Shutdown

end FcsServer
