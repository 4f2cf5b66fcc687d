import FcsServer.FilterLog
import FcsServer.Shutdown
import FcsServer.TableState

/-!
# The server with its log

The functions of `TcpServer` with the lines they write, and the reports of calls that failed.

* `SlotErrno`, `LoopErrno`, `SetupErrno` — what `errno` is, each time it is read;
* `setup`, `handleEventIfAny`, …, `run`, `onSignal` — the functions of the source;
* `visit_simulates`, `iteration_simulates`, `run_simulates` — the calls among the events are those
  of the functions without a log; `logged_run` — of the server without its log.
-/

namespace FcsServer

open LittleEndian

namespace Logging

/-- What `errno` is after the calls of one visit. -/
structure SlotErrno where
  accept : ℤ
  recv : ℤ
  device : DeviceErrno
  send : ℤ

structure LoopErrno where
  poll : ℤ
  slot : Slot → SlotErrno

/-- `bindLogged` is what `errno` is after the line about `bind` was written. -/
structure SetupErrno where
  socket : ℤ
  bind : ℤ
  bindLogged : ℤ
  listen : ℤ

/-- The message callback with its log. -/
abbrev OnMessage := DeviceErrno → MessageHandler.Env → List UInt8 → List UInt8 → Logged (List UInt8)

def closeConnectionAndEnableForReuse (server : TcpServer) (i : Slot) : Logged TcpServer := do
  log ("Connection closed: Socket fd: " ++ toString (server.sockets i).fd) .info
  call (.close (server.sockets i).fd)
  return server.setFd i (-1)

/-- The report of a failed `accept`. -/
def reportAccept (errno accepted : ℤ) : Logged Unit :=
  if accepted = -1 then do
    let errorCode ← readErrno errno
    if errorCode ≠ ewouldblock then
      logWithErrno "Accept failed." errno .error
    else
      return ()
  else
    return ()

def acceptConnection (errno : SlotErrno) (env : SlotEnv) (server : TcpServer) :
    Logged TcpServer :=
  match server.freeSlot with
  | none => return server
  | some i => do
    call (.accept env.accepted)
    reportAccept errno.accept env.accepted
    log ("Incoming connection: Socket fd: " ++ toString env.accepted) .debug
    return server.setFd i env.accepted

def handleEventIfAny (onMessage : OnMessage) (errno : SlotErrno) (env : SlotEnv)
    (server : TcpServer) (i : Slot) : Logged TcpServer :=
  let socket := server.sockets i
  if socket.fd = server.serverSocketFd ∧ socket.revents = pollIn then
    acceptConnection errno env server
  else if socket.revents = pollIn then do
    let server := server.setBuffer (resize kMaxMessageSizeInBytes 0 server.messageBuffer)
    let result := env.received.within server.messageBuffer.length
    call (.recv socket.fd result)
    match result with
    | .failed => do
      logWithErrno "Recv failed" errno.recv .error
      closeConnectionAndEnableForReuse server i
    | .received bytes =>
      if bytes.length = 0 then
        closeConnectionAndEnableForReuse server i
      else
        let server := server.setBuffer
          (resize bytes.length 0 (overwrite bytes server.messageBuffer))
        log ("Received message: Socket fd: " ++ toString socket.fd) .info
        let responseBuffer ← onMessage errno.device env.handler server.messageBuffer []
        call (.onMessage socket.fd server.messageBuffer responseBuffer)
        if responseBuffer.length > 0 then
          log ("Sending Response: " ++ toString responseBuffer.length ++ " bytes") .info
          call (.send socket.fd responseBuffer env.sent)
          match env.sent with
          | .brokenPipe => Traced.stop .sigpipe
          | .failed => do
            logWithErrno "Send failed" errno.send .error
            return server
          | .accepted _ => return server
        else
          log "No data to send. Closing connection" .info
          closeConnectionAndEnableForReuse server i
  else if socket.revents = pollHup ∨ socket.revents = pollErr then
    closeConnectionAndEnableForReuse server i
  else
    return server

def visit (onMessage : OnMessage) (errno : Slot → SlotErrno) (env : Slot → SlotEnv)
    (server : TcpServer) (i : Slot) : Logged TcpServer :=
  if (server.sockets i).fd ≠ -1 then
    handleEventIfAny onMessage (errno i) (env i) server i
  else
    return server

/-- The line names the slot, not the descriptor. -/
def dropIfUsed (server : TcpServer) (i : Slot) : Logged TcpServer :=
  if (server.sockets i).fd ≠ -1 then do
    log ("Dropping unused connection: Socket fd: " ++ toString i.val) .debug
    closeConnectionAndEnableForReuse server i
  else
    return server

def dropUnusedConnections (server : TcpServer) : Logged TcpServer :=
  clientSlots.foldlM dropIfUsed server

def iteration (onMessage : OnMessage) (server : TcpServer) (env : LoopErrno × LoopEnv) :
    Logged TcpServer := do
  let (errno, env) := env
  let server := server.polled env.revents
  call (.poll server.fds server.allEvents server.allRevents env.numberOfEvents)
  if env.numberOfEvents < 0 then
    logWithErrno "Poll failed." errno.poll .error
    Traced.stop (.exit 1)
  else if env.numberOfEvents = 0 then
    dropUnusedConnections server
  else
    (List.finRange kNumberOfSockets).foldlM (visit onMessage errno.slot env.slot) server

def setup (portNumber : UInt32) (errno : SetupErrno) (env : SetupEnv) (server : TcpServer) :
    Logged TcpServer := do
  log "Setting up TCP server..." .debug
  let server := { server with serverSocketFd := env.socket }
  call (.socket env.socket)
  if server.serverSocketFd = -1 then
    logWithErrno "Could not create socket." errno.socket .fatal
    Traced.stop (.exit 1)
  else
    call (.bind server.serverSocketFd env.bind)
    if env.bind < 0 then
      logWithErrno "Bind failed." errno.bind .fatal
      let errorCode ← readErrno errno.bindLogged
      if errorCode = eaddrinuse then
        log ("Port " ++ toString portNumber.toNat ++ " already in use") .fatal
        Traced.stop (.exit 1)
      else
        Traced.stop (.exit 1)
    else
      call (.listen server.serverSocketFd env.listen)
      if env.listen = -1 then
        logWithErrno "Listen failed." errno.listen .fatal
        Traced.stop (.exit 1)
      else
        return server.clearSockets

def loop (onMessage : OnMessage) (envs : List (LoopErrno × LoopEnv)) (server : TcpServer) :
    Logged TcpServer :=
  envs.foldlM (iteration onMessage) server

def run (onMessage : OnMessage) (portNumber : UInt32) (setupErrno : SetupErrno)
    (setupEnv : SetupEnv) (envs : List (LoopErrno × LoopEnv)) : Logged TcpServer := do
  let server ← setup portNumber setupErrno setupEnv {}
  log ("Server started on port " ++ toString portNumber.toNat) .info
  loop onMessage envs server

def closeIfUsed (server : TcpServer) (_ : Unit) (i : Slot) : Logged Unit :=
  if (server.sockets i).fd ≠ -1 then
    call (.close (server.sockets i).fd)
  else
    return ()

/-- The signal handler announces itself once, and none of the connections that it closes. -/
def closeSockets (server : TcpServer) : Logged Unit := do
  clientSlots.foldlM (closeIfUsed server) ()
  call (.close server.serverSocketFd)

def onSignal (s : ℤ) (server : TcpServer) : Logged Unit :=
  if s = Shutdown.sigInt ∨ s = Shutdown.sigTerm then do
    log "Signal caught, terminating" .info
    closeSockets server
    Traced.stop (.exit 0)
  else
    return ()

/-! ### The same calls -/

/-- The callback makes the calls of one without a log. -/
def CallsLike (onMessage : OnMessage) (plain : FcsServer.OnMessage) : Prop :=
  ∀ errno env m b, Traced.Simulates callOf some Eq (onMessage errno env m b) (plain env m b)

section Simulation

variable {onMessage : OnMessage} {plain : FcsServer.OnMessage}

theorem close_simulates (server : TcpServer) (i : Slot) :
    Traced.Simulates callOf some Eq (closeConnectionAndEnableForReuse server i)
      (server.closeConnectionAndEnableForReuse i) :=
  log_then ((call_simulates _).bind fun _ _ _ => .pure' rfl)

theorem reportAccept_simulates (errno accepted : ℤ) :
    Traced.Simulates callOf some Eq (reportAccept errno accepted) (pure () : Proc Unit) := by
  rw [reportAccept]
  split
  · rw [readErrno, Traced.call_bind, Traced.pure_eq, Traced.mk_ok_bind]
    split
    · exact ⟨rfl, .ok rfl⟩
    · exact ⟨rfl, .ok rfl⟩
  · exact .pure' rfl

theorem accept_simulates (errno : SlotErrno) (env : SlotEnv) (server : TcpServer) :
    Traced.Simulates callOf some Eq (acceptConnection errno env server)
      (server.acceptConnection env) := by
  rw [acceptConnection, TcpServer.acceptConnection]
  cases server.freeSlot with
  | none => exact .pure' rfl
  | some j =>
    refine (call_simulates _).bind ?_
    intro _ _ _
    exact (reportAccept_simulates _ _).bind_pure (log_then (.pure' rfl))

theorem handleEventIfAny_simulates (honMessage : CallsLike onMessage plain) (errno : SlotErrno)
    (env : SlotEnv) (server : TcpServer) (i : Slot) :
    Traced.Simulates callOf some Eq (handleEventIfAny onMessage errno env server i)
      (server.handleEventIfAny plain env i) := by
  rw [handleEventIfAny, TcpServer.handleEventIfAny]
  dsimp only
  split
  · exact accept_simulates errno env server
  · split
    · refine (call_simulates _).bind ?_
      intro _ _ _
      cases env.received.within _ with
      | failed => exact logWithErrno_then (close_simulates _ i)
      | received bytes =>
        dsimp only
        split
        · exact close_simulates _ i
        · refine log_then ((honMessage _ _ _ _).bind ?_)
          intro response _ heq
          cases heq
          refine (call_simulates _).bind ?_
          intro _ _ _
          split
          · refine log_then ((call_simulates _).bind ?_)
            intro _ _ _
            cases env.sent with
            | accepted n => exact .pure' rfl
            | failed => exact logWithErrno_then (.pure' rfl)
            | brokenPipe => exact .stop' _
          · exact log_then (close_simulates _ i)
    · split
      · exact close_simulates server i
      · exact .pure' rfl

theorem visit_simulates (honMessage : CallsLike onMessage plain) (errno : Slot → SlotErrno)
    (env : Slot → SlotEnv) (server : TcpServer) (i : Slot) :
    Traced.Simulates callOf some Eq (visit onMessage errno env server i)
      (server.visit plain env i) := by
  rw [visit, TcpServer.visit]
  split
  · exact handleEventIfAny_simulates honMessage (errno i) (env i) server i
  · exact .pure' rfl

theorem dropIfUsed_simulates (server : TcpServer) (i : Slot) :
    Traced.Simulates callOf some Eq (dropIfUsed server i) (server.dropIfUsed i) := by
  rw [dropIfUsed, TcpServer.dropIfUsed]
  split
  · exact log_then (close_simulates server i)
  · exact .pure' rfl

theorem iteration_simulates (honMessage : CallsLike onMessage plain) (server : TcpServer)
    (env : LoopErrno × LoopEnv) :
    Traced.Simulates callOf some Eq (iteration onMessage server env)
      (server.iteration plain env.2) := by
  rw [iteration, TcpServer.iteration]
  refine (call_simulates _).bind ?_
  intro _ _ _
  split
  · exact logWithErrno_then (.stop' _)
  · split
    · refine Traced.Simulates.foldlM clientSlots ?_ rfl
      intro i s _ heq
      cases heq
      exact dropIfUsed_simulates s i
    · refine Traced.Simulates.foldlM _ ?_ rfl
      intro i s _ heq
      cases heq
      exact visit_simulates honMessage env.1.slot env.2.slot s i

theorem setup_simulates (portNumber : UInt32) (errno : SetupErrno) (env : SetupEnv)
    (server : TcpServer) :
    Traced.Simulates callOf some Eq (setup portNumber errno env server)
      (TcpServer.setup env server) := by
  rw [setup, TcpServer.setup]
  refine log_then ((call_simulates _).bind ?_)
  intro _ _ _
  split
  · exact logWithErrno_then (.stop' _)
  · refine (call_simulates _).bind ?_
    intro _ _ _
    split
    · refine logWithErrno_then ?_
      rw [readErrno, Traced.call_bind, Traced.pure_eq, Traced.mk_ok_bind]
      split
      · exact ⟨rfl, .error _⟩
      · exact ⟨rfl, .error _⟩
    · refine (call_simulates _).bind ?_
      intro _ _ _
      split
      · exact logWithErrno_then (.stop' _)
      · exact .pure' rfl

theorem loop_simulates (honMessage : CallsLike onMessage plain)
    (envs : List (LoopErrno × LoopEnv)) (server : TcpServer) :
    Traced.Simulates callOf some Eq (loop onMessage envs server)
      (server.loop plain (envs.map Prod.snd)) := by
  have henvs : List.Forall₂ (fun x e => x.2 = e) envs (envs.map Prod.snd) := by
    rw [List.forall₂_map_right_iff, List.forall₂_same]
    exact fun _ _ => rfl
  refine Traced.Simulates.foldlM₂ henvs ?_ rfl
  intro env _ heq s _ hs
  cases heq
  cases hs
  exact iteration_simulates honMessage s env

/-- **The log changes nothing of what the server does.** -/
theorem run_simulates (honMessage : CallsLike onMessage plain) (portNumber : UInt32)
    (setupErrno : SetupErrno) (setupEnv : SetupEnv) (envs : List (LoopErrno × LoopEnv)) :
    Traced.Simulates callOf some Eq (run onMessage portNumber setupErrno setupEnv envs)
      (TcpServer.run plain setupEnv (envs.map Prod.snd)) := by
  refine (setup_simulates portNumber setupErrno setupEnv {}).bind ?_
  intro server _ heq
  cases heq
  exact log_then (loop_simulates honMessage envs server)

theorem closeSockets_simulates (server : TcpServer) :
    Traced.Simulates callOf some (fun _ _ => True) (closeSockets server) server.closeSockets := by
  refine Traced.Simulates.bind (r := fun _ _ => True) ?_ fun _ _ _ => call_simulates _
  refine Traced.Simulates.foldlM clientSlots ?_ trivial
  intro i _ _ _
  rw [closeIfUsed, TcpServer.closeIfUsed]
  split
  · exact call_simulates _
  · exact .pure' trivial

theorem onSignal_simulates (s : ℤ) (server : TcpServer) :
    Traced.Simulates callOf some Eq (onSignal s server) (Shutdown.onSignal s server) := by
  rw [onSignal, Shutdown.onSignal]
  split
  · exact log_then ((closeSockets_simulates server).bind fun _ _ _ => .stop' _)
  · exact .pure' rfl

/-- The server makes the calls, and ends in the way, that it does without its log. -/
theorem logged_run (portNumber : UInt32) (setupErrno : SetupErrno) (setupEnv : SetupEnv)
    (envs : List (LoopErrno × LoopEnv)) :
    (run handleIncomingMessage portNumber setupErrno setupEnv envs).calls.filterMap callOf
        = (TcpServer.run MessageHandler.handleIncomingMessage setupEnv
            (envs.map Prod.snd)).calls ∧
      (run handleIncomingMessage portNumber setupErrno setupEnv envs).result
        = (TcpServer.run MessageHandler.handleIncomingMessage setupEnv
            (envs.map Prod.snd)).result := by
  have hrun := run_simulates handle_simulates portNumber setupErrno setupEnv envs
  exact ⟨hrun.calls_eq, hrun.result.eq⟩

end Simulation

end Logging

end FcsServer
