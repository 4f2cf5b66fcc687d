import FcsServer.MessageHandler

/-!
# `TcpServer`: the poll loop

The server object, the answers of the kernel for one pass, and the loop body of `run`.  What
the kernel answers while a slot is visited is kept by slot; answers to calls that are not made
are never looked at.

Of the kernel it is assumed that `poll` reports no event for an entry with a negative
descriptor, and that `recv` returns at most as many bytes as the buffer has room for.  Both are
built into the two calls.  That `SIGPIPE` keeps its default disposition is in `Stop.sigpipe`.
Writing a line to the console is assumed to succeed.

* `handleEventIfAny`, `acceptConnection`, `dropUnusedConnections` — the branches of the source;
* `iteration` / `run` — the loop body, and the loop for any number of iterations.
-/

namespace FcsServer

open LittleEndian

def kMaxNumberOfConnections : ℕ := 20
def kNumberOfSockets : ℕ := kMaxNumberOfConnections + 1
def kMaxMessageSizeInBytes : ℕ := 10000

def pollIn : UInt16 := 0x01
def pollErr : UInt16 := 0x08
def pollHup : UInt16 := 0x10

structure PollFd where
  fd : ℤ := 0
  events : UInt16 := 0
  revents : UInt16 := 0
  deriving DecidableEq, Repr

/-- An index into the `sockets` array. -/
abbrev Slot := Fin kNumberOfSockets

/-- The slot of the listening socket. -/
def serverSlot : Slot := ⟨0, by decide⟩

def firstClient : Slot := ⟨1, by decide⟩

/-- Slots 1..20, in the order of the source's loops. -/
def clientSlots : List Slot := (List.finRange kMaxNumberOfConnections).map Fin.succ

structure TcpServer where
  messageBuffer : List UInt8 := List.replicate kMaxMessageSizeInBytes 0
  sockets : Slot → PollFd := fun _ => {}
  serverSocketFd : ℤ := -1

/-- The message callback.  It reads the message and returns the response buffer. -/
abbrev OnMessage := MessageHandler.Env → List UInt8 → List UInt8 → Proc (List UInt8)

/-- The answers of the kernel and the device while one slot is visited. -/
structure SlotEnv where
  accepted : ℤ
  received : RecvResult
  handler : MessageHandler.Env
  sent : SendResult

/-- The answers during one iteration of the loop. -/
structure LoopEnv where
  numberOfEvents : ℤ
  revents : Slot → UInt16
  slot : Slot → SlotEnv

structure SetupEnv where
  socket : ℤ
  bind : ℤ
  listen : ℤ

/-- `recv` into a buffer of `size` bytes. -/
def RecvResult.within (size : ℕ) : RecvResult → RecvResult
  | .failed => .failed
  | .received bytes => .received (bytes.take size)

namespace TcpServer

/-- Only the descriptor of slot `i` changes. -/
def setFd (server : TcpServer) (i : Slot) (fd : ℤ) : TcpServer :=
  { server with
    sockets := Function.update server.sockets i { server.sockets i with fd := fd } }

/-- Nothing but the message buffer changes. -/
def setBuffer (server : TcpServer) (buffer : List UInt8) : TcpServer :=
  { server with messageBuffer := buffer }

def closeConnectionAndEnableForReuse (server : TcpServer) (i : Slot) : Proc TcpServer := do
  Traced.call (.close (server.sockets i).fd)
  return server.setFd i (-1)

/-- The first client slot without a descriptor. -/
def freeSlot (server : TcpServer) : Option Slot :=
  clientSlots.find? fun i => (server.sockets i).fd = -1

/-- A failed `accept` is stored like any other result. -/
def acceptConnection (server : TcpServer) (env : SlotEnv) : Proc TcpServer :=
  match server.freeSlot with
  | none => return server
  | some i => do
    Traced.call (.accept env.accepted)
    return server.setFd i env.accepted

def handleEventIfAny (onMessage : OnMessage) (env : SlotEnv) (server : TcpServer) (i : Slot) :
    Proc TcpServer :=
  let socket := server.sockets i
  if socket.fd = server.serverSocketFd ∧ socket.revents = pollIn then
    server.acceptConnection env
  else if socket.revents = pollIn then do
    let server := server.setBuffer (resize kMaxMessageSizeInBytes 0 server.messageBuffer)
    let result := env.received.within server.messageBuffer.length
    Traced.call (.recv socket.fd result)
    match result with
    | .failed => server.closeConnectionAndEnableForReuse i
    | .received bytes =>
      if bytes.length = 0 then
        server.closeConnectionAndEnableForReuse i
      else
        let server := server.setBuffer
          (resize bytes.length 0 (overwrite bytes server.messageBuffer))
        let responseBuffer ← onMessage env.handler server.messageBuffer []
        Traced.call (.onMessage socket.fd server.messageBuffer responseBuffer)
        if responseBuffer.length > 0 then
          Traced.call (.send socket.fd responseBuffer env.sent)
          -- a failed send is logged and nothing else
          if env.sent = .brokenPipe then
            Traced.stop .sigpipe
          else
            return server
        else
          server.closeConnectionAndEnableForReuse i
  else if socket.revents = pollHup ∨ socket.revents = pollErr then
    server.closeConnectionAndEnableForReuse i
  else
    return server

/-- The body of the event loop for one slot. -/
def visit (onMessage : OnMessage) (env : Slot → SlotEnv) (server : TcpServer) (i : Slot) :
    Proc TcpServer :=
  if (server.sockets i).fd ≠ -1 then
    server.handleEventIfAny onMessage (env i) i
  else
    return server

/-- The body of `dropUnusedConnections` for one slot. -/
def dropIfUsed (server : TcpServer) (i : Slot) : Proc TcpServer :=
  if (server.sockets i).fd ≠ -1 then
    server.closeConnectionAndEnableForReuse i
  else
    return server

def dropUnusedConnections (server : TcpServer) : Proc TcpServer :=
  clientSlots.foldlM dropIfUsed server

/-- The body of `closeSockets` for one slot; the table keeps its entry. -/
def closeIfUsed (server : TcpServer) (_ : Unit) (i : Slot) : Proc Unit :=
  if (server.sockets i).fd ≠ -1 then
    Traced.call (.close (server.sockets i).fd)
  else
    return ()

/-- What the handler of `SIGINT` and `SIGTERM` calls before the process ends. -/
def closeSockets (server : TcpServer) : Proc Unit := do
  clientSlots.foldlM server.closeIfUsed ()
  Traced.call (.close server.serverSocketFd)

/-- What the loop sets before each `poll`: the first slot keeps its entry. -/
def resetEvents (server : TcpServer) : TcpServer :=
  { server with
    sockets := fun i =>
      if i = serverSlot then server.sockets i
      else { server.sockets i with events := pollIn, revents := 0 } }

/-- `poll` writes the events it reports. -/
def setRevents (server : TcpServer) (revents : Slot → UInt16) : TcpServer :=
  { server with
    sockets := fun i =>
      { server.sockets i with
        revents := if (server.sockets i).fd < 0 then 0 else revents i } }

/-- The descriptors of the table, slot by slot. -/
def fds (server : TcpServer) : List ℤ :=
  (List.finRange kNumberOfSockets).map fun i => (server.sockets i).fd

/-- The events that `poll` is asked for, slot by slot. -/
def allEvents (server : TcpServer) : List UInt16 :=
  (List.finRange kNumberOfSockets).map fun i => (server.sockets i).events

def allRevents (server : TcpServer) : List UInt16 :=
  (List.finRange kNumberOfSockets).map fun i => (server.sockets i).revents

/-- The table as the event pass finds it. -/
def polled (server : TcpServer) (revents : Slot → UInt16) : TcpServer :=
  server.resetEvents.setRevents revents

/-- One iteration of the loop of `run`. -/
def iteration (onMessage : OnMessage) (server : TcpServer) (env : LoopEnv) : Proc TcpServer := do
  let server := server.polled env.revents
  Traced.call (.poll server.fds server.allEvents server.allRevents env.numberOfEvents)
  if env.numberOfEvents < 0 then
    Traced.stop (.exit 1)
  else if env.numberOfEvents = 0 then
    server.dropUnusedConnections
  else
    (List.finRange kNumberOfSockets).foldlM (visit onMessage env.slot) server

/-- The table with the listening socket in the first slot and no clients. -/
def clearSockets (server : TcpServer) : TcpServer :=
  { server with
    sockets := fun i =>
      if i = serverSlot then
        { server.sockets i with fd := server.serverSocketFd, events := pollIn }
      else { server.sockets i with fd := -1 } }

def setup (env : SetupEnv) (server : TcpServer) : Proc TcpServer := do
  let server := { server with serverSocketFd := env.socket }
  Traced.call (.socket env.socket)
  if server.serverSocketFd = -1 then
    Traced.stop (.exit 1)
  else
    Traced.call (.bind server.serverSocketFd env.bind)
    if env.bind < 0 then
      Traced.stop (.exit 1)
    else
      Traced.call (.listen server.serverSocketFd env.listen)
      if env.listen = -1 then
        Traced.stop (.exit 1)
      else
        return server.clearSockets

/-- The iterations of the loop, from a given state. -/
def loop (onMessage : OnMessage) (envs : List LoopEnv) (server : TcpServer) : Proc TcpServer :=
  envs.foldlM (iteration onMessage) server

/-- `run`, for as many iterations as there are answers for. -/
def run (onMessage : OnMessage) (setupEnv : SetupEnv) (envs : List LoopEnv) : Proc TcpServer := do
  let server ← setup setupEnv {}
  server.loop onMessage envs

/-- The four ways through `setup`. -/
theorem setup_eq (env : SetupEnv) (server : TcpServer) :
    setup env server
      = if env.socket = -1 then ⟨[.socket env.socket], .error (.exit 1)⟩
        else if env.bind < 0 then
          ⟨[.socket env.socket, .bind env.socket env.bind], .error (.exit 1)⟩
        else if env.listen = -1 then
          ⟨[.socket env.socket, .bind env.socket env.bind, .listen env.socket env.listen],
            .error (.exit 1)⟩
        else
          ⟨[.socket env.socket, .bind env.socket env.bind, .listen env.socket env.listen],
            .ok { server with serverSocketFd := env.socket }.clearSockets⟩ := by
  rw [setup, Traced.call_bind]
  dsimp only
  split
  · rfl
  · rw [Traced.call_bind]
    split
    · rfl
    · rw [Traced.call_bind]
      split <;> rfl

end TcpServer

end FcsServer
