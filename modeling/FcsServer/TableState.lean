import FcsServer.Lib.Simulation
import FcsServer.EventPass

/-!
# The state of the server is its table of descriptors

The server object also keeps the last message, the events of the last `poll` and, for each slot, the
events to poll for.  The loop sets the latter again before each `poll`, but not those of slot 0.
Nothing else reaches further than the iteration that wrote it: two servers with the same descriptors
and the same events to poll slot 0 for make the same calls for ever, whatever their buffers hold and
whatever the callback is.

* `SameTable` / `SamePass` — the same descriptors and events to poll slot 0 for; the same reported
  events as well;
* `visit_alike`, `iteration_alike`, `loop_alike` — one slot, one iteration, the loop;
* `table_determines` — what two servers with the same table do;
* `timeout_restarts` — after a timeout the server is as it was when it started.
-/

namespace FcsServer

open LittleEndian

namespace TcpServer

/-- The same descriptors in the same slots, and the same events to poll for in slot 0, where the
loop leaves them as they are. -/
structure SameTable (server server' : TcpServer) : Prop where
  fd : ∀ i, (server.sockets i).fd = (server'.sockets i).fd
  listener : server.serverSocketFd = server'.serverSocketFd
  events : (server.sockets serverSlot).events = (server'.sockets serverSlot).events

/-- The same table and the same reported events. -/
structure SamePass (server server' : TcpServer) : Prop extends SameTable server server' where
  revents : ∀ i, (server.sockets i).revents = (server'.sockets i).revents

section Alike

variable {onMessage : OnMessage} {server server' : TcpServer} {i : Slot}

theorem SameTable.trans {server'' : TcpServer} (h : SameTable server server')
    (h' : SameTable server' server'') : SameTable server server'' :=
  ⟨fun i => (h.fd i).trans (h'.fd i), h.listener.trans h'.listener, h.events.trans h'.events⟩

/-- `poll` overwrites the reported events. -/
theorem SameTable.polled (h : SameTable server server') (revents : Slot → UInt16) :
    SamePass (server.polled revents) (server'.polled revents) := by
  constructor
  · constructor
    · intro i
      rw [polled_fd, polled_fd]
      exact h.fd i
    · exact h.listener
    · rw [polled_events_serverSlot, polled_events_serverSlot]
      exact h.events
  · intro i
    rw [polled_revents, polled_revents, h.fd i]

/-- `poll` is called for the same events. -/
theorem SameTable.allEvents (h : SameTable server server') (revents : Slot → UInt16) :
    (server.polled revents).allEvents = (server'.polled revents).allEvents := by
  refine List.map_congr_left fun i _ => ?_
  rw [polled_events, polled_events]
  split
  · rename_i hi
    rw [hi]
    exact h.events
  · rfl

theorem SameTable.fds (h : SameTable server server') : server.fds = server'.fds :=
  List.map_congr_left fun i _ => h.fd i

theorem SamePass.allRevents (h : SamePass server server') :
    server.allRevents = server'.allRevents :=
  List.map_congr_left fun i _ => h.revents i

theorem SameTable.freeSlot (h : SameTable server server') :
    server.freeSlot = server'.freeSlot := by
  simp only [TcpServer.freeSlot, h.fd]

theorem SamePass.setFd (h : SamePass server server') (i : Slot) (fd : ℤ) :
    SamePass (server.setFd i fd) (server'.setFd i fd) := by
  constructor
  · constructor
    · intro j
      rw [setFd_fd, setFd_fd, h.fd j]
    · exact h.listener
    · rw [setFd_events, setFd_events]
      exact h.events
  · intro j
    rw [setFd_revents, setFd_revents]
    exact h.revents j

theorem SamePass.setBuffer (h : SamePass server server') (buffer buffer' : List UInt8) :
    SamePass (server.setBuffer buffer) (server'.setBuffer buffer') :=
  ⟨⟨h.fd, h.listener, h.events⟩, h.revents⟩

theorem close_alike (h : SamePass server server') (i : Slot) :
    Traced.Simulates some some SamePass (server.closeConnectionAndEnableForReuse i)
      (server'.closeConnectionAndEnableForReuse i) := by
  rw [closeConnectionAndEnableForReuse, closeConnectionAndEnableForReuse, h.fd i]
  exact (Traced.Simulates.call' rfl).bind fun _ _ _ => .pure' (h.setFd i (-1))

theorem acceptConnection_alike (h : SamePass server server') (env : SlotEnv) :
    Traced.Simulates some some SamePass (server.acceptConnection env)
      (server'.acceptConnection env) := by
  rw [acceptConnection, acceptConnection, h.freeSlot]
  cases server'.freeSlot with
  | none => exact .pure' h
  | some j =>
    exact (Traced.Simulates.call' rfl).bind fun _ _ _ => .pure' (h.setFd j env.accepted)

/-- The message is what `recv` returned, whatever either buffer held before. -/
theorem handleEventIfAny_alike (h : SamePass server server') (env : SlotEnv) (i : Slot) :
    Traced.Simulates some some SamePass (server.handleEventIfAny onMessage env i)
      (server'.handleEventIfAny onMessage env i) := by
  rw [handleEventIfAny, handleEventIfAny]
  dsimp only
  rw [h.fd i, h.revents i, h.listener]
  split
  · exact acceptConnection_alike h env
  · split
    · have hsize : ∀ s : TcpServer, (s.setBuffer
          (resize kMaxMessageSizeInBytes 0 s.messageBuffer)).messageBuffer.length
          = kMaxMessageSizeInBytes := fun s => length_resize _ _ _
      rw [hsize, hsize]
      refine (Traced.Simulates.call' rfl).bind ?_
      intro _ _ _
      cases hresult : env.received.within kMaxMessageSizeInBytes with
      | failed => exact close_alike (h.setBuffer _ _) i
      | received bytes =>
        dsimp only
        split
        · exact close_alike (h.setBuffer _ _) i
        · have hmessage : ∀ s : TcpServer, resize bytes.length 0 (overwrite bytes (s.setBuffer
              (resize kMaxMessageSizeInBytes 0 s.messageBuffer)).messageBuffer) = bytes :=
            fun s => resize_overwrite ((within_length_le hresult).trans_eq (hsize s).symm)
          rw [hmessage, hmessage]
          refine (Traced.Simulates.refl some (onMessage env.handler bytes [])).bind ?_
          intro response _ heq
          cases heq
          refine (Traced.Simulates.call' rfl).bind ?_
          intro _ _ _
          split
          · refine (Traced.Simulates.call' rfl).bind ?_
            intro _ _ _
            split
            · exact .stop' Stop.sigpipe
            · exact .pure' ((h.setBuffer _ _).setBuffer _ _)
          · exact close_alike ((h.setBuffer _ _).setBuffer _ _) i
    · split
      · exact close_alike h i
      · exact .pure' h

theorem visit_alike (h : SamePass server server') (env : Slot → SlotEnv) (i : Slot) :
    Traced.Simulates some some SamePass (server.visit onMessage env i)
      (server'.visit onMessage env i) := by
  rw [visit, visit, h.fd i]
  split
  · exact handleEventIfAny_alike h (env i) i
  · exact .pure' h

theorem dropIfUsed_alike (h : SamePass server server') (i : Slot) :
    Traced.Simulates some some SamePass (server.dropIfUsed i) (server'.dropIfUsed i) := by
  rw [dropIfUsed, dropIfUsed, h.fd i]
  split
  · exact close_alike h i
  · exact .pure' h

theorem iteration_alike (h : SameTable server server') (env : LoopEnv) :
    Traced.Simulates some some SameTable (server.iteration onMessage env)
      (server'.iteration onMessage env) := by
  have hpolled := h.polled env.revents
  rw [iteration, iteration]
  rw [hpolled.fds, hpolled.allRevents, h.allEvents]
  refine (Traced.Simulates.call' rfl).bind ?_
  intro _ _ _
  split
  · exact .stop' _
  · split
    · refine (Traced.Simulates.foldlM clientSlots ?_ hpolled).mono fun _ _ => SamePass.toSameTable
      exact fun i s s' hs => dropIfUsed_alike hs i
    · refine (Traced.Simulates.foldlM _ ?_ hpolled).mono fun _ _ => SamePass.toSameTable
      exact fun i s s' hs => visit_alike hs env.slot i

theorem loop_alike (h : SameTable server server') (envs : List LoopEnv) :
    Traced.Simulates some some SameTable (server.loop onMessage envs)
      (server'.loop onMessage envs) :=
  Traced.Simulates.foldlM envs (fun env _ _ hs => iteration_alike hs env) h

end Alike

/-- **The table is all the state there is.**  Two servers with the same descriptors, and the same
events to poll for in slot 0, make the same calls, answer for answer, and end alike: the buffers,
the reported events and what the other slots were polled for play no part. -/
theorem table_determines (onMessage : OnMessage) (envs : List LoopEnv)
    (server server' : TcpServer) (h : SameTable server server') :
    (server.loop onMessage envs).calls = (server'.loop onMessage envs).calls ∧
      Traced.EndsAlike SameTable (server.loop onMessage envs).result
        (server'.loop onMessage envs).result := by
  have hsim : Traced.Simulates some some SameTable (server.loop onMessage envs)
      (server'.loop onMessage envs) := loop_alike h envs
  refine ⟨?_, hsim.result⟩
  rw [← hsim.calls_eq, List.filterMap_some]

/-- A client connects to a server that has read a message and seen other events, and to one that
has not. -/
theorem table_determines_connects :
    (connected.loop MessageHandler.handleIncomingMessage [connects 5]).calls
        = (((connected.polled fun _ => pollErr).setBuffer [1]).loop
            MessageHandler.handleIncomingMessage [connects 5]).calls ∧
      Traced.EndsAlike SameTable
        (connected.loop MessageHandler.handleIncomingMessage [connects 5]).result
        (((connected.polled fun _ => pollErr).setBuffer [1]).loop
          MessageHandler.handleIncomingMessage [connects 5]).result := by
  refine table_determines MessageHandler.handleIncomingMessage [connects 5] connected
    ((connected.polled fun _ => pollErr).setBuffer [1]) ⟨?_, rfl, ?_⟩
  · intro i
    rw [setBuffer_sockets, polled_fd]
  · rw [setBuffer_sockets, polled_events_serverSlot]

/-! ### Timeouts -/

section Timeouts

variable {onMessage : OnMessage} {server started : TcpServer} {setupEnv : SetupEnv}
  {envs : List LoopEnv} {env : LoopEnv}

/-- A `setup` that returns makes three calls, and leaves the listening socket in slot 0. -/
theorem setup_ok (h : (setup setupEnv {}).result = .ok started) :
    (setup setupEnv {}).calls.length = 3 ∧
      started = clearSockets { serverSocketFd := setupEnv.socket } := by
  rw [setup_eq] at h ⊢
  split_ifs at h with hsocket hbind hlisten
  cases h
  rw [if_neg hsocket, if_neg hbind, if_neg hlisten]
  exact ⟨rfl, rfl⟩

/-- A timeout leaves only the listening socket in the table. -/
theorem timeout_table (onMessage : OnMessage)
    (hlisten : (server.sockets serverSlot).fd = server.serverSocketFd)
    (hevents : (server.sockets serverSlot).events = pollIn) (htime : env.numberOfEvents = 0) :
    ∃ next, (server.iteration onMessage env).result = .ok next ∧
      SameTable next (clearSockets { serverSocketFd := server.serverSocketFd }) := by
  obtain ⟨next, hnext, hfd⟩ := foldlM_dropIfUsed (server.polled env.revents) clientSlots
  have hiter : (server.iteration onMessage env).result = .ok next := by
    rw [iteration_timeout htime]
    exact hnext
  have hkept : next.serverSocketFd = server.serverSocketFd ∧
      (next.sockets serverSlot).events = pollIn := by
    refine Traced.foldlM_invariant (p := fun s => s.serverSocketFd = server.serverSocketFd ∧
      (s.sockets serverSlot).events = pollIn) clientSlots ?_ ⟨rfl, ?_⟩ hnext
    · intro i _ s s' hs hdrop
      cases dropIfUsed_leaves hdrop with
      | same => exact hs
      | buffer buffer => exact hs
      | accepted j fd hlisten hfree => exact ⟨hs.1, (setFd_events ..).trans hs.2⟩
      | closed buffer => exact ⟨hs.1, (setFd_events ..).trans hs.2⟩
    · rw [polled_events_serverSlot]
      exact hevents
  refine ⟨next, hiter, ?_, hkept.1, hkept.2⟩
  intro i
  rw [hfd, polled_fd, clearSockets_fd]
  by_cases hi : i = serverSlot
  · rw [if_neg fun hmem => mem_clientSlots.mp hmem hi, if_pos hi, hi]
    exact hlisten
  · rw [if_pos (mem_clientSlots.mpr hi), if_neg hi]

/-- **A timeout restarts the server.**  After any run that leaves the listening socket in slot 0,
and a `poll` that times out, the server does what a freshly started one does, answer for answer,
for ever: nothing of the connections before is left. -/
theorem timeout_restarts (onMessage : OnMessage) (setupEnv : SetupEnv) (envs : List LoopEnv)
    (env : LoopEnv) (rest : List LoopEnv) (server : TcpServer)
    (hrun : (run onMessage setupEnv envs).result = .ok server)
    (hlisten : (server.sockets serverSlot).fd = server.serverSocketFd)
    (htime : env.numberOfEvents = 0) :
    (run onMessage setupEnv (envs ++ env :: rest)).calls
      = (run onMessage setupEnv (envs ++ [env])).calls
        ++ (run onMessage setupEnv rest).calls.drop 3 := by
  obtain ⟨started, hsetup, hloop⟩ := Traced.bind_result_eq_ok.mp hrun
  obtain ⟨hthree, hstarted⟩ := setup_ok hsetup
  have hsocket : server.serverSocketFd = setupEnv.socket := by
    refine loop_invariant (p := fun s => s.serverSocketFd = setupEnv.socket) (fun _ _ hs => hs)
      (fun _ _ hs => hs) (fun _ _ hs => hs) (fun _ _ _ _ hs => hs) ?_ hloop
    rw [hstarted]
    rfl
  obtain ⟨next, hnext, hsame⟩ := timeout_table onMessage hlisten (events_of_run hrun) htime
  rw [hsocket, ← hstarted] at hsame
  have hcalls : (next.loop onMessage rest).calls = (started.loop onMessage rest).calls := by
    rw [← (loop_alike hsame rest).calls_eq, List.filterMap_some]
  have hfresh : (run onMessage setupEnv rest).calls
      = (setup setupEnv {}).calls ++ (started.loop onMessage rest).calls := by
    rw [run, Traced.bind_of_ok _ hsetup]
  have hlong : (server.loop onMessage (env :: rest)).calls
      = (server.iteration onMessage env).calls ++ (next.loop onMessage rest).calls := by
    rw [loop, Traced.foldlM_cons_of_ok rest hnext]
    rfl
  have hshort : (server.loop onMessage [env]).calls = (server.iteration onMessage env).calls := by
    rw [loop, Traced.foldlM_cons_of_ok [] hnext]
    exact List.append_nil _
  rw [hfresh, ← hthree, List.drop_left, run_append hrun, run_append hrun, hlong, hshort, hcalls,
    List.append_assoc]

/-- A client connects, is dropped, and connects again. -/
theorem timeout_restarts_connects :
    (run MessageHandler.handleIncomingMessage ⟨3, 0, 0⟩
        ([connects 4] ++ { connects 4 with numberOfEvents := 0 } :: [connects 4])).calls
      = (run MessageHandler.handleIncomingMessage ⟨3, 0, 0⟩
          ([connects 4] ++ [{ connects 4 with numberOfEvents := 0 }])).calls
        ++ (run MessageHandler.handleIncomingMessage ⟨3, 0, 0⟩ [connects 4]).calls.drop 3 := by
  refine timeout_restarts MessageHandler.handleIncomingMessage ⟨3, 0, 0⟩ [connects 4]
    { connects 4 with numberOfEvents := 0 } [connects 4] connected (run_connected _) ?_ rfl
  rw [connected_fd, if_neg (by decide), if_pos rfl]
  rfl

end Timeouts

end TcpServer

end FcsServer
