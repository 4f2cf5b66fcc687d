import FcsServer.FailureReports

/-!
# What the log of a run that ends says last

A server that is not told to end does not end without a reason.  Where it exits, creating, binding
or listening on the socket or waiting for events has failed, nothing was called after, and the
report of that call is the end of the log; where a client is gone, the log stops with the line about
the response that is being sent.  Writing a line always succeeds here.

* `LastWords` — the ends of a run;
* `visit_lastWords`, `iteration_lastWords`, `setup_lastWords` — step by step;
* `end_reported` — every end is one of them.
-/

namespace FcsServer

open LittleEndian

namespace Logging

/-- The calls that the server cannot do without, but for `bind`. -/
def Needed : Call → Prop
  | .socket _ => True
  | .listen _ _ => True
  | .poll _ _ _ _ => True
  | _ => False

/-- The line after the report of a failed `bind`. -/
def inUse (portNumber : UInt32) (e : ℤ) : List Event :=
  if e = eaddrinuse then
    [.logged .fatal ("Port " ++ toString portNumber.toNat ++ " already in use")]
  else []

/-- The end of the log, and why the run ends there. -/
inductive LastWords (portNumber : UInt32) : Stop → List Event → Prop where
  /-- Creating the socket, listening or waiting failed: its report is the last line. -/
  | reported (pre : List Event) {c : Call} {said : String × LogLevel} (hneeded : Needed c)
    (hfailed : failure c = some said) (e : ℤ) :
    LastWords portNumber (.exit 1) (pre ++ [.called c, .errno e, report said e])
  /-- Binding failed: after the report `errno` is looked at once more, and one more line says so
  if the port was taken. -/
  | notBound (pre : List Event) {fd returned : ℤ} (hfailed : returned < 0) (e e' : ℤ) :
    LastWords portNumber (.exit 1)
      (pre ++ [.called (.bind fd returned), .errno e, report ("Bind failed.", .fatal) e, .errno e']
        ++ inUse portNumber e')
  /-- `SIGPIPE` leaves no time for a report. -/
  | gone (pre : List Event) (fd : ℤ) (bytes : List UInt8) :
    LastWords portNumber .sigpipe (pre ++ [sending bytes, .called (.send fd bytes .brokenPipe)])

theorem LastWords.append {portNumber : UInt32} (stop : Stop) (before events : List Event)
    (h : LastWords portNumber stop events) : LastWords portNumber stop (before ++ events) := by
  cases h with
  | reported pre hneeded hfailed e =>
    rw [← List.append_assoc]
    exact .reported (before ++ pre) hneeded hfailed e
  | notBound pre hfailed e e' =>
    rw [← List.append_assoc, ← List.append_assoc]
    exact .notBound (before ++ pre) hfailed e e'
  | gone pre fd bytes =>
    rw [← List.append_assoc]
    exact .gone (before ++ pre) fd bytes

section Ends

variable {α β : Type} {portNumber : UInt32}

/-- What comes first does not matter for the last words. -/
theorem then_lastWords {x : Logged α} {f : α → Logged β} {a : α} (hx : x.result = .ok a)
    (hf : Traced.StopsWith (LastWords portNumber) (f a)) :
    Traced.StopsWith (LastWords portNumber) (x >>= f) := by
  intro stop hstop
  rw [Traced.bind_of_ok f hx] at hstop ⊢
  exact LastWords.append stop _ _ (hf stop hstop)

/-- A failed call, its report, and the exit. -/
theorem failed_lastWords {c : Call} {text : String} {level : LogLevel} (hneeded : Needed c)
    (hfailed : failure c = some (text, level)) (e : ℤ) :
    Traced.StopsWith (LastWords portNumber)
      (call c >>= fun _ => logWithErrno text e level >>= fun _ =>
        (Traced.stop (.exit 1) : Logged α)) := by
  intro stop hstop
  cases hstop
  exact .reported [] hneeded hfailed e

/-- The callback returns. -/
theorem handle_returns (errno : DeviceErrno) (env : MessageHandler.Env)
    (m responseBuffer : List UInt8) :
    ∃ response, (handleIncomingMessage errno env m responseBuffer).result = .ok response := by
  rw [(handle_simulates errno env m responseBuffer).result.eq,
    MessageHandler.handleIncomingMessage_eq]
  exact ⟨_, rfl⟩

theorem close_returns (server : TcpServer) (i : Slot) :
    (closeConnectionAndEnableForReuse server i).result = .ok (server.setFd i (-1)) := rfl

theorem acceptConnection_returns (errno : SlotErrno) (env : SlotEnv) (server : TcpServer) :
    ∃ next, (acceptConnection errno env server).result = .ok next := by
  rw [acceptConnection]
  cases server.freeSlot with
  | none => exact ⟨server, rfl⟩
  | some j =>
    dsimp only
    rw [reportAccept_eq]
    exact ⟨_, rfl⟩

theorem handleEventIfAny_lastWords (errno : SlotErrno) (env : SlotEnv) (server : TcpServer)
    (i : Slot) :
    Traced.StopsWith (LastWords portNumber)
      (handleEventIfAny handleIncomingMessage errno env server i) := by
  rw [handleEventIfAny]
  dsimp only
  split
  · obtain ⟨next, hnext⟩ := acceptConnection_returns errno env server
    exact .of_ok hnext
  · split
    · refine then_lastWords rfl ?_
      cases env.received.within _ with
      | failed => exact then_lastWords rfl (.of_ok (close_returns _ i))
      | received bytes =>
        dsimp only
        split
        · exact .of_ok (close_returns _ i)
        · obtain ⟨response, hresponse⟩ := handle_returns errno.device env.handler _ []
          refine then_lastWords rfl (then_lastWords hresponse (then_lastWords rfl ?_))
          split
          · cases hsent : env.sent with
            | accepted n => exact .of_ok rfl
            | failed => exact .of_ok rfl
            | brokenPipe =>
              intro stop hstop
              cases hstop
              exact .gone [] (server.sockets i).fd response
          · exact then_lastWords rfl (.of_ok (close_returns _ i))
    · split
      · exact .of_ok (close_returns server i)
      · exact .of_ok rfl

theorem visit_lastWords (errno : Slot → SlotErrno) (env : Slot → SlotEnv) (server : TcpServer)
    (i : Slot) :
    Traced.StopsWith (LastWords portNumber) (visit handleIncomingMessage errno env server i) := by
  rw [visit]
  split
  · exact handleEventIfAny_lastWords (errno i) (env i) server i
  · exact .of_ok rfl

theorem dropIfUsed_lastWords (server : TcpServer) (i : Slot) :
    Traced.StopsWith (LastWords portNumber) (dropIfUsed server i) := by
  rw [dropIfUsed]
  split
  · exact then_lastWords rfl (.of_ok (close_returns server i))
  · exact .of_ok rfl

theorem iteration_lastWords (server : TcpServer) (env : LoopErrno × LoopEnv) :
    Traced.StopsWith (LastWords portNumber) (iteration handleIncomingMessage server env) := by
  have hneeded : ∀ fds events revents, Needed (.poll fds events revents env.2.numberOfEvents) :=
    fun _ _ _ => trivial
  rw [iteration]
  by_cases hfailed : env.2.numberOfEvents < 0
  · simp only [if_pos hfailed]
    exact failed_lastWords (hneeded _ _ _) (if_pos hfailed) env.1.poll
  · simp only [if_neg hfailed]
    refine then_lastWords rfl ?_
    split
    · exact .foldlM LastWords.append clientSlots (fun i s => dropIfUsed_lastWords s i) _
    · exact .foldlM LastWords.append _ (fun i s => visit_lastWords _ _ s i) _

theorem setup_lastWords (portNumber : UInt32) (errno : SetupErrno) (env : SetupEnv)
    (server : TcpServer) :
    Traced.StopsWith (LastWords portNumber) (setup portNumber errno env server) := by
  rw [setup]
  refine then_lastWords rfl ?_
  dsimp only
  by_cases hsocket : env.socket = -1
  · have hneeded : Needed (.socket env.socket) := trivial
    simp only [if_pos hsocket]
    exact failed_lastWords hneeded (if_pos hsocket) errno.socket
  · simp only [if_neg hsocket]
    refine then_lastWords rfl ?_
    by_cases hbind : env.bind < 0
    · simp only [if_pos hbind]
      rw [readErrno, Traced.call_bind, Traced.pure_eq, Traced.mk_ok_bind]
      have hwords := @LastWords.notBound portNumber [] env.socket env.bind hbind errno.bind
        errno.bindLogged
      rw [inUse] at hwords
      dsimp only
      intro stop hstop
      by_cases hused : errno.bindLogged = eaddrinuse
      · rw [if_pos hused] at hwords hstop ⊢
        cases hstop
        exact hwords
      · rw [if_neg hused] at hwords hstop ⊢
        cases hstop
        exact hwords
    · simp only [if_neg hbind]
      refine then_lastWords rfl ?_
      by_cases hlisten : env.listen = -1
      · have hneeded : Needed (.listen env.socket env.listen) := trivial
        simp only [if_pos hlisten]
        exact failed_lastWords hneeded (if_pos hlisten) errno.listen
      · simp only [if_neg hlisten]
        exact .of_ok rfl

/-- **No run ends without a word.**  Whenever the server ends by itself, it exits with code 1
because `socket`, `bind`, `listen` or `poll` failed, and the report of that call is the end of its
log, after `bind` with one more line if the port was taken; or a client is gone, and the last line
says what was being sent to it. -/
theorem end_reported (portNumber : UInt32) (setupErrno : SetupErrno) (setupEnv : SetupEnv)
    (envs : List (LoopErrno × LoopEnv)) (stop : Stop)
    (h : (run handleIncomingMessage portNumber setupErrno setupEnv envs).result = .error stop) :
    LastWords portNumber stop
      (run handleIncomingMessage portNumber setupErrno setupEnv envs).calls := by
  refine Traced.StopsWith.bind LastWords.append
    (setup_lastWords portNumber setupErrno setupEnv {}) ?_ stop h
  intro server
  refine then_lastWords rfl ?_
  exact .foldlM LastWords.append envs (fun env s => iteration_lastWords s env) server

end Ends

/-- The port is taken. -/
theorem end_reported_inUse :
    LastWords 50001 (.exit 1)
      (run handleIncomingMessage 50001 ⟨0, 98, 98, 0⟩ ⟨3, -1, 0⟩ []).calls :=
  end_reported 50001 ⟨0, 98, 98, 0⟩ ⟨3, -1, 0⟩ [] (.exit 1) rfl

end Logging

end FcsServer
