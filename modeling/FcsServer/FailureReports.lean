import FcsServer.Lib.Grammar
import FcsServer.ServerLog

/-!
# What the log tells

A run is a sequence of short blocks of calls and lines.  No call that fails is without its report,
no connection comes or goes without its line, and `errno` is not looked at unless a call has failed.
Writing a line always succeeds here, and may change `errno`.

* `failure`, `followUp` — when a call has failed, and what comes after it then;
* `Block` — the blocks of a run; `run_emits` — a run is a sequence of them;
* `failures_reported`, `errno_after_failure`, `connections_told` — what the blocks say.
-/

namespace FcsServer

open LittleEndian Utils

namespace Logging

/-- What is said of a call that failed, and how loud; `none` when it did not. -/
def failure : Call → Option (String × LogLevel)
  | .socket fd => if fd = -1 then some ("Could not create socket.", .fatal) else none
  | .bind _ returned => if returned < 0 then some ("Bind failed.", .fatal) else none
  | .listen _ returned => if returned = -1 then some ("Listen failed.", .fatal) else none
  | .poll _ _ _ numberOfEvents => if numberOfEvents < 0 then some ("Poll failed.", .error) else none
  | .accept fd => if fd = -1 then some ("Accept failed.", .error) else none
  | .recv _ result => if result = .failed then some ("Recv failed", .error) else none
  | .send _ _ result => if result = .failed then some ("Send failed", .error) else none
  | .onMessage _ _ _ => none
  | .openDevice fd => if fd < 0 then some ("Opening device failed.", .error) else none
  | .ioctl _ _ _ returned => if returned < 0 then some ("Ioctl failed.", .error) else none
  | .close _ => none

/-- The line about a failed call. -/
def report (said : String × LogLevel) (e : ℤ) : Event :=
  .logged said.2 (said.1 ++ " Return code: " ++ toString e)

/-- What comes after a call that failed: `errno` is read and reported.  The device is closed first,
and an `accept` that found no connection waiting is passed over. -/
def followUp (c : Call) (e : ℤ) : List Event :=
  match failure c with
  | none => []
  | some said =>
    match c with
    | .ioctl fd _ _ _ => [.called (.close fd), .errno e, report said e]
    | .accept _ =>
      if e = ewouldblock then [.errno e] else [.errno e, .errno e, report said e]
    | _ => [.errno e, report said e]

def closing (fd : ℤ) : Event := .logged .info ("Connection closed: Socket fd: " ++ toString fd)

def incoming (fd : ℤ) : Event := .logged .debug ("Incoming connection: Socket fd: " ++ toString fd)

def receivedFrom (fd : ℤ) : Event := .logged .info ("Received message: Socket fd: " ++ toString fd)

def sending (bytes : List UInt8) : Event :=
  .logged .info ("Sending Response: " ++ toString bytes.length ++ " bytes")

/-- A call that needs no line of its own. -/
def Plain : Call → Prop
  | .accept _ => False
  | .recv _ result => result = .failed ∨ result = .received []
  | .send _ _ _ => False
  | .ioctl _ _ _ _ => False
  | .close _ => False
  | _ => True

theorem followUp_of_ok {c : Call} (hok : failure c = none) (e : ℤ) : followUp c e = [] := by
  rw [followUp, hok]

theorem followUp_plain {c : Call} {said : String × LogLevel} (hplain : Plain c)
    (hfailed : failure c = some said) (e : ℤ) : followUp c e = [.errno e, report said e] := by
  rw [followUp, hfailed]
  cases c with
  | accept fd => exact hplain.elim
  | ioctl fd command data returned => exact hplain.elim
  | socket fd => rfl
  | bind fd returned => rfl
  | listen fd returned => rfl
  | poll fds events revents n => rfl
  | recv fd result => rfl
  | send fd bytes result => rfl
  | onMessage fd message response => rfl
  | openDevice fd => rfl
  | close fd => rfl

theorem followUp_ioctl {fd returned : ℤ} (hfailed : returned < 0) (command : DevCommand)
    (data : IntelFcsDevIoctl) (e : ℤ) : followUp (.ioctl fd command data returned) e
      = [.called (.close fd), .errno e, report ("Ioctl failed.", .error) e] := by
  rw [followUp, failure, if_pos hfailed]

theorem followUp_send (fd : ℤ) (bytes : List UInt8) (e : ℤ) :
    followUp (.send fd bytes .failed) e = [.errno e, report ("Send failed", .error) e] := by
  rw [followUp, failure, if_pos rfl]

/-- The blocks of calls and lines that a run consists of. -/
inductive Block : List Event → Prop where
  | line (level : LogLevel) (message : String) : Block [.logged level message]
  | call {c : Call} (hplain : Plain c) (e : ℤ) : Block (.called c :: followUp c e)
  /-- `errno` is looked at again after the report. -/
  | bindFailed {fd returned : ℤ} (hfailed : returned < 0) (e e' : ℤ) :
    Block (.called (.bind fd returned) :: (followUp (.bind fd returned) e ++ [.errno e']))
  | accept (fd e : ℤ) : Block (.called (.accept fd) :: (followUp (.accept fd) e ++ [incoming fd]))
  | received {fd : ℤ} {bytes : List UInt8} (hne : bytes ≠ []) :
    Block [.called (.recv fd (.received bytes)), receivedFrom fd]
  | send (fd : ℤ) (bytes : List UInt8) (result : SendResult) (e : ℤ) :
    Block (sending bytes :: .called (.send fd bytes result)
      :: followUp (.send fd bytes result) e)
  | asked {fd returned : ℤ} {command : DevCommand} {data : IntelFcsDevIoctl}
    (hreturned : 0 ≤ returned) :
    Block [.called (.ioctl fd command data returned), .called (.close fd)]
  | ioctlFailed {fd returned : ℤ} {command : DevCommand} {data : IntelFcsDevIoctl}
    (hfailed : returned < 0) (e : ℤ) :
    Block (.called (.ioctl fd command data returned)
      :: followUp (.ioctl fd command data returned) e)
  | closed (fd : ℤ) : Block [closing fd, .called (.close fd)]

def blocks : Language Event := {b | Block b}

/-! ### Every run is a sequence of blocks -/

section Emits

variable {α : Type}

theorem log_emits (message : String) (level : LogLevel) :
    Traced.Emits blocks (log message level) :=
  .block (Block.line level message) rfl (.pure' ())

theorem lift_emits (z : Except Fault α) : Traced.Emits blocks (lift z) := .ofExcept' Stop.fault z

/-- A call that needs no line, and does not fail. -/
theorem call_emits {c : Call} (hplain : Plain c) (hok : failure c = none) :
    Traced.Emits blocks (call c) := by
  have hblock := Block.call hplain 0
  rw [followUp_of_ok hok] at hblock
  exact .block hblock rfl (.pure' ())

theorem returned_emits (fd : ℤ) (message response : List UInt8) :
    Traced.Emits blocks (call (.onMessage fd message response)) := by
  have hplain : Plain (.onMessage fd message response) := trivial
  exact call_emits hplain rfl

/-- A call that fails, with its report. -/
theorem failed_emits {c : Call} {text : String} {level : LogLevel} {e : ℤ} {s : Logged α}
    (hplain : Plain c) (hfailed : failure c = some (text, level))
    (hs : Traced.Emits blocks s) :
    Traced.Emits blocks (call c >>= fun _ => logWithErrno text e level >>= fun _ => s) := by
  have hblock := Block.call hplain e
  rw [followUp_plain hplain hfailed] at hblock
  exact .block hblock rfl hs

theorem isPayloadSizeCorrect_emits (vp : VerifierProtocol) :
    Traced.Emits blocks (isPayloadSizeCorrect vp) := by
  rw [isPayloadSizeCorrect]
  cases VerifierProtocol.payloadSizeMap.lookup vp.getCommandCode with
  | none => exact .pure' _
  | some size =>
    dsimp only
    split
    · exact (log_emits _ _).bind fun _ => .pure' _
    · exact .pure' _

theorem isMagicWordCorrect_emits (vp : VerifierProtocol) :
    Traced.Emits blocks (isMagicWordCorrect vp) := by
  rw [isMagicWordCorrect]
  split
  · refine (lift_emits _).bind ?_
    intro magic
    split
    · exact (log_emits _ _).bind fun _ => .pure' _
    · exact .pure' _
  · exact .pure' _

theorem parseMessage_emits (vp : VerifierProtocol) (m : List UInt8) :
    Traced.Emits blocks (parseMessage vp m) := by
  rw [parseMessage]
  split
  · exact (log_emits _ _).bind fun _ => .pure' _
  · refine (lift_emits _).bind ?_
    intro header
    dsimp only
    split
    · exact (log_emits _ _).bind fun _ => .pure' _
    · split
      · exact (log_emits _ _).bind fun _ => .pure' _
      · refine (lift_emits _).bind ?_
        intro payload
        refine (isPayloadSizeCorrect_emits _).bind ?_
        intro sized
        split
        · exact .pure' _
        · refine (isMagicWordCorrect_emits _).bind ?_
          intro checked
          split
          · exact .pure' _
          · exact .pure' _

mutual

theorem prepareResponseMessage_emits (vp : VerifierProtocol) :
    ∀ (frames : ℕ) (payload responseBuffer : List UInt8) (returnCode : Int32),
      Traced.Emits blocks
        (prepareResponseMessage vp frames payload responseBuffer returnCode)
  | 0, _, _, _ => by
    rw [prepareResponseMessage]
    exact lift_emits _
  | frames + 1, payload, responseBuffer, returnCode => by
    rw [prepareResponseMessage]
    refine (log_emits _ _).bind ?_
    intro _
    split
    · exact (log_emits _ _).bind fun _ =>
        prepareEmptyResponseMessage_emits vp frames responseBuffer _
    · refine (log_emits _ _).bind fun _ => (lift_emits _).bind ?_
      intro response
      split
      · exact (log_emits _ _).bind fun _ => .pure' _
      · exact .pure' _

theorem prepareEmptyResponseMessage_emits (vp : VerifierProtocol) :
    ∀ (frames : ℕ) (responseBuffer : List UInt8) (returnCode : Int32),
      Traced.Emits blocks (prepareEmptyResponseMessage vp frames responseBuffer returnCode)
  | 0, _, _ => by
    rw [prepareEmptyResponseMessage]
    exact lift_emits _
  | frames + 1, responseBuffer, returnCode => by
    rw [prepareEmptyResponseMessage]
    exact prepareResponseMessage_emits vp frames [] responseBuffer returnCode

end

/-- The request of the device is a block, whether it fails or not. -/
theorem sendIoctl_emits (errno : DeviceErrno) (driver : Driver) (data : IntelFcsDevIoctl)
    (commandCode : DevCommand) :
    Traced.Emits blocks (sendIoctl errno driver data commandCode) := by
  rw [sendIoctl]
  dsimp only
  by_cases hopen : driver.openDevice < 0
  · simp only [if_pos hopen]
    exact failed_emits trivial (if_pos hopen) (.pure' none)
  · have hplain : Plain (.openDevice driver.openDevice) := trivial
    simp only [if_neg hopen]
    refine (call_emits hplain (if_neg hopen)).bind ?_
    intro _
    by_cases hreturned : (driver.ioctl commandCode { data with status := -1 }).returned < 0
    · have hblock := @Block.ioctlFailed driver.openDevice _ commandCode
        { data with status := -1 } hreturned errno.ioctl
      rw [followUp_ioctl hreturned] at hblock
      simp only [if_pos hreturned]
      exact .block hblock rfl (.pure' (none : Option IoctlReply))
    · have hblock := @Block.asked driver.openDevice _ commandCode
        { data with status := -1 } (not_lt.mp hreturned)
      simp only [if_neg hreturned]
      exact .block hblock rfl
        ((log_emits _ _).bind fun _ =>
          .pure' (some (driver.ioctl commandCode { data with status := -1 })))

theorem exchange_emits (errno : DeviceErrno) (driver : Driver) {received : ℕ → Logged Unit}
    (hreceived : ∀ size, Traced.Emits blocks (received size)) (commandCode : DevCommand)
    (maxSz : ℕ) (comParas : List UInt8 → ComParas) (rspDataSz : IoctlReply → ℕ)
    (outBuffer : List UInt8) (fcsStatus : Int32) :
    Traced.Emits blocks
      (exchange errno driver received commandCode maxSz comParas rspDataSz outBuffer
        fcsStatus) := by
  rw [exchange]
  refine (sendIoctl_emits ..).bind ?_
  intro reply
  cases reply with
  | none => exact .pure' _
  | some reply =>
    dsimp only
    split
    · exact .pure' _
    · exact (hreceived _).bind fun _ => .pure' _

theorem callFcs_emits (errno : DeviceErrno) (env : MessageHandler.Env) (vp : VerifierProtocol)
    (payload : List UInt8) (command : CommandCode) :
    Traced.Emits blocks (callFcs errno env vp payload command) := by
  have hsilent : ∀ size : ℕ, Traced.Emits blocks ((fun _ => return ()) size : Logged Unit) :=
    fun _ => .pure' ()
  have hmailbox : Traced.Emits blocks
      (mailboxGeneric errno env.driver vp.getCommandCode vp.incomingPayload payload
        env.statusReturnedFromFcs) :=
    (log_emits _ _).bind fun _ => exchange_emits errno env.driver (fun _ => log_emits _ _) ..
  cases command with
  | getChipId =>
    refine (log_emits _ _).bind fun _ => (sendIoctl_emits ..).bind ?_
    intro reply
    cases reply with
    | none => exact .pure' _
    | some reply => exact (lift_emits _).bind fun _ => (lift_emits _).bind fun _ => .pure' _
  | sigmaTeardown =>
    refine (lift_emits _).bind fun _ => Traced.Emits.bind ?_ fun _ => .pure' _
    refine (log_emits _ _).bind fun _ => (sendIoctl_emits ..).bind ?_
    intro reply
    cases reply with
    | none => exact .pure' _
    | some reply => exact .pure' _
  | createAttestationSubKey =>
    exact (log_emits _ _).bind fun _ => exchange_emits errno env.driver hsilent ..
  | getMeasurement =>
    exact (log_emits _ _).bind fun _ => exchange_emits errno env.driver hsilent ..
  | getAttestationCertificate =>
    exact (lift_emits _).bind fun _ => (log_emits _ _).bind fun _ =>
      exchange_emits errno env.driver hsilent ..
  | mctp => exact hmailbox
  | getIdCode => exact hmailbox
  | getDeviceIdentity => exact hmailbox

theorem handle_emits (errno : DeviceErrno) (env : MessageHandler.Env)
    (m responseBuffer : List UInt8) :
    Traced.Emits blocks (handleIncomingMessage errno env m responseBuffer) := by
  rw [handleIncomingMessage]
  refine (parseMessage_emits _ _).bind ?_
  intro outcome
  dsimp only
  split
  · exact (log_emits _ _).bind fun _ => prepareResponseMessage_emits ..
  · cases CommandCode.ofValue outcome.2.getCommandCode with
    | none => exact (log_emits _ _).bind fun _ => prepareEmptyResponseMessage_emits ..
    | some command =>
      refine (callFcs_emits ..).bind ?_
      intro result
      split
      · exact (log_emits _ _).bind fun _ => prepareEmptyResponseMessage_emits ..
      · split
        · exact .pure' _
        · exact prepareResponseMessage_emits ..

/-! ### The server -/

theorem close_emits (server : TcpServer) (i : Slot) :
    Traced.Emits blocks (closeConnectionAndEnableForReuse server i) :=
  .block (Block.closed (server.sockets i).fd) rfl (.pure' (server.setFd i (-1)))

theorem reportAccept_eq (errno accepted : ℤ) :
    reportAccept errno accepted = ⟨followUp (.accept accepted) errno, .ok ()⟩ := by
  rw [reportAccept, followUp, failure]
  by_cases haccepted : accepted = -1
  · rw [if_pos haccepted, if_pos haccepted, readErrno, Traced.call_bind, Traced.pure_eq,
      Traced.mk_ok_bind]
    dsimp only
    by_cases hcode : errno = ewouldblock
    · rw [if_neg (not_not.mpr hcode), if_pos hcode]
      rfl
    · rw [if_pos hcode, if_neg hcode]
      rfl
  · rw [if_neg haccepted, if_neg haccepted]
    rfl

theorem acceptConnection_emits (errno : SlotErrno) (env : SlotEnv) (server : TcpServer) :
    Traced.Emits blocks (acceptConnection errno env server) := by
  rw [acceptConnection]
  cases server.freeSlot with
  | none => exact .pure' _
  | some j =>
    rw [reportAccept_eq]
    refine .block (Block.accept env.accepted errno.accept) ?_
      (.pure' (server.setFd j env.accepted))
    simp [call, log, incoming, Traced.pure_eq]

theorem handleEventIfAny_emits {onMessage : OnMessage}
    (honMessage : ∀ errno env m b, Traced.Emits blocks (onMessage errno env m b))
    (errno : SlotErrno) (env : SlotEnv) (server : TcpServer) (i : Slot) :
    Traced.Emits blocks (handleEventIfAny onMessage errno env server i) := by
  rw [handleEventIfAny]
  dsimp only
  split
  · exact acceptConnection_emits errno env server
  · split
    · cases env.received.within _ with
      | failed => exact failed_emits (Or.inl rfl) rfl (close_emits _ i)
      | received bytes =>
        dsimp only
        split
        · rename_i hempty
          have hnil := List.eq_nil_of_length_eq_zero hempty
          have hplain : Plain (.recv (server.sockets i).fd (.received bytes)) :=
            Or.inr (congrArg RecvResult.received hnil)
          exact (call_emits hplain rfl).bind fun _ => close_emits _ i
        · rename_i hempty
          have hne : bytes ≠ [] := fun hnil => hempty (congrArg List.length hnil)
          have hblock := @Block.received (server.sockets i).fd _ hne
          refine .block hblock rfl ((honMessage _ _ _ _).bind ?_)
          intro response
          refine (returned_emits _ _ _).bind ?_
          intro _
          split
          · have hblock := Block.send (server.sockets i).fd response env.sent errno.send
            cases hsent : env.sent with
            | accepted n =>
              rw [hsent, followUp_of_ok rfl] at hblock
              exact .block hblock rfl (.pure' _)
            | failed =>
              rw [hsent, followUp_send] at hblock
              exact .block hblock rfl (.pure' _)
            | brokenPipe =>
              rw [hsent, followUp_of_ok rfl] at hblock
              exact .block hblock rfl (.stop' Stop.sigpipe)
          · exact (log_emits _ _).bind fun _ => close_emits _ i
    · split
      · exact close_emits server i
      · exact .pure' _

theorem visit_emits {onMessage : OnMessage}
    (honMessage : ∀ errno env m b, Traced.Emits blocks (onMessage errno env m b))
    (errno : Slot → SlotErrno) (env : Slot → SlotEnv) (server : TcpServer) (i : Slot) :
    Traced.Emits blocks (visit onMessage errno env server i) := by
  rw [visit]
  split
  · exact handleEventIfAny_emits honMessage (errno i) (env i) server i
  · exact .pure' server

theorem dropIfUsed_emits (server : TcpServer) (i : Slot) :
    Traced.Emits blocks (dropIfUsed server i) := by
  rw [dropIfUsed]
  split
  · exact (log_emits _ _).bind fun _ => close_emits server i
  · exact .pure' server

theorem iteration_emits {onMessage : OnMessage}
    (honMessage : ∀ errno env m b, Traced.Emits blocks (onMessage errno env m b))
    (server : TcpServer) (env : LoopErrno × LoopEnv) :
    Traced.Emits blocks (iteration onMessage server env) := by
  have hplain : ∀ fds events revents, Plain (.poll fds events revents env.2.numberOfEvents) :=
    fun _ _ _ => trivial
  rw [iteration]
  by_cases hfailed : env.2.numberOfEvents < 0
  · simp only [if_pos hfailed]
    exact failed_emits (hplain _ _ _) (if_pos hfailed) (.stop' (Stop.exit 1))
  · simp only [if_neg hfailed]
    refine (call_emits (hplain _ _ _) (if_neg hfailed)).bind ?_
    intro _
    split
    · exact .foldlM clientSlots (fun i s => dropIfUsed_emits s i) _
    · exact .foldlM _ (fun i s => visit_emits honMessage _ _ s i) _

theorem setup_emits (portNumber : UInt32) (errno : SetupErrno) (env : SetupEnv)
    (server : TcpServer) : Traced.Emits blocks (setup portNumber errno env server) := by
  rw [setup]
  refine (log_emits _ _).bind fun _ => ?_
  dsimp only
  by_cases hsocket : env.socket = -1
  · have hplain : Plain (.socket env.socket) := trivial
    simp only [if_pos hsocket]
    exact failed_emits hplain (if_pos hsocket) (.stop' (Stop.exit 1))
  · have hplain : Plain (.socket env.socket) := trivial
    simp only [if_neg hsocket]
    refine (call_emits hplain (if_neg hsocket)).bind fun _ => ?_
    have hplain : Plain (.bind env.socket env.bind) := trivial
    by_cases hbind : env.bind < 0
    · have hblock := @Block.bindFailed env.socket _ hbind errno.bind errno.bindLogged
      rw [followUp_plain hplain (if_pos hbind)] at hblock
      simp only [if_pos hbind]
      refine .block hblock rfl ?_
      dsimp only
      split
      · exact (log_emits _ _).bind fun _ => .stop' (Stop.exit 1)
      · exact .stop' (Stop.exit 1)
    · simp only [if_neg hbind]
      refine (call_emits hplain (if_neg hbind)).bind fun _ => ?_
      have hplain : Plain (.listen env.socket env.listen) := trivial
      by_cases hlisten : env.listen = -1
      · simp only [if_pos hlisten]
        exact failed_emits hplain (if_pos hlisten) (.stop' (Stop.exit 1))
      · simp only [if_neg hlisten]
        exact (call_emits hplain (if_neg hlisten)).bind fun _ => .pure' _

/-- **A run is a sequence of blocks**, also one that stops. -/
theorem run_emits (portNumber : UInt32) (setupErrno : SetupErrno) (setupEnv : SetupEnv)
    (envs : List (LoopErrno × LoopEnv)) :
    Traced.Emits blocks (run handleIncomingMessage portNumber setupErrno setupEnv envs) := by
  refine (setup_emits ..).bind fun server => (log_emits _ _).bind fun _ => ?_
  exact .foldlM envs (fun env s => iteration_emits handle_emits s env) server

end Emits

/-! ### What stands next to a call -/

/-- The second call closes the device that the first one has asked. -/
def ClosesDevice (c c' : Call) : Prop :=
  ∃ fd command data returned, c = .ioctl fd command data returned ∧ c' = .close fd

/-- Nothing is called after a failure but the device closed. -/
theorem followUp_calls {c c' : Call} {e : ℤ} (h : .called c' ∈ followUp c e) :
    ClosesDevice c c' := by
  rw [followUp] at h
  cases hsaid : failure c with
  | none =>
    rw [hsaid] at h
    cases h
  | some said =>
    rw [hsaid] at h
    cases c with
    | ioctl fd command data returned =>
      refine ⟨fd, command, data, returned, rfl, ?_⟩
      simpa [report] using h
    | accept fd =>
      dsimp only at h
      split at h
      · simp at h
      · simp [report] at h
    | socket fd => simp [report] at h
    | bind fd returned => simp [report] at h
    | listen fd returned => simp [report] at h
    | poll fds events revents n => simp [report] at h
    | recv fd result => simp [report] at h
    | send fd bytes result => simp [report] at h
    | onMessage fd message response => simp [report] at h
    | openDevice fd => simp [report] at h
    | close fd => simp [report] at h

theorem ClosesDevice.ok {c c' : Call} (h : ClosesDevice c c') : failure c' = none := by
  obtain ⟨fd, _, _, _, -, rfl⟩ := h
  rfl

/-- A call in a list that starts with one. -/
theorem first_or_rest {left right rest : List Event} {c c' : Call}
    (h : left ++ .called c :: right = .called c' :: rest) :
    left = [] ∧ c' = c ∧ rest = right ∨
      ∃ left', left = .called c' :: left' ∧ left' ++ .called c :: right = rest ∧
        .called c ∈ rest := by
  rcases List.append_eq_cons_iff.mp h with ⟨hnil, heq⟩ | ⟨left', hleft, heq⟩
  · obtain ⟨hc, hrest⟩ := List.cons.inj heq
    exact Or.inl ⟨hnil, (Event.called.inj hc).symm, hrest.symm⟩
  · exact Or.inr ⟨left', hleft, heq.symm, by simp [heq]⟩

/-- A call in a list that starts with a line. -/
theorem after_line {left right rest : List Event} {c : Call} {level : LogLevel}
    {message : String} (h : left ++ .called c :: right = .logged level message :: rest) :
    ∃ left', left = .logged level message :: left' ∧ left' ++ .called c :: right = rest := by
  rcases List.append_eq_cons_iff.mp h with ⟨-, hfirst⟩ | ⟨left', hleft, heq⟩
  · cases hfirst
  · exact ⟨left', hleft, heq.symm⟩

/-- Where the only calls of a list are those of a device that is closed, a call that fails is its
first element. -/
theorem eq_of_failed {left right rest : List Event} {c c' : Call}
    (h : left ++ .called c :: right = .called c' :: rest) (hfailed : (failure c).isSome)
    (hrest : ∀ d, .called d ∈ rest → ClosesDevice c' d) :
    c' = c ∧ rest = right := by
  rcases first_or_rest h with ⟨-, hfirst⟩ | ⟨left', -, -, hmem⟩
  · exact hfirst
  · rw [(hrest c hmem).ok] at hfailed
    cases hfailed

/-- A failed call is the first one of its block, and the block goes on with the report. -/
theorem Block.followUp_eq {left right : List Event} {c : Call}
    (h : Block (left ++ .called c :: right)) (hfailed : (failure c).isSome) :
    ∃ e rest, right = followUp c e ++ rest := by
  generalize hb : left ++ .called c :: right = b at h
  cases h with
  | line level message =>
    obtain ⟨left', -, hnil⟩ := after_line hb
    simp at hnil
  | call hplain e =>
    obtain ⟨rfl, rfl⟩ := eq_of_failed hb hfailed fun d => followUp_calls
    exact ⟨e, [], (List.append_nil _).symm⟩
  | bindFailed hreturned e e' =>
    obtain ⟨rfl, rfl⟩ := eq_of_failed hb hfailed (by
      intro d hd
      rw [List.mem_append] at hd
      exact followUp_calls (hd.resolve_right (by simp)))
    exact ⟨e, _, rfl⟩
  | accept fd e =>
    obtain ⟨rfl, rfl⟩ := eq_of_failed hb hfailed (by
      intro d hd
      rw [List.mem_append] at hd
      exact followUp_calls (hd.resolve_right (by simp [incoming])))
    exact ⟨e, _, rfl⟩
  | received hne =>
    obtain ⟨rfl, -⟩ := eq_of_failed hb hfailed (by simp [receivedFrom])
    cases hfailed
  | send fd bytes result e =>
    obtain ⟨left', -, hsend⟩ := after_line hb
    obtain ⟨rfl, rfl⟩ := eq_of_failed hsend hfailed fun d => followUp_calls
    exact ⟨e, [], (List.append_nil _).symm⟩
  | @asked fd returned command data hreturned =>
    obtain ⟨rfl, -⟩ := eq_of_failed hb hfailed (by
      intro d hd
      exact ⟨fd, command, data, returned, rfl, by simpa using hd⟩)
    rw [failure, if_neg (not_lt.mpr hreturned)] at hfailed
    cases hfailed
  | ioctlFailed hreturned e =>
    obtain ⟨rfl, rfl⟩ := eq_of_failed hb hfailed fun d => followUp_calls
    exact ⟨e, [], (List.append_nil _).symm⟩
  | closed fd =>
    obtain ⟨left', -, hclose⟩ := after_line hb
    obtain ⟨rfl, -⟩ := eq_of_failed hclose hfailed (by simp)
    cases hfailed

theorem loud_of_ite {p : Prop} [Decidable p] {said said' : String × LogLevel}
    (hloud : LogLevel.error.value ≤ said.2.value)
    (h : (if p then some said else none) = some said') :
    LogLevel.error.value ≤ said'.2.value := by
  obtain ⟨-, heq⟩ := Option.ite_none_right_eq_some.mp h
  cases heq
  exact hloud

/-- No failure is below `Error`. -/
theorem failure_level {c : Call} {said : String × LogLevel} (hfailed : failure c = some said) :
    LogLevel.error.value ≤ said.2.value := by
  cases c with
  | onMessage fd message response => cases hfailed
  | close fd => cases hfailed
  | socket fd => exact loud_of_ite (by decide) hfailed
  | bind fd returned => exact loud_of_ite (by decide) hfailed
  | listen fd returned => exact loud_of_ite (by decide) hfailed
  | poll fds events revents n => exact loud_of_ite (by decide) hfailed
  | accept fd => exact loud_of_ite (by decide) hfailed
  | recv fd result => exact loud_of_ite (by decide) hfailed
  | send fd bytes result => exact loud_of_ite (by decide) hfailed
  | openDevice fd => exact loud_of_ite (by decide) hfailed
  | ioctl fd command data returned => exact loud_of_ite (by decide) hfailed

/-- A report is hidden only where nothing but fatal messages is shown. -/
theorem printed_report {c : Call} {said : String × LogLevel} (hfailed : failure c = some said)
    {currentLogLevel : LogLevel} (hshown : currentLogLevel ≠ .fatal) (e : ℤ) :
    printed currentLogLevel [report said e]
      = [Logger.getLogLevelString said.2 ++ (said.1 ++ " Return code: " ++ toString e)] := by
  have herror : currentLogLevel.value ≤ LogLevel.error.value := by
    cases currentLogLevel with
    | fatal => exact (hshown rfl).elim
    | debug => decide
    | info => decide
    | warning => decide
    | error => decide
  rw [printed, List.flatMap_singleton, report]
  dsimp only
  rw [Logger.log, if_pos (herror.trans (failure_level hfailed))]
  rfl

/-- The block of an element of a run. -/
theorem run_block {portNumber : UInt32} {setupErrno : SetupErrno} {setupEnv : SetupEnv}
    {envs : List (LoopErrno × LoopEnv)} {pre post : List Event} {x : Event}
    (h : (run handleIncomingMessage portNumber setupErrno setupEnv envs).calls
      = pre ++ x :: post) :
    ∃ before left right after, Block (left ++ x :: right) ∧ pre = before ++ left ∧
      post = right ++ after := by
  have hrun := run_emits portNumber setupErrno setupEnv envs
  rw [Traced.Emits, h] at hrun
  exact Language.exists_block hrun

/-- **Every failure is reported.**  Whatever call of a run fails, what comes next is its report:
`errno` is read, and a line says which call it was and ends with that value; it is shown at every
log level but `Fatal`.  The device is closed before, and only an `accept` without a connection is
passed over. -/
theorem failures_reported (portNumber : UInt32) (setupErrno : SetupErrno) (setupEnv : SetupEnv)
    (envs : List (LoopErrno × LoopEnv)) (pre post : List Event) (c : Call)
    (said : String × LogLevel)
    (h : (run handleIncomingMessage portNumber setupErrno setupEnv envs).calls
      = pre ++ .called c :: post) (hfailed : failure c = some said) :
    (∃ e, followUp c e <+: post) ∧
      ∀ currentLogLevel e, currentLogLevel ≠ .fatal →
        printed currentLogLevel [report said e]
          = [Logger.getLogLevelString said.2 ++ (said.1 ++ " Return code: " ++ toString e)] := by
  refine ⟨?_, fun _ e hshown => printed_report hfailed hshown e⟩
  obtain ⟨before, left, right, after, hblock, rfl, rfl⟩ := run_block h
  obtain ⟨e, rest, rfl⟩ := hblock.followUp_eq (Option.isSome_of_eq_some hfailed)
  exact ⟨e, rest ++ after, by rw [List.append_assoc]⟩

/-- The events of a run with a client that no descriptor is left for. -/
def refused : List Event :=
  (run handleIncomingMessage 50001 ⟨0, 0, 0, 0⟩ ⟨3, 0, 0⟩
    [(⟨0, fun _ => ⟨24, 0, ⟨0, 0⟩, 0⟩⟩, TcpServer.connects (-1))]).calls

theorem failures_reported_refused : failure (.accept (-1)) = some ("Accept failed.", .error) ∧
    (∃ e, followUp (.accept (-1)) e <+: refused.drop 7) ∧
      ∀ currentLogLevel e, currentLogLevel ≠ .fatal →
        printed currentLogLevel [report ("Accept failed.", .error) e]
          = [Logger.getLogLevelString .error
            ++ ("Accept failed." ++ " Return code: " ++ toString e)] :=
  ⟨rfl, failures_reported 50001 ⟨0, 0, 0, 0⟩ ⟨3, 0, 0⟩
    [(⟨0, fun _ => ⟨24, 0, ⟨0, 0⟩, 0⟩⟩, TcpServer.connects (-1))] (refused.take 6)
    (refused.drop 7) (.accept (-1)) ("Accept failed.", .error) (by decide +kernel) rfl⟩

/-! ### `errno` -/

/-- A step that does not touch what a call has left in `errno`: it is looked at, and the device
that was asked is closed. -/
def KeepsErrno (c : Call) : Event → Prop
  | .called d => ClosesDevice c d
  | .errno _ => True
  | .logged _ _ => False

/-- `errno` is that of a call that failed: since then no line was written, and nothing was called
but the close of the device that was asked. -/
def OwnsErrno (pre : List Event) : Prop :=
  ∃ before c between, pre = before ++ .called c :: between ∧ (failure c).isSome ∧
    ∀ x ∈ between, KeepsErrno c x

/-- `bind` has failed and the line about it was written, which may have changed `errno`. -/
def BindReported (pre : List Event) : Prop :=
  ∃ before fd returned e, returned < 0 ∧
    pre = before ++ [.called (.bind fd returned), .errno e, report ("Bind failed.", .fatal) e]

theorem OwnsErrno.append {pre : List Event} (h : OwnsErrno pre) (earlier : List Event) :
    OwnsErrno (earlier ++ pre) := by
  obtain ⟨before, c, between, rfl, hfailed, hkeeps⟩ := h
  exact ⟨earlier ++ before, c, between, (List.append_assoc _ _ _).symm, hfailed, hkeeps⟩

theorem BindReported.append {pre : List Event} (h : BindReported pre) (earlier : List Event) :
    BindReported (earlier ++ pre) := by
  obtain ⟨before, fd, returned, e, hreturned, rfl⟩ := h
  exact ⟨earlier ++ before, fd, returned, e, hreturned, (List.append_assoc _ _ _).symm⟩

/-- Where a line was written last, `errno` belongs to no call. -/
theorem OwnsErrno.not_bindReported {pre : List Event} (h : OwnsErrno pre) :
    ¬ BindReported pre := by
  intro hbind
  obtain ⟨before, c, between, hpre, -, hkeeps⟩ := h
  obtain ⟨before', fd, returned, e, -, rfl⟩ := hbind
  cases between using List.reverseRecOn with
  | nil => simpa [report] using congrArg List.getLast? hpre
  | append_singleton between x =>
    have hlast : (before' ++ [.called (.bind fd returned), .errno e])
        ++ [report ("Bind failed.", .fatal) e] = (before ++ .called c :: between) ++ [x] := by
      simpa using hpre
    have hkept := hkeeps x (List.mem_append_right _ List.mem_cons_self)
    rw [← (List.append_singleton_inj.mp hlast).2] at hkept
    exact hkept

theorem followUp_errno {c : Call} {e e' : ℤ} (h : .errno e ∈ followUp c e') :
    (failure c).isSome := by
  rw [followUp] at h
  cases hsaid : failure c with
  | none =>
    rw [hsaid] at h
    cases h
  | some said => rfl

/-- After a failed call `errno` is looked at before the line is written, and not after it. -/
theorem followUp_split (c : Call) (e : ℤ) : ∃ rest lines, followUp c e = rest ++ lines ∧
    (∀ x ∈ rest, KeepsErrno c x) ∧ ∀ e', .errno e' ∉ lines := by
  rw [followUp]
  cases failure c with
  | none => exact ⟨[], [], rfl, by simp, by simp⟩
  | some said =>
    have hplain : ∃ rest lines, [Event.errno e, report said e] = rest ++ lines ∧
        (∀ x ∈ rest, KeepsErrno c x) ∧ ∀ e', .errno e' ∉ lines :=
      ⟨[.errno e], [report said e], rfl, by simp [KeepsErrno], by simp [report]⟩
    cases c with
    | ioctl fd command data returned =>
      refine ⟨[.called (.close fd), .errno e], [report said e], rfl, ?_, by simp [report]⟩
      simp [KeepsErrno, ClosesDevice]
    | accept fd =>
      dsimp only
      split
      · exact ⟨[.errno e], [], rfl, by simp [KeepsErrno], by simp⟩
      · exact ⟨[.errno e, .errno e], [report said e], rfl, by simp [KeepsErrno], by simp [report]⟩
    | _ => exact hplain

/-- `errno` in what comes after a call: `lines` is what is left of the block. -/
theorem ownsErrno_of_followUp {left right lines : List Event} {c : Call} {e e' : ℤ}
    (h : left ++ .errno e :: right = .called c :: (followUp c e' ++ lines))
    (hlines : .errno e ∉ lines) : OwnsErrno left := by
  rcases List.append_eq_cons_iff.mp h with ⟨-, hfirst⟩ | ⟨between, rfl, hbetween⟩
  · cases hfirst
  · have hmem : .errno e ∈ followUp c e' := by
      have hall : .errno e ∈ followUp c e' ++ lines := by
        rw [hbetween]
        simp
      exact (List.mem_append.mp hall).resolve_right hlines
    refine ⟨[], c, between, rfl, followUp_errno hmem, ?_⟩
    obtain ⟨rest, said, hsplit, hrest, hsaid⟩ := followUp_split c e'
    rw [hsplit, List.append_assoc] at hbetween
    rcases List.append_eq_append_iff.mp hbetween with ⟨mid, -, hmid⟩ | ⟨mid, rfl, -⟩
    · have hlate : .errno e ∈ said ++ lines := by
        rw [hmid]
        simp
      exact ((List.mem_append.mp hlate).elim (hsaid e) hlines).elim
    · exact fun x hx => hrest x (List.mem_append_left _ hx)

/-- `errno` belongs to the call that failed, but for the second look after a failed `bind`. -/
theorem Block.errno {left right : List Event} {e : ℤ}
    (h : Block (left ++ .errno e :: right)) : OwnsErrno left ∨ BindReported left := by
  generalize hb : left ++ .errno e :: right = b at h
  cases h with
  | line level message =>
    have hmem := congrArg (Event.errno e ∈ ·) hb
    simp at hmem
  | @call c hplain e' =>
    rw [← List.append_nil (followUp c e')] at hb
    exact Or.inl (ownsErrno_of_followUp hb List.not_mem_nil)
  | @bindFailed fd returned hreturned e₁ e₂ =>
    have hplain : Plain (.bind fd returned) := trivial
    rw [followUp_plain hplain (if_pos hreturned)] at hb
    rcases List.append_eq_cons_iff.mp hb with ⟨-, hfirst⟩ | ⟨left₁, rfl, h₁⟩
    · cases hfirst
    -- what stands between the call and the reading: nothing, or the first reading and the line
    rcases List.append_eq_cons_iff.mp h₁.symm with ⟨rfl, -⟩ | ⟨left₂, rfl, h₂⟩
    · refine Or.inl ⟨[], .bind fd returned, [], rfl, ?_, by simp⟩
      rw [failure, if_pos hreturned]
      rfl
    rcases List.append_eq_cons_iff.mp h₂.symm with ⟨-, hline⟩ | ⟨left₃, rfl, h₃⟩
    · cases hline
    rcases List.append_eq_cons_iff.mp h₃.symm with ⟨rfl, -⟩ | ⟨left₄, rfl, h₄⟩
    · exact Or.inr ⟨[], fd, returned, e₁, hreturned, rfl⟩
    · simp at h₄
  | accept fd e' => exact Or.inl (ownsErrno_of_followUp hb (by simp [incoming]))
  | received hne =>
    have hmem := congrArg (Event.errno e ∈ ·) hb
    simp [receivedFrom] at hmem
  | send fd bytes result e' =>
    rcases List.append_eq_cons_iff.mp hb with ⟨-, hfirst⟩ | ⟨left', rfl, hsend⟩
    · cases hfirst
    · rw [← List.append_nil (followUp _ e')] at hsend
      exact Or.inl ((ownsErrno_of_followUp hsend.symm List.not_mem_nil).append [_])
  | asked hreturned =>
    have hmem := congrArg (Event.errno e ∈ ·) hb
    simp at hmem
  | ioctlFailed hreturned e' =>
    rw [← List.append_nil (followUp _ e')] at hb
    exact Or.inl (ownsErrno_of_followUp hb List.not_mem_nil)
  | closed fd =>
    have hmem := congrArg (Event.errno e ∈ ·) hb
    simp [closing] at hmem

/-- **`errno` is looked at in time.**  Whenever a run reads `errno`, the last call has failed, or it
is the close of the device after an `ioctl` that failed, and no line was written since; the only
reading that comes after a line is the second one after a failed `bind`. -/
theorem errno_after_failure (portNumber : UInt32) (setupErrno : SetupErrno) (setupEnv : SetupEnv)
    (envs : List (LoopErrno × LoopEnv)) (pre post : List Event) (e : ℤ)
    (h : (run handleIncomingMessage portNumber setupErrno setupEnv envs).calls
      = pre ++ .errno e :: post) : OwnsErrno pre ↔ ¬ BindReported pre := by
  obtain ⟨before, left, right, after, hblock, rfl, rfl⟩ := run_block h
  refine ⟨OwnsErrno.not_bindReported, ?_⟩
  intro hnot
  rcases hblock.errno with howns | hbind
  · exact howns.append before
  · exact absurd (hbind.append before) hnot

theorem errno_after_failure_refused :
    OwnsErrno (refused.take 7) ↔ ¬ BindReported (refused.take 7) :=
  errno_after_failure 50001 ⟨0, 0, 0, 0⟩ ⟨3, 0, 0⟩
    [(⟨0, fun _ => ⟨24, 0, ⟨0, 0⟩, 0⟩⟩, TcpServer.connects (-1))] (refused.take 7)
    (refused.drop 8) 24 (by decide +kernel)

/-! ### Connections -/

/-- The line of a call stands beside it: before what ends a connection or answers it, after what
starts it or reads from it.  A close without a line is that of the device. -/
def Told (left : List Event) (c : Call) (right : List Event) : Prop :=
  match c with
  | .accept fd => ∃ e, followUp (.accept fd) e ++ [incoming fd] <+: right
  | .recv fd (.received bytes) => bytes = [] ∨ [receivedFrom fd] <+: right
  | .send _ bytes _ => [sending bytes] <:+ left
  | .close fd => [closing fd] <:+ left ∨
      ∃ command data returned, [.called (.ioctl fd command data returned)] <:+ left
  | _ => True

theorem Told.append {left right : List Event} {c : Call} (h : Told left c right)
    (before after : List Event) : Told (before ++ left) c (right ++ after) := by
  cases c with
  | accept fd =>
    obtain ⟨e, he⟩ := h
    exact ⟨e, he.trans (List.prefix_append _ _)⟩
  | recv fd result =>
    cases result with
    | failed => trivial
    | received bytes =>
      refine h.imp_right ?_
      intro hline
      exact hline.trans (List.prefix_append _ _)
  | send fd bytes result => exact h.trans (List.suffix_append _ _)
  | close fd =>
    refine h.imp ?_ ?_
    · intro hline
      exact hline.trans (List.suffix_append _ _)
    · intro hasked
      obtain ⟨command, data, returned, hioctl⟩ := hasked
      exact ⟨command, data, returned, hioctl.trans (List.suffix_append _ _)⟩
  | socket fd => trivial
  | bind fd returned => trivial
  | listen fd returned => trivial
  | poll fds events revents n => trivial
  | onMessage fd message response => trivial
  | openDevice fd => trivial
  | ioctl fd command data returned => trivial

theorem Plain.told {c : Call} (hplain : Plain c) (left right : List Event) : Told left c right := by
  cases c with
  | recv fd result =>
    rcases hplain with rfl | rfl
    · trivial
    · exact Or.inl rfl
  | accept fd => exact hplain.elim
  | send fd bytes result => exact hplain.elim
  | ioctl fd command data returned => exact hplain.elim
  | close fd => exact hplain.elim
  | socket fd => trivial
  | bind fd returned => trivial
  | listen fd returned => trivial
  | poll fds events revents n => trivial
  | onMessage fd message response => trivial
  | openDevice fd => trivial

theorem Block.told {left right : List Event} {c : Call}
    (h : Block (left ++ .called c :: right)) : Told left c right := by
  generalize hb : left ++ .called c :: right = b at h
  cases h with
  | line level message =>
    obtain ⟨left', -, hnil⟩ := after_line hb
    simp at hnil
  | call hplain e =>
    rcases first_or_rest hb with ⟨rfl, rfl, rfl⟩ | ⟨left', -, -, hmem⟩
    · exact hplain.told _ _
    · obtain ⟨fd, command, data, returned, rfl, -⟩ := followUp_calls hmem
      exact hplain.elim
  | bindFailed hreturned e e' =>
    rcases first_or_rest hb with ⟨rfl, rfl, rfl⟩ | ⟨left', -, -, hmem⟩
    · trivial
    · obtain ⟨_, _, _, _, hc, -⟩ :=
        followUp_calls ((List.mem_append.mp hmem).resolve_right (by simp))
      cases hc
  | accept fd e =>
    rcases first_or_rest hb with ⟨rfl, rfl, rfl⟩ | ⟨left', -, -, hmem⟩
    · exact ⟨e, List.prefix_rfl⟩
    · obtain ⟨_, _, _, _, hc, -⟩ :=
        followUp_calls ((List.mem_append.mp hmem).resolve_right (by simp [incoming]))
      cases hc
  | received hne =>
    rcases first_or_rest hb with ⟨rfl, rfl, rfl⟩ | ⟨left', -, -, hmem⟩
    · exact Or.inr List.prefix_rfl
    · simp [receivedFrom] at hmem
  | send fd bytes result e =>
    obtain ⟨left', rfl, hsend⟩ := after_line hb
    rcases first_or_rest hsend with ⟨rfl, rfl, rfl⟩ | ⟨left'', -, -, hmem⟩
    · exact List.suffix_rfl
    · obtain ⟨_, _, _, _, hc, -⟩ := followUp_calls hmem
      cases hc
  | @asked fd returned command data hreturned =>
    rcases first_or_rest hb with ⟨rfl, rfl, rfl⟩ | ⟨left', rfl, hclose, -⟩
    · trivial
    · rcases first_or_rest hclose with ⟨rfl, rfl, rfl⟩ | ⟨left'', -, -, hmem⟩
      · exact Or.inr ⟨command, data, returned, List.suffix_rfl⟩
      · cases hmem
  | @ioctlFailed fd returned command data hreturned e =>
    rw [followUp_ioctl hreturned] at hb
    rcases first_or_rest hb with ⟨rfl, rfl, rfl⟩ | ⟨left', rfl, hclose, -⟩
    · trivial
    · rcases first_or_rest hclose with ⟨rfl, rfl, rfl⟩ | ⟨left'', -, -, hmem⟩
      · exact Or.inr ⟨command, data, returned, List.suffix_rfl⟩
      · simp [report] at hmem
  | closed fd =>
    obtain ⟨left', rfl, hclose⟩ := after_line hb
    rcases first_or_rest hclose with ⟨rfl, rfl, rfl⟩ | ⟨left'', -, -, hmem⟩
    · exact Or.inl List.suffix_rfl
    · cases hmem

/-- **What becomes of a connection is told to the logger**, next to the call: an accepted connection
and a message that was read have the line that follows, an answer and a close the line before, with
the descriptor or the length.  Only the device is closed without a line, at once after its `ioctl`.
The level filter comes later (the line of an `accept` is `Debug`), and the closes of the signal
handler, which have no line, are not part of these runs. -/
theorem connections_told (portNumber : UInt32) (setupErrno : SetupErrno) (setupEnv : SetupEnv)
    (envs : List (LoopErrno × LoopEnv)) (pre post : List Event) (c : Call)
    (h : (run handleIncomingMessage portNumber setupErrno setupEnv envs).calls
      = pre ++ .called c :: post) : Told pre c post := by
  obtain ⟨before, left, right, after, hblock, rfl, rfl⟩ := run_block h
  exact hblock.told.append before after

theorem connections_told_refused : Told (refused.take 6) (.accept (-1)) (refused.drop 7) :=
  connections_told 50001 ⟨0, 0, 0, 0⟩ ⟨3, 0, 0⟩
    [(⟨0, fun _ => ⟨24, 0, ⟨0, 0⟩, 0⟩⟩, TcpServer.connects (-1))] (refused.take 6)
    (refused.drop 7) (.accept (-1)) (by decide +kernel)

end Logging

end FcsServer
