import FcsServer.Lib.Simulation
import FcsServer.Logger
import FcsServer.SlotEvents

/-!
# The filter with its log

Every function of the filter that writes to the log, with the lines it writes.  The value of `errno`
is an answer of the kernel, each time it is read.

* `Event` — a call, a reading of `errno` or a line; `printed` — what reaches the console;
* `parseMessage`, `sendIoctl`, …, `handleIncomingMessage` — the functions of the source;
* `callOf` — the call of an event, if it is one;
* `handle_simulates` — the calls among the events are those of the callback without a log.
-/

namespace FcsServer

open LittleEndian Utils

/-- A step of the server with its log. -/
inductive Event where
  | called (c : Call)
  /-- `errno` is read. -/
  | errno (e : ℤ)
  /-- A line is handed to the logger. -/
  | logged (level : LogLevel) (message : String)
  deriving DecidableEq

/-- A computation with its log. -/
abbrev Logged := Traced Stop Event

namespace Logging

/-- What the events leave on the console. -/
def printed (currentLogLevel : LogLevel) (events : List Event) : List String :=
  events.flatMap fun
    | .logged level message => (Logger.log currentLogLevel message level).calls
    | _ => []

def ewouldblock : ℤ := 11
def eaddrinuse : ℤ := 98

def call (c : Call) : Logged Unit := Traced.call (.called c)

def log (message : String) (level : LogLevel) : Logged Unit := Traced.call (.logged level message)

def logWithReturnCode (message : String) (errorCode : ℤ) (level : LogLevel) : Logged Unit :=
  log (message ++ " Return code: " ++ toString errorCode) level

def readErrno (e : ℤ) : Logged ℤ := do
  Traced.call (.errno e)
  return e

def logWithErrno (message : String) (e : ℤ) (level : LogLevel) : Logged Unit := do
  let errorCode ← readErrno e
  logWithReturnCode message errorCode level

/-- A step of the filter without calls and lines. -/
def lift {α : Type} (x : Except Fault α) : Logged α := Traced.ofExcept Stop.fault x

/-! ### `VerifierProtocol` -/

section VerifierProtocol

open FcsServer.VerifierProtocol

def isPayloadSizeCorrect (vp : VerifierProtocol) : Logged (Bool × VerifierProtocol) :=
  match payloadSizeMap.lookup vp.getCommandCode with
  | some size =>
    if size ≠ vp.incomingPayload.length then do
      log "Message Size incorrect" .error
      return (false, { vp with errorCode := .invalidHeader })
    else return (true, vp)
  | none => return (true, vp)

def isMagicWordCorrect (vp : VerifierProtocol) : Logged (Bool × VerifierProtocol) :=
  if vp.getCommandCode = CommandCode.sigmaTeardown.value then do
    let incomingMagic ← lift (decodeFromLittleEndianBuffer vp.incomingPayload 0)
    if incomingMagic ≠ sigmaTeardownMagic then
      log ("Incorrect sigma teardown magic: " ++ toString incomingMagic.toNat) .error
      return (false, { vp with errorCode := .invalidMagic })
    else
      return (true, vp)
  else
    return (true, vp)

def parseMessage (vp : VerifierProtocol) (messageBuffer : List UInt8) :
    Logged (Bool × VerifierProtocol) :=
  if messageBuffer.length < CommandHeader.getRequiredSize then do
    log "Message Size is smaller than Command Header" .error
    return (false, { vp with errorCode := .invalidHeader })
  else do
    let header ← lift (CommandHeader.parse messageBuffer)
    let vp := { vp with incomingHeader := header }
    let actualDataSizeInBytes := messageBuffer.length - CommandHeader.getRequiredSize
    let dataSizeFromHeaderInBytes := vp.incomingHeader.length.toNat * wordSize.toNat
    if actualDataSizeInBytes ≠ dataSizeFromHeaderInBytes then
      log ("Data length received from network (bytes): " ++ toString actualDataSizeInBytes
        ++ " is not equal to size specified in command header (converted from word to bytes): "
        ++ toString dataSizeFromHeaderInBytes) .error
      return (false, { vp with errorCode := .invalidHeader })
    else if messageBuffer.length < vp.getPayloadOffset then
      log "Message Size too small" .error
      return (false, { vp with errorCode := .invalidHeader })
    else
      let payload ← lift (suffixFrom messageBuffer vp.getPayloadOffset)
      let vp := { vp with incomingPayload := payload }
      let (sizeCorrect, vp) ← isPayloadSizeCorrect vp
      if ¬ sizeCorrect then
        return (false, vp)
      else
        let (magicCorrect, vp) ← isMagicWordCorrect vp
        if ¬ magicCorrect then
          return (false, vp)
        else
          return (true, { vp with errorCode := .noError })

mutual

def prepareResponseMessage (vp : VerifierProtocol) :
    (frames : ℕ) → (payloadBuffer responseBuffer : List UInt8) → (returnCode : Int32) →
    Logged (List UInt8)
  | 0, _, _, _ => lift (.error .stackExhausted)
  | frames + 1, payloadBuffer, responseBuffer, returnCode => do
    log ("Preparing response with return code " ++ toString returnCode.toInt) .info
    if payloadBuffer.length % wordSize.toNat ≠ 0 then
      log "Payload size not divisible by word size" .error
      prepareEmptyResponseMessage vp frames responseBuffer ErrorCode.genericError.value
    else
      let responseBuffer := resize CommandHeader.getRequiredSize 0 responseBuffer
      log "encoding header" .debug
      let responseBuffer ←
        lift ((vp.outgoingHeader payloadBuffer.length returnCode).encode responseBuffer)
      if payloadBuffer.length > 0 then
        log "copying payload to response buffer" .debug
        return responseBuffer ++ payloadBuffer
      else
        return responseBuffer

def prepareEmptyResponseMessage (vp : VerifierProtocol) :
    (frames : ℕ) → (responseBuffer : List UInt8) → (returnCode : Int32) → Logged (List UInt8)
  | 0, _, _ => lift (.error .stackExhausted)
  | frames + 1, responseBuffer, returnCode =>
    prepareResponseMessage vp frames [] responseBuffer returnCode

end

end VerifierProtocol

/-! ### `FcsCommunication` -/

/-- What `errno` is after an `open` that failed, and after an `ioctl` that failed and the `close`
that follows it. -/
structure DeviceErrno where
  openDevice : ℤ
  ioctl : ℤ

section FcsCommunication

open FcsServer.FcsCommunication

variable (errno : DeviceErrno) (driver : Driver)

def sendIoctl (data : IntelFcsDevIoctl) (commandCode : DevCommand) :
    Logged (Option IoctlReply) := do
  let data := { data with status := -1 }
  let deviceFileDescriptor := driver.openDevice
  call (.openDevice deviceFileDescriptor)
  if deviceFileDescriptor < 0 then
    logWithErrno "Opening device failed." errno.openDevice .error
    return none
  else
    let reply := driver.ioctl commandCode data
    call (.ioctl deviceFileDescriptor commandCode data reply.returned)
    if reply.returned < 0 then
      call (.close deviceFileDescriptor)
      logWithErrno "Ioctl failed." errno.ioctl .error
      return none
    else
      call (.close deviceFileDescriptor)
      logWithReturnCode "Ioctl success." reply.status.toInt .debug
      return some reply

def getChipId (outBuffer : List UInt8) (fcsStatus : Int32) : Logged CallResult := do
  log "Calling getChipId" .info
  match ← sendIoctl errno driver (request (.cId ⟨0, 0⟩)) .chipId with
  | none => return (false, outBuffer, fcsStatus)
  | some reply =>
    let outBuffer := resize 8 0 outBuffer
    let outBuffer ← lift (encodeToLittleEndianBuffer reply.cId.chipIdLow outBuffer 0)
    let outBuffer ← lift (encodeToLittleEndianBuffer reply.cId.chipIdHigh outBuffer 4)
    return (true, outBuffer, reply.status)

def sigmaTeardown (sessionId : UInt32) (fcsStatus : Int32) : Logged (Bool × Int32) := do
  log ("Calling sigmaTeardown with session ID: " ++ toString sessionId.toInt32.toInt) .info
  match ← sendIoctl errno driver (request (.tdown ⟨true, sessionId⟩)) .psgSigmaTeardown with
  | none => return (false, fcsStatus)
  | some reply => return (true, reply.status)

/-- `received` is what is logged about a response that fits. -/
def exchange (received : ℕ → Logged Unit) (commandCode : DevCommand) (maxSz : ℕ)
    (comParas : List UInt8 → ComParas) (rspDataSz : IoctlReply → ℕ) (outBuffer : List UInt8)
    (fcsStatus : Int32) : Logged CallResult := do
  let outBuffer := resize maxSz 0 outBuffer
  match ← sendIoctl errno driver (request (comParas outBuffer)) commandCode with
  | none => return (false, outBuffer, fcsStatus)
  | some reply =>
    let outBuffer := overwrite reply.rspBytes outBuffer
    if rspDataSz reply > maxSz then
      return (false, outBuffer, fcsStatus)
    else
      received (rspDataSz reply)
      return (true, resize (rspDataSz reply) 0 outBuffer, reply.status)

def createAttestationSubkey (inBuffer outBuffer : List UInt8) (fcsStatus : Int32) :
    Logged CallResult := do
  log "Calling createAttestationSubkey" .info
  exchange errno driver (fun _ => return ()) .attestationSubkey attestationSubkeyRspMaxSz
    (fun outBuffer => .subkey (attestationParas inBuffer outBuffer))
    (fun reply => reply.subkeyRspDataSz.toNat) outBuffer fcsStatus

def getMeasurement (inBuffer outBuffer : List UInt8) (fcsStatus : Int32) :
    Logged CallResult := do
  log "Calling getMeasurement" .info
  exchange errno driver (fun _ => return ()) .attestationMeasurement
    attestationMeasurementRspMaxSz
    (fun outBuffer => .measurement (attestationParas inBuffer outBuffer))
    (fun reply => reply.measurementRspDataSz.toNat) outBuffer fcsStatus

def getAttestationCertificate (certificateRequest : UInt8) (outBuffer : List UInt8)
    (fcsStatus : Int32) : Logged CallResult := do
  log "Calling getAttestationCertificate" .info
  exchange errno driver (fun _ => return ()) .attestationGetCertificate
    attestationCertificateRspMaxSz
    (fun outBuffer => .certificate (certificateParas certificateRequest outBuffer))
    (fun reply => reply.certificateRspDataSz.toNat) outBuffer fcsStatus

def mailboxGeneric (commandCode : UInt32) (inBuffer outBuffer : List UInt8)
    (fcsStatus : Int32) : Logged CallResult := do
  log ("Calling mailbox generic command with code: " ++ toString commandCode.toNat) .info
  exchange errno driver
    (fun size => log ("Received data from mailbox. Bytes: " ++ toString size) .info)
    .mboxSend mboxSendRspMaxSz
    (fun outBuffer => .mboxSendCmd (mboxParas commandCode inBuffer outBuffer))
    (fun reply => reply.mboxRspDataSz.toNat) outBuffer fcsStatus

end FcsCommunication

/-! ### `handleIncomingMessage` -/

section MessageHandler

open FcsServer.MessageHandler

def callFcs (errno : DeviceErrno) (env : Env) (verifierProtocol : VerifierProtocol)
    (payloadFromFcs : List UInt8) : CommandCode → Logged FcsCommunication.CallResult
  | .getChipId => getChipId errno env.driver payloadFromFcs env.statusReturnedFromFcs
  | .sigmaTeardown => do
    let sessionId ← lift verifierProtocol.getSigmaTeardownSessionId
    let (fcsCallSucceeded, status) ←
      sigmaTeardown errno env.driver sessionId env.statusReturnedFromFcs
    return (fcsCallSucceeded, payloadFromFcs, status)
  | .createAttestationSubKey =>
    createAttestationSubkey errno env.driver verifierProtocol.incomingPayload payloadFromFcs
      env.statusReturnedFromFcs
  | .getMeasurement =>
    getMeasurement errno env.driver verifierProtocol.incomingPayload payloadFromFcs
      env.statusReturnedFromFcs
  | .getAttestationCertificate => do
    let certificateRequest ← lift verifierProtocol.getCertificateRequest
    getAttestationCertificate errno env.driver certificateRequest payloadFromFcs
      env.statusReturnedFromFcs
  | .mctp | .getIdCode | .getDeviceIdentity =>
    mailboxGeneric errno env.driver verifierProtocol.getCommandCode
      verifierProtocol.incomingPayload payloadFromFcs env.statusReturnedFromFcs

def handleIncomingMessage (errno : DeviceErrno) (env : Env)
    (messageBuffer responseBuffer : List UInt8) : Logged (List UInt8) := do
  let (accepted, verifierProtocol) ← parseMessage {} messageBuffer
  if ¬ accepted then
    log "Couldn't parse incoming message" .error
    prepareResponseMessage verifierProtocol 3 [] responseBuffer verifierProtocol.errorCode.value
  else
    match CommandCode.ofValue verifierProtocol.getCommandCode with
    | none => do
      log ("Command code not recognized: "
        ++ toString verifierProtocol.getCommandCode.toNat) .info
      prepareEmptyResponseMessage verifierProtocol 3 responseBuffer
        ErrorCode.unknownCommand.value
    | some command => do
      let (fcsCallSucceeded, payloadFromFcs, statusReturnedFromFcs) ←
        callFcs errno env verifierProtocol [] command
      if command = .getAttestationCertificate ∧ statusReturnedFromFcs = -1 then
        log ("GET_ATTESTATION_CERTIFICATE not supported by the driver. "
          ++ "Returning unknown command.") .info
        prepareEmptyResponseMessage verifierProtocol 3 responseBuffer
          ErrorCode.unknownCommand.value
      else if ¬ fcsCallSucceeded then
        return responseBuffer
      else
        prepareResponseMessage verifierProtocol 3 payloadFromFcs responseBuffer
          statusReturnedFromFcs

end MessageHandler

/-! ### The same calls -/

/-- The call of an event. -/
def callOf : Event → Option Call
  | .called c => some c
  | .errno _ => none
  | .logged _ _ => none

section Simulation

variable {α β : Type} {r : α → α → Prop} {x : Logged α} {y : Proc α} {env : MessageHandler.Env}
  {vp : VerifierProtocol}

theorem call_simulates (c : Call) :
    Traced.Simulates callOf some (fun _ _ => True) (call c) (Traced.call c : Proc Unit) :=
  .call' rfl

/-- A line is no call. -/
theorem log_then {message : String} {level : LogLevel} {s : Unit → Logged α}
    (h : Traced.Simulates callOf some r (s ()) y) :
    Traced.Simulates callOf some r (log message level >>= s) y :=
  .hidden rfl h

theorem logWithErrno_then {message : String} {e : ℤ} {level : LogLevel} {s : Unit → Logged α}
    (h : Traced.Simulates callOf some r (s ()) y) :
    Traced.Simulates callOf some r (logWithErrno message e level >>= s) y := by
  have hlog : logWithErrno message e level >>= s
      = Traced.call (.errno e) >>= fun _ => logWithReturnCode message e level >>= s := by
    simp only [logWithErrno, readErrno, logWithReturnCode, log, Traced.call_bind, Traced.pure_eq,
      Traced.mk_ok_bind]
    rfl
  rw [hlog]
  exact .hidden rfl (log_then h)

theorem lift_simulates (z : Except Fault α) :
    Traced.Simulates callOf some Eq (lift z) (FcsServer.lift z) :=
  .ofExcept' Stop.fault (.refl z)

theorem lift_bind (z : Except Fault α) (f : α → Except Fault β) :
    FcsServer.lift (z >>= f) = FcsServer.lift z >>= fun a => FcsServer.lift (f a) :=
  Traced.ofExcept_bind Stop.fault z f

theorem isPayloadSizeCorrect_simulates (vp : VerifierProtocol) :
    Traced.Simulates callOf some Eq (isPayloadSizeCorrect vp)
      (pure vp.isPayloadSizeCorrect : Proc (Bool × VerifierProtocol)) := by
  rw [isPayloadSizeCorrect, VerifierProtocol.isPayloadSizeCorrect]
  cases VerifierProtocol.payloadSizeMap.lookup vp.getCommandCode with
  | none => exact .pure' rfl
  | some size =>
    by_cases hsize : size ≠ vp.incomingPayload.length
    · simp only [if_pos hsize]
      exact log_then (.pure' rfl)
    · simp only [if_neg hsize]
      exact .pure' rfl

theorem isMagicWordCorrect_simulates (vp : VerifierProtocol) :
    Traced.Simulates callOf some Eq (isMagicWordCorrect vp)
      (FcsServer.lift vp.isMagicWordCorrect) := by
  rw [isMagicWordCorrect, VerifierProtocol.isMagicWordCorrect]
  split
  · rw [lift_bind]
    refine (lift_simulates _).bind ?_
    intro magic _ heq
    cases heq
    split
    · exact log_then (.pure' rfl)
    · exact .pure' rfl
  · exact .pure' rfl

theorem parseMessage_simulates (vp : VerifierProtocol) (m : List UInt8) :
    Traced.Simulates callOf some Eq (parseMessage vp m) (FcsServer.lift (vp.parseMessage m)) := by
  rw [parseMessage, VerifierProtocol.parseMessage]
  split
  · exact log_then (.pure' rfl)
  · rw [lift_bind]
    refine (lift_simulates _).bind ?_
    intro header _ heq
    cases heq
    dsimp only
    split
    · exact log_then (.pure' rfl)
    · split
      · exact log_then (.pure' rfl)
      · rw [lift_bind]
        refine (lift_simulates _).bind ?_
        intro payload _ heq
        cases heq
        refine (isPayloadSizeCorrect_simulates _).bind_pure ?_
        split
        · exact .pure' rfl
        · rw [lift_bind]
          refine (isMagicWordCorrect_simulates _).bind ?_
          intro outcome _ heq
          cases heq
          split
          · exact .pure' rfl
          · exact .pure' rfl

mutual

/-- The two response functions, frame by frame. -/
theorem prepareResponseMessage_simulates (vp : VerifierProtocol) :
    ∀ (frames : ℕ) (payload responseBuffer : List UInt8) (returnCode : Int32),
      Traced.Simulates callOf some Eq
        (prepareResponseMessage vp frames payload responseBuffer returnCode)
        (FcsServer.lift (vp.prepareResponseMessage frames payload responseBuffer returnCode))
  | 0, _, _, _ => by
    rw [prepareResponseMessage, VerifierProtocol.prepareResponseMessage]
    exact lift_simulates _
  | frames + 1, payload, responseBuffer, returnCode => by
    rw [prepareResponseMessage, VerifierProtocol.prepareResponseMessage]
    refine log_then ?_
    split
    · exact log_then
        (prepareEmptyResponseMessage_simulates vp frames responseBuffer _)
    · refine log_then ?_
      rw [lift_bind]
      refine (lift_simulates _).bind ?_
      intro response _ heq
      cases heq
      split
      · exact log_then (.pure' rfl)
      · exact .pure' rfl

theorem prepareEmptyResponseMessage_simulates (vp : VerifierProtocol) :
    ∀ (frames : ℕ) (responseBuffer : List UInt8) (returnCode : Int32),
      Traced.Simulates callOf some Eq
        (prepareEmptyResponseMessage vp frames responseBuffer returnCode)
        (FcsServer.lift (vp.prepareEmptyResponseMessage frames responseBuffer returnCode))
  | 0, _, _ => by
    rw [prepareEmptyResponseMessage, VerifierProtocol.prepareEmptyResponseMessage]
    exact lift_simulates _
  | frames + 1, responseBuffer, returnCode => by
    rw [prepareEmptyResponseMessage, VerifierProtocol.prepareEmptyResponseMessage]
    exact prepareResponseMessage_simulates vp frames [] responseBuffer returnCode

end

theorem sendIoctl_simulates (errno : DeviceErrno) (driver : Driver) (data : IntelFcsDevIoctl)
    (commandCode : DevCommand) :
    Traced.Simulates callOf some Eq (sendIoctl errno driver data commandCode)
      (FcsCommunication.sendIoctl driver data commandCode) := by
  rw [sendIoctl, FcsCommunication.sendIoctl]
  refine (call_simulates _).bind ?_
  intro _ _ _
  split
  · exact logWithErrno_then (.pure' rfl)
  · refine (call_simulates _).bind ?_
    intro _ _ _
    split
    · refine (call_simulates _).bind ?_
      intro _ _ _
      exact logWithErrno_then (.pure' rfl)
    · refine (call_simulates _).bind ?_
      intro _ _ _
      exact log_then (.pure' rfl)

theorem getChipId_simulates (errno : DeviceErrno) (driver : Driver) (outBuffer : List UInt8)
    (fcsStatus : Int32) :
    Traced.Simulates callOf some Eq (getChipId errno driver outBuffer fcsStatus)
      (FcsCommunication.getChipId driver outBuffer fcsStatus) := by
  rw [getChipId, FcsCommunication.getChipId]
  refine log_then ((sendIoctl_simulates ..).bind ?_)
  intro reply _ heq
  cases heq
  cases reply with
  | none => exact .pure' rfl
  | some reply =>
    refine (lift_simulates _).bind ?_
    intro outBuffer _ heq
    cases heq
    refine (lift_simulates _).bind ?_
    intro outBuffer _ heq
    cases heq
    exact .pure' rfl

theorem sigmaTeardown_simulates (errno : DeviceErrno) (driver : Driver) (sessionId : UInt32)
    (fcsStatus : Int32) :
    Traced.Simulates callOf some Eq (sigmaTeardown errno driver sessionId fcsStatus)
      (FcsCommunication.sigmaTeardown driver sessionId fcsStatus) := by
  rw [sigmaTeardown, FcsCommunication.sigmaTeardown]
  refine log_then ((sendIoctl_simulates ..).bind ?_)
  intro reply _ heq
  cases heq
  cases reply with
  | none => exact .pure' rfl
  | some reply => exact .pure' rfl

theorem exchange_simulates (errno : DeviceErrno) (driver : Driver) {received : ℕ → Logged Unit}
    (hreceived : ∀ size, Traced.Simulates callOf some Eq (received size) (pure () : Proc Unit))
    (commandCode : DevCommand) (maxSz : ℕ) (comParas : List UInt8 → ComParas)
    (rspDataSz : IoctlReply → ℕ) (outBuffer : List UInt8) (fcsStatus : Int32) :
    Traced.Simulates callOf some Eq
      (exchange errno driver received commandCode maxSz comParas rspDataSz outBuffer fcsStatus)
      (FcsCommunication.exchange driver commandCode maxSz comParas rspDataSz outBuffer
        fcsStatus) := by
  rw [exchange, FcsCommunication.exchange]
  refine (sendIoctl_simulates ..).bind ?_
  intro reply _ heq
  cases heq
  cases reply with
  | none => exact .pure' rfl
  | some reply =>
    dsimp only
    split
    · exact .pure' rfl
    · exact (hreceived _).bind_pure (.pure' rfl)

theorem callFcs_simulates (errno : DeviceErrno) (env : MessageHandler.Env) (vp : VerifierProtocol)
    (payload : List UInt8) (command : CommandCode) :
    Traced.Simulates callOf some Eq (callFcs errno env vp payload command)
      (MessageHandler.callFcs env vp payload command) := by
  have hsilent : ∀ size : ℕ, Traced.Simulates callOf some Eq
      ((fun _ => return ()) size : Logged Unit) (pure () : Proc Unit) := fun _ => .pure' rfl
  have hmailbox : Traced.Simulates callOf some Eq
      (mailboxGeneric errno env.driver vp.getCommandCode vp.incomingPayload payload
        env.statusReturnedFromFcs)
      (FcsCommunication.mailboxGeneric env.driver vp.getCommandCode vp.incomingPayload payload
        env.statusReturnedFromFcs) :=
    log_then (exchange_simulates errno env.driver (fun _ => log_then (.pure' rfl)) ..)
  cases command with
  | getChipId => exact getChipId_simulates ..
  | sigmaTeardown =>
    rw [callFcs, MessageHandler.callFcs]
    refine (lift_simulates _).bind ?_
    intro sessionId _ heq
    cases heq
    refine (sigmaTeardown_simulates ..).bind ?_
    intro outcome _ heq
    cases heq
    exact .pure' rfl
  | createAttestationSubKey => exact log_then (exchange_simulates errno env.driver hsilent ..)
  | getMeasurement => exact log_then (exchange_simulates errno env.driver hsilent ..)
  | getAttestationCertificate =>
    rw [callFcs, MessageHandler.callFcs]
    refine (lift_simulates _).bind ?_
    intro certificateRequest _ heq
    cases heq
    exact log_then (exchange_simulates errno env.driver hsilent ..)
  | mctp => exact hmailbox
  | getIdCode => exact hmailbox
  | getDeviceIdentity => exact hmailbox

/-- **The log changes nothing of what the callback does.** -/
theorem handle_simulates (errno : DeviceErrno) (env : MessageHandler.Env)
    (m responseBuffer : List UInt8) :
    Traced.Simulates callOf some Eq (handleIncomingMessage errno env m responseBuffer)
      (MessageHandler.handleIncomingMessage env m responseBuffer) := by
  rw [handleIncomingMessage, MessageHandler.handleIncomingMessage,
    MessageHandler.handleIncomingMessageWithin]
  refine (parseMessage_simulates _ _).bind ?_
  intro outcome _ heq
  cases heq
  dsimp only
  split
  · exact log_then (prepareResponseMessage_simulates ..)
  · cases CommandCode.ofValue outcome.2.getCommandCode with
    | none => exact log_then (prepareEmptyResponseMessage_simulates ..)
    | some command =>
      refine (callFcs_simulates ..).bind ?_
      intro result _ heq
      cases heq
      split
      · exact log_then (prepareEmptyResponseMessage_simulates ..)
      · split
        · exact .pure' rfl
        · exact prepareResponseMessage_simulates ..

end Simulation

end Logging

end FcsServer
