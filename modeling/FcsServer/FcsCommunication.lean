import FcsServer.Lib.Traced
import FcsServer.Utils

/-!
# `FcsCommunication`: marshalling commands for the `/dev/fcs` driver

The request structures of the driver interface, a driver as the answers it gives, and the
functions that fill in a request, make the call and take the answer apart.

A pointer in a request stands for the memory behind it.  The driver may leave anything in the
union of parameters; since each function reads one member of it, a reply gives the members
that are read.  The bytes a driver writes go to the front of the response buffer and stop at
its end: a driver that writes past the capacity it was offered is outside the model.

* `sendIoctl_eq` — one `open`, and if it succeeds one `ioctl` and one `close`;
* `exchange_eq` — the four commands with a response buffer share one proof;
* `getChipId_eq`, `sigmaTeardown_eq` — the two without.
-/

namespace FcsServer

open LittleEndian Utils

/-! ### The driver interface -/

/-- The `INTEL_FCS_DEV_*` request codes in use. -/
inductive DevCommand where
  | chipId
  | psgSigmaTeardown
  | attestationSubkey
  | attestationMeasurement
  | attestationGetCertificate
  | mboxSend
  deriving DecidableEq, Repr

structure FcsAttestationChipid where
  chipIdLow : UInt32
  chipIdHigh : UInt32
  deriving DecidableEq, Repr

structure FcsPsgsigmaTeardown where
  teardown : Bool
  sid : UInt32
  deriving DecidableEq, Repr

/-- `fcs_attestation_subkey` and `fcs_attestation_measuerments`, which have the same fields. -/
structure FcsAttestation where
  resvWord : UInt32
  cmdData : List UInt8
  cmdDataSz : UInt32
  rspData : List UInt8
  rspDataSz : UInt32
  deriving DecidableEq, Repr

structure FcsAttestationCertificate where
  cRequest : Int32
  rspData : List UInt8
  rspDataSz : UInt32
  deriving DecidableEq, Repr

structure FcsMboxSendCmd where
  mboxCmd : UInt32
  urgent : UInt8
  cmdData : List UInt8
  cmdDataSz : UInt16
  rspData : List UInt8
  rspDataSz : UInt16
  deriving DecidableEq, Repr

/-- The member of the union a request fills in. -/
inductive ComParas where
  | cId (p : FcsAttestationChipid)
  | tdown (p : FcsPsgsigmaTeardown)
  | subkey (p : FcsAttestation)
  | measurement (p : FcsAttestation)
  | certificate (p : FcsAttestationCertificate)
  | mboxSendCmd (p : FcsMboxSendCmd)
  deriving DecidableEq, Repr

structure IntelFcsDevIoctl where
  status : Int32
  comParas : ComParas
  deriving DecidableEq, Repr

def attestationSubkeyRspMaxSz : ℕ := 820
def attestationMeasurementRspMaxSz : ℕ := 4092
def attestationCertificateRspMaxSz : ℕ := 4096
def mboxSendRspMaxSz : ℕ := 4092

/-- What `ioctl` returns and leaves behind: the status, the members of the union as they are
read, and the bytes written to the response buffer. -/
structure IoctlReply where
  returned : ℤ
  status : Int32
  cId : FcsAttestationChipid
  subkeyRspDataSz : UInt32
  measurementRspDataSz : UInt32
  certificateRspDataSz : UInt32
  mboxRspDataSz : UInt16
  rspBytes : List UInt8
  deriving DecidableEq, Repr

/-- The answers of the device: the result of `open`, and of `ioctl` on every request. -/
structure Driver where
  openDevice : ℤ
  ioctl : DevCommand → IntelFcsDevIoctl → IoctlReply

/-! ### The process and its calls -/

/-- The answer of `recv`: `-1`, or the bytes read (none at the end of the stream). -/
inductive RecvResult where
  | failed
  | received (bytes : List UInt8)
  deriving DecidableEq, Repr

/-- The answer of `send`: a count, `-1`, or a broken connection, which raises `SIGPIPE`. -/
inductive SendResult where
  | accepted (n : ℕ)
  | failed
  | brokenPipe
  deriving DecidableEq, Repr

/-- The calls the process makes, with their answers.  `onMessage` records that the message
callback returned: the descriptor the message was read from, the message and the response. -/
inductive Call where
  | socket (fd : ℤ)
  | bind (fd returned : ℤ)
  | listen (fd returned : ℤ)
  | poll (fds : List ℤ) (events revents : List UInt16) (numberOfEvents : ℤ)
  | accept (fd : ℤ)
  | recv (fd : ℤ) (result : RecvResult)
  | send (fd : ℤ) (bytes : List UInt8) (result : SendResult)
  | onMessage (fd : ℤ) (message response : List UInt8)
  | openDevice (fd : ℤ)
  | ioctl (fd : ℤ) (command : DevCommand) (data : IntelFcsDevIoctl) (returned : ℤ)
  | close (fd : ℤ)
  deriving DecidableEq, Repr

/-- Why the process stops. -/
inductive Stop where
  | fault (f : Fault)
  | exit (code : ℤ)
  | sigpipe
  deriving DecidableEq, Repr

abbrev Proc (α : Type) := Traced Stop Call α

/-- A step of the filter that makes no calls. -/
def lift {α : Type} (x : Except Fault α) : Proc α := Traced.ofExcept Stop.fault x

@[simp] theorem lift_ok {α : Type} (a : α) : lift (.ok a) = ⟨[], .ok a⟩ := rfl

namespace FcsCommunication

/-- `none` is `false`; the reply is read only after `true`. -/
def sendIoctl (driver : Driver) (data : IntelFcsDevIoctl) (commandCode : DevCommand) :
    Proc (Option IoctlReply) := do
  let data := { data with status := -1 }
  let deviceFileDescriptor := driver.openDevice
  Traced.call (.openDevice deviceFileDescriptor)
  if deviceFileDescriptor < 0 then
    return none
  else
    let reply := driver.ioctl commandCode data
    Traced.call (.ioctl deviceFileDescriptor commandCode data reply.returned)
    if reply.returned < 0 then
      Traced.call (.close deviceFileDescriptor)
      return none
    else
      Traced.call (.close deviceFileDescriptor)
      return some reply

/-- A zero-initialised request. -/
def request (comParas : ComParas) : IntelFcsDevIoctl := ⟨0, comParas⟩

/-- The result of a call: whether it succeeded, `outBuffer` and `fcsStatus`. -/
abbrev CallResult := Bool × List UInt8 × Int32

def getChipId (driver : Driver) (outBuffer : List UInt8) (fcsStatus : Int32) :
    Proc CallResult := do
  match ← sendIoctl driver (request (.cId ⟨0, 0⟩)) .chipId with
  | none => return (false, outBuffer, fcsStatus)
  | some reply =>
    let outBuffer := resize 8 0 outBuffer
    let outBuffer ← lift (encodeToLittleEndianBuffer reply.cId.chipIdLow outBuffer 0)
    let outBuffer ← lift (encodeToLittleEndianBuffer reply.cId.chipIdHigh outBuffer 4)
    return (true, outBuffer, reply.status)

/-- There is no output buffer. -/
def sigmaTeardown (driver : Driver) (sessionId : UInt32) (fcsStatus : Int32) :
    Proc (Bool × Int32) := do
  match ← sendIoctl driver (request (.tdown ⟨true, sessionId⟩)) .psgSigmaTeardown with
  | none => return (false, fcsStatus)
  | some reply => return (true, reply.status)

/-- The commands with a response buffer: offer `maxSz` bytes, fail when the driver reports
more, and keep what it reports. -/
def exchange (driver : Driver) (commandCode : DevCommand) (maxSz : ℕ)
    (comParas : List UInt8 → ComParas) (rspDataSz : IoctlReply → ℕ) (outBuffer : List UInt8)
    (fcsStatus : Int32) : Proc CallResult := do
  let outBuffer := resize maxSz 0 outBuffer
  match ← sendIoctl driver (request (comParas outBuffer)) commandCode with
  | none => return (false, outBuffer, fcsStatus)
  | some reply =>
    let outBuffer := overwrite reply.rspBytes outBuffer
    if rspDataSz reply > maxSz then
      return (false, outBuffer, fcsStatus)
    else
      return (true, resize (rspDataSz reply) 0 outBuffer, reply.status)

/-- The parameters of the two attestation commands. -/
def attestationParas (inBuffer outBuffer : List UInt8) : FcsAttestation :=
  { resvWord := 0
    cmdData := inBuffer
    cmdDataSz := UInt32.ofNat inBuffer.length
    rspData := outBuffer
    rspDataSz := UInt32.ofNat outBuffer.length }

def createAttestationSubkey (driver : Driver) (inBuffer outBuffer : List UInt8)
    (fcsStatus : Int32) : Proc CallResult :=
  exchange driver .attestationSubkey attestationSubkeyRspMaxSz
    (fun outBuffer => .subkey (attestationParas inBuffer outBuffer))
    (fun reply => reply.subkeyRspDataSz.toNat) outBuffer fcsStatus

def getMeasurement (driver : Driver) (inBuffer outBuffer : List UInt8) (fcsStatus : Int32) :
    Proc CallResult :=
  exchange driver .attestationMeasurement attestationMeasurementRspMaxSz
    (fun outBuffer => .measurement (attestationParas inBuffer outBuffer))
    (fun reply => reply.measurementRspDataSz.toNat) outBuffer fcsStatus

def certificateParas (certificateRequest : UInt8) (outBuffer : List UInt8) :
    FcsAttestationCertificate :=
  { cRequest := Int32.ofNat certificateRequest.toNat
    rspData := outBuffer
    rspDataSz := UInt32.ofNat outBuffer.length }

def getAttestationCertificate (driver : Driver) (certificateRequest : UInt8)
    (outBuffer : List UInt8) (fcsStatus : Int32) : Proc CallResult :=
  exchange driver .attestationGetCertificate attestationCertificateRspMaxSz
    (fun outBuffer => .certificate (certificateParas certificateRequest outBuffer))
    (fun reply => reply.certificateRspDataSz.toNat) outBuffer fcsStatus

/-- The two sizes of the mailbox command are `uint16_t`. -/
def mboxParas (commandCode : UInt32) (inBuffer outBuffer : List UInt8) : FcsMboxSendCmd :=
  { mboxCmd := commandCode
    urgent := 0
    cmdData := inBuffer
    cmdDataSz := UInt16.ofNat inBuffer.length
    rspData := outBuffer
    rspDataSz := UInt16.ofNat outBuffer.length }

def mailboxGeneric (driver : Driver) (commandCode : UInt32) (inBuffer outBuffer : List UInt8)
    (fcsStatus : Int32) : Proc CallResult :=
  exchange driver .mboxSend mboxSendRspMaxSz
    (fun outBuffer => .mboxSendCmd (mboxParas commandCode inBuffer outBuffer))
    (fun reply => reply.mboxRspDataSz.toNat) outBuffer fcsStatus

/-! ### What one device call does -/

/-- The request as the driver sees it. -/
def submitted (comParas : ComParas) : IntelFcsDevIoctl := ⟨-1, comParas⟩

/-- The calls of one attempt at the device. -/
def deviceCalls (driver : Driver) (commandCode : DevCommand) (data : IntelFcsDevIoctl) :
    List Call :=
  if driver.openDevice < 0 then [.openDevice driver.openDevice]
  else [.openDevice driver.openDevice,
    .ioctl driver.openDevice commandCode data (driver.ioctl commandCode data).returned,
    .close driver.openDevice]

/-- The reply of a device that opened and whose `ioctl` succeeded. -/
def deviceReply (driver : Driver) (commandCode : DevCommand) (data : IntelFcsDevIoctl) :
    Option IoctlReply :=
  if driver.openDevice < 0 ∨ (driver.ioctl commandCode data).returned < 0 then none
  else some (driver.ioctl commandCode data)

/-- **One `open`, and if it succeeds one `ioctl` and one `close`.** -/
theorem sendIoctl_eq (driver : Driver) (comParas : ComParas) (commandCode : DevCommand) :
    sendIoctl driver (request comParas) commandCode
      = ⟨deviceCalls driver commandCode (submitted comParas),
          .ok (deviceReply driver commandCode (submitted comParas))⟩ := by
  simp only [sendIoctl, request, deviceCalls, deviceReply, submitted, Traced.call_bind]
  by_cases hopen : driver.openDevice < 0
  · simp only [hopen, if_true, true_or, Traced.pure_eq]
  · by_cases hioctl : (driver.ioctl commandCode ⟨-1, comParas⟩).returned < 0
    · simp only [hopen, hioctl, if_true, if_false, or_true, Traced.pure_eq]
    · simp only [hopen, hioctl, if_false, or_false, Traced.pure_eq]

/-- The response buffer after a call: what the driver wrote, over zeros, cut to the size it
reports. -/
def responseBytes (maxSz size : ℕ) (reply : IoctlReply) : List UInt8 :=
  (overwrite reply.rspBytes (List.replicate maxSz 0)).take size

theorem length_responseBytes {maxSz size : ℕ} (reply : IoctlReply) (h : size ≤ maxSz) :
    (responseBytes maxSz size reply).length = size := by
  rw [responseBytes, List.length_take, length_overwrite, List.length_replicate,
    Nat.min_eq_left h]

theorem exchange_eq (driver : Driver) (commandCode : DevCommand) (maxSz : ℕ)
    (comParas : List UInt8 → ComParas) (rspDataSz : IoctlReply → ℕ) (fcsStatus : Int32) :
    exchange driver commandCode maxSz comParas rspDataSz [] fcsStatus
      = ⟨deviceCalls driver commandCode (submitted (comParas (List.replicate maxSz 0))),
          .ok (match deviceReply driver commandCode
              (submitted (comParas (List.replicate maxSz 0))) with
            | none => (false, List.replicate maxSz 0, fcsStatus)
            | some reply =>
              if rspDataSz reply ≤ maxSz then
                (true, responseBytes maxSz (rspDataSz reply) reply, reply.status)
              else (false, overwrite reply.rspBytes (List.replicate maxSz 0), fcsStatus))⟩ := by
  simp only [exchange, resize_nil, sendIoctl_eq, Traced.mk_ok_bind]
  cases deviceReply driver commandCode (submitted (comParas (List.replicate maxSz 0))) with
  | none => simp only [Traced.pure_eq, List.append_nil]
  | some reply =>
    by_cases hsize : rspDataSz reply ≤ maxSz
    · have hcut : resize (rspDataSz reply) 0 (overwrite reply.rspBytes (List.replicate maxSz 0))
          = responseBytes maxSz (rspDataSz reply) reply :=
        resize_of_le 0 (by rw [length_overwrite, List.length_replicate]; exact hsize)
      simp only [hsize, Nat.not_lt.mpr hsize, if_true, if_false, hcut, Traced.pure_eq,
        List.append_nil]
    · simp only [hsize, Nat.lt_of_not_le hsize, if_true, if_false, Traced.pure_eq,
        List.append_nil]

/-- The two words are written over the eight bytes just made room for. -/
theorem getChipId_eq (driver : Driver) (fcsStatus : Int32) :
    getChipId driver [] fcsStatus
      = ⟨deviceCalls driver .chipId (submitted (.cId ⟨0, 0⟩)),
          .ok (match deviceReply driver .chipId (submitted (.cId ⟨0, 0⟩)) with
            | none => (false, [], fcsStatus)
            | some reply => (true,
                wordBytes reply.cId.chipIdLow ++ wordBytes reply.cId.chipIdHigh,
                reply.status))⟩ := by
  simp only [getChipId, sendIoctl_eq, Traced.mk_ok_bind]
  cases deviceReply driver .chipId (submitted (.cId ⟨0, 0⟩)) with
  | none => simp only [Traced.pure_eq, List.append_nil]
  | some reply =>
    have hlow : encodeToLittleEndianBuffer reply.cId.chipIdLow (resize 8 0 []) 0
        = .ok (wordBytes reply.cId.chipIdLow ++ List.replicate 4 0) :=
      encodeToLittleEndianBuffer_eq (o := 0) _ rfl (by decide) (by decide)
    have hhigh : encodeToLittleEndianBuffer reply.cId.chipIdHigh
          (wordBytes reply.cId.chipIdLow ++ List.replicate 4 0) 4
        = .ok (wordBytes reply.cId.chipIdLow ++ wordBytes reply.cId.chipIdHigh) :=
      encodeToLittleEndianBuffer_eq (o := 4) _ rfl le_rfl (by decide)
    simp only [hlow, hhigh, lift_ok, Traced.mk_ok_bind, Traced.pure_eq, List.append_nil]

theorem sigmaTeardown_eq (driver : Driver) (sessionId : UInt32) (fcsStatus : Int32) :
    sigmaTeardown driver sessionId fcsStatus
      = ⟨deviceCalls driver .psgSigmaTeardown (submitted (.tdown ⟨true, sessionId⟩)),
          .ok (match deviceReply driver .psgSigmaTeardown
              (submitted (.tdown ⟨true, sessionId⟩)) with
            | none => (false, fcsStatus)
            | some reply => (true, reply.status))⟩ := by
  simp only [sigmaTeardown, sendIoctl_eq, Traced.mk_ok_bind]
  cases deviceReply driver .psgSigmaTeardown (submitted (.tdown ⟨true, sessionId⟩)) with
  | none => simp only [Traced.pure_eq, List.append_nil]
  | some reply => simp only [Traced.pure_eq, List.append_nil]

end FcsCommunication

end FcsServer
