import FcsServer.FcsCommunication
import FcsServer.RequestGrammar

/-!
# `handleIncomingMessage`: one request, at most one device call, one response

The callback of the server.  Its inputs besides the message are the driver's answers and
`statusReturnedFromFcs`, a local the source does not initialise: its value before the switch
is a parameter.

* `handleIncomingMessage` — the source's dispatch, with the parser, the accessors, the
  marshalling and the response encoder of the other modules;
* `comParas` / `fcsReply` — for each command, the request that the bytes of a message ask for,
  and the reply that makes the call succeed;
* `callFcs_eq` — the switch makes that one request;
* `handleIncomingMessageWithin_eq` — the calls and the response, for every message, driver,
  initial status and number of stack frames from three on.
-/

namespace FcsServer

open LittleEndian BitFields Utils RequestGrammar

namespace MessageHandler

/-- What a call finds on the stack and at the device. -/
structure Env where
  driver : Driver
  statusReturnedFromFcs : Int32

/-- The switch over the command code: the call each case makes, with the output buffer
`payloadFromFcs` and the status. -/
def callFcs (env : Env) (verifierProtocol : VerifierProtocol) (payloadFromFcs : List UInt8) :
    CommandCode → Proc FcsCommunication.CallResult
  | .getChipId =>
    FcsCommunication.getChipId env.driver payloadFromFcs env.statusReturnedFromFcs
  | .sigmaTeardown => do
    let sessionId ← lift verifierProtocol.getSigmaTeardownSessionId
    let (fcsCallSucceeded, status) ←
      FcsCommunication.sigmaTeardown env.driver sessionId env.statusReturnedFromFcs
    return (fcsCallSucceeded, payloadFromFcs, status)
  | .createAttestationSubKey =>
    FcsCommunication.createAttestationSubkey env.driver verifierProtocol.incomingPayload
      payloadFromFcs env.statusReturnedFromFcs
  | .getMeasurement =>
    FcsCommunication.getMeasurement env.driver verifierProtocol.incomingPayload
      payloadFromFcs env.statusReturnedFromFcs
  | .getAttestationCertificate => do
    let certificateRequest ← lift verifierProtocol.getCertificateRequest
    FcsCommunication.getAttestationCertificate env.driver certificateRequest
      payloadFromFcs env.statusReturnedFromFcs
  | .mctp | .getIdCode | .getDeviceIdentity =>
    FcsCommunication.mailboxGeneric env.driver verifierProtocol.getCommandCode
      verifierProtocol.incomingPayload payloadFromFcs env.statusReturnedFromFcs

/-- The response buffer after the call.  `frames` bounds the stack of the two response
functions. -/
def handleIncomingMessageWithin (frames : ℕ) (env : Env)
    (messageBuffer responseBuffer : List UInt8) : Proc (List UInt8) := do
  let (accepted, verifierProtocol) ← lift (({} : VerifierProtocol).parseMessage messageBuffer)
  if ¬ accepted then
    lift (verifierProtocol.prepareResponseMessage frames [] responseBuffer
      verifierProtocol.errorCode.value)
  else
    match CommandCode.ofValue verifierProtocol.getCommandCode with
    | none =>
      lift (verifierProtocol.prepareEmptyResponseMessage frames responseBuffer
        ErrorCode.unknownCommand.value)
    | some command =>
      let (fcsCallSucceeded, payloadFromFcs, statusReturnedFromFcs) ←
        callFcs env verifierProtocol [] command
      -- the certificate case looks at the status before anything looks at the success flag
      if command = .getAttestationCertificate ∧ statusReturnedFromFcs = -1 then
        lift (verifierProtocol.prepareEmptyResponseMessage frames responseBuffer
          ErrorCode.unknownCommand.value)
      else if ¬ fcsCallSucceeded then
        return responseBuffer
      else
        lift (verifierProtocol.prepareResponseMessage frames payloadFromFcs responseBuffer
          statusReturnedFromFcs)

/-- Three frames are all that is ever used (`handleIncomingMessageWithin_eq`). -/
def handleIncomingMessage (env : Env) (messageBuffer responseBuffer : List UInt8) :
    Proc (List UInt8) :=
  handleIncomingMessageWithin 3 env messageBuffer responseBuffer

/-! ### What a message asks for, and what a reply is worth -/

/-- The request code of a command. -/
def devCommand : CommandCode → DevCommand
  | .getChipId => .chipId
  | .sigmaTeardown => .psgSigmaTeardown
  | .createAttestationSubKey => .attestationSubkey
  | .getMeasurement => .attestationMeasurement
  | .getAttestationCertificate => .attestationGetCertificate
  | .mctp | .getIdCode | .getDeviceIdentity => .mboxSend

/-- The capacity offered for the response. -/
def rspMaxSz : CommandCode → ℕ
  | .getChipId => 8
  | .sigmaTeardown => 0
  | .createAttestationSubKey => attestationSubkeyRspMaxSz
  | .getMeasurement => attestationMeasurementRspMaxSz
  | .getAttestationCertificate => attestationCertificateRspMaxSz
  | .mctp | .getIdCode | .getDeviceIdentity => mboxSendRspMaxSz

/-- The parameters of the two attestation commands, on the bytes of the message. -/
def attestationOf (m : List UInt8) (c : CommandCode) : FcsAttestation :=
  { resvWord := 0
    cmdData := m.drop 8
    cmdDataSz := UInt32.ofNat (m.length - 8)
    rspData := List.replicate (rspMaxSz c) 0
    rspDataSz := UInt32.ofNat (rspMaxSz c) }

/-- The parameters of the three mailbox commands. -/
def mailboxOf (m : List UInt8) (c : CommandCode) : FcsMboxSendCmd :=
  { mboxCmd := c.value
    urgent := 0
    cmdData := m.drop 4
    cmdDataSz := UInt16.ofNat (m.length - 4)
    rspData := List.replicate (rspMaxSz c) 0
    rspDataSz := UInt16.ofNat (rspMaxSz c) }

/-- The parameters that a message with command `c` hands to the driver. -/
def comParas (m : List UInt8) : CommandCode → ComParas
  | .getChipId => .cId ⟨0, 0⟩
  | .sigmaTeardown => .tdown ⟨true, wordAt m 12⟩
  | .createAttestationSubKey => .subkey (attestationOf m .createAttestationSubKey)
  | .getMeasurement => .measurement (attestationOf m .getMeasurement)
  | .getAttestationCertificate => .certificate
      { cRequest := Int32.ofNat (m.getD 4 0).toNat
        rspData := List.replicate attestationCertificateRspMaxSz 0
        rspDataSz := UInt32.ofNat attestationCertificateRspMaxSz }
  | .mctp => .mboxSendCmd (mailboxOf m .mctp)
  | .getIdCode => .mboxSendCmd (mailboxOf m .getIdCode)
  | .getDeviceIdentity => .mboxSendCmd (mailboxOf m .getDeviceIdentity)

/-- The response size a reply reports: the field of the member the command reads. -/
def rspDataSz (r : IoctlReply) : CommandCode → ℕ
  | .getChipId => 8
  | .sigmaTeardown => 0
  | .createAttestationSubKey => r.subkeyRspDataSz.toNat
  | .getMeasurement => r.measurementRspDataSz.toNat
  | .getAttestationCertificate => r.certificateRspDataSz.toNat
  | .mctp | .getIdCode | .getDeviceIdentity => r.mboxRspDataSz.toNat

/-- The payload a reply carries. -/
def rspPayload (r : IoctlReply) : CommandCode → List UInt8
  | .getChipId => wordBytes r.cId.chipIdLow ++ wordBytes r.cId.chipIdHigh
  | .sigmaTeardown => []
  | c => FcsCommunication.responseBytes (rspMaxSz c) (rspDataSz r c) r

/-- The reply that makes the call for command `c` succeed: the device opens, `ioctl`
succeeds, and the reported size fits.  `none` is a call that returns `false`. -/
def fcsReply (driver : Driver) (m : List UInt8) (c : CommandCode) : Option IoctlReply :=
  (FcsCommunication.deviceReply driver (devCommand c)
    (FcsCommunication.submitted (comParas m c))).filter fun r => rspDataSz r c ≤ rspMaxSz c

/-- The device does not serve command `c` of the message: it does not open, `ioctl` fails, or
the size it reports exceeds the capacity it was offered. -/
def DeviceFails (driver : Driver) (m : List UInt8) (c : CommandCode) : Prop :=
  let request := FcsCommunication.submitted (comParas m c)
  driver.openDevice < 0 ∨ (driver.ioctl (devCommand c) request).returned < 0 ∨
    rspMaxSz c < rspDataSz (driver.ioctl (devCommand c) request) c

theorem fcsReply_eq_none (driver : Driver) (m : List UInt8) (c : CommandCode) :
    fcsReply driver m c = none ↔ DeviceFails driver m c := by
  rw [fcsReply, FcsCommunication.deviceReply, DeviceFails, ← or_assoc]
  by_cases hdown : driver.openDevice < 0 ∨ (driver.ioctl (devCommand c)
      (FcsCommunication.submitted (comParas m c))).returned < 0
  · simp [hdown]
  · simp [hdown]

theorem length_rspPayload {r : IoctlReply} {c : CommandCode} (h : rspDataSz r c ≤ rspMaxSz c) :
    (rspPayload r c).length = rspDataSz r c := by
  cases c
  case getChipId => rfl
  case sigmaTeardown => rfl
  all_goals exact FcsCommunication.length_responseBytes r h

theorem fcsReply_size {driver : Driver} {m : List UInt8} {c : CommandCode} {r : IoctlReply}
    (h : fcsReply driver m c = some r) : rspDataSz r c ≤ rspMaxSz c := by
  obtain ⟨-, hle⟩ := Option.filter_eq_some_iff.mp h
  exact of_decide_eq_true hle

/-- A reply of fixed size always fits. -/
theorem fcsReply_of_fits {c : CommandCode} (driver : Driver) (m : List UInt8)
    (h : ∀ r, rspDataSz r c ≤ rspMaxSz c) :
    fcsReply driver m c = FcsCommunication.deviceReply driver (devCommand c)
      (FcsCommunication.submitted (comParas m c)) := by
  rw [fcsReply]
  cases FcsCommunication.deviceReply driver (devCommand c)
      (FcsCommunication.submitted (comParas m c)) with
  | none => rfl
  | some r => rw [Option.filter_some, if_pos (decide_eq_true (h r))]

/-! ### The callback on each kind of message -/

variable {env : Env} {m : List UInt8} {c : CommandCode} {frames : ℕ}

/-- The state of the parser after an accepted message. -/
def parsed (m : List UInt8) : VerifierProtocol := ⟨m.drop (payloadStart m), headerOf m, .noError⟩

theorem parseOutcome_parsed (h : Accepted m) : parseOutcome {} m = (true, parsed m) :=
  parseOutcome_of_accepted {} h

theorem getCommandCode_parsed (hc : HasCode m c) : (parsed m).getCommandCode = c.value :=
  headerOf_code_eq.mpr hc

theorem getSigmaTeardownSessionId_parsed (h : Accepted m) (hc : HasCode m .sigmaTeardown) :
    (parsed m).getSigmaTeardownSessionId = .ok (wordAt m 12) := by
  have hstart : payloadStart m = 8 := if_pos (Or.inl hc)
  have hlen : (parsed m).incomingPayload.length = 8 := by
    rw [parsed, hstart, List.length_drop, (h.teardown hc).1]
  rw [VerifierProtocol.getSigmaTeardownSessionId_eq_ok]
  refine ⟨getCommandCode_parsed hc, hlen.ge, ?_⟩
  rw [parsed, hstart, wordAt_drop]

theorem getCertificateRequest_parsed (h : Accepted m)
    (hc : HasCode m .getAttestationCertificate) :
    (parsed m).getCertificateRequest = .ok (m.getD 4 0) := by
  have hstart : payloadStart m = 4 := if_neg (not_reserved_of_certificate hc)
  have hlen : (parsed m).incomingPayload.length = 4 := by
    rw [parsed, hstart, List.length_drop, h.certificate hc]
  rw [VerifierProtocol.getCertificateRequest_eq_ok]
  refine ⟨getCommandCode_parsed hc, hlen.ge, ?_⟩
  rw [parsed, hstart, ← toUInt8_wordAt, ← toUInt8_wordAt, wordAt_drop]

/-- The commands with a response buffer: a call that fails leaves a grown buffer, which nothing
reads, and the status it found. -/
theorem exchange_fcsReply (env : Env) (m : List UInt8) (c : CommandCode)
    {paras : List UInt8 → ComParas} {size : IoctlReply → ℕ}
    (hparas : paras (List.replicate (rspMaxSz c) 0) = comParas m c)
    (hsize : ∀ r, size r = rspDataSz r c)
    (hpay : ∀ r, rspPayload r c
      = FcsCommunication.responseBytes (rspMaxSz c) (rspDataSz r c) r) :
    ∃ grown, FcsCommunication.exchange env.driver (devCommand c) (rspMaxSz c) paras size []
        env.statusReturnedFromFcs
      = ⟨FcsCommunication.deviceCalls env.driver (devCommand c)
          (FcsCommunication.submitted (comParas m c)),
        .ok (match fcsReply env.driver m c with
          | none => (false, grown, env.statusReturnedFromFcs)
          | some r => (true, rspPayload r c, r.status))⟩ := by
  rw [FcsCommunication.exchange_eq, hparas, fcsReply]
  cases FcsCommunication.deviceReply env.driver (devCommand c)
      (FcsCommunication.submitted (comParas m c)) with
  | none => exact ⟨List.replicate (rspMaxSz c) 0, rfl⟩
  | some r =>
    refine ⟨overwrite r.rspBytes (List.replicate (rspMaxSz c) 0), ?_⟩
    simp only [hsize, Option.filter_some]
    by_cases hle : rspDataSz r c ≤ rspMaxSz c
    · simp only [hle, decide_true, if_true, hpay]
    · simp only [hle, decide_false, Bool.false_eq_true, if_false]

/-- **The switch.**  The call a known command makes, and what it returns. -/
theorem callFcs_eq (env : Env) (h : Accepted m) (hc : HasCode m c) :
    ∃ grown, callFcs env (parsed m) [] c
      = ⟨FcsCommunication.deviceCalls env.driver (devCommand c)
          (FcsCommunication.submitted (comParas m c)),
        .ok (match fcsReply env.driver m c with
          | none => (false, grown, env.statusReturnedFromFcs)
          | some r => (true, rspPayload r c, r.status))⟩ := by
  have hpay8 : HasReservedWord m → (parsed m).incomingPayload = m.drop 8 := by
    intro hr
    rw [parsed, payloadStart, if_pos hr]
  have hpay4 : ¬ HasReservedWord m → (parsed m).incomingPayload = m.drop 4 := by
    intro hr
    rw [parsed, payloadStart, if_neg hr]
  -- the parameters depend on the buffer only through its size, which is the capacity
  have hattest : ∀ n, HasReservedWord m →
      FcsCommunication.attestationParas (parsed m).incomingPayload (List.replicate n 0)
        = { resvWord := 0, cmdData := m.drop 8, cmdDataSz := UInt32.ofNat (m.length - 8),
            rspData := List.replicate n 0, rspDataSz := UInt32.ofNat n } := by
    intro n hr
    rw [FcsCommunication.attestationParas, hpay8 hr, List.length_drop, List.length_replicate]
  have hmbox : ∀ n, ¬ HasReservedWord m →
      FcsCommunication.mboxParas (parsed m).getCommandCode (parsed m).incomingPayload
          (List.replicate n 0)
        = { mboxCmd := c.value, urgent := 0, cmdData := m.drop 4,
            cmdDataSz := UInt16.ofNat (m.length - 4), rspData := List.replicate n 0,
            rspDataSz := UInt16.ofNat n } := by
    intro n hr
    rw [FcsCommunication.mboxParas, getCommandCode_parsed hc, hpay4 hr, List.length_drop,
      List.length_replicate]
  cases c with
  | getChipId =>
    rw [callFcs, FcsCommunication.getChipId_eq, fcsReply_of_fits _ _ (fun _ => le_rfl)]
    exact ⟨[], rfl⟩
  | sigmaTeardown =>
    refine ⟨[], ?_⟩
    rw [callFcs, getSigmaTeardownSessionId_parsed h hc, lift_ok, Traced.mk_ok_bind,
      FcsCommunication.sigmaTeardown_eq, fcsReply_of_fits _ _ (fun _ => le_rfl)]
    simp only [Traced.mk_ok_bind, List.nil_append, devCommand, comParas]
    cases FcsCommunication.deviceReply env.driver .psgSigmaTeardown
        (FcsCommunication.submitted (.tdown ⟨true, wordAt m 12⟩)) with
    | none => simp only [Traced.pure_eq, List.append_nil]
    | some r => simp only [Traced.pure_eq, List.append_nil, rspPayload]
  | createAttestationSubKey =>
    rw [callFcs, FcsCommunication.createAttestationSubkey]
    refine exchange_fcsReply env m .createAttestationSubKey ?_ ?_ ?_
    · exact congrArg ComParas.subkey (hattest _ (Or.inr (Or.inl hc)))
    · intro r
      rfl
    · intro r
      rfl
  | getMeasurement =>
    rw [callFcs, FcsCommunication.getMeasurement]
    refine exchange_fcsReply env m .getMeasurement ?_ ?_ ?_
    · exact congrArg ComParas.measurement (hattest _ (Or.inr (Or.inr hc)))
    · intro r
      rfl
    · intro r
      rfl
  | getAttestationCertificate =>
    rw [callFcs, getCertificateRequest_parsed h hc, lift_ok, Traced.mk_nil_bind,
      FcsCommunication.getAttestationCertificate]
    refine exchange_fcsReply env m .getAttestationCertificate ?_ ?_ ?_
    · rw [FcsCommunication.certificateParas, List.length_replicate]
      rfl
    · intro r
      rfl
    · intro r
      rfl
  | mctp =>
    rw [callFcs, FcsCommunication.mailboxGeneric]
    refine exchange_fcsReply env m .mctp ?_ ?_ ?_
    · refine congrArg ComParas.mboxSendCmd (hmbox _ ?_)
      intro hreserved
      rcases hreserved with hr | hr | hr <;> cases hr.unique hc
    · intro r
      rfl
    · intro r
      rfl
  | getIdCode =>
    rw [callFcs, FcsCommunication.mailboxGeneric]
    refine exchange_fcsReply env m .getIdCode ?_ ?_ ?_
    · exact congrArg ComParas.mboxSendCmd (hmbox _ (not_reserved_of_bare (Or.inr (Or.inl hc))))
    · intro r
      rfl
    · intro r
      rfl
  | getDeviceIdentity =>
    rw [callFcs, FcsCommunication.mailboxGeneric]
    refine exchange_fcsReply env m .getDeviceIdentity ?_ ?_ ?_
    · exact congrArg ComParas.mboxSendCmd (hmbox _ (not_reserved_of_bare (Or.inr (Or.inr hc))))
    · intro r
      rfl
    · intro r
      rfl

/-- The call for command `c` returns `true` with this payload and status. -/
def CallReturnsTrue (env : Env) (m : List UInt8) (c : CommandCode) (payload : List UInt8)
    (status : Int32) : Prop :=
  (callFcs env (parsed m) [] c).result = .ok (true, payload, status)

/-- The call for command `c` returns `false`, whatever it leaves in its output arguments. -/
def CallReturnsFalse (env : Env) (m : List UInt8) (c : CommandCode) : Prop :=
  ∃ payload status, (callFcs env (parsed m) [] c).result = .ok (false, payload, status)

theorem callReturnsTrue_iff {payload : List UInt8} {status : Int32} (h : Accepted m)
    (hc : HasCode m c) : CallReturnsTrue env m c payload status ↔
      ∃ r, fcsReply env.driver m c = some r ∧ payload = rspPayload r c ∧ status = r.status := by
  obtain ⟨grown, hcall⟩ := callFcs_eq env h hc
  rw [CallReturnsTrue, hcall]
  cases fcsReply env.driver m c with
  | none => simp
  | some r => simp [eq_comm]

theorem callReturnsFalse_iff (h : Accepted m) (hc : HasCode m c) :
    CallReturnsFalse env m c ↔ fcsReply env.driver m c = none := by
  obtain ⟨grown, hcall⟩ := callFcs_eq env h hc
  rw [CallReturnsFalse, hcall]
  cases fcsReply env.driver m c with
  | none => simp
  | some r => simp

/-- The call returns. -/
theorem callReturns (env : Env) (h : Accepted m) (hc : HasCode m c) :
    CallReturnsFalse env m c ∨ ∃ payload status, CallReturnsTrue env m c payload status := by
  cases hr : fcsReply env.driver m c with
  | none => exact Or.inl ((callReturnsFalse_iff h hc).mpr hr)
  | some r => exact Or.inr ⟨_, _, (callReturnsTrue_iff h hc).mpr ⟨r, hr, rfl, rfl⟩⟩

/-- The command of an accepted message, if it is one of the known ones. -/
def commandOf (m : List UInt8) : Option CommandCode :=
  if Accepted m then CommandCode.ofValue (parsed m).getCommandCode else none

theorem commandOf_eq_some : commandOf m = some c ↔ Accepted m ∧ HasCode m c := by
  rw [commandOf]
  by_cases h : Accepted m
  · rw [if_pos h, CommandCode.ofValue_eq_some]
    show (headerOf m).code.toUInt32 = c.value ↔ _
    rw [headerOf_code_eq]
    exact ⟨fun hc => ⟨h, hc⟩, fun hc => hc.2⟩
  · rw [if_neg h]
    constructor
    · intro hnone
      cases hnone
    · intro hknown
      obtain ⟨ha, -⟩ := hknown
      exact absurd ha h

/-- The object after parsing a message, accepted or not. -/
def afterParse (m : List UInt8) : VerifierProtocol := (parseOutcome {} m).2

theorem afterParse_of_accepted (h : Accepted m) : afterParse m = parsed m := by
  rw [afterParse, parseOutcome_parsed h]

/-- The calls made for a message. -/
def callsFor (env : Env) (m : List UInt8) : List Call :=
  match commandOf m with
  | none => []
  | some c => FcsCommunication.deviceCalls env.driver (devCommand c)
      (FcsCommunication.submitted (comParas m c))

/-- The return code of the answer to a message that is not relayed. -/
def refusalCode (m : List UInt8) : ErrorCode :=
  if Accepted m then .unknownCommand else (afterParse m).errorCode

/-- The response to a message with command `c`: the certificate status is looked at first, then
whether the call succeeded. -/
def relayResponse (env : Env) (m : List UInt8) (c : CommandCode) (responseBuffer : List UInt8) :
    List UInt8 :=
  match fcsReply env.driver m c with
  | none =>
    if c = .getAttestationCertificate ∧ env.statusReturnedFromFcs = -1 then
      (afterParse m).emptyResponse ErrorCode.unknownCommand.value
    else responseBuffer
  | some r =>
    if c = .getAttestationCertificate ∧ r.status = -1 then
      (afterParse m).emptyResponse ErrorCode.unknownCommand.value
    else (afterParse m).response (rspPayload r c) r.status

/-- The response buffer after a message. -/
def responseFor (env : Env) (m responseBuffer : List UInt8) : List UInt8 :=
  match commandOf m with
  | none => (afterParse m).emptyResponse (refusalCode m).value
  | some c => relayResponse env m c responseBuffer

/-- **What the callback does.**  It returns, whatever the message, the driver and the initial
status are, and it never uses a fourth frame. -/
theorem handleIncomingMessageWithin_eq (env : Env) (m responseBuffer : List UInt8)
    (hf : 3 ≤ frames) :
    handleIncomingMessageWithin frames env m responseBuffer
      = ⟨callsFor env m, .ok (responseFor env m responseBuffer)⟩ := by
  rw [handleIncomingMessageWithin, parseMessage_eq, lift_ok, Traced.mk_nil_bind, callsFor,
    responseFor]
  by_cases ha : Accepted m
  · rw [parseOutcome_parsed ha]
    dsimp only
    rw [if_neg (by simp)]
    cases hc : commandOf m with
    | none =>
      have hnone : CommandCode.ofValue (parsed m).getCommandCode = none := by
        rwa [commandOf, if_pos ha] at hc
      rw [hnone, refusalCode, if_pos ha, afterParse_of_accepted ha]
      rw [VerifierProtocol.prepareEmptyResponseMessage_eq _ _ _ (by omega), lift_ok]
    | some c =>
      have hcode := (commandOf_eq_some.mp hc).2
      have hsome : CommandCode.ofValue (parsed m).getCommandCode = some c := by
        rwa [commandOf, if_pos ha] at hc
      obtain ⟨grown, hcall⟩ := callFcs_eq env ha hcode
      rw [hsome]
      dsimp only
      rw [hcall, Traced.mk_ok_bind]
      rw [relayResponse, afterParse_of_accepted ha]
      cases hr : fcsReply env.driver m c with
      | none =>
        dsimp only
        split
        · rw [VerifierProtocol.prepareEmptyResponseMessage_eq _ _ _ (by omega), lift_ok,
            List.append_nil]
        · rw [if_pos (by simp), Traced.pure_eq, List.append_nil]
      | some r =>
        dsimp only
        split
        · rw [VerifierProtocol.prepareEmptyResponseMessage_eq _ _ _ (by omega), lift_ok,
            List.append_nil]
        · rw [if_neg (by simp), VerifierProtocol.prepareResponseMessage_eq _ _ _ _ hf, lift_ok,
            List.append_nil]
  · have hrej : (parseOutcome {} m).1 = false := by
      rw [← Bool.not_eq_true, parseOutcome_fst]
      exact ha
    have hc : commandOf m = none := if_neg ha
    rw [hc, refusalCode, if_neg ha, afterParse]
    dsimp only
    rw [hrej, if_pos (by simp), VerifierProtocol.prepareResponseMessage_eq _ _ _ _ hf, lift_ok,
      VerifierProtocol.response_nil]

theorem handleIncomingMessage_eq (env : Env) (m responseBuffer : List UInt8) :
    handleIncomingMessage env m responseBuffer
      = ⟨callsFor env m, .ok (responseFor env m responseBuffer)⟩ :=
  handleIncomingMessageWithin_eq env m responseBuffer le_rfl

/-- The calls on the device and its descriptor. -/
def IsDeviceCall : Call → Prop
  | .openDevice _ => True
  | .ioctl _ _ _ _ => True
  | .close _ => True
  | _ => False

def DeviceOnly (calls : List Call) : Prop := ∀ x ∈ calls, IsDeviceCall x

/-- The callback talks to the device and to nobody else. -/
theorem callsFor_deviceOnly (env : Env) (m : List UInt8) : DeviceOnly (callsFor env m) := by
  rw [callsFor]
  cases commandOf m with
  | none => simp [DeviceOnly]
  | some c =>
    simp only [FcsCommunication.deviceCalls]
    split <;> simp [DeviceOnly, IsDeviceCall]

/-! ### From the record of a callback -/

section Handled

variable {responseBuffer response : List UInt8} {calls : List Call} {stop : Stop}

theorem handled_ok (h : handleIncomingMessage env m responseBuffer = ⟨calls, .ok response⟩) :
    callsFor env m = calls ∧ responseFor env m responseBuffer = response := by
  rw [handleIncomingMessage_eq, Traced.mk.injEq, Except.ok.injEq] at h
  exact h

/-- The callback always returns. -/
theorem handled_ne_error : handleIncomingMessage env m responseBuffer ≠ ⟨calls, .error stop⟩ := by
  rw [handleIncomingMessage_eq]
  intro h
  cases h

theorem handled_deviceOnly
    (h : handleIncomingMessage env m responseBuffer = ⟨calls, .ok response⟩) :
    DeviceOnly calls := by
  rw [← (handled_ok h).1]
  exact callsFor_deviceOnly env m

end Handled

end MessageHandler

end FcsServer
