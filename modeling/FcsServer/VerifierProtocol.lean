import FcsServer.CommandHeader

/-!
# `VerifierProtocol`: parsing requests and framing responses

The object keeps the payload, the header and the error code of the last message.  Its methods
are functions on this state; an early `return` is a branch.

`prepareResponseMessage` and `prepareEmptyResponseMessage` call each other.  They take the
number of stack frames they may still use, and running out of frames is a fault: that the two
always return is a theorem (`prepareResponseMessage_eq`), not a property of the encoding.
-/

namespace FcsServer

open LittleEndian BitFields Utils

/-- The mailbox and attestation commands the server relays. -/
inductive CommandCode where
  | getIdCode
  | getChipId
  | sigmaTeardown
  | getAttestationCertificate
  | createAttestationSubKey
  | getMeasurement
  | mctp
  | getDeviceIdentity
  deriving DecidableEq, Repr

namespace CommandCode

def value : CommandCode → UInt32
  | getIdCode => 0x10
  | getChipId => 0x12
  | sigmaTeardown => 0xd5
  | getAttestationCertificate => 0x181
  | createAttestationSubKey => 0x182
  | getMeasurement => 0x183
  | mctp => 0x194
  | getDeviceIdentity => 0x500

def all : List CommandCode :=
  [getIdCode, getChipId, sigmaTeardown, getAttestationCertificate, createAttestationSubKey,
    getMeasurement, mctp, getDeviceIdentity]

/-- The `case` label a `switch` over the code jumps to, if there is one. -/
def ofValue (code : UInt32) : Option CommandCode := all.find? fun c => c.value = code

theorem ofValue_value (c : CommandCode) : ofValue c.value = some c := by
  cases c <;> decide +kernel

theorem ofValue_eq_some {code : UInt32} {c : CommandCode} :
    ofValue code = some c ↔ code = c.value := by
  constructor
  · intro h
    have hfound := List.find?_some h
    exact (of_decide_eq_true hfound).symm
  · intro h
    rw [h, ofValue_value]

theorem value_injective {c c' : CommandCode} (h : c.value = c'.value) : c = c' := by
  have hc := ofValue_value c
  rw [h, ofValue_value] at hc
  exact (Option.some.inj hc).symm

end CommandCode

inductive ErrorCode where
  | noError
  | genericError
  | unknownCommand
  | invalidHeader
  | invalidMagic
  deriving DecidableEq, Repr

/-- The enumerator converted to `int`. -/
def ErrorCode.value : ErrorCode → Int32
  | noError => 0x00
  | genericError => 0x01
  | unknownCommand => 0x03
  | invalidHeader => 0x04
  | invalidMagic => 0x80

structure VerifierProtocol where
  incomingPayload : List UInt8 := []
  incomingHeader : CommandHeader := {}
  errorCode : ErrorCode := .genericError
  deriving DecidableEq, Repr

namespace VerifierProtocol

def reservedBytesCount : ℕ := 4
def sigmaTeardownMagic : UInt32 := 0xb852e2a4
def sigmaTeardownSessionIdOffset : UInt64 := 4
def getAttCertCertificateRequestMask : UInt32 := 0xFF

def payloadSizeMap : List (UInt32 × ℕ) :=
  [(CommandCode.sigmaTeardown.value, 8),
    (CommandCode.getAttestationCertificate.value, 4),
    (CommandCode.getChipId.value, 0),
    (CommandCode.getDeviceIdentity.value, 0),
    (CommandCode.getIdCode.value, 0)]

theorem lookup_sigmaTeardown :
    payloadSizeMap.lookup CommandCode.sigmaTeardown.value = some 8 := by decide +kernel

theorem lookup_getAttestationCertificate :
    payloadSizeMap.lookup CommandCode.getAttestationCertificate.value = some 4 := by
  decide +kernel

def getCommandCode (vp : VerifierProtocol) : UInt32 := vp.incomingHeader.code.toUInt32

/-! ### Parsing -/

/-- `std::vector(buffer.begin() + offset, buffer.end())`: the iterator may not pass the end. -/
def suffixFrom (buffer : List UInt8) (offset : ℕ) : Except Fault (List UInt8) :=
  if offset ≤ buffer.length then .ok (buffer.drop offset) else .error .iteratorPastEnd

def getPayloadOffset (vp : VerifierProtocol) : ℕ :=
  let messageReservedBytesCount :=
    if vp.getCommandCode = CommandCode.sigmaTeardown.value
        ∨ vp.getCommandCode = CommandCode.createAttestationSubKey.value
        ∨ vp.getCommandCode = CommandCode.getMeasurement.value then
      reservedBytesCount
    else 0
  CommandHeader.getRequiredSize + messageReservedBytesCount

def isPayloadSizeCorrect (vp : VerifierProtocol) : Bool × VerifierProtocol :=
  match payloadSizeMap.lookup vp.getCommandCode with
  | some size =>
    if size ≠ vp.incomingPayload.length then (false, { vp with errorCode := .invalidHeader })
    else (true, vp)
  | none => (true, vp)

def isMagicWordCorrect (vp : VerifierProtocol) : Except Fault (Bool × VerifierProtocol) :=
  if vp.getCommandCode = CommandCode.sigmaTeardown.value then do
    let incomingMagic ← decodeFromLittleEndianBuffer vp.incomingPayload 0
    if incomingMagic ≠ sigmaTeardownMagic then
      return (false, { vp with errorCode := .invalidMagic })
    else
      return (true, vp)
  else
    return (true, vp)

/-- Whether the message is accepted, and the state of the object after it. -/
def parseMessage (vp : VerifierProtocol) (messageBuffer : List UInt8) :
    Except Fault (Bool × VerifierProtocol) :=
  if messageBuffer.length < CommandHeader.getRequiredSize then
    return (false, { vp with errorCode := .invalidHeader })
  else do
    let header ← CommandHeader.parse messageBuffer
    let vp := { vp with incomingHeader := header }
    let actualDataSizeInBytes := messageBuffer.length - CommandHeader.getRequiredSize
    let dataSizeFromHeaderInBytes := vp.incomingHeader.length.toNat * wordSize.toNat
    if actualDataSizeInBytes ≠ dataSizeFromHeaderInBytes then
      return (false, { vp with errorCode := .invalidHeader })
    else if messageBuffer.length < vp.getPayloadOffset then
      return (false, { vp with errorCode := .invalidHeader })
    else
      let payload ← suffixFrom messageBuffer vp.getPayloadOffset
      let vp := { vp with incomingPayload := payload }
      let (sizeCorrect, vp) := vp.isPayloadSizeCorrect
      if ¬ sizeCorrect then
        return (false, vp)
      else
        let (magicCorrect, vp) ← vp.isMagicWordCorrect
        if ¬ magicCorrect then
          return (false, vp)
        else
          return (true, { vp with errorCode := .noError })

/-! ### Reading the arguments of a command -/

def getSigmaTeardownSessionId (vp : VerifierProtocol) : Except Fault UInt32 :=
  if vp.getCommandCode ≠ CommandCode.sigmaTeardown.value then
    .error (.logicError
      "Attempt to read SessionId from message of type other than sigmaTeardown")
  else if vp.incomingPayload.length
      < (payloadSizeMap.lookup CommandCode.sigmaTeardown.value).getD 0 then
    .error (.logicError "getSigmaTeardownSessionId: Message Size too small")
  else
    decodeFromLittleEndianBuffer vp.incomingPayload sigmaTeardownSessionIdOffset

def getCertificateRequest (vp : VerifierProtocol) : Except Fault UInt8 :=
  if vp.getCommandCode ≠ CommandCode.getAttestationCertificate.value then
    .error (.logicError
      "Attempt to read certificate request from message of type other than getAttestationCertificate")
  else if vp.incomingPayload.length
      < (payloadSizeMap.lookup CommandCode.getAttestationCertificate.value).getD 0 then
    .error (.logicError "getCertificateRequest: Message Size too small")
  else do
    let getAttCertPayload ← decodeFromLittleEndianBuffer vp.incomingPayload 0
    return (getAttCertPayload &&& getAttCertCertificateRequestMask).toUInt8

/-- The accessors look at the code and at a minimum size, and at nothing else. -/
theorem getSigmaTeardownSessionId_eq_ok {vp : VerifierProtocol} {sessionId : UInt32} :
    vp.getSigmaTeardownSessionId = .ok sessionId ↔
      vp.getCommandCode = CommandCode.sigmaTeardown.value ∧ 8 ≤ vp.incomingPayload.length ∧
        sessionId = wordAt vp.incomingPayload 4 := by
  rw [getSigmaTeardownSessionId, lookup_sigmaTeardown, Option.getD_some]
  by_cases hcode : vp.getCommandCode = CommandCode.sigmaTeardown.value
  · rw [if_neg (not_not.mpr hcode)]
    by_cases hsize : vp.incomingPayload.length < 8
    · rw [if_pos hsize]
      simp [Nat.not_le.mpr hsize]
    · rw [if_neg hsize, decodeFromLittleEndianBuffer_eq (o := 4) rfl (by omega) (by decide)]
      simp [hcode, Nat.le_of_not_lt hsize, eq_comm]
  · rw [if_pos hcode]
    simp [hcode]

theorem getCertificateRequest_eq_ok {vp : VerifierProtocol} {certificateRequest : UInt8} :
    vp.getCertificateRequest = .ok certificateRequest ↔
      vp.getCommandCode = CommandCode.getAttestationCertificate.value ∧
        4 ≤ vp.incomingPayload.length ∧ certificateRequest = vp.incomingPayload.getD 0 0 := by
  have hmask : (wordAt vp.incomingPayload 0 &&& getAttCertCertificateRequestMask).toUInt8
      = vp.incomingPayload.getD 0 0 := by
    rw [← toUInt8_wordAt]
    exact toUInt8_and_mask _
  rw [getCertificateRequest, lookup_getAttestationCertificate, Option.getD_some]
  by_cases hcode : vp.getCommandCode = CommandCode.getAttestationCertificate.value
  · rw [if_neg (not_not.mpr hcode)]
    by_cases hsize : vp.incomingPayload.length < 4
    · rw [if_pos hsize]
      simp [Nat.not_le.mpr hsize]
    · rw [if_neg hsize, decodeFromLittleEndianBuffer_eq (o := 0) rfl (by omega) (by decide),
        ok_bind, hmask]
      simp [hcode, Nat.le_of_not_lt hsize, eq_comm, pure, Except.pure]
  · rw [if_pos hcode]
    simp [hcode]

/-! ### Responses -/

/-- The header of a response: the word count and the return code are cut to `uint16_t`. -/
def outgoingHeader (vp : VerifierProtocol) (payloadSize : ℕ) (returnCode : Int32) :
    CommandHeader :=
  { client := vp.incomingHeader.client
    id := vp.incomingHeader.id
    length := UInt16.ofNat (payloadSize / wordSize.toNat)
    res1 := 0
    res2 := 0
    code := returnCode.toUInt32.toUInt16 }

mutual

/-- `frames` bounds the calls that may be open at once. -/
def prepareResponseMessage (vp : VerifierProtocol) :
    (frames : ℕ) → (payloadBuffer responseBuffer : List UInt8) → (returnCode : Int32) →
    Except Fault (List UInt8)
  | 0, _, _, _ => .error .stackExhausted
  | frames + 1, payloadBuffer, responseBuffer, returnCode =>
    if payloadBuffer.length % wordSize.toNat ≠ 0 then
      prepareEmptyResponseMessage vp frames responseBuffer ErrorCode.genericError.value
    else do
      let responseBuffer := resize CommandHeader.getRequiredSize 0 responseBuffer
      let responseBuffer ←
        (vp.outgoingHeader payloadBuffer.length returnCode).encode responseBuffer
      if payloadBuffer.length > 0 then
        return responseBuffer ++ payloadBuffer
      else
        return responseBuffer

def prepareEmptyResponseMessage (vp : VerifierProtocol) :
    (frames : ℕ) → (responseBuffer : List UInt8) → (returnCode : Int32) →
    Except Fault (List UInt8)
  | 0, _, _ => .error .stackExhausted
  | frames + 1, responseBuffer, returnCode =>
    prepareResponseMessage vp frames [] responseBuffer returnCode

end

/-- A header without a payload. -/
def emptyResponse (vp : VerifierProtocol) (returnCode : Int32) : List UInt8 :=
  wordBytes (vp.outgoingHeader 0 returnCode).toUint32

/-- The response to a payload: framed if it is made of whole words, otherwise `genericError`. -/
def response (vp : VerifierProtocol) (payload : List UInt8) (returnCode : Int32) : List UInt8 :=
  if payload.length % 4 = 0 then
    wordBytes (vp.outgoingHeader payload.length returnCode).toUint32 ++ payload
  else vp.emptyResponse ErrorCode.genericError.value

theorem response_nil (vp : VerifierProtocol) (returnCode : Int32) :
    vp.response [] returnCode = vp.emptyResponse returnCode := by
  have hw : ([] : List UInt8).length % 4 = 0 := rfl
  rw [response, if_pos hw, List.append_nil]
  rfl

/-- A payload of whole words is framed in one frame. -/
theorem prepareResponseMessage_words (vp : VerifierProtocol) {frames : ℕ}
    {payload : List UInt8} (response : List UInt8) (returnCode : Int32) (hf : 1 ≤ frames)
    (hw : payload.length % 4 = 0) :
    vp.prepareResponseMessage frames payload response returnCode
      = .ok (wordBytes (vp.outgoingHeader payload.length returnCode).toUint32 ++ payload) := by
  obtain ⟨frames, rfl⟩ := Nat.exists_eq_add_of_le' hf
  have hlen : (resize CommandHeader.getRequiredSize 0 response).length
      = CommandHeader.getRequiredSize := length_resize _ _ _
  have hencode := CommandHeader.encode_eq (vp.outgoingHeader payload.length returnCode) hlen.ge
  rw [List.drop_of_length_le hlen.le, List.append_nil] at hencode
  rw [prepareResponseMessage, toNat_wordSize, if_neg (not_not.mpr hw)]
  simp only [hencode, ok_bind]
  split
  · rfl
  · rename_i hempty
    rw [List.eq_nil_of_length_eq_zero (Nat.eq_zero_of_not_pos hempty), List.append_nil]
    rfl

theorem prepareEmptyResponseMessage_eq (vp : VerifierProtocol) {frames : ℕ}
    (response : List UInt8) (returnCode : Int32) (hf : 2 ≤ frames) :
    vp.prepareEmptyResponseMessage frames response returnCode
      = .ok (vp.emptyResponse returnCode) := by
  obtain ⟨frames, rfl⟩ := Nat.exists_eq_add_of_le' hf
  rw [prepareEmptyResponseMessage,
    prepareResponseMessage_words vp response returnCode (by omega) rfl, List.append_nil]
  rfl

/-- **The mutual recursion returns.**  Three frames are enough for every payload: the second
entry into `prepareResponseMessage` has an empty payload, which needs no third. -/
theorem prepareResponseMessage_eq (vp : VerifierProtocol) {frames : ℕ}
    (payload response : List UInt8) (returnCode : Int32) (hf : 3 ≤ frames) :
    vp.prepareResponseMessage frames payload response returnCode
      = .ok (vp.response payload returnCode) := by
  rw [VerifierProtocol.response]
  split
  · rename_i hw
    exact prepareResponseMessage_words vp response returnCode (by omega) hw
  · rename_i hw
    obtain ⟨frames, rfl⟩ := Nat.exists_eq_add_of_le' hf
    rw [prepareResponseMessage, toNat_wordSize, if_pos hw,
      prepareEmptyResponseMessage_eq vp response _ (by omega)]

end VerifierProtocol

end FcsServer
