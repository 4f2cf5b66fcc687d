import FcsServer.ServerLog

/-!
# What the log does not tell

Two runs that differ only in the payloads of requests and responses write the same lines: of a
request the log shows the length, the code and the length field, and the two words of a
`SIGMA_TEARDOWN`; of the device the status and the sizes.

* `SameOutline`, `SameReply`, `SameRequest` — messages, replies and requests that the log does not
  tell apart; `SameSlot`, `SamePassEnv` — the same of all answers of one visit, one iteration;
* `parseMessage_alike`, …, `iteration_alike` — function by function;
* `log_secret` — two runs with the same lines.
-/

namespace FcsServer

open LittleEndian Utils RequestGrammar VerifierProtocol

namespace Logging

/-- The line of an event. -/
def lineOf : Event → Option (LogLevel × String)
  | .called _ => none
  | .errno _ => none
  | .logged level message => some (level, message)

/-- The console shows lines and nothing else. -/
theorem printed_eq (currentLogLevel : LogLevel) (events : List Event) :
    printed currentLogLevel events = (events.filterMap lineOf).flatMap fun line =>
      (Logger.log currentLogLevel line.2 line.1).calls := by
  induction events with
  | nil => rfl
  | cons event events ih =>
    rw [printed] at ih ⊢
    cases event with
    | called c => exact ih
    | errno e => exact ih
    | logged level message =>
      rw [List.flatMap_cons, ih]
      rfl

/-! ### What is hidden -/

/-- Two messages of which the log shows the same.  A message without a header shows its length. -/
structure SameOutline (m m' : List UInt8) : Prop where
  size : m.length = m'.length
  code : 4 ≤ m.length → codeField m = codeField m'
  length : 4 ≤ m.length → lengthField m = lengthField m'
  teardown : 4 ≤ m.length → HasCode m .sigmaTeardown → m.drop 8 = m'.drop 8

/-- The same parameters but for the contents of the command buffer. -/
def SameAttestation (p p' : FcsAttestation) : Prop :=
  p = { p' with cmdData := p.cmdData } ∧ p.cmdData.length = p'.cmdData.length

/-- Two requests that differ only in what is hidden: the contents of the command buffer, or which
certificate is asked for. -/
inductive SameRequest : ComParas → ComParas → Prop where
  | same (p : ComParas) : SameRequest p p
  | subkey {p p' : FcsAttestation} (h : SameAttestation p p') : SameRequest (.subkey p) (.subkey p')
  | measurement {p p' : FcsAttestation} (h : SameAttestation p p') :
    SameRequest (.measurement p) (.measurement p')
  | certificate {p p' : FcsAttestationCertificate} (h : p = { p' with cRequest := p.cRequest }) :
    SameRequest (.certificate p) (.certificate p')
  | mboxSendCmd {p p' : FcsMboxSendCmd} (h : p = { p' with cmdData := p.cmdData })
    (hlength : p.cmdData.length = p'.cmdData.length) :
    SameRequest (.mboxSendCmd p) (.mboxSendCmd p')

/-- Two replies with the same status and the same sizes. -/
structure SameReply (r r' : IoctlReply) : Prop where
  status : r.status = r'.status
  subkeySize : r.subkeyRspDataSz = r'.subkeyRspDataSz
  measurementSize : r.measurementRspDataSz = r'.measurementRspDataSz
  certificateSize : r.certificateRspDataSz = r'.certificateRspDataSz
  mboxSize : r.mboxRspDataSz = r'.mboxRspDataSz

/-- Two devices that fail together, and whose statuses and sizes do not depend on what is hidden. -/
structure SameDriver (d d' : Driver) : Prop where
  openDevice : d.openDevice = d'.openDevice
  returned : ∀ command status p p', SameRequest p p' →
    ((d.ioctl command ⟨status, p⟩).returned < 0 ↔ (d'.ioctl command ⟨status, p'⟩).returned < 0)
  reply : ∀ command status p p', SameRequest p p' → 0 ≤ (d.ioctl command ⟨status, p⟩).returned →
    SameReply (d.ioctl command ⟨status, p⟩) (d'.ioctl command ⟨status, p'⟩)

/-- Two messages, or none. -/
inductive SameReceived : RecvResult → RecvResult → Prop where
  | failed : SameReceived .failed .failed
  | received {m m' : List UInt8} (h : SameOutline m m') :
    SameReceived (.received m) (.received m')

/-- The answers of one visit. -/
structure SameSlot (e e' : SlotEnv) : Prop where
  accepted : e.accepted = e'.accepted
  received : SameReceived (e.received.within kMaxMessageSizeInBytes)
    (e'.received.within kMaxMessageSizeInBytes)
  driver : SameDriver e.handler.driver e'.handler.driver
  status : e.handler.statusReturnedFromFcs = e'.handler.statusReturnedFromFcs
  sent : e.sent = e'.sent

/-- The answers of one iteration. -/
structure SamePassEnv (e e' : LoopErrno × LoopEnv) : Prop where
  errno : e.1 = e'.1
  numberOfEvents : e.2.numberOfEvents = e'.2.numberOfEvents
  revents : e.2.revents = e'.2.revents
  slot : ∀ i, SameSlot (e.2.slot i) (e'.2.slot i)

/-! ### The filter -/

/-- Two parsed messages of which the log shows the same. -/
structure SameView (vp vp' : VerifierProtocol) : Prop where
  code : vp.incomingHeader.code = vp'.incomingHeader.code
  payload : vp.incomingPayload.length = vp'.incomingPayload.length
  teardown : vp.getCommandCode = CommandCode.sigmaTeardown.value →
    vp.incomingPayload = vp'.incomingPayload
  errorCode : vp.errorCode = vp'.errorCode

/-- Both computations write the same lines. -/
abbrev Alike {α : Type} (r : α → α → Prop) (x y : Logged α) : Prop :=
  Traced.Simulates lineOf lineOf r x y

section Filter

variable {vp vp' : VerifierProtocol}

theorem log_alike (message : String) (level : LogLevel) :
    Alike (fun _ _ => True) (log message level) (log message level) :=
  .call' rfl

theorem logWithErrno_alike (message : String) (e : ℤ) (level : LogLevel) :
    Alike (fun _ _ => True) (logWithErrno message e level) (logWithErrno message e level) :=
  (Traced.Simulates.refl lineOf _).mono fun _ _ _ => trivial

/-- Calls are no lines. -/
theorem call_alike (c c' : Call) : Alike (fun _ _ => True) (call c) (call c') := .call' rfl

theorem SameView.getCommandCode (h : SameView vp vp') :
    vp.getCommandCode = vp'.getCommandCode :=
  congrArg UInt16.toUInt32 h.code

theorem SameView.getPayloadOffset (h : SameView vp vp') :
    vp.getPayloadOffset = vp'.getPayloadOffset := by
  rw [VerifierProtocol.getPayloadOffset, VerifierProtocol.getPayloadOffset, h.getCommandCode]

theorem SameView.withError (h : SameView vp vp') (errorCode : ErrorCode) :
    SameView { vp with errorCode := errorCode } { vp' with errorCode := errorCode } :=
  ⟨h.code, h.payload, h.teardown, rfl⟩

/-- The outcome of a check. -/
def SameOutcome (o o' : Bool × VerifierProtocol) : Prop := o.1 = o'.1 ∧ SameView o.2 o'.2

theorem isPayloadSizeCorrect_alike (h : SameView vp vp') :
    Alike SameOutcome (isPayloadSizeCorrect vp) (isPayloadSizeCorrect vp') := by
  rw [isPayloadSizeCorrect, isPayloadSizeCorrect, h.getCommandCode, h.payload]
  cases payloadSizeMap.lookup vp'.getCommandCode with
  | none => exact .pure' ⟨rfl, h⟩
  | some size =>
    dsimp only
    split
    · exact (log_alike _ _).bind fun _ _ _ => .pure' ⟨rfl, h.withError _⟩
    · exact .pure' ⟨rfl, h⟩

theorem isMagicWordCorrect_alike (h : SameView vp vp') :
    Alike SameOutcome (isMagicWordCorrect vp) (isMagicWordCorrect vp') := by
  rw [isMagicWordCorrect, isMagicWordCorrect, ← h.getCommandCode]
  by_cases hcode : vp.getCommandCode = CommandCode.sigmaTeardown.value
  · have hdecode : Alike Eq (lift (decodeFromLittleEndianBuffer vp.incomingPayload 0))
        (lift (decodeFromLittleEndianBuffer vp'.incomingPayload 0)) := by
      rw [h.teardown hcode]
      exact .refl lineOf _
    rw [if_pos hcode, if_pos hcode]
    refine hdecode.bind ?_
    intro magic _ heq
    cases heq
    split
    · exact (log_alike _ _).bind fun _ _ _ => .pure' ⟨rfl, h.withError _⟩
    · exact .pure' ⟨rfl, h⟩
  · rw [if_neg hcode, if_neg hcode]
    exact .pure' ⟨rfl, h⟩

theorem SameOutline.headerOf_code {m m' : List UInt8} (h : SameOutline m m')
    (hlong : 4 ≤ m.length) : (headerOf m).code = (headerOf m').code := by
  have hcode : ∀ l, (headerOf l).code.toNat = codeField l :=
    fun l => (CommandHeader.fromUint32_fields (wordAt l 0)).code
  rw [← UInt16.toNat_inj, hcode, hcode]
  exact h.code hlong

theorem SameOutline.headerOf_length {m m' : List UInt8} (h : SameOutline m m')
    (hlong : 4 ≤ m.length) : (headerOf m).length = (headerOf m').length := by
  rw [← UInt16.toNat_inj, RequestGrammar.headerOf_length, RequestGrammar.headerOf_length]
  exact h.length hlong

/-- What is known from the header alone. -/
theorem SameOutline.header {m m' : List UInt8} (h : SameOutline m m') (hlong : 4 ≤ m.length) :
    SameView { incomingHeader := headerOf m } { incomingHeader := headerOf m' } :=
  ⟨h.headerOf_code hlong, rfl, fun _ => rfl, rfl⟩

theorem suffixFrom_alike {m m' : List UInt8} (hsize : m.length = m'.length) (offset : ℕ) :
    Traced.EndsAlike (fun p p' => p = m.drop offset ∧ p' = m'.drop offset) (suffixFrom m offset)
      (suffixFrom m' offset) := by
  rw [suffixFrom, suffixFrom, hsize]
  split
  · exact .ok ⟨rfl, rfl⟩
  · exact .error _

/-- The payload of a `SIGMA_TEARDOWN` starts at byte 8. -/
theorem getPayloadOffset_teardown (hcode : vp.getCommandCode = CommandCode.sigmaTeardown.value) :
    vp.getPayloadOffset = 8 := by
  rw [VerifierProtocol.getPayloadOffset, if_pos (Or.inl hcode)]
  rfl

/-- What is known once the payload is taken off. -/
theorem SameOutline.payload {m m' : List UInt8} (h : SameOutline m m') (hlong : 4 ≤ m.length) :
    SameView
      { incomingPayload :=
          m.drop (VerifierProtocol.getPayloadOffset { incomingHeader := headerOf m })
        incomingHeader := headerOf m }
      { incomingPayload :=
          m'.drop (VerifierProtocol.getPayloadOffset { incomingHeader := headerOf m' })
        incomingHeader := headerOf m' } := by
  refine ⟨h.headerOf_code hlong, ?_, ?_, rfl⟩
  · rw [List.length_drop, List.length_drop, h.size, (h.header hlong).getPayloadOffset]
  · intro hcode
    have hoffset : VerifierProtocol.getPayloadOffset { incomingHeader := headerOf m } = 8 :=
      getPayloadOffset_teardown hcode
    dsimp only
    rw [← (h.header hlong).getPayloadOffset, hoffset]
    exact h.teardown hlong (headerOf_code_eq.mp hcode)

theorem parseMessage_alike {m m' : List UInt8} (h : SameOutline m m') :
    Alike SameOutcome (parseMessage {} m) (parseMessage {} m') := by
  rw [parseMessage, parseMessage, h.size]
  by_cases hshort : m'.length < CommandHeader.getRequiredSize
  · have hinitial : SameView {} {} := ⟨rfl, rfl, fun _ => rfl, rfl⟩
    rw [if_pos hshort, if_pos hshort]
    exact (log_alike _ _).bind fun _ _ _ => .pure' ⟨rfl, hinitial.withError _⟩
  · have hlong' := Nat.le_of_not_lt hshort
    have hlong : CommandHeader.getRequiredSize ≤ m.length := h.size ▸ hlong'
    have hheader := h.header hlong
    have hparse : Alike (fun a a' => a = headerOf m ∧ a' = headerOf m')
        (lift (CommandHeader.parse m)) (lift (CommandHeader.parse m')) := by
      rw [CommandHeader.parse_eq hlong, CommandHeader.parse_eq hlong']
      exact .ofExcept' Stop.fault (.ok ⟨rfl, rfl⟩)
    rw [if_neg hshort, if_neg hshort]
    refine hparse.bind ?_
    intro header header' heq
    obtain ⟨rfl, rfl⟩ := heq
    dsimp only
    rw [h.headerOf_length hlong, hheader.getPayloadOffset]
    split
    · exact (log_alike _ _).bind fun _ _ _ => .pure' ⟨rfl, hheader.withError _⟩
    · split
      · exact (log_alike _ _).bind fun _ _ _ => .pure' ⟨rfl, hheader.withError _⟩
      · refine Traced.Simulates.bind (.ofExcept' Stop.fault (suffixFrom_alike h.size _)) ?_
        intro payload payload' heq
        obtain ⟨rfl, rfl⟩ := heq
        have hview := h.payload hlong
        rw [hheader.getPayloadOffset] at hview
        refine (isPayloadSizeCorrect_alike hview).bind ?_
        intro o o' ho
        obtain ⟨hsized, hview⟩ := ho
        rw [hsized]
        split
        · exact .pure' ⟨rfl, hview⟩
        · refine (isMagicWordCorrect_alike hview).bind ?_
          intro o o' ho
          obtain ⟨hchecked, hview⟩ := ho
          rw [hchecked]
          split
          · exact .pure' ⟨rfl, hview⟩
          · exact .pure' ⟨rfl, hview.withError _⟩

/-- Two buffers of one length. -/
def SameLength (b b' : List UInt8) : Prop := b.length = b'.length

/-- A header goes into any buffer that has been made long enough. -/
theorem encode_alike (header header' : CommandHeader) (b b' : List UInt8) :
    Alike SameLength (lift (header.encode (resize CommandHeader.getRequiredSize 0 b)))
      (lift (header'.encode (resize CommandHeader.getRequiredSize 0 b'))) := by
  have hb : ∀ l : List UInt8, (resize CommandHeader.getRequiredSize 0 l).length
      = CommandHeader.getRequiredSize := fun l => length_resize _ _ _
  rw [CommandHeader.encode_eq header (hb b).ge, CommandHeader.encode_eq header' (hb b').ge]
  refine .ofExcept' Stop.fault (.ok ?_)
  rw [SameLength, List.length_append, List.length_append, List.length_drop, List.length_drop,
    hb, hb]
  rfl

mutual

/-- Of a response only the length and the return code are shown. -/
theorem prepareResponseMessage_alike (vp vp' : VerifierProtocol) :
    ∀ (frames : ℕ) (payload payload' b b' : List UInt8) (returnCode : Int32),
      payload.length = payload'.length →
        Alike SameLength (prepareResponseMessage vp frames payload b returnCode)
          (prepareResponseMessage vp' frames payload' b' returnCode)
  | 0, _, _, _, _, _, _ => by
    rw [prepareResponseMessage, prepareResponseMessage]
    exact .ofExcept' Stop.fault (.error Fault.stackExhausted)
  | frames + 1, payload, payload', b, b', returnCode, hlength => by
    rw [prepareResponseMessage, prepareResponseMessage, hlength]
    refine (log_alike _ _).bind ?_
    intro _ _ _
    split
    · exact (log_alike _ _).bind fun _ _ _ =>
        prepareEmptyResponseMessage_alike vp vp' frames b b' _
    · refine (log_alike _ _).bind fun _ _ _ => (encode_alike _ _ b b').bind ?_
      intro response response' hresponse
      split
      · refine (log_alike _ _).bind fun _ _ _ => .pure' ?_
        rw [SameLength, List.length_append, List.length_append, hresponse, hlength]
      · exact .pure' hresponse

theorem prepareEmptyResponseMessage_alike (vp vp' : VerifierProtocol) :
    ∀ (frames : ℕ) (b b' : List UInt8) (returnCode : Int32),
      Alike SameLength (prepareEmptyResponseMessage vp frames b returnCode)
        (prepareEmptyResponseMessage vp' frames b' returnCode)
  | 0, _, _, _ => by
    rw [prepareEmptyResponseMessage, prepareEmptyResponseMessage]
    exact .ofExcept' Stop.fault (.error Fault.stackExhausted)
  | frames + 1, b, b', returnCode => by
    rw [prepareEmptyResponseMessage, prepareEmptyResponseMessage]
    exact prepareResponseMessage_alike vp vp' frames [] [] b b' returnCode rfl

end

end Filter

/-! ### The device -/

section Device

variable {errno : DeviceErrno} {d d' : Driver} {b b' : List UInt8}

/-- The answers of two devices to one request. -/
inductive SameAnswer : Option IoctlReply → Option IoctlReply → Prop where
  | failed : SameAnswer none none
  | replied {reply reply' : IoctlReply} (h : SameReply reply reply') :
    SameAnswer (some reply) (some reply')

/-- The results of two calls. -/
structure SameResult (o o' : FcsCommunication.CallResult) : Prop where
  succeeded : o.1 = o'.1
  payload : o.2.1.length = o'.2.1.length
  status : o.2.2 = o'.2.2

theorem sendIoctl_alike (hd : SameDriver d d') {p p' : ComParas} (hp : SameRequest p p')
    (command : DevCommand) :
    Alike SameAnswer (sendIoctl errno d (FcsCommunication.request p) command)
      (sendIoctl errno d' (FcsCommunication.request p') command) := by
  rw [sendIoctl, sendIoctl]
  dsimp only [FcsCommunication.request]
  have hreturned := hd.returned command (-1) p p' hp
  rw [hd.openDevice]
  refine (call_alike _ _).bind ?_
  intro _ _ _
  split
  · exact (logWithErrno_alike _ _ _).bind fun _ _ _ => .pure' .failed
  · refine (call_alike _ _).bind ?_
    intro _ _ _
    by_cases hfailed : (d.ioctl command ⟨-1, p⟩).returned < 0
    · rw [if_pos hfailed, if_pos (hreturned.mp hfailed)]
      exact (call_alike _ _).bind fun _ _ _ =>
        (logWithErrno_alike _ _ _).bind fun _ _ _ => .pure' .failed
    · have hreply := hd.reply command (-1) p p' hp (not_lt.mp hfailed)
      rw [if_neg hfailed, if_neg (mt hreturned.mpr hfailed), hreply.status]
      exact (call_alike _ _).bind fun _ _ _ =>
        (log_alike _ _).bind fun _ _ _ => .pure' (.replied hreply)

theorem exchange_alike (hd : SameDriver d d') {received : ℕ → Logged Unit} (command : DevCommand)
    (maxSz : ℕ) {comParas comParas' : List UInt8 → ComParas}
    (hp : ∀ b, SameRequest (comParas b) (comParas' b)) {rspDataSz : IoctlReply → ℕ}
    (hsize : ∀ r r', SameReply r r' → rspDataSz r = rspDataSz r') (fcsStatus : Int32) :
    Alike SameResult
      (exchange errno d received command maxSz comParas rspDataSz [] fcsStatus)
      (exchange errno d' received command maxSz comParas' rspDataSz [] fcsStatus) := by
  rw [exchange, exchange]
  refine (sendIoctl_alike hd (hp _) command).bind ?_
  intro answer answer' hanswer
  cases hanswer with
  | failed => exact .pure' ⟨rfl, rfl, rfl⟩
  | @replied reply reply' hreply =>
    dsimp only
    rw [hsize reply reply' hreply]
    split
    · refine .pure' ⟨rfl, ?_, rfl⟩
      dsimp only
      rw [length_overwrite, length_overwrite]
    · refine (Traced.Simulates.refl lineOf _).bind ?_
      intro _ _ _
      refine .pure' ⟨rfl, ?_, hreply.status⟩
      dsimp only
      rw [length_resize, length_resize]

theorem sameAttestation {m m' : List UInt8} (h : m.length = m'.length) (b : List UInt8) :
    SameAttestation (FcsCommunication.attestationParas m b)
      (FcsCommunication.attestationParas m' b) := by
  refine ⟨?_, h⟩
  rw [FcsCommunication.attestationParas, FcsCommunication.attestationParas, h]

theorem getCertificateRequest_alike {vp vp' : VerifierProtocol} (h : SameView vp vp') :
    Traced.EndsAlike (fun _ _ => True) vp.getCertificateRequest vp'.getCertificateRequest := by
  rw [getCertificateRequest, getCertificateRequest, h.getCommandCode, h.payload,
    lookup_getAttestationCertificate, Option.getD_some]
  split
  · exact .error _
  · split
    · exact .error _
    · have hlong' : 0 + 4 ≤ vp'.incomingPayload.length := by omega
      have hlong : 0 + 4 ≤ vp.incomingPayload.length := h.payload ▸ hlong'
      rw [decodeFromLittleEndianBuffer_eq (o := 0) rfl hlong (by decide),
        decodeFromLittleEndianBuffer_eq (o := 0) rfl hlong' (by decide)]
      exact .ok trivial

/-- A word goes into eight bytes, whatever it is. -/
theorem encodeWord_alike (v v' : UInt32) {b b' : List UInt8} (hb : b.length = 8)
    (hb' : b'.length = 8) {offset : UInt64} {o : ℕ} (ho : offset.toNat = o) (hfits : o + 4 ≤ 8) :
    Alike (fun c c' => c.length = 8 ∧ c'.length = 8) (lift (encodeToLittleEndianBuffer v b offset))
      (lift (encodeToLittleEndianBuffer v' b' offset)) := by
  have hin : o + 4 ≤ b.length := hb ▸ hfits
  have hin' : o + 4 ≤ b'.length := hb' ▸ hfits
  rw [encodeToLittleEndianBuffer_eq v ho hin (by omega),
    encodeToLittleEndianBuffer_eq v' ho hin' (by omega)]
  refine .ofExcept' Stop.fault (.ok ⟨?_, ?_⟩)
  · rw [length_putWord hin, hb]
  · rw [length_putWord hin', hb']

theorem getChipId_alike (hd : SameDriver d d') (fcsStatus : Int32) :
    Alike SameResult (getChipId errno d [] fcsStatus) (getChipId errno d' [] fcsStatus) := by
  rw [getChipId, getChipId]
  refine (log_alike _ _).bind fun _ _ _ => (sendIoctl_alike hd (.same _) _).bind ?_
  intro answer answer' hanswer
  cases hanswer with
  | failed => exact .pure' ⟨rfl, rfl, rfl⟩
  | replied hreply =>
    have hsize : (resize 8 0 ([] : List UInt8)).length = 8 := length_resize _ _ _
    refine (encodeWord_alike _ _ hsize hsize (o := 0) rfl (by decide)).bind ?_
    intro low low' hlow
    refine (encodeWord_alike _ _ hlow.1 hlow.2 (o := 4) rfl le_rfl).bind ?_
    intro high high' hhigh
    exact .pure' ⟨rfl, hhigh.1.trans hhigh.2.symm, hreply.status⟩

theorem sigmaTeardown_alike (hd : SameDriver d d') (sessionId : UInt32) (fcsStatus : Int32) :
    Alike Eq (sigmaTeardown errno d sessionId fcsStatus)
      (sigmaTeardown errno d' sessionId fcsStatus) := by
  rw [sigmaTeardown, sigmaTeardown]
  refine (log_alike _ _).bind fun _ _ _ => (sendIoctl_alike hd (.same _) _).bind ?_
  intro answer answer' hanswer
  cases hanswer with
  | failed => exact .pure' rfl
  | replied hreply => exact .pure' (Prod.ext rfl hreply.status)

theorem mailboxGeneric_alike (hd : SameDriver d d') (commandCode : UInt32) {m m' : List UInt8}
    (hm : m.length = m'.length) (fcsStatus : Int32) :
    Alike SameResult (mailboxGeneric errno d commandCode m [] fcsStatus)
      (mailboxGeneric errno d' commandCode m' [] fcsStatus) := by
  rw [mailboxGeneric, mailboxGeneric]
  refine (log_alike _ _).bind fun _ _ _ => exchange_alike hd _ _ ?_ ?_ fcsStatus
  · intro b
    refine .mboxSendCmd ?_ hm
    rw [FcsCommunication.mboxParas, FcsCommunication.mboxParas, hm]
  · intro r r' hr
    rw [hr.mboxSize]

/-- **The commands**: what they log depends on nothing that is hidden. -/
theorem callFcs_alike {env env' : MessageHandler.Env} (hd : SameDriver env.driver env'.driver)
    (hstatus : env.statusReturnedFromFcs = env'.statusReturnedFromFcs) {vp vp' : VerifierProtocol}
    (h : SameView vp vp') {command : CommandCode} (hcode : vp.getCommandCode = command.value) :
    Alike SameResult (callFcs errno env vp [] command) (callFcs errno env' vp' [] command) := by
  have hmailbox : Alike SameResult
      (mailboxGeneric errno env.driver vp.getCommandCode vp.incomingPayload []
        env.statusReturnedFromFcs)
      (mailboxGeneric errno env'.driver vp'.getCommandCode vp'.incomingPayload []
        env'.statusReturnedFromFcs) := by
    rw [h.getCommandCode, hstatus]
    exact mailboxGeneric_alike hd _ h.payload _
  cases command with
  | getChipId =>
    rw [callFcs, callFcs, hstatus]
    exact getChipId_alike hd _
  | sigmaTeardown =>
    have hsession : vp.getSigmaTeardownSessionId = vp'.getSigmaTeardownSessionId := by
      rw [getSigmaTeardownSessionId, getSigmaTeardownSessionId, h.getCommandCode, h.teardown hcode]
    rw [callFcs, callFcs, hstatus, hsession]
    refine (Traced.Simulates.refl lineOf _).bind ?_
    intro sessionId _ heq
    cases heq
    refine (sigmaTeardown_alike hd sessionId _).bind ?_
    intro outcome _ heq
    cases heq
    exact .pure' ⟨rfl, rfl, rfl⟩
  | createAttestationSubKey =>
    rw [callFcs, callFcs, hstatus, createAttestationSubkey, createAttestationSubkey]
    refine (log_alike _ _).bind fun _ _ _ => exchange_alike hd _ _ ?_ ?_ _
    · exact fun b => .subkey (sameAttestation h.payload b)
    · intro r r' hr
      rw [hr.subkeySize]
  | getMeasurement =>
    rw [callFcs, callFcs, hstatus, getMeasurement, getMeasurement]
    refine (log_alike _ _).bind fun _ _ _ => exchange_alike hd _ _ ?_ ?_ _
    · exact fun b => .measurement (sameAttestation h.payload b)
    · intro r r' hr
      rw [hr.measurementSize]
  | getAttestationCertificate =>
    rw [callFcs, callFcs, hstatus]
    refine Traced.Simulates.bind (.ofExcept' Stop.fault (getCertificateRequest_alike h)) ?_
    intro request request' _
    rw [getAttestationCertificate, getAttestationCertificate]
    refine (log_alike _ _).bind fun _ _ _ => exchange_alike hd _ _ ?_ ?_ _
    · exact fun b => .certificate rfl
    · intro r r' hr
      rw [hr.certificateSize]
  | mctp => exact hmailbox
  | getIdCode => exact hmailbox
  | getDeviceIdentity => exact hmailbox

/-- **The callback.**  Of the response the length is known. -/
theorem handle_alike {env env' : MessageHandler.Env} (hd : SameDriver env.driver env'.driver)
    (hstatus : env.statusReturnedFromFcs = env'.statusReturnedFromFcs) {m m' : List UInt8}
    (hm : SameOutline m m') :
    Alike SameLength (handleIncomingMessage errno env m [])
      (handleIncomingMessage errno env' m' []) := by
  rw [handleIncomingMessage, handleIncomingMessage]
  refine (parseMessage_alike hm).bind ?_
  intro o o' ho
  obtain ⟨haccepted, hview⟩ := ho
  dsimp only
  rw [haccepted, hview.errorCode]
  split
  · exact (log_alike _ _).bind fun _ _ _ => prepareResponseMessage_alike _ _ _ _ _ _ _ _ rfl
  · rw [← hview.getCommandCode]
    cases hcode : CommandCode.ofValue o.2.getCommandCode with
    | none => exact (log_alike _ _).bind fun _ _ _ => prepareEmptyResponseMessage_alike ..
    | some command =>
      refine (callFcs_alike hd hstatus hview (CommandCode.ofValue_eq_some.mp hcode)).bind ?_
      intro result result' hresult
      rw [hresult.succeeded, hresult.status]
      split
      · exact (log_alike _ _).bind fun _ _ _ => prepareEmptyResponseMessage_alike ..
      · split
        · exact .pure' rfl
        · exact prepareResponseMessage_alike _ _ _ _ _ _ _ _ hresult.payload

end Device

/-! ### The server -/

section Server

open TcpServer

variable {server server' : TcpServer}

theorem close_alike (h : SamePass server server') (i : Slot) :
    Alike SamePass (closeConnectionAndEnableForReuse server i)
      (closeConnectionAndEnableForReuse server' i) := by
  rw [closeConnectionAndEnableForReuse, closeConnectionAndEnableForReuse, h.fd i]
  exact (log_alike _ _).bind fun _ _ _ => (call_alike _ _).bind fun _ _ _ => .pure' (h.setFd i (-1))

theorem acceptConnection_alike (h : SamePass server server') (errno : SlotErrno) {e e' : SlotEnv}
    (he : e.accepted = e'.accepted) :
    Alike SamePass (acceptConnection errno e server) (acceptConnection errno e' server') := by
  rw [acceptConnection, acceptConnection, h.freeSlot, he]
  cases server'.freeSlot with
  | none => exact .pure' h
  | some j =>
    refine (call_alike _ _).bind fun _ _ _ => (Traced.Simulates.refl lineOf _).bind ?_
    intro _ _ _
    exact (log_alike _ _).bind fun _ _ _ => .pure' (h.setFd j e'.accepted)

/-- One visit: the messages and the responses differ, their lengths do not. -/
theorem handleEventIfAny_alike (h : SamePass server server') (errno : SlotErrno) {e e' : SlotEnv}
    (he : SameSlot e e') (i : Slot) :
    Alike SamePass (handleEventIfAny handleIncomingMessage errno e server i)
      (handleEventIfAny handleIncomingMessage errno e' server' i) := by
  rw [handleEventIfAny, handleEventIfAny]
  dsimp only
  rw [h.fd i, h.revents i, h.listener]
  split
  · exact acceptConnection_alike h errno he.accepted
  · split
    · have hsize : ∀ s : TcpServer, (s.setBuffer
          (resize kMaxMessageSizeInBytes 0 s.messageBuffer)).messageBuffer.length
          = kMaxMessageSizeInBytes := fun s => length_resize _ _ _
      rw [hsize, hsize]
      refine (call_alike _ _).bind ?_
      intro _ _ _
      have hreceived := he.received
      generalize hresult : e.received.within kMaxMessageSizeInBytes = result at hreceived ⊢
      generalize hresult' : e'.received.within kMaxMessageSizeInBytes = result' at hreceived ⊢
      cases hreceived with
      | failed =>
        exact (logWithErrno_alike _ _ _).bind fun _ _ _ => close_alike (h.setBuffer _ _) i
      | @received m m' hm =>
        dsimp only
        by_cases hempty : m'.length = 0
        · rw [if_pos (hm.size.trans hempty), if_pos hempty]
          exact close_alike (h.setBuffer _ _) i
        · have hmessage : ∀ (s : TcpServer) {result : RecvResult} {bytes : List UInt8},
              result.within kMaxMessageSizeInBytes = .received bytes →
                resize bytes.length 0 (overwrite bytes (s.setBuffer
                  (resize kMaxMessageSizeInBytes 0 s.messageBuffer)).messageBuffer) = bytes :=
            fun s _ _ hbytes => resize_overwrite ((within_length_le hbytes).trans_eq (hsize s).symm)
          have hempty' : ¬ m.length = 0 := hm.size ▸ hempty
          rw [if_neg hempty, if_neg hempty', hmessage server hresult, hmessage server' hresult']
          refine (log_alike _ _).bind fun _ _ _ => (handle_alike he.driver he.status hm).bind ?_
          intro response response' hresponse
          have hlength : response.length = response'.length := hresponse
          rw [hlength, he.sent]
          refine (call_alike _ _).bind ?_
          intro _ _ _
          split
          · refine (log_alike _ _).bind fun _ _ _ => (call_alike _ _).bind ?_
            intro _ _ _
            cases e'.sent with
            | accepted n => exact .pure' ((h.setBuffer _ _).setBuffer _ _)
            | failed =>
              exact (logWithErrno_alike _ _ _).bind fun _ _ _ =>
                .pure' ((h.setBuffer _ _).setBuffer _ _)
            | brokenPipe => exact .stop' Stop.sigpipe
          · exact (log_alike _ _).bind fun _ _ _ =>
              close_alike ((h.setBuffer _ _).setBuffer _ _) i
    · split
      · exact close_alike h i
      · exact .pure' h

theorem visit_alike (h : SamePass server server') (errno : Slot → SlotErrno)
    {env env' : Slot → SlotEnv} (he : ∀ i, SameSlot (env i) (env' i)) (i : Slot) :
    Alike SamePass (visit handleIncomingMessage errno env server i)
      (visit handleIncomingMessage errno env' server' i) := by
  rw [visit, visit, h.fd i]
  split
  · exact handleEventIfAny_alike h (errno i) (he i) i
  · exact .pure' h

theorem dropIfUsed_alike (h : SamePass server server') (i : Slot) :
    Alike SamePass (dropIfUsed server i) (dropIfUsed server' i) := by
  rw [dropIfUsed, dropIfUsed, h.fd i]
  split
  · exact (log_alike _ _).bind fun _ _ _ => close_alike h i
  · exact .pure' h

theorem iteration_alike (h : SameTable server server') {e e' : LoopErrno × LoopEnv}
    (he : SamePassEnv e e') :
    Alike SameTable (iteration handleIncomingMessage server e)
      (iteration handleIncomingMessage server' e') := by
  have hpolled := h.polled e'.2.revents
  rw [iteration, iteration]
  rw [he.errno, he.revents, he.numberOfEvents]
  refine (call_alike _ _).bind ?_
  intro _ _ _
  split
  · exact (logWithErrno_alike _ _ _).bind fun _ _ _ => .stop' (Stop.exit 1)
  · split
    · refine (Traced.Simulates.foldlM clientSlots ?_ hpolled).mono fun _ _ => SamePass.toSameTable
      exact fun i s s' hs => dropIfUsed_alike hs i
    · refine (Traced.Simulates.foldlM _ ?_ hpolled).mono fun _ _ => SamePass.toSameTable
      exact fun i s s' hs => visit_alike hs _ he.slot i

/-- **The log keeps the payloads secret.**  Two runs whose environments differ only in what is
hidden leave the same on the console, at every log level, and end alike. -/
theorem log_secret (portNumber : UInt32) (setupErrno : SetupErrno) (setupEnv : SetupEnv)
    (envs envs' : List (LoopErrno × LoopEnv)) (h : List.Forall₂ SamePassEnv envs envs') :
    (∀ currentLogLevel,
      printed currentLogLevel
          (run handleIncomingMessage portNumber setupErrno setupEnv envs).calls
        = printed currentLogLevel
          (run handleIncomingMessage portNumber setupErrno setupEnv envs').calls) ∧
      Traced.EndsAlike SameTable
        (run handleIncomingMessage portNumber setupErrno setupEnv envs).result
        (run handleIncomingMessage portNumber setupErrno setupEnv envs').result := by
  have hrun : Alike SameTable (run handleIncomingMessage portNumber setupErrno setupEnv envs)
      (run handleIncomingMessage portNumber setupErrno setupEnv envs') := by
    refine (Traced.Simulates.refl lineOf _).bind ?_
    intro server _ heq
    cases heq
    refine (log_alike _ _).bind fun _ _ _ => Traced.Simulates.foldlM₂ h ?_ ⟨fun _ => rfl, rfl, rfl⟩
    exact fun e e' he s s' hs => iteration_alike hs he
  refine ⟨?_, hrun.result⟩
  intro currentLogLevel
  rw [printed_eq, printed_eq, hrun.calls]

/-- A client connects and sends one word over `MCTP`; the device answers with one word. -/
def oneWord (sent answered : List UInt8) : List (LoopErrno × LoopEnv) :=
  let errno : LoopErrno := ⟨0, fun _ => ⟨0, 0, ⟨0, 0⟩, 0⟩⟩
  [(errno, connects 4),
    (errno, only firstClient pollIn
      { accepted := -1
        received := .received ([0x94, 0x11, 0, 0] ++ sent)
        handler := ⟨⟨5, fun _ _ => ⟨0, 0, ⟨0, 0⟩, 0, 0, 0, 4, answered⟩⟩, 0⟩
        sent := .accepted 8 })]

theorem oneWord_same :
    List.Forall₂ SamePassEnv (oneWord [1, 2, 3, 4] [5, 6, 7, 8])
      (oneWord [0xa, 0xb, 0xc, 0xd] [0, 0, 0, 0]) := by
  refine .cons ⟨rfl, rfl, rfl, fun _ => ?_⟩ (.cons ⟨rfl, rfl, rfl, fun _ => ?_⟩ .nil)
  · exact ⟨rfl, .failed, ⟨rfl, fun _ _ _ _ _ => Iff.rfl, fun _ _ _ _ _ _ =>
      ⟨rfl, rfl, rfl, rfl, rfl⟩⟩, rfl, rfl⟩
  · refine ⟨rfl, .received ⟨rfl, fun _ => by decide +kernel, fun _ => by decide +kernel, ?_⟩,
      ⟨rfl, fun _ _ _ _ _ => Iff.rfl, fun _ _ _ _ _ _ => ⟨rfl, rfl, rfl, rfl, rfl⟩⟩, rfl, rfl⟩
    intro _ hteardown
    exact absurd hteardown (by decide +kernel)

theorem log_secret_oneWord :
    (∀ currentLogLevel,
      printed currentLogLevel (run handleIncomingMessage 50001 ⟨0, 0, 0, 0⟩ ⟨3, 0, 0⟩
          (oneWord [1, 2, 3, 4] [5, 6, 7, 8])).calls
        = printed currentLogLevel (run handleIncomingMessage 50001 ⟨0, 0, 0, 0⟩ ⟨3, 0, 0⟩
          (oneWord [0xa, 0xb, 0xc, 0xd] [0, 0, 0, 0])).calls) ∧
      Traced.EndsAlike SameTable
        (run handleIncomingMessage 50001 ⟨0, 0, 0, 0⟩ ⟨3, 0, 0⟩
          (oneWord [1, 2, 3, 4] [5, 6, 7, 8])).result
        (run handleIncomingMessage 50001 ⟨0, 0, 0, 0⟩ ⟨3, 0, 0⟩
          (oneWord [0xa, 0xb, 0xc, 0xd] [0, 0, 0, 0])).result :=
  log_secret 50001 ⟨0, 0, 0, 0⟩ ⟨3, 0, 0⟩ _ _ oneWord_same

end Server

end Logging

end FcsServer
