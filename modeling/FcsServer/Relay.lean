import FcsServer.ResponseFraming

/-!
# The callback is a relay

What a message asks for reaches the driver unchanged, and what the driver answers reaches the
client unchanged.

* `Carries` — the parameters of a driver call are the bytes of the message;
* `Delivers` — the payload of a response is the bytes of the reply;
* `comParas_carries` / `rspPayload_delivers` — the marshalling on the way in and on the way out;
* `handleIncomingMessage_relays` — at most one attempt at the device, exactly for accepted
  messages with a known code, and both of the above.
-/

namespace FcsServer

open LittleEndian BitFields RequestGrammar MessageHandler ResponseFraming

namespace Relay

/-- The bytes of `m` from `start` on, with a size that counts them, and a response buffer of
the capacity that is announced for it. -/
structure CarriesBytes (m : List UInt8) (start maxSz : ℕ) (cmdData : List UInt8)
    (cmdDataSz : ℕ) (rspData : List UInt8) (rspDataSz : ℕ) : Prop where
  cmdData : cmdData = m.drop start
  cmdDataSz : cmdDataSz = m.length - start
  rspData : rspData.length = maxSz
  rspDataSz : rspDataSz = maxSz

def CarriesAttestation (m : List UInt8) (maxSz : ℕ) (p : FcsAttestation) : Prop :=
  CarriesBytes m 8 maxSz p.cmdData p.cmdDataSz.toNat p.rspData p.rspDataSz.toNat

def CarriesMailbox (m : List UInt8) (p : FcsMboxSendCmd) : Prop :=
  p.mboxCmd.toNat = codeField m ∧
    CarriesBytes m 4 mboxSendRspMaxSz p.cmdData p.cmdDataSz.toNat p.rspData p.rspDataSz.toNat

/-- The parameters `p` of a call are what the message `m` says for command `c`. -/
def Carries (m : List UInt8) : CommandCode → ComParas → Prop
  | .getChipId, .cId _ => True
  | .sigmaTeardown, .tdown p => p.teardown = true ∧ p.sid = wordAt m 12
  | .createAttestationSubKey, .subkey p => CarriesAttestation m attestationSubkeyRspMaxSz p
  | .getMeasurement, .measurement p => CarriesAttestation m attestationMeasurementRspMaxSz p
  | .getAttestationCertificate, .certificate p =>
    p.cRequest.toInt = (m.getD 4 0).toNat ∧ p.rspData.length = attestationCertificateRspMaxSz ∧
      p.rspDataSz.toNat = attestationCertificateRspMaxSz
  | .mctp, .mboxSendCmd p => CarriesMailbox m p
  | .getIdCode, .mboxSendCmd p => CarriesMailbox m p
  | .getDeviceIdentity, .mboxSendCmd p => CarriesMailbox m p
  | _, _ => False

/-- The bytes that a reply answers command `c` with: the two words of the chip id, nothing for a
teardown, and otherwise as many bytes of the response memory as the reply reports.  The memory
past the bytes written is zero. -/
def Delivers (r : IoctlReply) : CommandCode → List UInt8 → Prop
  | .getChipId, bytes => bytes = wordBytes r.cId.chipIdLow ++ wordBytes r.cId.chipIdHigh
  | .sigmaTeardown, bytes => bytes = []
  | c, bytes => bytes = (r.rspBytes ++ List.replicate (rspMaxSz c) 0).take (rspDataSz r c)

variable {env : Env} {m : List UInt8} {c : CommandCode}

/-! ### On the way in -/

/-- Eleven bits of words: every size fits the 16 bits of the mailbox command. -/
theorem length_accepted (h : Accepted m) : m.length ≤ 2 ^ 13 := by
  have hlt := field_lt (wordAt m 0) 12 11
  have hlen := h.framed.2
  rw [lengthField] at hlen
  omega

theorem attestationOf_carries (c : CommandCode) (h : Accepted m) :
    CarriesAttestation m (rspMaxSz c) (attestationOf m c) := by
  have hlen := length_accepted h
  have hmax := rspMaxSz_le c
  refine ⟨rfl, ?_, List.length_replicate, ?_⟩
  · exact UInt32.toNat_ofNat_of_lt' (by show _ < 2 ^ 32; omega)
  · exact UInt32.toNat_ofNat_of_lt' (by show _ < 2 ^ 32; omega)

theorem mailboxOf_carries (h : Accepted m) (hc : HasCode m c)
    (hsz : rspMaxSz c = mboxSendRspMaxSz) : CarriesMailbox m (mailboxOf m c) := by
  have hlen := length_accepted h
  refine ⟨hc.symm, rfl, ?_, ?_, ?_⟩
  · exact UInt16.toNat_ofNat_of_lt' (by show _ < 2 ^ 16; omega)
  · exact List.length_replicate.trans hsz
  · show (UInt16.ofNat (rspMaxSz c)).toNat = _
    rw [hsz]
    exact UInt16.toNat_ofNat_of_lt' (by decide)

theorem comParas_carries (h : Accepted m) (hc : HasCode m c) : Carries m c (comParas m c) := by
  cases c with
  | getChipId => trivial
  | sigmaTeardown => exact ⟨rfl, rfl⟩
  | createAttestationSubKey => exact attestationOf_carries .createAttestationSubKey h
  | getMeasurement => exact attestationOf_carries .getMeasurement h
  | getAttestationCertificate =>
    have hbyte := (m.getD 4 0).toNat_lt
    refine ⟨?_, List.length_replicate, UInt32.toNat_ofNat_of_lt' (by decide)⟩
    show (Int32.ofNat (m.getD 4 0).toNat).toInt = _
    rw [Int32.toInt_ofNat_of_lt]
    omega
  | mctp => exact mailboxOf_carries h hc rfl
  | getIdCode => exact mailboxOf_carries h hc rfl
  | getDeviceIdentity => exact mailboxOf_carries h hc rfl

/-! ### On the way out -/

/-- Cutting the overwritten buffer is cutting what was written, extended with zeros. -/
theorem responseBytes_eq_take {maxSz size : ℕ} (r : IoctlReply) (h : size ≤ maxSz) :
    FcsCommunication.responseBytes maxSz size r
      = (r.rspBytes ++ List.replicate maxSz 0).take size := by
  rw [FcsCommunication.responseBytes, overwrite, List.length_replicate, List.drop_replicate]
  apply List.ext_getElem?
  intro i
  by_cases hi : i < size
  · rw [List.getElem?_take_of_lt hi, List.getElem?_take_of_lt hi]
    by_cases hb : i < r.rspBytes.length
    · rw [List.getElem?_append_left (by rw [List.length_take]; omega),
        List.getElem?_append_left hb, List.getElem?_take_of_lt (by omega)]
    · rw [List.getElem?_append_right (by rw [List.length_take]; omega),
        List.getElem?_append_right (by omega), List.length_take, List.getElem?_replicate_of_lt,
        List.getElem?_replicate_of_lt] <;> omega
  · rw [List.getElem?_take_eq_none (by omega), List.getElem?_take_eq_none (by omega)]

theorem rspPayload_delivers {r : IoctlReply} (h : rspDataSz r c ≤ rspMaxSz c) :
    Delivers r c (rspPayload r c) := by
  cases c
  case getChipId => rfl
  case sigmaTeardown => rfl
  all_goals exact responseBytes_eq_take r h

/-! ### The relay -/

/-- The parser accepts a known command exactly when the grammar does. -/
theorem parseMessage_known : (∃ vp c, ({} : VerifierProtocol).parseMessage m = .ok (true, vp) ∧
    vp.getCommandCode = CommandCode.value c) ↔ ∃ c, Accepted m ∧ HasCode m c := by
  rw [parseMessage_eq]
  constructor
  · intro hknown
    obtain ⟨vp, c, hparse, hcode⟩ := hknown
    have hout := Except.ok.inj hparse
    have ha : Accepted m := by
      rw [← parseOutcome_fst {}, hout]
    rw [parseOutcome_parsed ha] at hout
    rw [← (Prod.mk.inj hout).2] at hcode
    exact ⟨c, ha, headerOf_code_eq.mp hcode⟩
  · intro hknown
    obtain ⟨c, ha, hc⟩ := hknown
    exact ⟨parsed m, c, congrArg _ (parseOutcome_parsed ha), getCommandCode_parsed hc⟩

theorem callsFor_of_known (ha : Accepted m) (hc : HasCode m c) :
    callsFor env m = FcsCommunication.deviceCalls env.driver (devCommand c)
      (FcsCommunication.submitted (comParas m c)) := by
  rw [callsFor, commandOf_eq_some.mpr ⟨ha, hc⟩]

theorem callsFor_eq_nil (h : ¬ ∃ c, Accepted m ∧ HasCode m c) : callsFor env m = [] := by
  rw [callsFor]
  cases hcmd : commandOf m with
  | none => rfl
  | some c => exact absurd ⟨c, commandOf_eq_some.mp hcmd⟩ h

/-- A device that serves the request. -/
def DeviceServes (driver : Driver) (c : CommandCode) (request : IntelFcsDevIoctl) : Prop :=
  0 ≤ driver.openDevice ∧ 0 ≤ (driver.ioctl (devCommand c) request).returned ∧
    rspDataSz (driver.ioctl (devCommand c) request) c ≤ rspMaxSz c

theorem fcsReply_of_serves {driver : Driver}
    (h : DeviceServes driver c (FcsCommunication.submitted (comParas m c))) :
    fcsReply driver m c
      = some (driver.ioctl (devCommand c) (FcsCommunication.submitted (comParas m c))) := by
  obtain ⟨hopen, hioctl, hsize⟩ := h
  rw [fcsReply, FcsCommunication.deviceReply,
    if_neg (not_or.mpr ⟨not_lt.mpr hopen, not_lt.mpr hioctl⟩), Option.filter_some,
    if_pos (decide_eq_true hsize)]

/-- **The callback is a faithful relay.**  It tries the device exactly for accepted messages
with a known code, once, with the parameters of the message.  When the device serves the
request with a payload of whole words, the response is the header of the message, with the
number of words and the low eleven bits of the status, over the bytes of the reply. -/
theorem handleIncomingMessage_relays (env : Env) (m : List UInt8) :
    ∃ calls r, handleIncomingMessage env m [] = ⟨calls, .ok r⟩ ∧
      (calls ≠ [] ↔ ∃ vp c, ({} : VerifierProtocol).parseMessage m = .ok (true, vp) ∧
        vp.getCommandCode = CommandCode.value c) ∧
      ∀ c, Accepted m → HasCode m c → ∃ p, Carries m c p ∧
        calls = FcsCommunication.deviceCalls env.driver (devCommand c) ⟨-1, p⟩ ∧
        (DeviceServes env.driver c ⟨-1, p⟩ →
          let reply := env.driver.ioctl (devCommand c) ⟨-1, p⟩
          rspDataSz reply c % 4 = 0 → ¬ (c = .getAttestationCertificate ∧ reply.status = -1) →
          Answers m r ∧ lengthField r = rspDataSz reply c / 4 ∧
            (codeField r : ℤ) = reply.status.toInt % 2 ^ 11 ∧ Delivers reply c (r.drop 4)) := by
  refine ⟨callsFor env m, responseFor env m [], handleIncomingMessage_eq env m [], ?_, ?_⟩
  · rw [parseMessage_known]
    constructor
    · intro hne
      by_contra hunknown
      exact hne (callsFor_eq_nil hunknown)
    · intro hknown
      obtain ⟨c, ha, hc⟩ := hknown
      rw [callsFor_of_known ha hc, FcsCommunication.deviceCalls]
      split
      · exact List.cons_ne_nil _ _
      · exact List.cons_ne_nil _ _
  · intro c ha hc
    refine ⟨comParas m c, comParas_carries ha hc, callsFor_of_known ha hc, ?_⟩
    intro hserves reply hw hcert
    have hreply : fcsReply env.driver m c = some reply := fcsReply_of_serves hserves
    have hlen : (rspPayload reply c).length = rspDataSz reply c :=
      length_rspPayload hserves.2.2
    have hle : rspDataSz reply c ≤ 4096 := hserves.2.2.trans (rspMaxSz_le c)
    have htrue : CallReturnsTrue env m c (rspPayload reply c) reply.status :=
      (callReturnsTrue_iff ha hc).mpr ⟨reply, hreply, rfl, rfl⟩
    rw [responseFor_of_true [] ha hc htrue, if_neg hcert, if_pos (by omega)]
    refine ⟨frame_answers m _ (by omega) (by omega), ?_, codeField_frame _ _ _, ?_⟩
    · rw [lengthField_frame (by omega), hlen]
    · rw [drop_frame]
      exact rspPayload_delivers hserves.2.2

end Relay

end FcsServer
