import FcsServer.CallOutcome
import FcsServer.ReservedBits

/-!
# Requests, as a client means them

What a client can ask for, as a type of its own, and the message that asks for it.  Every message
that is relayed is the message of one request, up to its reserved bits.

* `Request` / `Tag` — what is asked, and on whose behalf; `encode` — the message;
* `decode` — the request of a message; `decode_encode` — reading back what was written;
* `decode_eq_iff` — messages of one request differ in reserved bits only;
* `relayed_iff_encoding` — the messages that are relayed;
* `driver_sees` — the requests the driver can be made to see, each from one request of a client;
* `handled_alike_iff` — which messages the callback cannot tell apart.
-/

namespace FcsServer

open LittleEndian BitFields RequestGrammar MessageHandler ReservedBits

namespace RequestEncoding

/-- Eleven bits count the words after a header. -/
def maxWords : ℕ := 2 ^ 11 - 1

/-- The bytes of at most `max` words. -/
structure Words (max : ℕ) where
  bytes : List UInt8
  whole : bytes.length % 4 = 0
  fits : bytes.length ≤ 4 * max
  deriving DecidableEq, Repr

/-- What a client can ask for.  A reserved word leaves one word less for the data. -/
inductive Request where
  | getIdCode
  | getChipId
  | sigmaTeardown (sessionId : UInt32)
  | getAttestationCertificate (certificateRequest : UInt8)
  | createAttestationSubKey (data : Words (maxWords - 1))
  | getMeasurement (data : Words (maxWords - 1))
  | mctp (data : Words maxWords)
  | getDeviceIdentity
  deriving DecidableEq, Repr

/-- Who asks: the two fields that come back in the response. -/
structure Tag where
  client : Fin 16
  id : Fin 16
  deriving DecidableEq, Repr

def Words.ofBytes (max : ℕ) (bytes : List UInt8) : Option (Words max) :=
  if h : bytes.length % 4 = 0 ∧ bytes.length ≤ 4 * max then some ⟨bytes, h.1, h.2⟩ else none

theorem Words.ofBytes_bytes {max : ℕ} (data : Words max) :
    Words.ofBytes max data.bytes = some data := by
  rw [Words.ofBytes, dif_pos ⟨data.whole, data.fits⟩]

theorem Words.ofBytes_of_fits {max : ℕ} {bytes : List UInt8} (hwhole : bytes.length % 4 = 0)
    (hfits : bytes.length ≤ 4 * max) : ∃ data, Words.ofBytes max bytes = some data :=
  ⟨_, dif_pos ⟨hwhole, hfits⟩⟩

theorem Words.bytes_of_ofBytes {max : ℕ} {bytes : List UInt8} {data : Words max}
    (h : Words.ofBytes max bytes = some data) : data.bytes = bytes := by
  rw [Words.ofBytes] at h
  split at h
  · cases h
    rfl
  · cases h

theorem Words.bytes_injective {max : ℕ} {data data' : Words max} (h : data.bytes = data'.bytes) :
    data = data' := by
  cases data
  cases data'
  cases h
  rfl

namespace Request

def command : Request → CommandCode
  | getIdCode => .getIdCode
  | getChipId => .getChipId
  | sigmaTeardown _ => .sigmaTeardown
  | getAttestationCertificate _ => .getAttestationCertificate
  | createAttestationSubKey _ => .createAttestationSubKey
  | getMeasurement _ => .getMeasurement
  | mctp _ => .mctp
  | getDeviceIdentity => .getDeviceIdentity

/-- What follows the header. -/
def body : Request → List UInt8
  | getIdCode | getChipId | getDeviceIdentity => []
  | sigmaTeardown sessionId =>
    wordBytes 0 ++ (wordBytes VerifierProtocol.sigmaTeardownMagic ++ wordBytes sessionId)
  | getAttestationCertificate certificateRequest => [certificateRequest, 0, 0, 0]
  | createAttestationSubKey data => wordBytes 0 ++ data.bytes
  | getMeasurement data => wordBytes 0 ++ data.bytes
  | mctp data => data.bytes

/-- The parameters of the two attestation commands, with an empty response buffer. -/
def attestation (c : CommandCode) (data : List UInt8) : FcsAttestation :=
  { resvWord := 0
    cmdData := data
    cmdDataSz := UInt32.ofNat data.length
    rspData := List.replicate (rspMaxSz c) 0
    rspDataSz := UInt32.ofNat (rspMaxSz c) }

/-- The parameters of the three mailbox commands. -/
def mailbox (c : CommandCode) (data : List UInt8) : FcsMboxSendCmd :=
  { mboxCmd := c.value
    urgent := 0
    cmdData := data
    cmdDataSz := UInt16.ofNat data.length
    rspData := List.replicate (rspMaxSz c) 0
    rspDataSz := UInt16.ofNat (rspMaxSz c) }

/-- The parameters of the driver call that the request stands for. -/
def comParas : Request → ComParas
  | getIdCode => .mboxSendCmd (mailbox .getIdCode [])
  | getChipId => .cId ⟨0, 0⟩
  | sigmaTeardown sessionId => .tdown ⟨true, sessionId⟩
  | getAttestationCertificate certificateRequest => .certificate
      { cRequest := Int32.ofNat certificateRequest.toNat
        rspData := List.replicate attestationCertificateRspMaxSz 0
        rspDataSz := UInt32.ofNat attestationCertificateRspMaxSz }
  | createAttestationSubKey data => .subkey (attestation .createAttestationSubKey data.bytes)
  | getMeasurement data => .measurement (attestation .getMeasurement data.bytes)
  | mctp data => .mboxSendCmd (mailbox .mctp data.bytes)
  | getDeviceIdentity => .mboxSendCmd (mailbox .getDeviceIdentity [])

theorem body_words (q : Request) : q.body.length % 4 = 0 ∧ q.body.length ≤ 4 * maxWords := by
  have hword : ∀ w : UInt32, (wordBytes w).length = 4 := length_wordBytes
  have hmax : maxWords = 2047 := rfl
  cases q with
  | createAttestationSubKey data =>
    have hwhole := data.whole
    have hfits := data.fits
    rw [body, List.length_append, hword]
    omega
  | getMeasurement data =>
    have hwhole := data.whole
    have hfits := data.fits
    rw [body, List.length_append, hword]
    omega
  | mctp data => exact ⟨data.whole, data.fits⟩
  | sigmaTeardown sessionId =>
    rw [body, List.length_append, List.length_append, hword, hword, hword]
    decide
  | getAttestationCertificate certificateRequest =>
    show 4 % 4 = 0 ∧ 4 ≤ 4 * maxWords
    decide
  | _ => decide

end Request

/-- The header of the message: the reserved bits are zero. -/
def header (tag : Tag) (q : Request) : CommandHeader :=
  { client := UInt8.ofNat tag.client
    id := UInt8.ofNat tag.id
    length := UInt16.ofNat (q.body.length / 4)
    code := q.command.value.toUInt16 }

/-- The message that asks for `q`. -/
def encode (tag : Tag) (q : Request) : List UInt8 :=
  wordBytes (header tag q).toUint32 ++ q.body

/-- The client and id fields of a message. -/
def tagOf (m : List UInt8) : Tag :=
  ⟨⟨field (wordAt m 0) 28 4, field_lt _ 28 4⟩, ⟨field (wordAt m 0) 24 4, field_lt _ 24 4⟩⟩

/-- What a message with command `c` asks for. -/
def requestOf (m : List UInt8) : CommandCode → Option Request
  | .getIdCode => some .getIdCode
  | .getChipId => some .getChipId
  | .sigmaTeardown => some (.sigmaTeardown (wordAt m 12))
  | .getAttestationCertificate => some (.getAttestationCertificate (m.getD 4 0))
  | .createAttestationSubKey =>
    (Words.ofBytes (maxWords - 1) (m.drop 8)).map .createAttestationSubKey
  | .getMeasurement => (Words.ofBytes (maxWords - 1) (m.drop 8)).map .getMeasurement
  | .mctp => (Words.ofBytes maxWords (m.drop 4)).map .mctp
  | .getDeviceIdentity => some .getDeviceIdentity

/-- The request of a message, if it is relayed at all. -/
def decode (m : List UInt8) : Option (Tag × Request) :=
  (commandOf m).bind fun c => (requestOf m c).map fun q => (tagOf m, q)

variable {m m' : List UInt8} {tag : Tag} {q : Request} {c : CommandCode}

/-! ### Writing a message -/

theorem length_encode (tag : Tag) (q : Request) : (encode tag q).length = 4 + q.body.length := by
  rw [encode, List.length_append, length_wordBytes]

theorem drop_encode : (encode tag q).drop 4 = q.body := by
  rw [encode]
  exact List.drop_left' (length_wordBytes _)

/-- After a reserved word. -/
theorem drop_eight_encode {data : List UInt8} (h : q.body = wordBytes 0 ++ data) :
    (encode tag q).drop 8 = data := by
  rw [show 8 = 4 + 4 from rfl, ← List.drop_drop, drop_encode, h]
  exact List.drop_left' (length_wordBytes 0)

theorem encode_fields (tag : Tag) (q : Request) :
    CommandHeader.FieldsOf (header tag q).reduced (wordAt (encode tag q) 0) := by
  rw [encode, wordAt_wordBytes_append]
  exact CommandHeader.toUint32_fields _

theorem hasCode_encode (tag : Tag) (q : Request) : HasCode (encode tag q) q.command := by
  rw [HasCode, codeField, ← (encode_fields tag q).code]
  show (q.command.value.toUInt16 % 2048).toNat = _
  cases q.command <;> decide +kernel

theorem lengthField_encode : lengthField (encode tag q) = q.body.length / 4 := by
  have hfits := q.body_words.2
  rw [maxWords] at hfits
  rw [lengthField, ← (encode_fields tag q).length]
  show (UInt16.ofNat (q.body.length / 4) % 2048).toNat = _
  rw [UInt16.toNat_mod, UInt16.toNat_ofNat']
  show q.body.length / 4 % 2 ^ 16 % 2 ^ 11 = _
  omega

theorem tagOf_encode (tag : Tag) (q : Request) : tagOf (encode tag q) = tag := by
  have hfour : ∀ n : Fin 16, (UInt8.ofNat n % 16).toNat = n := by
    decide +kernel
  have hclient : field (wordAt (encode tag q) 0) 28 4 = tag.client := by
    rw [← (encode_fields tag q).client]
    exact hfour tag.client
  have hid : field (wordAt (encode tag q) 0) 24 4 = tag.id := by
    rw [← (encode_fields tag q).id]
    exact hfour tag.id
  rw [tagOf]
  exact congrArg₂ Tag.mk (Fin.ext hclient) (Fin.ext hid)

/-- **The message of a request is accepted.** -/
theorem accepted_encode (tag : Tag) (q : Request) : Accepted (encode tag q) := by
  have hbody := q.body_words.1
  have hcode := hasCode_encode tag q
  have hlen := length_encode tag q
  refine ⟨⟨by omega, ?_⟩, ?_, ?_, ?_, ?_⟩
  · rw [lengthField_encode]
    omega
  · intro hc
    have hq := hcode.unique hc
    cases q <;> cases hq
    refine ⟨hlen, ?_⟩
    rw [show (8 : ℕ) = 4 + 4 from rfl, ← wordAt_drop, drop_encode]
    exact (wordAt_append_length (wordBytes 0) _).trans (wordAt_wordBytes_append _ _)
  · intro hc
    have hword := length_wordBytes 0
    rcases hc with hc | hc
    · have hq := hcode.unique hc
      cases q <;> cases hq
      rw [hlen, Request.body, List.length_append]
      omega
    · have hq := hcode.unique hc
      cases q <;> cases hq
      rw [hlen, Request.body, List.length_append]
      omega
  · intro hc
    have hq := hcode.unique hc
    cases q <;> cases hq
    exact hlen
  · intro hc
    rcases hc with hc | hc | hc
    · have hq := hcode.unique hc
      cases q <;> cases hq
      exact hlen
    · have hq := hcode.unique hc
      cases q <;> cases hq
      exact hlen
    · have hq := hcode.unique hc
      cases q <;> cases hq
      exact hlen

theorem commandOf_encode (tag : Tag) (q : Request) :
    commandOf (encode tag q) = some q.command :=
  commandOf_eq_some.mpr ⟨accepted_encode tag q, hasCode_encode tag q⟩

/-! ### Reading a message -/

theorem command_of_requestOf (h : requestOf m c = some q) : q.command = c := by
  cases c
  case createAttestationSubKey =>
    obtain ⟨data, -, rfl⟩ := Option.map_eq_some_iff.mp h
    rfl
  case getMeasurement =>
    obtain ⟨data, -, rfl⟩ := Option.map_eq_some_iff.mp h
    rfl
  case mctp =>
    obtain ⟨data, -, rfl⟩ := Option.map_eq_some_iff.mp h
    rfl
  all_goals
    cases h
    rfl

theorem decode_eq_some : decode m = some (tag, q) ↔
    Accepted m ∧ HasCode m q.command ∧ tagOf m = tag ∧ requestOf m q.command = some q := by
  rw [decode, Option.bind_eq_some_iff]
  constructor
  · intro hdecode
    obtain ⟨c, hc, hmap⟩ := hdecode
    obtain ⟨q', hq', heq⟩ := Option.map_eq_some_iff.mp hmap
    cases heq
    have hcommand := command_of_requestOf hq'
    obtain ⟨ha, hcode⟩ := commandOf_eq_some.mp hc
    rw [hcommand]
    exact ⟨ha, hcode, rfl, hq'⟩
  · intro hasks
    obtain ⟨ha, hcode, rfl, hq⟩ := hasks
    exact ⟨q.command, commandOf_eq_some.mpr ⟨ha, hcode⟩, by rw [hq]; rfl⟩

/-- **A request is read back from its message.** -/
theorem decode_encode (tag : Tag) (q : Request) : decode (encode tag q) = some (tag, q) := by
  rw [decode_eq_some]
  refine ⟨accepted_encode tag q, hasCode_encode tag q, tagOf_encode tag q, ?_⟩
  cases q with
  | getIdCode => rfl
  | getChipId => rfl
  | sigmaTeardown sessionId =>
    have hword : wordAt (encode tag (.sigmaTeardown sessionId)) 12 = sessionId := by
      rw [show 12 = 4 + 8 from rfl, ← wordAt_drop, drop_encode, Request.body, ← List.append_assoc]
      exact (wordAt_append_length (wordBytes 0 ++ wordBytes _) (wordBytes sessionId)).trans
        (List.append_nil (wordBytes sessionId) ▸ wordAt_wordBytes_append sessionId [])
    rw [Request.command, requestOf, hword]
  | getAttestationCertificate certificateRequest =>
    have hbyte : (encode tag (.getAttestationCertificate certificateRequest)).getD 4 0
        = certificateRequest := by
      rw [← toUInt8_wordAt, show 4 = 4 + 0 from rfl, ← wordAt_drop, drop_encode, toUInt8_wordAt]
      rfl
    rw [Request.command, requestOf, hbyte]
  | createAttestationSubKey data =>
    rw [Request.command, requestOf, drop_eight_encode rfl, Words.ofBytes_bytes]
    rfl
  | getMeasurement data =>
    rw [Request.command, requestOf, drop_eight_encode rfl, Words.ofBytes_bytes]
    rfl
  | mctp data =>
    rw [Request.command, requestOf, drop_encode, Request.body, Words.ofBytes_bytes]
    rfl
  | getDeviceIdentity => rfl

/-- **Every relayed message is the message of a request.** -/
theorem decode_of_command (h : commandOf m = some c) :
    ∃ q, decode m = some (tagOf m, q) ∧ q.command = c := by
  obtain ⟨ha, hc⟩ := commandOf_eq_some.mp h
  have hlen := ha.framed.2
  have hlt := field_lt (wordAt m 0) 12 11
  have hmax : maxWords = 2047 := rfl
  rw [lengthField] at hlen
  have hasks : ∃ q, requestOf m c = some q := by
    have hdrop8 : 8 ≤ m.length → ∃ data, Words.ofBytes (maxWords - 1) (m.drop 8) = some data := by
      intro hreserved
      apply Words.ofBytes_of_fits <;> rw [List.length_drop] <;> omega
    have hdrop4 : ∃ data, Words.ofBytes maxWords (m.drop 4) = some data := by
      apply Words.ofBytes_of_fits <;> rw [List.length_drop] <;> omega
    cases c with
    | createAttestationSubKey =>
      obtain ⟨data, hdata⟩ := hdrop8 (ha.reserved (Or.inl hc))
      refine ⟨.createAttestationSubKey data, ?_⟩
      rw [requestOf, hdata]
      rfl
    | getMeasurement =>
      obtain ⟨data, hdata⟩ := hdrop8 (ha.reserved (Or.inr hc))
      refine ⟨.getMeasurement data, ?_⟩
      rw [requestOf, hdata]
      rfl
    | mctp =>
      obtain ⟨data, hdata⟩ := hdrop4
      refine ⟨.mctp data, ?_⟩
      rw [requestOf, hdata]
      rfl
    | _ => exact ⟨_, rfl⟩
  obtain ⟨q, hq⟩ := hasks
  have hcommand := command_of_requestOf hq
  refine ⟨q, decode_eq_some.mpr ⟨ha, ?_, rfl, ?_⟩, hcommand⟩
  · rw [hcommand]
    exact hc
  · rw [hcommand]
    exact hq

theorem decode_eq_none : decode m = none ↔ commandOf m = none := by
  constructor
  · intro h
    cases hc : commandOf m with
    | none => rfl
    | some c =>
      obtain ⟨q, hq, -⟩ := decode_of_command hc
      rw [h] at hq
      cases hq
  · intro h
    rw [decode, h]
    rfl

/-! ### The message and the request -/

section Decoded

variable (h : decode m = some (tag, q))

include h

theorem command_of_decode : commandOf m = some q.command := by
  obtain ⟨ha, hc, -, -⟩ := decode_eq_some.mp h
  exact commandOf_eq_some.mpr ⟨ha, hc⟩

/-- The message is as long as the canonical one. -/
theorem length_of_decode : m.length = (encode tag q).length := by
  obtain ⟨ha, hc, -, hq⟩ := decode_eq_some.mp h
  rw [length_encode]
  cases q with
  | getIdCode => exact ha.bare (Or.inr (Or.inl hc))
  | getChipId => exact ha.bare (Or.inl hc)
  | getDeviceIdentity => exact ha.bare (Or.inr (Or.inr hc))
  | sigmaTeardown sessionId => exact (ha.teardown hc).1
  | getAttestationCertificate certificateRequest => exact ha.certificate hc
  | createAttestationSubKey data =>
    obtain ⟨data', hdata, heq⟩ := Option.map_eq_some_iff.mp hq
    cases heq
    have hlen := ha.reserved (Or.inl hc)
    rw [Request.body, List.length_append, length_wordBytes, Words.bytes_of_ofBytes hdata,
      List.length_drop]
    omega
  | getMeasurement data =>
    obtain ⟨data', hdata, heq⟩ := Option.map_eq_some_iff.mp hq
    cases heq
    have hlen := ha.reserved (Or.inr hc)
    rw [Request.body, List.length_append, length_wordBytes, Words.bytes_of_ofBytes hdata,
      List.length_drop]
    omega
  | mctp data =>
    obtain ⟨data', hdata, heq⟩ := Option.map_eq_some_iff.mp hq
    cases heq
    have hlen := ha.framed.1
    rw [Request.body, Words.bytes_of_ofBytes hdata, List.length_drop]
    omega

/-- The two headers agree in every field that has a meaning. -/
theorem header_of_decode {n : ℕ} (hn : n < 32) (h11 : n ≠ 11) (h23 : n ≠ 23) :
    bitAt (encode tag q) n = bitAt m n := by
  obtain ⟨ha, hc, htag, -⟩ := decode_eq_some.mp h
  have hlen := length_of_decode h
  have hframe := (accepted_encode tag q).framed.2
  have hframe' := ha.framed.2
  have htag' := (tagOf_encode tag q).trans htag.symm
  have hcode : field (wordAt (encode tag q) 0) 0 11 = field (wordAt m 0) 0 11 :=
    (hasCode_encode tag q).trans hc.symm
  have hlength : field (wordAt (encode tag q) 0) 12 11 = field (wordAt m 0) 12 11 := by
    rw [lengthField] at hframe hframe'
    omega
  have hid : field (wordAt (encode tag q) 0) 24 4 = field (wordAt m 0) 24 4 :=
    congrArg (fun t => t.id.val) htag'
  have hclient : field (wordAt (encode tag q) 0) 28 4 = field (wordAt m 0) 28 4 :=
    congrArg (fun t => t.client.val) htag'
  have hbits : ∀ {lo width : ℕ}, field (wordAt (encode tag q) 0) lo width
      = field (wordAt m 0) lo width → lo ≤ n → n < lo + width →
      bitAt (encode tag q) n = bitAt m n := by
    intro lo width hfield hlo hhi
    obtain ⟨k, rfl⟩ := Nat.exists_eq_add_of_le hlo
    have hk : k < width := by omega
    have hword : ∀ l : List UInt8, bitAt l (lo + k) = (field (wordAt l 0) lo width).testBit k := by
      intro l
      rw [testBit_field _ _ hk, testBit_wordAt l 0 (by omega), Nat.mul_zero, Nat.zero_add]
    rw [hword, hword, hfield]
  by_cases hcodeBit : n < 11
  · exact hbits hcode (by omega) (by omega)
  · by_cases hlengthBit : n < 23
    · exact hbits hlength (by omega) (by omega)
    · by_cases hidBit : n < 28
      · exact hbits hid (by omega) (by omega)
      · exact hbits hclient (by omega) (by omega)

/-- So do the bodies. -/
theorem body_of_decode {n : ℕ} (hn : 32 ≤ n) (hlen : n < 8 * m.length) (hr : ¬ Reserved m n) :
    bitAt (encode tag q) n = bitAt m n := by
  obtain ⟨ha, hc, -, hq⟩ := decode_eq_some.mp h
  have hpast : HasReservedWord m → 64 ≤ n := by
    intro hword
    by_contra hlt
    exact hr (Or.inr (Or.inr ⟨⟨hn, by omega⟩, Or.inl hword⟩))
  cases q with
  | getIdCode =>
    have hfour := ha.bare (Or.inr (Or.inl hc))
    omega
  | getChipId =>
    have hfour := ha.bare (Or.inl hc)
    omega
  | getDeviceIdentity =>
    have hfour := ha.bare (Or.inr (Or.inr hc))
    omega
  | sigmaTeardown sessionId =>
    obtain ⟨hsize, hmagic⟩ := ha.teardown hc
    have hsession : wordAt m 12 = sessionId := Request.sigmaTeardown.inj (Option.some.inj hq)
    have hlast : (m.drop 12).length ≤ 4 := by
      rw [List.length_drop]
      omega
    have hdrop : m.drop 8 = wordBytes (wordAt m 8) ++ wordBytes (wordAt m 12) := by
      rw [wordBytes_wordAt (by omega), wordBytes_wordAt (by omega), List.take_of_length_le hlast,
        show 12 = 8 + 4 from rfl, ← List.drop_drop, List.take_append_drop]
    apply bitAt_congr_drop (k := 8) _ (hpast (Or.inl hc))
    rw [drop_eight_encode rfl, hdrop, hmagic, hsession]
  | getAttestationCertificate certificateRequest =>
    have hbyte : m.getD 4 0 = certificateRequest :=
      Request.getAttestationCertificate.inj (Option.some.inj hq)
    have hsize := ha.certificate hc
    have hmask : ∀ k < 32, VerifierProtocol.getAttCertCertificateRequestMask.toNat.testBit k
        = decide (k < 8) := by
      decide
    have hlow : n - 32 < 8 := by
      by_contra hhigh
      refine hr (Or.inr (Or.inr ⟨⟨hn, by omega⟩, Or.inr ⟨hc, ?_⟩⟩))
      rw [hmask _ (by omega), decide_eq_false hhigh]
    have hbit : n = 8 * 4 + (n - 32) := by omega
    have hwritten : (encode tag (.getAttestationCertificate certificateRequest)).getD 4 0
        = certificateRequest := by
      rw [← toUInt8_wordAt, show 4 = 4 + 0 from rfl, ← wordAt_drop, drop_encode, toUInt8_wordAt]
      rfl
    rw [hbit, bitAt_byte _ 4 hlow, bitAt_byte _ 4 hlow, hbyte, hwritten]
  | createAttestationSubKey data =>
    obtain ⟨data', hdata, heq⟩ := Option.map_eq_some_iff.mp hq
    cases heq
    apply bitAt_congr_drop (k := 8) _ (hpast (Or.inr (Or.inl hc)))
    rw [drop_eight_encode rfl, Words.bytes_of_ofBytes hdata]
  | getMeasurement data =>
    obtain ⟨data', hdata, heq⟩ := Option.map_eq_some_iff.mp hq
    cases heq
    apply bitAt_congr_drop (k := 8) _ (hpast (Or.inr (Or.inr hc)))
    rw [drop_eight_encode rfl, Words.bytes_of_ofBytes hdata]
  | mctp data =>
    obtain ⟨data', hdata, heq⟩ := Option.map_eq_some_iff.mp hq
    cases heq
    apply bitAt_congr_drop (k := 4) _ hn
    rw [drop_encode, Request.body, Words.bytes_of_ofBytes hdata]

/-- **A relayed message is the message of its request, up to reserved bits.** -/
theorem encode_decode : DifferOnlyReserved m (encode tag q) := by
  refine ⟨(length_of_decode h).symm, ?_⟩
  intro n hlen hr
  by_cases hn : n < 32
  · exact header_of_decode h hn (fun h11 => hr (Or.inl h11)) (fun h23 => hr (Or.inr (Or.inl h23)))
  · exact body_of_decode h (Nat.le_of_not_lt hn) hlen hr

/-- The driver call made for the message is the one the request stands for. -/
theorem comParas_of_decode : comParas m q.command = q.comParas := by
  obtain ⟨ha, hc, -, hq⟩ := decode_eq_some.mp h
  have hattest : ∀ c, attestationOf m c = Request.attestation c (m.drop 8) := by
    intro c
    rw [attestationOf, Request.attestation, List.length_drop]
  have hmailbox : ∀ c, mailboxOf m c = Request.mailbox c (m.drop 4) := by
    intro c
    rw [mailboxOf, Request.mailbox, List.length_drop]
  have hbare : IsBare m → m.drop 4 = [] := by
    intro hb
    rw [List.drop_eq_nil_iff, ha.bare hb]
  cases q with
  | getIdCode =>
    rw [Request.command, comParas, hmailbox, hbare (Or.inr (Or.inl hc))]
    rfl
  | getChipId => rfl
  | getDeviceIdentity =>
    rw [Request.command, comParas, hmailbox, hbare (Or.inr (Or.inr hc))]
    rfl
  | sigmaTeardown sessionId =>
    rw [Request.command, comParas, Request.sigmaTeardown.inj (Option.some.inj hq)]
    rfl
  | getAttestationCertificate certificateRequest =>
    rw [Request.command, comParas, Request.getAttestationCertificate.inj (Option.some.inj hq)]
    rfl
  | createAttestationSubKey data =>
    obtain ⟨data', hdata, heq⟩ := Option.map_eq_some_iff.mp hq
    cases heq
    rw [Request.command, comParas, hattest, ← Words.bytes_of_ofBytes hdata]
    rfl
  | getMeasurement data =>
    obtain ⟨data', hdata, heq⟩ := Option.map_eq_some_iff.mp hq
    cases heq
    rw [Request.command, comParas, hattest, ← Words.bytes_of_ofBytes hdata]
    rfl
  | mctp data =>
    obtain ⟨data', hdata, heq⟩ := Option.map_eq_some_iff.mp hq
    cases heq
    rw [Request.command, comParas, hmailbox, ← Words.bytes_of_ofBytes hdata]
    rfl

end Decoded

/-! ### The callback and the request -/

/-- A parser that has seen nothing but the tag. -/
def parserFor (tag : Tag) : VerifierProtocol :=
  { incomingHeader := { client := UInt8.ofNat tag.client, id := UInt8.ofNat tag.id } }

/-- A response to whoever asked. -/
def respond (tag : Tag) (payload : List UInt8) (returnCode : Int32) : List UInt8 :=
  ResponseFraming.frame (parserFor tag) payload returnCode

/-- The reply of the driver to a request, if the call succeeds. -/
def fcsReplyTo (driver : Driver) (q : Request) : Option IoctlReply :=
  (FcsCommunication.deviceReply driver (devCommand q.command)
    (FcsCommunication.submitted q.comParas)).filter
      fun r => rspDataSz r q.command ≤ rspMaxSz q.command

theorem fcsReply_of_decode (h : decode m = some (tag, q)) (driver : Driver) :
    fcsReply driver m q.command = fcsReplyTo driver q := by
  rw [fcsReply, fcsReplyTo, comParas_of_decode h]

theorem callsFor_of_decode (h : decode m = some (tag, q)) (env : Env) :
    callsFor env m = FcsCommunication.deviceCalls env.driver (devCommand q.command)
      (FcsCommunication.submitted q.comParas) := by
  rw [callsFor, command_of_decode h]
  dsimp only
  rw [comParas_of_decode h]

/-- The answer to a request that the driver replied to. -/
def replied (tag : Tag) (q : Request) (r : IoctlReply) : List UInt8 :=
  if q.command = .getAttestationCertificate ∧ r.status = -1 then
    respond tag [] ErrorCode.unknownCommand.value
  else if (rspPayload r q.command).length % 4 = 0 then
    respond tag (rspPayload r q.command) r.status
  else respond tag [] ErrorCode.genericError.value

/-- The response buffer after a request. -/
def answered (env : Env) (tag : Tag) (q : Request) (responseBuffer : List UInt8) : List UInt8 :=
  match fcsReplyTo env.driver q with
  | none =>
    if q.command = .getAttestationCertificate ∧ env.statusReturnedFromFcs = -1 then
      respond tag [] ErrorCode.unknownCommand.value
    else responseBuffer
  | some r => replied tag q r

theorem tagOf_respond {payload : List UInt8} {returnCode : Int32} :
    tagOf (respond tag payload returnCode) = tag := by
  have hfour : ∀ n : Fin 16, (UInt8.ofNat n % 16).toNat = n := by
    decide +kernel
  have hfields := ResponseFraming.frame_fields (parserFor tag) payload returnCode
  have hclient : field (wordAt (respond tag payload returnCode) 0) 28 4 = tag.client := by
    rw [respond, ← hfields.client]
    exact hfour tag.client
  have hid : field (wordAt (respond tag payload returnCode) 0) 24 4 = tag.id := by
    rw [respond, ← hfields.id]
    exact hfour tag.id
  rw [tagOf]
  exact congrArg₂ Tag.mk (Fin.ext hclient) (Fin.ext hid)

/-- A response takes nothing but the tag from the message. -/
theorem frame_afterParse (hlen : 4 ≤ m.length) (payload : List UInt8) (returnCode : Int32) :
    ResponseFraming.frame (afterParse m) payload returnCode
      = respond (tagOf m) payload returnCode := by
  have hfields := CommandHeader.fromUint32_fields (wordAt m 0)
  have hclient : (headerOf m).client = UInt8.ofNat (tagOf m).client := by
    apply UInt8.toNat_inj.mp
    rw [headerOf, hfields.client, UInt8.toNat_ofNat']
    exact (Nat.mod_eq_of_lt ((field_lt _ 28 4).trans (by decide))).symm
  have hid : (headerOf m).id = UInt8.ofNat (tagOf m).id := by
    apply UInt8.toNat_inj.mp
    rw [headerOf, hfields.id, UInt8.toNat_ofNat']
    exact (Nat.mod_eq_of_lt ((field_lt _ 24 4).trans (by decide))).symm
  have hheader : (afterParse m).outgoingHeader payload.length returnCode
      = (parserFor (tagOf m)).outgoingHeader payload.length returnCode := by
    rw [VerifierProtocol.outgoingHeader, ResponseFraming.afterParse_header, if_pos hlen, hclient,
      hid]
    rfl
  rw [respond, ResponseFraming.frame, ResponseFraming.frame, hheader]

/-- **The callback sees nothing of a message but its request.** -/
theorem handle_of_decode (h : decode m = some (tag, q)) (env : Env) (b : List UInt8) :
    handleIncomingMessage env m b
      = ⟨FcsCommunication.deviceCalls env.driver (devCommand q.command)
          (FcsCommunication.submitted q.comParas), .ok (answered env tag q b)⟩ := by
  have hcalls := callsFor_of_decode h env
  have hcommand := command_of_decode h
  have hreply := fcsReply_of_decode h env.driver
  obtain ⟨ha, -, rfl, -⟩ := decode_eq_some.mp h
  have hframe := frame_afterParse ha.framed.1
  rw [handleIncomingMessage_eq, hcalls, responseFor, hcommand]
  dsimp only
  rw [relayResponse, hreply, answered]
  cases fcsReplyTo env.driver q with
  | none =>
    dsimp only
    rw [ResponseFraming.emptyResponse_eq_frame, hframe]
  | some r =>
    dsimp only
    rw [replied, ResponseFraming.emptyResponse_eq_frame, ResponseFraming.response_eq_frame, hframe,
      hframe, hframe]

/-- The parameters of a driver call determine the request. -/
theorem comParas_injective {q q' : Request} (h : q.comParas = q'.comParas) : q = q' := by
  have hmailbox : ∀ {c c' : CommandCode} {data data' : List UInt8},
      ComParas.mboxSendCmd (Request.mailbox c data) = .mboxSendCmd (Request.mailbox c' data') →
      c = c' ∧ data = data' := by
    intro c c' data data' heq
    have hparas := ComParas.mboxSendCmd.inj heq
    exact ⟨CommandCode.value_injective (congrArg FcsMboxSendCmd.mboxCmd hparas),
      congrArg FcsMboxSendCmd.cmdData hparas⟩
  cases q with
  | getIdCode =>
    cases q' <;> first | rfl | exact absurd (hmailbox h).1 (by decide) | cases h
  | getChipId =>
    cases q' <;> first | rfl | cases h
  | sigmaTeardown sessionId =>
    cases q' <;> cases h
    rfl
  | getAttestationCertificate certificateRequest =>
    cases q' with
    | getAttestationCertificate certificateRequest' =>
      have hrequest := congrArg FcsAttestationCertificate.cRequest (ComParas.certificate.inj h)
      have hbyte : ∀ b : UInt8, (Int32.ofNat b.toNat).toInt = b.toNat := by
        intro b
        have hlt := b.toNat_lt
        rw [Int32.toInt_ofNat_of_lt]
        omega
      have hnat : certificateRequest.toNat = certificateRequest'.toNat := by
        have hint := congrArg Int32.toInt hrequest
        rw [hbyte, hbyte] at hint
        omega
      rw [UInt8.toNat_inj.mp hnat]
    | _ => cases h
  | createAttestationSubKey data =>
    cases q' with
    | createAttestationSubKey data' =>
      have hdata := congrArg FcsAttestation.cmdData (ComParas.subkey.inj h)
      rw [Words.bytes_injective hdata]
    | _ => cases h
  | getMeasurement data =>
    cases q' with
    | getMeasurement data' =>
      have hdata := congrArg FcsAttestation.cmdData (ComParas.measurement.inj h)
      rw [Words.bytes_injective hdata]
    | _ => cases h
  | mctp data =>
    cases q' with
    | mctp data' => rw [Words.bytes_injective (hmailbox h).2]
    | getIdCode => exact absurd (hmailbox h).1 (by decide)
    | getDeviceIdentity => exact absurd (hmailbox h).1 (by decide)
    | _ => cases h
  | getDeviceIdentity =>
    cases q' <;> first | rfl | exact absurd (hmailbox h).1 (by decide) | cases h

/-- **What the driver can be made to see**: a device that opens gets the calls that some request
stands for, each from one request, and no other call. -/
theorem driver_sees (env : Env) (hopen : 0 ≤ env.driver.openDevice) (command : DevCommand)
    (data : IntelFcsDevIoctl) :
    (∃ m b fd returned, .ioctl fd command data returned ∈ (handleIncomingMessage env m b).calls) ↔
      ∃! q : Request, command = devCommand q.command ∧
        data = FcsCommunication.submitted q.comParas := by
  have hcalls : ∀ q : Request, FcsCommunication.deviceCalls env.driver (devCommand q.command)
      (FcsCommunication.submitted q.comParas) = [.openDevice env.driver.openDevice,
        .ioctl env.driver.openDevice (devCommand q.command) (FcsCommunication.submitted q.comParas)
          (env.driver.ioctl (devCommand q.command)
            (FcsCommunication.submitted q.comParas)).returned,
        .close env.driver.openDevice] := by
    intro q
    rw [FcsCommunication.deviceCalls, if_neg (not_lt.mpr hopen)]
  constructor
  · intro hseen
    obtain ⟨m, b, fd, returned, hmem⟩ := hseen
    cases hm : decode m with
    | none =>
      rw [handleIncomingMessage_eq, callsFor, decode_eq_none.mp hm] at hmem
      cases hmem
    | some x =>
      obtain ⟨tag, q⟩ := x
      rw [handle_of_decode hm, hcalls] at hmem
      obtain ⟨-, hcommand, hdata, -⟩ : fd = env.driver.openDevice ∧
          command = devCommand q.command ∧ data = FcsCommunication.submitted q.comParas ∧
          returned = _ := by
        simpa using hmem
      refine ⟨q, ⟨hcommand, hdata⟩, ?_⟩
      intro q' hq'
      obtain ⟨-, hdata'⟩ := hq'
      apply comParas_injective
      exact congrArg IntelFcsDevIoctl.comParas (hdata'.symm.trans hdata)
  · intro hrequest
    obtain ⟨q, ⟨rfl, rfl⟩, -⟩ := hrequest
    refine ⟨encode ⟨0, 0⟩ q, [], env.driver.openDevice, (env.driver.ioctl (devCommand q.command)
      (FcsCommunication.submitted q.comParas)).returned, ?_⟩
    rw [handle_of_decode (decode_encode _ _), hcalls]
    exact List.mem_cons_of_mem _ List.mem_cons_self

/-- The driver is asked for the chip id in one way only. -/
theorem driver_sees_chipId :
    (∃ m b fd returned, .ioctl fd .chipId (FcsCommunication.submitted (.cId ⟨0, 0⟩)) returned
        ∈ (handleIncomingMessage ⟨CallOutcome.chipIdDevice 0, 0⟩ m b).calls) ↔
      ∃! q : Request, .chipId = devCommand q.command ∧
        FcsCommunication.submitted (.cId ⟨0, 0⟩) = FcsCommunication.submitted q.comParas :=
  driver_sees ⟨CallOutcome.chipIdDevice 0, 0⟩ (by decide) _ _

/-! ### Messages of one request -/

theorem reserved_congr (h : codeField m = codeField m') (n : ℕ) :
    Reserved m n ↔ Reserved m' n := by
  simp only [Reserved, HasReservedWord, HasCode, h]

/-- **Messages of one request differ in reserved bits only**, and messages that differ in reserved
bits only are messages of one request. -/
theorem decode_eq_iff (hm : commandOf m ≠ none) :
    decode m' = decode m ↔ DifferOnlyReserved m m' := by
  constructor
  · intro heq
    obtain ⟨c, hc⟩ := Option.ne_none_iff_exists'.mp hm
    obtain ⟨q, hq, -⟩ := decode_of_command hc
    have hq' := heq.trans hq
    have hcode : codeField m = codeField m' := by
      obtain ⟨-, hcode, -, -⟩ := decode_eq_some.mp hq
      obtain ⟨-, hcode', -, -⟩ := decode_eq_some.mp hq'
      exact hcode.trans hcode'.symm
    have hlen := (length_of_decode hq').trans (length_of_decode hq).symm
    refine ⟨hlen, ?_⟩
    intro n hn hr
    have hr' : ¬ Reserved m' n := fun h => hr ((reserved_congr hcode n).mpr h)
    exact ((encode_decode hq').bits n (by omega) hr').symm.trans ((encode_decode hq).bits n hn hr)
  · intro h
    have htag : tagOf m' = tagOf m := by
      rw [tagOf, tagOf]
      apply congrArg₂ Tag.mk
      · exact Fin.ext (field_header h (by decide) (by decide) (by decide))
      · exact Fin.ext (field_header h (by decide) (by decide) (by decide))
    have hrequest : ∀ c, HasCode m c → requestOf m' c = requestOf m c := by
      intro c hc
      cases c with
      | sigmaTeardown => rw [requestOf, requestOf, wordAt_eq h (by decide)]
      | getAttestationCertificate => rw [requestOf, requestOf, request_eq h hc]
      | createAttestationSubKey => rw [requestOf, requestOf, drop_eight h]
      | getMeasurement => rw [requestOf, requestOf, drop_eight h]
      | mctp =>
        have hreserved : ¬ HasReservedWord m := by
          intro hr
          rcases hr with hr | hr | hr <;> cases hr.unique hc
        have hcert : ¬ HasCode m .getAttestationCertificate := by
          intro hcert
          cases hcert.unique hc
        rw [requestOf, requestOf, drop_four h hreserved hcert]
      | _ => rfl
    rw [decode, decode, commandOf_eq h, htag]
    cases hcmd : commandOf m with
    | none => rfl
    | some c =>
      rw [Option.bind_some, Option.bind_some, hrequest c (commandOf_eq_some.mp hcmd).2]

/-- **The messages that are relayed are the encodings of the requests**, up to the bits that nothing
reads, and each of one request only. -/
theorem relayed_iff_encoding (m : List UInt8) :
    commandOf m ≠ none ↔ ∃! x : Tag × Request, DifferOnlyReserved (encode x.1 x.2) m := by
  have hencodes : ∀ x : Tag × Request,
      DifferOnlyReserved (encode x.1 x.2) m ↔ decode m = some x := by
    intro x
    have hx : commandOf (encode x.1 x.2) ≠ none := by
      rw [commandOf_encode]
      exact Option.some_ne_none _
    rw [← decode_eq_iff hx, decode_encode]
  have hdecoded : commandOf m ≠ none ↔ decode m ≠ none := not_iff_not.mpr decode_eq_none.symm
  rw [hdecoded]
  constructor
  · intro hsome
    obtain ⟨x, hx⟩ := Option.ne_none_iff_exists'.mp hsome
    refine ⟨x, (hencodes x).mpr hx, ?_⟩
    intro y hy
    exact Option.some.inj (((hencodes y).mp hy).symm.trans hx)
  · intro hunique
    obtain ⟨x, hx, -⟩ := hunique
    rw [(hencodes x).mp hx]
    exact Option.some_ne_none x

/-- A device that opens and serves every call, with nothing to report. -/
def silentDevice : Driver := ⟨0, fun _ _ => ⟨0, 0, ⟨0, 0⟩, 0, 0, 0, 0, []⟩⟩

/-- With that device the calls show the request, and the response shows the tag. -/
theorem shown (b : List UInt8) {tag tag' : Tag} {q q' : Request}
    (hcalls : FcsCommunication.deviceCalls silentDevice (devCommand q.command)
        (FcsCommunication.submitted q.comParas)
      = FcsCommunication.deviceCalls silentDevice (devCommand q'.command)
        (FcsCommunication.submitted q'.comParas))
    (hresponse : answered ⟨silentDevice, 0⟩ tag q b = answered ⟨silentDevice, 0⟩ tag' q' b) :
    tag = tag' ∧ q = q' := by
  have hq : q = q' := by
    rw [FcsCommunication.deviceCalls, FcsCommunication.deviceCalls, if_neg (by decide),
      if_neg (by decide)] at hcalls
    have hioctl := (List.cons.inj (List.cons.inj hcalls).2).1
    exact comParas_injective
      (congrArg IntelFcsDevIoctl.comParas (Call.ioctl.inj hioctl).2.2.1)
  have hanswer : ∀ tag, ∃ payload code, answered ⟨silentDevice, 0⟩ tag q b
      = respond tag payload code := by
    intro tag
    have hreply : fcsReplyTo silentDevice q = some ⟨0, 0, ⟨0, 0⟩, 0, 0, 0, 0, []⟩ := by
      cases q <;> rfl
    rw [answered, hreply]
    dsimp only
    rw [replied]
    split
    · exact ⟨_, _, rfl⟩
    · split
      · exact ⟨_, _, rfl⟩
      · exact ⟨_, _, rfl⟩
  obtain ⟨payload, code, hpayload⟩ := hanswer tag
  obtain ⟨payload', code', hpayload'⟩ := hanswer tag'
  refine ⟨?_, hq⟩
  rw [← hq, hpayload, hpayload'] at hresponse
  have htag := congrArg tagOf hresponse
  rwa [tagOf_respond, tagOf_respond] at htag

/-- **The callback tells two relayed messages apart unless they differ in reserved bits only**:
those are the messages for which it makes the same calls and writes the same response, whatever
the device does. -/
theorem handled_alike_iff (hm : commandOf m ≠ none) :
    (∀ env b, handleIncomingMessage env m' b = handleIncomingMessage env m b) ↔
      DifferOnlyReserved m m' := by
  obtain ⟨c, hc⟩ := Option.ne_none_iff_exists'.mp hm
  obtain ⟨q, hq, -⟩ := decode_of_command hc
  rw [← decode_eq_iff hm]
  constructor
  · intro halike
    have hsame := halike ⟨silentDevice, 0⟩ []
    rw [handle_of_decode hq] at hsame
    cases hm' : decode m' with
    | none =>
      -- a message that is not relayed makes no calls
      rw [handleIncomingMessage_eq, Traced.mk.injEq, callsFor, decode_eq_none.mp hm',
        FcsCommunication.deviceCalls, if_neg (by decide)] at hsame
      cases hsame.1
    | some x =>
      obtain ⟨tag', q'⟩ := x
      rw [handle_of_decode hm', Traced.mk.injEq, Except.ok.injEq] at hsame
      obtain ⟨rfl, rfl⟩ := shown [] hsame.1 hsame.2
      rw [hq]
  · intro heq env b
    rw [handle_of_decode hq, handle_of_decode (heq.trans hq)]

/-- A chip id request with its two reserved bits set. -/
theorem handled_alike_chipId :
    (∀ env b, handleIncomingMessage env [0x12, 0x08, 0x80, 0x10] b
        = handleIncomingMessage env [0x12, 0, 0, 0x10] b) ↔
      DifferOnlyReserved [0x12, 0, 0, 0x10] [0x12, 0x08, 0x80, 0x10] :=
  handled_alike_iff (by decide +kernel)

end RequestEncoding

end FcsServer
