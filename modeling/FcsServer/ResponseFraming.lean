import FcsServer.MessageHandler

/-!
# Responses are messages

Every response the callback writes is a header word and the payload it announces.

* `Answers` — a well-framed message with the client and id of a request;
* `frame_answers` — a header over a payload of whole words, short enough for the length field;
* `responseFor_refused` / `responseFor_of_true` / `responseFor_of_false` — the callback writes
  one frame or nothing;
* `response_wellFramed` — what it writes for a message answers that message.
-/

namespace FcsServer

open LittleEndian BitFields RequestGrammar MessageHandler

namespace ResponseFraming

/-- `r` is a well-framed message that answers `m`: the reserved bits are zero, and the client
and id are those of `m`, or zero when `m` is too short to have any. -/
structure Answers (m r : List UInt8) : Prop where
  words : r.length % 4 = 0
  framed : Framed r
  res1 : field (wordAt r 0) 23 1 = 0
  res2 : field (wordAt r 0) 11 1 = 0
  client : field (wordAt r 0) 28 4 = if 4 ≤ m.length then field (wordAt m 0) 28 4 else 0
  id : field (wordAt r 0) 24 4 = if 4 ≤ m.length then field (wordAt m 0) 24 4 else 0

/-! ### One frame -/

/-- A response header over its payload. -/
def frame (vp : VerifierProtocol) (payload : List UInt8) (returnCode : Int32) : List UInt8 :=
  wordBytes (vp.outgoingHeader payload.length returnCode).toUint32 ++ payload

theorem emptyResponse_eq_frame (vp : VerifierProtocol) (returnCode : Int32) :
    vp.emptyResponse returnCode = frame vp [] returnCode := by
  rw [frame, List.append_nil]
  rfl

theorem response_eq_frame (vp : VerifierProtocol) (payload : List UInt8) (returnCode : Int32) :
    vp.response payload returnCode
      = if payload.length % 4 = 0 then frame vp payload returnCode
        else frame vp [] ErrorCode.genericError.value := by
  rw [VerifierProtocol.response, emptyResponse_eq_frame]
  rfl

variable {vp : VerifierProtocol} {payload m : List UInt8} {returnCode : Int32}

theorem frame_fields (vp : VerifierProtocol) (payload : List UInt8) (returnCode : Int32) :
    CommandHeader.FieldsOf (vp.outgoingHeader payload.length returnCode).reduced
      (wordAt (frame vp payload returnCode) 0) := by
  rw [frame, wordAt_wordBytes_append]
  exact CommandHeader.toUint32_fields _

theorem length_frame : (frame vp payload returnCode).length = 4 + payload.length := by
  rw [frame, List.length_append, length_wordBytes]

theorem drop_frame : (frame vp payload returnCode).drop 4 = payload := by
  rw [frame]
  exact List.drop_left' (length_wordBytes _)

theorem frame_ne_nil : frame vp payload returnCode ≠ [] := by
  rw [← List.length_pos_iff, length_frame]
  omega

/-- The length field counts the words of the payload, as long as eleven bits can count them. -/
theorem lengthField_frame (hn : payload.length < 4 * 2 ^ 11) :
    lengthField (frame vp payload returnCode) = payload.length / 4 := by
  rw [lengthField, ← (frame_fields vp payload returnCode).length]
  show ((UInt16.ofNat (payload.length / 4)) % 2048).toNat = _
  rw [UInt16.toNat_mod, UInt16.toNat_ofNat']
  show payload.length / 4 % 2 ^ 16 % 2 ^ 11 = _
  omega

/-- The code field is the return code modulo `2 ^ 11`. -/
theorem codeField_frame (vp : VerifierProtocol) (payload : List UInt8) (returnCode : Int32) :
    (codeField (frame vp payload returnCode) : ℤ) = returnCode.toInt % 2 ^ 11 := by
  have hcode : codeField (frame vp payload returnCode) = returnCode.toUInt32.toNat % 2 ^ 11 := by
    rw [codeField, ← (frame_fields vp payload returnCode).code]
    show (returnCode.toUInt32.toUInt16 % 2048).toNat = _
    rw [UInt16.toNat_mod, UInt32.toNat_toUInt16]
    show returnCode.toUInt32.toNat % 2 ^ 16 % 2 ^ 11 = _
    omega
  have hint : returnCode.toInt = if 2 * returnCode.toUInt32.toNat < 2 ^ 32
      then (returnCode.toUInt32.toNat : ℤ) else (returnCode.toUInt32.toNat : ℤ) - (2 ^ 32 : ℕ) :=
    BitVec.toInt_eq_toNat_cond returnCode.toBitVec
  rw [hcode, hint]
  split <;> omega

/-! ### Client and id -/

theorem afterParse_header :
    (afterParse m).incomingHeader = if 4 ≤ m.length then headerOf m else {} := by
  split
  · rename_i h
    exact parseOutcome_header {} h
  · rename_i h
    rw [afterParse, parseOutcome, if_pos (by omega)]

theorem frame_client : field (wordAt (frame (afterParse m) payload returnCode) 0) 28 4
    = if 4 ≤ m.length then field (wordAt m 0) 28 4 else 0 := by
  rw [← (frame_fields (afterParse m) payload returnCode).client]
  show ((afterParse m).incomingHeader.client % 16).toNat = _
  rw [afterParse_header]
  split
  · have hclient := (CommandHeader.fromUint32_fields (wordAt m 0)).client
    have hlt := field_lt (wordAt m 0) 28 4
    rw [UInt8.toNat_mod, headerOf, hclient]
    exact Nat.mod_eq_of_lt hlt
  · rfl

theorem frame_id : field (wordAt (frame (afterParse m) payload returnCode) 0) 24 4
    = if 4 ≤ m.length then field (wordAt m 0) 24 4 else 0 := by
  rw [← (frame_fields (afterParse m) payload returnCode).id]
  show ((afterParse m).incomingHeader.id % 16).toNat = _
  rw [afterParse_header]
  split
  · have hid := (CommandHeader.fromUint32_fields (wordAt m 0)).id
    have hlt := field_lt (wordAt m 0) 24 4
    rw [UInt8.toNat_mod, headerOf, hid]
    exact Nat.mod_eq_of_lt hlt
  · rfl

/-- **One frame answers.** -/
theorem frame_answers (m : List UInt8) (returnCode : Int32) (hw : payload.length % 4 = 0)
    (hn : payload.length < 4 * 2 ^ 11) : Answers m (frame (afterParse m) payload returnCode) := by
  have hlen : (frame (afterParse m) payload returnCode).length = 4 + payload.length := length_frame
  refine ⟨?_, ⟨?_, ?_⟩, ?_, ?_, frame_client, frame_id⟩
  · omega
  · omega
  · rw [lengthField_frame hn]
    omega
  · rw [← (frame_fields (afterParse m) payload returnCode).res1]
    rfl
  · rw [← (frame_fields (afterParse m) payload returnCode).res2]
    rfl

/-! ### The responses of the callback -/

variable {env : Env} {c : CommandCode} {status : Int32}

/-- No command offers more than a page, so eleven bits count the words of every payload. -/
theorem rspMaxSz_le (c : CommandCode) : rspMaxSz c ≤ 4096 := by
  cases c <;> decide

theorem length_payload_le (ha : Accepted m) (hc : HasCode m c)
    (h : CallReturnsTrue env m c payload status) : payload.length ≤ 4096 := by
  obtain ⟨r, hr, rfl, -⟩ := (callReturnsTrue_iff ha hc).mp h
  have hsize := fcsReply_size hr
  rw [length_rspPayload hsize]
  exact hsize.trans (rspMaxSz_le c)

/-- A message that is not relayed is answered with an error code. -/
theorem responseFor_refused (env : Env) (b : List UInt8) (h : commandOf m = none) :
    responseFor env m b = frame (afterParse m) [] (refusalCode m).value := by
  rw [responseFor, h, emptyResponse_eq_frame]

theorem responseFor_of_true (b : List UInt8) (ha : Accepted m) (hc : HasCode m c)
    (h : CallReturnsTrue env m c payload status) :
    responseFor env m b
      = if c = .getAttestationCertificate ∧ status = -1 then
          frame (afterParse m) [] ErrorCode.unknownCommand.value
        else if payload.length % 4 = 0 then frame (afterParse m) payload status
        else frame (afterParse m) [] ErrorCode.genericError.value := by
  obtain ⟨r, hr, rfl, rfl⟩ := (callReturnsTrue_iff ha hc).mp h
  rw [responseFor, commandOf_eq_some.mpr ⟨ha, hc⟩]
  dsimp only
  rw [relayResponse, hr]
  dsimp only
  rw [emptyResponse_eq_frame, response_eq_frame]

theorem responseFor_of_false (b : List UInt8) (ha : Accepted m) (hc : HasCode m c)
    (h : CallReturnsFalse env m c) :
    responseFor env m b
      = if c = .getAttestationCertificate ∧ env.statusReturnedFromFcs = -1 then
          frame (afterParse m) [] ErrorCode.unknownCommand.value
        else b := by
  rw [responseFor, commandOf_eq_some.mpr ⟨ha, hc⟩]
  dsimp only
  rw [relayResponse, (callReturnsFalse_iff ha hc).mp h]
  dsimp only
  rw [emptyResponse_eq_frame]

/-- The buffer is left as it was, or holds an answer. -/
theorem responseFor_answers (env : Env) (m b : List UInt8) :
    responseFor env m b = b ∨ Answers m (responseFor env m b) := by
  have bare : ∀ code, Answers m (frame (afterParse m) [] code) := by
    intro code
    exact frame_answers m code rfl (by decide)
  cases hcmd : commandOf m with
  | none =>
    right
    rw [responseFor_refused env b hcmd]
    exact bare _
  | some c =>
    obtain ⟨ha, hc⟩ := commandOf_eq_some.mp hcmd
    rcases callReturns env ha hc with hfalse | ⟨payload, status, htrue⟩
    · rw [responseFor_of_false b ha hc hfalse]
      split
      · exact Or.inr (bare _)
      · exact Or.inl rfl
    · right
      have hle := length_payload_le ha hc htrue
      rw [responseFor_of_true b ha hc htrue]
      split
      · exact bare _
      · split
        · rename_i hw
          exact frame_answers m status hw (by omega)
        · exact bare _

/-- **Every response is a well-framed message that answers its request**, and a payload that is
not made of whole words is answered with the bare header and `genericError`. -/
theorem response_wellFramed (env : Env) (m responseBuffer : List UInt8) :
    ∃ r, (handleIncomingMessage env m responseBuffer).result = .ok r ∧
      (r ≠ responseBuffer → Answers m r) ∧
      ∀ c payload status, Accepted m → HasCode m c → CallReturnsTrue env m c payload status →
        payload.length % 4 ≠ 0 → ¬ (c = .getAttestationCertificate ∧ status = -1) →
        Answers m r ∧ r.length = 4 ∧ lengthField r = 0 ∧ codeField r = 1 := by
  refine ⟨responseFor env m responseBuffer, ?_, ?_, ?_⟩
  · rw [handleIncomingMessage_eq]
  · intro hne
    exact (responseFor_answers env m responseBuffer).resolve_left hne
  · intro c payload status ha hc htrue hw hcert
    rw [responseFor_of_true responseBuffer ha hc htrue, if_neg hcert, if_neg hw]
    refine ⟨frame_answers m _ rfl (by decide), length_frame, lengthField_frame (by decide), ?_⟩
    exact Int.ofNat.inj (codeField_frame _ _ _)

end ResponseFraming

end FcsServer
