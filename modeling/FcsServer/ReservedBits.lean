import FcsServer.ResponseFraming

/-!
# Reserved bits

Two bits of the header, the word after the header of three commands, and three bytes of the
certificate request carry no meaning.  They are skipped by the bit-field reader, the payload
offset and the request mask; the response header leaves them zero.

* `Reserved` — the positions, in a message;
* `DifferOnlyReserved` — two messages that agree everywhere else;
* `field_header`, `getD_eq`, `drop_payload` — what the parser and the accessors read is the same;
* `reserved_ignored` — so is everything the callback does.
-/

namespace FcsServer

open LittleEndian BitFields RequestGrammar MessageHandler ResponseFraming

namespace ReservedBits

/-- The positions without a meaning: bits 11 and 23 of the header word, the word after it for
the commands that have a reserved word, and its bits outside the mask for a certificate
request. -/
def Reserved (m : List UInt8) (n : ℕ) : Prop :=
  n = 11 ∨ n = 23 ∨ (32 ≤ n ∧ n < 64) ∧ (HasReservedWord m ∨
    HasCode m .getAttestationCertificate ∧
      VerifierProtocol.getAttCertCertificateRequestMask.toNat.testBit (n - 32) = false)

instance (m : List UInt8) (n : ℕ) : Decidable (Reserved m n) :=
  inferInstanceAs (Decidable (_ ∨ _ ∨ _ ∧ _))

/-- Messages of one length with the same bits at every other position. -/
structure DifferOnlyReserved (m m' : List UInt8) : Prop where
  length : m'.length = m.length
  bits : ∀ n < 8 * m.length, ¬ Reserved m n → bitAt m' n = bitAt m n

variable {m m' : List UInt8} {c : CommandCode}

/-! ### What is read -/

/-- Past the end both have no bits. -/
theorem DifferOnlyReserved.bitAt_eq (h : DifferOnlyReserved m m') {n : ℕ}
    (hn : ¬ Reserved m n) : bitAt m' n = bitAt m n := by
  by_cases hlen : n < 8 * m.length
  · exact h.bits n hlen hn
  · have hlength := h.length
    rw [bitAt_of_length_le (by omega), bitAt_of_length_le (by omega)]

/-- A header field that covers neither of the two reserved bits. -/
theorem field_header (h : DifferOnlyReserved m m') {lo width : ℕ} (hword : lo + width ≤ 32)
    (hres2 : lo + width ≤ 11 ∨ 11 < lo) (hres1 : lo + width ≤ 23 ∨ 23 < lo) :
    field (wordAt m' 0) lo width = field (wordAt m 0) lo width := by
  apply field_congr
  intro k hk
  rw [testBit_wordAt m' 0 (by omega), testBit_wordAt m 0 (by omega)]
  apply h.bitAt_eq
  intro hreserved
  rcases hreserved with hn | hn | ⟨hn, -⟩ <;> omega

theorem lengthField_eq (h : DifferOnlyReserved m m') : lengthField m' = lengthField m :=
  field_header h (by decide) (by decide) (by decide)

theorem codeField_eq (h : DifferOnlyReserved m m') : codeField m' = codeField m :=
  field_header h (by decide) (by decide) (by decide)

/-- The codes of the two messages are the same, so their positions are too. -/
theorem hasCode_iff (h : DifferOnlyReserved m m') : HasCode m' c ↔ HasCode m c := by
  rw [HasCode, HasCode, codeField_eq h]

theorem hasReservedWord_iff (h : DifferOnlyReserved m m') :
    HasReservedWord m' ↔ HasReservedWord m := by
  simp only [HasReservedWord, hasCode_iff h]

theorem payloadStart_eq (h : DifferOnlyReserved m m') : payloadStart m' = payloadStart m := by
  simp only [payloadStart, hasReservedWord_iff h]

/-- A byte without reserved positions. -/
theorem getD_eq (h : DifferOnlyReserved m m') {i : ℕ} (hi : ∀ k < 8, ¬ Reserved m (8 * i + k)) :
    m'.getD i 0 = m.getD i 0 := by
  apply getD_congr_bits
  intro k hk
  exact h.bitAt_eq (hi k hk)

/-- A payload without reserved positions. -/
theorem drop_eq (h : DifferOnlyReserved m m') {start : ℕ}
    (hstart : ∀ n, 8 * start ≤ n → ¬ Reserved m n) : m'.drop start = m.drop start := by
  apply List.ext_getElem
  · rw [List.length_drop, List.length_drop, h.length]
  · intro i hi' hi
    have hbyte : m'.getD (start + i) 0 = m.getD (start + i) 0 := by
      apply getD_eq h
      intro k _
      exact hstart _ (by omega)
    rw [List.length_drop] at hi hi'
    rw [List.getD_eq_getElem _ _ (by omega), List.getD_eq_getElem _ _ (by omega)] at hbyte
    rw [List.getElem_drop, List.getElem_drop]
    exact hbyte

/-- After the first two words nothing is reserved. -/
theorem drop_eight (h : DifferOnlyReserved m m') : m'.drop 8 = m.drop 8 := by
  apply drop_eq h
  intro n hn hreserved
  rcases hreserved with heq | heq | ⟨hlt, -⟩ <;> omega

/-- Neither is it after the first, for the other commands. -/
theorem drop_four (h : DifferOnlyReserved m m') (hr : ¬ HasReservedWord m)
    (hc : ¬ HasCode m .getAttestationCertificate) : m'.drop 4 = m.drop 4 := by
  apply drop_eq h
  intro n hn hreserved
  rcases hreserved with heq | heq | ⟨-, hword | hcert⟩
  · omega
  · omega
  · exact hr hword
  · exact hc hcert.1

theorem wordAt_eq (h : DifferOnlyReserved m m') {o : ℕ} (ho : 8 ≤ o) :
    wordAt m' o = wordAt m o := by
  obtain ⟨k, rfl⟩ := Nat.exists_eq_add_of_le ho
  rw [← wordAt_drop, ← wordAt_drop, drop_eight h]

/-- The mask covers the byte that the certificate request is in. -/
theorem request_eq (h : DifferOnlyReserved m m') (hc : HasCode m .getAttestationCertificate) :
    m'.getD 4 0 = m.getD 4 0 := by
  have hmask : ∀ k < 8,
      VerifierProtocol.getAttCertCertificateRequestMask.toNat.testBit k = true := by
    decide
  apply getD_eq h
  intro k hk hreserved
  rcases hreserved with heq | heq | ⟨-, hword | hcert⟩
  · omega
  · omega
  · exact not_reserved_of_certificate hc hword
  · have hbit := hcert.2
    rw [show 8 * 4 + k - 32 = k by omega, hmask k hk] at hbit
    cases hbit

/-! ### The parser -/

theorem sizeWrong_iff (h : DifferOnlyReserved m m') : SizeWrong m' ↔ SizeWrong m := by
  simp only [SizeWrong, IsBare, hasCode_iff h, h.length]

theorem magicWrong_iff (h : DifferOnlyReserved m m') : MagicWrong m' ↔ MagicWrong m := by
  simp only [MagicWrong, hasCode_iff h, wordAt_eq h le_rfl]

/-- **Both are accepted, or neither is.** -/
theorem accepted_congr (h : DifferOnlyReserved m m') : Accepted m' ↔ Accepted m := by
  simp only [accepted_iff, h.length, lengthField_eq h, payloadStart_eq h, sizeWrong_iff h,
    magicWrong_iff h]

theorem onlyMagicWrong_congr (h : DifferOnlyReserved m m') :
    OnlyMagicWrong m' ↔ OnlyMagicWrong m := by
  simp only [onlyMagicWrong_iff, h.length, lengthField_eq h, payloadStart_eq h, sizeWrong_iff h,
    magicWrong_iff h]

theorem commandOf_eq (h : DifferOnlyReserved m m') : commandOf m' = commandOf m := by
  apply Option.ext
  intro c
  rw [commandOf_eq_some, commandOf_eq_some, accepted_congr h, hasCode_iff h]

/-- A rejected message is rejected for the same reason. -/
theorem refusalCode_eq (h : DifferOnlyReserved m m') : refusalCode m' = refusalCode m := by
  rw [refusalCode, refusalCode]
  by_cases ha : Accepted m
  · rw [if_pos ha, if_pos ((accepted_congr h).mpr ha)]
  · have ha' : ¬ Accepted m' := fun h' => ha ((accepted_congr h).mp h')
    rw [if_neg ha, if_neg ha', afterParse, afterParse]
    by_cases hmagic : OnlyMagicWrong m
    · rw [parseOutcome_of_onlyMagicWrong {} hmagic,
        parseOutcome_of_onlyMagicWrong {} ((onlyMagicWrong_congr h).mpr hmagic)]
    · have hmagic' : ¬ OnlyMagicWrong m' := fun h' => hmagic ((onlyMagicWrong_congr h).mp h')
      rw [(parseOutcome_of_rejected {} ha hmagic).2, (parseOutcome_of_rejected {} ha' hmagic').2]

/-! ### The call and the response -/

/-- A response takes the client and the id from the header, and nothing else. -/
theorem outgoingHeader_eq (h : DifferOnlyReserved m m') :
    (afterParse m').outgoingHeader = (afterParse m).outgoingHeader := by
  have hfields : (afterParse m').incomingHeader.client = (afterParse m).incomingHeader.client ∧
      (afterParse m').incomingHeader.id = (afterParse m).incomingHeader.id := by
    rw [afterParse_header, afterParse_header, h.length]
    split
    · have hf := CommandHeader.fromUint32_fields (wordAt m 0)
      have hf' := CommandHeader.fromUint32_fields (wordAt m' 0)
      constructor
      · apply UInt8.toNat_inj.mp
        rw [headerOf, headerOf, hf.client, hf'.client]
        exact field_header h (by decide) (by decide) (by decide)
      · apply UInt8.toNat_inj.mp
        rw [headerOf, headerOf, hf.id, hf'.id]
        exact field_header h (by decide) (by decide) (by decide)
    · exact ⟨rfl, rfl⟩
  funext payloadSize returnCode
  rw [VerifierProtocol.outgoingHeader, VerifierProtocol.outgoingHeader, hfields.1, hfields.2]

theorem emptyResponse_eq (h : DifferOnlyReserved m m') :
    (afterParse m').emptyResponse = (afterParse m).emptyResponse := by
  funext returnCode
  rw [VerifierProtocol.emptyResponse, VerifierProtocol.emptyResponse, outgoingHeader_eq h]

theorem response_eq (h : DifferOnlyReserved m m') :
    (afterParse m').response = (afterParse m).response := by
  funext payload returnCode
  rw [VerifierProtocol.response, VerifierProtocol.response, outgoingHeader_eq h,
    emptyResponse_eq h]

theorem mailboxOf_eq (h : DifferOnlyReserved m m') (hc : HasCode m c)
    (hreserved : ¬ HasReservedWord m) (hcert : c ≠ .getAttestationCertificate) :
    mailboxOf m' c = mailboxOf m c := by
  have hpayload := drop_four h hreserved fun hc' => hcert (hc.unique hc')
  rw [mailboxOf, mailboxOf, hpayload, h.length]

/-- **The driver gets the same parameters.** -/
theorem comParas_eq (h : DifferOnlyReserved m m') (hc : HasCode m c) :
    comParas m' c = comParas m c := by
  have hattest : attestationOf m' = attestationOf m := by
    funext c
    rw [attestationOf, attestationOf, drop_eight h, h.length]
  cases c with
  | getChipId => rfl
  | sigmaTeardown => rw [comParas, comParas, wordAt_eq h (by decide)]
  | createAttestationSubKey => rw [comParas, comParas, hattest]
  | getMeasurement => rw [comParas, comParas, hattest]
  | getAttestationCertificate => rw [comParas, comParas, request_eq h hc]
  | mctp =>
    have hreserved : ¬ HasReservedWord m := by
      intro hr
      rcases hr with hr | hr | hr <;> cases hr.unique hc
    rw [comParas, comParas, mailboxOf_eq h hc hreserved (by decide)]
  | getIdCode =>
    rw [comParas, comParas,
      mailboxOf_eq h hc (not_reserved_of_bare (Or.inr (Or.inl hc))) (by decide)]
  | getDeviceIdentity =>
    rw [comParas, comParas,
      mailboxOf_eq h hc (not_reserved_of_bare (Or.inr (Or.inr hc))) (by decide)]

/-- **Reserved bits are ignored from end to end.**  The calls, with all their data, and the
response are the same, on every path. -/
theorem reserved_ignored (env : Env) (m m' responseBuffer : List UInt8)
    (h : DifferOnlyReserved m m') :
    handleIncomingMessage env m' responseBuffer
      = handleIncomingMessage env m responseBuffer := by
  rw [handleIncomingMessage_eq, handleIncomingMessage_eq, callsFor, callsFor, responseFor,
    responseFor, commandOf_eq h]
  cases hcmd : commandOf m with
  | none =>
    dsimp only
    rw [emptyResponse_eq h, refusalCode_eq h]
  | some c =>
    have hc : HasCode m c := (commandOf_eq_some.mp hcmd).2
    dsimp only
    rw [relayResponse, relayResponse, fcsReply, fcsReply, comParas_eq h hc, emptyResponse_eq h,
      response_eq h]

/-- A certificate request with every reserved bit set. -/
theorem reserved_ignored_certificate :
    handleIncomingMessage ⟨⟨-1, fun _ _ => ⟨-1, -1, ⟨0, 0⟩, 0, 0, 0, 0, []⟩⟩, 0⟩
        [0x81, 0x19, 0x80, 0x10, 1, 0xff, 0xff, 0xff] []
      = handleIncomingMessage ⟨⟨-1, fun _ _ => ⟨-1, -1, ⟨0, 0⟩, 0, 0, 0, 0, []⟩⟩, 0⟩
        [0x81, 0x11, 0, 0x10, 1, 0, 0, 0] [] :=
  reserved_ignored _ _ _ [] ⟨rfl, by decide +kernel⟩

end ReservedBits

end FcsServer
