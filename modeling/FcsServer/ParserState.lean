import FcsServer.RequestGrammar

/-!
# One parser object, many messages

The object keeps the header of the last message that had one and the payload of the last message
that had the right size.  The two need not be the same message, and neither need be the last one
or have been accepted.

* `parseMessages_eq` — parsing a sequence of messages never faults;
* `headerSource`, `payloadSource` — the messages that the header and the payload come from;
* `accessors_aboutLast_iff` — they speak of the last message and of accepted messages only, unless
  one can be read after a rejected message.
-/

namespace FcsServer

open LittleEndian BitFields Utils RequestGrammar

namespace VerifierProtocol

/-- The messages, one after the other, on one object. -/
def parseMessages (vp : VerifierProtocol) : List (List UInt8) → Except Fault VerifierProtocol
  | [] => .ok vp
  | messageBuffer :: rest => do
    let (_, vp) ← vp.parseMessage messageBuffer
    parseMessages vp rest

/-- The object after parsing the messages. -/
def afterMessages (vp : VerifierProtocol) (ms : List (List UInt8)) : VerifierProtocol :=
  ms.foldl (fun vp m => (parseOutcome vp m).2) vp

theorem parseMessages_eq (vp : VerifierProtocol) (ms : List (List UInt8)) :
    vp.parseMessages ms = .ok (vp.afterMessages ms) := by
  induction ms generalizing vp with
  | nil => rfl
  | cons m ms ih =>
    rw [parseMessages, parseMessage_eq, ok_bind]
    exact ih (parseOutcome vp m).2

theorem afterMessages_snoc (vp : VerifierProtocol) (ms : List (List UInt8)) (m : List UInt8) :
    vp.afterMessages (ms ++ [m]) = (parseOutcome (vp.afterMessages ms) m).2 := by
  simp [afterMessages]

end VerifierProtocol

namespace ParserState

open VerifierProtocol

/-! ### Where the header and the payload come from -/

/-- The parser takes the payload of a message whose length field gives its size and that has
room for the reserved word, before it checks anything else. -/
def HasPayload (m : List UInt8) : Prop := Framed m ∧ payloadStart m ≤ m.length

instance (m : List UInt8) : Decidable (HasPayload m) := inferInstanceAs (Decidable (_ ∧ _))

/-- The last message that has a header. -/
def headerSource (ms : List (List UInt8)) : Option (List UInt8) :=
  ms.reverse.find? fun m => 4 ≤ m.length

/-- The last message whose payload was taken. -/
def payloadSource (ms : List (List UInt8)) : Option (List UInt8) :=
  ms.reverse.find? HasPayload

variable {ms : List (List UInt8)} {m : List UInt8} {vp : VerifierProtocol} {c : CommandCode}

theorem headerSource_snoc :
    headerSource (ms ++ [m]) = if 4 ≤ m.length then some m else headerSource ms := by
  rw [headerSource, List.reverse_concat, List.find?_cons]
  by_cases h : 4 ≤ m.length <;> simp [h, headerSource]

theorem payloadSource_snoc :
    payloadSource (ms ++ [m]) = if HasPayload m then some m else payloadSource ms := by
  rw [payloadSource, List.reverse_concat, List.find?_cons]
  by_cases h : HasPayload m <;> simp [h, payloadSource]

theorem parseOutcome_incomingHeader (vp : VerifierProtocol) (m : List UInt8) :
    (parseOutcome vp m).2.incomingHeader = if 4 ≤ m.length then headerOf m
      else vp.incomingHeader := by
  split
  · rename_i h
    exact parseOutcome_header vp h
  · rename_i h
    rw [parseOutcome, if_pos (by omega)]

theorem parseOutcome_incomingPayload (vp : VerifierProtocol) (m : List UInt8) :
    (parseOutcome vp m).2.incomingPayload = if HasPayload m then m.drop (payloadStart m)
      else vp.incomingPayload := by
  rw [parseOutcome]
  by_cases hshort : m.length < 4
  · have hnone : ¬ HasPayload m := fun h => absurd h.1.1 (by omega)
    rw [if_pos hshort, if_neg hnone]
  · rw [if_neg hshort]
    by_cases hframe : m.length ≠ 4 + 4 * lengthField m ∨ m.length < payloadStart m
    · have hnone : ¬ HasPayload m := by
        intro h
        rcases hframe with hlength | hstart
        · exact hlength h.1.2
        · exact absurd h.2 (by omega)
      rw [if_pos hframe, if_neg hnone]
    · rw [if_neg hframe]
      rw [not_or, not_not, not_lt] at hframe
      have hsome : HasPayload m := ⟨⟨by omega, hframe.1⟩, hframe.2⟩
      rw [if_pos hsome]
      split_ifs <;> rfl

/-- **The state of the object.**  Its header is that of `headerSource`, its payload that of
`payloadSource`. -/
theorem afterMessages_sources (ms : List (List UInt8)) :
    (afterMessages {} ms).incomingHeader
        = (match headerSource ms with | some m => headerOf m | none => {}) ∧
      (afterMessages {} ms).incomingPayload
        = match payloadSource ms with | some m => m.drop (payloadStart m) | none => [] := by
  induction ms using List.reverseRecOn with
  | nil => exact ⟨rfl, rfl⟩
  | append_singleton ms m ih =>
    obtain ⟨hheader, hpayload⟩ := ih
    constructor
    · rw [afterMessages_snoc, parseOutcome_incomingHeader, headerSource_snoc, hheader]
      split <;> rfl
    · rw [afterMessages_snoc, parseOutcome_incomingPayload, payloadSource_snoc, hpayload]
      split <;> rfl

/-! ### What the accessors see -/

/-- The header in force carries the code of command `c`, and the payload in force has at least
`size` bytes. -/
def Exposed (c : CommandCode) (size : ℕ) (ms : List (List UInt8)) : Prop :=
  (∃ m, headerSource ms = some m ∧ HasCode m c) ∧
    ∃ m, payloadSource ms = some m ∧ payloadStart m + size ≤ m.length

theorem exposed_iff {size : ℕ} (hc : 0 < c.value.toNat) (hsize : 0 < size) :
    Exposed c size ms ↔ (afterMessages {} ms).getCommandCode = c.value ∧
      size ≤ (afterMessages {} ms).incomingPayload.length := by
  obtain ⟨hheader, hpayload⟩ := afterMessages_sources ms
  rw [Exposed, getCommandCode, hheader, hpayload]
  refine and_congr ?_ ?_
  · cases headerSource ms with
    | none =>
      refine iff_of_false ?_ ?_
      · intro h
        obtain ⟨m, hm, -⟩ := h
        cases hm
      · intro hzero
        rw [← hzero] at hc
        exact absurd hc (by decide)
    | some m => simp [headerOf_code_eq]
  · cases payloadSource ms with
    | none =>
      refine iff_of_false ?_ ?_
      · intro h
        obtain ⟨m, hm, -⟩ := h
        cases hm
      · rw [List.length_nil]
        omega
    | some m =>
      simp only [Option.some.injEq, exists_eq_left', List.length_drop]
      omega

/-- What the accessors return is about the last message `m`, which was accepted, and is what
stands in it. -/
structure AboutLast (accepted : Bool) (vp : VerifierProtocol) (m : List UInt8) : Prop where
  sessionId : ∀ v, vp.getSigmaTeardownSessionId = .ok v →
    accepted = true ∧ HasCode m .sigmaTeardown ∧ v = wordAt m 12
  certificateRequest : ∀ v, vp.getCertificateRequest = .ok v →
    accepted = true ∧ HasCode m .getAttestationCertificate ∧ v = m.getD 4 0

/-- After an accepted message the accessors read that message. -/
theorem aboutLast_of_accepted (vp : VerifierProtocol) (h : Accepted m) :
    AboutLast (parseOutcome vp m).1 (parseOutcome vp m).2 m := by
  rw [parseOutcome_of_accepted vp h]
  constructor
  · intro v hv
    obtain ⟨hcode, -, hvalue⟩ := getSigmaTeardownSessionId_eq_ok.mp hv
    have hc : HasCode m .sigmaTeardown := headerOf_code_eq.mp hcode
    have hstart : payloadStart m = 8 := if_pos (Or.inl hc)
    refine ⟨rfl, hc, ?_⟩
    rw [hvalue, hstart, wordAt_drop]
  · intro v hv
    obtain ⟨hcode, -, hvalue⟩ := getCertificateRequest_eq_ok.mp hv
    have hc : HasCode m .getAttestationCertificate := headerOf_code_eq.mp hcode
    have hstart : payloadStart m = 4 := if_neg (not_reserved_of_certificate hc)
    refine ⟨rfl, hc, ?_⟩
    rw [hvalue, hstart, ← toUInt8_wordAt, ← toUInt8_wordAt, wordAt_drop]

/-- After a rejected message an accessor should not return anything. -/
theorem aboutLast_of_rejected_iff :
    AboutLast false vp m ↔ (∀ v, vp.getSigmaTeardownSessionId ≠ .ok v) ∧
      ∀ v, vp.getCertificateRequest ≠ .ok v := by
  constructor
  · intro h
    refine ⟨fun v hv => ?_, fun v hv => ?_⟩
    · exact Bool.false_ne_true (h.sessionId v hv).1
    · exact Bool.false_ne_true (h.certificateRequest v hv).1
  · intro h
    exact ⟨fun v hv => absurd hv (h.1 v), fun v hv => absurd hv (h.2 v)⟩

theorem sessionId_exposed_iff : Exposed .sigmaTeardown 8 ms ↔
    ∃ v, (afterMessages {} ms).getSigmaTeardownSessionId = .ok v := by
  have hcode : 0 < CommandCode.sigmaTeardown.value.toNat := by decide
  have hsize : 0 < 8 := by decide
  rw [exposed_iff hcode hsize]
  simp [getSigmaTeardownSessionId_eq_ok]

theorem certificateRequest_exposed_iff : Exposed .getAttestationCertificate 4 ms ↔
    ∃ v, (afterMessages {} ms).getCertificateRequest = .ok v := by
  have hcode : 0 < CommandCode.getAttestationCertificate.value.toNat := by decide
  have hsize : 0 < 4 := by decide
  rw [exposed_iff hcode hsize]
  simp [getCertificateRequest_eq_ok]

/-- **When the accessors speak of the last, accepted message only.**  After any messages and a
last one: exactly when the last one is accepted, or neither a teardown header with eight bytes
of payload nor a certificate header with four is in force. -/
theorem accessors_aboutLast_iff (ms : List (List UInt8)) (m : List UInt8) :
    ∃ vp accepted vp', ({} : VerifierProtocol).parseMessages ms = .ok vp ∧
      vp.parseMessage m = .ok (accepted, vp') ∧
      (AboutLast accepted vp' m ↔ Accepted m ∨
        ¬ Exposed .sigmaTeardown 8 (ms ++ [m]) ∧
          ¬ Exposed .getAttestationCertificate 4 (ms ++ [m])) := by
  refine ⟨afterMessages {} ms, (parseOutcome (afterMessages {} ms) m).1,
    (parseOutcome (afterMessages {} ms) m).2, parseMessages_eq {} ms, parseMessage_eq _ m, ?_⟩
  by_cases ha : Accepted m
  · exact iff_of_true (aboutLast_of_accepted _ ha) (Or.inl ha)
  · have hrejected : (parseOutcome (afterMessages {} ms) m).1 = false := by
      rw [← Bool.not_eq_true, parseOutcome_fst]
      exact ha
    rw [hrejected, aboutLast_of_rejected_iff, sessionId_exposed_iff, certificateRequest_exposed_iff,
      afterMessages_snoc, not_exists, not_exists]
    simp [ha]

def wrongMagic : List UInt8 :=
  [0xd5, 0x30, 0, 0x10, 0, 0, 0, 0, 0xaa, 0xbb, 0xcc, 0xdd, 0xff, 0xff, 0xff, 0xff]

/-- A teardown with a wrong magic word is rejected, and its session id can be read. -/
theorem rejected_sessionId_returned :
    ∃ ms m vp accepted vp', ({} : VerifierProtocol).parseMessages ms = .ok vp ∧
      vp.parseMessage m = .ok (accepted, vp') ∧ accepted = false ∧
      vp'.getSigmaTeardownSessionId = .ok 0xffffffff ∧ ¬ AboutLast accepted vp' m := by
  have hrejected : (parseOutcome {} wrongMagic).1 = false := by decide +kernel
  have hread : (parseOutcome {} wrongMagic).2.getSigmaTeardownSessionId = .ok 0xffffffff := by
    decide +kernel
  refine ⟨[], wrongMagic, {}, (parseOutcome {} wrongMagic).1, (parseOutcome {} wrongMagic).2,
    rfl, parseMessage_eq {} wrongMagic, hrejected, hread, ?_⟩
  intro h
  have haccepted := (h.sessionId _ hread).1
  rw [hrejected] at haccepted
  cases haccepted

end ParserState

end FcsServer
