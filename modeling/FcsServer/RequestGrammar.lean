import FcsServer.VerifierProtocol

/-!
# The grammar of requests

What `parseMessage` accepts, said on the bytes of the message alone: a header word whose
length field gives the size, and for each command the size and the magic word it needs.  The
parser's checks (words to bytes, the reserved word, the payload size table, the magic word)
are connected to it by one equation.

* `Accepted` — the grammar; `OnlyMagicWrong` — a teardown with a wrong magic word;
* `parseMessage_eq` — the parser never faults, and its result is `parseOutcome`;
* `parseMessage_grammar` — it accepts the grammar, keeps the right payload, and classifies
  every rejection.
-/

namespace FcsServer

open LittleEndian BitFields Utils

namespace RequestGrammar

/-- Bits 12..22 of the first word: the number of words after the header. -/
def lengthField (m : List UInt8) : ℕ := field (wordAt m 0) 12 11

/-- Bits 0..10 of the first word. -/
def codeField (m : List UInt8) : ℕ := field (wordAt m 0) 0 11

/-- The message carries the code of command `c`. -/
def HasCode (m : List UInt8) (c : CommandCode) : Prop := codeField m = c.value.toNat

instance (m : List UInt8) (c : CommandCode) : Decidable (HasCode m c) :=
  inferInstanceAs (Decidable (codeField m = c.value.toNat))

/-- The commands whose payload starts with a reserved word. -/
def HasReservedWord (m : List UInt8) : Prop :=
  HasCode m .sigmaTeardown ∨ HasCode m .createAttestationSubKey ∨ HasCode m .getMeasurement

instance (m : List UInt8) : Decidable (HasReservedWord m) :=
  inferInstanceAs (Decidable (_ ∨ _ ∨ _))

/-- The commands without a payload. -/
def IsBare (m : List UInt8) : Prop :=
  HasCode m .getChipId ∨ HasCode m .getIdCode ∨ HasCode m .getDeviceIdentity

instance (m : List UInt8) : Decidable (IsBare m) := inferInstanceAs (Decidable (_ ∨ _ ∨ _))

/-- The length field gives the size of the message. -/
def Framed (m : List UInt8) : Prop := 4 ≤ m.length ∧ m.length = 4 + 4 * lengthField m

instance (m : List UInt8) : Decidable (Framed m) := inferInstanceAs (Decidable (_ ∧ _))

/-- The first byte of the payload. -/
def payloadStart (m : List UInt8) : ℕ := if HasReservedWord m then 8 else 4

/-- **The request grammar.** -/
structure Accepted (m : List UInt8) : Prop where
  framed : Framed m
  teardown : HasCode m .sigmaTeardown →
    m.length = 16 ∧ wordAt m 8 = VerifierProtocol.sigmaTeardownMagic
  reserved : HasCode m .createAttestationSubKey ∨ HasCode m .getMeasurement → 8 ≤ m.length
  certificate : HasCode m .getAttestationCertificate → m.length = 8
  bare : IsBare m → m.length = 4

/-- A teardown request that is right in everything but the magic word. -/
structure OnlyMagicWrong (m : List UInt8) : Prop where
  code : HasCode m .sigmaTeardown
  framed : m.length = 4 + 4 * lengthField m
  size : m.length = 16
  magic : wordAt m 8 ≠ VerifierProtocol.sigmaTeardownMagic

/-- The command takes a payload of one size, and the message has another. -/
def SizeWrong (m : List UInt8) : Prop :=
  HasCode m .sigmaTeardown ∧ m.length ≠ 16 ∨ HasCode m .getAttestationCertificate ∧ m.length ≠ 8
    ∨ IsBare m ∧ m.length ≠ 4

instance (m : List UInt8) : Decidable (SizeWrong m) := inferInstanceAs (Decidable (_ ∨ _ ∨ _))

def MagicWrong (m : List UInt8) : Prop :=
  HasCode m .sigmaTeardown ∧ wordAt m 8 ≠ VerifierProtocol.sigmaTeardownMagic

instance (m : List UInt8) : Decidable (MagicWrong m) := inferInstanceAs (Decidable (_ ∧ _))

/-- The header the parser reads off a message. -/
def headerOf (m : List UInt8) : CommandHeader := CommandHeader.fromUint32 (wordAt m 0)

/-! ### Codes -/

theorem HasCode.unique {m : List UInt8} {c c' : CommandCode} (h : HasCode m c)
    (h' : HasCode m c') : c = c' :=
  CommandCode.value_injective (UInt32.toNat_inj.mp (h.symm.trans h'))

/-- Comparing the decoded code with an enumerator is comparing the code field. -/
theorem headerOf_code_eq {m : List UInt8} {c : CommandCode} :
    (headerOf m).code.toUInt32 = c.value ↔ HasCode m c := by
  rw [← UInt32.toNat_inj, UInt16.toNat_toUInt32, headerOf,
    (CommandHeader.fromUint32_fields (wordAt m 0)).code]
  rfl

theorem headerOf_length (m : List UInt8) : (headerOf m).length.toNat = lengthField m :=
  (CommandHeader.fromUint32_fields (wordAt m 0)).length

/-- A bare command and the certificate request have no reserved word. -/
theorem not_reserved_of_bare {m : List UInt8} (h : IsBare m) : ¬ HasReservedWord m := by
  intro hreserved
  rcases hreserved with hr | hr | hr <;> rcases h with h | h | h <;> cases h.unique hr

theorem not_reserved_of_certificate {m : List UInt8} (h : HasCode m .getAttestationCertificate) :
    ¬ HasReservedWord m := by
  intro hreserved
  rcases hreserved with hr | hr | hr <;> cases h.unique hr

/-! ### The checks of the parser -/

open VerifierProtocol

variable {vp : VerifierProtocol} {m : List UInt8}

theorem getPayloadOffset_eq (hh : vp.incomingHeader = headerOf m) :
    vp.getPayloadOffset = payloadStart m := by
  simp only [getPayloadOffset, getCommandCode, hh, headerOf_code_eq]
  by_cases h : HasReservedWord m
  · rw [payloadStart, if_pos h]
    exact congrArg (4 + ·) (if_pos h)
  · rw [payloadStart, if_neg h]
    exact congrArg (4 + ·) (if_neg h)

theorem lookup_cons_ite {α : Type*} (code k : UInt32) (v : α) (l : List (UInt32 × α)) :
    List.lookup code ((k, v) :: l) = if code = k then some v else List.lookup code l := by
  rw [List.lookup_cons]
  by_cases h : code = k
  · rw [if_pos h, beq_iff_eq.mpr h]
  · rw [if_neg h, beq_false_of_ne h]

/-- The payload size table, one command at a time. -/
theorem lookup_payloadSizeMap (code : UInt32) :
    payloadSizeMap.lookup code
      = if code = CommandCode.sigmaTeardown.value then some 8
        else if code = CommandCode.getAttestationCertificate.value then some 4
        else if code = CommandCode.getChipId.value ∨ code = CommandCode.getIdCode.value
          ∨ code = CommandCode.getDeviceIdentity.value then some 0
        else none := by
  simp only [payloadSizeMap, lookup_cons_ite, List.lookup_nil]
  split_ifs <;> first | rfl | tauto

/-- The size check, on the size of the whole message. -/
theorem isPayloadSizeCorrect_eq (hh : vp.incomingHeader = headerOf m)
    (hp : vp.incomingPayload = m.drop (payloadStart m)) (hs : payloadStart m ≤ m.length) :
    vp.isPayloadSizeCorrect
      = if SizeWrong m then (false, { vp with errorCode := .invalidHeader }) else (true, vp) := by
  have hsize : vp.incomingPayload.length = m.length - payloadStart m := by
    rw [hp, List.length_drop]
  rw [isPayloadSizeCorrect, lookup_payloadSizeMap, getCommandCode, hh]
  simp only [headerOf_code_eq, hsize]
  by_cases hsig : HasCode m .sigmaTeardown
  · have hstart : payloadStart m = 8 := if_pos (Or.inl hsig)
    have hncert : ¬ HasCode m .getAttestationCertificate := fun h => by cases h.unique hsig
    have hnbare : ¬ IsBare m := fun h => not_reserved_of_bare h (Or.inl hsig)
    have hwrong : SizeWrong m ↔ 8 ≠ m.length - 8 := by
      simp only [SizeWrong, hsig, hncert, hnbare, true_and, false_and, or_false]
      omega
    simp only [hsig, if_true, hstart, hwrong]
  · by_cases hcert : HasCode m .getAttestationCertificate
    · have hstart : payloadStart m = 4 := if_neg (not_reserved_of_certificate hcert)
      have hnbare : ¬ IsBare m := by
        intro hbare
        rcases hbare with h | h | h <;> cases h.unique hcert
      have hwrong : SizeWrong m ↔ 4 ≠ m.length - 4 := by
        simp only [SizeWrong, hsig, hcert, hnbare, true_and, false_and, or_false, false_or]
        omega
      simp only [hsig, hcert, if_true, if_false, hstart, hwrong]
    · by_cases hbare : IsBare m
      · have hstart : payloadStart m = 4 := if_neg (not_reserved_of_bare hbare)
        have hwrong : SizeWrong m ↔ 0 ≠ m.length - 4 := by
          simp only [SizeWrong, hsig, hcert, hbare, true_and, false_and, false_or]
          omega
        have hbare' := hbare
        rw [IsBare] at hbare'
        simp only [hsig, hcert, hbare', if_true, if_false, hstart, hwrong]
      · have hwrong : ¬ SizeWrong m := by
          simp only [SizeWrong, hsig, hcert, hbare, false_and, or_false, not_false_eq_true]
        have hbare' := hbare
        rw [IsBare] at hbare'
        simp only [hsig, hcert, hbare', hwrong, if_false]

/-- The magic word sits after the reserved word: bytes 8..11 of the message. -/
theorem isMagicWordCorrect_eq (hh : vp.incomingHeader = headerOf m)
    (hp : vp.incomingPayload = m.drop (payloadStart m)) (hok : ¬ SizeWrong m) :
    vp.isMagicWordCorrect
      = .ok (if MagicWrong m then (false, { vp with errorCode := .invalidMagic })
        else (true, vp)) := by
  rw [isMagicWordCorrect, getCommandCode, hh]
  simp only [headerOf_code_eq]
  by_cases hsig : HasCode m .sigmaTeardown
  · have hstart : payloadStart m = 8 := if_pos (Or.inl hsig)
    have hlen : m.length = 16 := not_not.mp fun hne => hok (Or.inl ⟨hsig, hne⟩)
    have hmagic : decodeFromLittleEndianBuffer vp.incomingPayload 0 = .ok (wordAt m 8) := by
      rw [decodeFromLittleEndianBuffer_eq (o := 0) rfl _ (by decide), hp, hstart, wordAt_drop]
      rw [hp, hstart, List.length_drop]
      omega
    simp only [hsig, if_true, hmagic, ok_bind, MagicWrong, true_and]
    split <;> rfl
  · simp only [hsig, MagicWrong, false_and, if_false]
    rfl

/-- What the parser decides, and the state it leaves. -/
def parseOutcome (vp : VerifierProtocol) (m : List UInt8) : Bool × VerifierProtocol :=
  if m.length < 4 then
    (false, { vp with errorCode := .invalidHeader })
  else if m.length ≠ 4 + 4 * lengthField m ∨ m.length < payloadStart m then
    (false, { vp with incomingHeader := headerOf m, errorCode := .invalidHeader })
  else if SizeWrong m then
    (false, ⟨m.drop (payloadStart m), headerOf m, .invalidHeader⟩)
  else if MagicWrong m then
    (false, ⟨m.drop (payloadStart m), headerOf m, .invalidMagic⟩)
  else
    (true, ⟨m.drop (payloadStart m), headerOf m, .noError⟩)

/-- **The parser never faults.** -/
theorem parseMessage_eq (vp : VerifierProtocol) (m : List UInt8) :
    vp.parseMessage m = .ok (parseOutcome vp m) := by
  rw [parseMessage, parseOutcome, CommandHeader.getRequiredSize_eq]
  by_cases hshort : m.length < 4
  · rw [if_pos hshort, if_pos hshort]
    rfl
  · rw [if_neg hshort, if_neg hshort, CommandHeader.parse_eq (Nat.le_of_not_lt hshort), ok_bind]
    show (if m.length - 4 ≠ (headerOf m).length.toNat * wordSize.toNat then _ else _) = _
    rw [headerOf_length, toNat_wordSize]
    by_cases hframe : m.length = 4 + 4 * lengthField m
    · rw [if_neg (by omega), getPayloadOffset_eq (m := m) rfl]
      by_cases hstart : m.length < payloadStart m
      · rw [if_pos hstart, if_pos (Or.inr hstart)]
        rfl
      · rw [if_neg hstart, if_neg (by omega), suffixFrom, if_pos (by omega), ok_bind]
        dsimp only
        rw [isPayloadSizeCorrect_eq (m := m) rfl rfl (by omega)]
        by_cases hsize : SizeWrong m
        · simp only [hsize, if_true]
          rfl
        · simp only [hsize, if_false]
          rw [if_neg (by decide), isMagicWordCorrect_eq (m := m) rfl rfl hsize, ok_bind]
          by_cases hmagic : MagicWrong m
          · simp only [hmagic, if_true]
            rfl
          · simp only [hmagic, if_false]
            rfl
    · rw [if_pos (by omega), if_pos (Or.inl hframe)]
      rfl

/-! ### The grammar and the parser -/

/-- The grammar, check by check in the parser's order. -/
theorem accepted_iff : Accepted m ↔ ¬ m.length < 4 ∧ m.length = 4 + 4 * lengthField m
    ∧ ¬ m.length < payloadStart m ∧ ¬ SizeWrong m ∧ ¬ MagicWrong m := by
  constructor
  · intro h
    have hlen := h.framed.1
    refine ⟨by omega, h.framed.2, ?_, ?_, ?_⟩
    · rw [payloadStart]
      split
      · rename_i hr
        rcases hr with hr | hr
        · have hsize := (h.teardown hr).1
          omega
        · have hsize := h.reserved hr
          omega
      · omega
    · intro hwrong
      rcases hwrong with ⟨hc, hne⟩ | ⟨hc, hne⟩ | ⟨hc, hne⟩
      · exact hne (h.teardown hc).1
      · exact hne (h.certificate hc)
      · exact hne (h.bare hc)
    · intro hwrong
      obtain ⟨hc, hne⟩ := hwrong
      exact hne (h.teardown hc).2
  · intro hchecks
    obtain ⟨hlen, hframe, hstart, hsize, hmagic⟩ := hchecks
    refine ⟨⟨by omega, hframe⟩, fun hc => ⟨?_, ?_⟩, fun hc => ?_, fun hc => ?_, fun hc => ?_⟩
    · exact not_not.mp fun hne => hsize (Or.inl ⟨hc, hne⟩)
    · exact not_not.mp fun hne => hmagic ⟨hc, hne⟩
    · have h8 : payloadStart m = 8 := if_pos (Or.inr hc)
      omega
    · exact not_not.mp fun hne => hsize (Or.inr (Or.inl ⟨hc, hne⟩))
    · exact not_not.mp fun hne => hsize (Or.inr (Or.inr ⟨hc, hne⟩))

theorem onlyMagicWrong_iff : OnlyMagicWrong m ↔ ¬ m.length < 4
    ∧ m.length = 4 + 4 * lengthField m ∧ ¬ m.length < payloadStart m ∧ ¬ SizeWrong m
    ∧ MagicWrong m := by
  constructor
  · intro h
    have hsize := h.size
    have hstart : payloadStart m = 8 := if_pos (Or.inl h.code)
    refine ⟨by omega, h.framed, by omega, ?_, h.code, h.magic⟩
    intro hwrong
    rcases hwrong with ⟨-, hne⟩ | ⟨hc, -⟩ | ⟨hc, -⟩
    · exact hne hsize
    · cases hc.unique h.code
    · exact not_reserved_of_bare hc (Or.inl h.code)
  · intro hchecks
    obtain ⟨-, hframe, -, hsize, hc, hmagic⟩ := hchecks
    exact ⟨hc, hframe, not_not.mp fun hne => hsize (Or.inl ⟨hc, hne⟩), hmagic⟩

instance (m : List UInt8) : Decidable (Accepted m) := decidable_of_iff' _ accepted_iff

/-- An accepted message: the payload after the reserved word, and no error. -/
theorem parseOutcome_of_accepted (vp : VerifierProtocol) (h : Accepted m) :
    parseOutcome vp m = (true, ⟨m.drop (payloadStart m), headerOf m, .noError⟩) := by
  obtain ⟨hlen, hframe, hstart, hsize, hmagic⟩ := accepted_iff.mp h
  rw [parseOutcome, if_neg hlen, if_neg (not_or.mpr ⟨not_not.mpr hframe, hstart⟩), if_neg hsize,
    if_neg hmagic]

theorem parseOutcome_of_onlyMagicWrong (vp : VerifierProtocol) (h : OnlyMagicWrong m) :
    parseOutcome vp m = (false, ⟨m.drop (payloadStart m), headerOf m, .invalidMagic⟩) := by
  obtain ⟨hlen, hframe, hstart, hsize, hmagic⟩ := onlyMagicWrong_iff.mp h
  rw [parseOutcome, if_neg hlen, if_neg (not_or.mpr ⟨not_not.mpr hframe, hstart⟩), if_neg hsize,
    if_pos hmagic]

/-- Every other message is rejected with `invalidHeader`. -/
theorem parseOutcome_of_rejected (vp : VerifierProtocol) (h : ¬ Accepted m)
    (hm : ¬ OnlyMagicWrong m) :
    (parseOutcome vp m).1 = false ∧ (parseOutcome vp m).2.errorCode = .invalidHeader := by
  rw [accepted_iff] at h
  rw [onlyMagicWrong_iff] at hm
  rw [parseOutcome]
  split_ifs with hlen hframe hsize hmagic
  · exact ⟨rfl, rfl⟩
  · exact ⟨rfl, rfl⟩
  · exact ⟨rfl, rfl⟩
  · rw [not_or, not_not] at hframe
    exact absurd ⟨hlen, hframe.1, hframe.2, hsize, hmagic⟩ hm
  · rw [not_or, not_not] at hframe
    exact absurd ⟨hlen, hframe.1, hframe.2, hsize, hmagic⟩ h

theorem parseOutcome_fst (vp : VerifierProtocol) :
    (parseOutcome vp m).1 = true ↔ Accepted m := by
  constructor
  · intro h
    by_contra hna
    by_cases hm : OnlyMagicWrong m
    · rw [parseOutcome_of_onlyMagicWrong vp hm] at h
      cases h
    · rw [(parseOutcome_of_rejected vp hna hm).1] at h
      cases h
  · intro h
    rw [parseOutcome_of_accepted vp h]

/-- A message with a header leaves that header in the object, accepted or not. -/
theorem parseOutcome_header (vp : VerifierProtocol) (h : 4 ≤ m.length) :
    (parseOutcome vp m).2.incomingHeader = headerOf m := by
  rw [parseOutcome, if_neg (by omega)]
  split_ifs <;> rfl

/-- **The parser accepts exactly the request grammar and classifies every rejection.** -/
theorem parseMessage_grammar (vp : VerifierProtocol) (m : List UInt8) :
    ∃ accepted vp', vp.parseMessage m = .ok (accepted, vp') ∧
      (accepted = true ↔ Accepted m) ∧
      (accepted = true → vp'.errorCode = .noError ∧ vp'.getCommandCode.toNat = codeField m ∧
        vp'.incomingPayload = m.drop (payloadStart m)) ∧
      (accepted = false → (vp'.errorCode = .invalidMagic ↔ OnlyMagicWrong m) ∧
        (vp'.errorCode = .invalidHeader ↔ ¬ OnlyMagicWrong m)) := by
  refine ⟨(parseOutcome vp m).1, (parseOutcome vp m).2, parseMessage_eq vp m,
    parseOutcome_fst vp, ?_, ?_⟩
  · intro h
    rw [parseOutcome_of_accepted vp ((parseOutcome_fst vp).mp h)]
    refine ⟨rfl, ?_, rfl⟩
    show (headerOf m).code.toUInt32.toNat = codeField m
    rw [UInt16.toNat_toUInt32]
    exact (CommandHeader.fromUint32_fields (wordAt m 0)).code
  · intro h
    by_cases hm : OnlyMagicWrong m
    · rw [parseOutcome_of_onlyMagicWrong vp hm]
      simp [hm]
    · have hna : ¬ Accepted m := by
        rw [← parseOutcome_fst vp, h]
        exact Bool.false_ne_true
      rw [(parseOutcome_of_rejected vp hna hm).2]
      simp [hm]

/-- A teardown with a wrong magic word. -/
example : (parseOutcome {} [0xd5, 0x30, 0, 0x10, 0, 0, 0, 0, 0xaa, 0xbb, 0xcc, 0xdd,
    0xff, 0xff, 0xff, 0xff]).2.errorCode = .invalidMagic := by decide +kernel

end RequestGrammar

end FcsServer
