import FcsServer.ParserState
import FcsServer.ResponseFraming

/-!
# Framing any payload

The encoder counts the words of the payload in eleven bits of the header and copies the payload
whole.  The callback never has more than a page to frame; the method itself takes any payload.

* `Frames` — a vector that decodes to the header of the request over the payload;
* `incomingHeader_narrow` — the object never holds a client or an id of more than four bits;
* `payload_framed_iff` — a payload is framed, or refused, unless it is made of 2048 words or
  more.
-/

namespace FcsServer

open LittleEndian BitFields RequestGrammar VerifierProtocol ResponseFraming

namespace PayloadFraming

/-- `r` decodes to a header with the client and id of the request and the size of `r`, over the
payload; a payload that is not made of whole words is answered with `genericError` alone. -/
structure Frames (vp : VerifierProtocol) (payload r : List UInt8) : Prop where
  header : ∃ h, CommandHeader.parse r = .ok h ∧ h.client = vp.incomingHeader.client ∧
    h.id = vp.incomingHeader.id ∧ h.res1 = 0 ∧ h.res2 = 0 ∧
    r.length = 4 + 4 * h.length.toNat ∧
    (payload.length % 4 ≠ 0 → h.code.toNat = ErrorCode.genericError.value.toInt)
  words : payload.length % 4 = 0 → r.drop 4 = payload
  refused : payload.length % 4 ≠ 0 → r.length = 4

variable {vp : VerifierProtocol} {payload : List UInt8} {returnCode : Int32}

/-- The client and the id come from a decoded word, or are zero. -/
theorem incomingHeader_narrow (ms : List (List UInt8)) :
    (afterMessages {} ms).incomingHeader.client.toNat < 2 ^ 4 ∧
      (afterMessages {} ms).incomingHeader.id.toNat < 2 ^ 4 := by
  rw [(ParserState.afterMessages_sources ms).1]
  cases ParserState.headerSource ms with
  | none => exact ⟨by decide, by decide⟩
  | some m =>
    have hfields := CommandHeader.fromUint32_fields (wordAt m 0)
    constructor
    · show (CommandHeader.fromUint32 (wordAt m 0)).client.toNat < _
      rw [hfields.client]
      exact field_lt _ _ _
    · show (CommandHeader.fromUint32 (wordAt m 0)).id.toNat < _
      rw [hfields.id]
      exact field_lt _ _ _

/-- A frame decodes to the reduced fields of its header. -/
theorem parse_frame (vp : VerifierProtocol) (payload : List UInt8) (returnCode : Int32) :
    CommandHeader.parse (frame vp payload returnCode)
      = .ok (vp.outgoingHeader payload.length returnCode).reduced := by
  have hlen : CommandHeader.getRequiredSize ≤ (frame vp payload returnCode).length := by
    rw [length_frame, CommandHeader.getRequiredSize_eq]
    omega
  rw [CommandHeader.parse_eq hlen, frame, wordAt_wordBytes_append,
    CommandHeader.fromUint32_toUint32]

/-- The length field counts words modulo `2 ^ 11`. -/
theorem reduced_length (vp : VerifierProtocol) (n : ℕ) (returnCode : Int32) :
    (vp.outgoingHeader n returnCode).reduced.length.toNat = n / 4 % 2 ^ 11 := by
  show (UInt16.ofNat (n / 4) % 2048).toNat = _
  rw [UInt16.toNat_mod, UInt16.toNat_ofNat']
  show n / 4 % 2 ^ 16 % 2 ^ 11 = _
  omega

theorem reduced_client (h : vp.incomingHeader.client.toNat < 2 ^ 4) (n : ℕ) :
    (vp.outgoingHeader n returnCode).reduced.client = vp.incomingHeader.client := by
  apply UInt8.toNat_inj.mp
  show (vp.incomingHeader.client % 16).toNat = _
  rw [UInt8.toNat_mod]
  exact Nat.mod_eq_of_lt h

theorem reduced_id (h : vp.incomingHeader.id.toNat < 2 ^ 4) (n : ℕ) :
    (vp.outgoingHeader n returnCode).reduced.id = vp.incomingHeader.id := by
  apply UInt8.toNat_inj.mp
  show (vp.incomingHeader.id % 16).toNat = _
  rw [UInt8.toNat_mod]
  exact Nat.mod_eq_of_lt h

/-- **Which payloads are framed.**  In every state the parser can leave, for every payload, return
code and buffer: those that are not made of whole words, which are refused, and those of at most
2047 words. -/
theorem payload_framed_iff (ms : List (List UInt8)) (payload responseBuffer : List UInt8)
    (returnCode : Int32) :
    ∃ vp r, ({} : VerifierProtocol).parseMessages ms = .ok vp ∧
      vp.prepareResponseMessage 3 payload responseBuffer returnCode = .ok r ∧
      (Frames vp payload r ↔ payload.length % 4 ≠ 0 ∨ payload.length < 4 * 2 ^ 11) := by
  obtain ⟨hclient, hid⟩ := incomingHeader_narrow ms
  refine ⟨afterMessages {} ms, (afterMessages {} ms).response payload returnCode,
    parseMessages_eq {} ms, prepareResponseMessage_eq _ _ _ _ le_rfl, ?_⟩
  rw [response_eq_frame]
  by_cases hw : payload.length % 4 = 0
  · rw [if_pos hw]
    constructor
    · intro hframes
      obtain ⟨h, hparse, -, -, -, -, hlength, -⟩ := hframes.header
      rw [parse_frame, Except.ok.injEq] at hparse
      rw [← hparse, reduced_length, length_frame] at hlength
      right
      omega
    · intro hsize
      have hshort := hsize.resolve_left (not_not.mpr hw)
      refine ⟨⟨_, parse_frame _ _ _, reduced_client hclient _, reduced_id hid _, rfl, rfl, ?_,
        fun hne => absurd hw hne⟩, fun _ => drop_frame, fun hne => absurd hw hne⟩
      rw [reduced_length, length_frame]
      omega
  · rw [if_neg hw]
    refine iff_of_true ?_ (Or.inl hw)
    refine ⟨⟨_, parse_frame _ _ _, reduced_client hclient _, reduced_id hid _, rfl, rfl, ?_, ?_⟩,
      fun heq => absurd heq hw, fun _ => length_frame⟩
    · rw [reduced_length, length_frame]
      rfl
    · intro _
      rfl

/-- With 2048 words the header says that nothing follows it. -/
theorem long_payload_misframed :
    ∃ ms payload vp r, ({} : VerifierProtocol).parseMessages ms = .ok vp ∧
      vp.prepareResponseMessage 3 payload [] 0 = .ok r ∧
      payload.length = 4 * 2 ^ 11 ∧ payload.length % 4 = 0 ∧ ¬ Frames vp payload r := by
  have hlen : (List.replicate (4 * 2 ^ 11) (0 : UInt8)).length = 4 * 2 ^ 11 :=
    List.length_replicate
  have hw : (List.replicate (4 * 2 ^ 11) (0 : UInt8)).length % 4 = 0 := by
    rw [hlen]
    exact Nat.mul_mod_right 4 _
  refine ⟨[[0x12, 0, 0, 0x10]], List.replicate (4 * 2 ^ 11) 0, _, _, parseMessages_eq _ _,
    prepareResponseMessage_eq _ _ _ _ le_rfl, hlen, hw, ?_⟩
  intro hframes
  obtain ⟨h, hparse, -, -, -, -, hlength, -⟩ := hframes.header
  rw [response_eq_frame, if_pos hw] at hparse hlength
  rw [parse_frame, Except.ok.injEq] at hparse
  rw [← hparse, reduced_length, length_frame, hlen] at hlength
  omega

end PayloadFraming

end FcsServer
