import FcsServer.ResponseFraming

/-!
# What becomes of a device call

A device call fails, or returns a payload and a status.  The callback should answer with
nothing in the first case and with the status in the second.

* `handleIncomingMessage_returns` — no message and no driver make the callback throw;
* `emptyResponse_iff` — the response is empty exactly for failed calls, unless a failed
  certificate call finds `-1` in the status nobody assigned;
* `failure_reported_iff` — a non-zero status gives a non-zero code, unless the eleven bits of
  the code field lose it.
-/

namespace FcsServer

open LittleEndian BitFields RequestGrammar MessageHandler ResponseFraming

namespace CallOutcome

variable {env : Env} {m payload : List UInt8} {c : CommandCode} {status : Int32}

/-! ### The callback returns -/

/-- **No message makes the callback throw.**  With three stack frames or more it returns, and
further frames make no difference: the two response functions re-enter each other once. -/
theorem handleIncomingMessage_returns (frames : ℕ) (env : Env) (m responseBuffer : List UInt8) :
    (∃ r, (handleIncomingMessageWithin (frames + 3) env m responseBuffer).result = .ok r) ∧
      handleIncomingMessageWithin (frames + 3) env m responseBuffer
        = handleIncomingMessage env m responseBuffer := by
  have h := handleIncomingMessageWithin_eq env m responseBuffer (Nat.le_add_left 3 frames)
  refine ⟨⟨responseFor env m responseBuffer, ?_⟩, ?_⟩
  · rw [h]
  · rw [h, handleIncomingMessage_eq]

/-! ### Silence -/

/-- The status of a certificate call is read before its success is. -/
def UnassignedStatusRead (env : Env) (m : List UInt8) : Prop :=
  Accepted m ∧ HasCode m .getAttestationCertificate ∧
    DeviceFails env.driver m .getAttestationCertificate ∧ env.statusReturnedFromFcs = -1

theorem responseFor_nil_eq_nil_of_true (ha : Accepted m) (hc : HasCode m c)
    (h : CallReturnsTrue env m c payload status) : responseFor env m [] ≠ [] := by
  rw [responseFor_of_true [] ha hc h]
  split
  · exact frame_ne_nil
  · split
    · exact frame_ne_nil
    · exact frame_ne_nil

/-- **The response is empty exactly when the device call failed**, for every input but one
kind: a certificate call that fails while the unassigned status happens to be `-1`. -/
theorem emptyResponse_iff (env : Env) (m : List UInt8) :
    ((handleIncomingMessage env m []).result = .ok [] ↔
        ∃ c, Accepted m ∧ HasCode m c ∧ CallReturnsFalse env m c) ↔
      ¬ UnassignedStatusRead env m := by
  rw [handleIncomingMessage_eq]
  dsimp only
  rw [Except.ok.injEq]
  cases hcmd : commandOf m with
  | none =>
    have hempty : responseFor env m [] ≠ [] := by
      rw [responseFor_refused env [] hcmd]
      exact frame_ne_nil
    have hunknown : ∀ c, Accepted m → ¬ HasCode m c := by
      intro c ha hc
      rw [commandOf_eq_some.mpr ⟨ha, hc⟩] at hcmd
      cases hcmd
    have hread : ¬ UnassignedStatusRead env m := fun h => hunknown _ h.1 h.2.1
    refine iff_of_true (iff_of_false hempty ?_) hread
    intro hfailed
    obtain ⟨c, ha, hc, -⟩ := hfailed
    exact hunknown c ha hc
  | some c =>
    obtain ⟨ha, hc⟩ := commandOf_eq_some.mp hcmd
    rcases callReturns env ha hc with hfalse | ⟨payload, status, htrue⟩
    · have hfails : ∃ c, Accepted m ∧ HasCode m c ∧ CallReturnsFalse env m c :=
        ⟨c, ha, hc, hfalse⟩
      have hread : UnassignedStatusRead env m
          ↔ c = .getAttestationCertificate ∧ env.statusReturnedFromFcs = -1 := by
        constructor
        · intro hread
          obtain ⟨-, hcert, -, hstatus⟩ := hread
          exact ⟨hc.unique hcert, hstatus⟩
        · intro hstale
          obtain ⟨rfl, hstatus⟩ := hstale
          have hnone := (callReturnsFalse_iff ha hc).mp hfalse
          exact ⟨ha, hc, (fcsReply_eq_none _ _ _).mp hnone, hstatus⟩
      rw [responseFor_of_false [] ha hc hfalse, hread]
      split
      · rename_i hstale
        simp [hfails, hstale, frame_ne_nil]
      · rename_i hstale
        simp [hfails, hstale]
    · have hempty := responseFor_nil_eq_nil_of_true ha hc htrue
      obtain ⟨r, hr, -, -⟩ := (callReturnsTrue_iff ha hc).mp htrue
      have hnofail : ∀ c', HasCode m c' → ¬ CallReturnsFalse env m c' := by
        intro c' hc' hfalse
        rw [← hc.unique hc', callReturnsFalse_iff ha hc, hr] at hfalse
        cases hfalse
      have hread : ¬ UnassignedStatusRead env m := by
        intro hread
        obtain ⟨-, hcert, hfails, -⟩ := hread
        refine hnofail _ hcert ?_
        rw [callReturnsFalse_iff ha hcert]
        exact (fcsReply_eq_none _ _ _).mpr hfails
      refine iff_of_true (iff_of_false hempty ?_) hread
      intro hfailed
      obtain ⟨c', -, hc', hfalse⟩ := hfailed
      exact hnofail c' hc' hfalse

/-- A certificate request for a device that does not open, with `-1` in the status: the answer
is the header of `unknownCommand`. -/
theorem unassigned_status_answered :
    ∃ driver m, ¬ ((handleIncomingMessage ⟨driver, -1⟩ m []).result = .ok [] ↔
      ∃ c, Accepted m ∧ HasCode m c ∧ CallReturnsFalse ⟨driver, -1⟩ m c) := by
  let reply : IoctlReply := ⟨-1, -1, ⟨0, 0⟩, 0, 0, 0, 0, []⟩
  let m : List UInt8 := [0x81, 0x11, 0, 0x10, 1, 0, 0, 0]
  have ha : Accepted m := by decide +kernel
  have hc : HasCode m .getAttestationCertificate := by decide +kernel
  have hfails : DeviceFails ⟨-1, fun _ _ => reply⟩ m .getAttestationCertificate := by
    exact Or.inl (by decide)
  have hfalse : CallReturnsFalse ⟨⟨-1, fun _ _ => reply⟩, -1⟩ m .getAttestationCertificate :=
    (callReturnsFalse_iff ha hc).mpr ((fcsReply_eq_none _ _ _).mpr hfails)
  refine ⟨⟨-1, fun _ _ => reply⟩, m, ?_⟩
  intro h
  have hempty := h.mpr ⟨_, ha, hc, hfalse⟩
  rw [handleIncomingMessage_eq, responseFor_of_false [] ha hc hfalse, if_pos ⟨rfl, rfl⟩] at hempty
  exact frame_ne_nil (Except.ok.inj hempty)

/-! ### Reported statuses -/

/-- The code field shows a status as long as its low eleven bits do. -/
theorem codeField_frame_eq_zero {vp : VerifierProtocol} :
    codeField (frame vp payload status) = 0 ↔ (2048 : ℤ) ∣ status.toInt := by
  have hcode := codeField_frame vp payload status
  omega

/-- **A failed operation is reported as a failure** for every status but the non-zero multiples
of 2048 with a payload of whole words. -/
theorem failure_reported_iff (ha : Accepted m) (hc : HasCode m c)
    (h : CallReturnsTrue env m c payload status) :
    (∀ r, (handleIncomingMessage env m []).result = .ok r → codeField r = 0 → status = 0) ↔
      status = 0 ∨ ¬ (2048 : ℤ) ∣ status.toInt ∨ payload.length % 4 ≠ 0 := by
  have hgeneric : codeField (frame (afterParse m) [] ErrorCode.genericError.value) ≠ 0 := by
    rw [ne_eq, codeField_frame_eq_zero]
    decide
  have hunknown : codeField (frame (afterParse m) [] ErrorCode.unknownCommand.value) ≠ 0 := by
    rw [ne_eq, codeField_frame_eq_zero]
    decide
  rw [handleIncomingMessage_eq, responseFor_of_true [] ha hc h]
  simp only [Except.ok.injEq, forall_eq']
  split
  · rename_i hcert
    rw [hcert.2]
    exact iff_of_true (fun h0 => absurd h0 hunknown) (Or.inr (Or.inl (by decide)))
  · split
    · rename_i hw
      rw [codeField_frame_eq_zero]
      tauto
    · rename_i hw
      exact iff_of_true (fun h0 => absurd h0 hgeneric) (Or.inr (Or.inr hw))

/-- A device that opens and answers every request with a chip id and the given status. -/
def chipIdDevice (status : Int32) : Driver :=
  ⟨3, fun _ _ => ⟨0, status, ⟨0x04030201, 0x08070605⟩, 0, 0, 0, 0, []⟩⟩

def chipIdRequest : List UInt8 := [0x12, 0, 0, 0x10]

def chipIdBytes : List UInt8 := [1, 2, 3, 4, 5, 6, 7, 8]

theorem chipIdRequest_accepted : Accepted chipIdRequest ∧ HasCode chipIdRequest .getChipId := by
  decide +kernel

theorem chipIdDevice_returns (status init : Int32) :
    CallReturnsTrue ⟨chipIdDevice status, init⟩ chipIdRequest .getChipId chipIdBytes status := by
  rw [callReturnsTrue_iff chipIdRequest_accepted.1 chipIdRequest_accepted.2]
  refine ⟨_, rfl, ?_, rfl⟩
  show chipIdBytes = wordBytes 0x04030201 ++ wordBytes 0x08070605
  decide +kernel

/-- Status 7. -/
theorem failure_reported_seven :
    (∀ r, (handleIncomingMessage ⟨chipIdDevice 7, 0⟩ chipIdRequest []).result = .ok r →
      codeField r = 0 → (7 : Int32) = 0) ↔
      (7 : Int32) = 0 ∨ ¬ (2048 : ℤ) ∣ (7 : Int32).toInt ∨ chipIdBytes.length % 4 ≠ 0 :=
  failure_reported_iff chipIdRequest_accepted.1 chipIdRequest_accepted.2 (chipIdDevice_returns 7 0)

/-- Status 2048 is answered with code 0. -/
theorem failure_lost :
    ∃ env m c payload status, Accepted m ∧ HasCode m c ∧ CallReturnsTrue env m c payload status ∧
      status ≠ 0 ∧ ∃ r, (handleIncomingMessage env m []).result = .ok r ∧ r ≠ [] ∧
        codeField r = ErrorCode.noError.value.toUInt32.toNat := by
  obtain ⟨ha, hc⟩ := chipIdRequest_accepted
  have h := chipIdDevice_returns 2048 0
  refine ⟨_, _, _, _, _, ha, hc, h, by decide, ?_⟩
  refine ⟨frame (afterParse chipIdRequest) chipIdBytes 2048, ?_, frame_ne_nil, ?_⟩
  · rw [handleIncomingMessage_eq, responseFor_of_true [] ha hc h, if_neg (by decide),
      if_pos (by decide)]
  · exact codeField_frame_eq_zero.mpr (by decide)

end CallOutcome

end FcsServer
