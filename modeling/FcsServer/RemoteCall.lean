import FcsServer.ClientSession

/-!
# Remote calls and local calls

A program that is linked with the filter calls the functions of `FcsCommunication`; a client of the
server sends a request and reads a response.  The device may fail here, in any way and at any time.

* `Request.call` — the function that a request stands for, called with the request's arguments;
* `callFcs_encode` — the callback makes that very call;
* `told` — what a client reads of the result; `seen_response`;
* `States` / `remote_call_iff` — when the response states literally what the function returned;
* `session_calls` — the stream of a connection, from the results of its calls.
-/

namespace FcsServer

open LittleEndian RequestGrammar TcpServer MessageHandler RequestEncoding StreamFraming
  ResponseDelivery ClientSession

/-- The function of `FcsCommunication` with the arguments of the request and an empty buffer. -/
def RequestEncoding.Request.call (driver : Driver) (fcsStatus : Int32) :
    Request → Proc FcsCommunication.CallResult
  | .getIdCode =>
    FcsCommunication.mailboxGeneric driver CommandCode.getIdCode.value [] [] fcsStatus
  | .getChipId => FcsCommunication.getChipId driver [] fcsStatus
  | .sigmaTeardown sessionId => do
    let (fcsCallSucceeded, status) ← FcsCommunication.sigmaTeardown driver sessionId fcsStatus
    return (fcsCallSucceeded, [], status)
  | .getAttestationCertificate certificateRequest =>
    FcsCommunication.getAttestationCertificate driver certificateRequest [] fcsStatus
  | .createAttestationSubKey data =>
    FcsCommunication.createAttestationSubkey driver data.bytes [] fcsStatus
  | .getMeasurement data => FcsCommunication.getMeasurement driver data.bytes [] fcsStatus
  | .mctp data =>
    FcsCommunication.mailboxGeneric driver CommandCode.mctp.value data.bytes [] fcsStatus
  | .getDeviceIdentity =>
    FcsCommunication.mailboxGeneric driver CommandCode.getDeviceIdentity.value [] [] fcsStatus

namespace RemoteCall

variable {env : Env} {tag : Tag} {q : Request} {response : List UInt8}
  {result : FcsCommunication.CallResult}

/-! ### The call -/

/-- The payload after the header, for a request without a reserved word. -/
theorem payload_encode (h : ¬ HasReservedWord (encode tag q)) :
    (parsed (encode tag q)).incomingPayload = q.body := by
  rw [parsed, payloadStart, if_neg h]
  show (encode tag q).drop 4 = q.body
  exact drop_encode

/-- The payload after the reserved word. -/
theorem payload_encode_reserved {data : List UInt8} (h : HasReservedWord (encode tag q))
    (hbody : q.body = wordBytes 0 ++ data) :
    (parsed (encode tag q)).incomingPayload = data := by
  rw [parsed, payloadStart, if_pos h]
  show (encode tag q).drop 8 = data
  exact drop_eight_encode hbody

/-- **The callback makes the call that the request stands for.** -/
theorem callFcs_encode (env : Env) (tag : Tag) (q : Request) :
    callFcs env (parsed (encode tag q)) [] q.command
      = q.call env.driver env.statusReturnedFromFcs := by
  have ha := accepted_encode tag q
  have hc := hasCode_encode tag q
  have hcode := getCommandCode_parsed hc
  have hrequest := (decode_eq_some.mp (decode_encode tag q)).2.2.2
  cases q with
  | getIdCode =>
    have hbare := not_reserved_of_bare (Or.inr (Or.inl hc))
    rw [Request.command, callFcs, hcode, payload_encode hbare]
    rfl
  | getChipId => rfl
  | sigmaTeardown sessionId =>
    have hsession : wordAt (encode tag (.sigmaTeardown sessionId)) 12 = sessionId :=
      Request.sigmaTeardown.inj (Option.some.inj hrequest)
    rw [Request.command, callFcs, getSigmaTeardownSessionId_parsed ha hc, hsession, lift_ok,
      Traced.mk_nil_bind]
    rfl
  | getAttestationCertificate certificateRequest =>
    have hbyte : (encode tag (.getAttestationCertificate certificateRequest)).getD 4 0
        = certificateRequest :=
      Request.getAttestationCertificate.inj (Option.some.inj hrequest)
    rw [Request.command, callFcs, getCertificateRequest_parsed ha hc, hbyte, lift_ok,
      Traced.mk_nil_bind]
    rfl
  | createAttestationSubKey data =>
    rw [Request.command, callFcs, payload_encode_reserved (Or.inr (Or.inl hc)) rfl]
    rfl
  | getMeasurement data =>
    rw [Request.command, callFcs, payload_encode_reserved (Or.inr (Or.inr hc)) rfl]
    rfl
  | mctp data =>
    have hplain : ¬ HasReservedWord (encode tag (.mctp data)) := by
      intro hreserved
      rcases hreserved with hr | hr | hr <;> cases hr.unique hc
    rw [Request.command, callFcs, hcode, payload_encode hplain]
    rfl
  | getDeviceIdentity =>
    have hbare := not_reserved_of_bare (Or.inr (Or.inr hc))
    rw [Request.command, callFcs, hcode, payload_encode hbare]
    rfl

/-- One attempt at the device, and what comes of it. -/
theorem call_eq (driver : Driver) (fcsStatus : Int32) (q : Request) :
    ∃ grown, q.call driver fcsStatus
      = ⟨FcsCommunication.deviceCalls driver (devCommand q.command)
          (FcsCommunication.submitted q.comParas),
        .ok (match fcsReplyTo driver q with
          | none => (false, grown, fcsStatus)
          | some r => (true, rspPayload r q.command, r.status))⟩ := by
  have hdecode := decode_encode ⟨0, 0⟩ q
  obtain ⟨grown, hcall⟩ :=
    callFcs_eq ⟨driver, fcsStatus⟩ (accepted_encode ⟨0, 0⟩ q) (hasCode_encode ⟨0, 0⟩ q)
  rw [callFcs_encode, comParas_of_decode hdecode, fcsReply_of_decode hdecode] at hcall
  exact ⟨grown, hcall⟩

theorem call_returns (driver : Driver) (fcsStatus : Int32) (q : Request) :
    ∃ result, (q.call driver fcsStatus).result = .ok result := by
  obtain ⟨grown, hcall⟩ := call_eq driver fcsStatus q
  rw [hcall]
  exact ⟨_, rfl⟩

/-! ### The response -/

/-- What a client reads: an empty response is not sent, and the connection is closed. -/
def seen (response : List UInt8) : Option Reply :=
  if response = [] then none else some (replyOf response)

/-- What the response to a request says of the result: the status of a certificate call is looked
at before its success is. -/
def told (tag : Tag) (q : Request) (result : FcsCommunication.CallResult) : Option Reply :=
  let (fcsCallSucceeded, payload, status) := result
  if q.command = .getAttestationCertificate ∧ status = -1 then some ⟨tag, 3, []⟩
  else if ¬ fcsCallSucceeded then none
  else if payload.length % 4 = 0 then some ⟨tag, (status.toInt % 2 ^ 11).toNat, payload⟩
  else some ⟨tag, 1, []⟩

theorem seen_respond (payload : List UInt8) (returnCode : Int32) :
    seen (respond tag payload returnCode)
      = some ⟨tag, (returnCode.toInt % 2 ^ 11).toNat, payload⟩ := by
  have hne : respond tag payload returnCode ≠ [] := ResponseFraming.frame_ne_nil
  rw [seen, if_neg hne, replyOf_respond]

/-- **The response to a request is told by the result of the call.** -/
theorem seen_response (h : (handleIncomingMessage env (encode tag q) []).result = .ok response)
    (hresult : (q.call env.driver env.statusReturnedFromFcs).result = .ok result) :
    seen response = told tag q result := by
  obtain ⟨grown, hcall⟩ := call_eq env.driver env.statusReturnedFromFcs q
  rw [hcall, Except.ok.injEq] at hresult
  rw [handle_of_decode (decode_encode tag q), Except.ok.injEq] at h
  rw [← h, ← hresult, answered]
  cases fcsReplyTo env.driver q with
  | none =>
    dsimp only
    rw [told]
    split
    · exact seen_respond [] _
    · rfl
  | some r =>
    dsimp only
    rw [told, replied]
    by_cases hcert : q.command = .getAttestationCertificate ∧ r.status = -1
    · rw [if_pos hcert, if_pos hcert]
      exact seen_respond [] _
    · rw [if_neg hcert, if_neg hcert, if_neg (not_not.mpr rfl)]
      by_cases hw : (rspPayload r q.command).length % 4 = 0
      · rw [if_pos hw, if_pos hw]
        exact seen_respond _ _
      · rw [if_neg hw, if_neg hw]
        exact seen_respond [] _

/-- The reply states the result as it is: there is none if the call failed, and otherwise it has the
payload, and the status for its code.  A status of 2053 is not stated: its reply has the code 5. -/
def States (tag : Tag) (result : FcsCommunication.CallResult) (reply : Option Reply) : Prop :=
  let (fcsCallSucceeded, payload, status) := result
  if fcsCallSucceeded then ∃ code : ℕ, status.toInt = code ∧ reply = some ⟨tag, code, payload⟩
  else reply = none

/-- The results that a response can say. -/
def Sayable (q : Request) (result : FcsCommunication.CallResult) : Prop :=
  let (fcsCallSucceeded, payload, status) := result
  if fcsCallSucceeded then payload.length % 4 = 0 ∧ 0 ≤ status.toInt ∧ status.toInt < 2 ^ 11
  else ¬ (q.command = .getAttestationCertificate ∧ status = -1)

theorem states_told_iff (tag : Tag) (q : Request) (result : FcsCommunication.CallResult) :
    States tag result (told tag q result) ↔ Sayable q result := by
  obtain ⟨fcsCallSucceeded, payload, status⟩ := result
  rw [States, Sayable, told]
  by_cases hcert : q.command = .getAttestationCertificate ∧ status = -1
  · have hneg : status.toInt = -1 := by
      rw [hcert.2]
      rfl
    cases fcsCallSucceeded with
    | false => simp [hcert]
    | true => simp [hcert.1, hcert.2]
  · cases fcsCallSucceeded with
    | false => simp [hcert]
    | true =>
      by_cases hw : payload.length % 4 = 0
      · rw [if_pos rfl, if_pos rfl, if_neg hcert, if_neg (not_not.mpr rfl), if_pos hw]
        constructor
        · intro hstates
          obtain ⟨code, hcode, hreply⟩ := hstates
          have hmod := congrArg Reply.code (Option.some.inj hreply)
          dsimp only at hmod
          omega
        · intro hsays
          refine ⟨status.toInt.toNat, by omega, ?_⟩
          rw [Int.emod_eq_of_lt hsays.2.1 hsays.2.2]
      · rw [if_pos rfl, if_pos rfl, if_neg hcert, if_neg (not_not.mpr rfl), if_neg hw]
        refine iff_of_false ?_ (fun hsays => hw hsays.1)
        intro hstates
        obtain ⟨code, -, hreply⟩ := hstates
        have hempty := congrArg Reply.payload (Option.some.inj hreply)
        dsimp only at hempty
        rw [← hempty] at hw
        exact hw rfl

/-- **When a remote call is as good as a local one.**  The server makes the calls on the device that
the function makes; and the reply states literally what the function returned exactly when the
status fits the eleven bits of the code and the payload is made of whole words, or, for a function
that failed, unless it is a certificate call that found `-1` in the status. -/
theorem remote_call_iff (env : Env) (tag : Tag) (q : Request) :
    ∃ response result,
      (handleIncomingMessage env (encode tag q) []).result = .ok response ∧
      (q.call env.driver env.statusReturnedFromFcs).result = .ok result ∧
      (handleIncomingMessage env (encode tag q) []).calls
        = (q.call env.driver env.statusReturnedFromFcs).calls ∧
      (States tag result (seen response) ↔ Sayable q result) := by
  obtain ⟨grown, hcall⟩ := call_eq env.driver env.statusReturnedFromFcs q
  have hhandle := handle_of_decode (decode_encode tag q) env []
  obtain ⟨result, hresult⟩ := call_returns env.driver env.statusReturnedFromFcs q
  obtain ⟨response, hresponse⟩ : ∃ response,
      (handleIncomingMessage env (encode tag q) []).result = .ok response := by
    rw [hhandle]
    exact ⟨_, rfl⟩
  refine ⟨response, result, hresponse, hresult, ?_, ?_⟩
  · rw [hhandle, hcall]
  · rw [seen_response hresponse hresult]
    exact states_told_iff tag q result

/-! ### A session -/

/-- The result of the call for a request, for a state of the device that satisfies `p`. -/
def Called (p : Env → Prop) (q : Request) (result : FcsCommunication.CallResult) : Prop :=
  ∃ env, p env ∧ (q.call env.driver env.statusReturnedFromFcs).result = .ok result

/-- The replies to requests with these results: a call that failed has none, unless it is a
certificate call that found `-1` in the unassigned status, which is told as an unknown command. -/
def replies (requests : List (Tag × Request)) (results : List FcsCommunication.CallResult) :
    List Reply :=
  (requests.zip results).filterMap fun y => told y.1.1 y.1.2 y.2

/-- Responses that are not empty are framed. -/
theorem framed_of_handled {m : List UInt8}
    (h : (handleIncomingMessage env m []).result = .ok response) (hne : response ≠ []) :
    Framed response := by
  rw [handleIncomingMessage_eq, Except.ok.injEq] at h
  obtain hsame | hanswers := ResponseFraming.responseFor_answers env m []
  · exact absurd (h.symm.trans hsame) hne
  · rw [h] at hanswers
    exact hanswers.framed

/-- Only the responses that are not empty are seen. -/
theorem filterMap_seen (responses : List (List UInt8)) :
    responses.filterMap seen = (responses.filter (· ≠ [])).map replyOf := by
  induction responses with
  | nil => rfl
  | cons r responses ih =>
    by_cases hr : r = []
    · simp [seen, hr, ih]
    · simp [seen, hr, ih]

/-- The messages of the requests, each with its response: the calls have results, and these tell
what is seen. -/
theorem results_of_exchanges {p : ℕ → Env → Prop} (requests : List (Tag × Request))
    (exchanged : List (List UInt8 × List UInt8))
    (hmessages : exchanged.map Prod.fst = requests.map fun x => encode x.1 x.2)
    (hanswered : ∀ n x, exchanged[n]? = some x → ∃ env, p n env ∧
      (handleIncomingMessage env x.1 []).result = .ok x.2) :
    ∃ results, results.length = requests.length ∧
      (∀ n x result, requests[n]? = some x → results[n]? = some result →
        Called (p n) x.2 result) ∧
      (exchanged.map Prod.snd).filterMap seen = replies requests results := by
  induction requests generalizing exchanged p with
  | nil =>
    obtain rfl := List.map_eq_nil_iff.mp hmessages
    exact ⟨[], rfl, fun n x result hx => by simp at hx, rfl⟩
  | cons x requests ih =>
    cases exchanged with
    | nil => cases hmessages
    | cons y exchanged =>
      obtain ⟨hmessage, hrest⟩ := List.cons.inj hmessages
      obtain ⟨env, henv, hresponse⟩ := hanswered 0 y rfl
      obtain ⟨results, hlength, hcalled, hreplies⟩ :=
        @ih (fun n => p (n + 1)) exchanged hrest fun n z hz => hanswered (n + 1) z hz
      obtain ⟨result, hresult⟩ := call_returns env.driver env.statusReturnedFromFcs x.2
      have hseen : seen y.2 = told x.1 x.2 result := by
        dsimp only at hmessage
        rw [hmessage] at hresponse
        exact seen_response hresponse hresult
      refine ⟨result :: results, congrArg (· + 1) hlength, ?_, ?_⟩
      · intro n z r hz hr
        cases n with
        | zero =>
          cases hz
          cases hr
          exact ⟨env, henv, hresult⟩
        | succ n => exact hcalled n z r hz hr
      · rw [replies, List.zip_cons_cons, List.map_cons, List.filterMap_cons, List.filterMap_cons,
          hseen, hreplies, replies]

/-- **What a connection receives, from the results of its calls.**  Requests arrive whole, and the
sends take all they are given; the device may fail at any of them, and need not answer the same
request in the same way twice.  Each request has the result of its call, made with the answers of
the slot and the iteration in which it is read, and the stream is cut into the replies that these
results tell, in the order of the requests, with nothing for a call that failed, but an unknown
command for a certificate call that failed and found `-1` in the unassigned status. -/
theorem session_calls (server : TcpServer) (envs : List LoopEnv) (fd : ℤ)
    (requests : List (Tag × Request))
    (harrive : chunks fd (server.loop handleIncomingMessage envs).calls
      = requests.map fun x => encode x.1 x.2)
    (hwhole : ∀ x ∈ (server.loop handleIncomingMessage envs).calls, takesAll fd x) :
    ∃ results, results.length = requests.length ∧
      (∀ n x result, requests[n]? = some x → results[n]? = some result →
        Called (HandlerAt server envs fd n) x.2 result) ∧
      decodeReplies (acceptedBytes fd (server.loop handleIncomingMessage envs).calls)
        = some (replies requests results) := by
  have hrelayed := loop_relayed server envs fd
  obtain ⟨results, hlength, hcalled, hreplies⟩ :=
    results_of_exchanges requests _ (hrelayed.messages.trans harrive)
      fun n x => loop_answered server envs fd
  refine ⟨results, hlength, hcalled, ?_⟩
  have hframed : ∀ r ∈ sent fd (server.loop handleIncomingMessage envs).calls, Framed r := by
    intro r hr
    rw [hrelayed.sent, List.mem_filter] at hr
    obtain ⟨hmem, hne⟩ := hr
    obtain ⟨x, hx, rfl⟩ := List.mem_map.mp hmem
    obtain ⟨n, hn⟩ := List.mem_iff_getElem?.mp hx
    obtain ⟨env, -, hresponse⟩ := loop_answered server envs fd hn
    exact framed_of_handled hresponse (of_decide_eq_true hne)
  rw [acceptedBytes_eq hwhole, decodeReplies,
    framed_delimited.cut_flatten _ hframed _ (framed_delimited.length_le_flatten _ hframed),
    Option.map_some, hrelayed.sent, ← filterMap_seen, responses, hreplies]

/-- A client that asks for the chip id. -/
theorem session_calls_chipId : ∃ results : List FcsCommunication.CallResult,
    results.length = [((⟨1, 2⟩ : Tag), Request.getChipId)].length ∧
    (∀ n x result, [((⟨1, 2⟩ : Tag), Request.getChipId)][n]? = some x →
      results[n]? = some result → Called (HandlerAt connected [chipIdArrives] 4 n) x.2 result) ∧
    decodeReplies (acceptedBytes 4 (connected.loop handleIncomingMessage [chipIdArrives]).calls)
      = some (replies [(⟨1, 2⟩, .getChipId)] results) :=
  session_calls connected [chipIdArrives] 4 [(⟨1, 2⟩, .getChipId)] (by decide +kernel)
    (List.all_eq_true.mp (by decide +kernel))

end RemoteCall

end FcsServer
