import FcsServer.CallOutcome
import FcsServer.EventPass
import FcsServer.Lib.HeaderDelimited

/-!
# Messages are what `recv` returns

A client sends a stream of bytes; the server hands the result of each `recv` to the message
callback as one message and sends the response back.  The projections of a trace on one
descriptor say what the connection sees.

* `chunks`, `exchanges`, `sent` — what was received, what the callback made of it, what was sent;
* `Relayed` — every chunk is one message, every response is sent, in order;
* `visit_relayed`, `loop_relayed` — every visit and every run relays, whatever happens on the
  other connections;
* `HandlerAt` / `loop_answered` — the state of the device for each message, and the response;
* `stream_follows_chunks` — the requests of a client are what the callback is invoked on exactly
  when every `recv` returns a whole request.
-/

namespace FcsServer

open TcpServer MessageHandler

namespace StreamFraming

/-- The results of the `recv` calls on a descriptor, without failures and the end of the stream. -/
def chunks (fd : ℤ) (calls : List Call) : List (List UInt8) :=
  calls.filterMap fun x => match x with
    | .recv d (.received bytes) => if d = fd ∧ bytes ≠ [] then some bytes else none
    | _ => none

/-- The messages read from a descriptor that the callback was invoked on, with its responses. -/
def exchanges (fd : ℤ) (calls : List Call) : List (List UInt8 × List UInt8) :=
  calls.filterMap fun x => match x with
    | .onMessage d message response => if d = fd then some (message, response) else none
    | _ => none

/-- The buffers handed to `send` on a descriptor. -/
def sent (fd : ℤ) (calls : List Call) : List (List UInt8) :=
  calls.filterMap fun x => match x with
    | .send d bytes _ => if d = fd then some bytes else none
    | _ => none

/-- The messages handed to the callback. -/
def messages (fd : ℤ) (calls : List Call) : List (List UInt8) :=
  (exchanges fd calls).map Prod.fst

/-- Its responses. -/
def responses (fd : ℤ) (calls : List Call) : List (List UInt8) :=
  (exchanges fd calls).map Prod.snd

/-- The calls relay on a descriptor: each chunk is handed on as one message, and each response
that is not empty is sent. -/
structure Relayed (fd : ℤ) (calls : List Call) : Prop where
  messages : messages fd calls = chunks fd calls
  sent : sent fd calls = (responses fd calls).filter (· ≠ [])

section Relayed

variable {fd : ℤ}

theorem chunks_append (c d : List Call) : chunks fd (c ++ d) = chunks fd c ++ chunks fd d :=
  List.filterMap_append

theorem exchanges_append (c d : List Call) :
    exchanges fd (c ++ d) = exchanges fd c ++ exchanges fd d :=
  List.filterMap_append

theorem sent_append (c d : List Call) : sent fd (c ++ d) = sent fd c ++ sent fd d :=
  List.filterMap_append

theorem messages_append (c d : List Call) :
    messages fd (c ++ d) = messages fd c ++ messages fd d := by
  simp [messages, exchanges_append]

theorem responses_append (c d : List Call) :
    responses fd (c ++ d) = responses fd c ++ responses fd d := by
  simp [responses, exchanges_append]

theorem Relayed.nil : Relayed fd [] := ⟨rfl, rfl⟩

theorem Relayed.append {c d : List Call} (hc : Relayed fd c) (hd : Relayed fd d) :
    Relayed fd (c ++ d) := by
  constructor
  · rw [messages_append, chunks_append, hc.messages, hd.messages]
  · rw [sent_append, responses_append, List.filter_append, hc.sent, hd.sent]

/-- No projection sees these calls. -/
structure Unseen (fd : ℤ) (calls : List Call) : Prop where
  chunks : chunks fd calls = []
  exchanges : exchanges fd calls = []
  sent : StreamFraming.sent fd calls = []

theorem Unseen.relayed {calls : List Call} (h : Unseen fd calls) : Relayed fd calls := by
  constructor
  · simp [StreamFraming.messages, h.exchanges, h.chunks]
  · simp [responses, h.exchanges, h.sent]

/-- Calls that are no `recv` or `send` and no message of the connection. -/
theorem Unseen.of_forall {calls : List Call} (h : ∀ x ∈ calls, Unseen fd [x]) :
    Unseen fd calls := by
  induction calls with
  | nil => exact ⟨rfl, rfl, rfl⟩
  | cons x calls ih =>
    have hx := h x List.mem_cons_self
    have hcalls := ih fun y hy => h y (List.mem_cons_of_mem x hy)
    rw [← List.singleton_append]
    constructor
    · rw [chunks_append, hx.chunks, hcalls.chunks, List.append_nil]
    · rw [exchanges_append, hx.exchanges, hcalls.exchanges, List.append_nil]
    · rw [sent_append, hx.sent, hcalls.sent, List.append_nil]

theorem unseen_of_deviceOnly {calls : List Call} (h : DeviceOnly calls) : Unseen fd calls := by
  apply Unseen.of_forall
  intro x hx
  have hdevice := h x hx
  cases x with
  | openDevice d => exact ⟨rfl, rfl, rfl⟩
  | ioctl d command data returned => exact ⟨rfl, rfl, rfl⟩
  | close d => exact ⟨rfl, rfl, rfl⟩
  | _ => exact hdevice.elim

/-- What an invocation of the callback is followed by. -/
inductive Settles (own : ℤ) (response : List UInt8) : Call → Prop where
  | send (outcome : SendResult) (h : response ≠ []) :
    Settles own response (.send own response outcome)
  | close (h : response = []) : Settles own response (.close own)

section Settles

variable {own : ℤ} {bytes response : List UInt8} {last : Call}

theorem Settles.chunks (h : Settles own response last) :
    chunks fd [.onMessage own bytes response, last] = [] := by
  cases h with
  | send outcome hsome => rfl
  | close hnone => rfl

theorem Settles.exchanges (h : Settles own response last) :
    exchanges fd [.onMessage own bytes response, last]
      = if own = fd then [(bytes, response)] else [] := by
  by_cases hfd : own = fd
  · cases h with
    | send outcome hsome => simp [StreamFraming.exchanges, hfd]
    | close hnone => simp [StreamFraming.exchanges, hfd]
  · cases h with
    | send outcome hsome => simp [StreamFraming.exchanges, hfd]
    | close hnone => simp [StreamFraming.exchanges, hfd]

theorem Settles.sent (h : Settles own response last) :
    sent fd [.onMessage own bytes response, last]
      = if own = fd then [response].filter (· ≠ []) else [] := by
  cases h with
  | send outcome hsome =>
    have hfilter : [response].filter (· ≠ []) = [response] := by simp [hsome]
    rw [hfilter]
    by_cases hfd : own = fd
    · simp [StreamFraming.sent, hfd]
    · simp [StreamFraming.sent, hfd]
  | close hnone => simp [StreamFraming.sent, hnone]

end Settles

/-- The calls of a visit relay, and invoke the callback at most once on a message of the
connection. -/
structure RelayedOnce (handler : Env) (fd : ℤ) (calls : List Call) : Prop
    extends Relayed fd calls where
  answered : exchanges fd calls = [] ∨
    ∃ m, exchanges fd calls = [(m, responseFor handler m [])]

theorem Unseen.relayedOnce {handler : Env} {calls : List Call} (h : Unseen fd calls) :
    RelayedOnce handler fd calls :=
  ⟨h.relayed, Or.inl h.exchanges⟩

/-- A message is read and handled, and its response sent or the connection closed. -/
theorem RelayedOnce.exchange {handler : Env} {bytes : List UInt8} {own : ℤ} {last : Call}
    (hne : bytes ≠ []) (hlast : Settles own (responseFor handler bytes []) last) :
    RelayedOnce handler fd (.recv own (.received bytes) :: (callsFor handler bytes ++
      [.onMessage own bytes (responseFor handler bytes []), last])) := by
  have hdevice : Unseen fd (callsFor handler bytes) :=
    unseen_of_deviceOnly (callsFor_deviceOnly handler bytes)
  have hread : chunks fd [.recv own (.received bytes)] = if own = fd then [bytes] else [] := by
    by_cases hfd : own = fd
    · simp [StreamFraming.chunks, hfd, hne]
    · simp [StreamFraming.chunks, hfd]
  have hchunks : chunks fd ([.recv own (.received bytes)] ++ (callsFor handler bytes ++
      [.onMessage own bytes (responseFor handler bytes []), last]))
      = if own = fd then [bytes] else [] := by
    rw [chunks_append, chunks_append, hdevice.chunks, hlast.chunks, hread, List.append_nil,
      List.append_nil]
  have hexchanges : exchanges fd ([.recv own (.received bytes)] ++ (callsFor handler bytes ++
      [.onMessage own bytes (responseFor handler bytes []), last]))
      = if own = fd then [(bytes, responseFor handler bytes [])] else [] := by
    rw [exchanges_append, exchanges_append, hdevice.exchanges, hlast.exchanges, List.nil_append]
    rfl
  have hsent : StreamFraming.sent fd ([.recv own (.received bytes)] ++ (callsFor handler bytes ++
      [.onMessage own bytes (responseFor handler bytes []), last]))
      = if own = fd then [responseFor handler bytes []].filter (· ≠ []) else [] := by
    rw [sent_append, sent_append, hdevice.sent, hlast.sent, List.nil_append]
    rfl
  rw [← List.singleton_append]
  by_cases hfd : own = fd
  · rw [if_pos hfd] at hchunks hexchanges hsent
    refine ⟨⟨?_, ?_⟩, Or.inr ⟨bytes, hexchanges⟩⟩
    · rw [StreamFraming.messages, hexchanges, hchunks]
      rfl
    · rw [responses, hexchanges, hsent]
      rfl
  · rw [if_neg hfd] at hchunks hexchanges hsent
    exact Unseen.relayedOnce ⟨hchunks, hexchanges, hsent⟩

/-- An exchange of a trace, and how many there are before it. -/
theorem exchange_at {calls : List Call} {n : ℕ} {x : List UInt8 × List UInt8}
    (h : (exchanges fd calls)[n]? = some x) :
    ∃ pre post, calls = pre ++ .onMessage fd x.1 x.2 :: post ∧ (exchanges fd pre).length = n := by
  induction calls generalizing n with
  | nil => cases h
  | cons y calls ih =>
    rw [← List.singleton_append, exchanges_append] at h
    -- an earlier exchange, the one that is looked for, or none
    have later : ∀ m, (exchanges fd calls)[m]? = some x → (exchanges fd [y]).length + m = n →
        ∃ pre post, y :: calls = pre ++ .onMessage fd x.1 x.2 :: post ∧
          (exchanges fd pre).length = n := by
      intro m hm hn
      obtain ⟨pre, post, rfl, hpre⟩ := ih hm
      refine ⟨y :: pre, post, rfl, ?_⟩
      rw [← List.singleton_append, exchanges_append, List.length_append, hpre]
      exact hn
    by_cases hn : n < (exchanges fd [y]).length
    · rw [List.getElem?_append_left hn] at h
      cases y with
      | onMessage d m r =>
        by_cases hd : d = fd
        · have hone : exchanges fd [.onMessage d m r] = [(m, r)] := by simp [exchanges, hd]
          rw [hone] at h hn
          obtain rfl := Nat.lt_one_iff.mp hn
          cases h
          exact ⟨[], calls, by rw [hd]; rfl, rfl⟩
        · simp [exchanges, hd] at hn
      | _ => simp [exchanges] at hn
    · rw [List.getElem?_append_right (not_lt.mp hn)] at h
      exact later _ h (by omega)

end Relayed

/-! ### Visits and runs -/

/-- **A visit relays**, with the answers of its own slot.  It is one exchange on the visited
connection, or no `recv` returns any bytes. -/
theorem visit_relayed (server : TcpServer) (env : Slot → SlotEnv) (i : Slot) (fd : ℤ) :
    RelayedOnce (env i).handler fd (server.visit handleIncomingMessage env i).calls := by
  rcases visit_cases handleIncomingMessage env server i with
    ⟨-, hvisit⟩ | ⟨-, calls, result, hvisit, hH⟩
  · rw [hvisit]
    exact Unseen.relayedOnce ⟨rfl, rfl, rfl⟩
  · rw [hvisit]
    cases hH with
    | accepted hlisten hslot => exact Unseen.relayedOnce ⟨rfl, rfl, rfl⟩
    | tableFull hlisten hfull => exact Unseen.relayedOnce ⟨rfl, rfl, rfl⟩
    | noData hread hresult hnone =>
      apply Unseen.relayedOnce
      rcases hnone with rfl | rfl
      · exact ⟨rfl, rfl, rfl⟩
      · exact ⟨by simp [chunks], rfl, rfl⟩
    | faulted hread hresult hne hcall => exact absurd hcall handled_ne_error
    | answered hread hresult hne hcall hresponse hsent =>
      obtain ⟨rfl, rfl⟩ := handled_ok hcall
      exact .exchange hne (.send _ hresponse)
    | brokenPipe hread hresult hne hcall hresponse hsent =>
      obtain ⟨rfl, rfl⟩ := handled_ok hcall
      exact .exchange hne (.send _ hresponse)
    | silent hread hresult hne hcall =>
      obtain ⟨rfl, hresponse⟩ := handled_ok hcall
      rw [← hresponse]
      exact .exchange hne (.close hresponse)
    | hungUp hevent => exact Unseen.relayedOnce ⟨rfl, rfl, rfl⟩
    | ignored hin hhup herr => exact Unseen.relayedOnce ⟨rfl, rfl, rfl⟩

theorem dropIfUsed_unseen (server : TcpServer) (i : Slot) (fd : ℤ) :
    Unseen fd (server.dropIfUsed i).calls := by
  rcases dropIfUsed_cases server i with ⟨-, hdrop⟩ | ⟨-, hdrop⟩
  · rw [hdrop]
    exact ⟨rfl, rfl, rfl⟩
  · rw [hdrop]
    exact ⟨rfl, rfl, rfl⟩

/-- **Every run relays, on every descriptor.** -/
theorem loop_relayed (server : TcpServer) (envs : List LoopEnv) (fd : ℤ) :
    Relayed fd (server.loop handleIncomingMessage envs).calls := by
  have hpoll : ∀ s env, Unseen fd [pollCall s env] := fun _ _ => ⟨rfl, rfl, rfl⟩
  refine loop_calls Relayed.nil (fun _ _ => Relayed.append) (fun s env => (hpoll s env).relayed)
    (fun s i => (dropIfUsed_unseen s i fd).relayed) ?_ server
  intro env _ s i
  exact (visit_relayed s env.slot i fd).toRelayed

/-- The state of the device for message number `n` from a descriptor: the loop comes to a slot
after `n` messages, the visit hands one more to the callback, and these are the answers of the slot
in that iteration. -/
def HandlerAt (server : TcpServer) (envs : List LoopEnv) (fd : ℤ) (n : ℕ) (handler : Env) : Prop :=
  ∃ env i now sofar, ComesTo handleIncomingMessage server envs env i now sofar ∧
    (exchanges fd sofar).length = n ∧
    exchanges fd (now.visit handleIncomingMessage env.slot i).calls ≠ [] ∧
    handler = (env.slot i).handler

theorem HandlerAt.mem {server : TcpServer} {envs : List LoopEnv} {fd : ℤ} {n : ℕ} {handler : Env}
    (h : HandlerAt server envs fd n handler) :
    ∃ env ∈ envs, ∃ i, handler = (env.slot i).handler := by
  obtain ⟨env, i, now, sofar, hcomes, -, -, hhandler⟩ := h
  exact ⟨env, hcomes.mem, i, hhandler⟩

/-- **Every message is answered where it is read**, by the callback with the answers of its slot in
its iteration. -/
theorem loop_answered (server : TcpServer) (envs : List LoopEnv) (fd : ℤ) {n : ℕ}
    {x : List UInt8 × List UInt8}
    (h : (exchanges fd (server.loop handleIncomingMessage envs).calls)[n]? = some x) :
    ∃ handler, HandlerAt server envs fd n handler ∧
      (handleIncomingMessage handler x.1 []).result = .ok x.2 := by
  obtain ⟨pre, post, hcalls, hpre⟩ := exchange_at h
  have hdrop : ∀ s i, .onMessage fd x.1 x.2 ∉ (dropIfUsed s i).calls := by
    intro s i
    rcases dropIfUsed_cases s i with ⟨-, hdrop⟩ | ⟨-, hdrop⟩
    · simp [hdrop]
    · simp [hdrop]
  obtain ⟨env, i, now, sofar, left, right, hcomes, hvisit, rfl⟩ :=
    loop_call (fun _ _ => Call.noConfusion) hdrop hcalls
  have hexchanges : exchanges fd (now.visit handleIncomingMessage env.slot i).calls
      = exchanges fd left ++ x :: exchanges fd right := by
    rw [hvisit, exchanges_append]
    simp [exchanges]
  rcases (visit_relayed now env.slot i fd).answered with hnone | ⟨m, hone⟩
  · rw [hnone] at hexchanges
    simp at hexchanges
  · have hleft : exchanges fd left = [] ∧ x = (m, responseFor (env.slot i).handler m []) := by
      rw [hone, List.singleton_eq_append_iff] at hexchanges
      rcases hexchanges with ⟨hleft, hx⟩ | ⟨-, hx⟩
      · exact ⟨hleft, (List.cons.inj hx).1⟩
      · cases hx
    refine ⟨(env.slot i).handler, ⟨env, i, now, sofar, hcomes, ?_, ?_, rfl⟩, ?_⟩
    · rw [← hpre, exchanges_append, hleft.1, List.append_nil]
    · rw [hone]
      exact List.cons_ne_nil _ _
    · rw [hleft.2, handleIncomingMessage_eq]

/-! ### Requests in a stream -/

/-- The first four bytes of a framed message give its length. -/
theorem framed_delimited :
    HeaderDelimited {m | RequestGrammar.Framed m} 4
      (fun header => 4 + 4 * RequestGrammar.lengthField header) := by
  refine ⟨by decide, ?_, ?_⟩
  · intro m hm
    exact hm.1
  · intro m hm
    have hword : LittleEndian.wordAt (m.take 4) 0 = LittleEndian.wordAt m 0 := by
      simp [LittleEndian.wordAt, List.getD_eq_getElem?_getD]
    rw [RequestGrammar.lengthField, hword]
    exact hm.2

/-- So do the first four bytes of a request. -/
theorem accepted_delimited :
    HeaderDelimited {m | RequestGrammar.Accepted m} 4
      (fun header => 4 + 4 * RequestGrammar.lengthField header) :=
  framed_delimited.mono fun _ hm => hm.framed

/-- **A connection is answered chunk by chunk.**  Over any iterations, whatever arrives on the
other connections: the callback is invoked on exactly what the `recv` calls return, each time with
the answers of that slot and iteration, its responses are sent in that order, and the requests of
the client are what it is invoked on exactly when each of these chunks is itself a request. -/
theorem stream_follows_chunks (server : TcpServer) (envs : List LoopEnv) (fd : ℤ) :
    messages fd (server.loop handleIncomingMessage envs).calls
        = chunks fd (server.loop handleIncomingMessage envs).calls ∧
      sent fd (server.loop handleIncomingMessage envs).calls
        = (responses fd (server.loop handleIncomingMessage envs).calls).filter (· ≠ []) ∧
      (∀ n x, (exchanges fd (server.loop handleIncomingMessage envs).calls)[n]? = some x →
        ∃ handler, HandlerAt server envs fd n handler ∧
          (handleIncomingMessage handler x.1 []).result = .ok x.2) ∧
      ∀ requests, (∀ m ∈ requests, RequestGrammar.Accepted m) →
        (chunks fd (server.loop handleIncomingMessage envs).calls).flatten = requests.flatten →
        (messages fd (server.loop handleIncomingMessage envs).calls = requests ↔
          ∀ chunk ∈ chunks fd (server.loop handleIncomingMessage envs).calls,
            RequestGrammar.Accepted chunk) := by
  have hrelayed := loop_relayed server envs fd
  refine ⟨hrelayed.messages, hrelayed.sent, fun n x => loop_answered server envs fd, ?_⟩
  intro requests hrequests hstream
  rw [hrelayed.messages]
  constructor
  · intro heq chunk hchunk
    rw [heq] at hchunk
    exact hrequests chunk hchunk
  · intro hchunks
    exact accepted_delimited.uniquelyDecodable _ _ hchunks hrequests hstream

/-! ### A request that arrives in two parts -/

/-- Bytes of one client arrive, and nothing else happens: they are taken for a message. -/
theorem iteration_answers {server : TcpServer} {i : Slot} {answers : SlotEnv} {bytes : List UInt8}
    (hopen : 0 ≤ (server.sockets i).fd) (hclient : (server.sockets i).fd ≠ server.serverSocketFd)
    (hbytes : answers.received.within kMaxMessageSizeInBytes = .received bytes) (hne : bytes ≠ [])
    (hresponse : responseFor answers.handler bytes [] ≠ []) (hsent : answers.sent ≠ .brokenPipe) :
    server.iteration handleIncomingMessage (only i pollIn answers)
      = ⟨server.pollCall (only i pollIn answers) :: .recv (server.sockets i).fd (.received bytes) ::
            (callsFor answers.handler bytes ++
              [.onMessage (server.sockets i).fd bytes (responseFor answers.handler bytes []),
                .send (server.sockets i).fd (responseFor answers.handler bytes []) answers.sent]),
          .ok ((server.polled (only i pollIn answers).revents).setBuffer bytes)⟩ := by
  have hfd := server.polled_fd i (only i pollIn answers).revents
  have hread : Readable (server.polled (only i pollIn answers).revents) i := by
    constructor
    · rw [hfd]
      exact hclient
    · exact polled_only pollIn answers hopen
  have hvisit := handleEventIfAny_answered hread hbytes hne
    (handleIncomingMessage_eq answers.handler bytes []) hresponse hsent
  have hslot : (only i pollIn answers).slot i = answers := rfl
  rw [iteration_single i Int.one_pos (only_not_handled pollIn answers), visit,
    if_pos (by omega), hslot, hvisit, hfd]

/-- The answers when `recv` returns these bytes from the first client, and a working device. -/
def receives (bytes : List UInt8) : LoopEnv :=
  only firstClient pollIn
    { accepted := -1
      received := .received bytes
      handler := ⟨CallOutcome.chipIdDevice 0, 0⟩
      sent := .accepted 4 }

/-- Fewer bytes than a header: they are answered with an error code. -/
theorem iteration_receives {server : TcpServer} {bytes : List UInt8} (hne : bytes ≠ [])
    (hshort : bytes.length < 4) (hfd : (server.sockets firstClient).fd = 4)
    (hlisten : server.serverSocketFd = 3) :
    ∃ response, response ≠ [] ∧ server.iteration handleIncomingMessage (receives bytes)
      = ⟨[server.pollCall (receives bytes), .recv 4 (.received bytes), .onMessage 4 bytes response,
            .send 4 response (.accepted 4)],
          .ok ((server.polled (receives bytes).revents).setBuffer bytes)⟩ := by
  have hrefused : commandOf bytes = none := by
    apply if_neg
    intro h
    have hlen := h.framed.1
    omega
  have hresponse : responseFor ⟨CallOutcome.chipIdDevice 0, 0⟩ bytes [] ≠ [] := by
    rw [ResponseFraming.responseFor_refused _ _ hrefused]
    exact ResponseFraming.frame_ne_nil
  have hcalls : callsFor ⟨CallOutcome.chipIdDevice 0, 0⟩ bytes = [] := by
    rw [callsFor, hrefused]
  have hbytes : (RecvResult.received bytes).within kMaxMessageSizeInBytes = .received bytes := by
    rw [RecvResult.within, List.take_of_length_le (hshort.le.trans (by decide))]
  refine ⟨_, hresponse, ?_⟩
  rw [receives, iteration_answers (by omega) (by omega) hbytes hne hresponse SendResult.noConfusion,
    hcalls, hfd]
  rfl

/-- A chip id request in two parts. -/
def inTwoParts : List LoopEnv := [receives [0x12, 0], receives [0, 0x10]]

/-- Each part is answered with an error code of its own. -/
theorem split_request_not_delivered :
    ∃ envs requests, (run handleIncomingMessage ⟨3, 0, 0⟩ [connects 4]).result = .ok connected ∧
      (∀ m ∈ requests, RequestGrammar.Accepted m) ∧
      (chunks 4 (connected.loop handleIncomingMessage envs).calls).flatten = requests.flatten ∧
      (∀ r ∈ responses 4 (connected.loop handleIncomingMessage envs).calls, r ≠ []) ∧
      messages 4 (connected.loop handleIncomingMessage envs).calls ≠ requests := by
  obtain ⟨next, hnext⟩ : ∃ next,
      next = (connected.polled (receives [0x12, 0]).revents).setBuffer [0x12, 0] := ⟨_, rfl⟩
  have hfd : (connected.sockets firstClient).fd = 4 := by
    rw [connected_fd, if_pos rfl]
  have hfd' : (next.sockets firstClient).fd = 4 := by
    rw [hnext, setBuffer_sockets, polled_fd, hfd]
  have hlisten' : next.serverSocketFd = 3 := by
    rw [hnext]
    rfl
  obtain ⟨r, hr, hfirst⟩ := iteration_receives (List.cons_ne_nil 0x12 [0]) (by simp) hfd rfl
  obtain ⟨r', hr', hsecond⟩ :=
    iteration_receives (List.cons_ne_nil 0 [0x10]) (by simp) hfd' hlisten'
  rw [← hnext] at hfirst
  have hloop : (connected.loop handleIncomingMessage inTwoParts).calls
      = [connected.pollCall (receives [0x12, 0]), .recv 4 (.received [0x12, 0]),
          .onMessage 4 [0x12, 0] r, .send 4 r (.accepted 4),
          next.pollCall (receives [0, 0x10]), .recv 4 (.received [0, 0x10]),
          .onMessage 4 [0, 0x10] r', .send 4 r' (.accepted 4)] := by
    rw [loop, inTwoParts, List.foldlM_cons, hfirst, Traced.mk_ok_bind, List.foldlM_cons, hsecond,
      Traced.mk_ok_bind]
    rfl
  refine ⟨inTwoParts, [CallOutcome.chipIdRequest], run_connected _, ?_, ?_, ?_, ?_⟩
  · simp [CallOutcome.chipIdRequest_accepted.1]
  · rw [hloop]
    simp [chunks, pollCall, CallOutcome.chipIdRequest]
  · rw [hloop]
    simp [responses, exchanges, pollCall, hr, hr']
  · rw [hloop]
    simp [messages, exchanges, pollCall]

end StreamFraming

end FcsServer
