import FcsServer.Survival

/-!
# What becomes of a response

The server calls `send` once for a response.  A failure is logged, and the count of the bytes
that were taken is not looked at; either way the connection stays in the table.

* `acceptedBytes` — what `send` has taken on a descriptor;
* `Delivered` — the response is taken whole, or the connection is closed;
* `Truncates` — a readable client whose response `send` refuses or cuts short;
* `delivered_iff` — one visit; `responses_delivered_iff` — every run.
-/

namespace FcsServer

open TcpServer MessageHandler Survival

namespace ResponseDelivery

/-- The bytes that `send` has taken on a descriptor, in order. -/
def acceptedBytes (fd : ℤ) (calls : List Call) : List UInt8 :=
  (calls.map fun x => match x with
    | .send d bytes (.accepted n) => if d = fd then bytes.take n else []
    | _ => []).flatten

/-- When the visit to slot `i` is over, the response the callback gave has been taken by `send`
on the descriptor of the slot, or the connection is closed and the slot free. -/
def Delivered (server : TcpServer) (env : Slot → SlotEnv) (i : Slot) : Prop :=
  ∀ next, (server.visit handleIncomingMessage env i).result = .ok next →
    ∀ message response, .onMessage (server.sockets i).fd message response
        ∈ (server.visit handleIncomingMessage env i).calls →
      acceptedBytes (server.sockets i).fd (server.visit handleIncomingMessage env i).calls
          = response ∨
        .close (server.sockets i).fd ∈ (server.visit handleIncomingMessage env i).calls ∧
          (next.sockets i).fd = -1

/-- `send` fails, or takes only a first part of the bytes. -/
def CutShort (response : List UInt8) (outcome : SendResult) : Prop :=
  outcome = .failed ∨ ∃ n < response.length, outcome = .accepted n

/-- Slot `i` is readable, `recv` returns a message that gets a response, and that is cut short. -/
def Truncates (server : TcpServer) (env : Slot → SlotEnv) (i : Slot) : Prop :=
  Readable server i ∧ ∃ bytes,
    (env i).received.within kMaxMessageSizeInBytes = .received bytes ∧ bytes ≠ [] ∧
      responseFor (env i).handler bytes [] ≠ [] ∧
      CutShort (responseFor (env i).handler bytes []) (env i).sent

variable {server : TcpServer} {env : Slot → SlotEnv} {i : Slot} {fd : ℤ}

/-! ### What `send` has taken -/

theorem acceptedBytes_append (c d : List Call) :
    acceptedBytes fd (c ++ d) = acceptedBytes fd c ++ acceptedBytes fd d := by
  simp [acceptedBytes]

theorem acceptedBytes_of_deviceOnly {calls : List Call} (h : DeviceOnly calls) :
    acceptedBytes fd calls = [] := by
  rw [acceptedBytes, List.flatten_eq_nil_iff]
  intro bytes hbytes
  obtain ⟨x, hx, rfl⟩ := List.mem_map.mp hbytes
  have hdevice := h x hx
  cases x with
  | send d bytes outcome => exact hdevice.elim
  | _ => rfl

/-- What one call to `send` takes is the whole response, unless the response is cut short. -/
theorem acceptedBytes_send (fd : ℤ) {response : List UInt8} {outcome : SendResult}
    (hsent : outcome ≠ .brokenPipe) (hresponse : response ≠ []) :
    acceptedBytes fd [.send fd response outcome] = response ↔ ¬ CutShort response outcome := by
  cases outcome with
  | accepted n => simp [acceptedBytes, CutShort, List.take_eq_self_iff]
  | failed => simp [acceptedBytes, CutShort, hresponse.symm]
  | brokenPipe => exact absurd rfl hsent

/-! ### One visit -/

section Exchange

variable {bytes response : List UInt8} {calls : List Call} {result : RecvResult}
  {outcome : SendResult}

/-- A message that is answered: the one call to `send` counts. -/
theorem acceptedBytes_exchange (hdevice : DeviceOnly calls) :
    acceptedBytes fd (.recv fd result :: (calls ++
        [.onMessage fd bytes response, .send fd response outcome]))
      = acceptedBytes fd [.send fd response outcome] := by
  rw [← List.singleton_append, acceptedBytes_append, acceptedBytes_append,
    acceptedBytes_of_deviceOnly hdevice]
  rfl

/-- The callback is invoked once, with one response. -/
theorem response_of_exchange (hdevice : DeviceOnly calls) {message response' : List UInt8}
    (h : .onMessage fd message response' ∈ .recv fd result :: (calls ++
      [.onMessage fd bytes response, .send fd response outcome])) : response' = response := by
  rcases List.mem_cons.mp h with heq | hrest
  · cases heq
  · rcases List.mem_append.mp hrest with hcalls | hlast
    · exact (hdevice _ hcalls).elim
    · rcases List.mem_cons.mp hlast with heq | hsend
      · cases heq
        rfl
      · cases List.mem_singleton.mp hsend

end Exchange

/-- A visit in which the callback is not invoked. -/
theorem delivered_of_silent (hcalls : ∀ d message response,
    .onMessage d message response ∉ (server.visit handleIncomingMessage env i).calls) :
    Delivered server env i :=
  fun _ _ _ _ hmem => absurd hmem (hcalls _ _ _)

/-- **One visit delivers its response unless `send` cuts it short.** -/
theorem delivered_iff (hused : (server.sockets i).fd ≠ -1) :
    Delivered server env i ↔ ¬ Truncates server env i := by
  obtain ⟨-, calls, result, hvisit, hH⟩ :=
    (visit_cases handleIncomingMessage env server i).resolve_left fun h => hused h.1
  have hdelivered : (∀ d message response, .onMessage d message response ∉ calls) →
      Delivered server env i := by
    intro hcalls
    apply delivered_of_silent
    rw [hvisit]
    exact hcalls
  cases hH with
  | accepted hlisten hfree =>
    exact iff_of_true (hdelivered (by simp)) fun h => h.1.1 hlisten.1
  | tableFull hlisten hfull =>
    exact iff_of_true (hdelivered (by simp)) fun h => h.1.1 hlisten.1
  | noData hread hresult hnone =>
    refine iff_of_true (hdelivered (by simp)) ?_
    intro h
    obtain ⟨-, bytes, hbytes, hne, -⟩ := h
    rw [hresult] at hbytes
    rcases hnone with rfl | rfl
    · cases hbytes
    · cases hbytes
      exact hne rfl
  | faulted hread hresult hne hcall => exact absurd hcall handled_ne_error
  | @answered bytes response calls hread hresult hne hcall hresponse hsent =>
    have hdevice := handled_deviceOnly hcall
    obtain ⟨rfl, rfl⟩ := handled_ok hcall
    have htruncates : Truncates server env i ↔
        CutShort (responseFor (env i).handler bytes []) (env i).sent := by
      constructor
      · intro h
        obtain ⟨-, bytes', hbytes, -, -, hcut⟩ := h
        rw [hresult] at hbytes
        cases hbytes
        exact hcut
      · intro hcut
        exact ⟨hread, bytes, hresult, hne, hresponse, hcut⟩
    rw [htruncates, ← acceptedBytes_send (server.sockets i).fd hsent hresponse,
      ← acceptedBytes_exchange hdevice, Delivered, hvisit]
    constructor
    · intro h
      have hmem : .onMessage (server.sockets i).fd bytes (responseFor (env i).handler bytes [])
          ∈ .recv (server.sockets i).fd (.received bytes) :: (callsFor (env i).handler bytes ++
            [.onMessage (server.sockets i).fd bytes (responseFor (env i).handler bytes []),
              .send (server.sockets i).fd (responseFor (env i).handler bytes []) (env i).sent]) :=
        List.mem_cons_of_mem _ (List.mem_append_right _ List.mem_cons_self)
      rcases h _ rfl _ _ hmem with hwhole | ⟨-, hclosed⟩
      · exact hwhole
      · exact absurd hclosed hused
    · intro hwhole next _ message response hmem
      rw [response_of_exchange hdevice hmem]
      exact Or.inl hwhole
  | brokenPipe hread hresult hne hcall hresponse hsent =>
    refine iff_of_true ?_ ?_
    · intro next hnext
      rw [hvisit] at hnext
      cases hnext
    · intro h
      obtain ⟨-, bytes', -, -, -, hcut⟩ := h
      rw [hsent] at hcut
      rcases hcut with hfailed | ⟨n, -, haccepted⟩
      · cases hfailed
      · cases haccepted
  | @silent bytes calls hread hresult hne hcall =>
    refine iff_of_true ?_ ?_
    · intro next hnext message response hmem
      rw [hvisit] at hnext ⊢
      cases hnext
      exact Or.inr ⟨by simp, setFd_fd_self ..⟩
    · intro h
      obtain ⟨-, bytes', hbytes, -, hresponse, -⟩ := h
      rw [hresult] at hbytes
      cases hbytes
      exact hresponse (handled_ok hcall).2
  | hungUp hevent =>
    have hnot := ne_pollIn_of_hungUp hevent
    exact iff_of_true (hdelivered (by simp)) fun h => hnot h.1.2
  | ignored hin hhup herr =>
    exact iff_of_true (hdelivered (by simp)) fun h => hin h.1.2

/-! ### Runs -/

/-- When the pass comes to a slot, what it will read is what `poll` reported. -/
theorem delivered_of_reaches {env : LoopEnv} {now : TcpServer}
    (h : Reaches handleIncomingMessage server env i now) :
    Delivered now env.slot i ↔ ¬ Truncates (server.polled env.revents) env.slot i := by
  obtain ⟨is, hnow⟩ := h.unvisited
  have htruncates : Truncates now env.slot i ↔
      Truncates (server.polled env.revents) env.slot i := by
    rw [Truncates, Truncates, hnow.readable_iff]
  by_cases hfree : (now.sockets i).fd = -1
  · refine iff_of_true ?_ ?_
    · apply delivered_of_silent
      rw [visit_of_free env.slot hfree]
      simp
    · intro hcut
      have hne : ((server.polled env.revents).sockets i).revents ≠ 0 := by
        rw [hcut.1.2]
        decide
      have hopen := polled_used hne
      have hfd := hnow.fd_of_reported hne
      omega
  · rw [← htruncates]
    exact delivered_iff hfree

/-- **Where responses are lost.**  In every run, from any state, every slot that the pass comes
to has its response taken whole or its connection closed, exactly when no response of a readable
client is refused or cut short by `send`. -/
theorem responses_delivered_iff (server : TcpServer) (envs : List LoopEnv) :
    (∀ pre env post now i here, envs = pre ++ env :: post →
        (server.loop handleIncomingMessage pre).result = .ok now →
        Reaches handleIncomingMessage now env i here → Delivered here env.slot i) ↔
      ∀ pre env post now i here, envs = pre ++ env :: post →
        (server.loop handleIncomingMessage pre).result = .ok now →
        Reaches handleIncomingMessage now env i here →
        ¬ Truncates (now.polled env.revents) env.slot i := by
  constructor
  · intro h pre env post now i here hsplit hpre hreaches
    exact (delivered_of_reaches hreaches).mp (h pre env post now i here hsplit hpre hreaches)
  · intro h pre env post now i here hsplit hpre hreaches
    exact (delivered_of_reaches hreaches).mpr (h pre env post now i here hsplit hpre hreaches)

/-- One byte of four is taken, and the connection stays open. -/
theorem truncated_response_kept :
    ∃ env here, (run handleIncomingMessage ⟨3, 0, 0⟩ [connects 4]).result = .ok connected ∧
      Reaches handleIncomingMessage connected env firstClient here ∧
      ¬ Delivered here env.slot firstClient := by
  have hresponse := shortMessage_response
  have hfirst : (connected.polled (shortMessage (.accepted 1)).revents).visit
      handleIncomingMessage (shortMessage (.accepted 1)).slot serverSlot
        = ⟨[], .ok (connected.polled (shortMessage (.accepted 1)).revents)⟩ := by
    apply visit_of_not_handled
    rw [polled_revents]
    decide +kernel
  have hreaches : Reaches handleIncomingMessage connected (shortMessage (.accepted 1))
      firstClient (connected.polled (shortMessage (.accepted 1)).revents) := by
    refine ⟨Int.one_pos, [serverSlot], _, finRange_eq, ?_⟩
    rw [List.foldlM_cons, hfirst]
    rfl
  have hcut : Truncates (connected.polled (shortMessage (.accepted 1)).revents)
      (shortMessage (.accepted 1)).slot firstClient := by
    refine ⟨shortMessage_readable _, [0x12, 0], by decide +kernel, by decide, ?_, ?_⟩
    · exact List.length_pos_iff.mp (hresponse.symm ▸ Nat.succ_pos 3)
    · exact Or.inr ⟨1, hresponse.symm ▸ Nat.one_lt_succ_succ 2, rfl⟩
  exact ⟨_, _, run_connected _, hreaches, fun h => (delivered_of_reaches hreaches).mp h hcut⟩

end ResponseDelivery

end FcsServer
