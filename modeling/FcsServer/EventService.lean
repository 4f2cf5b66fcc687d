import FcsServer.DescriptorConservation

/-!
# Which events are serviced

`poll` reports a combination of events in each slot.  The pass should read from every reported
client or close it; a slot that is neither read nor closed is reported again at once.

* `Serviced` — one `recv` on the descriptor, or the slot closed;
* `visit_frame`, `clients_frame` — a visit to one slot leaves the others alone;
* `pass_outcome` — what a whole pass does to one client slot;
* `events_serviced_iff` — in every run the reported clients are serviced exactly in the passes in
  which every client reports `POLLIN`, `POLLHUP` or `POLLERR` alone.
-/

namespace FcsServer

open Ledger TcpServer DescriptorConservation

namespace EventService

def isRecv (fd : ℤ) : Call → Bool
  | .recv d _ => d = fd
  | _ => false

/-- The number of `recv` calls on a descriptor. -/
def recvs (fd : ℤ) (calls : List Call) : ℕ := calls.countP (isRecv fd)

@[simp] theorem recvs_nil (fd : ℤ) : recvs fd [] = 0 := rfl

@[simp] theorem recvs_append (fd : ℤ) (c d : List Call) :
    recvs fd (c ++ d) = recvs fd c + recvs fd d := by
  simp [recvs]

@[simp] theorem recvs_cons (fd : ℤ) (x : Call) (c : List Call) :
    recvs fd (x :: c) = recvs fd c + if isRecv fd x then 1 else 0 :=
  List.countP_cons

/-- The callback neither keeps descriptors nor reads from clients. -/
structure Detached (onMessage : OnMessage) : Prop where
  neutral : NeutralCallback onMessage
  device : ∀ env message response, MessageHandler.DeviceOnly (onMessage env message response).calls

theorem recvs_of_deviceOnly {calls : List Call} (h : MessageHandler.DeviceOnly calls) (fd : ℤ) :
    recvs fd calls = 0 := by
  rw [recvs, List.countP_eq_zero]
  intro x hx
  have hdevice := h x hx
  cases x <;> simp_all [isRecv, MessageHandler.IsDeviceCall]

theorem handleIncomingMessage_detached : Detached MessageHandler.handleIncomingMessage := by
  refine ⟨handleIncomingMessage_neutral, ?_⟩
  intro env message response
  rw [MessageHandler.handleIncomingMessage_eq]
  exact MessageHandler.callsFor_deviceOnly env message

section Pass

variable {onMessage : OnMessage} {env : Slot → SlotEnv} {server server' : TcpServer} {i j : Slot}
  {fd : ℤ}

theorem recvs_of_callback (h : Detached onMessage) {handler : MessageHandler.Env}
    {bytes : List UInt8} {calls : List Call} {result : Except Stop (List UInt8)}
    (hcall : onMessage handler bytes [] = ⟨calls, result⟩) (fd : ℤ) : recvs fd calls = 0 := by
  have hcalls := recvs_of_deviceOnly (h.device handler bytes []) fd
  rwa [hcall] at hcalls

/-- A visit reads from the descriptor of its own slot, and from no other. -/
theorem recvs_visit_of_ne (h : Detached onMessage) (hfd : (server.sockets i).fd ≠ fd) :
    recvs fd (server.visit onMessage env i).calls = 0 := by
  rcases visit_cases onMessage env server i with ⟨-, hvisit⟩ | ⟨-, calls, result, hvisit, hH⟩
  · rw [hvisit]
    rfl
  · rw [hvisit]
    cases hH with
    | accepted hlisten hfree => rfl
    | tableFull hlisten hfull => rfl
    | noData hread hresult hnone => simp [isRecv, hfd]
    | faulted hread hresult hne hcall => simp [isRecv, hfd, recvs_of_callback h hcall]
    | answered hread hresult hne hcall hresponse hsent =>
      simp [isRecv, hfd, recvs_of_callback h hcall]
    | brokenPipe hread hresult hne hcall hresponse hsent =>
      simp [isRecv, hfd, recvs_of_callback h hcall]
    | silent hread hresult hne hcall => simp [isRecv, hfd, recvs_of_callback h hcall]
    | hungUp hevent => rfl
    | ignored hin hhup herr => rfl

/-- What became of the event of slot `i`: a client that reports data is read once, one that hung
up is closed, and a combination of events does nothing. -/
structure Outcome (server server' : TcpServer) (calls : List Call) (i : Slot) : Prop where
  read : (server.sockets i).revents = pollIn → recvs (server.sockets i).fd calls = 1
  unread : (server.sockets i).revents ≠ pollIn → recvs (server.sockets i).fd calls = 0
  closed : (server.sockets i).revents = pollHup ∨ (server.sockets i).revents = pollErr →
    .close (server.sockets i).fd ∈ calls ∧ (server'.sockets i).fd = -1
  kept : ¬ Handled (server.sockets i).revents → (server'.sockets i).fd = (server.sockets i).fd

/-- The visit to a client slot in use. -/
theorem visit_outcome (h : Detached onMessage) (hused : (server.sockets i).fd ≠ -1)
    (hclient : (server.sockets i).fd ≠ server.serverSocketFd)
    (hresult : (server.visit onMessage env i).result = .ok server') :
    Outcome server server' (server.visit onMessage env i).calls i := by
  obtain ⟨-, calls, result, hvisit, hH⟩ :=
    (visit_cases onMessage env server i).resolve_left fun hfree => hused hfree.1
  rw [hvisit] at hresult ⊢
  cases hresult
  -- a slot that was read reports `POLLIN`, so only the first field is about it
  have hread : ∀ {next : TcpServer} {calls : List Call}, Readable server i →
      recvs (server.sockets i).fd calls = 1 → Outcome server next calls i := by
    intro next calls hin hone
    have hin := hin.2
    refine ⟨fun _ => hone, fun hne => absurd hin hne, ?_, ?_⟩
    · intro hup
      exact absurd hin (ne_pollIn_of_hungUp hup)
    · intro hkept
      exact absurd (Or.inl hin) hkept
  cases hH with
  | accepted hlisten hfree => exact absurd hlisten.1 hclient
  | tableFull hlisten hfull => exact absurd hlisten.1 hclient
  | noData hin hrecv hnone => exact hread hin (by simp [isRecv])
  | answered hin hrecv hne hcall hresponse hsent =>
    exact hread hin (by simp [isRecv, recvs_of_callback h hcall])
  | silent hin hrecv hne hcall =>
    exact hread hin (by simp [isRecv, recvs_of_callback h hcall])
  | hungUp hevent =>
    refine ⟨?_, fun _ => rfl, fun _ => ⟨by simp, setFd_fd_self ..⟩, ?_⟩
    · intro hin
      exact absurd hin (ne_pollIn_of_hungUp hevent)
    · intro hkept
      exact absurd (Or.inr hevent) hkept
  | ignored hin hhup herr =>
    refine ⟨fun h => absurd h hin, fun _ => rfl, ?_, fun _ => rfl⟩
    intro hevent
    rcases hevent with hevent | hevent
    · exact absurd hevent hhup
    · exact absurd hevent herr

/-- What a visit to another client slot leaves as it is: the descriptor of slot `i`, whether it
is still open or not, and the number of reads from it. -/
structure Frame (i : Slot) (fd now : ℤ) (n : ℕ) (calls : List Call) (server : TcpServer) :
    Prop where
  agrees : Agrees calls server
  slot : (server.sockets i).fd = now
  others : ∀ k, k ≠ i → (server.sockets k).fd ≠ fd
  reads : recvs fd calls = n

theorem visit_frame (h : Detached onMessage) {now : ℤ} {n : ℕ} (hfd : fd ≠ -1) (hji : j ≠ i)
    (hj : j ≠ serverSlot) (server : TcpServer) :
    Traced.Triple (Fresh effect) (Safe effect) (fun calls => Frame i fd now n calls server)
      (server.visit onMessage env j) (Frame i fd now n) := by
  intro c hc hr
  obtain ⟨hsafe, hagrees⟩ := visit_agrees h.neutral env server j c hc.agrees hr
  refine ⟨hsafe, ?_⟩
  intro server' hresult
  have hreads : recvs fd (server.visit onMessage env j).calls = 0 :=
    recvs_visit_of_ne h (hc.others j hji)
  have hleaves := visit_leaves hresult
  refine ⟨hagrees server' hresult, ?_, ?_, ?_⟩
  · cases hleaves with
    | same => exact hc.slot
    | buffer buffer => exact hc.slot
    | accepted k fd' hlisten hfree => exact absurd (hc.agrees.eq_serverSlot hlisten) hj
    | closed buffer => simp [setFd_fd_of_ne _ _ hji.symm, hc.slot]
  · intro k hk
    cases hleaves with
    | same => exact hc.others k hk
    | buffer buffer => exact hc.others k hk
    | accepted k fd' hlisten hfree => exact absurd (hc.agrees.eq_serverSlot hlisten) hj
    | closed buffer =>
      rw [setFd_fd]
      split
      · exact hfd.symm
      · exact hc.others k hk
  · simp [hc.reads, hreads]

/-- The visits to other client slots. -/
theorem clients_frame (h : Detached onMessage) {now : ℤ} {n : ℕ} (hfd : fd ≠ -1)
    (is : List Slot) (his : ∀ j ∈ is, j ≠ i ∧ j ≠ serverSlot) (server : TcpServer) :
    Traced.Triple (Fresh effect) (Safe effect) (fun calls => Frame i fd now n calls server)
      (is.foldlM (visit onMessage env) server) (Frame i fd now n) := by
  apply Traced.Triple.foldlM fresh_left
  · intro c s hs
    exact hs.agrees.safe
  · intro j hj s
    exact visit_frame h hfd (his j hj).1 (his j hj).2 s

/-- The visit to slot 0 does not touch a client slot in use. -/
theorem first_frame (h : Detached onMessage) {calls : List Call} (hagrees : Agrees calls server)
    (hi : i ≠ serverSlot) (hused : (server.sockets i).fd ≠ -1)
    (hfresh : Fresh effect (calls ++ (server.visit onMessage env serverSlot).calls))
    (hresult : (server.visit onMessage env serverSlot).result = .ok server') :
    Frame i (server.sockets i).fd (server.sockets i).fd (recvs (server.sockets i).fd calls)
      (calls ++ (server.visit onMessage env serverSlot).calls) server' := by
  have hnext : Agrees (calls ++ (server.visit onMessage env serverSlot).calls) server' :=
    (visit_agrees h.neutral env server serverSlot calls hagrees hfresh).2 server' hresult
  have hother : (server.sockets serverSlot).fd ≠ (server.sockets i).fd := by
    intro heq
    exact hi (hagrees.distinct i serverSlot hused heq.symm)
  have hslot : (server'.sockets i).fd = (server.sockets i).fd := by
    cases visit_leaves hresult with
    | same => rfl
    | buffer buffer => rfl
    | accepted k fd hlisten hfree =>
      apply setFd_fd_of_ne
      intro hik
      exact hused (hik ▸ (freeSlot_eq_some hfree).2)
    | closed buffer => exact setFd_fd_of_ne _ _ hi
  refine ⟨hnext, hslot, ?_, ?_⟩
  · intro k hk heq
    rw [← hslot] at heq hused
    exact hk (hnext.distinct i k hused heq.symm).symm
  · simp [recvs_visit_of_ne h hother]

theorem foldlM_visit_revents (is : List Slot)
    (hresult : (is.foldlM (visit onMessage env) server).result = .ok server') :
    (server'.sockets i).revents = (server.sockets i).revents := by
  apply Traced.foldlM_invariant (p := fun s => (s.sockets i).revents
    = (server.sockets i).revents) is ?_ rfl hresult
  intro j _ s s' hs hs'
  rw [visit_revents hs' i]
  exact hs

/-- **What a whole pass does to one client slot.**  The slots before it and after it do not
matter, whatever they do. -/
theorem pass_outcome (h : Detached onMessage) {calls : List Call} (hagrees : Agrees calls server)
    (hi : i ≠ serverSlot) (hused : (server.sockets i).fd ≠ -1)
    (hfresh : Fresh effect (calls
      ++ ((List.finRange kNumberOfSockets).foldlM (visit onMessage env) server).calls))
    (hresult : ((List.finRange kNumberOfSockets).foldlM (visit onMessage env) server).result
      = .ok server') :
    Outcome server server'
      ((List.finRange kNumberOfSockets).foldlM (visit onMessage env) server).calls i := by
  obtain ⟨pre, post, hsplit⟩ := List.append_of_mem (mem_clientSlots.mpr hi)
  have hnodup : clientSlots.Nodup := by decide +kernel
  have hclients : ∀ j ∈ clientSlots, j ≠ serverSlot := fun j hj => mem_clientSlots.mp hj
  rw [hsplit] at hnodup hclients
  rw [List.nodup_middle, List.nodup_cons, List.mem_append, not_or] at hnodup
  have hpre : ∀ j ∈ pre, j ≠ i ∧ j ≠ serverSlot := by
    intro j hj
    exact ⟨ne_of_mem_of_not_mem hj hnodup.1.1, hclients j (List.mem_append_left _ hj)⟩
  have hpost : ∀ j ∈ post, j ≠ i ∧ j ≠ serverSlot := by
    intro j hj
    exact ⟨ne_of_mem_of_not_mem hj hnodup.1.2,
      hclients j (List.mem_append_right _ (List.mem_cons_of_mem i hj))⟩
  -- the pass is the visit to slot 0, the slots before `i`, slot `i`, and the slots after it
  rw [finRange_eq, hsplit, List.foldlM_cons] at hfresh hresult ⊢
  obtain ⟨s₀, h₀, hrest⟩ := Traced.bind_result_eq_ok.mp hresult
  rw [Traced.bind_of_ok _ h₀] at hfresh ⊢
  obtain ⟨s₁, h₁, htail, hcalls⟩ := Traced.foldlM_append_eq_ok hrest
  rw [List.foldlM_cons] at htail hcalls
  obtain ⟨s₂, h₂, h₃⟩ := Traced.bind_result_eq_ok.mp htail
  rw [Traced.bind_of_ok _ h₂] at hcalls
  simp only [hcalls, ← List.append_assoc] at hfresh ⊢
  have f₀ := first_frame h hagrees hi hused hfresh.left.left.left h₀
  have f₁ := (clients_frame h hused pre hpre s₀ _ f₀ hfresh.left.left).2 s₁ h₁
  have hrevents : (s₁.sockets i).revents = (server.sockets i).revents := by
    rw [foldlM_visit_revents pre h₁, visit_revents h₀]
  have hfd : (s₁.sockets i).fd = (server.sockets i).fd := f₁.slot
  have hown := visit_outcome h (by rw [hfd]; exact hused) (f₁.agrees.clients i hi) h₂
  have f₂ : Frame i (server.sockets i).fd (s₂.sockets i).fd
      (recvs (server.sockets i).fd calls
        + recvs (server.sockets i).fd (s₁.visit onMessage env i).calls) _ s₂ :=
    { agrees := (visit_agrees h.neutral env s₁ i _ f₁.agrees hfresh.left).2 s₂ h₂
      slot := rfl
      others := by
        intro k hk
        cases visit_leaves h₂ with
        | same => exact f₁.others k hk
        | buffer buffer => exact f₁.others k hk
        | accepted j fd hlisten hfree => exact absurd (f₁.agrees.eq_serverSlot hlisten) hi
        | closed buffer =>
          rw [setFd_fd_of_ne _ _ hk]
          exact f₁.others k hk
      reads := by rw [recvs_append, f₁.reads] }
  have f₃ := (clients_frame h hused post hpost s₂ _ f₂ hfresh).2 server' h₃
  have hcount := f₃.reads
  simp only [recvs_append] at hcount
  constructor
  · intro hin
    have hone := hown.read (by rw [hrevents]; exact hin)
    rw [hfd] at hone
    simp only [recvs_append]
    omega
  · intro hin
    have hzero := hown.unread (by rw [hrevents]; exact hin)
    rw [hfd] at hzero
    simp only [recvs_append]
    omega
  · intro hup
    obtain ⟨hclose, hclosed⟩ := hown.closed (by rw [hrevents]; exact hup)
    rw [hfd] at hclose
    refine ⟨by simp [hclose], ?_⟩
    rw [f₃.slot, hclosed]
  · intro hkept
    rw [f₃.slot, hown.kept (by rw [hrevents]; exact hkept), hfd]

end Pass

/-! ### The law -/

/-- `poll` reports something for a client slot. -/
def Reports (server : TcpServer) (env : LoopEnv) (i : Slot) : Prop :=
  i ≠ serverSlot ∧ ((server.polled env.revents).sockets i).revents ≠ 0

/-- The slot was read from once, or closed. -/
def Serviced (server server' : TcpServer) (calls : List Call) (i : Slot) : Prop :=
  recvs (server.sockets i).fd calls = 1 ∨
    .close (server.sockets i).fd ∈ calls ∧ (server'.sockets i).fd = -1

variable {onMessage : OnMessage} {server server' : TcpServer} {env : LoopEnv}

/-- `poll` reports nothing for a slot that is not in use. -/
theorem Reports.used {i : Slot} (h : Reports server env i) : (server.sockets i).fd ≠ -1 := by
  intro hfree
  apply h.2
  simp [polled_revents, hfree]

/-- A reported slot is serviced when its event is one that the handler has a branch for. -/
theorem serviced_iff_handled (hd : Detached onMessage) {calls : List Call}
    (hagrees : Agrees calls server) (hevents : 0 < env.numberOfEvents)
    (hfresh : Fresh effect (calls ++ (server.iteration onMessage env).calls))
    (hresult : (server.iteration onMessage env).result = .ok server') {i : Slot}
    (hi : Reports server env i) :
    Serviced server server' (server.iteration onMessage env).calls i ↔
      Handled ((server.polled env.revents).sockets i).revents := by
  have hpass : server.iteration onMessage env = ⟨server.pollCall env
      :: ((List.finRange kNumberOfSockets).foldlM (visit onMessage env.slot)
        (server.polled env.revents)).calls,
      ((List.finRange kNumberOfSockets).foldlM (visit onMessage env.slot)
        (server.polled env.revents)).result⟩ := by
    rw [iteration, Traced.call_bind, if_neg (by omega), if_neg (by omega)]
    rfl
  have hpolled : Agrees (calls ++ [server.pollCall env]) (server.polled env.revents) :=
    (hagrees.quiet rfl).congr (fun k => polled_fd server k env.revents) rfl
  have hused : ((server.polled env.revents).sockets i).fd ≠ -1 := by
    rw [polled_fd]
    exact hi.used
  rw [hpass] at hfresh hresult ⊢
  rw [List.append_cons] at hfresh
  have hout := pass_outcome hd hpolled hi.1 hused hfresh hresult
  rw [Serviced, ← polled_fd server i env.revents, recvs_cons]
  simp only [pollCall, isRecv, Bool.false_eq_true, if_false, Nat.add_zero]
  constructor
  · intro hserviced
    by_contra hnot
    have hin : ((server.polled env.revents).sockets i).revents ≠ pollIn :=
      fun heq => hnot (Or.inl heq)
    rcases hserviced with hone | ⟨-, hclosed⟩
    · rw [hout.unread hin] at hone
      exact absurd hone (by decide)
    · rw [hout.kept hnot] at hclosed
      exact hused hclosed
  · intro hhandled
    rcases hhandled with hin | hup
    · exact Or.inl (hout.read hin)
    · obtain ⟨hclose, hclosed⟩ := hout.closed hup
      exact Or.inr ⟨List.mem_cons_of_mem _ hclose, hclosed⟩

/-- **Which passes service every reported client.**  In every run, for every pass that comes to
its end: exactly those in which each client reports `POLLIN`, `POLLHUP` or `POLLERR` alone. -/
theorem events_serviced_iff (setupEnv : SetupEnv) (envs : List LoopEnv)
    (hfresh : Fresh effect (run MessageHandler.handleIncomingMessage setupEnv envs).calls) :
    ∀ pre env post server server', envs = pre ++ env :: post →
      (run MessageHandler.handleIncomingMessage setupEnv pre).result = .ok server →
      (server.iteration MessageHandler.handleIncomingMessage env).result = .ok server' →
      0 < env.numberOfEvents →
      ((∀ i, Reports server env i → Serviced server server'
          (server.iteration MessageHandler.handleIncomingMessage env).calls i) ↔
        ∀ i, Reports server env i →
          Handled ((server.polled env.revents).sockets i).revents) := by
  intro pre env post server server' hsplit hrun hresult hevents
  obtain ⟨rest, hcalls⟩ := run_snoc_calls hrun env post
  rw [hsplit, hcalls] at hfresh
  have hagrees := agrees_of_run handleIncomingMessage_neutral hfresh.left.left hrun
  have hslot := fun i (hi : Reports server env i) =>
    serviced_iff_handled handleIncomingMessage_detached hagrees hevents hfresh.left hresult hi
  constructor
  · intro h i hi
    exact (hslot i hi).mp (h i hi)
  · intro h i hi
    exact (hslot i hi).mpr (h i hi)

/-- The answers when the connection of the first client was reset, and nothing else happened. -/
def resets (events : UInt16) : LoopEnv :=
  only firstClient events ((connects 4).slot firstClient)

/-- A client that hangs up. -/
theorem events_serviced_hangup :
    ∃ server', (connected.iteration MessageHandler.handleIncomingMessage (resets pollHup)).result
        = .ok server' ∧
      ((∀ i, Reports connected (resets pollHup) i → Serviced connected server'
          (connected.iteration MessageHandler.handleIncomingMessage (resets pollHup)).calls i) ↔
        ∀ i, Reports connected (resets pollHup) i →
          Handled ((connected.polled (resets pollHup).revents).sockets i).revents) := by
  have hfresh : Fresh effect (run MessageHandler.handleIncomingMessage ⟨3, 0, 0⟩
      [connects 4, resets pollHup]).calls := by
    decide +kernel
  have hpass : (connected.iteration MessageHandler.handleIncomingMessage
      (resets pollHup)).result.isOk = true := by
    decide +kernel
  cases hresult : (connected.iteration MessageHandler.handleIncomingMessage
      (resets pollHup)).result with
  | error stop =>
    rw [hresult] at hpass
    cases hpass
  | ok server' =>
    exact ⟨server', rfl, events_serviced_iff ⟨3, 0, 0⟩ _ hfresh [connects 4] (resets pollHup) []
      connected server' rfl (run_connected _) hresult Int.one_pos⟩

/-- A reset connection is reported as `POLLIN`, `POLLERR` and `POLLHUP` at once, and left as it
is. -/
theorem reset_not_serviced :
    ∃ env server', (run MessageHandler.handleIncomingMessage ⟨3, 0, 0⟩ [connects 4]).result
        = .ok connected ∧
      (connected.iteration MessageHandler.handleIncomingMessage env).result = .ok server' ∧
      ((connected.polled env.revents).sockets firstClient).revents
        = pollIn ||| pollErr ||| pollHup ∧
      Reports connected env firstClient ∧ ¬ Serviced connected server'
        (connected.iteration MessageHandler.handleIncomingMessage env).calls firstClient := by
  have hevents : ((connected.polled (resets (pollIn ||| pollErr ||| pollHup)).revents).sockets
      firstClient).revents = pollIn ||| pollErr ||| pollHup :=
    polled_only _ _ (by rw [connected_fd]; decide)
  have hquiet : ∀ i, ¬ Handled ((connected.polled
      (resets (pollIn ||| pollErr ||| pollHup)).revents).sockets i).revents := by
    intro i
    by_cases hi : i = firstClient
    · rw [hi, hevents]
      decide
    · exact only_not_handled _ _ i hi
  have hpass : connected.iteration MessageHandler.handleIncomingMessage
      (resets (pollIn ||| pollErr ||| pollHup)) = _ :=
    iteration_of_not_handled Int.one_pos hquiet
  refine ⟨resets (pollIn ||| pollErr ||| pollHup), _, run_connected _,
    congrArg Traced.result hpass, hevents, ⟨by decide, ?_⟩, ?_⟩
  · rw [hevents]
    decide
  · rw [hpass]
    simp [Serviced, pollCall, isRecv]

end EventService

end FcsServer
