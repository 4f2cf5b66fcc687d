import FcsServer.DescriptorConservation

/-!
# The listening socket

Slot 0 goes through the same handler as the clients.  The branch for `POLLHUP` and `POLLERR`
closes it like any other, and `serverSocketFd` still names the closed descriptor.

* `HangsUp` — `poll` reports `POLLHUP` or `POLLERR` for slot 0;
* `HoldsListener` — the invariant: slot 0 holds the listening socket, which was never closed;
* `visit_keeps`, `iteration_keeps`, `loop_keeps` — it is kept unless slot 0 hangs up;
* `Hears` — what holds at a loop head; `hears_iff` — in which runs it does.
-/

namespace FcsServer

open Ledger TcpServer MessageHandler DescriptorConservation

namespace Listening

/-- The descriptors of the `close` calls. -/
def closes (calls : List Call) : List ℤ :=
  calls.filterMap fun x => match x with
    | .close fd => some fd
    | _ => none

/-- Slot 0 reports an event for which the handler closes the slot. -/
def HangsUp (server : TcpServer) : Prop :=
  (server.sockets serverSlot).revents = pollHup ∨ (server.sockets serverSlot).revents = pollErr

/-- What should hold at a loop head after the calls `sofar` of a run: slot 0 holds the listening
socket and is polled for `POLLIN`, nothing in the whole run closes that socket, and `closeSockets`
would close each open descriptor exactly once. -/
structure Hears (server : TcpServer) (sofar whole : List Call) : Prop where
  slot : (server.sockets serverSlot).fd = server.serverSocketFd
  events : (server.sockets serverSlot).events = pollIn
  unclosed : .close server.serverSocketFd ∉ whole
  once : (closes server.closeSockets.calls).Nodup
  shutdown : ∀ fd, fd ∈ closes server.closeSockets.calls ↔
    fd ≠ -1 ∧ (StillOpen .socket sofar fd ∨ StillOpen .accept sofar fd)

/-- **The invariant**: the table agrees with the ledger, and the listening socket `fd` is in slot
0 and was never closed. -/
structure HoldsListener (fd : ℤ) (calls : List Call) (server : TcpServer) : Prop where
  agrees : Agrees calls server
  slot : (server.sockets serverSlot).fd = fd
  listener : server.serverSocketFd = fd
  unclosed : .close fd ∉ calls

variable {server : TcpServer} {calls : List Call} {fd : ℤ} {i : Slot}

/-! ### `closeSockets` -/

theorem closeSockets_calls (server : TcpServer) :
    closes server.closeSockets.calls
      = (clientSlots.filter fun i => (server.sockets i).fd ≠ -1).map
          (fun i => (server.sockets i).fd) ++ [server.serverSocketFd] := by
  have hloop : ∀ is : List Slot, (is.foldlM server.closeIfUsed ()).result = .ok () ∧
      closes (is.foldlM server.closeIfUsed ()).calls
        = (is.filter fun i => (server.sockets i).fd ≠ -1).map
          fun i => (server.sockets i).fd := by
    intro is
    induction is with
    | nil => exact ⟨rfl, rfl⟩
    | cons i is ih =>
      obtain ⟨hresult, hcalls⟩ := ih
      rw [List.foldlM_cons, closeIfUsed]
      by_cases hused : (server.sockets i).fd ≠ -1
      · have hkept : ((i :: is).filter fun i => (server.sockets i).fd ≠ -1)
            = i :: is.filter fun i => (server.sockets i).fd ≠ -1 := by
          simp [hused]
        rw [if_pos hused, Traced.call_bind, hkept, List.map_cons, ← hcalls]
        exact ⟨hresult, rfl⟩
      · have hskipped : ((i :: is).filter fun i => (server.sockets i).fd ≠ -1)
            = is.filter fun i => (server.sockets i).fd ≠ -1 := by
          simp [not_not.mp hused]
        rw [if_neg hused, Traced.pure_bind', hskipped]
        exact ⟨hresult, hcalls⟩
  obtain ⟨hresult, hcalls⟩ := hloop clientSlots
  rw [closeSockets, Traced.bind_of_ok _ hresult, closes, List.filterMap_append, ← hcalls]
  rfl

/-- With the listening socket in slot 0, `closeSockets` closes what is open, and each descriptor
once. -/
theorem shutdown_of_agrees (h : Agrees calls server)
    (hslot : (server.sockets serverSlot).fd = server.serverSocketFd) :
    (closes server.closeSockets.calls).Nodup ∧ ∀ d, d ∈ closes server.closeSockets.calls ↔
      d ≠ -1 ∧ (StillOpen .socket calls d ∨ StillOpen .accept calls d) := by
  rw [closeSockets_calls]
  constructor
  · rw [List.nodup_append]
    refine ⟨?_, List.nodup_singleton _, ?_⟩
    · refine List.Nodup.map_on ?_ (List.Nodup.filter _ (by decide +kernel))
      intro j hj k _ hjk
      exact h.distinct j k (by simpa using (List.mem_filter.mp hj).2) hjk
    · intro d hd d' hd' hdd'
      obtain ⟨j, hj, rfl⟩ := List.mem_map.mp hd
      rw [List.mem_singleton.mp hd'] at hdd'
      exact h.clients j (mem_clientSlots.mp (List.mem_filter.mp hj).1) hdd'
  · intro d
    have howner : d ≠ -1 ∧ (StillOpen .socket calls d ∨ StillOpen .accept calls d) ↔
        ∃ i, (server.sockets i).fd = d ∧ d ≠ -1 := by
      rw [and_or_left, ← held_listener, ← held_client, h.held, h.held]
      constructor
      · intro hheld
        rcases hheld with ⟨i, hi, hd, -⟩ | ⟨i, hi, hd, -⟩
        · exact ⟨i, hi, hd⟩
        · exact ⟨i, hi, hd⟩
      · intro hslot
        obtain ⟨i, hi, hd⟩ := hslot
        by_cases his : i = serverSlot
        · exact Or.inl ⟨i, hi, hd, (if_pos his).symm⟩
        · exact Or.inr ⟨i, hi, hd, (if_neg his).symm⟩
    rw [howner, List.mem_append, List.mem_singleton]
    constructor
    · intro hd
      rcases hd with hd | rfl
      · obtain ⟨j, hj, rfl⟩ := List.mem_map.mp hd
        exact ⟨j, rfl, by simpa using (List.mem_filter.mp hj).2⟩
      · exact ⟨serverSlot, hslot, h.opened⟩
    · intro hd
      obtain ⟨j, rfl, hopen⟩ := hd
      by_cases hjs : j = serverSlot
      · rw [hjs]
        exact Or.inr hslot
      · exact Or.inl (List.mem_map.mpr ⟨j, List.mem_filter.mpr
          ⟨mem_clientSlots.mpr hjs, by simpa using hopen⟩, rfl⟩)

theorem HoldsListener.shutdown (h : HoldsListener fd calls server) :
    (closes server.closeSockets.calls).Nodup ∧ ∀ d, d ∈ closes server.closeSockets.calls ↔
      d ≠ -1 ∧ (StillOpen .socket calls d ∨ StillOpen .accept calls d) :=
  shutdown_of_agrees h.agrees (h.slot.trans h.listener.symm)

theorem HoldsListener.hears (h : HoldsListener fd calls server) {whole : List Call}
    (hevents : (server.sockets serverSlot).events = pollIn) (hwhole : .close fd ∉ whole) :
    Hears server calls whole := by
  refine ⟨h.slot.trans h.listener.symm, hevents, ?_, h.shutdown.1, h.shutdown.2⟩
  rw [h.listener]
  exact hwhole

/-! ### One visit -/

/-- A device call closes the descriptor it opened, which was not open before. -/
theorem deviceCalls_unclosed {h : List (Owner × ℤ)} {o : Owner} (driver : Driver)
    (command : DevCommand) (data : IntelFcsDevIoctl)
    (hf : Obeys FreshAt effect h (FcsCommunication.deviceCalls driver command data))
    (hopen : (o, fd) ∈ h) : .close fd ∉ FcsCommunication.deviceCalls driver command data := by
  rw [FcsCommunication.deviceCalls] at hf ⊢
  by_cases hdown : driver.openDevice < 0
  · rw [if_pos hdown]
    simp
  · rw [if_neg hdown] at hf ⊢
    have hx : effect (.openDevice driver.openDevice) = .acquire .device driver.openDevice :=
      if_neg hdown
    have hfree : ∀ o, (o, driver.openDevice) ∉ h := by
      have hat := hf.1
      rwa [hx, freshAt_acquire] at hat
    intro hmem
    have heq : fd = driver.openDevice := by simpa using hmem
    rw [heq] at hopen
    exact hfree o hopen

/-- The callback does not close the listening socket. -/
theorem HoldsListener.callback (h : HoldsListener fd calls server) {env : Env}
    {m : List UInt8} {x : Call} {rest : List Call} (hx : effect x = .nothing)
    (hf : Fresh effect (calls ++ x :: (callsFor env m ++ rest))) : .close fd ∉ callsFor env m := by
  have hopen : (Owner.listener, fd) ∈ held effect calls := by
    rw [h.agrees.held]
    exact ⟨serverSlot, h.slot, h.listener ▸ h.agrees.opened, (if_pos rfl).symm⟩
  have hcallback : Obeys FreshAt effect (held effect calls) (callsFor env m) := by
    have hrest := (obeys_append.mp hf).2.2
    rw [hx] at hrest
    exact hrest.left
  rw [callsFor] at hcallback ⊢
  cases hcmd : commandOf m with
  | none => simp
  | some c =>
    rw [hcmd] at hcallback
    exact deviceCalls_unclosed _ _ _ hcallback hopen

/-- Only a slot of a client is closed. -/
theorem HoldsListener.client (h : HoldsListener fd calls server) (hi : i ≠ serverSlot) :
    (server.sockets i).fd ≠ fd := by
  rw [← h.listener]
  exact h.agrees.clients i hi

theorem HoldsListener.ne_of_readable (h : HoldsListener fd calls server)
    (hread : Readable server i) : i ≠ serverSlot := by
  intro hi
  rw [Readable, hi, h.slot, h.listener] at hread
  exact hread.1 rfl

/-- **A visit leaves the listening socket in place**, whatever it does, unless slot 0 hangs
up. -/
theorem visit_listening {env : Slot → SlotEnv} (h : HoldsListener fd calls server)
    (hquiet : ¬ HangsUp server)
    (hf : Fresh effect (calls ++ (server.visit handleIncomingMessage env i).calls)) :
    .close fd ∉ (server.visit handleIncomingMessage env i).calls ∧
      ∀ next, (server.visit handleIncomingMessage env i).result = .ok next →
        (next.sockets serverSlot).fd = fd ∧ next.serverSocketFd = fd := by
  have hkept : ∀ {next : TcpServer} {j : Slot} {d : ℤ} (buffer : List UInt8),
      next = (server.setBuffer buffer).setFd j d → j ≠ serverSlot →
        (next.sockets serverSlot).fd = fd ∧ next.serverSocketFd = fd := by
    intro next j d buffer hnext hj
    rw [hnext, setFd_fd_of_ne _ _ hj.symm]
    exact ⟨h.slot, h.listener⟩
  rcases visit_cases handleIncomingMessage env server i with
    ⟨-, hvisit⟩ | ⟨-, calls', result, hvisit, hH⟩
  · rw [hvisit]
    refine ⟨by simp, ?_⟩
    intro next hnext
    cases hnext
    exact ⟨h.slot, h.listener⟩
  · rw [hvisit] at hf ⊢
    cases hH with
    | accepted hlisten hfree =>
      refine ⟨by simp, ?_⟩
      intro next hnext
      cases hnext
      exact hkept server.messageBuffer rfl (freeSlot_eq_some hfree).1
    | tableFull hlisten hfull =>
      refine ⟨by simp, ?_⟩
      intro next hnext
      cases hnext
      exact ⟨h.slot, h.listener⟩
    | noData hread hresult hnone =>
      have hi := h.ne_of_readable hread
      refine ⟨by simp [(h.client hi).symm], ?_⟩
      intro next hnext
      cases hnext
      exact hkept _ rfl hi
    | faulted hread hresult hne hcall => exact absurd hcall handled_ne_error
    | answered hread hresult hne hcall hresponse hsent =>
      obtain ⟨rfl, -⟩ := handled_ok hcall
      refine ⟨by simp [h.callback rfl hf], ?_⟩
      intro next hnext
      cases hnext
      exact ⟨h.slot, h.listener⟩
    | brokenPipe hread hresult hne hcall hresponse hsent =>
      obtain ⟨rfl, -⟩ := handled_ok hcall
      refine ⟨by simp [h.callback rfl hf], ?_⟩
      intro next hnext
      cases hnext
    | silent hread hresult hne hcall =>
      have hi := h.ne_of_readable hread
      obtain ⟨rfl, -⟩ := handled_ok hcall
      refine ⟨by simp [h.callback rfl hf, (h.client hi).symm], ?_⟩
      intro next hnext
      cases hnext
      exact hkept _ rfl hi
    | hungUp hevent =>
      have hi : i ≠ serverSlot := by
        intro hi
        rw [hi] at hevent
        exact hquiet hevent
      refine ⟨by simp [(h.client hi).symm], ?_⟩
      intro next hnext
      cases hnext
      exact hkept server.messageBuffer rfl hi
    | ignored hin hhup herr =>
      refine ⟨by simp, ?_⟩
      intro next hnext
      cases hnext
      exact ⟨h.slot, h.listener⟩

/-! ### From one slot to a run -/

/-- Keeping the invariant, and never closing the listening socket on the way. -/
abbrev KeepsListening (fd : ℤ) (pre : List Call → Prop) (x : Proc TcpServer)
    (post : List Call → TcpServer → Prop) : Prop :=
  Traced.Triple (Fresh effect) (fun calls => .close fd ∉ calls) pre x post

theorem visit_keeps (env : Slot → SlotEnv) (server : TcpServer) (i : Slot) :
    KeepsListening fd (fun calls => HoldsListener fd calls server ∧ ¬ HangsUp server)
      (server.visit handleIncomingMessage env i)
      (fun calls next => HoldsListener fd calls next ∧ ¬ HangsUp next) := by
  intro c hc hr
  obtain ⟨hholds, hquiet⟩ := hc
  obtain ⟨hcalls, hslot⟩ := visit_listening hholds hquiet hr
  have hunclosed : .close fd ∉ c ++ (server.visit handleIncomingMessage env i).calls := by
    rw [List.mem_append, not_or]
    exact ⟨hholds.unclosed, hcalls⟩
  refine ⟨hunclosed, ?_⟩
  intro next hnext
  have hagrees := (visit_agrees handleIncomingMessage_neutral env server i c hholds.agrees hr).2
  refine ⟨⟨hagrees next hnext, (hslot next hnext).1, (hslot next hnext).2, hunclosed⟩, ?_⟩
  rw [HangsUp, visit_revents hnext]
  exact hquiet

theorem dropIfUsed_keeps (server : TcpServer) (hi : i ≠ serverSlot) :
    KeepsListening fd (fun calls => HoldsListener fd calls server) (server.dropIfUsed i)
      (HoldsListener fd) := by
  intro c hc hr
  have hagrees := (dropIfUsed_agrees server i c hc.agrees hr).2
  rcases dropIfUsed_cases server i with ⟨-, hdrop⟩ | ⟨-, hdrop⟩
  · rw [hdrop, List.append_nil]
    refine ⟨hc.unclosed, ?_⟩
    intro next hnext
    cases hnext
    exact hc
  · rw [hdrop] at hagrees ⊢
    have hunclosed : .close fd ∉ c ++ [.close (server.sockets i).fd] := by
      simp [hc.unclosed, (hc.client hi).symm]
    refine ⟨hunclosed, ?_⟩
    intro next hnext
    have hnext' := hagrees next hnext
    cases hnext
    exact ⟨hnext', (setFd_fd_of_ne _ _ hi.symm).trans hc.slot, hc.listener, hunclosed⟩

/-- **One iteration**, unless slot 0 hangs up in its pass. -/
theorem iteration_keeps (fd : ℤ) (server : TcpServer) (env : LoopEnv)
    (hquiet : 0 < env.numberOfEvents → ¬ HangsUp (server.polled env.revents)) :
    KeepsListening fd (fun calls => HoldsListener fd calls server)
      (server.iteration handleIncomingMessage env) (HoldsListener fd) := by
  rw [iteration]
  refine Traced.Triple.bind fresh_left (Traced.Triple.call'
    (q := fun calls => HoldsListener fd calls (server.polled env.revents))
    (fun _ h => h.unclosed) ?_) ?_
  · intro c hc _
    refine ⟨?_, ?_, hc.listener, by simp [hc.unclosed]⟩
    · exact (hc.agrees.quiet rfl).congr (fun i => polled_fd server i env.revents) rfl
    · rw [polled_fd]
      exact hc.slot
  · intro _
    split
    · exact Traced.Triple.stop' (fun _ h => h.unclosed)
    · split
      · refine Traced.Triple.foldlM fresh_left (fun _ _ h => h.unclosed) _ ?_ _
        intro i hi s
        exact dropIfUsed_keeps s (mem_clientSlots.mp hi)
      · rename_i hneg hzero
        have hpass := Traced.Triple.foldlM
          (p := fun calls s => HoldsListener fd calls s ∧ ¬ HangsUp s) fresh_left
          (fun _ _ h => h.1.unclosed) (List.finRange kNumberOfSockets)
          (fun i _ s => visit_keeps env.slot s i) (server.polled env.revents)
        intro c hc hr
        obtain ⟨hguar, hpost⟩ := hpass c ⟨hc, hquiet (by omega)⟩ hr
        exact ⟨hguar, fun next hnext => (hpost next hnext).1⟩

/-- **A run from a loop head**, unless slot 0 hangs up in one of its passes. -/
theorem loop_keeps (envs : List LoopEnv) (server : TcpServer)
    (hquiet : ∀ pre env post now, envs = pre ++ env :: post →
      (server.loop handleIncomingMessage pre).result = .ok now → 0 < env.numberOfEvents →
      ¬ HangsUp (now.polled env.revents)) :
    KeepsListening fd (fun calls => HoldsListener fd calls server)
      (server.loop handleIncomingMessage envs) (HoldsListener fd) := by
  induction envs generalizing server with
  | nil => exact Traced.Triple.pure' (fun _ h => h.unclosed) (fun _ h => h)
  | cons env envs ih =>
    intro c hc hr
    have hfirst := iteration_keeps fd server env (hquiet [] env envs server rfl rfl) c hc
    rw [loop] at hr ⊢
    cases hiter : (server.iteration handleIncomingMessage env).result with
    | error stop =>
      rw [Traced.foldlM_cons_of_error envs hiter] at hr ⊢
      refine ⟨(hfirst hr).1, ?_⟩
      intro next hnext
      cases hnext
    | ok next =>
      rw [Traced.foldlM_cons_of_ok envs hiter, ← List.append_assoc] at hr ⊢
      refine ih next ?_ _ ((hfirst hr.left).2 next hiter) hr
      intro pre env' post now hsplit hpre
      refine hquiet (env :: pre) env' post now (congrArg (env :: ·) hsplit) ?_
      rw [loop, Traced.foldlM_cons_of_ok pre hiter]
      exact hpre

/-- `setup` puts the listening socket into slot 0. -/
theorem setup_holds {setupEnv : SetupEnv} {started : TcpServer}
    (hsetup : (setup setupEnv {}).result = .ok started)
    (hf : Fresh effect (setup setupEnv {}).calls) :
    HoldsListener started.serverSocketFd (setup setupEnv {}).calls started := by
  have hagrees := (setup_agrees setupEnv [] rfl hf).2 started hsetup
  rw [List.nil_append] at hagrees
  refine ⟨hagrees, ?_, rfl, ?_⟩
  · rw [setup_eq] at hsetup
    split_ifs at hsetup
    cases hsetup
    rw [clearSockets_fd, if_pos rfl]
    rfl
  · rw [setup_eq]
    split_ifs <;> simp

/-- The handler closes slot 0 when it hangs up. -/
theorem close_of_hangsUp {env : LoopEnv} (hevents : 0 < env.numberOfEvents)
    (hup : HangsUp (server.polled env.revents)) :
    .close (server.sockets serverSlot).fd
      ∈ (server.iteration handleIncomingMessage env).calls := by
  have hopen : 0 ≤ (server.sockets serverSlot).fd := by
    apply polled_used
    rcases hup with hup | hup <;> rw [hup] <;> decide
  have hused : ((server.polled env.revents).sockets serverSlot).fd ≠ -1 := by
    rw [polled_fd]
    omega
  rw [iteration, Traced.call_bind, if_neg (by omega), if_neg (by omega), finRange_eq,
    List.foldlM_cons, visit_of_hungUp env.slot hused hup, Traced.mk_ok_bind, polled_fd]
  simp

/-- **In which runs the server keeps listening**: at every loop head slot 0 holds the listening
socket and is polled for `POLLIN`, no call of the run closes that socket, and `closeSockets` would
close each open descriptor once, exactly when `poll` never reports `POLLHUP` or `POLLERR` alone for
slot 0. -/
theorem hears_iff (setupEnv : SetupEnv) (envs : List LoopEnv)
    (hfresh : Fresh effect (run handleIncomingMessage setupEnv envs).calls) :
    (∀ pre post server, envs = pre ++ post →
        (run handleIncomingMessage setupEnv pre).result = .ok server →
        Hears server (run handleIncomingMessage setupEnv pre).calls
          (run handleIncomingMessage setupEnv envs).calls) ↔
      ∀ pre env post server, envs = pre ++ env :: post →
        (run handleIncomingMessage setupEnv pre).result = .ok server →
        0 < env.numberOfEvents → ¬ HangsUp (server.polled env.revents) := by
  constructor
  · intro h pre env post server hsplit hrun hevents hup
    have hhears := h pre (env :: post) server hsplit hrun
    obtain ⟨rest, hcalls⟩ := run_snoc_calls hrun env post
    have hclose := close_of_hangsUp hevents hup
    rw [hhears.slot] at hclose
    apply hhears.unclosed
    rw [hsplit, hcalls]
    exact List.mem_append_left _ (List.mem_append_right _ hclose)
  · intro hquiet pre post server hsplit hrun
    obtain ⟨started, hsetup, hloop⟩ := Traced.bind_result_eq_ok.mp hrun
    have hruns : ∀ envs, run handleIncomingMessage setupEnv envs
        = ⟨(setup setupEnv {}).calls ++ (started.loop handleIncomingMessage envs).calls,
            (started.loop handleIncomingMessage envs).result⟩ := by
      intro envs
      rw [run, Traced.bind_of_ok _ hsetup]
    have hprefix : Fresh effect (run handleIncomingMessage setupEnv pre).calls := by
      rw [hsplit, run_append hrun] at hfresh
      exact hfresh.left
    simp only [hruns] at hfresh hprefix hquiet ⊢
    have hstarted := setup_holds hsetup hfresh.left
    have hall := (loop_keeps envs started hquiet _ hstarted hfresh).1
    have hpre : ∀ pre' env mid now, pre = pre' ++ env :: mid →
        (started.loop handleIncomingMessage pre').result = .ok now → 0 < env.numberOfEvents →
        ¬ HangsUp (now.polled env.revents) := by
      intro pre' env mid now hpre'
      apply hquiet pre' env (mid ++ post) now
      rw [hsplit, hpre', List.append_assoc]
      rfl
    have hholds := (loop_keeps pre started hpre _ hstarted hprefix).2 server hloop
    exact hholds.hears (events_of_run hrun) hall

/-- A client connects. -/
theorem hears_connects :
    Hears connected (run handleIncomingMessage ⟨3, 0, 0⟩ [connects 4]).calls
      (run handleIncomingMessage ⟨3, 0, 0⟩ [connects 4]).calls := by
  have hfresh : Fresh effect (run handleIncomingMessage ⟨3, 0, 0⟩ [connects 4]).calls := by
    decide +kernel
  refine (hears_iff ⟨3, 0, 0⟩ [connects 4] hfresh).mpr ?_ [connects 4] [] connected rfl
    (run_connected _)
  intro pre env post server hsplit _ _ hup
  have henv : env = connects 4 := by
    have hmem : env ∈ [connects 4] := by
      rw [hsplit]
      exact List.mem_append_right _ List.mem_cons_self
    exact List.mem_singleton.mp hmem
  have hevent : (connects 4).revents serverSlot = pollIn := rfl
  rw [HangsUp, polled_revents, henv, hevent] at hup
  split at hup
  · exact absurd hup (by decide)
  · exact ne_pollIn_of_hungUp hup rfl

/-- The answers when the listening socket hangs up. -/
def listenerHangsUp : LoopEnv := only serverSlot pollHup ((connects 4).slot serverSlot)

/-- The listening socket is closed, and `closeSockets` would close it again. -/
theorem listener_closed :
    ∃ env server, 0 < env.numberOfEvents ∧
      (run handleIncomingMessage ⟨3, 0, 0⟩ [env]).result = .ok server ∧
      server.serverSocketFd = 3 ∧ (server.sockets serverSlot).fd = -1 ∧
      .close 3 ∈ (run handleIncomingMessage ⟨3, 0, 0⟩ [env]).calls ∧
      closes server.closeSockets.calls = [3] := by
  let next : TcpServer := (started.polled listenerHangsUp.revents).setFd serverSlot (-1)
  have hfd : (started.sockets serverSlot).fd = 3 := by
    rw [started, clearSockets_fd, if_pos rfl]
  have hused : ((started.polled listenerHangsUp.revents).sockets serverSlot).fd ≠ -1 := by
    rw [polled_fd, hfd]
    decide
  have hevent : ((started.polled listenerHangsUp.revents).sockets serverSlot).revents
      = pollHup := by
    exact polled_only pollHup _ (by rw [hfd]; decide)
  have hresult : (run handleIncomingMessage ⟨3, 0, 0⟩ [listenerHangsUp]).result = .ok next := by
    rw [run_started, loop, List.foldlM_cons, listenerHangsUp,
      iteration_single serverSlot Int.one_pos (only_not_handled pollHup _), ← listenerHangsUp,
      visit_of_hungUp _ hused (Or.inl hevent), Traced.mk_ok_bind]
    rfl
  refine ⟨listenerHangsUp, next, Int.one_pos, hresult, rfl, setFd_fd_self .., ?_, ?_⟩
  · decide +kernel
  · rw [closeSockets_calls]
    decide +kernel

end Listening

end FcsServer
