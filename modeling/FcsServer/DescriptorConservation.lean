import FcsServer.Lib.Ledger
import FcsServer.EventPass

/-!
# Descriptor conservation

The calls of the process as a ledger of descriptors: `socket`, `accept` and `open` acquire one,
`close` releases one.  The kernel is assumed to hand out only descriptors that are not open;
the table of the server then agrees with the ledger at every loop head.

* `Agrees` — the invariant: the slots hold exactly what the ledger does, without repetition;
* `Agrees.closed`, `Agrees.accepted`, `Agrees.neutral` — what each kind of call does to it;
* `visit_agrees`, `iteration_agrees`, `run_agrees` — one slot, one iteration, a whole run;
* `descriptors_conserved` — no leak, no double close, no overwritten slot.
-/

namespace FcsServer

open Ledger TcpServer

namespace DescriptorConservation

/-- Who works with a descriptor. -/
inductive Owner where
  | listener
  | client
  | device
  deriving DecidableEq, Repr

/-- The calls that open and close descriptors; a failed call opens none. -/
def effect : Call → Effect Owner ℤ
  | .socket fd => if fd = -1 then .nothing else .acquire .listener fd
  | .accept fd => if fd = -1 then .nothing else .acquire .client fd
  | .openDevice fd => if fd < 0 then .nothing else .acquire .device fd
  | .close fd => .release fd
  | _ => .nothing

def slotOwner (i : Slot) : Owner := if i = serverSlot then .listener else .client

/-- **The table agrees with the ledger.** -/
structure Agrees (calls : List Call) (server : TcpServer) : Prop where
  safe : Safe effect calls
  distinct : ∀ i j, (server.sockets i).fd ≠ -1 → (server.sockets i).fd = (server.sockets j).fd →
    i = j
  held : ∀ o d, (o, d) ∈ held effect calls ↔
    ∃ i, (server.sockets i).fd = d ∧ d ≠ -1 ∧ o = slotOwner i
  opened : server.serverSocketFd ≠ -1
  listening : (server.sockets serverSlot).fd = server.serverSocketFd ∨
    (server.sockets serverSlot).fd = -1
  clients : ∀ i, i ≠ serverSlot → (server.sockets i).fd ≠ server.serverSocketFd

/-- Calls that release what they acquire and nothing else, whatever is held before. -/
def Neutral (calls : List Call) : Prop :=
  ∀ h : List (Owner × ℤ), Obeys FreshAt effect h calls →
    Obeys SafeAt effect h calls ∧ heldFrom effect h calls = h

/-! ### Calls and the invariant -/

section Calls

variable {calls : List Call} {server : TcpServer} {i : Slot}

/-- Only the descriptors of the table and of the listening socket matter. -/
theorem Agrees.congr {server' : TcpServer} (h : Agrees calls server)
    (hfd : ∀ i, (server'.sockets i).fd = (server.sockets i).fd)
    (hserver : server'.serverSocketFd = server.serverSocketFd) : Agrees calls server' := by
  obtain ⟨hsafe, hdistinct, hheld, hopened, hlistening, hclients⟩ := h
  constructor
  · exact hsafe
  · intro i j
    rw [hfd i, hfd j]
    exact hdistinct i j
  · intro o d
    simp only [hfd]
    exact hheld o d
  · rw [hserver]
    exact hopened
  · rw [hserver, hfd]
    exact hlistening
  · intro i
    rw [hserver, hfd]
    exact hclients i

theorem Agrees.neutral {d : List Call} (h : Agrees calls server) (hd : Neutral d)
    (hf : Fresh effect (calls ++ d)) : Agrees (calls ++ d) server := by
  obtain ⟨hsafe, hsame⟩ := hd (Ledger.held effect calls) (obeys_append.mp hf).2
  refine { h with safe := obeys_append.mpr ⟨h.safe, hsafe⟩, held := ?_ }
  intro o fd
  rw [held_append, hsame]
  exact h.held o fd

/-- A call without an effect on descriptors. -/
theorem neutral_singleton {x : Call} (hx : effect x = .nothing) : Neutral [x] := by
  intro h _
  refine ⟨⟨?_, trivial⟩, ?_⟩
  · rw [hx]
    trivial
  · show book h (effect x) = h
    rw [hx]
    rfl

theorem Agrees.quiet {x : Call} (h : Agrees calls server) (hx : effect x = .nothing) :
    Agrees (calls ++ [x]) server := by
  refine { h with safe := obeys_append.mpr ⟨h.safe, ?_, trivial⟩, held := ?_ }
  · rw [hx]
    trivial
  · intro o d
    rw [held_snoc, hx]
    exact h.held o d

/-- Closing a slot that is in use releases what it holds, and frees the slot. -/
theorem Agrees.closed (h : Agrees calls server) (hused : (server.sockets i).fd ≠ -1) :
    Agrees (calls ++ [.close (server.sockets i).fd]) (server.setFd i (-1)) := by
  constructor
  · refine obeys_append.mpr ⟨h.safe, ?_, trivial⟩
    exact safeAt_release.mpr ⟨slotOwner i, (h.held _ _).mpr ⟨i, rfl, hused, rfl⟩⟩
  · intro j k hj hjk
    rw [setFd_fd] at hj
    rw [setFd_fd, setFd_fd] at hjk
    by_cases hji : j = i
    · rw [if_pos hji] at hj
      exact absurd rfl hj
    · rw [if_neg hji] at hj hjk
      by_cases hki : k = i
      · rw [if_pos hki] at hjk
        exact absurd hjk hj
      · rw [if_neg hki] at hjk
        exact h.distinct j k hj hjk
  · intro o d
    rw [held_snoc]
    show (o, d) ∈ book _ (.release _) ↔ _
    rw [mem_book_release, h.held]
    constructor
    · intro howner
      obtain ⟨⟨j, hj, hd, ho⟩, hne⟩ := howner
      refine ⟨j, ?_, hd, ho⟩
      have hji : j ≠ i := by
        intro hji
        rw [hji] at hj
        exact hne hj.symm
      rw [setFd_fd_of_ne _ _ hji]
      exact hj
    · intro howner
      obtain ⟨j, hj, hd, ho⟩ := howner
      have hji : j ≠ i := by
        intro hji
        rw [hji, setFd_fd_self] at hj
        exact hd hj.symm
      rw [setFd_fd_of_ne _ _ hji] at hj
      refine ⟨⟨j, hj, hd, ho⟩, ?_⟩
      intro hdi
      rw [hdi] at hj
      exact hji (h.distinct i j hused hj.symm).symm
  · exact h.opened
  · rw [setFd_fd, setFd_serverSocketFd]
    split
    · exact Or.inr rfl
    · exact h.listening
  · intro j hj
    rw [setFd_fd, setFd_serverSocketFd]
    split
    · exact fun heq => h.opened heq.symm
    · exact h.clients j hj

/-- The slot that reports connection requests is slot 0. -/
theorem Agrees.eq_serverSlot (h : Agrees calls server) (hlisten : Listens server i) :
    i = serverSlot := by
  by_contra hi
  exact h.clients i hi hlisten.1

/-- A failed `accept` leaves the slot free; a successful one fills it with a descriptor that no
slot holds. -/
theorem Agrees.accepted {j : Slot} {fd : ℤ} (h : Agrees calls server)
    (hlisten : Listens server i) (hfree : server.freeSlot = some j)
    (hf : Fresh effect (calls ++ [.accept fd])) :
    Agrees (calls ++ [.accept fd]) (server.setFd j fd) := by
  obtain ⟨hj, hjfd⟩ := freeSlot_eq_some hfree
  by_cases hfd : fd = -1
  · have hx : effect (.accept fd) = .nothing := if_pos hfd
    refine (h.quiet hx).congr ?_ rfl
    intro k
    rw [setFd_fd]
    split
    · rename_i hk
      rw [hk, hjfd, hfd]
    · rfl
  · have hx : effect (.accept fd) = .acquire .client fd := if_neg hfd
    have hnew : ∀ k, (server.sockets k).fd ≠ fd := by
      intro k hk
      have hat := (obeys_append.mp hf).2.1
      rw [hx, freshAt_acquire] at hat
      exact hat (slotOwner k) ((h.held _ _).mpr ⟨k, hk, hfd, rfl⟩)
    constructor
    · refine obeys_append.mpr ⟨h.safe, ?_, trivial⟩
      rw [hx]
      trivial
    · intro k l hk hkl
      rw [setFd_fd] at hk
      rw [setFd_fd, setFd_fd] at hkl
      by_cases hkj : k = j
      · by_cases hlj : l = j
        · rw [hkj, hlj]
        · rw [if_pos hkj, if_neg hlj] at hkl
          exact absurd hkl.symm (hnew l)
      · rw [if_neg hkj] at hk hkl
        by_cases hlj : l = j
        · rw [if_pos hlj] at hkl
          exact absurd hkl (hnew k)
        · rw [if_neg hlj] at hkl
          exact h.distinct k l hk hkl
    · intro o d
      rw [held_snoc, hx, mem_book_acquire, h.held]
      constructor
      · intro hheld
        rcases hheld with ⟨rfl, rfl⟩ | ⟨k, hk, hd, ho⟩
        · exact ⟨j, setFd_fd_self _ _ _, hfd, (if_neg hj).symm⟩
        · have hkj : k ≠ j := by
            intro hkj
            rw [hkj, hjfd] at hk
            exact hd hk.symm
          exact ⟨k, by rw [setFd_fd_of_ne _ _ hkj]; exact hk, hd, ho⟩
      · intro howner
        obtain ⟨k, hk, hd, ho⟩ := howner
        by_cases hkj : k = j
        · rw [hkj, setFd_fd_self] at hk
          rw [hkj, slotOwner, if_neg hj] at ho
          exact Or.inl ⟨ho, hk.symm⟩
        · rw [setFd_fd_of_ne _ _ hkj] at hk
          exact Or.inr ⟨k, hk, hd, ho⟩
    · exact h.opened
    · rw [setFd_fd_of_ne _ _ (Ne.symm hj)]
      exact h.listening
    · intro k hk
      rw [setFd_fd, setFd_serverSocketFd]
      split
      · intro heq
        rw [heq] at hnew
        exact hnew i hlisten.1
      · exact h.clients k hk

end Calls

/-! ### From one slot to a run -/

section Runs

variable {onMessage : OnMessage}

/-- The callback leaves the ledger as it found it. -/
def NeutralCallback (onMessage : OnMessage) : Prop :=
  ∀ env message response, Neutral (onMessage env message response).calls

abbrev Keeps (server : TcpServer) (x : Proc TcpServer) : Prop :=
  Traced.Triple (Fresh effect) (Safe effect) (fun calls => Agrees calls server) x Agrees

theorem fresh_left (c d : List Call) (h : Fresh effect (c ++ d)) : Fresh effect c := h.left

/-- Handling one slot keeps the invariant. -/
theorem handleEventIfAny_agrees (hn : NeutralCallback onMessage) (env : SlotEnv)
    (server : TcpServer) (i : Slot) (hused : (server.sockets i).fd ≠ -1) :
    Keeps server (server.handleEventIfAny onMessage env i) := by
  intro c hc hr
  have hH := handleEventIfAny_handles onMessage env server i
  generalize (server.handleEventIfAny onMessage env i).calls = d at hH hr ⊢
  generalize (server.handleEventIfAny onMessage env i).result = result at hH ⊢
  -- after `recv` and the callback the table is as before, and the ledger too
  have served : ∀ {bytes : List UInt8} {calls : List Call} {res : Except Stop (List UInt8)},
      onMessage (env.handler) bytes [] = ⟨calls, res⟩ →
      Fresh effect (c ++ [.recv (server.sockets i).fd (.received bytes)] ++ calls) →
      Agrees (c ++ [.recv (server.sockets i).fd (.received bytes)] ++ calls)
        (server.setBuffer bytes) := by
    intro bytes calls res hcall hf
    have hneutral : Neutral calls := by
      have hcalls := hn env.handler bytes []
      rwa [hcall] at hcalls
    exact ((hc.quiet rfl).neutral hneutral hf).congr (fun _ => rfl) rfl
  cases hH with
  | accepted hlisten hfree =>
    have h := hc.accepted hlisten hfree hr
    exact ⟨h.safe, fun a ha => by cases ha; exact h⟩
  | tableFull hlisten hfull =>
    rw [List.append_nil]
    exact ⟨hc.safe, fun a ha => by cases ha; exact hc⟩
  | @noData result buffer hread hresult hnone =>
    have hquiet : Agrees (c ++ [.recv (server.sockets i).fd result]) (server.setBuffer buffer) :=
      (hc.quiet rfl).congr (fun _ => rfl) rfl
    have h := hquiet.closed hused
    rw [List.append_assoc] at h
    exact ⟨h.safe, fun a ha => by cases ha; exact h⟩
  | @faulted bytes calls stop hread hresult hne hcall =>
    rw [List.append_cons] at hr ⊢
    exact ⟨(served hcall hr).safe, fun a ha => by cases ha⟩
  | @answered bytes response calls hread hresult hne hcall hresponse hsent =>
    rw [List.append_cons, ← List.append_assoc] at hr ⊢
    have h := ((served hcall hr.left).quiet (x := .onMessage (server.sockets i).fd bytes response)
      rfl).quiet (x := .send (server.sockets i).fd response env.sent) rfl
    rw [List.append_assoc _ [_] [_]] at h
    exact ⟨h.safe, fun a ha => by cases ha; exact h⟩
  | @brokenPipe bytes response calls hread hresult hne hcall hresponse hsent =>
    rw [List.append_cons, ← List.append_assoc] at hr ⊢
    have h := ((served hcall hr.left).quiet (x := .onMessage (server.sockets i).fd bytes response)
      rfl).quiet (x := .send (server.sockets i).fd response env.sent) rfl
    rw [List.append_assoc _ [_] [_]] at h
    exact ⟨h.safe, fun a ha => by cases ha⟩
  | @silent bytes calls hread hresult hne hcall =>
    rw [List.append_cons, ← List.append_assoc] at hr ⊢
    have h := ((served hcall hr.left).quiet (x := .onMessage (server.sockets i).fd bytes [])
      rfl).closed (i := i) hused
    rw [List.append_assoc _ [_] [_]] at h
    exact ⟨h.safe, fun a ha => by cases ha; exact h⟩
  | hungUp hevent =>
    have h := hc.closed hused
    exact ⟨h.safe, fun a ha => by cases ha; exact h⟩
  | ignored hin hhup herr =>
    rw [List.append_nil]
    exact ⟨hc.safe, fun a ha => by cases ha; exact hc⟩

theorem visit_agrees (hn : NeutralCallback onMessage) (env : Slot → SlotEnv)
    (server : TcpServer) (i : Slot) : Keeps server (server.visit onMessage env i) := by
  rw [visit]
  split
  · rename_i hused
    exact handleEventIfAny_agrees hn (env i) server i hused
  · exact Traced.Triple.pure' (fun _ h => h.safe) (fun _ h => h)

theorem dropIfUsed_agrees (server : TcpServer) (i : Slot) :
    Keeps server (server.dropIfUsed i) := by
  rcases dropIfUsed_cases server i with ⟨-, hdrop⟩ | ⟨hused, hdrop⟩
  · rw [hdrop]
    exact Traced.Triple.pure' (fun _ h => h.safe) (fun _ h => h)
  · rw [hdrop]
    intro c hc _
    have h := hc.closed hused
    exact ⟨h.safe, fun a ha => by cases ha; exact h⟩

/-- **One iteration keeps the invariant**, whatever `poll` reports. -/
theorem iteration_agrees (hn : NeutralCallback onMessage) (server : TcpServer) (env : LoopEnv) :
    Keeps server (server.iteration onMessage env) := by
  rw [iteration]
  refine Traced.Triple.bind fresh_left (Traced.Triple.call'
    (q := fun calls => Agrees calls (server.polled env.revents)) (fun _ h => h.safe) ?_) ?_
  · intro c hc _
    exact (hc.quiet rfl).congr (fun i => polled_fd server i env.revents) rfl
  · intro _
    split
    · exact Traced.Triple.stop' (fun _ h => h.safe)
    · split
      · exact Traced.Triple.foldlM fresh_left (fun _ _ h => h.safe) _
          (fun i _ s => dropIfUsed_agrees s i) _
      · exact Traced.Triple.foldlM fresh_left (fun _ _ h => h.safe) _
          (fun i _ s => visit_agrees hn env.slot s i) _

/-- `setup` leaves the listening socket in slot 0 and the other slots free. -/
theorem setup_agrees (env : SetupEnv) : Traced.Triple (Fresh effect) (Safe effect)
    (fun calls => calls = []) (setup env {}) Agrees := by
  intro c hc _
  rw [hc, setup_eq, List.nil_append]
  by_cases hsocket : env.socket = -1
  · rw [if_pos hsocket]
    have hx : effect (.socket env.socket) = .nothing := if_pos hsocket
    refine ⟨⟨?_, trivial⟩, fun a ha => by cases ha⟩
    rw [hx]
    trivial
  · rw [if_neg hsocket]
    have hx : effect (.socket env.socket) = .acquire .listener env.socket := if_neg hsocket
    have hfirst : SafeAt [] (effect (.socket env.socket)) := by
      rw [hx]
      trivial
    split
    · exact ⟨⟨hfirst, trivial, trivial⟩, fun a ha => by cases ha⟩
    · split
      · exact ⟨⟨hfirst, trivial, trivial, trivial⟩, fun a ha => by cases ha⟩
      · refine ⟨⟨hfirst, trivial, trivial, trivial⟩, ?_⟩
        intro a ha
        cases ha
        have hfd := clearSockets_fd ({ serverSocketFd := env.socket } : TcpServer)
        have hheld : Ledger.held effect [.socket env.socket, .bind env.socket env.bind,
            .listen env.socket env.listen] = [(.listener, env.socket)] := by
          show book (book (book [] (effect (.socket env.socket))) .nothing) .nothing = _
          rw [hx]
          rfl
        constructor
        · exact ⟨hfirst, trivial, trivial, trivial⟩
        · intro i j hi hij
          rw [hfd] at hi
          rw [hfd, hfd] at hij
          by_cases his : i = serverSlot
          · by_cases hjs : j = serverSlot
            · rw [his, hjs]
            · rw [if_pos his, if_neg hjs] at hij
              exact absurd hij hsocket
          · rw [if_neg his] at hi
            exact absurd rfl hi
        · intro o d
          rw [hheld, List.mem_singleton, Prod.mk.injEq]
          constructor
          · intro hheld
            obtain ⟨rfl, rfl⟩ := hheld
            exact ⟨serverSlot, by rw [hfd, if_pos rfl], hsocket, (if_pos rfl).symm⟩
          · intro howner
            obtain ⟨i, hi, hd, ho⟩ := howner
            rw [hfd] at hi
            by_cases his : i = serverSlot
            · rw [if_pos his] at hi
              rw [slotOwner, if_pos his] at ho
              exact ⟨ho, hi.symm⟩
            · rw [if_neg his] at hi
              exact absurd hi.symm hd
        · exact hsocket
        · rw [hfd, if_pos rfl]
          exact Or.inl rfl
        · intro i hi
          rw [hfd, if_neg hi]
          exact fun heq => hsocket heq.symm

/-- **Every run keeps the invariant.** -/
theorem run_agrees (hn : NeutralCallback onMessage) (setupEnv : SetupEnv) (envs : List LoopEnv) :
    Traced.Triple (Fresh effect) (Safe effect) (fun calls => calls = [])
      (run onMessage setupEnv envs) Agrees := by
  refine Traced.Triple.bind fresh_left (setup_agrees setupEnv) ?_
  intro server
  exact Traced.Triple.foldlM fresh_left (fun _ _ h => h.safe) envs
    (fun env _ s => iteration_agrees hn s env) server

/-- The state a run reaches agrees with the calls it made. -/
theorem agrees_of_run (hn : NeutralCallback onMessage) {setupEnv : SetupEnv}
    {envs : List LoopEnv} {server : TcpServer}
    (hf : Fresh effect (run onMessage setupEnv envs).calls)
    (hrun : (run onMessage setupEnv envs).result = .ok server) :
    Agrees (run onMessage setupEnv envs).calls server :=
  (run_agrees hn setupEnv envs [] rfl hf).2 server hrun

/-! ### The callback of the server -/

/-- A device call opens at most one descriptor and closes it again. -/
theorem deviceCalls_neutral (driver : Driver) (command : DevCommand) (data : IntelFcsDevIoctl) :
    Neutral (FcsCommunication.deviceCalls driver command data) := by
  intro h hf
  rw [FcsCommunication.deviceCalls] at hf ⊢
  by_cases hopen : driver.openDevice < 0
  · have hx : effect (.openDevice driver.openDevice) = .nothing := if_pos hopen
    rw [if_pos hopen] at hf ⊢
    exact neutral_singleton hx h hf
  · rw [if_neg hopen] at hf ⊢
    have hx : effect (.openDevice driver.openDevice) = .acquire .device driver.openDevice :=
      if_neg hopen
    have hfree : ∀ o, (o, driver.openDevice) ∉ h := by
      have hat := hf.1
      rwa [hx, freshAt_acquire] at hat
    refine ⟨⟨?_, trivial, ?_, trivial⟩, ?_⟩
    · rw [hx]
      trivial
    · rw [hx]
      exact safeAt_release.mpr ⟨.device, List.mem_cons_self⟩
    · show book (book (book h (effect (.openDevice driver.openDevice))) .nothing)
        (.release driver.openDevice) = h
      rw [hx, book, book, book, List.filter_cons_of_neg (by simp), List.filter_eq_self]
      intro e hmem
      rw [decide_eq_true_iff]
      intro heq
      rw [← heq] at hfree
      exact hfree e.1 hmem

theorem handleIncomingMessage_neutral : NeutralCallback MessageHandler.handleIncomingMessage := by
  intro env message response
  rw [MessageHandler.handleIncomingMessage_eq]
  show Neutral (MessageHandler.callsFor env message)
  rw [MessageHandler.callsFor]
  cases MessageHandler.commandOf message with
  | none => exact fun h _ => ⟨trivial, rfl⟩
  | some c => exact deviceCalls_neutral _ _ _

/-! ### The law -/

/-- The descriptor was acquired by an earlier call and not closed since. -/
def StillOpen (acquired : ℤ → Call) (calls : List Call) (fd : ℤ) : Prop :=
  ∃ pre post, calls = pre ++ acquired fd :: post ∧ .close fd ∉ post

theorem effect_eq_release {x : Call} {fd : ℤ} : effect x = .release fd ↔ x = .close fd := by
  cases x <;> grind [effect]

/-- The three ways to hold a descriptor, on the calls themselves. -/
theorem held_iff_stillOpen {acquired : ℤ → Call} {o : Owner} {fd : ℤ} {opens : Prop}
    (hx : ∀ x, effect x = .acquire o fd ↔ opens ∧ x = acquired fd) (calls : List Call) :
    (o, fd) ∈ Ledger.held effect calls ↔ opens ∧ StillOpen acquired calls fd := by
  rw [mem_held_iff]
  constructor
  · intro hacquired
    obtain ⟨pre, x, post, hsplit, hacquire, hpost⟩ := hacquired
    obtain ⟨hopens, rfl⟩ := (hx x).mp hacquire
    refine ⟨hopens, pre, post, hsplit, ?_⟩
    intro hmem
    exact hpost _ hmem (effect_eq_release.mpr rfl)
  · intro hstill
    obtain ⟨hopens, pre, post, hsplit, hpost⟩ := hstill
    refine ⟨pre, acquired fd, post, hsplit, (hx _).mpr ⟨hopens, rfl⟩, ?_⟩
    intro y hy hrelease
    rw [effect_eq_release.mp hrelease] at hy
    exact hpost hy

theorem held_listener {calls : List Call} {fd : ℤ} :
    (.listener, fd) ∈ Ledger.held effect calls ↔ fd ≠ -1 ∧ StillOpen .socket calls fd := by
  refine held_iff_stillOpen (fun x => ?_) calls
  cases x <;> grind [effect]

theorem held_client {calls : List Call} {fd : ℤ} :
    (.client, fd) ∈ Ledger.held effect calls ↔ fd ≠ -1 ∧ StillOpen .accept calls fd := by
  refine held_iff_stillOpen (fun x => ?_) calls
  cases x <;> grind [effect]

theorem held_device {calls : List Call} {fd : ℤ} :
    (.device, fd) ∈ Ledger.held effect calls ↔ 0 ≤ fd ∧ StillOpen .openDevice calls fd := by
  refine held_iff_stillOpen (fun x => ?_) calls
  cases x <;> grind [effect]

/-- **Descriptor conservation.**  Whatever `poll`, `accept`, `recv`, `send`, the clients and the
device do, as long as the kernel hands out only descriptors that are not open: every `close` is
of an open descriptor; and at every loop head the client slots hold, each once, exactly the
descriptors returned by `accept` and not closed since, and no device descriptor is open. -/
theorem descriptors_conserved (setupEnv : SetupEnv) (envs : List LoopEnv)
    (hfresh : Fresh effect (run MessageHandler.handleIncomingMessage setupEnv envs).calls) :
    (∀ pre fd post, (run MessageHandler.handleIncomingMessage setupEnv envs).calls
        = pre ++ .close fd :: post →
      fd ≠ -1 ∧ StillOpen .socket pre fd ∨ fd ≠ -1 ∧ StillOpen .accept pre fd ∨
        0 ≤ fd ∧ StillOpen .openDevice pre fd) ∧
    ∀ server, (run MessageHandler.handleIncomingMessage setupEnv envs).result = .ok server →
      (∀ i j, i ≠ serverSlot → j ≠ serverSlot → (server.sockets i).fd ≠ -1 →
        (server.sockets i).fd = (server.sockets j).fd → i = j) ∧
      (∀ fd, (∃ i, i ≠ serverSlot ∧ (server.sockets i).fd = fd ∧ fd ≠ -1) ↔
        fd ≠ -1 ∧ StillOpen .accept
          (run MessageHandler.handleIncomingMessage setupEnv envs).calls fd) ∧
      ∀ fd, 0 ≤ fd → ¬ StillOpen .openDevice
        (run MessageHandler.handleIncomingMessage setupEnv envs).calls fd := by
  have hkeeps := run_agrees handleIncomingMessage_neutral setupEnv envs [] rfl hfresh
  rw [List.nil_append] at hkeeps
  refine ⟨?_, ?_⟩
  · intro pre fd post hsplit
    have hsafe := hkeeps.1
    rw [Safe, hsplit] at hsafe
    have hat : SafeAt (Ledger.held effect pre) (.release fd) := Obeys.at hsafe
    obtain ⟨o, ho⟩ := safeAt_release.mp hat
    cases o with
    | listener => exact Or.inl (held_listener.mp ho)
    | client => exact Or.inr (Or.inl (held_client.mp ho))
    | device => exact Or.inr (Or.inr (held_device.mp ho))
  · intro server hrun
    have hagrees := hkeeps.2 server hrun
    refine ⟨fun i j _ _ => hagrees.distinct i j, ?_, ?_⟩
    · intro fd
      rw [← held_client, hagrees.held]
      constructor
      · intro hslot
        obtain ⟨i, hi, hfd, hopen⟩ := hslot
        exact ⟨i, hfd, hopen, (if_neg hi).symm⟩
      · intro howner
        obtain ⟨i, hfd, hopen, howner⟩ := howner
        refine ⟨i, ?_, hfd, hopen⟩
        intro hi
        rw [slotOwner, if_pos hi] at howner
        cases howner
    · intro fd hfd hopen
      obtain ⟨i, -, -, howner⟩ := (hagrees.held _ _).mp (held_device.mpr ⟨hfd, hopen⟩)
      rw [slotOwner] at howner
      split at howner
      · cases howner
      · cases howner

/-- A client connects, asks for the chip id and hangs up, and the next one gets its descriptor. -/
def comesAndGoes : List LoopEnv :=
  [connects 4,
    only firstClient pollIn
      { accepted := -1
        received := .received [0x12, 0, 0, 0x10]
        handler := ⟨⟨6, fun _ _ => ⟨0, 0, ⟨1, 2⟩, 0, 0, 0, 0, []⟩⟩, 0⟩
        sent := .accepted 12 },
    only firstClient pollHup ((connects 4).slot firstClient),
    connects 4]

/-- The device is open when it is closed, and the client; the new client is open at the end, and the
device is not. -/
theorem descriptors_conserved_comesAndGoes :
    let calls := (run MessageHandler.handleIncomingMessage ⟨3, 0, 0⟩ comesAndGoes).calls
    (∀ fd ∈ [(6 : ℤ), 4], ∃ pre post, calls = pre ++ .close fd :: post ∧
      (fd ≠ -1 ∧ StillOpen .socket pre fd ∨ fd ≠ -1 ∧ StillOpen .accept pre fd ∨
        0 ≤ fd ∧ StillOpen .openDevice pre fd)) ∧
      StillOpen .accept calls 4 ∧ ¬ StillOpen .openDevice calls 6 := by
  intro calls
  have hfresh : Fresh effect
      (run MessageHandler.handleIncomingMessage ⟨3, 0, 0⟩ comesAndGoes).calls := by
    decide +kernel
  obtain ⟨hcloses, hheads⟩ := descriptors_conserved ⟨3, 0, 0⟩ comesAndGoes hfresh
  have hrun : (run MessageHandler.handleIncomingMessage ⟨3, 0, 0⟩
      comesAndGoes).result.toOption.map (fun s => (s.sockets firstClient).fd) = some 4 := by
    decide +kernel
  refine ⟨?_, ?_⟩
  · intro fd hfd
    rw [List.mem_cons, List.mem_singleton] at hfd
    rcases hfd with rfl | rfl
    · have hsplit : calls = calls.take 9 ++ .close 6 :: calls.drop 10 := by decide +kernel
      exact ⟨_, _, hsplit, hcloses _ _ _ hsplit⟩
    · have hsplit : calls = calls.take 13 ++ .close 4 :: calls.drop 14 := by decide +kernel
      exact ⟨_, _, hsplit, hcloses _ _ _ hsplit⟩
  · cases hresult : (run MessageHandler.handleIncomingMessage ⟨3, 0, 0⟩ comesAndGoes).result with
    | error stop =>
      rw [hresult] at hrun
      cases hrun
    | ok server =>
      rw [hresult] at hrun
      obtain ⟨-, hslots, hdevice⟩ := hheads server hresult
      exact ⟨((hslots 4).mp ⟨firstClient, by decide, Option.some.inj hrun, by decide⟩).2,
        hdevice 6 (by decide)⟩

end Runs

end DescriptorConservation

end FcsServer
