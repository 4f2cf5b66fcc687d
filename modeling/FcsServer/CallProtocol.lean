import FcsServer.Lib.Monitor
import FcsServer.ClientSession
import FcsServer.DescriptorConservation
import Mathlib.Data.Finset.Card

/-!
# The order of the system calls

What the server is, seen from the kernel: it listens, waits, and serves one event of one open
connection at a time; a message is read, at most one call of the device is made for it, and its
answer is sent or its connection closed before anything else happens.  A monitor says which call
may come next; the server never makes another.

* `Session` / `step` — the state of the monitor, and the calls it lets through;
* `Matches` / `Serving` — the table of the server and the state of the monitor agree;
* `visit_follows`, `iteration_follows`, `run_follows` — one slot, one iteration, a whole run;
* `protocol_followed` — no call of a run is out of turn.
-/

namespace FcsServer

open Ledger TcpServer MessageHandler RequestEncoding ClientSession DescriptorConservation

namespace CallProtocol

/-- Where the server is between two calls. -/
inductive Phase where
  | booting
  | created
  | bound
  /-- Nothing in hand: an event may be served, or the next one waited for. -/
  | idle
  /-- A message was read and the device not tried. -/
  | reading (fd : ℤ) (message : List UInt8)
  | opened (fd : ℤ) (message : List UInt8) (device : ℤ)
  | asked (fd : ℤ) (message : List UInt8) (device : ℤ)
  /-- The device is done with the message. -/
  | replied (fd : ℤ) (message : List UInt8)
  | answering (fd : ℤ) (response : List UInt8)
  | closing (fd : ℤ)
  | ended
  deriving DecidableEq, Repr

/-- What the server may do next: its connections, and the events that were reported for them and
not served yet. -/
structure Session where
  phase : Phase := .booting
  listener : ℤ := -1
  listening : Bool := false
  clients : Finset ℤ := ∅
  events : ℤ → UInt16 := fun _ => 0
  timedOut : Bool := false

namespace Session

def enter (s : Session) (phase : Phase) : Session := { s with phase := phase }

/-- The event of a descriptor is served. -/
def consume (s : Session) (fd : ℤ) : Session :=
  { s with events := Function.update s.events fd 0 }

/-- A new connection has no events. -/
def connect (s : Session) (fd : ℤ) : Session :=
  { s.consume fd with clients := insert fd s.clients }

def disconnect (s : Session) (fd : ℤ) : Session :=
  { s.consume fd with clients := s.clients.erase fd }

/-- The descriptors that `poll` is to be called for. -/
def polled (s : Session) : Finset ℤ :=
  if s.listening then insert s.listener s.clients else s.clients

/-- An event may be served. -/
def Serves (s : Session) : Prop := s.phase = .idle ∧ s.timedOut = false

instance (s : Session) : Decidable s.Serves := inferInstanceAs (Decidable (_ ∧ _))

end Session

def HungUp (event : UInt16) : Prop := event = pollHup ∨ event = pollErr

instance (event : UInt16) : Decidable (HungUp event) := inferInstanceAs (Decidable (_ ∨ _))

/-- The open entries of a table of descriptors. -/
def openEntries (fds : List ℤ) : List ℤ := fds.filter fun fd => fd ≠ -1

/-- The event reported for a descriptor. -/
def reported (fds : List ℤ) (revents : List UInt16) (fd : ℤ) : UInt16 :=
  ((fds.zip revents).lookup fd).getD 0

/-- What `poll` reports replaces what was reported before. -/
def Session.report (s : Session) (fds : List ℤ) (revents : List UInt16) (numberOfEvents : ℤ) :
    Session :=
  { s with
    phase := if numberOfEvents < 0 then .ended else .idle
    events := reported fds revents
    timedOut := numberOfEvents = 0 }

/-- What follows a message. -/
def afterMessage (fd : ℤ) (response : List UInt8) : Phase :=
  if response = [] then .closing fd else .answering fd response

/-- What follows a `recv`. -/
def afterRecv (fd : ℤ) : RecvResult → Phase
  | .failed => .closing fd
  | .received bytes => if bytes = [] then .closing fd else .reading fd bytes

theorem afterRecv_cases (fd : ℤ) (result : RecvResult) :
    afterRecv fd result = .closing fd ∨ ∃ message, afterRecv fd result = .reading fd message := by
  cases result with
  | failed => exact Or.inl rfl
  | received bytes =>
    rw [afterRecv]
    split
    · exact Or.inl rfl
    · exact Or.inr ⟨bytes, rfl⟩

/-- The calls that may come next. -/
def step (s : Session) : Call → Option Session
  | .socket fd =>
    if s.phase = .booting then
      some (if fd = -1 then s.enter .ended else { s.enter .created with listener := fd })
    else none
  | .bind fd returned =>
    if s.phase = .created ∧ fd = s.listener then
      some (if returned < 0 then s.enter .ended else s.enter .bound)
    else none
  | .listen fd returned =>
    if s.phase = .bound ∧ fd = s.listener then
      some (if returned = -1 then s.enter .ended else { s.enter .idle with listening := true })
    else none
  | .poll fds events revents numberOfEvents =>
    if s.phase = .idle ∧ (openEntries fds).Nodup ∧ (openEntries fds).toFinset = s.polled ∧
        events.all (· = pollIn) then
      some (s.report fds revents numberOfEvents)
    else none
  | .accept fd =>
    if s.Serves ∧ s.listening ∧ s.events s.listener = pollIn ∧
        s.clients.card < kMaxNumberOfConnections ∧ fd ∉ s.polled then
      some (if fd = -1 then s.consume s.listener else (s.consume s.listener).connect fd)
    else none
  | .recv fd result =>
    if s.Serves ∧ fd ∈ s.clients ∧ s.events fd = pollIn ∧
        result.within kMaxMessageSizeInBytes = result then
      some ((s.consume fd).enter (afterRecv fd result))
    else none
  | .openDevice device =>
    match s.phase with
    | .reading fd message =>
      if wants message = none then none
      else if device < 0 then some (s.enter (.replied fd message))
      else if device ∈ s.polled then none
      else some (s.enter (.opened fd message device))
    | _ => none
  | .ioctl device command data _ =>
    match s.phase with
    | .opened fd message device' =>
      if device = device' ∧ wants message = some (command, data) then
        some (s.enter (.asked fd message device))
      else none
    | _ => none
  | .onMessage fd message response =>
    if s.phase = .reading fd message ∧ wants message = none ∨ s.phase = .replied fd message then
      some (s.enter (afterMessage fd response))
    else none
  | .send fd response result =>
    if s.phase = .answering fd response then
      some (s.enter (if result = .brokenPipe then .ended else .idle))
    else none
  | .close fd =>
    match s.phase with
    | .asked fd' message device =>
      if fd = device then some (s.enter (.replied fd' message)) else none
    | .closing fd' => if fd = fd' then some ((s.disconnect fd).enter .idle) else none
    | .idle =>
      if fd ∈ s.clients ∧ (s.timedOut ∨ HungUp (s.events fd)) then some (s.disconnect fd)
      else if s.listening ∧ fd = s.listener ∧ s.timedOut = false ∧ HungUp (s.events fd) then
        some { s.consume fd with listening := false }
      else none
    | _ => none

/-- The protocol that the server follows. -/
def protocol : Monitor Session Call := ⟨step⟩

/-! ### The table and the monitor -/

/-- The table of the server and the state of the monitor agree. -/
structure Matches (server : TcpServer) (s : Session) : Prop where
  phase : s.phase = .idle
  listener : s.listener = server.serverSocketFd
  listening : s.listening = true ↔ (server.sockets serverSlot).fd = server.serverSocketFd
  clients : ∀ d, d ∈ s.clients ↔ ∃ i, i ≠ serverSlot ∧ (server.sockets i).fd = d ∧ d ≠ -1
  /-- The loop does not set this again. -/
  events : (server.sockets serverSlot).events = pollIn

/-- During the pass: the slots still to be visited have the events that the monitor knows of. -/
structure Serving (is : List Slot) (server : TcpServer) (s : Session) : Prop
    extends Matches server s where
  inTime : s.timedOut = false
  nodup : is.Nodup
  event : ∀ i ∈ is, (server.sockets i).fd ≠ -1 →
    s.events (server.sockets i).fd = (server.sockets i).revents
  quiet : ∀ i ∈ is, (server.sockets i).fd = -1 → (server.sockets i).revents = 0

section Table

variable {calls : List Call} {server : TcpServer} {s : Session} {i : Slot} {is : List Slot}

/-- The open descriptors of the table. -/
theorem Matches.mem_polled (h : Matches server s) (ha : Agrees calls server) {d : ℤ} :
    d ∈ s.polled ↔ ∃ i, (server.sockets i).fd = d ∧ d ≠ -1 := by
  have hclient : d ∈ s.clients → ∃ i, (server.sockets i).fd = d ∧ d ≠ -1 := by
    intro hd
    obtain ⟨i, -, hi, hne⟩ := (h.clients d).mp hd
    exact ⟨i, hi, hne⟩
  have hother : ∀ i, (server.sockets i).fd = d → d ≠ -1 → i ≠ serverSlot → d ∈ s.clients :=
    fun i hi hne his => (h.clients d).mpr ⟨i, his, hi, hne⟩
  rw [Session.polled]
  by_cases hlistening : s.listening = true
  · have hslot := h.listening.mp hlistening
    rw [if_pos hlistening, Finset.mem_insert, h.listener]
    constructor
    · intro hd
      rcases hd with rfl | hd
      · exact ⟨serverSlot, hslot, ha.opened⟩
      · exact hclient hd
    · intro hd
      obtain ⟨i, hi, hne⟩ := hd
      by_cases his : i = serverSlot
      · left
        rw [← hi, his, hslot]
      · exact Or.inr (hother i hi hne his)
  · have hslot := ha.listening.resolve_left fun hslot => hlistening (h.listening.mpr hslot)
    rw [if_neg hlistening]
    constructor
    · exact hclient
    · intro hd
      obtain ⟨i, hi, hne⟩ := hd
      refine hother i hi hne ?_
      intro his
      rw [his, hslot] at hi
      exact hne hi.symm

/-- What the kernel hands out is not open. -/
theorem Matches.notMem_polled (h : Matches server s) (ha : Agrees calls server) {d : ℤ}
    (hnew : ∀ o, (o, d) ∉ Ledger.held effect calls) : d ∉ s.polled := by
  intro hd
  obtain ⟨i, hi, hne⟩ := (h.mem_polled ha).mp hd
  exact hnew (slotOwner i) ((ha.held _ _).mpr ⟨i, hi, hne, rfl⟩)

/-- A free slot leaves room in the set of connections. -/
theorem Matches.card_lt (h : Matches server s) {j : Slot} (hj : j ≠ serverSlot)
    (hfree : (server.sockets j).fd = -1) : s.clients.card < kMaxNumberOfConnections := by
  have hsub : s.clients ⊆
      ((Finset.univ.erase serverSlot).erase j).image fun i => (server.sockets i).fd := by
    intro d hd
    obtain ⟨i, his, hi, hne⟩ := (h.clients d).mp hd
    have hij : i ≠ j := by
      intro hij
      rw [hij, hfree] at hi
      exact hne hi.symm
    exact Finset.mem_image.mpr
      ⟨i, Finset.mem_erase.mpr ⟨hij, Finset.mem_erase.mpr ⟨his, Finset.mem_univ i⟩⟩, hi⟩
  have hcard : ((Finset.univ.erase serverSlot).erase j).card = kMaxNumberOfConnections - 1 := by
    rw [Finset.card_erase_of_mem (Finset.mem_erase.mpr ⟨hj, Finset.mem_univ j⟩),
      Finset.card_erase_of_mem (Finset.mem_univ _), Finset.card_univ, Fintype.card_fin]
    rfl
  have hle := (Finset.card_le_card hsub).trans Finset.card_image_le
  rw [hcard] at hle
  exact hle.trans_lt (by decide)

theorem Matches.mem_clients (h : Matches server s) (hi : i ≠ serverSlot)
    (hused : (server.sockets i).fd ≠ -1) : (server.sockets i).fd ∈ s.clients :=
  (h.clients _).mpr ⟨i, hi, rfl, hused⟩

/-- Only the table matters. -/
theorem Matches.congr {server' : TcpServer} {s' : Session} (h : Matches server s)
    (hfd : ∀ i, (server'.sockets i).fd = (server.sockets i).fd)
    (hserver : server'.serverSocketFd = server.serverSocketFd)
    (hevents : (server'.sockets serverSlot).events = (server.sockets serverSlot).events)
    (hphase : s'.phase = .idle)
    (hlistener : s'.listener = s.listener) (hlistening : s'.listening = s.listening)
    (hclients : s'.clients = s.clients) : Matches server' s' := by
  constructor
  · exact hphase
  · rw [hlistener, hserver]
    exact h.listener
  · rw [hlistening, hserver, hfd]
    exact h.listening
  · intro d
    simp only [hclients, hfd]
    exact h.clients d
  · exact hevents.trans h.events

/-- A connection is closed. -/
theorem Matches.disconnected (h : Matches server s) (ha : Agrees calls server)
    (hi : i ≠ serverSlot) (hused : (server.sockets i).fd ≠ -1) :
    Matches (server.setFd i (-1)) ((s.disconnect (server.sockets i).fd).enter .idle) := by
  constructor
  · rfl
  · exact h.listener
  · rw [setFd_fd_of_ne _ _ (Ne.symm hi)]
    exact h.listening
  · intro d
    show d ∈ s.clients.erase _ ↔ _
    rw [Finset.mem_erase, h.clients]
    constructor
    · intro hd
      obtain ⟨hne, j, hj, hjd, hd⟩ := hd
      refine ⟨j, hj, ?_, hd⟩
      rw [setFd_fd_of_ne]
      · exact hjd
      · intro hji
        rw [hji] at hjd
        exact hne hjd.symm
    · intro hd
      obtain ⟨j, hj, hjd, hd⟩ := hd
      have hji : j ≠ i := by
        intro hji
        rw [hji, setFd_fd_self] at hjd
        exact hd hjd.symm
      rw [setFd_fd_of_ne _ _ hji] at hjd
      refine ⟨?_, j, hj, hjd, hd⟩
      intro hdi
      rw [hdi] at hjd
      exact hji (ha.distinct i j hused hjd.symm).symm
  · rw [setFd_events]
    exact h.events

/-- The listening socket is closed. -/
theorem Matches.unlistened (h : Matches server s) (ha : Agrees calls server) {s' : Session}
    (hphase : s'.phase = .idle) (hlistener : s'.listener = s.listener)
    (hlistening : s'.listening = false) (hclients : s'.clients = s.clients) :
    Matches (server.setFd serverSlot (-1)) s' := by
  constructor
  · exact hphase
  · rw [hlistener]
    exact h.listener
  · rw [hlistening, setFd_fd_self]
    constructor
    · exact fun hfalse => absurd hfalse (by decide)
    · exact fun heq => absurd heq.symm ha.opened
  · intro d
    rw [hclients, h.clients]
    constructor
    · intro hd
      obtain ⟨j, hj, hjd⟩ := hd
      exact ⟨j, hj, by rwa [setFd_fd_of_ne _ _ hj]⟩
    · intro hd
      obtain ⟨j, hj, hjd⟩ := hd
      rw [setFd_fd_of_ne _ _ hj] at hjd
      exact ⟨j, hj, hjd⟩
  · rw [setFd_events]
    exact h.events

/-- A connection is accepted. -/
theorem Matches.connected {j : Slot} {fd : ℤ} (h : Matches server s) (hj : j ≠ serverSlot)
    (hfree : (server.sockets j).fd = -1) (hfd : fd ≠ -1) (consumed : ℤ) :
    Matches (server.setFd j fd) ((s.consume consumed).connect fd) := by
  constructor
  · exact h.phase
  · exact h.listener
  · rw [setFd_fd_of_ne _ _ (Ne.symm hj)]
    exact h.listening
  · intro d
    show d ∈ insert fd s.clients ↔ _
    rw [Finset.mem_insert, h.clients]
    constructor
    · intro hd
      rcases hd with rfl | ⟨k, hk, hkd, hd⟩
      · exact ⟨j, hj, setFd_fd_self .., hfd⟩
      · refine ⟨k, hk, ?_, hd⟩
        rw [setFd_fd_of_ne]
        · exact hkd
        · intro hkj
          rw [hkj, hfree] at hkd
          exact hd hkd.symm
    · intro hd
      obtain ⟨k, hk, hkd, hd⟩ := hd
      by_cases hkj : k = j
      · rw [hkj, setFd_fd_self] at hkd
        exact Or.inl hkd.symm
      · rw [setFd_fd_of_ne _ _ hkj] at hkd
        exact Or.inr ⟨k, hk, hkd, hd⟩
  · rw [setFd_events]
    exact h.events

end Table

/-! ### One slot -/

section Slots

variable {calls : List Call} {server server' : TcpServer} {s t u : Session} {i : Slot}
  {is : List Slot} {fd : ℤ} {message response : List UInt8}

theorem Serving.serves (h : Serving is server s) : s.Serves := ⟨h.phase, h.inTime⟩

/-- A slot that is passed over. -/
theorem Serving.tail (h : Serving (i :: is) server s) : Serving is server s :=
  { h with
    nodup := (List.nodup_cons.mp h.nodup).2
    event := fun j hj => h.event j (List.mem_cons_of_mem i hj)
    quiet := fun j hj => h.quiet j (List.mem_cons_of_mem i hj) }

/-- The visited slot changes, and the events of its descriptor. -/
theorem Serving.next (h : Serving (i :: is) server s) (ha : Agrees calls server)
    (hused : (server.sockets i).fd ≠ -1) (hm : Matches server' u)
    (htime : u.timedOut = s.timedOut)
    (hfd : ∀ j, j ≠ i → (server'.sockets j).fd = (server.sockets j).fd)
    (hrevents : ∀ j, (server'.sockets j).revents = (server.sockets j).revents)
    (hevents : ∀ d, d ≠ (server.sockets i).fd → u.events d = s.events d) :
    Serving is server' u := by
  obtain ⟨hi, hnodup⟩ := List.nodup_cons.mp h.nodup
  refine { hm with inTime := htime.trans h.inTime, nodup := hnodup, event := ?_, quiet := ?_ }
  · intro j hj hopen
    have hji : j ≠ i := ne_of_mem_of_not_mem hj hi
    rw [hfd j hji] at hopen ⊢
    rw [hrevents, hevents _ (fun heq => hji (ha.distinct i j hused heq.symm).symm)]
    exact h.event j (List.mem_cons_of_mem i hj) hopen
  · intro j hj hfree
    rw [hfd j (ne_of_mem_of_not_mem hj hi)] at hfree
    rw [hrevents]
    exact h.quiet j (List.mem_cons_of_mem i hj) hfree

/-- A readable slot is one of a client. -/
theorem ne_serverSlot_of_readable (ha : Agrees calls server) (hused : (server.sockets i).fd ≠ -1)
    (hread : Readable server i) : i ≠ serverSlot := by
  intro hi
  rw [hi] at hused hread
  rcases ha.listening with hslot | hslot
  · exact hread.1 hslot
  · exact hused hslot

theorem step_accept (hserves : s.Serves) (hlistening : s.listening = true)
    (hevent : s.events s.listener = pollIn) (hcard : s.clients.card < kMaxNumberOfConnections)
    (hnew : fd ∉ s.polled) :
    protocol.step s (.accept fd)
      = some (if fd = -1 then s.consume s.listener else (s.consume s.listener).connect fd) :=
  if_pos ⟨hserves, hlistening, hevent, hcard, hnew⟩

/-- A new connection has no event in this pass. -/
theorem Serving.connected {j : Slot} (h : Serving (i :: is) server s) (ha : Agrees calls server)
    (hlisten : Listens server i) (hfree : server.freeSlot = some j) (hfd : fd ≠ -1)
    (hnew : fd ∉ s.polled) :
    Serving is (server.setFd j fd) ((s.consume s.listener).connect fd) := by
  obtain ⟨hi, hnodup⟩ := List.nodup_cons.mp h.nodup
  obtain ⟨hj, hjfd⟩ := freeSlot_eq_some hfree
  have hslots : ∀ k, (server.sockets k).fd ≠ fd := by
    intro k hk
    exact hnew ((h.mem_polled ha).mpr ⟨k, hk, hfd⟩)
  refine { h.toMatches.connected hj hjfd hfd s.listener with
    inTime := h.inTime, nodup := hnodup, event := ?_, quiet := ?_ }
  · intro k hk hopen
    rw [setFd_revents, setFd_fd]
    split
    · rename_i hkj
      rw [hkj] at hk ⊢
      rw [h.quiet j (List.mem_cons_of_mem i hk) hjfd]
      exact Function.update_self ..
    · rename_i hkj
      rw [setFd_fd_of_ne _ _ hkj] at hopen
      have hlistener : (server.sockets k).fd ≠ s.listener := by
        intro heq
        rw [h.listener, ← hlisten.1] at heq
        exact ne_of_mem_of_not_mem hk hi (ha.distinct k i hopen heq)
      rw [← h.event k (List.mem_cons_of_mem i hk) hopen]
      exact (Function.update_of_ne (hslots k) ..).trans (Function.update_of_ne hlistener ..)
  · intro k hk hopen
    rw [setFd_fd] at hopen
    split at hopen
    · exact absurd hopen hfd
    · rw [setFd_revents]
      exact h.quiet k (List.mem_cons_of_mem i hk) hopen

/-- Closing a connection whose event was served. -/
theorem step_close (s : Session) : protocol.step ((s.consume fd).enter (.closing fd)) (.close fd)
    = some ((s.disconnect fd).enter .idle) := by
  have hstep : protocol.step ((s.consume fd).enter (.closing fd)) (.close fd)
      = some (((s.consume fd).disconnect fd).enter .idle) := if_pos rfl
  rw [hstep, Session.disconnect, Session.disconnect, Session.consume, Session.consume,
    Function.update_idem]

/-- The visited slot is closed. -/
theorem Serving.disconnected (h : Serving (i :: is) server s) (ha : Agrees calls server)
    (hi : i ≠ serverSlot) (hused : (server.sockets i).fd ≠ -1) (buffer : List UInt8) :
    Serving is ((server.setBuffer buffer).setFd i (-1))
      ((s.disconnect (server.sockets i).fd).enter .idle) := by
  refine h.next ha hused ?_ rfl (fun j hj => setFd_fd_of_ne _ _ hj) (fun j => setFd_revents ..)
    (fun d hd => Function.update_of_ne hd ..)
  have hclosed := h.toMatches.disconnected ha hi hused
  exact hclosed.congr (fun _ => rfl) rfl rfl rfl rfl rfl rfl

/-- The calls of the device for one message. -/
theorem callsFor_follows (hphase : t.phase = .reading fd message) (handler : Env)
    (hnew : ∀ device rest, callsFor handler message = .openDevice device :: rest → 0 ≤ device →
      device ∉ t.polled) :
    ∃ phase, protocol.run t (callsFor handler message) = some (t.enter phase) ∧
      (phase = .reading fd message ∧ wants message = none ∨ phase = .replied fd message) := by
  cases hm : decode message with
  | none =>
    have hwants : wants message = none := by
      rw [wants, hm]
      rfl
    refine ⟨.reading fd message, ?_, Or.inl ⟨rfl, hwants⟩⟩
    rw [callsFor, decode_eq_none.mp hm, Monitor.run_nil, ← hphase]
    rfl
  | some x =>
    have hwants : wants message
        = some (devCommand x.2.command, FcsCommunication.submitted x.2.comParas) := by
      rw [wants, hm]
      rfl
    refine ⟨.replied fd message, ?_, Or.inr rfl⟩
    rw [callsFor_of_decode hm, FcsCommunication.deviceCalls] at hnew ⊢
    by_cases hopen : handler.driver.openDevice < 0
    · rw [if_pos hopen, Monitor.run_singleton]
      simp [protocol, step, hphase, hwants, hopen]
    · have hfree := hnew handler.driver.openDevice _ (if_neg hopen) (not_lt.mp hopen)
      have hopened : protocol.step t (.openDevice handler.driver.openDevice)
          = some (t.enter (.opened fd message handler.driver.openDevice)) := by
        simp [protocol, step, hphase, hwants, hopen, hfree]
      rw [if_neg hopen, Monitor.run_cons hopened,
        Monitor.run_cons (t := t.enter (.asked fd message handler.driver.openDevice)),
        Monitor.run_singleton]
      · simp [protocol, step, Session.enter]
      · simp [protocol, step, Session.enter, hwants]

/-- A message is read, relayed, answered, and the answer is disposed of. -/
theorem exchange_follows {bytes : List UInt8} {last : Call} (hserves : s.Serves)
    (hclient : fd ∈ s.clients) (hevent : s.events fd = pollIn) (hne : bytes ≠ [])
    (hlength : bytes.length ≤ kMaxMessageSizeInBytes) (handler : Env)
    (hnew : ∀ device rest, callsFor handler bytes = .openDevice device :: rest → 0 ≤ device →
      device ∉ s.polled)
    (hlast : protocol.step ((s.consume fd).enter (afterMessage fd response)) last = some u) :
    protocol.run s (.recv fd (.received bytes) ::
      (callsFor handler bytes ++ [.onMessage fd bytes response, last])) = some u := by
  have hread : protocol.step s (.recv fd (.received bytes))
      = some ((s.consume fd).enter (.reading fd bytes)) := by
    have hwithin : (RecvResult.received bytes).within kMaxMessageSizeInBytes
        = .received bytes := by
      rw [RecvResult.within, List.take_of_length_le hlength]
    simp [protocol, step, afterRecv, hserves, hclient, hevent, hne, hwithin]
  have hreading : ((s.consume fd).enter (.reading fd bytes)).phase = .reading fd bytes := rfl
  obtain ⟨phase, hdevice, hphase⟩ := callsFor_follows hreading handler hnew
  have hanswer : protocol.step (((s.consume fd).enter (.reading fd bytes)).enter phase)
      (.onMessage fd bytes response)
      = some ((s.consume fd).enter (afterMessage fd response)) := by
    simp [protocol, step, Session.enter, hphase]
  rw [Monitor.run_cons hread, Monitor.run_append_of_some hdevice, Monitor.run_cons hanswer,
    Monitor.run_singleton]
  exact hlast

/-- **One slot of the pass.** -/
theorem visit_follows (ha : Agrees calls server) (h : Serving (i :: is) server s)
    (env : Slot → SlotEnv)
    (hf : Fresh effect (calls ++ (server.visit handleIncomingMessage env i).calls)) :
    ∃ u, protocol.run s (server.visit handleIncomingMessage env i).calls = some u ∧
      ∀ server', (server.visit handleIncomingMessage env i).result = .ok server' →
        Serving is server' u := by
  have hserves := h.serves
  rcases visit_cases handleIncomingMessage env server i with
    ⟨-, hvisit⟩ | ⟨hused, calls', result, hvisit, hH⟩
  · rw [hvisit]
    exact ⟨s, rfl, fun server' hok => by cases hok; exact h.tail⟩
  · rw [hvisit] at hf ⊢
    have hrevents := h.event i List.mem_cons_self hused
    -- the device that a message opens is none of the connections
    have device : ∀ {bytes : List UInt8} {rest : List Call},
        Fresh effect (calls ++ .recv (server.sockets i).fd (.received bytes) ::
          (callsFor (env i).handler bytes ++ rest)) →
        ∀ d rest', callsFor (env i).handler bytes = .openDevice d :: rest' → 0 ≤ d →
          d ∉ s.polled := by
      intro bytes rest hfresh d rest' hcalls hd
      refine h.notMem_polled ha ?_
      rw [hcalls, List.append_cons, List.cons_append] at hfresh
      have hat := hfresh.at
      have hx : effect (.openDevice d) = .acquire .device d := if_neg (not_lt.mpr hd)
      rw [hx, freshAt_acquire] at hat
      have hsame : Ledger.held effect (calls ++ [.recv (server.sockets i).fd (.received bytes)])
          = Ledger.held effect calls := held_snoc _
      rw [← hsame]
      exact hat
    cases hH with
    | @accepted j hlisten hfree =>
      obtain ⟨hj, hjfd⟩ := freeSlot_eq_some hfree
      have hlistening : s.listening = true := by
        rw [h.listening, ← ha.eq_serverSlot hlisten]
        exact hlisten.1
      have hevent : s.events s.listener = pollIn := by
        rw [h.listener, ← hlisten.1, hrevents]
        exact hlisten.2
      have hcard := h.card_lt hj hjfd
      by_cases hfd : (env i).accepted = -1
      · have hnew : (env i).accepted ∉ s.polled := by
          rw [h.mem_polled ha]
          intro hmem
          obtain ⟨-, -, hne⟩ := hmem
          exact hne hfd
        refine ⟨s.consume s.listener, ?_, ?_⟩
        · rw [Monitor.run_singleton, step_accept hserves hlistening hevent hcard hnew, if_pos hfd]
        · intro server' hok
          cases hok
          have hsame : ∀ k, ((server.setFd j (env i).accepted).sockets k).fd
              = (server.sockets k).fd := by
            intro k
            rw [setFd_fd]
            split
            · rename_i hk
              rw [hk, hjfd, hfd]
            · rfl
          refine h.next ha hused (h.congr hsame rfl (setFd_events ..) h.phase rfl rfl rfl) rfl
            (fun k _ => hsame k) (fun k => setFd_revents ..) ?_
          intro d hd
          rw [hlisten.1, ← h.listener] at hd
          exact Function.update_of_ne hd ..
      · have hnew : (env i).accepted ∉ s.polled := by
          refine h.notMem_polled ha ?_
          have hat := (obeys_append.mp hf).2.1
          have hx : effect (.accept (env i).accepted) = .acquire .client (env i).accepted :=
            if_neg hfd
          rw [hx, freshAt_acquire] at hat
          exact hat
        refine ⟨(s.consume s.listener).connect (env i).accepted, ?_, ?_⟩
        · rw [Monitor.run_singleton, step_accept hserves hlistening hevent hcard hnew, if_neg hfd]
        · intro server' hok
          cases hok
          exact h.connected ha hlisten hfree hfd hnew
    | tableFull hlisten hfull =>
      exact ⟨s, rfl, fun server' hok => by cases hok; exact h.tail⟩
    | @noData result buffer hread hresult hnone =>
      have hi := ne_serverSlot_of_readable ha hused hread
      have hclient := h.mem_clients hi hused
      have hevent : s.events (server.sockets i).fd = pollIn := hrevents.trans hread.2
      have hnext : result.within kMaxMessageSizeInBytes = result ∧
          afterRecv (server.sockets i).fd result = .closing (server.sockets i).fd := by
        rcases hnone with rfl | rfl
        · exact ⟨rfl, rfl⟩
        · exact ⟨rfl, rfl⟩
      refine ⟨(s.disconnect (server.sockets i).fd).enter .idle, ?_, ?_⟩
      · have hrecv : protocol.step s (.recv (server.sockets i).fd result)
            = some ((s.consume (server.sockets i).fd).enter (.closing (server.sockets i).fd)) := by
          simp [protocol, step, hserves, hclient, hevent, hnext]
        rw [Monitor.run_cons hrecv, Monitor.run_singleton, step_close]
      · intro server' hok
        cases hok
        exact h.disconnected ha hi hused buffer
    | faulted hread hresult hne hcall => exact absurd hcall handled_ne_error
    | @answered bytes response calls' hread hresult hne hcall hresponse hsent =>
      obtain ⟨rfl, -⟩ := handled_ok hcall
      have hi := ne_serverSlot_of_readable ha hused hread
      refine ⟨(s.consume (server.sockets i).fd).enter .idle, ?_, ?_⟩
      · refine exchange_follows hserves (h.mem_clients hi hused) (hrevents.trans hread.2) hne
          (within_length_le hresult) _ (device hf) ?_
        simp [protocol, step, Session.enter, afterMessage, hresponse, hsent]
      · intro server' hok
        cases hok
        exact h.next ha hused (h.congr (fun _ => rfl) rfl rfl rfl rfl rfl rfl) rfl
          (fun _ _ => rfl) (fun _ => rfl) (fun d hd => Function.update_of_ne hd ..)
    | @brokenPipe bytes response calls' hread hresult hne hcall hresponse hsent =>
      obtain ⟨rfl, -⟩ := handled_ok hcall
      have hi := ne_serverSlot_of_readable ha hused hread
      refine ⟨(s.consume (server.sockets i).fd).enter .ended, ?_, fun server' hok => by cases hok⟩
      refine exchange_follows hserves (h.mem_clients hi hused) (hrevents.trans hread.2) hne
        (within_length_le hresult) _ (device hf) ?_
      simp [protocol, step, Session.enter, afterMessage, hresponse, hsent]
    | @silent bytes calls' hread hresult hne hcall =>
      obtain ⟨rfl, -⟩ := handled_ok hcall
      have hi := ne_serverSlot_of_readable ha hused hread
      refine ⟨(s.disconnect (server.sockets i).fd).enter .idle, ?_, ?_⟩
      · exact exchange_follows hserves (h.mem_clients hi hused) (hrevents.trans hread.2) hne
          (within_length_le hresult) _ (device hf) (step_close _)
      · intro server' hok
        cases hok
        exact h.disconnected ha hi hused bytes
    | hungUp hevent =>
      have hup : HungUp (s.events (server.sockets i).fd) := by
        rw [hrevents]
        exact hevent
      by_cases hi : i = serverSlot
      · have hslot : (server.sockets i).fd = server.serverSocketFd := by
          rw [hi] at hused ⊢
          exact ha.listening.resolve_right hused
        have hlistening : s.listening = true := by
          rw [h.listening, ← hi]
          exact hslot
        have hclient : (server.sockets i).fd ∉ s.clients := by
          rw [h.clients]
          intro hmem
          obtain ⟨k, hk, hkfd, -⟩ := hmem
          exact ha.clients k hk (hkfd.trans hslot)
        refine ⟨{ s.consume (server.sockets i).fd with listening := false }, ?_, ?_⟩
        · rw [Monitor.run_singleton]
          have hlistener : (server.sockets i).fd = s.listener := hslot.trans h.listener.symm
          rw [hlistener] at hclient hup ⊢
          simp [protocol, step, h.phase, hclient, hlistening, h.inTime, hup]
        · intro server' hok
          cases hok
          refine h.next ha hused ?_ rfl (fun j hj => setFd_fd_of_ne _ _ hj)
            (fun j => setFd_revents ..) (fun d hd => Function.update_of_ne hd ..)
          rw [hi]
          exact h.unlistened ha h.phase rfl rfl rfl
      · have hclient := h.mem_clients hi hused
        refine ⟨(s.disconnect (server.sockets i).fd).enter .idle, ?_, ?_⟩
        · rw [Monitor.run_singleton]
          simp [protocol, step, h.phase, hclient, hup, Session.disconnect, Session.enter,
            Session.consume]
        · intro server' hok
          cases hok
          exact h.disconnected ha hi hused server.messageBuffer
    | ignored hin hhup herr =>
      exact ⟨s, rfl, fun server' hok => by cases hok; exact h.tail⟩

end Slots

/-! ### One iteration -/

section Iterations

variable {calls : List Call} {server : TcpServer} {s : Session}

/-- The entry of a slot in the answer of `poll`. -/
theorem reported_map {fd : Slot → ℤ} {revents : Slot → UInt16} (is : List Slot) {i : Slot}
    (hi : i ∈ is) (hsame : ∀ j, fd j = fd i → j = i) :
    reported (is.map fd) (is.map revents) (fd i) = revents i := by
  rw [reported]
  induction is with
  | nil => cases hi
  | cons j is ih =>
    rw [List.map_cons, List.map_cons, List.zip_cons_cons, List.lookup_cons]
    by_cases hj : fd i = fd j
    · rw [beq_iff_eq.mpr hj, hsame j hj.symm]
      rfl
    · have hij : i ≠ j := fun hij => hj (congrArg fd hij)
      rw [beq_eq_false_iff_ne.mpr hj]
      exact ih ((List.mem_cons.mp hi).resolve_left hij)

/-- `poll` is called for `POLLIN` in every slot. -/
theorem Matches.allEvents (h : Matches server s) (revents : Slot → UInt16) :
    ∀ event ∈ (server.polled revents).allEvents, event = pollIn := by
  intro event hevent
  obtain ⟨i, -, rfl⟩ := List.mem_map.mp hevent
  rw [polled_events]
  split
  · rename_i hi
    rw [hi]
    exact h.events
  · rfl

/-- `poll` is called for the open descriptors, each once. -/
theorem step_poll (h : Matches server s) (ha : Agrees calls server) {events : List UInt16}
    (hevents : ∀ event ∈ events, event = pollIn) (revents : List UInt16) (numberOfEvents : ℤ) :
    protocol.step s (.poll server.fds events revents numberOfEvents)
      = some (s.report server.fds revents numberOfEvents) := by
  have hentries : openEntries server.fds = ((List.finRange kNumberOfSockets).filter fun i =>
      (server.sockets i).fd ≠ -1).map fun i => (server.sockets i).fd := by
    rw [openEntries, fds, List.filter_map]
    rfl
  refine if_pos ⟨h.phase, ?_, ?_, by simpa using hevents⟩
  · rw [hentries]
    refine List.Nodup.map_on ?_ ((List.nodup_finRange _).filter _)
    intro i hi j _ hij
    exact ha.distinct i j (of_decide_eq_true (List.mem_filter.mp hi).2) hij
  · ext d
    rw [hentries, List.mem_toFinset, h.mem_polled ha, List.mem_map]
    constructor
    · intro hd
      obtain ⟨i, hi, rfl⟩ := hd
      exact ⟨i, rfl, of_decide_eq_true (List.mem_filter.mp hi).2⟩
    · intro hd
      obtain ⟨i, rfl, hne⟩ := hd
      exact ⟨i, List.mem_filter.mpr ⟨List.mem_finRange i, decide_eq_true hne⟩, rfl⟩

/-- What `poll` reports. -/
theorem Matches.reported (h : Matches server s) (ha : Agrees calls server)
    {numberOfEvents : ℤ} (hevents : 0 < numberOfEvents) (revents : Slot → UInt16) :
    Serving (List.finRange kNumberOfSockets) (server.polled revents)
      (s.report (server.polled revents).fds (server.polled revents).allRevents
        numberOfEvents) := by
  have hphase : (if numberOfEvents < 0 then Phase.ended else .idle) = .idle := if_neg (by omega)
  have hmatches : Matches (server.polled revents)
      (s.report (server.polled revents).fds (server.polled revents).allRevents numberOfEvents) :=
    h.congr (fun i => polled_fd ..) rfl (polled_events_serverSlot ..) hphase rfl rfl rfl
  refine { hmatches with
    inTime := decide_eq_false (by omega)
    nodup := List.nodup_finRange _
    event := ?_
    quiet := ?_ }
  · intro i hi hused
    have hsame : ∀ j, ((server.polled revents).sockets j).fd
        = ((server.polled revents).sockets i).fd → j = i := by
      intro j hj
      rw [polled_fd] at hused
      rw [polled_fd, polled_fd] at hj
      exact (ha.distinct i j hused hj.symm).symm
    exact reported_map _ hi hsame
  · intro i _ hfree
    rw [polled_fd] at hfree
    rw [polled_revents, if_pos (by omega)]

/-- Followed so far. -/
def Followed (calls : List Call) : Prop := (protocol.run {} calls).isSome

/-- What holds of the calls and the server between two calls. -/
def Follows (p : TcpServer → Session → Prop) (calls : List Call) (server : TcpServer) : Prop :=
  Agrees calls server ∧ Monitor.Watched protocol {} p calls server

theorem Follows.followed {p : TcpServer → Session → Prop} (h : Follows p calls server) :
    Followed calls := h.2.accepted

theorem Follows.mono {p q : TcpServer → Session → Prop} (hpq : ∀ s, p server s → q server s)
    (h : Follows p calls server) : Follows q calls server := by
  obtain ⟨ha, s, hs, hp⟩ := h
  exact ⟨ha, s, hs, hpq s hp⟩

/-- A computation that keeps the ledger, and that the monitor follows. -/
theorem follows_of {p q : TcpServer → Session → Prop} {x : Proc TcpServer}
    (hagrees : Keeps server x)
    (hx : ∀ c s, Agrees c server → p server s → Fresh effect (c ++ x.calls) →
      ∃ u, protocol.run s x.calls = some u ∧ ∀ server', x.result = .ok server' → q server' u) :
    Traced.Triple (Fresh effect) Followed (fun c => Follows p c server) x (Follows q) := by
  intro c hc hr
  obtain ⟨ha, hwatched⟩ := hc
  have hafter := hwatched.after fun s hs => hx c s ha hs hr
  refine ⟨hafter.1, ?_⟩
  intro server' hok
  exact ⟨(hagrees c ha hr).2 server' hok, hafter.2 server' hok⟩

/-- While the connections are dropped. -/
def Dropping (is : List Slot) (server : TcpServer) (s : Session) : Prop :=
  Matches server s ∧ s.timedOut = true ∧ serverSlot ∉ is

theorem dropIfUsed_follows (server : TcpServer) (i : Slot) (is : List Slot) :
    Traced.Triple (Fresh effect) Followed (fun c => Follows (Dropping (i :: is)) c server)
      (server.dropIfUsed i) (Follows (Dropping is)) := by
  refine follows_of (dropIfUsed_agrees server i) ?_
  intro c s ha hs _
  obtain ⟨h, htime, hslot⟩ := hs
  rw [List.mem_cons, not_or] at hslot
  rcases dropIfUsed_cases server i with ⟨-, hdrop⟩ | ⟨hused, hdrop⟩
  · rw [hdrop]
    refine ⟨s, rfl, ?_⟩
    intro server' hok
    cases hok
    exact ⟨h, htime, hslot.2⟩
  · rw [hdrop]
    have hi : i ≠ serverSlot := Ne.symm hslot.1
    have hclient := h.mem_clients hi hused
    refine ⟨(s.disconnect (server.sockets i).fd).enter .idle, ?_, ?_⟩
    · rw [Monitor.run_singleton]
      simp [protocol, step, h.phase, hclient, htime, Session.disconnect, Session.enter,
        Session.consume]
    · intro server' hok
      cases hok
      exact ⟨h.disconnected ha hi hused, htime, hslot.2⟩

/-- What the monitor knows after `poll`. -/
theorem poll_follows {p : TcpServer → Session → Prop} (server : TcpServer) (env : LoopEnv)
    (hp : ∀ c s, Agrees c server → Matches server s →
      p (server.polled env.revents) (s.report (server.polled env.revents).fds
        (server.polled env.revents).allRevents env.numberOfEvents)) :
    Traced.Triple (Fresh effect) Followed (fun c => Follows Matches c server)
      (Traced.call (server.pollCall env) : Proc Unit)
      (fun c _ => Follows p c (server.polled env.revents)) := by
  refine Traced.Triple.call' (fun c => Follows.followed) ?_
  intro c hc _
  obtain ⟨ha, s, hs, hm⟩ := hc
  have hsame : ∀ i, ((server.polled env.revents).sockets i).fd = (server.sockets i).fd :=
    fun i => polled_fd ..
  have hpolled : Matches (server.polled env.revents) s :=
    hm.congr hsame rfl (polled_events_serverSlot ..) hm.phase rfl rfl rfl
  have hagrees : Agrees c (server.polled env.revents) := ha.congr hsame rfl
  refine ⟨hagrees.quiet rfl, _, ?_, hp c s ha hm⟩
  rw [Monitor.run_append_of_some hs, Monitor.run_singleton]
  exact step_poll hpolled hagrees (hm.allEvents env.revents) _ _

/-- **One iteration.** -/
theorem iteration_follows (server : TcpServer) (env : LoopEnv) :
    Traced.Triple (Fresh effect) Followed (fun c => Follows Matches c server)
      (server.iteration handleIncomingMessage env) (Follows Matches) := by
  rw [iteration]
  by_cases herror : env.numberOfEvents < 0
  · rw [if_pos herror]
    refine Traced.Triple.bind fresh_left
      (poll_follows (p := fun _ _ => True) server env fun _ _ _ _ => trivial) ?_
    exact fun _ => Traced.Triple.stop' fun c => Follows.followed
  · rw [if_neg herror]
    by_cases htime : env.numberOfEvents = 0
    · rw [if_pos htime]
      refine Traced.Triple.bind fresh_left
        (poll_follows (p := Dropping clientSlots) server env ?_) ?_
      · intro c s _ hm
        have hphase : (if env.numberOfEvents < 0 then Phase.ended else .idle) = .idle :=
          if_neg herror
        refine ⟨hm.congr (fun i => polled_fd ..) rfl (polled_events_serverSlot ..) hphase rfl rfl
          rfl, decide_eq_true htime, ?_⟩
        exact fun hmem => mem_clientSlots.mp hmem rfl
      · intro _
        refine Traced.Triple.imp (Traced.Triple.foldlM_remaining
          (p := fun is => Follows (Dropping is)) fresh_left (fun _ _ _ => Follows.followed)
          (fun i is s => dropIfUsed_follows s i is) clientSlots _) ?_
        exact fun c server' => Follows.mono fun s hs => hs.1
    · rw [if_neg htime]
      refine Traced.Triple.bind fresh_left
        (poll_follows (p := Serving (List.finRange kNumberOfSockets)) server env ?_) ?_
      · exact fun c s ha hm => hm.reported ha (by omega) env.revents
      · intro _
        refine Traced.Triple.imp (Traced.Triple.foldlM_remaining
          (p := fun is => Follows (Serving is)) fresh_left (fun _ _ _ => Follows.followed)
          (fun i is s => follows_of (visit_agrees handleIncomingMessage_neutral env.slot s i)
            fun c t ha ht hf => visit_follows ha ht env.slot hf) _ _) ?_
        exact fun c server' => Follows.mono fun s hs => hs.toMatches

/-- `setup` is followed to the first idle state, or to the end. -/
theorem setup_run (env : SetupEnv) : ∃ u, protocol.run {} (setup env {}).calls = some u ∧
    ∀ server, (setup env {}).result = .ok server → Matches server u := by
  let created : Session := { phase := .created, listener := env.socket }
  rw [setup_eq]
  by_cases hsocket : env.socket = -1
  · rw [if_pos hsocket]
    refine ⟨Session.enter {} .ended, ?_, fun server hok => by cases hok⟩
    rw [Monitor.run_singleton]
    simp [protocol, step, hsocket]
  · have hcreated : protocol.step {} (.socket env.socket) = some created := by
      simp [protocol, step, hsocket, created, Session.enter]
    rw [if_neg hsocket]
    by_cases hbind : env.bind < 0
    · rw [if_pos hbind]
      refine ⟨created.enter .ended, ?_, fun server hok => by cases hok⟩
      rw [Monitor.run_cons hcreated, Monitor.run_singleton]
      simp [protocol, step, hbind, created]
    · have hbound : protocol.step created (.bind env.socket env.bind)
          = some (created.enter .bound) := by
        simp [protocol, step, hbind, created]
      rw [if_neg hbind]
      by_cases hlisten : env.listen = -1
      · rw [if_pos hlisten]
        refine ⟨created.enter .ended, ?_, fun server hok => by cases hok⟩
        rw [Monitor.run_cons hcreated, Monitor.run_cons hbound, Monitor.run_singleton]
        simp [protocol, step, hlisten, created, Session.enter]
      · rw [if_neg hlisten]
        refine ⟨{ created.enter .idle with listening := true }, ?_, ?_⟩
        · rw [Monitor.run_cons hcreated, Monitor.run_cons hbound, Monitor.run_singleton]
          simp [protocol, step, hlisten, created, Session.enter]
        · intro server hok
          cases hok
          constructor
          · rfl
          · rfl
          · rw [clearSockets_fd, if_pos rfl]
            exact ⟨fun _ => rfl, fun _ => rfl⟩
          · intro d
            refine ⟨fun hd => absurd hd (Finset.notMem_empty d), ?_⟩
            intro hd
            obtain ⟨i, hi, hfd, hne⟩ := hd
            rw [clearSockets_fd, if_neg hi] at hfd
            exact absurd hfd.symm hne
          · rfl

theorem setup_follows (env : SetupEnv) : Traced.Triple (Fresh effect) Followed
    (fun calls => calls = []) (setup env {}) (Follows Matches) := by
  intro c hc hr
  have hagrees := (setup_agrees env c hc hr).2
  obtain ⟨u, hu, hmatches⟩ := setup_run env
  rw [hc, List.nil_append] at hagrees ⊢
  refine ⟨by rw [Followed, hu]; rfl, ?_⟩
  intro server hok
  exact ⟨hagrees server hok, u, hu, hmatches server hok⟩

/-- A whole run. -/
theorem run_follows (setupEnv : SetupEnv) (envs : List LoopEnv) :
    Traced.Triple (Fresh effect) Followed (fun calls => calls = [])
      (run handleIncomingMessage setupEnv envs) (Follows Matches) := by
  refine Traced.Triple.bind fresh_left (setup_follows setupEnv) ?_
  intro server
  exact Traced.Triple.foldlM (p := Follows Matches) fresh_left (fun _ _ => Follows.followed) envs
    (fun env _ s => iteration_follows s env) server

/-- **The server follows the protocol.**  Whatever `poll`, `accept`, `recv`, `send` and the device
answer, as long as the kernel hands out only descriptors that are not open, no call of a run is out
of turn; and whenever the loop is entered, the monitor knows the connections of the server. -/
theorem protocol_followed (setupEnv : SetupEnv) (envs : List LoopEnv)
    (hfresh : Fresh effect (run handleIncomingMessage setupEnv envs).calls) :
    ∃ s, protocol.run {} (run handleIncomingMessage setupEnv envs).calls = some s ∧
      ∀ server, (run handleIncomingMessage setupEnv envs).result = .ok server →
        Matches server s := by
  obtain ⟨hfollowed, hpost⟩ := run_follows setupEnv envs [] rfl hfresh
  obtain ⟨s, hs⟩ := Option.isSome_iff_exists.mp hfollowed
  refine ⟨s, hs, ?_⟩
  intro server hok
  obtain ⟨-, t, ht, hmatches⟩ := hpost server hok
  have hst : t = s := Option.some.inj (ht.symm.trans hs)
  rw [hst] at hmatches
  exact hmatches

/-- A client connects and asks for the chip id. -/
theorem protocol_followed_chipId : ∃ s,
    protocol.run {} (run handleIncomingMessage ⟨5, 0, 0⟩ [connects 4, chipIdArrives]).calls
        = some s ∧
      ∀ server,
        (run handleIncomingMessage ⟨5, 0, 0⟩ [connects 4, chipIdArrives]).result = .ok server →
          Matches server s :=
  protocol_followed ⟨5, 0, 0⟩ [connects 4, chipIdArrives] (by decide +kernel)

end Iterations

end CallProtocol

end FcsServer
