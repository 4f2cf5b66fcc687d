import FcsServer.Listening
import FcsServer.Shutdown
import FcsServer.TableState

/-!
# At which moments the server can be told to end

A signal between a call and its store finds a table that does not agree with the calls: the handler
closes a socket twice, or leaves one open.  So it does while the device is open, before the table is
set up, and after the listening socket hung up; at all other moments it closes what is open.

* `Clean` / `CleanExit` — the handler closes what is open, once;
* `Midway` — the last step left something half done;
* `Rests` / `Owes` — the table agrees with the calls, or will with the next store;
* `handle_rests`, `iteration_rests` — one slot, one iteration; `setup_starts` — the first moments;
* `clean_exit_iff` — at which moments of a run the handler exits cleanly.
-/

namespace FcsServer

open LittleEndian Ledger MessageHandler DescriptorConservation Listening

namespace Shutdown

/-! ### What the handler finds, and what it does -/

/-- The table after a moment. -/
def write (server : TcpServer) : Moment → TcpServer
  | .called _ => server
  | .stored server' => server'

/-- The table as the last store left it; before the first one the slots are zero. -/
def current (moments : List Moment) : TcpServer := moments.foldl write {}

/-- To close these descriptors is to close the sockets that are open, each once; and no device is
open. -/
structure Clean (sofar : List Call) (closed : List ℤ) : Prop where
  once : closed.Nodup
  sockets : ∀ fd, fd ∈ closed ↔
    fd ≠ -1 ∧ (StillOpen .socket sofar fd ∨ StillOpen .accept sofar fd)
  device : ∀ fd, 0 ≤ fd → ¬ StillOpen .openDevice sofar fd

/-- What `closeSockets` closes. -/
def closing (server : TcpServer) : List ℤ := closes server.closeSockets.calls

/-- A signal after these moments ends the process, with the handler's calls as the last ones. -/
def CleanExit (s : ℤ) (moments : List Moment) : Prop :=
  (onSignal s (current moments)).result = .error (.exit 0) ∧
    Clean (callsOf moments) (closes (onSignal s (current moments)).calls)

/-- The last moment, latest first, leaves something half done: a connection without a slot, a
closed one with one, or an open device. -/
def midway : List Moment → Prop
  | .called (.accept fd) :: _ => fd ≠ -1
  | .called (.openDevice fd) :: _ => 0 ≤ fd
  | .called (.ioctl _ _ _ _) :: _ => True
  | .called (.close _) :: .called (.ioctl _ _ _ _) :: _ => False
  | .called (.close _) :: _ => True
  | _ => False

def Midway (moments : List Moment) : Prop := midway moments.reverse

/-- Slot 0 holds the listening socket. -/
def HasListener (server : TcpServer) : Prop :=
  (server.sockets serverSlot).fd = server.serverSocketFd

section Moments

variable {moments base : List Moment} {calls : List Call} {server server' : TcpServer} {i : Slot}
  {fd : ℤ} {c : Call}

theorem callsOf_append (m m' : List Moment) : callsOf (m ++ m') = callsOf m ++ callsOf m' :=
  List.filterMap_append

@[simp] theorem callsOf_called (m : List Moment) (c : Call) :
    callsOf (m ++ [.called c]) = callsOf m ++ [c] := callsOf_append ..

@[simp] theorem callsOf_stored (m : List Moment) (server : TcpServer) :
    callsOf (m ++ [.stored server]) = callsOf m := by
  rw [callsOf_append]
  exact List.append_nil _

@[simp] theorem current_called (m : List Moment) (c : Call) :
    current (m ++ [.called c]) = current m := List.foldl_append

@[simp] theorem current_stored (m : List Moment) (server : TcpServer) :
    current (m ++ [.stored server]) = server := List.foldl_append

theorem midway_snoc (m : List Moment) (x : Moment) :
    Midway (m ++ [x]) ↔ midway (x :: m.reverse) := by
  rw [Midway, List.reverse_append]
  rfl

theorem mem_closing {d : ℤ} : d ∈ closing server ↔
    (∃ i, i ≠ serverSlot ∧ (server.sockets i).fd = d ∧ d ≠ -1) ∨ d = server.serverSocketFd := by
  rw [closing, closeSockets_calls, List.mem_append, List.mem_singleton, List.mem_map]
  refine or_congr_left ?_
  constructor
  · intro hd
    obtain ⟨i, hi, rfl⟩ := hd
    obtain ⟨hmem, hused⟩ := List.mem_filter.mp hi
    exact ⟨i, TcpServer.mem_clientSlots.mp hmem, rfl, of_decide_eq_true hused⟩
  · intro hd
    obtain ⟨i, hi, rfl, hused⟩ := hd
    exact ⟨i, List.mem_filter.mpr ⟨TcpServer.mem_clientSlots.mpr hi, decide_eq_true hused⟩, rfl⟩

/-- The handler reads only the descriptors. -/
theorem closing_congr (h : TcpServer.SameTable server server') :
    closing server = closing server' := by
  rw [closing, closing, closeSockets_calls, closeSockets_calls]
  simp only [h.fd, h.listener]

theorem onSignal_eq {s : ℤ} (hs : s = sigInt ∨ s = sigTerm) (server : TcpServer) :
    onSignal s server = ⟨server.closeSockets.calls, .error (.exit 0)⟩ := by
  have hloop : ∀ is : List Slot, (is.foldlM server.closeIfUsed ()).result = .ok () := by
    intro is
    induction is with
    | nil => rfl
    | cons i is ih =>
      rw [List.foldlM_cons, TcpServer.closeIfUsed]
      split
      · rw [Traced.call_bind]
        exact ih
      · rw [Traced.pure_bind']
        exact ih
  have hclose : server.closeSockets.result = .ok () := by
    rw [TcpServer.closeSockets, Traced.bind_of_ok _ (hloop clientSlots)]
    rfl
  rw [onSignal, if_pos hs, Traced.bind_of_ok _ hclose]
  simp [Traced.stop]

/-- Between two steps of the server. -/
theorem clean_of_agrees (h : Agrees calls server) :
    Clean calls (closing server) ↔ HasListener server := by
  constructor
  · intro hclean
    by_contra hnone
    have hopen := (hclean.sockets server.serverSocketFd).mp (mem_closing.mpr (Or.inr rfl))
    rw [and_or_left, ← held_listener, ← held_client, h.held, h.held] at hopen
    have hslot : ∃ i, (server.sockets i).fd = server.serverSocketFd := by
      rcases hopen with ⟨i, hi, -⟩ | ⟨i, hi, -⟩
      · exact ⟨i, hi⟩
      · exact ⟨i, hi⟩
    obtain ⟨i, hi⟩ := hslot
    by_cases his : i = serverSlot
    · rw [his] at hi
      exact hnone hi
    · exact h.clients i his hi
  · intro hlistener
    obtain ⟨honce, hsockets⟩ := shutdown_of_agrees h hlistener
    refine ⟨honce, hsockets, ?_⟩
    intro d hd hstill
    obtain ⟨i, -, -, howner⟩ := (h.held _ _).mp (held_device.mpr ⟨hd, hstill⟩)
    rw [slotOwner] at howner
    split at howner
    · cases howner
    · cases howner

/-- A connection was accepted and is in no slot. -/
theorem not_clean_accept (h : Agrees calls server) (hlisten : TcpServer.Listens server i)
    (hfd : fd ≠ -1) (hf : Fresh effect (calls ++ [.accept fd])) :
    ¬ Clean (calls ++ [.accept fd]) (closing server) := by
  intro hclean
  have hx : effect (.accept fd) = .acquire .client fd := if_neg hfd
  have hnew : ∀ k, (server.sockets k).fd ≠ fd := by
    intro k hk
    have hat := (obeys_append.mp hf).2.1
    rw [hx, freshAt_acquire] at hat
    exact hat (slotOwner k) ((h.held _ _).mpr ⟨k, hk, hfd, rfl⟩)
  have hopen : StillOpen .accept (calls ++ [.accept fd]) fd := ⟨calls, [], rfl, List.not_mem_nil⟩
  rcases mem_closing.mp ((hclean.sockets fd).mpr ⟨hfd, Or.inr hopen⟩) with ⟨k, -, hk, -⟩ | heq
  · exact hnew k hk
  · exact hnew i (hlisten.1.trans heq.symm)

/-- A slot is closed and still in the table. -/
theorem not_clean_close (h : Agrees calls server) (hused : (server.sockets i).fd ≠ -1) :
    ¬ Clean (calls ++ [.close (server.sockets i).fd]) (closing server) := by
  intro hclean
  have hclosed : (server.sockets i).fd ∈ closing server := by
    rw [mem_closing]
    by_cases hi : i = serverSlot
    · rw [hi] at hused ⊢
      exact Or.inr (h.listening.resolve_right hused)
    · exact Or.inl ⟨i, hi, rfl, hused⟩
  have hopen := (hclean.sockets _).mp hclosed
  have hx : effect (.close (server.sockets i).fd) = .release (server.sockets i).fd := rfl
  rw [and_or_left, ← held_listener, ← held_client, held_snoc, hx, mem_book_release,
    mem_book_release] at hopen
  rcases hopen with ⟨-, hne⟩ | ⟨-, hne⟩
  · exact hne rfl
  · exact hne rfl

/-- The device is open. -/
theorem not_clean_device (hd : 0 ≤ fd) (hopen : StillOpen .openDevice calls fd) :
    ¬ Clean calls (closing server) := fun hclean => hclean.device fd hd hopen

end Moments

/-! ### From moment to moment -/

/-- The handler leaves nothing open and closes nothing twice unless something is half done or the
listening socket is gone. -/
def Right (moments : List Moment) : Prop :=
  Clean (callsOf moments) (closing (current moments)) ↔
    ¬ Midway moments ∧ HasListener (current moments)

/-- Every moment so far, from those of `base` on. -/
def AllRight (base moments : List Moment) : Prop :=
  ∀ pre, base <+: pre → pre <+: moments → Right pre

/-- The kernel hands out only descriptors that are not open. -/
def FreshCalls (moments : List Moment) : Prop := Fresh effect (callsOf moments)

/-- **Nothing is half done**: the table is that of the server and agrees with the calls. -/
structure Rests (base moments : List Moment) (server : TcpServer) : Prop where
  right : AllRight base moments
  table : TcpServer.SameTable (current moments) server
  agrees : Agrees (callsOf moments) server
  settled : ¬ Midway moments

/-- A store is due: it makes the table agree with the calls. -/
structure Owes (base moments : List Moment) (server : TcpServer) : Prop where
  right : AllRight base moments
  agrees : Agrees (callsOf moments) server

abbrev RestsAfter (base : List Moment) (server : TcpServer) (x : Steps TcpServer) : Prop :=
  Traced.Triple FreshCalls (AllRight base) (fun m => Rests base m server) x (Rests base)

section Triples

variable {moments base : List Moment} {server : TcpServer} {i : Slot} {c : Call}

theorem freshCalls_left (m m' : List Moment) (h : FreshCalls (m ++ m')) : FreshCalls m := by
  rw [FreshCalls, callsOf_append] at h
  exact h.left

theorem AllRight.snoc {x : Moment} (h : AllRight base moments) (hx : Right (moments ++ [x])) :
    AllRight base (moments ++ [x]) := by
  intro pre hbase hpre
  rcases List.prefix_concat_iff.mp hpre with heq | hpre
  · rw [heq]
    exact hx
  · exact h pre hbase hpre

/-- Where nothing is half done, only the listening socket matters. -/
theorem right_of_agrees {m : List Moment} (htable : TcpServer.SameTable (current m) server)
    (hagrees : Agrees (callsOf m) server) (hsettled : ¬ Midway m) : Right m := by
  have hlistener : HasListener (current m) ↔ HasListener server := by
    rw [HasListener, HasListener, htable.fd, htable.listener]
  rw [Right, closing_congr htable, clean_of_agrees hagrees, hlistener]
  exact (and_iff_right hsettled).symm

/-- Where something is half done, the handler does not exit cleanly. -/
theorem right_of_midway {m : List Moment} (hmidway : Midway m)
    (htable : TcpServer.SameTable (current m) server)
    (hclean : ¬ Clean (callsOf m) (closing server)) : Right m := by
  rw [Right, closing_congr htable]
  exact ⟨fun h => absurd h hclean, fun h => absurd hmidway h.1⟩

theorem Rests.congr {server' : TcpServer} (h : Rests base moments server)
    (hsame : TcpServer.SameTable server server') : Rests base moments server' := by
  refine ⟨h.right, h.table.trans hsame, ?_, h.settled⟩
  exact h.agrees.congr (fun i => (hsame.fd i).symm) hsame.listener.symm

/-- A call that opens and closes nothing. -/
theorem Rests.quiet (h : Rests base moments server) (hx : effect c = .nothing)
    (hc : ¬ Midway (moments ++ [.called c])) : Rests base (moments ++ [.called c]) server := by
  have htable : TcpServer.SameTable (current (moments ++ [.called c])) server := by
    rw [current_called]
    exact h.table
  have hagrees : Agrees (callsOf (moments ++ [.called c])) server := by
    rw [callsOf_called]
    exact h.agrees.quiet hx
  exact ⟨h.right.snoc (right_of_agrees htable hagrees hc), htable, hagrees, hc⟩

theorem Owes.stored (h : Owes base moments server) :
    Rests base (moments ++ [.stored server]) server := by
  have htable : TcpServer.SameTable (current (moments ++ [.stored server])) server := by
    rw [current_stored]
    exact ⟨fun _ => rfl, rfl, rfl⟩
  have hagrees : Agrees (callsOf (moments ++ [.stored server])) server := by
    rw [callsOf_stored]
    exact h.agrees
  have hsettled : ¬ Midway (moments ++ [.stored server]) := by
    rw [midway_snoc]
    exact id
  exact ⟨h.right.snoc (right_of_agrees htable hagrees hsettled), htable, hagrees, hsettled⟩

/-- The descriptor of a slot is closed. -/
theorem Rests.closed (h : Rests base moments server) (hused : (server.sockets i).fd ≠ -1) :
    Owes base (moments ++ [.called (.close (server.sockets i).fd)]) (server.setFd i (-1)) := by
  have hmidway : Midway (moments ++ [.called (.close (server.sockets i).fd)]) := by
    have hsettled := h.settled
    rw [Midway] at hsettled
    rw [midway_snoc]
    -- the moment before is no `ioctl`, which would have been half done itself
    cases hlast : moments.reverse with
    | nil => exact trivial
    | cons x m =>
      rw [hlast] at hsettled
      cases x with
      | stored server => exact trivial
      | called k =>
        cases k with
        | ioctl fd command data returned => exact absurd trivial hsettled
        | _ => exact trivial
  have htable : TcpServer.SameTable
      (current (moments ++ [.called (.close (server.sockets i).fd)])) server := by
    rw [current_called]
    exact h.table
  refine ⟨h.right.snoc (right_of_midway hmidway htable ?_), ?_⟩
  · rw [callsOf_called]
    exact not_clean_close h.agrees hused
  · rw [callsOf_called]
    exact h.agrees.closed hused

/-- A connection is accepted, or `accept` fails. -/
theorem Rests.accepted {j : Slot} {fd : ℤ} (h : Rests base moments server)
    (hlisten : TcpServer.Listens server i) (hfree : server.freeSlot = some j)
    (hf : FreshCalls (moments ++ [.called (.accept fd)])) :
    Owes base (moments ++ [.called (.accept fd)]) (server.setFd j fd) := by
  rw [FreshCalls, callsOf_called] at hf
  have htable : TcpServer.SameTable (current (moments ++ [.called (.accept fd)])) server := by
    rw [current_called]
    exact h.table
  have hagrees := h.agrees.accepted hlisten hfree hf
  refine ⟨h.right.snoc ?_, by rw [callsOf_called]; exact hagrees⟩
  by_cases hfd : fd = -1
  · refine right_of_agrees htable ?_ ?_
    · rw [callsOf_called]
      exact h.agrees.quiet (if_pos hfd)
    · rw [midway_snoc]
      exact fun hne => hne hfd
  · refine right_of_midway ?_ htable ?_
    · rw [midway_snoc]
      exact hfd
    · rw [callsOf_called]
      exact not_clean_accept h.agrees hlisten hfd hf

/-- The device is opened, asked and closed; in between it is open. -/
theorem Rests.device {device : ℤ} {command : DevCommand} {data : IntelFcsDevIoctl} {returned : ℤ}
    (h : Rests base moments server) (hd : 0 ≤ device)
    (hneutral : Neutral [.openDevice device, .ioctl device command data returned, .close device])
    (hf : Fresh effect (callsOf moments
      ++ [.openDevice device, .ioctl device command data returned, .close device])) :
    Rests base (moments ++ [.called (.openDevice device)]
      ++ [.called (.ioctl device command data returned)] ++ [.called (.close device)]) server := by
  generalize hopened : moments ++ [Moment.called (.openDevice device)] = opened
  generalize hasked : opened ++ [Moment.called (.ioctl device command data returned)] = asked
  have hopenedCalls : callsOf opened = callsOf moments ++ [.openDevice device] := by
    rw [← hopened, callsOf_called]
  have haskedCalls : callsOf asked
      = callsOf moments ++ [.openDevice device, .ioctl device command data returned] := by
    rw [← hasked, callsOf_called, hopenedCalls, List.append_assoc]
    rfl
  have hopenedTable : TcpServer.SameTable (current opened) server := by
    rw [← hopened, current_called]
    exact h.table
  have haskedTable : TcpServer.SameTable (current asked) server := by
    rw [← hasked, current_called]
    exact hopenedTable
  have hopenedRight : AllRight base opened := by
    rw [← hopened] at hopenedCalls hopenedTable ⊢
    refine h.right.snoc (right_of_midway ?_ hopenedTable ?_)
    · rw [midway_snoc]
      exact hd
    · rw [hopenedCalls]
      exact not_clean_device hd ⟨_, [], rfl, List.not_mem_nil⟩
  have haskedRight : AllRight base asked := by
    rw [← hasked] at haskedCalls haskedTable ⊢
    refine hopenedRight.snoc (right_of_midway ?_ haskedTable ?_)
    · rw [midway_snoc]
      exact trivial
    · rw [haskedCalls]
      refine not_clean_device hd ⟨_, [.ioctl device command data returned], rfl, ?_⟩
      exact fun hmem => Call.noConfusion (List.mem_singleton.mp hmem)
  have hsettled : ¬ Midway (asked ++ [.called (.close device)]) := by
    rw [midway_snoc, ← hasked, List.reverse_append]
    exact id
  have htable : TcpServer.SameTable (current (asked ++ [.called (.close device)])) server := by
    rw [current_called]
    exact haskedTable
  have hagrees : Agrees (callsOf (asked ++ [.called (.close device)])) server := by
    rw [callsOf_called, haskedCalls, List.append_assoc]
    exact h.agrees.neutral hneutral hf
  exact ⟨haskedRight.snoc (right_of_agrees htable hagrees hsettled), htable, hagrees, hsettled⟩

theorem call_rests (hx : effect c = .nothing)
    (hc : ∀ m : List Moment, ¬ Midway (m ++ [.called c])) :
    Traced.Triple FreshCalls (AllRight base) (fun m => Rests base m server) (call c)
      (fun m _ => Rests base m server) := by
  refine Traced.Triple.call' (fun _ h => h.right) ?_
  intro m h _
  exact h.quiet hx (hc m)

theorem store_rests (server : TcpServer) :
    Traced.Triple FreshCalls (AllRight base) (fun m => Owes base m server) (store server)
      (Rests base) := by
  intro m h _
  rw [store_eq]
  have hrests := h.stored
  refine ⟨hrests.right, ?_⟩
  intro server' hok
  cases hok
  exact hrests

theorem close_rests (hused : (server.sockets i).fd ≠ -1) :
    RestsAfter base server (closeConnectionAndEnableForReuse server i) := by
  refine Traced.Triple.bind freshCalls_left (Traced.Triple.call'
    (q := fun m => Owes base m (server.setFd i (-1))) (fun _ h => h.right) ?_) ?_
  · intro m h _
    exact h.closed hused
  · intro _
    exact store_rests _

theorem accept_rests (hlisten : TcpServer.Listens server i) (env : SlotEnv) :
    RestsAfter base server (acceptConnection server env) := by
  rw [acceptConnection]
  cases hfree : server.freeSlot with
  | none => exact Traced.Triple.pure' (fun _ h => h.right) (fun _ h => h)
  | some j =>
    refine Traced.Triple.bind freshCalls_left (Traced.Triple.call'
      (q := fun m => Owes base m (server.setFd j env.accepted)) (fun _ h => h.right) ?_) ?_
    · intro m h hf
      exact h.accepted hlisten hfree hf
    · intro _
      exact store_rests _

/-- The callback for one message. -/
theorem callback_rests (env : Env) (message : List UInt8) :
    Traced.Triple FreshCalls (AllRight base) (fun m => Rests base m server)
      (tableless (handleIncomingMessage env message [])) (fun m _ => Rests base m server) := by
  intro m h hf
  have hrests : Rests base
      (m ++ (tableless (handleIncomingMessage env message [])).calls) server := by
    have hneutral := handleIncomingMessage_neutral env message []
    rw [tableless] at hf ⊢
    rw [handleIncomingMessage_eq] at hneutral hf ⊢
    dsimp only at hneutral hf ⊢
    rw [callsFor] at hneutral hf ⊢
    cases hcommand : commandOf message with
    | none =>
      show Rests base (m ++ []) server
      rw [List.append_nil]
      exact h
    | some command =>
      rw [hcommand] at hneutral hf
      dsimp only at hneutral hf ⊢
      rw [FcsCommunication.deviceCalls] at hneutral hf ⊢
      by_cases hopen : env.driver.openDevice < 0
      · rw [if_pos hopen]
        refine h.quiet (if_pos hopen) ?_
        rw [midway_snoc]
        exact not_le.mpr hopen
      · rw [if_neg hopen] at hneutral hf ⊢
        rw [FreshCalls, callsOf_append] at hf
        rw [List.map_cons, List.map_cons, List.map_cons, List.map_nil, List.append_cons,
          List.append_cons]
        exact h.device (not_lt.mp hopen) hneutral hf
  exact ⟨hrests.right, fun _ _ => hrests⟩

/-- **One slot**, whatever happens to it. -/
theorem handle_rests (env : SlotEnv) (hused : (server.sockets i).fd ≠ -1) :
    RestsAfter base server (handleEventIfAny handleIncomingMessage env server i) := by
  have still : ∀ c, effect c = .nothing → (∀ m : List Moment, ¬ midway (.called c :: m)) →
      ∀ s : TcpServer, Traced.Triple FreshCalls (AllRight base) (fun m => Rests base m s) (call c)
        (fun m _ => Rests base m s) := by
    intro c hx hc s
    refine call_rests hx ?_
    intro m
    rw [midway_snoc]
    exact hc _
  -- the buffer is not part of the table
  have buffered : ∀ (s : TcpServer) (buffer : List UInt8) (x : Steps TcpServer),
      RestsAfter base (s.setBuffer buffer) x → RestsAfter base s x := by
    intro s buffer x hx m h hf
    exact hx m (h.congr ⟨fun _ => rfl, rfl, rfl⟩) hf
  rw [handleEventIfAny]
  dsimp only
  split
  · rename_i hlisten
    exact accept_rests hlisten env
  · split
    · refine buffered _ (resize kMaxMessageSizeInBytes 0 server.messageBuffer) _ ?_
      have hsize : (server.setBuffer
          (resize kMaxMessageSizeInBytes 0 server.messageBuffer)).messageBuffer.length
          = kMaxMessageSizeInBytes := length_resize _ _ _
      rw [hsize]
      refine Traced.Triple.bind freshCalls_left (still _ rfl (fun _ => id) _) ?_
      intro _
      cases env.received.within kMaxMessageSizeInBytes with
      | failed => exact close_rests hused
      | received bytes =>
        dsimp only
        split
        · exact close_rests hused
        · refine buffered _ (resize bytes.length 0 (overwrite bytes (server.setBuffer
            (resize kMaxMessageSizeInBytes 0 server.messageBuffer)).messageBuffer)) _ ?_
          refine Traced.Triple.bind freshCalls_left (callback_rests _ _) ?_
          intro response
          refine Traced.Triple.bind freshCalls_left (still _ rfl (fun _ => id) _) ?_
          intro _
          split
          · refine Traced.Triple.bind freshCalls_left (still _ rfl (fun _ => id) _) ?_
            intro _
            split
            · exact Traced.Triple.stop' fun _ h => h.right
            · exact Traced.Triple.pure' (fun _ h => h.right) (fun _ h => h)
          · exact close_rests hused
    · split
      · exact close_rests hused
      · exact Traced.Triple.pure' (fun _ h => h.right) (fun _ h => h)

theorem visit_rests (env : Slot → SlotEnv) (server : TcpServer) (i : Slot) :
    RestsAfter base server (visit handleIncomingMessage env server i) := by
  rw [visit]
  split
  · rename_i hused
    exact handle_rests (env i) hused
  · exact Traced.Triple.pure' (fun _ h => h.right) (fun _ h => h)

theorem dropIfUsed_rests (server : TcpServer) (i : Slot) :
    RestsAfter base server (dropIfUsed server i) := by
  rw [dropIfUsed]
  split
  · rename_i hused
    exact close_rests hused
  · exact Traced.Triple.pure' (fun _ h => h.right) (fun _ h => h)

/-- **One iteration.** -/
theorem iteration_rests (server : TcpServer) (env : LoopEnv) :
    RestsAfter base server (iteration handleIncomingMessage server env) := by
  have hpolled : RestsAfter base (server.polled env.revents)
      (iteration handleIncomingMessage server env) := by
    rw [iteration]
    refine Traced.Triple.bind freshCalls_left (call_rests rfl ?_) ?_
    · intro m
      rw [midway_snoc]
      exact id
    · intro _
      split
      · exact Traced.Triple.stop' fun _ h => h.right
      · split
        · exact Traced.Triple.foldlM freshCalls_left (fun _ _ h => h.right) clientSlots
            (fun i _ s => dropIfUsed_rests s i) _
        · exact Traced.Triple.foldlM freshCalls_left (fun _ _ h => h.right) _
            (fun i _ s => visit_rests env.slot s i) _
  intro m h hf
  refine hpolled m (h.congr ⟨?_, rfl, ?_⟩) hf
  · exact fun i => (TcpServer.polled_fd ..).symm
  · exact (TcpServer.polled_events_serverSlot ..).symm


end Triples

/-! ### Setting up -/

/-- `setup` returned, and these moments are later. -/
def SetUp (env : SetupEnv) (moments : List Moment) : Prop :=
  (∃ server, (setup env {}).result = .ok server) ∧ (setup env {}).calls <+: moments

/-- While the table is set up: some slot of a client is still zero, and nothing but the listening
socket was opened. -/
structure Starts (env : SetupEnv) (moments : List Moment) : Prop where
  zero : ∃ i, i ≠ serverSlot ∧ ((current moments).sockets i).fd = 0
  held : ∀ o d, (o, d) ∈ Ledger.held effect (callsOf moments) → d = env.socket

section Setup

variable {env : SetupEnv} {moments : List Moment} {server : TcpServer}

/-- The handler would close descriptor 0 and the listening socket, which is not two sockets. -/
theorem Starts.not_clean (h : Starts env moments) :
    ¬ Clean (callsOf moments) (closing (current moments)) := by
  intro hclean
  obtain ⟨i, hi, hzero⟩ := h.zero
  have open_eq : ∀ d, d ∈ closing (current moments) → d = env.socket := by
    intro d hd
    have hopen := (hclean.sockets d).mp hd
    rw [and_or_left, ← held_listener, ← held_client] at hopen
    rcases hopen with hopen | hopen
    · exact h.held _ _ hopen
    · exact h.held _ _ hopen
  have hfirst : (0 : ℤ) = env.socket :=
    open_eq 0 (mem_closing.mpr (Or.inl ⟨i, hi, hzero, by decide⟩))
  have hlast : (current moments).serverSocketFd = env.socket :=
    open_eq _ (mem_closing.mpr (Or.inr rfl))
  have honce := hclean.once
  rw [closing, closeSockets_calls, List.nodup_append] at honce
  have hslot : (0 : ℤ) ∈ (clientSlots.filter fun i =>
      ((current moments).sockets i).fd ≠ -1).map fun i => ((current moments).sockets i).fd := by
    refine List.mem_map.mpr ⟨i, List.mem_filter.mpr ⟨TcpServer.mem_clientSlots.mpr hi, ?_⟩, hzero⟩
    rw [hzero]
    rfl
  exact honce.2.2 0 hslot _ (List.mem_singleton_self _) (hfirst.trans hlast.symm)

theorem Starts.nil : Starts env [] :=
  ⟨⟨firstClient, by decide, rfl⟩, fun _ _ h => absurd h List.not_mem_nil⟩

theorem Starts.called {c : Call} (h : Starts env moments)
    (hc : effect c = .nothing ∨ effect c = .acquire .listener env.socket) :
    Starts env (moments ++ [.called c]) := by
  refine ⟨?_, ?_⟩
  · rw [current_called]
    exact h.zero
  · intro o d hd
    rw [callsOf_called, held_snoc] at hd
    rcases hc with hc | hc
    · rw [hc] at hd
      exact h.held o d hd
    · rw [hc, mem_book_acquire] at hd
      rcases hd with hd | hd
      · exact hd.2
      · exact h.held o d hd

theorem Starts.stored (h : Starts env moments)
    (hzero : ∃ i, i ≠ serverSlot ∧ (server.sockets i).fd = 0) :
    Starts env (moments ++ [.stored server]) := by
  refine ⟨?_, ?_⟩
  · rw [current_stored]
    exact hzero
  · intro o d hd
    rw [callsOf_stored] at hd
    exact h.held o d hd

/-- The moments of `setup`. -/
theorem setup_steps (env : SetupEnv) : setup env {}
    = let named : TcpServer := { serverSocketFd := env.socket }
      let first : List Moment := [.called (.socket env.socket), .stored named]
      if env.socket = -1 then ⟨first, .error (.exit 1)⟩
      else if env.bind < 0 then
        ⟨first ++ [.called (.bind env.socket env.bind)], .error (.exit 1)⟩
      else if env.listen = -1 then
        ⟨first ++ [.called (.bind env.socket env.bind), .called (.listen env.socket env.listen)],
          .error (.exit 1)⟩
      else
        ⟨first ++ [.called (.bind env.socket env.bind), .called (.listen env.socket env.listen),
            .stored (setListener named)] ++ (clientSlots.foldlM clear (setListener named)).calls,
          (clientSlots.foldlM clear (setListener named)).result⟩ := by
  rw [setup, call, Traced.call_bind, store_eq, Traced.mk_ok_bind]
  dsimp only
  split
  · rfl
  · rw [call, Traced.call_bind]
    split
    · rfl
    · rw [call, Traced.call_bind]
      split
      · rfl
      · rw [store_eq, Traced.mk_ok_bind]
        generalize clientSlots.foldlM clear _ = cleared
        rfl

/-- Before the last store of the loop some slot is not freed yet. -/
theorem clear_prefix (is : List Slot) (hnodup : is.Nodup) (server : TcpServer)
    (pre : List Moment) (hpre : pre <+: (is.foldlM clear server).calls)
    (hne : pre ≠ (is.foldlM clear server).calls) :
    callsOf pre = [] ∧
      ∃ i ∈ is, ((pre.foldl write server).sockets i).fd = (server.sockets i).fd := by
  induction is generalizing server pre with
  | nil => exact absurd (List.prefix_nil.mp hpre) hne
  | cons j is ih =>
    obtain ⟨hj, hnodup⟩ := List.nodup_cons.mp hnodup
    have hcalls : ((j :: is).foldlM clear server).calls
        = .stored (server.setFd j (-1)) :: (is.foldlM clear (server.setFd j (-1))).calls := by
      rw [List.foldlM_cons, clear, store_eq, Traced.mk_ok_bind]
      rfl
    rw [hcalls] at hpre hne
    cases pre with
    | nil => exact ⟨rfl, j, List.mem_cons_self, rfl⟩
    | cons x pre =>
      obtain ⟨rfl, hrest⟩ := List.cons_prefix_cons.mp hpre
      obtain ⟨hnone, i, hi, hfd⟩ :=
        ih hnodup (server.setFd j (-1)) pre hrest fun heq => hne (by rw [heq])
      refine ⟨hnone, i, List.mem_cons_of_mem j hi, hfd.trans ?_⟩
      exact TcpServer.setFd_fd_of_ne _ _ (ne_of_mem_of_not_mem hi hj)

/-- The loop returns what it stored last. -/
theorem foldl_clear (is : List Slot) (server next : TcpServer)
    (h : (is.foldlM clear server).result = .ok next) :
    (is.foldlM clear server).calls.foldl write server = next ∧
      ∀ x ∈ (is.foldlM clear server).calls, ∃ s, x = .stored s := by
  induction is generalizing server with
  | nil =>
    cases h
    exact ⟨rfl, fun x hx => absurd hx List.not_mem_nil⟩
  | cons j is ih =>
    have hstep : (j :: is).foldlM clear server
        = ⟨.stored (server.setFd j (-1)) :: (is.foldlM clear (server.setFd j (-1))).calls,
            (is.foldlM clear (server.setFd j (-1))).result⟩ := by
      rw [List.foldlM_cons, clear, store_eq, Traced.mk_ok_bind]
      rfl
    rw [hstep] at h ⊢
    obtain ⟨hnext, hstores⟩ := ih (server.setFd j (-1)) h
    refine ⟨hnext, ?_⟩
    intro x hx
    rcases List.mem_cons.mp hx with rfl | hx
    · exact ⟨_, rfl⟩
    · exact hstores x hx

/-- The moments of `setup` up to the store of the listening socket. -/
def firstMoments (env : SetupEnv) : List Moment :=
  [.called (.socket env.socket), .stored { serverSocketFd := env.socket },
    .called (.bind env.socket env.bind), .called (.listen env.socket env.listen),
    .stored (setListener { serverSocketFd := env.socket })]

theorem first_starts (env : SetupEnv) (pre : List Moment) (hpre : pre <+: firstMoments env) :
    Starts env pre := by
  have hsocket : effect (.socket env.socket) = .nothing ∨
      effect (.socket env.socket) = .acquire .listener env.socket := by
    rw [effect]
    split
    · exact Or.inl rfl
    · exact Or.inr rfl
  have h1 : Starts env [.called (.socket env.socket)] := Starts.nil.called hsocket
  have h2 : Starts env ([.called (.socket env.socket)]
      ++ [.stored { serverSocketFd := env.socket }]) := h1.stored ⟨firstClient, by decide, rfl⟩
  have h3 := h2.called (c := .bind env.socket env.bind) (Or.inl rfl)
  have h4 := h3.called (c := .listen env.socket env.listen) (Or.inl rfl)
  have hzero : ∃ i, i ≠ serverSlot ∧
      ((setListener { serverSocketFd := env.socket }).sockets i).fd = 0 :=
    ⟨firstClient, by decide, rfl⟩
  have h5 := h4.stored hzero
  rw [List.prefix_iff_eq_take] at hpre
  have hlength : pre.length ≤ 5 := by
    rw [hpre, List.length_take]
    exact Nat.min_le_right _ _
  interval_cases hn : pre.length
  · rw [hpre]; exact Starts.nil
  · rw [hpre]; exact h1
  · rw [hpre]; exact h2
  · rw [hpre]; exact h3
  · rw [hpre]; exact h4
  · rw [hpre]; exact h5

theorem foldlM_clear_ok (is : List Slot) (server : TcpServer) :
    ∃ next, (is.foldlM clear server).result = .ok next := by
  obtain ⟨next, hsim, -⟩ := foldlM_clear is server
  cases hres : (is.foldlM clear server).result with
  | ok s => exact ⟨s, rfl⟩
  | error e => exact absurd (hsim.result.eq_error hres) (fun h => by cases h)

/-- `setup` returns with its last store, or it stops before the loop. -/
theorem setup_cases (env : SetupEnv) :
    ((setup env {}).calls <+: firstMoments env ∧ ∀ s, (setup env {}).result ≠ .ok s) ∨
      (setup env {}).calls = firstMoments env
          ++ (clientSlots.foldlM clear (setListener { serverSocketFd := env.socket })).calls ∧
        (setup env {}).result
          = (clientSlots.foldlM clear (setListener { serverSocketFd := env.socket })).result := by
  rw [setup_steps]
  dsimp only
  generalize clientSlots.foldlM clear _ = cleared
  split
  · exact Or.inl ⟨⟨_, rfl⟩, fun s h => by cases h⟩
  · split
    · exact Or.inl ⟨⟨_, rfl⟩, fun s h => by cases h⟩
    · split
      · exact Or.inl ⟨⟨_, rfl⟩, fun s h => by cases h⟩
      · exact Or.inr ⟨rfl, rfl⟩

/-- No moment before the end of `setup` is one for a signal. -/
theorem setup_starts (env : SetupEnv) (pre : List Moment) (hpre : pre <+: (setup env {}).calls)
    (hne : pre ≠ (setup env {}).calls ∨ ∀ s, (setup env {}).result ≠ .ok s) : Starts env pre := by
  rcases setup_cases env with ⟨hfirst, -⟩ | ⟨hcalls, hresult⟩
  · exact first_starts env pre (hpre.trans hfirst)
  · obtain ⟨next, hnext⟩ :=
      foldlM_clear_ok clientSlots (setListener { serverSocketFd := env.socket })
    have hne := hne.resolve_right fun h => h next (hresult.trans hnext)
    rw [hcalls] at hpre hne
    rcases List.prefix_or_prefix_of_prefix hpre (List.prefix_append _ _) with hshort | hlong
    · exact first_starts env pre hshort
    · obtain ⟨q, rfl⟩ := hlong
      have hq := (List.prefix_append_right_inj _).mp hpre
      obtain ⟨hnone, i, hi, hfd⟩ := clear_prefix clientSlots (by decide +kernel) _ q hq
        fun heq => hne (by rw [heq])
      have hstarts := first_starts env _ List.prefix_rfl
      have hcurrent : current (firstMoments env ++ q)
          = q.foldl write (setListener { serverSocketFd := env.socket }) := List.foldl_append
      have hslot := TcpServer.mem_clientSlots.mp hi
      refine ⟨⟨i, hslot, ?_⟩, ?_⟩
      · rw [hcurrent, hfd, setListener]
        dsimp only
        rw [Function.update_of_ne hslot]
      · rw [callsOf_append, hnone, List.append_nil]
        exact hstarts.held

/-- `setup` ends with nothing half done. -/
theorem setup_rests (env : SetupEnv) (started : TcpServer)
    (h : (setup env {}).result = .ok started) (hf : FreshCalls (setup env {}).calls) :
    Rests (setup env {}).calls (setup env {}).calls started := by
  have hsim := setup_simulates env {}
  obtain ⟨started', hstarted, heq⟩ := hsim.result.exists_ok h
  cases heq
  have hagrees : Agrees (callsOf (setup env {}).calls) started := by
    have hcalls : callsOf (setup env {}).calls = (TcpServer.setup env {}).calls := hsim.calls_eq
    rw [FreshCalls, hcalls] at hf
    rw [hcalls]
    exact (setup_agrees env [] rfl hf).2 started hstarted
  have hlast : current (setup env {}).calls = started ∧ ¬ Midway (setup env {}).calls := by
    rcases setup_cases env with ⟨-, hnone⟩ | ⟨hcalls, hresult⟩
    · exact absurd h (hnone started)
    · rw [hresult] at h
      obtain ⟨hfold, hstores⟩ := foldl_clear _ _ _ h
      rw [hcalls]
      refine ⟨List.foldl_append.trans hfold, ?_⟩
      generalize (clientSlots.foldlM clear _).calls = cleared at hstores
      cases cleared using List.reverseRecOn with
      | nil => exact id
      | append_singleton m x =>
        obtain ⟨s, rfl⟩ := hstores x (List.mem_append_right _ (List.mem_singleton_self x))
        rw [← List.append_assoc, midway_snoc]
        exact id
  have htable : TcpServer.SameTable (current (setup env {}).calls) started := by
    rw [hlast.1]
    exact ⟨fun _ => rfl, rfl, rfl⟩
  refine ⟨?_, htable, hagrees, hlast.2⟩
  intro pre hbase hpre
  rw [hpre.sublist.antisymm hbase.sublist]
  exact right_of_agrees htable hagrees hlast.2

/-- **When a signal is harmless.**  `SIGINT` and `SIGTERM` end every run, at every moment of it; the
handler closes each open socket exactly once, and leaves nothing open, exactly when `setup` has
returned, slot 0 holds the listening socket, and the last step is not an `accept` that returned a
descriptor or a `close` whose store is due, nor a step of a session with the device. -/
theorem clean_exit_iff (setupEnv : SetupEnv) (envs : List LoopEnv) (s : ℤ)
    (hs : s = sigInt ∨ s = sigTerm)
    (hfresh : Fresh effect (TcpServer.run handleIncomingMessage setupEnv envs).calls)
    (moments : List Moment)
    (hmoments : moments <+: (run handleIncomingMessage setupEnv envs).calls) :
    CleanExit s moments ↔
      SetUp setupEnv moments ∧ ¬ Midway moments ∧ HasListener (current moments) := by
  have hsignal : CleanExit s moments ↔ Clean (callsOf moments) (closing (current moments)) := by
    rw [CleanExit, onSignal_eq hs]
    exact and_iff_right rfl
  rw [hsignal]
  have hf : FreshCalls (run handleIncomingMessage setupEnv envs).calls := by
    rw [FreshCalls, callsOf, (run_simulates setupEnv envs).calls_eq]
    exact hfresh
  -- a moment of `setup` is none for the handler, and `SetUp` says so
  have early : (moments ≠ (setup setupEnv {}).calls ∨ ∀ s, (setup setupEnv {}).result ≠ .ok s) →
      moments <+: (setup setupEnv {}).calls →
        (Clean (callsOf moments) (closing (current moments)) ↔
          SetUp setupEnv moments ∧ ¬ Midway moments ∧ HasListener (current moments)) := by
    intro hne hpre
    refine ⟨fun h => absurd h (setup_starts setupEnv moments hpre hne).not_clean, ?_⟩
    intro h
    obtain ⟨⟨⟨s, hs⟩, hlater⟩, -⟩ := h
    rcases hne with hne | hnone
    · exact absurd (hpre.sublist.antisymm hlater.sublist) hne
    · exact absurd hs (hnone s)
  cases hsetup : (setup setupEnv {}).result with
  | error e =>
    have hrun : (run handleIncomingMessage setupEnv envs).calls = (setup setupEnv {}).calls := by
      rw [run, Traced.bind_of_error _ hsetup]
    rw [hrun] at hmoments
    refine early (Or.inr ?_) hmoments
    intro s hs
    rw [hsetup] at hs
    cases hs
  | ok started =>
    rw [run, Traced.bind_of_ok _ hsetup] at hmoments hf
    dsimp only at hmoments hf
    by_cases hshort : moments <+: (setup setupEnv {}).calls ∧ moments ≠ (setup setupEnv {}).calls
    · exact early (Or.inl hshort.2) hshort.1
    · have hlater : (setup setupEnv {}).calls <+: moments := by
        rcases List.prefix_or_prefix_of_prefix hmoments (List.prefix_append _ _) with hpre | hpre
        · have heq : moments = (setup setupEnv {}).calls := by
            by_contra hne
            exact hshort ⟨hpre, hne⟩
          rw [heq]
        · exact hpre
      have hstarted := setup_rests setupEnv started hsetup (freshCalls_left _ _ hf)
      have hloop := Traced.Triple.foldlM (p := Rests (setup setupEnv {}).calls) freshCalls_left
        (fun _ _ h => h.right) envs (fun env _ s => iteration_rests s env) started
      have hright := (hloop _ hstarted hf).1 moments hlater hmoments
      rw [Right] at hright
      rw [hright]
      exact (and_iff_right ⟨⟨started, hsetup⟩, hlater⟩).symm

end Setup

/-- A client connects, and the process is told to end. -/
theorem clean_exit_connects :
    let moments := (run handleIncomingMessage ⟨3, 0, 0⟩ [TcpServer.connects 4]).calls
    CleanExit sigTerm moments ↔
      SetUp ⟨3, 0, 0⟩ moments ∧ ¬ Midway moments ∧ HasListener (current moments) :=
  clean_exit_iff ⟨3, 0, 0⟩ [TcpServer.connects 4] sigTerm (Or.inr rfl) (by decide +kernel) _
    List.prefix_rfl

end Shutdown

end FcsServer
