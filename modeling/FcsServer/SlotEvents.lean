import FcsServer.TcpServer

/-!
# What handling one slot can amount to

`handleEventIfAny` as a relation between a state, the calls made and the state after, with one
constructor for each thing that can happen.  Every statement about the event pass is a case
analysis over these.

* `Handles` — the relation; `handleEventIfAny_handles` — the function is in it;
* `visit_cases` / `dropIfUsed_cases` — the same for the bodies of the two loops over the slots;
* `setFd` and `setBuffer` — what they change and what they leave.
-/

namespace FcsServer

open LittleEndian

namespace TcpServer

/-! ### Updates of the table -/

section Updates

variable (server : TcpServer) (i j : Slot) (fd : ℤ) (buffer : List UInt8)

@[simp] theorem setFd_fd_self : ((server.setFd i fd).sockets i).fd = fd := by
  simp only [setFd, Function.update_self]

variable {i j} in
theorem setFd_fd_of_ne (h : j ≠ i) :
    ((server.setFd i fd).sockets j).fd = (server.sockets j).fd := by
  simp only [setFd, Function.update_of_ne h]

theorem setFd_fd : ((server.setFd i fd).sockets j).fd
    = if j = i then fd else (server.sockets j).fd := by
  split
  · rename_i h
    rw [h, setFd_fd_self]
  · rename_i h
    exact server.setFd_fd_of_ne fd h

@[simp] theorem setFd_revents :
    ((server.setFd i fd).sockets j).revents = (server.sockets j).revents := by
  by_cases h : j = i
  · simp only [setFd, h, Function.update_self]
  · simp only [setFd, Function.update_of_ne h]

@[simp] theorem setFd_events :
    ((server.setFd i fd).sockets j).events = (server.sockets j).events := by
  by_cases h : j = i
  · simp only [setFd, h, Function.update_self]
  · simp only [setFd, Function.update_of_ne h]

@[simp] theorem setFd_serverSocketFd :
    (server.setFd i fd).serverSocketFd = server.serverSocketFd := rfl

@[simp] theorem setBuffer_sockets : (server.setBuffer buffer).sockets = server.sockets := rfl

theorem clearSockets_fd : (server.clearSockets.sockets i).fd
    = if i = serverSlot then server.serverSocketFd else -1 := by
  rw [clearSockets]
  dsimp only
  split <;> rfl

theorem polled_fd (revents : Slot → UInt16) :
    ((server.polled revents).sockets i).fd = (server.sockets i).fd := by
  simp only [polled, setRevents, resetEvents]
  split <;> rfl

/-- The first slot keeps the events it is polled for, the others are polled for `POLLIN`. -/
theorem polled_events (revents : Slot → UInt16) : ((server.polled revents).sockets i).events
    = if i = serverSlot then (server.sockets i).events else pollIn := by
  simp only [polled, setRevents, resetEvents]
  split <;> rfl

theorem polled_events_serverSlot (revents : Slot → UInt16) :
    ((server.polled revents).sockets serverSlot).events
      = (server.sockets serverSlot).events := by
  rw [polled_events, if_pos rfl]

/-- An entry without a descriptor reports no event. -/
theorem polled_revents (revents : Slot → UInt16) : ((server.polled revents).sockets i).revents
    = if (server.sockets i).fd < 0 then 0 else revents i := by
  rw [← server.polled_fd i revents]
  rfl

end Updates

/-! ### Slots -/

/-- The slot reports a connection request. -/
def Listens (server : TcpServer) (i : Slot) : Prop :=
  (server.sockets i).fd = server.serverSocketFd ∧ (server.sockets i).revents = pollIn

instance (server : TcpServer) (i : Slot) : Decidable (Listens server i) :=
  inferInstanceAs (Decidable (_ ∧ _))

/-- The slot reports data of a client. -/
def Readable (server : TcpServer) (i : Slot) : Prop :=
  (server.sockets i).fd ≠ server.serverSocketFd ∧ (server.sockets i).revents = pollIn

/-- A slot that hung up reports no data: the whole value is compared. -/
theorem ne_pollIn_of_hungUp {revents : UInt16} (h : revents = pollHup ∨ revents = pollErr) :
    revents ≠ pollIn := by
  rcases h with rfl | rfl
  · decide
  · decide

/-- Slot 0 is the only one that is not a client slot. -/
theorem mem_clientSlots {i : Slot} : i ∈ clientSlots ↔ i ≠ serverSlot := by
  revert i
  decide

theorem freeSlot_eq_some {server : TcpServer} {j : Slot} (h : server.freeSlot = some j) :
    j ≠ serverSlot ∧ (server.sockets j).fd = -1 := by
  rw [freeSlot] at h
  refine ⟨mem_clientSlots.mp (List.mem_of_find?_eq_some h), ?_⟩
  have hfound := List.find?_some h
  exact of_decide_eq_true hfound

theorem freeSlot_eq_none {server : TcpServer} :
    server.freeSlot = none ↔ ∀ i, i ≠ serverSlot → (server.sockets i).fd ≠ -1 := by
  rw [freeSlot, List.find?_eq_none]
  constructor
  · intro h i hi hfree
    exact h i (mem_clientSlots.mpr hi) (decide_eq_true hfree)
  · intro h i hi hfree
    exact h i (mem_clientSlots.mp hi) (of_decide_eq_true hfree)

/-! ### The relation -/

/-- What handling slot `i` can amount to: the calls made, and how it ends. -/
inductive Handles (onMessage : OnMessage) (env : SlotEnv) (server : TcpServer) (i : Slot) :
    List Call → Except Stop TcpServer → Prop where
  /-- A connection request and a free slot. -/
  | accepted {j : Slot} (hlisten : Listens server i) (hfree : server.freeSlot = some j) :
    Handles onMessage env server i [.accept env.accepted] (.ok (server.setFd j env.accepted))
  /-- A connection request and no free slot. -/
  | tableFull (hlisten : Listens server i) (hfull : server.freeSlot = none) :
    Handles onMessage env server i [] (.ok server)
  /-- `recv` fails or finds the end of the stream. -/
  | noData {result : RecvResult} {buffer : List UInt8} (hread : Readable server i)
    (hresult : env.received.within kMaxMessageSizeInBytes = result)
    (hnone : result = .failed ∨ result = .received []) :
    Handles onMessage env server i
      [.recv (server.sockets i).fd result, .close (server.sockets i).fd]
      (.ok ((server.setBuffer buffer).setFd i (-1)))
  /-- The callback stops the process. -/
  | faulted {bytes : List UInt8} {calls : List Call} {stop : Stop} (hread : Readable server i)
    (hresult : env.received.within kMaxMessageSizeInBytes = .received bytes) (hne : bytes ≠ [])
    (hcall : onMessage env.handler bytes [] = ⟨calls, .error stop⟩) :
    Handles onMessage env server i
      (.recv (server.sockets i).fd (.received bytes) :: calls) (.error stop)
  /-- A response is sent, or fails to be sent. -/
  | answered {bytes response : List UInt8} {calls : List Call} (hread : Readable server i)
    (hresult : env.received.within kMaxMessageSizeInBytes = .received bytes) (hne : bytes ≠ [])
    (hcall : onMessage env.handler bytes [] = ⟨calls, .ok response⟩) (hresponse : response ≠ [])
    (hsent : env.sent ≠ .brokenPipe) :
    Handles onMessage env server i
      (.recv (server.sockets i).fd (.received bytes) :: (calls ++
        [.onMessage (server.sockets i).fd bytes response,
          .send (server.sockets i).fd response env.sent]))
      (.ok (server.setBuffer bytes))
  /-- The connection is gone when the response is sent. -/
  | brokenPipe {bytes response : List UInt8} {calls : List Call} (hread : Readable server i)
    (hresult : env.received.within kMaxMessageSizeInBytes = .received bytes) (hne : bytes ≠ [])
    (hcall : onMessage env.handler bytes [] = ⟨calls, .ok response⟩) (hresponse : response ≠ [])
    (hsent : env.sent = .brokenPipe) :
    Handles onMessage env server i
      (.recv (server.sockets i).fd (.received bytes) :: (calls ++
        [.onMessage (server.sockets i).fd bytes response,
          .send (server.sockets i).fd response env.sent]))
      (.error .sigpipe)
  /-- The callback has nothing to send. -/
  | silent {bytes : List UInt8} {calls : List Call} (hread : Readable server i)
    (hresult : env.received.within kMaxMessageSizeInBytes = .received bytes) (hne : bytes ≠ [])
    (hcall : onMessage env.handler bytes [] = ⟨calls, .ok []⟩) :
    Handles onMessage env server i
      (.recv (server.sockets i).fd (.received bytes) :: (calls ++
        [.onMessage (server.sockets i).fd bytes [], .close (server.sockets i).fd]))
      (.ok ((server.setBuffer bytes).setFd i (-1)))
  /-- The connection hung up. -/
  | hungUp (hevent : (server.sockets i).revents = pollHup ∨ (server.sockets i).revents = pollErr) :
    Handles onMessage env server i [.close (server.sockets i).fd] (.ok (server.setFd i (-1)))
  /-- No event, or one that no branch is for. -/
  | ignored (hin : (server.sockets i).revents ≠ pollIn)
    (hhup : (server.sockets i).revents ≠ pollHup) (herr : (server.sockets i).revents ≠ pollErr) :
    Handles onMessage env server i [] (.ok server)

variable {onMessage : OnMessage} {env : SlotEnv} {server : TcpServer} {i : Slot}

theorem closeConnectionAndEnableForReuse_eq (server : TcpServer) (i : Slot) :
    server.closeConnectionAndEnableForReuse i
      = ⟨[.close (server.sockets i).fd], .ok (server.setFd i (-1))⟩ := by
  rw [closeConnectionAndEnableForReuse, Traced.call_bind, Traced.pure_eq]

/-- The message is exactly what `recv` returned, whatever the buffer held before. -/
theorem resize_overwrite {bytes buffer : List UInt8} (h : bytes.length ≤ buffer.length) :
    resize bytes.length 0 (overwrite bytes buffer) = bytes := by
  rw [resize_of_le 0 (by rw [length_overwrite]; exact h), take_overwrite h]

theorem within_length_le {size : ℕ} {result : RecvResult} {bytes : List UInt8}
    (h : result.within size = .received bytes) : bytes.length ≤ size := by
  cases result with
  | failed => cases h
  | received all =>
    cases h
    rw [List.length_take]
    exact Nat.min_le_left _ _

/-- **The branches of the source are the constructors of the relation.** -/
theorem handleEventIfAny_handles (onMessage : OnMessage) (env : SlotEnv) (server : TcpServer)
    (i : Slot) : Handles onMessage env server i (server.handleEventIfAny onMessage env i).calls
      (server.handleEventIfAny onMessage env i).result := by
  rw [handleEventIfAny]
  dsimp only
  by_cases hlisten : (server.sockets i).fd = server.serverSocketFd
      ∧ (server.sockets i).revents = pollIn
  · rw [if_pos hlisten, acceptConnection]
    cases hfree : server.freeSlot with
    | none => exact .tableFull hlisten hfree
    | some j =>
      dsimp only
      rw [Traced.call_bind, Traced.pure_eq]
      exact .accepted hlisten hfree
  · rw [if_neg hlisten]
    by_cases hin : (server.sockets i).revents = pollIn
    · have hread : Readable server i := ⟨fun hfd => hlisten ⟨hfd, hin⟩, hin⟩
      rw [if_pos hin, Traced.call_bind]
      have hsize : (server.setBuffer
          (resize kMaxMessageSizeInBytes 0 server.messageBuffer)).messageBuffer.length
          = kMaxMessageSizeInBytes := length_resize _ _ _
      rw [hsize]
      cases hresult : env.received.within kMaxMessageSizeInBytes with
      | failed =>
        dsimp only
        rw [closeConnectionAndEnableForReuse_eq]
        exact .noData hread hresult (Or.inl rfl)
      | received bytes =>
        dsimp only
        by_cases hempty : bytes.length = 0
        · rw [if_pos hempty, closeConnectionAndEnableForReuse_eq]
          rw [List.eq_nil_of_length_eq_zero hempty] at hresult ⊢
          exact .noData hread hresult (Or.inr rfl)
        · have hne : bytes ≠ [] := fun hnil => hempty (congrArg List.length hnil)
          have hmessage := resize_overwrite
            ((within_length_le hresult).trans_eq hsize.symm)
          rw [if_neg hempty, hmessage]
          show Handles onMessage env server i (_ :: (onMessage env.handler bytes [] >>= _).calls)
            (onMessage env.handler bytes [] >>= _).result
          cases hcall : onMessage env.handler bytes [] with
          | mk calls result =>
            cases result with
            | error stop =>
              rw [Traced.mk_error_bind]
              exact .faulted hread hresult hne hcall
            | ok response =>
              rw [Traced.mk_ok_bind, Traced.call_bind]
              dsimp only
              by_cases hresponse : response.length > 0
              · have hsome : response ≠ [] := List.length_pos_iff.mp hresponse
                rw [if_pos hresponse, Traced.call_bind]
                by_cases hsent : env.sent = .brokenPipe
                · rw [if_pos hsent]
                  exact .brokenPipe hread hresult hne hcall hsome hsent
                · rw [if_neg hsent]
                  exact .answered hread hresult hne hcall hsome hsent
              · have hnone : response = [] := by
                  rw [← List.length_eq_zero_iff]
                  omega
                rw [hnone] at hcall ⊢
                rw [if_neg (by simp), closeConnectionAndEnableForReuse_eq]
                exact .silent hread hresult hne hcall
    · rw [if_neg hin]
      by_cases hup : (server.sockets i).revents = pollHup ∨ (server.sockets i).revents = pollErr
      · rw [if_pos hup, closeConnectionAndEnableForReuse_eq]
        exact .hungUp hup
      · rw [if_neg hup]
        rw [not_or] at hup
        exact .ignored hin hup.1 hup.2

/-- The body of the event loop: a slot in use is handled, any other is passed over. -/
theorem visit_cases (onMessage : OnMessage) (env : Slot → SlotEnv) (server : TcpServer) (i : Slot) :
    (server.sockets i).fd = -1 ∧ server.visit onMessage env i = ⟨[], .ok server⟩ ∨
      (server.sockets i).fd ≠ -1 ∧ ∃ calls result,
        server.visit onMessage env i = ⟨calls, result⟩ ∧
          Handles onMessage (env i) server i calls result := by
  rw [visit]
  split
  · rename_i hused
    exact Or.inr ⟨hused, _, _, rfl, handleEventIfAny_handles onMessage (env i) server i⟩
  · rename_i hfree
    exact Or.inl ⟨not_not.mp hfree, Traced.pure_eq server⟩

/-- The body of the loop over the client slots: a slot in use is closed. -/
theorem dropIfUsed_cases (server : TcpServer) (i : Slot) :
    (server.sockets i).fd = -1 ∧ server.dropIfUsed i = ⟨[], .ok server⟩ ∨
      (server.sockets i).fd ≠ -1 ∧ server.dropIfUsed i
        = ⟨[.close (server.sockets i).fd], .ok (server.setFd i (-1))⟩ := by
  rw [dropIfUsed]
  split
  · rename_i hused
    exact Or.inr ⟨hused, closeConnectionAndEnableForReuse_eq server i⟩
  · rename_i hfree
    exact Or.inl ⟨not_not.mp hfree, Traced.pure_eq server⟩

/-- A message whose response is sent, from the branches themselves. -/
theorem handleEventIfAny_answered {bytes response : List UInt8} {calls : List Call}
    (hread : Readable server i)
    (hresult : env.received.within kMaxMessageSizeInBytes = .received bytes) (hne : bytes ≠ [])
    (hcall : onMessage env.handler bytes [] = ⟨calls, .ok response⟩) (hresponse : response ≠ [])
    (hsent : env.sent ≠ .brokenPipe) :
    server.handleEventIfAny onMessage env i
      = ⟨.recv (server.sockets i).fd (.received bytes) :: (calls ++
          [.onMessage (server.sockets i).fd bytes response,
            .send (server.sockets i).fd response env.sent]),
          .ok (server.setBuffer bytes)⟩ := by
  have hsize : (server.setBuffer
      (resize kMaxMessageSizeInBytes 0 server.messageBuffer)).messageBuffer.length
      = kMaxMessageSizeInBytes := length_resize _ _ _
  have hmessage := resize_overwrite ((within_length_le hresult).trans_eq hsize.symm)
  have hlength : bytes.length ≠ 0 := fun h => hne (List.eq_nil_of_length_eq_zero h)
  rw [handleEventIfAny]
  dsimp only
  rw [if_neg (fun h => hread.1 h.1), if_pos hread.2, Traced.call_bind, hsize, hresult]
  dsimp only
  rw [if_neg hlength, hmessage]
  dsimp only [setBuffer]
  rw [hcall, Traced.mk_ok_bind, Traced.call_bind, if_pos (List.length_pos_iff.mpr hresponse),
    Traced.call_bind, if_neg hsent]
  rfl

end TcpServer

end FcsServer
