import FcsServer.CallProtocol

/-!
# What the protocol guarantees

A monitor that lets a call through says something about all calls before it.  The connections and
the device of its state are those that the calls opened and did not close, so what it allows for
them is allowed for open descriptors only.

* `Sound` — the state of the monitor is what the calls made it; `Sound.step` — one call;
* `only_open_used` — no descriptor is used before it is opened or after it is closed.
-/

namespace FcsServer

open Ledger TcpServer MessageHandler ClientSession DescriptorConservation

namespace CallProtocol

/-- The connection in hand. -/
def Session.client (s : Session) : Option ℤ :=
  match s.phase with
  | .reading fd _ | .opened fd _ _ | .asked fd _ _ | .replied fd _ | .answering fd _
  | .closing fd => some fd
  | _ => none

/-- The device in hand. -/
def Session.device (s : Session) : Option ℤ :=
  match s.phase with
  | .opened _ _ device | .asked _ _ device => some device
  | _ => none

/-- The state of the monitor is what the calls made it. -/
structure Sound (calls : List Call) (s : Session) : Prop where
  clients : ∀ d, (.client, d) ∈ Ledger.held effect calls ↔ d ∈ s.clients
  device : ∀ d, (.device, d) ∈ Ledger.held effect calls ↔ s.device = some d
  apart : ∀ d, s.device = some d → d ∉ s.clients
  listener : s.listening = true → s.listener ∉ s.clients
  boot : s.phase = .booting ∨ s.phase = .created ∨ s.phase = .bound → s.clients = ∅
  inHand : ∀ fd, s.client = some fd → fd ∈ s.clients
  bounded : s.clients.card ≤ kMaxNumberOfConnections

section Steps

variable {calls : List Call} {s t : Session} {x : Call}

theorem held_step (calls : List Call) (x : Call) (o : Owner) (d : ℤ) :
    (o, d) ∈ Ledger.held effect (calls ++ [x])
      ↔ (o, d) ∈ book (Ledger.held effect calls) (effect x) := by
  rw [held_snoc]

/-- A call that opens no connection and no device, and closes nothing. -/
theorem Sound.quiet (h : Sound calls s)
    (hx : effect x = .nothing ∨ ∃ d, effect x = .acquire .listener d)
    (hclients : t.clients = s.clients) (hdevice : t.device = s.device)
    (hlistener : t.listening = true → t.listener ∉ s.clients)
    (hboot : t.phase = .booting ∨ t.phase = .created ∨ t.phase = .bound → s.clients = ∅)
    (hinHand : ∀ fd, t.client = some fd → fd ∈ s.clients) : Sound (calls ++ [x]) t := by
  have hheld : ∀ o d, o ≠ .listener → ((o, d) ∈ Ledger.held effect (calls ++ [x])
      ↔ (o, d) ∈ Ledger.held effect calls) := by
    intro o d ho
    rw [held_step]
    rcases hx with hx | ⟨fd, hx⟩
    · rw [hx, book]
    · rw [hx, mem_book_acquire]
      exact or_iff_right fun hlistener => ho hlistener.1
  constructor
  · intro d
    rw [hheld _ d (by decide), hclients]
    exact h.clients d
  · intro d
    rw [hheld _ d (by decide), hdevice]
    exact h.device d
  · rw [hdevice, hclients]
    exact h.apart
  · rw [hclients]
    exact hlistener
  · rw [hclients]
    exact hboot
  · rw [hclients]
    exact hinHand
  · rw [hclients]
    exact h.bounded

/-- Between two events nothing is in hand. -/
theorem idle_hands (hphase : s.phase = .idle) : s.client = none ∧ s.device = none := by
  rw [Session.client, Session.device, hphase]
  exact ⟨rfl, rfl⟩

/-- A new connection. -/
theorem Sound.connected {fd : ℤ} (h : Sound calls s) (hphase : s.phase = .idle)
    (hnew : fd ∉ s.polled) (hcard : s.clients.card < kMaxNumberOfConnections)
    (hx : effect x = .acquire .client fd) :
    Sound (calls ++ [x]) ((s.consume s.listener).connect fd) := by
  obtain ⟨hclient, hdevice⟩ := idle_hands hphase
  have hclients : ((s.consume s.listener).connect fd).clients = insert fd s.clients := rfl
  have hnone : ((s.consume s.listener).connect fd).device = none := hdevice
  constructor
  · intro d
    rw [held_step, hx, mem_book_acquire, h.clients, hclients, Finset.mem_insert]
    exact or_congr_left (and_iff_right rfl)
  · intro d
    rw [held_step, hx, mem_book_acquire, h.device, hdevice, hnone]
    exact or_iff_right fun howner => Owner.noConfusion howner.1
  · intro d hd
    rw [hnone] at hd
    cases hd
  · intro hlistening
    have hlisten : s.listening = true := hlistening
    rw [Session.polled, if_pos hlisten, Finset.mem_insert, not_or] at hnew
    show s.listener ∉ insert fd s.clients
    rw [Finset.mem_insert, not_or]
    exact ⟨Ne.symm hnew.1, h.listener hlisten⟩
  · intro hboot
    have hidle : ((s.consume s.listener).connect fd).phase = .idle := hphase
    rw [hidle] at hboot
    rcases hboot with hboot | hboot | hboot <;> cases hboot
  · intro d hd
    exact absurd (hclient.symm.trans hd) (by simp)
  · rw [hclients]
    exact (Finset.card_insert_le fd s.clients).trans hcard

/-- The device opens. -/
theorem Sound.opened {fd device : ℤ} {message : List UInt8} (h : Sound calls s)
    (hphase : s.phase = .reading fd message) (hnew : device ∉ s.polled)
    (hx : effect x = .acquire .device device) :
    Sound (calls ++ [x]) (s.enter (.opened fd message device)) := by
  have hdevice : s.device = none := by rw [Session.device, hphase]
  have hclient : s.client = some fd := by rw [Session.client, hphase]
  have hunknown : device ∉ s.clients := by
    intro hmem
    apply hnew
    rw [Session.polled]
    split
    · exact Finset.mem_insert_of_mem hmem
    · exact hmem
  refine { h with clients := ?_, device := ?_, apart := ?_, boot := ?_, inHand := ?_ }
  · intro d
    rw [held_step, hx, mem_book_acquire, h.clients]
    exact or_iff_right fun howner => Owner.noConfusion howner.1
  · intro d
    rw [held_step, hx, mem_book_acquire, h.device, hdevice]
    show _ ↔ some device = some d
    rw [Option.some.injEq]
    constructor
    · intro hd
      rcases hd with ⟨-, hd⟩ | hd
      · exact hd.symm
      · cases hd
    · intro hd
      exact Or.inl ⟨rfl, hd.symm⟩
  · intro d hd
    cases hd
    exact hunknown
  · intro hboot
    rcases hboot with hboot | hboot | hboot <;> cases hboot
  · intro d hd
    cases hd
    exact h.inHand fd hclient

/-- The device is closed. -/
theorem Sound.replied {fd device : ℤ} {message : List UInt8} (h : Sound calls s)
    (hphase : s.phase = .asked fd message device) :
    Sound (calls ++ [.close device]) (s.enter (.replied fd message)) := by
  have hdevice : s.device = some device := by rw [Session.device, hphase]
  have hclient : s.client = some fd := by rw [Session.client, hphase]
  have hx : effect (.close device) = .release device := rfl
  refine { h with clients := ?_, device := ?_, apart := ?_, boot := ?_, inHand := ?_ }
  · intro d
    rw [held_step, hx, mem_book_release, h.clients]
    refine and_iff_left_of_imp ?_
    intro hd heq
    rw [heq] at hd
    exact h.apart device hdevice hd
  · intro d
    rw [held_step, hx, mem_book_release, h.device, hdevice]
    show _ ↔ none = some d
    rw [Option.some.injEq]
    constructor
    · intro hd
      exact absurd hd.1.symm hd.2
    · intro hd
      cases hd
  · intro d hd
    cases hd
  · intro hboot
    rcases hboot with hboot | hboot | hboot <;> cases hboot
  · intro d hd
    cases hd
    exact h.inHand fd hclient

/-- A connection or the listening socket is closed. -/
theorem Sound.closed {fd : ℤ} (h : Sound calls s) (hdevice : s.device = none)
    (hclients : t.clients = s.clients.erase fd) (hphase : t.phase = .idle)
    (hlistener : t.listener = s.listener) (hlistening : t.listening = true → s.listening = true) :
    Sound (calls ++ [.close fd]) t := by
  obtain ⟨hclient, hnone⟩ := idle_hands hphase
  have hx : effect (.close fd) = .release fd := rfl
  constructor
  · intro d
    rw [held_step, hx, mem_book_release, h.clients, hclients, Finset.mem_erase, and_comm]
  · intro d
    rw [held_step, hx, mem_book_release, h.device, hdevice, hnone]
    exact and_iff_left_of_imp fun hd => by cases hd
  · intro d hd
    rw [hnone] at hd
    cases hd
  · intro hl
    rw [hlistener, hclients]
    exact fun hmem => h.listener (hlistening hl) (Finset.mem_of_mem_erase hmem)
  · intro hboot
    rw [hphase] at hboot
    rcases hboot with hboot | hboot | hboot <;> cases hboot
  · intro d hd
    rw [hclient] at hd
    cases hd
  · rw [hclients]
    exact (Finset.card_erase_le).trans h.bounded

/-- The first calls: there are no connections yet. -/
theorem Sound.booted (h : Sound calls s) (hclients : s.clients = ∅) (hdevice : s.device = none)
    (hx : effect x = .nothing ∨ ∃ d, effect x = .acquire .listener d) (ht : t.clients = ∅)
    (hnone : t.device = none) (hclient : t.client = none) : Sound (calls ++ [x]) t := by
  refine h.quiet hx (ht.trans hclients.symm) (hnone.trans hdevice.symm) ?_ (fun _ => hclients) ?_
  · intro _
    rw [hclients]
    exact Finset.notMem_empty _
  · intro fd hfd
    rw [hclient] at hfd
    cases hfd

/-- A message goes from hand to hand. -/
theorem Sound.passed {phase : Phase} (h : Sound calls s) (hx : effect x = .nothing)
    (hdevice : (s.enter phase).device = s.device)
    (hboot : phase ≠ .booting ∧ phase ≠ .created ∧ phase ≠ .bound)
    (hclient : ∀ fd, (s.enter phase).client = some fd → fd ∈ s.clients) :
    Sound (calls ++ [x]) (s.enter phase) := by
  refine h.quiet (Or.inl hx) rfl hdevice h.listener ?_ hclient
  intro hphase
  rcases hphase with hphase | hphase | hphase
  · exact absurd hphase hboot.1
  · exact absurd hphase hboot.2.1
  · exact absurd hphase hboot.2.2

/-- A message is read. -/
theorem Sound.recv {fd : ℤ} {result : RecvResult} (h : Sound calls s)
    (hstep : protocol.step s (.recv fd result) = some t) :
    Sound (calls ++ [.recv fd result]) t := by
  simp only [protocol, CallProtocol.step] at hstep
  split at hstep
  · rename_i hturn
    obtain ⟨hserves, hfd, -, -⟩ := hturn
    have hdevice := (idle_hands hserves.1).2
    have hsame : Sound calls (s.consume fd) :=
      ⟨h.clients, h.device, h.apart, h.listener, h.boot, h.inHand, h.bounded⟩
    cases hstep
    rcases afterRecv_cases fd result with hphase | ⟨message, hphase⟩
    · rw [hphase]
      refine hsame.passed rfl hdevice.symm ⟨by simp, by simp, by simp⟩ ?_
      intro fd' hfd'
      cases hfd'
      exact hfd
    · rw [hphase]
      refine hsame.passed rfl hdevice.symm ⟨by simp, by simp, by simp⟩ ?_
      intro fd' hfd'
      cases hfd'
      exact hfd
  · cases hstep

/-- The device is asked. -/
theorem Sound.ioctl {device : ℤ} {command : DevCommand} {data : IntelFcsDevIoctl} {returned : ℤ}
    (h : Sound calls s)
    (hstep : protocol.step s (.ioctl device command data returned) = some t) :
    Sound (calls ++ [.ioctl device command data returned]) t := by
  simp only [protocol, CallProtocol.step] at hstep
  split at hstep
  · rename_i fd message device' hphase
    split at hstep
    · rename_i hturn
      have hdevice : s.device = some device := by rw [Session.device, hphase, hturn.1]
      have hclient : s.client = some fd := by rw [Session.client, hphase]
      cases hstep
      refine h.passed rfl hdevice.symm ⟨by simp, by simp, by simp⟩ ?_
      intro fd' hfd'
      cases hfd'
      exact h.inHand fd hclient
    · cases hstep
  · cases hstep

/-- The response to a message is there. -/
theorem Sound.onMessage {fd : ℤ} {message response : List UInt8} (h : Sound calls s)
    (hstep : protocol.step s (.onMessage fd message response) = some t) :
    Sound (calls ++ [.onMessage fd message response]) t := by
  simp only [protocol, CallProtocol.step] at hstep
  split at hstep
  · rename_i hturn
    have hhands : s.device = none ∧ s.client = some fd := by
      rw [Session.device, Session.client]
      rcases hturn with ⟨hphase, -⟩ | hphase
      · rw [hphase]
        exact ⟨rfl, rfl⟩
      · rw [hphase]
        exact ⟨rfl, rfl⟩
    cases hstep
    rw [afterMessage]
    split
    · refine h.passed rfl hhands.1.symm ⟨by simp, by simp, by simp⟩ ?_
      intro fd' hfd'
      cases hfd'
      exact h.inHand fd hhands.2
    · refine h.passed rfl hhands.1.symm ⟨by simp, by simp, by simp⟩ ?_
      intro fd' hfd'
      cases hfd'
      exact h.inHand fd hhands.2
  · cases hstep

/-- **One call.** -/
theorem Sound.step (h : Sound calls s) (hstep : protocol.step s x = some t) :
    Sound (calls ++ [x]) t := by
  cases x with
  | recv fd result => exact h.recv hstep
  | ioctl device command data returned => exact h.ioctl hstep
  | onMessage fd message response => exact h.onMessage hstep
  | socket fd =>
    simp only [protocol, CallProtocol.step] at hstep
    split at hstep
    · rename_i hphase
      have hx : effect (.socket fd) = .nothing ∨
          ∃ d, effect (.socket fd) = .acquire .listener d := by
        rw [effect]
        split
        · exact Or.inl rfl
        · exact Or.inr ⟨fd, rfl⟩
      have hclients := h.boot (Or.inl hphase)
      have hdevice : s.device = none := by rw [Session.device, hphase]
      cases hstep
      split
      · exact h.booted hclients hdevice hx hclients rfl rfl
      · exact h.booted hclients hdevice hx hclients rfl rfl
    · cases hstep
  | bind fd returned =>
    simp only [protocol, CallProtocol.step] at hstep
    split at hstep
    · rename_i hturn
      have hclients := h.boot (Or.inr (Or.inl hturn.1))
      have hdevice : s.device = none := by rw [Session.device, hturn.1]
      cases hstep
      split
      · exact h.booted hclients hdevice (Or.inl rfl) hclients rfl rfl
      · exact h.booted hclients hdevice (Or.inl rfl) hclients rfl rfl
    · cases hstep
  | listen fd returned =>
    simp only [protocol, CallProtocol.step] at hstep
    split at hstep
    · rename_i hturn
      have hclients := h.boot (Or.inr (Or.inr hturn.1))
      have hdevice : s.device = none := by rw [Session.device, hturn.1]
      cases hstep
      split
      · exact h.booted hclients hdevice (Or.inl rfl) hclients rfl rfl
      · exact h.booted hclients hdevice (Or.inl rfl) hclients rfl rfl
    · cases hstep
  | poll fds events revents numberOfEvents =>
    simp only [protocol, CallProtocol.step] at hstep
    split at hstep
    · rename_i hturn
      have hdevice := (idle_hands hturn.1).2
      have hsame : Sound calls { s with
          events := reported fds revents, timedOut := decide (numberOfEvents = 0) } :=
        ⟨h.clients, h.device, h.apart, h.listener, h.boot, h.inHand, h.bounded⟩
      cases hstep
      rw [Session.report]
      split
      · refine hsame.passed rfl hdevice.symm ⟨by simp, by simp, by simp⟩ ?_
        exact fun fd hfd => by cases hfd
      · refine hsame.passed rfl hdevice.symm ⟨by simp, by simp, by simp⟩ ?_
        exact fun fd hfd => by cases hfd
    · cases hstep
  | send fd response result =>
    simp only [protocol, CallProtocol.step] at hstep
    split at hstep
    · rename_i hphase
      have hdevice : s.device = none := by rw [Session.device, hphase]
      cases hstep
      split
      · refine h.passed rfl hdevice.symm ⟨by simp, by simp, by simp⟩ ?_
        exact fun fd' hfd' => by cases hfd'
      · refine h.passed rfl hdevice.symm ⟨by simp, by simp, by simp⟩ ?_
        exact fun fd' hfd' => by cases hfd'
    · cases hstep
  | accept fd =>
    simp only [protocol, CallProtocol.step] at hstep
    split at hstep
    · rename_i hturn
      obtain ⟨hserves, -, -, hcard, hnew⟩ := hturn
      by_cases hfd : fd = -1
      · rw [if_pos hfd] at hstep
        cases hstep
        exact h.quiet (Or.inl (if_pos hfd)) rfl rfl h.listener h.boot h.inHand
      · rw [if_neg hfd] at hstep
        cases hstep
        exact h.connected hserves.1 hnew hcard (if_neg hfd)
    · cases hstep
  | openDevice device =>
    simp only [protocol, CallProtocol.step] at hstep
    split at hstep
    · rename_i fd message hphase
      split at hstep
      · cases hstep
      · by_cases hdevice : device < 0
        · rw [if_pos hdevice] at hstep
          have hnone : s.device = none := by rw [Session.device, hphase]
          have hclient : s.client = some fd := by rw [Session.client, hphase]
          cases hstep
          refine h.passed (if_pos hdevice) hnone.symm ⟨by simp, by simp, by simp⟩ ?_
          intro fd' hfd'
          cases hfd'
          exact h.inHand fd hclient
        · rw [if_neg hdevice] at hstep
          split at hstep
          · cases hstep
          · rename_i hnew
            cases hstep
            exact h.opened hphase hnew (if_neg hdevice)
    · cases hstep
  | close fd =>
    simp only [protocol, CallProtocol.step] at hstep
    split at hstep
    · rename_i fd' message device hphase
      split at hstep
      · rename_i hfd
        cases hstep
        rw [hfd]
        exact h.replied hphase
      · cases hstep
    · rename_i fd' hphase
      have hdevice : s.device = none := by rw [Session.device, hphase]
      split at hstep
      · cases hstep
        exact h.closed hdevice rfl rfl rfl id
      · cases hstep
    · rename_i hphase
      have hdevice := (idle_hands hphase).2
      split at hstep
      · cases hstep
        exact h.closed hdevice rfl hphase rfl id
      · rename_i hclient
        split at hstep
        · rename_i hturn
          obtain ⟨hlistening, rfl, -⟩ := hturn
          cases hstep
          have hmem := h.listener hlistening
          exact h.closed hdevice (Finset.erase_eq_of_notMem hmem).symm hphase rfl
            fun hfalse => by cases hfalse
        · cases hstep
    · cases hstep

end Steps

theorem sound_of_run {calls : List Call} {s : Session} (h : protocol.run {} calls = some s) :
    Sound calls s := by
  refine Monitor.run_history ?_ (fun _ _ _ _ => Sound.step) h
  constructor
  · intro d
    exact ⟨fun hd => absurd hd List.not_mem_nil, fun hd => absurd hd (Finset.notMem_empty d)⟩
  · exact fun d => ⟨fun hd => absurd hd List.not_mem_nil, fun hd => by cases hd⟩
  · exact fun d hd => by cases hd
  · exact fun hlistening => by cases hlistening
  · exact fun _ => rfl
  · exact fun d hd => by cases hd
  · exact Nat.zero_le _

/-- Descriptors are used while they are open; the device is opened for one message at a time; and
the connections are as many as the table has room for. -/
structure OnlyOpen (calls : List Call) : Prop where
  reads : ∀ pre fd result post, calls = pre ++ .recv fd result :: post → StillOpen .accept pre fd
  sends : ∀ pre fd bytes result post, calls = pre ++ .send fd bytes result :: post →
    StillOpen .accept pre fd
  asks : ∀ pre device command data returned post,
    calls = pre ++ .ioctl device command data returned :: post → StillOpen .openDevice pre device
  waits : ∀ pre fds events revents n post device,
    calls = pre ++ .poll fds events revents n :: post → 0 ≤ device →
      ¬ StillOpen .openDevice pre device
  single : ∀ pre post device device', calls = pre ++ post → 0 ≤ device → 0 ≤ device' →
    StillOpen .openDevice pre device → StillOpen .openDevice pre device' → device = device'
  bounded : ∀ pre post (fds : List ℤ), calls = pre ++ post → fds.Nodup →
    (∀ fd ∈ fds, fd ≠ -1 ∧ StillOpen .accept pre fd) → fds.length ≤ kMaxNumberOfConnections

theorem onlyOpen_of_run {calls : List Call} {s : Session} (h : protocol.run {} calls = some s) :
    OnlyOpen calls := by
  have hturn : ∀ pre x post, calls = pre ++ x :: post →
      ∃ u v, Sound pre u ∧ protocol.step u x = some v := by
    intro pre x post hsplit
    rw [hsplit] at h
    obtain ⟨u, v, hu, hv⟩ := Monitor.run_at (by rw [h]; rfl)
    exact ⟨u, v, sound_of_run hu, hv⟩
  have hprefix : ∀ pre post, calls = pre ++ post → ∃ u, Sound pre u := by
    intro pre post hsplit
    rw [hsplit, Monitor.run_append] at h
    obtain ⟨u, hu, -⟩ := Option.bind_eq_some_iff.mp h
    exact ⟨u, sound_of_run hu⟩
  have hopen : ∀ pre u fd, Sound pre u → fd ∈ u.clients → StillOpen .accept pre fd :=
    fun pre u fd hu hmem => (held_client.mp ((hu.clients fd).mpr hmem)).2
  constructor
  · intro pre fd result post hsplit
    obtain ⟨u, v, hu, hv⟩ := hturn _ _ _ hsplit
    simp only [protocol, step] at hv
    split at hv
    · rename_i hcan
      exact hopen pre u fd hu hcan.2.1
    · cases hv
  · intro pre fd bytes result post hsplit
    obtain ⟨u, v, hu, hv⟩ := hturn _ _ _ hsplit
    simp only [protocol, step] at hv
    split at hv
    · rename_i hphase
      exact hopen pre u fd hu (hu.inHand fd (by rw [Session.client, hphase]))
    · cases hv
  · intro pre device command data returned post hsplit
    obtain ⟨u, v, hu, hv⟩ := hturn _ _ _ hsplit
    simp only [protocol, step] at hv
    split at hv
    · rename_i fd message device' hphase
      split at hv
      · rename_i hcan
        have hdevice : u.device = some device := by rw [Session.device, hphase, hcan.1]
        exact (held_device.mp ((hu.device device).mpr hdevice)).2
      · cases hv
    · cases hv
  · intro pre fds events revents n post device hsplit hnonneg hstill
    obtain ⟨u, v, hu, hv⟩ := hturn _ _ _ hsplit
    simp only [protocol, step] at hv
    split at hv
    · rename_i hcan
      have hdevice := (hu.device device).mp (held_device.mpr ⟨hnonneg, hstill⟩)
      rw [(idle_hands hcan.1).2] at hdevice
      cases hdevice
    · cases hv
  · intro pre post device device' hsplit hnonneg hnonneg' hstill hstill'
    obtain ⟨u, hu⟩ := hprefix pre post hsplit
    have hdevice := (hu.device device).mp (held_device.mpr ⟨hnonneg, hstill⟩)
    have hdevice' := (hu.device device').mp (held_device.mpr ⟨hnonneg', hstill'⟩)
    exact Option.some.inj (hdevice.symm.trans hdevice')
  · intro pre post fds hsplit hnodup hfds
    obtain ⟨u, hu⟩ := hprefix pre post hsplit
    have hsub : fds.toFinset ⊆ u.clients := by
      intro fd hfd
      exact (hu.clients fd).mp (held_client.mpr (hfds fd (List.mem_toFinset.mp hfd)))
    rw [← List.toFinset_card_of_nodup hnodup]
    exact (Finset.card_le_card hsub).trans hu.bounded

/-- **Nothing is used before it is opened or after it is closed.** -/
theorem only_open_used (setupEnv : SetupEnv) (envs : List LoopEnv)
    (hfresh : Fresh effect (run handleIncomingMessage setupEnv envs).calls) :
    OnlyOpen (run handleIncomingMessage setupEnv envs).calls := by
  obtain ⟨hfollowed, -⟩ := run_follows setupEnv envs [] rfl hfresh
  obtain ⟨s, hs⟩ := Option.isSome_iff_exists.mp hfollowed
  exact onlyOpen_of_run hs

/-- A client connects and asks for the chip id. -/
theorem only_open_used_chipId :
    OnlyOpen (run handleIncomingMessage ⟨5, 0, 0⟩ [connects 4, chipIdArrives]).calls :=
  only_open_used ⟨5, 0, 0⟩ [connects 4, chipIdArrives] (by decide +kernel)

end CallProtocol

end FcsServer
