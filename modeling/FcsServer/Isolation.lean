import FcsServer.Relay
import FcsServer.StreamFraming

/-!
# Clients do not see each other

One message buffer and one table serve all connections.  What a connection is sent is still a
function of what was read from it, as long as the device answers a request the same way whenever
it is made.  A connection is a descriptor over a window of iterations of the loop, from any state
of the server, and with any buffer left over by others.

* `Serves` / `ServedBy` — a device that serves every request, by the request alone;
* `responseFor_of_servedBy` — then a response depends on the message and nothing else;
* `SentBack` — every response goes out on the descriptor that its message was read from;
* `connection_isolated` — two runs that read the same chunks from a connection send it the same
  responses.
-/

namespace FcsServer

open TcpServer MessageHandler StreamFraming

namespace Isolation

/-- The driver as a function of the request: `ioctl` succeeds, and the size it reports fits the
capacity that was offered. -/
structure Serves (ioctl : DevCommand → IntelFcsDevIoctl → IoctlReply) : Prop where
  returned : ∀ command data, 0 ≤ (ioctl command data).returned
  size : ∀ c data, rspDataSz (ioctl (devCommand c) data) c ≤ rspMaxSz c

/-- The handler finds this driver behind a device that opens; the local that nobody assigns may
hold anything. -/
def ServedBy (ioctl : DevCommand → IntelFcsDevIoctl → IoctlReply) (handler : Env) : Prop :=
  0 ≤ handler.driver.openDevice ∧ handler.driver.ioctl = ioctl

/-- The response to a message, for such a driver. -/
def answer (ioctl : DevCommand → IntelFcsDevIoctl → IoctlReply) (m : List UInt8) : List UInt8 :=
  responseFor ⟨⟨0, ioctl⟩, 0⟩ m []

variable {ioctl : DevCommand → IntelFcsDevIoctl → IoctlReply} {handler : Env} {fd : ℤ}

/-! ### One message -/

theorem fcsReply_of_servedBy (hserves : Serves ioctl) (handler : Env)
    (h : ServedBy ioctl handler) (m : List UInt8) (c : CommandCode) :
    fcsReply handler.driver m c
      = some (ioctl (devCommand c) (FcsCommunication.submitted (comParas m c))) := by
  obtain ⟨hopen, rfl⟩ := h
  exact Relay.fcsReply_of_serves ⟨hopen, hserves.returned _ _, hserves.size _ _⟩

/-- **A response depends on its message alone.** -/
theorem responseFor_of_servedBy (hserves : Serves ioctl) (h : ServedBy ioctl handler)
    (m : List UInt8) : responseFor handler m [] = answer ioctl m := by
  rw [answer, responseFor, responseFor]
  cases commandOf m with
  | none => rfl
  | some c =>
    have hreply := fcsReply_of_servedBy hserves handler h m c
    have hsame := fcsReply_of_servedBy hserves ⟨⟨0, ioctl⟩, 0⟩ ⟨le_rfl, rfl⟩ m c
    dsimp only
    rw [relayResponse, relayResponse, hreply, hsame]

/-! ### One connection -/

/-- The responses of a connection, from what was read from it. -/
theorem responses_eq_map {server : TcpServer} {envs : List LoopEnv} (hserves : Serves ioctl)
    (h : ∀ n handler, HandlerAt server envs fd n handler → ServedBy ioctl handler) :
    responses fd (server.loop handleIncomingMessage envs).calls
      = (chunks fd (server.loop handleIncomingMessage envs).calls).map (answer ioctl) := by
  rw [← (loop_relayed server envs fd).messages, responses, messages, List.map_map]
  apply List.map_congr_left
  intro x hx
  obtain ⟨n, hn⟩ := List.mem_iff_getElem?.mp hx
  obtain ⟨handler, hhandler, hresult⟩ := loop_answered server envs fd hn
  rw [handleIncomingMessage_eq, Except.ok.injEq] at hresult
  rw [← hresult, responseFor_of_servedBy hserves (h n handler hhandler)]
  rfl

/-- **What a connection is sent is a function of what was read from it**, whatever the other
connections do. -/
theorem sent_eq {server : TcpServer} {envs : List LoopEnv} (hserves : Serves ioctl)
    (h : ∀ n handler, HandlerAt server envs fd n handler → ServedBy ioctl handler) :
    sent fd (server.loop handleIncomingMessage envs).calls
      = ((chunks fd (server.loop handleIncomingMessage envs).calls).map (answer ioctl)).filter
        (· ≠ []) := by
  rw [(loop_relayed server envs fd).sent, responses_eq_map hserves h]

/-! ### Where responses go -/

/-- Before every `send` stands the message it answers: read from the same descriptor, handed to
the callback as it was read, with nothing but device calls in between. -/
def SentBack (calls : List Call) : Prop :=
  ∀ pre fd response outcome post, calls = pre ++ .send fd response outcome :: post →
    ∃ before message device, DeviceOnly device ∧ pre = before ++
      (.recv fd (.received message) :: (device ++ [.onMessage fd message response]))

/-- Calls without a `send`. -/
def Sendless (calls : List Call) : Prop := ∀ fd response outcome, .send fd response outcome ∉ calls

theorem Sendless.sentBack {calls : List Call} (h : Sendless calls) : SentBack calls := by
  intro pre fd response outcome post hsplit
  apply absurd _ (h fd response outcome)
  rw [hsplit]
  exact List.mem_append_right _ List.mem_cons_self

theorem SentBack.append {c d : List Call} (hc : SentBack c) (hd : SentBack d) :
    SentBack (c ++ d) := by
  intro pre fd response outcome post hsplit
  rcases List.append_eq_append_iff.mp hsplit with ⟨mid, hpre, hd'⟩ | ⟨mid, hc', hsend⟩
  · -- the call is among the later ones
    obtain ⟨before, message, device, hdevice, hmid⟩ := hd mid fd response outcome post hd'
    refine ⟨c ++ before, message, device, hdevice, ?_⟩
    rw [hpre, hmid, List.append_assoc]
  · cases mid with
    | nil =>
      rw [List.append_nil] at hc'
      obtain ⟨before, message, device, hdevice, hnil⟩ :=
        hd [] fd response outcome post (hsend.symm.trans (List.nil_append _))
      exact absurd hnil.symm (by simp)
    | cons x mid =>
      obtain ⟨rfl, -⟩ := List.cons.inj hsend
      exact hc pre fd response outcome mid hc'

/-- A message that is read, handled and answered. -/
theorem sentBack_exchange {own : ℤ} {bytes response : List UInt8} {calls : List Call}
    {last : Call} (hdevice : DeviceOnly calls)
    (hlast : Settles own response last) :
    SentBack (.recv own (.received bytes) ::
      (calls ++ [.onMessage own bytes response, last])) := by
  have hfirst : Sendless (.recv own (.received bytes) ::
      (calls ++ [.onMessage own bytes response])) := by
    intro d sent outcome hmem
    rcases List.mem_cons.mp hmem with heq | hrest
    · cases heq
    · rcases List.mem_append.mp hrest with hcalls | hmessage
      · exact hdevice _ hcalls
      · cases List.mem_singleton.mp hmessage
  intro pre fd sent outcome post hsplit
  have hsnoc : (.recv own (.received bytes) :: (calls ++ [.onMessage own bytes response]))
      ++ [last] = pre ++ .send fd sent outcome :: post := by
    rw [← hsplit]
    simp
  cases post using List.reverseRecOn with
  | nil =>
    obtain ⟨hpre, hsend⟩ := List.append_inj' hsnoc rfl
    obtain ⟨rfl, -⟩ := List.cons.inj hsend
    cases hlast with
    | send outcome h => exact ⟨[], bytes, calls, hdevice, hpre.symm⟩
  | append_singleton post y =>
    have hpost := hsnoc.trans (List.append_assoc pre (.send fd sent outcome :: post) [y]).symm
    obtain ⟨hpre, -⟩ := List.append_inj' hpost rfl
    apply absurd _ (hfirst fd sent outcome)
    rw [hpre]
    exact List.mem_append_right _ List.mem_cons_self

theorem visit_sentBack (server : TcpServer) (env : Slot → SlotEnv) (i : Slot) :
    SentBack (server.visit handleIncomingMessage env i).calls := by
  rcases visit_cases handleIncomingMessage env server i with
    ⟨-, hvisit⟩ | ⟨-, calls, result, hvisit, hH⟩
  · rw [hvisit]
    exact Sendless.sentBack (by simp [Sendless])
  · rw [hvisit]
    cases hH with
    | accepted hlisten hfree => exact Sendless.sentBack (by simp [Sendless])
    | tableFull hlisten hfull => exact Sendless.sentBack (by simp [Sendless])
    | noData hread hresult hnone => exact Sendless.sentBack (by simp [Sendless])
    | faulted hread hresult hne hcall => exact absurd hcall handled_ne_error
    | answered hread hresult hne hcall hresponse hsent =>
      exact sentBack_exchange (handled_deviceOnly hcall) (.send _ hresponse)
    | brokenPipe hread hresult hne hcall hresponse hsent =>
      exact sentBack_exchange (handled_deviceOnly hcall) (.send _ hresponse)
    | silent hread hresult hne hcall =>
      exact sentBack_exchange (handled_deviceOnly hcall) (.close rfl)
    | hungUp hevent => exact Sendless.sentBack (by simp [Sendless])
    | ignored hin hhup herr => exact Sendless.sentBack (by simp [Sendless])

theorem dropIfUsed_sentBack (server : TcpServer) (i : Slot) :
    SentBack (server.dropIfUsed i).calls := by
  apply Sendless.sentBack
  rcases dropIfUsed_cases server i with ⟨-, hdrop⟩ | ⟨-, hdrop⟩
  · rw [hdrop]
    simp [Sendless]
  · rw [hdrop]
    simp [Sendless]

/-- **Every response goes back to where its message came from**, in every run. -/
theorem loop_sentBack (server : TcpServer) (envs : List LoopEnv) :
    SentBack (server.loop handleIncomingMessage envs).calls := by
  have hnil : SentBack [] := Sendless.sentBack (by simp [Sendless])
  have hpoll : ∀ s env, SentBack [pollCall s env] :=
    fun s env => Sendless.sentBack (by simp [Sendless, pollCall])
  refine loop_calls hnil (fun _ _ => SentBack.append) hpoll dropIfUsed_sentBack ?_ server
  intro env _ s i
  exact visit_sentBack s env.slot i

/-! ### Two runs -/

/-- **Clients do not see each other's data.**  Take two runs from any two states, with any
interleaving with any other connections, over a device that serves the messages of the connection.
When the same chunks are read from it, each is handed to the callback as it was read, and the
connection is sent the same responses in both runs; and every response is sent on the descriptor
that its request was read from. -/
theorem connection_isolated (hserves : Serves ioctl) (server₁ server₂ : TcpServer)
    (envs₁ envs₂ : List LoopEnv) (fd₁ fd₂ : ℤ)
    (h₁ : ∀ n handler, HandlerAt server₁ envs₁ fd₁ n handler → ServedBy ioctl handler)
    (h₂ : ∀ n handler, HandlerAt server₂ envs₂ fd₂ n handler → ServedBy ioctl handler)
    (hchunks : chunks fd₁ (server₁.loop handleIncomingMessage envs₁).calls
      = chunks fd₂ (server₂.loop handleIncomingMessage envs₂).calls) :
    messages fd₁ (server₁.loop handleIncomingMessage envs₁).calls
        = chunks fd₁ (server₁.loop handleIncomingMessage envs₁).calls ∧
      messages fd₂ (server₂.loop handleIncomingMessage envs₂).calls
        = chunks fd₂ (server₂.loop handleIncomingMessage envs₂).calls ∧
      sent fd₁ (server₁.loop handleIncomingMessage envs₁).calls
        = sent fd₂ (server₂.loop handleIncomingMessage envs₂).calls ∧
      SentBack (server₁.loop handleIncomingMessage envs₁).calls ∧
      SentBack (server₂.loop handleIncomingMessage envs₂).calls := by
  refine ⟨(loop_relayed server₁ envs₁ fd₁).messages, (loop_relayed server₂ envs₂ fd₂).messages,
    ?_, loop_sentBack server₁ envs₁, loop_sentBack server₂ envs₂⟩
  rw [sent_eq hserves h₁, sent_eq hserves h₂, hchunks]

/-- A second client connects, and the device works. -/
def joins : LoopEnv :=
  only serverSlot pollIn
    { accepted := 5
      received := .failed
      handler := ⟨CallOutcome.chipIdDevice 0, 0⟩
      sent := .failed }

/-- It sends a request of two words over `MCTP`. -/
def speaks : LoopEnv :=
  only ⟨2, by decide⟩ pollIn
    { accepted := -1
      received := .received [0x94, 0x21, 0, 0, 1, 2, 3, 4, 5, 6, 7, 8]
      handler := ⟨CallOutcome.chipIdDevice 0, 0⟩
      sent := .accepted 4 }

/-- A client asks for the chip id, once with nobody else there and once after a longer message of a
second client. -/
theorem connection_isolated_joined :
    chunks 5 (connected.loop handleIncomingMessage
        [joins, speaks, receives CallOutcome.chipIdRequest]).calls
      = [[0x94, 0x21, 0, 0, 1, 2, 3, 4, 5, 6, 7, 8]] ∧
    sent 4 (connected.loop handleIncomingMessage [receives CallOutcome.chipIdRequest]).calls
      = sent 4 (connected.loop handleIncomingMessage
        [joins, speaks, receives CallOutcome.chipIdRequest]).calls := by
  have hserves : Serves (CallOutcome.chipIdDevice 0).ioctl := by
    refine ⟨fun _ _ => le_rfl, ?_⟩
    intro c data
    cases c with
    | getChipId => exact le_rfl
    | _ => exact Nat.zero_le _
  have hdevice : ServedBy (CallOutcome.chipIdDevice 0).ioctl ⟨CallOutcome.chipIdDevice 0, 0⟩ :=
    ⟨by decide, rfl⟩
  have hall : ∀ envs, envs ⊆ [joins, speaks, receives CallOutcome.chipIdRequest] →
      ∀ n handler, HandlerAt connected envs 4 n handler →
        ServedBy (CallOutcome.chipIdDevice 0).ioctl handler := by
    intro envs henvs n handler hhandler
    obtain ⟨env, henv, i, rfl⟩ := hhandler.mem
    have hmem := henvs henv
    rw [List.mem_cons, List.mem_cons, List.mem_singleton] at hmem
    rcases hmem with rfl | rfl | rfl
    · exact hdevice
    · exact hdevice
    · exact hdevice
  refine ⟨by decide +kernel, ?_⟩
  exact (connection_isolated hserves connected connected [receives CallOutcome.chipIdRequest]
    [joins, speaks, receives CallOutcome.chipIdRequest] 4 4 (hall _ (by simp))
    (hall _ (List.Subset.refl _)) (by decide +kernel)).2.2.1

end Isolation

end FcsServer
