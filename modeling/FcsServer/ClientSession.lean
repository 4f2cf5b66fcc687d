import FcsServer.Isolation
import FcsServer.RequestEncoding
import FcsServer.ResponseDelivery

/-!
# A session, as a client sees it

A client writes requests and reads a stream of bytes.  Over a device that serves every request the
stream is the answers of the driver, in order, whatever the other connections do.

* `Reply` / `decodeReplies` — a response, and the responses a stream is cut into;
* `outcome` — what the driver answers a request, as far as a response can say it;
* `session_answered` — the requests of a client are remote calls of the driver;
* `asked` / `wants` — what the driver is asked, and what a message asks for;
* `KeepsUp` / `driver_in_order` — the driver gets the requests of all connections in the order in
  which they were read, each once and before the next message is read.
-/

namespace FcsServer

open LittleEndian RequestGrammar TcpServer MessageHandler RequestEncoding StreamFraming Isolation
  ResponseDelivery

namespace ClientSession

/-- What a client reads off a response. -/
structure Reply where
  tag : Tag
  code : ℕ
  payload : List UInt8
  deriving DecidableEq, Repr

def replyOf (r : List UInt8) : Reply := ⟨tagOf r, codeField r, r.drop 4⟩

/-- The responses that a stream is made of. -/
def decodeReplies (stream : List UInt8) : Option (List Reply) :=
  (HeaderDelimited.cut 4 (fun header => 4 + 4 * lengthField header) stream.length stream).map
    (List.map replyOf)

/-- The answer to a request: the low eleven bits of the status, and the payload if it is made of
whole words.  A certificate that the driver does not support is an unknown command. -/
def outcome (ioctl : DevCommand → IntelFcsDevIoctl → IoctlReply) (tag : Tag) (q : Request) :
    Reply :=
  let r := ioctl (devCommand q.command) (FcsCommunication.submitted q.comParas)
  if q.command = .getAttestationCertificate ∧ r.status = -1 then ⟨tag, 3, []⟩
  else if (rspPayload r q.command).length % 4 = 0 then
    ⟨tag, (r.status.toInt % 2 ^ 11).toNat, rspPayload r q.command⟩
  else ⟨tag, 1, []⟩

variable {ioctl : DevCommand → IntelFcsDevIoctl → IoctlReply} {tag : Tag} {q : Request} {fd : ℤ}

/-! ### One request -/

theorem replyOf_respond (payload : List UInt8) (returnCode : Int32) :
    replyOf (respond tag payload returnCode)
      = ⟨tag, (returnCode.toInt % 2 ^ 11).toNat, payload⟩ := by
  have hcode := ResponseFraming.codeField_frame (parserFor tag) payload returnCode
  rw [replyOf, tagOf_respond, respond, ← hcode, Int.toNat_natCast, ResponseFraming.drop_frame]

theorem framed_respond {payload : List UInt8} (returnCode : Int32) (hw : payload.length % 4 = 0)
    (hn : payload.length < 4 * 2 ^ 11) : Framed (respond tag payload returnCode) := by
  have hlen : (respond tag payload returnCode).length = 4 + payload.length :=
    ResponseFraming.length_frame
  refine ⟨by omega, ?_⟩
  rw [respond, ResponseFraming.lengthField_frame hn, ← respond]
  omega

/-- **One remote call.**  The response to a request is framed, and says what the driver
answered. -/
theorem answer_encode (hserves : Serves ioctl) (tag : Tag) (q : Request) :
    Framed (answer ioctl (encode tag q)) ∧
      replyOf (answer ioctl (encode tag q)) = outcome ioctl tag q := by
  obtain ⟨r, hr⟩ : ∃ r, ioctl (devCommand q.command) (FcsCommunication.submitted q.comParas) = r :=
    ⟨_, rfl⟩
  have hsize : rspDataSz r q.command ≤ rspMaxSz q.command := hr ▸ hserves.size _ _
  have hreply : fcsReplyTo ⟨0, ioctl⟩ q = some r := by
    rw [← fcsReply_of_decode (decode_encode tag q), ← hr,
      ← comParas_of_decode (decode_encode tag q)]
    exact fcsReply_of_servedBy hserves ⟨⟨0, ioctl⟩, 0⟩ ⟨le_rfl, rfl⟩ _ _
  have hanswer : answer ioctl (encode tag q) = replied tag q r := by
    have hhandle := handle_of_decode (decode_encode tag q) ⟨⟨0, ioctl⟩, 0⟩ []
    rw [handleIncomingMessage_eq, Traced.mk.injEq, Except.ok.injEq] at hhandle
    rw [answer, hhandle.2, answered, hreply]
  have hlen : (rspPayload r q.command).length ≤ 4096 := by
    rw [length_rspPayload hsize]
    exact hsize.trans (ResponseFraming.rspMaxSz_le _)
  rw [hanswer, replied, outcome, hr]
  split
  · exact ⟨framed_respond _ rfl (by decide), replyOf_respond [] _⟩
  · split
    · rename_i hw
      exact ⟨framed_respond _ hw (by omega), replyOf_respond _ _⟩
    · exact ⟨framed_respond _ rfl (by decide), replyOf_respond [] _⟩

/-! ### One connection -/

/-- A send on the connection takes all it is given. -/
def takesAll (fd : ℤ) : Call → Bool
  | .send d bytes (.accepted n) => d ≠ fd ∨ bytes.length ≤ n
  | .send d _ .failed | .send d _ .brokenPipe => d ≠ fd
  | _ => true

/-- Sends that take everything deliver what was handed to them. -/
theorem acceptedBytes_eq {calls : List Call} (hwhole : ∀ x ∈ calls, takesAll fd x) :
    acceptedBytes fd calls = (sent fd calls).flatten := by
  induction calls with
  | nil => rfl
  | cons x calls ih =>
    have hrest := ih fun y hy => hwhole y (List.mem_cons_of_mem x hy)
    have hx := hwhole x List.mem_cons_self
    have hfirst : acceptedBytes fd [x] = (sent fd [x]).flatten := by
      cases x with
      | send d bytes result =>
        by_cases hd : d = fd
        · cases result with
          | accepted n =>
            have hn : bytes.length ≤ n := by simpa [takesAll, hd] using hx
            simp [acceptedBytes, sent, hd, List.take_of_length_le hn]
          | failed => simp [takesAll, hd] at hx
          | brokenPipe => simp [takesAll, hd] at hx
        · cases result <;> simp [acceptedBytes, sent, hd]
      | _ => rfl
    rw [← List.singleton_append, sent_append, List.flatten_append, acceptedBytes_append, hfirst,
      hrest]

/-- **A session is a sequence of remote calls.**  A client writes requests, each of which arrives
whole, and the device serves them; the sends on its connection take all they are given.  Whatever
the other connections do in the meantime, the stream it receives is cut into as many replies as it
wrote requests, and they are the answers of the driver to them, in order, each with the tag of its
request. -/
theorem session_answered (hserves : Serves ioctl) (server : TcpServer) (envs : List LoopEnv)
    (fd : ℤ) (h : ∀ n handler, HandlerAt server envs fd n handler → ServedBy ioctl handler)
    (requests : List (Tag × Request))
    (harrive : chunks fd (server.loop handleIncomingMessage envs).calls
      = requests.map fun x => encode x.1 x.2)
    (hwhole : ∀ x ∈ (server.loop handleIncomingMessage envs).calls, takesAll fd x) :
    decodeReplies (acceptedBytes fd (server.loop handleIncomingMessage envs).calls)
      = some (requests.map fun x => outcome ioctl x.1 x.2) := by
  have hsent : sent fd (server.loop handleIncomingMessage envs).calls
      = requests.map fun x => answer ioctl (encode x.1 x.2) := by
    rw [sent_eq hserves h, harrive, List.map_map, List.filter_eq_self.mpr]
    · rfl
    · intro r hr
      obtain ⟨x, -, rfl⟩ := List.mem_map.mp hr
      exact decide_eq_true
        (framed_delimited.ne_nil (answer_encode hserves x.1 x.2).1)
  have hframed : ∀ r ∈ requests.map fun x => answer ioctl (encode x.1 x.2), Framed r := by
    intro r hr
    obtain ⟨x, -, rfl⟩ := List.mem_map.mp hr
    exact (answer_encode hserves x.1 x.2).1
  rw [acceptedBytes_eq hwhole, hsent, decodeReplies,
    framed_delimited.cut_flatten _ hframed _ (framed_delimited.length_le_flatten _ hframed),
    Option.map_some, List.map_map]
  congr 1
  apply List.map_congr_left
  intro x _
  exact (answer_encode hserves x.1 x.2).2

/-- The answers when a request for the chip id arrives from the first client. -/
def chipIdArrives : LoopEnv :=
  only firstClient pollIn
    { accepted := -1
      received := .received (encode ⟨1, 2⟩ .getChipId)
      handler := ⟨CallOutcome.chipIdDevice 0, 0⟩
      sent := .accepted 12 }

/-- A client that asks for the chip id reads it. -/
theorem session_answered_chipId :
    decodeReplies (acceptedBytes 4 (connected.loop handleIncomingMessage [chipIdArrives]).calls)
      = some [outcome (CallOutcome.chipIdDevice 0).ioctl ⟨1, 2⟩ .getChipId] := by
  have hserves : Serves (CallOutcome.chipIdDevice 0).ioctl := by
    refine ⟨fun _ _ => le_rfl, ?_⟩
    intro c data
    cases c with
    | getChipId => exact le_rfl
    | _ => exact Nat.zero_le _
  have hdevice : ∀ n handler, HandlerAt connected [chipIdArrives] 4 n handler →
      ServedBy (CallOutcome.chipIdDevice 0).ioctl handler := by
    intro n handler hhandler
    obtain ⟨env, henv, i, rfl⟩ := hhandler.mem
    rw [List.mem_singleton.mp henv]
    have hopen : 0 ≤ (CallOutcome.chipIdDevice 0).openDevice := by decide
    exact ⟨hopen, rfl⟩
  refine session_answered hserves connected [chipIdArrives] 4 hdevice [(⟨1, 2⟩, .getChipId)] ?_ ?_
  · decide +kernel
  · exact List.all_eq_true.mp (by decide +kernel)

/-! ### All connections at once -/

/-- The calls of the driver, with their parameters. -/
def asked (calls : List Call) : List (DevCommand × IntelFcsDevIoctl) :=
  calls.filterMap fun x => match x with
    | .ioctl _ command data _ => some (command, data)
    | _ => none

/-- How often the device was opened, or tried to be. -/
def attempts (calls : List Call) : ℕ :=
  calls.countP fun x => match x with
    | .openDevice _ => true
    | _ => false

/-- Everything that was read, from any connection. -/
def read (calls : List Call) : List (List UInt8) :=
  calls.filterMap fun x => match x with
    | .recv _ (.received bytes) => if bytes = [] then none else some bytes
    | _ => none

/-- The call of the driver that a message is to make. -/
def wants (m : List UInt8) : Option (DevCommand × IntelFcsDevIoctl) :=
  (decode m).map fun x => (devCommand x.2.command, FcsCommunication.submitted x.2.comParas)

theorem asked_append (c d : List Call) : asked (c ++ d) = asked c ++ asked d :=
  List.filterMap_append

theorem attempts_append (c d : List Call) : attempts (c ++ d) = attempts c + attempts d :=
  List.countP_append

theorem read_append (c d : List Call) : read (c ++ d) = read c ++ read d :=
  List.filterMap_append

theorem attempts_mono {pre calls : List Call} (h : pre <+: calls) :
    attempts pre ≤ attempts calls := by
  obtain ⟨post, rfl⟩ := h
  rw [attempts_append]
  exact Nat.le_add_right _ _

/-- The device opens whenever it is tried. -/
def Opens (calls : List Call) : Prop := ∀ device, .openDevice device ∈ calls → 0 ≤ device

theorem Opens.left {c d : List Call} (h : Opens (c ++ d)) : Opens c :=
  fun device hdevice => h device (List.mem_append_left d hdevice)

theorem Opens.right {c d : List Call} (h : Opens (c ++ d)) : Opens d :=
  fun device hdevice => h device (List.mem_append_right c hdevice)

/-- At a moment of a run the device was tried for each message that asks for something, but perhaps
the last one, and for no other; it was asked in the order of the messages, and if it opened whenever
it was tried, for no message less. -/
structure KeepsUp (calls : List Call) : Prop where
  after : attempts calls ≤ ((read calls).filterMap wants).length
  before : ((read calls).filterMap wants).length ≤ attempts calls + 1
  sublist : (asked calls).Sublist ((read calls).filterMap wants)
  first : Opens calls → asked calls <+: (read calls).filterMap wants

/-- The device keeps up at every moment, and nothing is due when something is read; at the end it
was tried for every message, and asked for every message if it always opens. -/
structure InOrder (calls : List Call) : Prop where
  sofar : ∀ pre, pre <+: calls → KeepsUp pre
  caughtUp : ∀ pre fd result, pre ++ [.recv fd result] <+: calls →
    attempts pre = ((read pre).filterMap wants).length
  tried : attempts calls = ((read calls).filterMap wants).length
  all : Opens calls → asked calls = (read calls).filterMap wants

theorem KeepsUp.append {c d : List Call} (hc : InOrder c) (hd : KeepsUp d) : KeepsUp (c ++ d) := by
  have hafter := hd.after
  have hbefore := hd.before
  constructor
  · rw [attempts_append, read_append, List.filterMap_append, List.length_append, hc.tried]
    omega
  · rw [attempts_append, read_append, List.filterMap_append, List.length_append, hc.tried]
    omega
  · rw [asked_append, read_append, List.filterMap_append]
    exact (hc.sofar c List.prefix_rfl).sublist.append hd.sublist
  · intro h
    rw [asked_append, read_append, List.filterMap_append, hc.all h.left]
    exact (List.prefix_append_right_inj _).mpr (hd.first h.right)

theorem InOrder.append {c d : List Call} (hc : InOrder c) (hd : InOrder d) :
    InOrder (c ++ d) := by
  constructor
  · intro pre hpre
    rcases List.prefix_or_prefix_of_prefix hpre (List.prefix_append c d) with hfirst | hlater
    · exact hc.sofar pre hfirst
    · obtain ⟨pre, rfl⟩ := hlater
      exact .append hc (hd.sofar pre ((List.prefix_append_right_inj c).mp hpre))
  · intro pre fd result hpre
    rcases List.prefix_or_prefix_of_prefix hpre (List.prefix_append c d) with hfirst | ⟨mid, hmid⟩
    · exact hc.caughtUp pre fd result hfirst
    · rcases List.eq_nil_or_concat mid with rfl | ⟨mid, x, rfl⟩
      · rw [List.append_nil] at hmid
        exact hc.caughtUp pre fd result (hmid ▸ List.prefix_rfl)
      · rw [List.concat_eq_append, ← List.append_assoc] at hmid
        obtain ⟨rfl, rfl⟩ := List.append_singleton_inj.mp hmid
        rw [List.append_assoc] at hpre
        have hlater := hd.caughtUp mid fd result ((List.prefix_append_right_inj c).mp hpre)
        rw [attempts_append, read_append, List.filterMap_append, List.length_append, hc.tried,
          hlater]
  · rw [attempts_append, read_append, List.filterMap_append, List.length_append, hc.tried,
      hd.tried]
  · intro h
    rw [asked_append, read_append, List.filterMap_append, hc.all h.left, hd.all h.right]

/-- Calls that read nothing and leave the device alone. -/
theorem InOrder.of_unseen {calls : List Call} (hattempts : attempts calls = 0)
    (hasked : asked calls = []) (hread : read calls = []) : InOrder calls := by
  have hnone : ∀ pre, pre <+: calls → attempts pre = 0 ∧ read pre = [] := by
    intro pre hpre
    exact ⟨Nat.le_zero.mp (hattempts ▸ attempts_mono hpre),
      List.prefix_nil.mp (hread ▸ hpre.filterMap _)⟩
  constructor
  · intro pre hpre
    obtain ⟨hattempts', hread'⟩ := hnone pre hpre
    have hasked' : asked pre = [] := List.prefix_nil.mp (hasked ▸ hpre.filterMap _)
    constructor
    · rw [hattempts']
      exact Nat.zero_le _
    · rw [hread']
      exact Nat.zero_le _
    · rw [hasked']
      exact List.nil_sublist _
    · intro _
      rw [hasked']
      exact List.nil_prefix
  · intro pre fd result hpre
    obtain ⟨hattempts', hread'⟩ := hnone pre ((List.prefix_append _ _).trans hpre)
    rw [hattempts', hread']
    rfl
  · rw [hattempts, hread]
    rfl
  · intro _
    rw [hasked, hread]
    rfl

/-- One message: the device is tried if it asks for something, and asked if it opens. -/
theorem callsFor_inOrder (handler : Env) (m : List UInt8) :
    attempts (callsFor handler m) = ([m].filterMap wants).length ∧
      asked (callsFor handler m) <+: [m].filterMap wants ∧
      (Opens (callsFor handler m) → asked (callsFor handler m) = [m].filterMap wants) := by
  cases hm : decode m with
  | none =>
    have hwants : [m].filterMap wants = [] := by
      simp [wants, hm]
    rw [callsFor, decode_eq_none.mp hm, hwants]
    exact ⟨rfl, List.nil_prefix, fun _ => rfl⟩
  | some x =>
    have hwants : [m].filterMap wants
        = [(devCommand x.2.command, FcsCommunication.submitted x.2.comParas)] := by
      simp [wants, hm]
    rw [callsFor_of_decode hm, FcsCommunication.deviceCalls, hwants]
    by_cases hopen : handler.driver.openDevice < 0
    · rw [if_pos hopen]
      refine ⟨rfl, List.nil_prefix, ?_⟩
      intro h
      exact absurd (h _ List.mem_cons_self) (not_le.mpr hopen)
    · rw [if_neg hopen]
      exact ⟨rfl, List.prefix_rfl, fun _ => rfl⟩

/-- Calls that start with a message, and are those that it asks for. -/
theorem InOrder.of_message {m : List UInt8} {own : ℤ} {rest : List Call} (hne : m ≠ [])
    (hnoRecv : ∀ fd result, .recv fd result ∉ rest)
    (htried : attempts rest = ([m].filterMap wants).length)
    (hfirst : asked rest <+: [m].filterMap wants)
    (hall : Opens rest → asked rest = [m].filterMap wants) :
    InOrder (.recv own (.received m) :: rest) := by
  have hread : ∀ later, later <+: rest → read (.recv own (.received m) :: later) = [m] := by
    intro later hlater
    have hnone : read later = [] := by
      rw [read, List.filterMap_eq_nil_iff]
      intro x hx
      cases x with
      | recv fd result => exact absurd (hlater.subset hx) (hnoRecv fd result)
      | _ => rfl
    rw [← List.singleton_append, read_append, hnone]
    simp [read, hne]
  have hskip : ∀ later, attempts (.recv own (.received m) :: later) = attempts later :=
    fun _ => rfl
  constructor
  · intro pre hpre
    cases pre with
    | nil => exact ⟨le_rfl, Nat.zero_le _, List.nil_sublist _, fun _ => List.nil_prefix⟩
    | cons x pre =>
      obtain ⟨rfl, hlater⟩ := List.cons_prefix_cons.mp hpre
      have hasked : asked (.recv own (.received m) :: pre) <+: [m].filterMap wants :=
        (hlater.filterMap _ : asked pre <+: asked rest).trans hfirst
      rw [← hread pre hlater] at hasked
      refine ⟨?_, ?_, hasked.sublist, fun _ => hasked⟩
      · rw [hread pre hlater, ← htried, hskip]
        exact attempts_mono hlater
      · rw [hread pre hlater]
        exact (List.length_filterMap_le _ _).trans (Nat.le_add_left _ _)
  · intro pre fd result hpre
    cases pre with
    | nil => rfl
    | cons x pre =>
      obtain ⟨-, hlater⟩ := List.cons_prefix_cons.mp hpre
      have hmem : .recv fd result ∈ rest := hlater.subset (by simp)
      exact absurd hmem (hnoRecv fd result)
  · rw [hread rest List.prefix_rfl, hskip]
    exact htried
  · intro hopens
    rw [hread rest List.prefix_rfl]
    rw [← List.singleton_append] at hopens
    exact hall hopens.right

/-- A message, the calls it makes, and what becomes of the response. -/
theorem InOrder.exchange {handler : Env} {bytes response : List UInt8} {own : ℤ} {last : Call}
    (hne : bytes ≠ []) (hlast : Settles own response last) :
    InOrder (.recv own (.received bytes) ::
      (callsFor handler bytes ++ [.onMessage own bytes response, last])) := by
  have hend : attempts [.onMessage own bytes response, last] = 0 ∧
      asked [.onMessage own bytes response, last] = [] ∧
      ∀ fd result, .recv fd result ∉ [.onMessage own bytes response, last] := by
    cases hlast with
    | send outcome hsome => exact ⟨rfl, rfl, by simp⟩
    | close hnone => exact ⟨rfl, rfl, by simp⟩
  obtain ⟨htried, hfirst, hall⟩ := callsFor_inOrder handler bytes
  have hasked : asked (callsFor handler bytes ++ [.onMessage own bytes response, last])
      = asked (callsFor handler bytes) := by
    rw [asked_append, hend.2.1, List.append_nil]
  refine .of_message hne ?_ ?_ ?_ ?_
  · intro fd result hmem
    rcases List.mem_append.mp hmem with hcall | htail
    · exact callsFor_deviceOnly handler bytes _ hcall
    · exact hend.2.2 fd result htail
  · rw [attempts_append, hend.1, htried]
    rfl
  · rw [hasked]
    exact hfirst
  · intro hopens
    rw [hasked]
    exact hall hopens.left

theorem visit_inOrder (server : TcpServer) (env : Slot → SlotEnv) (i : Slot) :
    InOrder (server.visit handleIncomingMessage env i).calls := by
  rcases visit_cases handleIncomingMessage env server i with
    ⟨-, hvisit⟩ | ⟨-, calls, result, hvisit, hH⟩
  · rw [hvisit]
    exact .of_unseen rfl rfl rfl
  · rw [hvisit]
    cases hH with
    | accepted hlisten hslot => exact .of_unseen rfl rfl rfl
    | tableFull hlisten hfull => exact .of_unseen rfl rfl rfl
    | noData hread hresult hnone =>
      rcases hnone with rfl | rfl
      · exact .of_unseen rfl rfl rfl
      · exact .of_unseen rfl rfl rfl
    | faulted hread hresult hne hcall => exact absurd hcall handled_ne_error
    | answered hread hresult hne hcall hresponse hsent =>
      obtain ⟨rfl, rfl⟩ := handled_ok hcall
      exact .exchange hne (.send _ hresponse)
    | brokenPipe hread hresult hne hcall hresponse hsent =>
      obtain ⟨rfl, rfl⟩ := handled_ok hcall
      exact .exchange hne (.send _ hresponse)
    | silent hread hresult hne hcall =>
      obtain ⟨rfl, -⟩ := handled_ok hcall
      exact .exchange hne (.close rfl)
    | hungUp hevent => exact .of_unseen rfl rfl rfl
    | ignored hin hhup herr => exact .of_unseen rfl rfl rfl

/-- **The driver is asked in the order of the messages.**  At every moment of any iterations, with
any connections, the device was tried once for each message read that asks for something, the last
one perhaps not yet, and the calls it got are those the messages ask for, none twice and none out of
order.  When the server reads again, and at the end, it was tried for all of them; a device that
opened whenever it was tried got all of them. -/
theorem driver_in_order (server : TcpServer) (envs : List LoopEnv) :
    (∀ pre, pre <+: (server.loop handleIncomingMessage envs).calls →
      attempts pre ≤ ((read pre).filterMap wants).length ∧
      ((read pre).filterMap wants).length ≤ attempts pre + 1 ∧
      (asked pre).Sublist ((read pre).filterMap wants) ∧
      (Opens pre → asked pre <+: (read pre).filterMap wants)) ∧
    (∀ pre fd result,
      pre ++ [.recv fd result] <+: (server.loop handleIncomingMessage envs).calls →
      attempts pre = ((read pre).filterMap wants).length) ∧
    attempts (server.loop handleIncomingMessage envs).calls
      = ((read (server.loop handleIncomingMessage envs).calls).filterMap wants).length ∧
    (Opens (server.loop handleIncomingMessage envs).calls →
      asked (server.loop handleIncomingMessage envs).calls
        = (read (server.loop handleIncomingMessage envs).calls).filterMap wants) := by
  have hloop : InOrder (server.loop handleIncomingMessage envs).calls := by
    refine loop_calls (.of_unseen rfl rfl rfl) (fun _ _ => InOrder.append)
      (fun _ _ => .of_unseen rfl rfl rfl) ?_ ?_ server
    · intro s i
      rcases dropIfUsed_cases s i with ⟨-, hdrop⟩ | ⟨-, hdrop⟩
      · rw [hdrop]
        exact .of_unseen rfl rfl rfl
      · rw [hdrop]
        exact .of_unseen rfl rfl rfl
    · exact fun env _ s i => visit_inOrder s env.slot i
  refine ⟨?_, hloop.caughtUp, hloop.tried, hloop.all⟩
  intro pre hpre
  have hkeeps := hloop.sofar pre hpre
  exact ⟨hkeeps.after, hkeeps.before, hkeeps.sublist, hkeeps.first⟩

end ClientSession

end FcsServer
