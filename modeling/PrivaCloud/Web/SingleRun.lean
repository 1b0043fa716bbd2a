import PrivaCloud.Framework.Processes
import PrivaCloud.Web.RunCall

/-!
# A message runs once

A call makes one record at most, and a socket that is opened again joins it, as long as the client has
received `attach_ok` before it connects again, or no init of the call is left on the way by then.
-/

namespace PrivaCloud.Web

open Framework AgentRunner

/-- A socket that opens again after a record has been made sends an attach, and an attach joins the record. -/
def Rejoins (fork : Bool) (s : RunCall) (event : RunCallEvent) : Prop :=
  ∀ s' ∈ s.step fork event, ∀ record ∈ s.executes,
    match event with
    | .opens => ∃ conn ∈ s'.sockets[s.current]?, ∃ frame ∈ conn.frame, frame.isInit = false
    | .delivers i _ _ => ∀ conn ∈ s.sockets[i]?, ∀ frame ∈ conn.frame, frame.isInit = false →
        ∃ conn' ∈ s'.sockets[i]?, conn'.runner = .following record
    | _ => True

def Retains (registry : RunRegistry Payload) (now : ℚ) (record : RecordId) : Prop :=
  registry.byRunId.lookup (registry.records record).runId = some record ∧ record ∉ registry.stale now

instance (registry : RunRegistry Payload) (now : ℚ) (record : RecordId) : Decidable (Retains registry now record) :=
  inferInstanceAs (Decidable (_ ∧ _))

/-- A socket opens again with the identity of the run, or with no init of the call accepted or on its way, and
an attach is accepted while the record is retained. -/
def Identified (s : RunCall) : RunCallEvent → Prop
  | .opens => s.client.phase = .connecting true → s.client.activeRunId ≠ none ∨
      s.executes = [] ∧ ∀ conn ∈ s.sockets, conn.making = false
  | .delivers i now check => ∀ conn ∈ s.sockets[i]?, ∀ frame ∈ conn.frame, frame.isInit = false →
      check ≠ .authFailed ∧ ∀ record ∈ s.executes, Retains s.registry now record
  | _ => True

instance (s : RunCall) (event : RunCallEvent) : Decidable (Identified s event) := by
  cases event <;> dsimp only [Identified] <;> infer_instance

def Identifies (registry : RunRegistry Payload) (executes : List RecordId) (runId : Option String) : Prop :=
  ∃ record ∈ executes, runId = some (registry.records record).runId

def ServerMessage.IsAttachOk (message : ServerMessage) : Prop := ∃ sessionId runId, message.event = .attachOk sessionId runId

def ServerMessage.Neutral (message : ServerMessage) : Prop := message.seq = none ∧ ∃ name, message.event = .other name

/-- What a connection carries names the record of the call, and before it follows one it carries nothing. -/
structure ConnOk (registry : RunRegistry Payload) (executes : List RecordId) (conn : Connection) : Prop where
  frame : ∀ sessionId runId sinceSeq, conn.frame = some (.attach sessionId runId sinceSeq) →
    Identifies registry executes runId
  acks : ∀ message ∈ conn.inbox, ∀ sessionId runId, message.event = .attachOk sessionId runId →
    Identifies registry executes runId
  quiet : conn.runner = .accepted ∨ (∃ sessionId, conn.runner = .resolving sessionId) → conn.inbox = []

/-- The client knows the run, or what it hears first is `attach_ok`, or it hears of no run. -/
def Heard (client : AgentSocket) (conn : Connection) : Prop :=
  client.activeRunId ≠ none ∨ (∃ message ∈ conn.inbox.head?, message.IsAttachOk) ∨
    (∀ message ∈ conn.inbox, message.Neutral) ∧ ∀ record, conn.runner ≠ .following record

structure CallInv (s : RunCall) : Prop where
  mode : s.client.entryMode = .init
  once : s.executes.length ≤ 1
  known : ∀ record ∈ s.executes, record < s.registry.size ∧ (s.registry.records record).runId ≠ ""
  single : ∀ (i j : Nat) (conn conn' : Connection), s.sockets[i]? = some conn → s.sockets[j]? = some conn' →
    conn.making = true → conn'.making = true → i = j
  made : ∀ conn ∈ s.sockets, conn.making = true → s.executes = []
  named : s.client.activeRunId = none ∨ Identifies s.registry s.executes s.client.activeRunId
  unseen : s.client.activeRunId = none → s.client.lastSeq = none
  conns : ∀ conn ∈ s.sockets, ConnOk s.registry s.executes conn
  heard : ∀ conn ∈ s.sockets[s.current]?, Heard s.client conn
  first : s.client.phase = .connecting false → s.executes = [] ∧ ∀ conn ∈ s.sockets, conn.making = false
  retries : s.client.phase = .waiting → 0 < s.client.reconnectAttempt

section Moves

variable {s : RunCall} {registry registry' : RunRegistry Payload} {executes executes' : List RecordId}
  {conn conn' : Connection} {i : Nat}

private theorem Identifies.mono {runId : Option String} (h : Identifies registry executes runId)
    (hknown : ∀ record ∈ executes, record < registry.size) (hp : registry.Persists registry')
    (hsub : executes ⊆ executes') : Identifies registry' executes' runId := by
  obtain ⟨record, hmem, hid⟩ := h
  exact ⟨record, hsub hmem, by rw [hid, hp.runId record (hknown record hmem)]⟩

private theorem ConnOk.mono (h : ConnOk registry executes conn) (hknown : ∀ record ∈ executes, record < registry.size)
    (hp : registry.Persists registry') (hsub : executes ⊆ executes') : ConnOk registry' executes' conn where
  frame sessionId runId sinceSeq hframe := (h.frame sessionId runId sinceSeq hframe).mono hknown hp hsub
  acks message hmem sessionId runId hack := (h.acks message hmem sessionId runId hack).mono hknown hp hsub
  quiet := h.quiet

private theorem CallInv.setSocket (h : CallInv s) (hconn : s.sockets[i]? = some conn)
    (hok : ConnOk s.registry s.executes conn') (hmaking : conn'.making = true → conn.making = true)
    (hheard : i = s.current → Heard s.client conn') : CallInv (s.setSocket i conn') := by
  have hback (j : Nat) (other : Connection) (hother : (s.sockets.set i conn')[j]? = some other)
      (hmakes : other.making = true) : ∃ was, s.sockets[j]? = some was ∧ was.making = true := by
    grind
  refine ⟨h.mode, h.once, h.known, ?_, ?_, h.named, h.unseen, ?_, ?_, ?_, h.retries⟩
  · intro j k other other' hj hk hmakes hmakes'
    obtain ⟨was, hwas, hm⟩ := hback j other hj hmakes
    obtain ⟨was', hwas', hm'⟩ := hback k other' hk hmakes'
    exact h.single j k was was' hwas hwas' hm hm'
  · intro other hmem hmakes
    obtain ⟨j, hj⟩ := List.mem_iff_getElem?.mp hmem
    obtain ⟨was, hwas, hm⟩ := hback j other hj hmakes
    exact h.made was (List.mem_of_getElem? hwas) hm
  · intro other hmem
    rcases Program.mem_set_cases hmem with rfl | hmem
    · exact hok
    · exact h.conns other hmem
  · intro other hother
    have hcurrent : (s.setSocket i conn').current = s.current := by simp [RunCall.current, RunCall.setSocket]
    rw [hcurrent] at hother
    rcases Program.getElem?_set_cases hother with ⟨hi, rfl⟩ | ⟨-, hother⟩
    · exact hheard hi.symm
    · exact h.heard other hother
  · intro hphase
    obtain ⟨hempty, hnone⟩ := h.first hphase
    refine ⟨hempty, ?_⟩
    intro other hmem
    rw [Bool.eq_false_iff]
    intro hmakes
    obtain ⟨j, hj⟩ := List.mem_iff_getElem?.mp hmem
    obtain ⟨was, hwas, hm⟩ := hback j other hj hmakes
    rw [hnone was (List.mem_of_getElem? hwas)] at hm
    cases hm

private theorem CallInv.setRegistry (h : CallInv s) (hp : s.registry.Persists registry) :
    CallInv { s with registry := registry } := by
  have hlt (record : RecordId) (hmem : record ∈ s.executes) : record < s.registry.size := (h.known record hmem).1
  refine ⟨h.mode, h.once, ?_, h.single, h.made, ?_, h.unseen, ?_, h.heard, h.first, h.retries⟩
  · intro record hmem
    refine ⟨lt_of_lt_of_le (hlt record hmem) hp.size, ?_⟩
    dsimp only
    rw [hp.runId record (hlt record hmem)]
    exact (h.known record hmem).2
  · exact h.named.imp_right fun hid => hid.mono hlt hp (List.Subset.refl _)
  · intro conn hmem
    exact (h.conns conn hmem).mono hlt hp (List.Subset.refl _)

private theorem CallInv.setClient (h : CallInv s) {client : AgentSocket} (hmode : client.entryMode = s.client.entryMode)
    (hrun : client.activeRunId = s.client.activeRunId) (hseq : client.lastSeq = s.client.lastSeq)
    (hphase : client.phase ≠ .connecting false) (hretries : client.phase = .waiting → 0 < client.reconnectAttempt) :
    CallInv { s with client := client } := by
  refine ⟨hmode.trans h.mode, h.once, h.known, h.single, h.made, ?_, ?_, h.conns, ?_, ?_, hretries⟩
  · dsimp only
    rw [hrun]
    exact h.named
  · dsimp only
    rw [hrun, hseq]
    exact h.unseen
  · intro conn hconn
    refine (h.heard conn hconn).imp_left ?_
    rw [hrun]
    exact id
  · intro hfirst
    exact absurd hfirst hphase

private theorem ConnOk.refuse (h : ConnOk registry executes conn) (event : String) :
    ConnOk registry executes (conn.refuse event) := by
  refine ⟨?_, ?_, ?_⟩
  · rintro _ _ _ ⟨⟩
  · intro message hmem sessionId runId hack
    rcases List.mem_append.mp hmem with hmem | hmem
    · exact h.acks message hmem sessionId runId hack
    · rw [List.mem_singleton.mp hmem] at hack
      cases hack
  · rintro (⟨⟨⟩⟩ | ⟨_, ⟨⟩⟩)

private theorem heard_refuse {client : AgentSocket} (hempty : conn.inbox = []) (event : String) :
    Heard client (conn.refuse event) := by
  refine .inr (.inr ⟨?_, ?_⟩)
  · intro message hmem
    rw [Connection.refuse, hempty] at hmem
    rw [List.mem_singleton.mp hmem]
    exact ⟨rfl, event, rfl⟩
  · rintro record ⟨⟩

private theorem ConnOk.follow (h : ConnOk registry executes conn) {record : RecordId} (hmem : record ∈ executes) :
    ConnOk registry executes (conn.follow registry record) := by
  refine ⟨?_, ?_, ?_⟩
  · rintro _ _ _ ⟨⟩
  · intro message hmessage sessionId runId hack
    rcases List.mem_append.mp hmessage with hmessage | hmessage
    · exact h.acks message hmessage sessionId runId hack
    · rw [List.mem_singleton.mp hmessage] at hack
      cases hack
      exact ⟨record, hmem, rfl⟩
  · rintro (⟨⟨⟩⟩ | ⟨_, ⟨⟩⟩)

private theorem heard_follow {client : AgentSocket} (hempty : conn.inbox = []) (record : RecordId) :
    Heard client (conn.follow registry record) := by
  refine .inr (.inl ⟨attachOkMessage registry record, ?_, _, _, rfl⟩)
  rw [Connection.follow, hempty]
  rfl

private theorem CallInv.opens (h : CallInv s) (hid : Identified s .opens) {isReconnect : Bool}
    (hphase : s.client.phase = .connecting isReconnect) (hconn : s.sockets[s.current]? = some conn) :
    CallInv ({ s with client := (s.client.onOpen isReconnect).1 }.setSocket s.current
      { conn with frame := some (s.client.onOpen isReconnect).2 }) := by
  have hmode := h.mode
  have hopened : CallInv { s with client := (s.client.onOpen isReconnect).1 } := by
    refine h.setClient rfl rfl rfl ?_ ?_
    · rintro ⟨⟩
    · rintro ⟨⟩
  have hold := h.conns conn (List.mem_of_getElem? hconn)
  by_cases hrun : s.client.activeRunId = none
  · -- nothing has been made and nothing is on its way
    have hnothing : s.executes = [] ∧ ∀ conn ∈ s.sockets, conn.making = false := by
      cases isReconnect with
      | false => exact h.first hphase
      | true => exact (hid hphase).resolve_left fun hne => hne hrun
    have hframe : (s.client.onOpen isReconnect).2 = s.client.sendInit := by
      simp [AgentSocket.onOpen, hmode, hrun, h.unseen hrun]
    have hmakes (j : Nat) (other : Connection)
        (hother : (s.sockets.set s.current { conn with frame := some (s.client.onOpen isReconnect).2 })[j]? = some other)
        (hmaking : other.making = true) : j = s.current := by
      grind
    refine ⟨hopened.mode, hopened.once, hopened.known, ?_, fun _ _ _ => hnothing.1, hopened.named, hopened.unseen, ?_, ?_,
      ?_, hopened.retries⟩
    · intro j k other other' hj hk hm hm'
      rw [hmakes j other hj hm, hmakes k other' hk hm']
    · intro other hmem
      rcases Program.mem_set_cases hmem with rfl | hmem
      · refine ⟨?_, hold.acks, hold.quiet⟩
        intro sessionId runId sinceSeq heq
        rw [hframe] at heq
        cases heq
      · exact h.conns other hmem
    · intro other hother
      have hcurrent : other = { conn with frame := some (s.client.onOpen isReconnect).2 } := by
        have hset := List.getElem?_set_self (a := { conn with frame := some (s.client.onOpen isReconnect).2 })
          (List.getElem?_eq_some_iff.mp hconn).1
        have hlast : (({ s with client := (s.client.onOpen isReconnect).1 } : RunCall).setSocket s.current
            { conn with frame := some (s.client.onOpen isReconnect).2 }).current = s.current := by
          simp [RunCall.current, RunCall.setSocket]
        rw [hlast] at hother
        exact Option.some.inj (hother.symm.trans hset)
      rw [hcurrent]
      exact h.heard conn hconn
    · rintro ⟨⟩
  · -- the run is known, so the socket attaches to it
    have hnamed := h.named.resolve_left hrun
    obtain ⟨record, hmem, hrunId⟩ := hnamed
    have htruthy : truthy s.client.activeRunId = some (s.registry.records record).runId := by
      rw [hrunId]
      exact truthy_some (h.known record hmem).2
    have hreconnect : isReconnect = true := by
      cases isReconnect with
      | false =>
        rw [(h.first hphase).1] at hmem
        cases hmem
      | true => rfl
    have hframe : (s.client.onOpen isReconnect).2 = s.client.sendAttach := by
      simp [AgentSocket.onOpen, hmode, hreconnect, htruthy]
    refine hopened.setSocket hconn ⟨?_, hold.acks, hold.quiet⟩ ?_ fun _ => h.heard conn hconn
    · intro sessionId runId sinceSeq heq
      rw [hframe] at heq
      cases heq
      exact ⟨record, hmem, htruthy⟩
    · intro hmaking
      rw [Connection.making, hframe] at hmaking
      unfold Connection.making
      rw [Bool.or_eq_true] at hmaking ⊢
      rcases hmaking with hmaking | hmaking
      · cases hmaking
      · exact .inr hmaking

private theorem CallInv.receives (h : CallInv s) {message : ServerMessage} {inbox : List ServerMessage}
    (hconn : s.sockets[s.current]? = some conn) (hinbox : conn.inbox = message :: inbox)
    (hphase : s.client.phase = .opened) :
    CallInv ({ s with client := s.client.onMessage message }.setSocket s.current { conn with inbox := inbox }) := by
  have hold := h.conns conn (List.mem_of_getElem? hconn)
  have hheard := h.heard conn hconn
  have hseq (c : AgentSocket) (seq : Option Nat) : (c.noteSeq seq).entryMode = c.entryMode ∧
      (c.noteSeq seq).activeRunId = c.activeRunId ∧ (c.noteSeq seq).phase = c.phase := by
    unfold AgentSocket.noteSeq
    grind
  have hevent (c : AgentSocket) (event : ServerEvent) : (c.noteEvent event).entryMode = c.entryMode ∧
      (c.noteEvent event).lastSeq = c.lastSeq ∧ (c.noteEvent event).phase = c.phase := by
    cases event with
    | streamInit streamId =>
      unfold AgentSocket.noteEvent
      dsimp only
      split
      · exact ⟨rfl, rfl, rfl⟩
      · exact ⟨rfl, rfl, rfl⟩
    | _ => exact ⟨rfl, rfl, rfl⟩
  obtain ⟨hmode, hrun, hsame⟩ := hseq s.client message.seq
  obtain ⟨hmode', hlast, hsame'⟩ := hevent (s.client.noteSeq message.seq) message.event
  have hopened : (s.client.onMessage message).phase = .opened := (hsame'.trans hsame).trans hphase
  -- what the client knows of the run afterwards
  have hknows : s.client.onMessage message = s.client ∧ message.Neutral ∨
      Identifies s.registry s.executes (s.client.onMessage message).activeRunId := by
    have hack (sessionId runId : Option String) (heq : message.event = .attachOk sessionId runId) :
        Identifies s.registry s.executes (s.client.onMessage message).activeRunId := by
      obtain ⟨record, hmem, hid⟩ := hold.acks message (by rw [hinbox]; exact List.mem_cons_self) sessionId runId heq
      refine ⟨record, hmem, ?_⟩
      unfold AgentSocket.onMessage
      rw [heq]
      change (truthy runId).or (s.client.noteSeq message.seq).activeRunId = _
      rw [hid, truthy_some (h.known record hmem).2]
      rfl
    rcases hheard with hne | ⟨first, hfirst, sessionId, runId, heq⟩ | ⟨hneutral, -⟩
    · right
      have hnamed := h.named.resolve_left hne
      obtain ⟨record, hmem, hid⟩ := hnamed
      have htruthy : truthy s.client.activeRunId = some (s.registry.records record).runId := by
        rw [hid]
        exact truthy_some (h.known record hmem).2
      cases heq : message.event with
      | attachOk sessionId runId => exact hack sessionId runId heq
      | streamInit streamId =>
        refine ⟨record, hmem, ?_⟩
        unfold AgentSocket.onMessage AgentSocket.noteEvent
        rw [heq, hrun, htruthy]
        exact hrun.trans hid
      | keepalive | systemInit | result | other =>
        refine ⟨record, hmem, ?_⟩
        unfold AgentSocket.onMessage
        rw [heq]
        exact hrun.trans hid
    · right
      rw [hinbox] at hfirst
      cases hfirst
      exact hack sessionId runId heq
    · left
      have hmessage := hneutral message (by rw [hinbox]; exact List.mem_cons_self)
      obtain ⟨hnone, name, heq⟩ := hmessage
      refine ⟨?_, hnone, name, heq⟩
      unfold AgentSocket.onMessage
      rw [hnone, heq]
      rfl
  have hok : ConnOk s.registry s.executes { conn with inbox := inbox } := by
    refine ⟨hold.frame, ?_, ?_⟩
    · intro other hmem
      exact hold.acks other (by rw [hinbox]; exact List.mem_cons_of_mem _ hmem)
    · intro hwaits
      rw [hold.quiet hwaits] at hinbox
      cases hinbox
  rcases hknows with ⟨hclient, hneutral⟩ | hid
  · rw [hclient]
    refine h.setSocket hconn hok id ?_
    intro _
    rcases hheard with hne | ⟨first, hfirst, sessionId, runId, heq⟩ | ⟨hall, hfollows⟩
    · exact .inl hne
    · rw [hinbox] at hfirst
      cases hfirst
      obtain ⟨-, name, hname⟩ := hneutral
      rw [hname] at heq
      cases heq
    · refine .inr (.inr ⟨?_, hfollows⟩)
      intro other hmem
      exact hall other (by rw [hinbox]; exact List.mem_cons_of_mem _ hmem)
  · have hsome : (s.client.onMessage message).activeRunId ≠ none := by
      obtain ⟨record, -, hid⟩ := hid
      rw [hid]
      exact Option.some_ne_none _
    have hinv : CallInv { s with client := s.client.onMessage message } := by
      refine ⟨(hmode'.trans hmode).trans h.mode, h.once, h.known, h.single, h.made, .inr hid, ?_, h.conns, ?_, ?_, ?_⟩
      · exact fun hnone => absurd hnone hsome
      · exact fun _ _ => .inl hsome
      · intro hfirst
        rw [hopened] at hfirst
        cases hfirst
      · intro hwaits
        rw [hopened] at hwaits
        cases hwaits
    exact hinv.setSocket hconn hok id fun _ => .inl hsome

private theorem onClose_keeps (c : AgentSocket) (code : Nat) :
    (c.onClose code).1.entryMode = c.entryMode ∧ (c.onClose code).1.activeRunId = c.activeRunId ∧
      (c.onClose code).1.lastSeq = c.lastSeq ∧
      ((c.onClose code).1.phase = .closed ∨ (c.onClose code).1.phase = .waiting ∧ 0 < (c.onClose code).1.reconnectAttempt) := by
  have hfinal : c.finalize.1.entryMode = c.entryMode ∧ c.finalize.1.activeRunId = c.activeRunId ∧
      c.finalize.1.lastSeq = c.lastSeq ∧
      (c.finalize.1.phase = .closed ∨ c.finalize.1.phase = .waiting ∧ 0 < c.finalize.1.reconnectAttempt) := by
    unfold AgentSocket.finalize
    split
    · exact ⟨rfl, rfl, rfl, .inl rfl⟩
    · exact ⟨rfl, rfl, rfl, .inl rfl⟩
  unfold AgentSocket.onClose
  split
  · exact hfinal
  · split
    · exact hfinal
    · split
      · exact hfinal
      · split
        · exact hfinal
        · split
          · exact hfinal
          · split
            · exact hfinal
            · unfold AgentSocket.scheduleReconnect
              grind

private theorem CallInv.reconnects (h : CallInv s) (hphase : s.client.phase = .waiting) :
    CallInv { s with client := s.client.connect, sockets := s.sockets ++ [{}] } := by
  have hphase' : s.client.connect.phase = .connecting true := by
    simp [AgentSocket.connect, h.retries hphase]
  have hnew : (({} : Connection).making) = false := rfl
  have hold (j : Nat) (other : Connection) (hother : (s.sockets ++ [({} : Connection)])[j]? = some other)
      (hmaking : other.making = true) : s.sockets[j]? = some other := by
    grind
  refine ⟨h.mode, h.once, h.known, ?_, ?_, h.named, h.unseen, ?_, ?_, ?_, ?_⟩
  · intro j k other other' hj hk hm hm'
    exact h.single j k other other' (hold j other hj hm) (hold k other' hk hm') hm hm'
  · intro other hmem hmaking
    obtain ⟨j, hj⟩ := List.mem_iff_getElem?.mp hmem
    exact h.made other (List.mem_of_getElem? (hold j other hj hmaking)) hmaking
  · intro other hmem
    rcases List.mem_append.mp hmem with hmem | hmem
    · exact h.conns other hmem
    · rw [List.mem_singleton.mp hmem]
      refine ⟨?_, ?_, fun _ => rfl⟩
      · rintro _ _ _ ⟨⟩
      · rintro _ ⟨⟩
  · intro other hother
    have hlast : (s.sockets ++ [({} : Connection)])[(s.sockets ++ [({} : Connection)]).length - 1]? = some {} := by simp
    obtain rfl := Option.some.inj (hlast.symm.trans hother)
    refine .inr (.inr ⟨?_, ?_⟩)
    · rintro _ ⟨⟩
    · rintro _ ⟨⟩
  · intro hfirst
    rw [hphase'] at hfirst
    cases hfirst
  · intro hwaits
    rw [hphase'] at hwaits
    cases hwaits

private theorem CallInv.delivers (h : CallInv s) {frame : FirstFrame} {now : ℚ} {check : FrameCheck}
    (hid : Identified s (.delivers i now check)) (hconn : s.sockets[i]? = some conn) (hrunner : conn.runner = .accepted)
    (hframe : conn.frame = some frame) : CallInv (s.deliver i conn frame now check) := by
  have hok := h.conns conn (List.mem_of_getElem? hconn)
  have hempty := hok.quiet (.inl hrunner)
  have hrefuse (t : RunCall) (ht : CallInv t) (hsockets : t.sockets = s.sockets) (hexec : t.executes = s.executes)
      (event : String) : CallInv (t.setSocket i (conn.refuse event)) := by
    have hconn' : t.sockets[i]? = some conn := hsockets ▸ hconn
    refine ht.setSocket hconn' ((ht.conns conn (List.mem_of_getElem? hconn')).refuse event) ?_ ?_
    · rintro ⟨⟩
    · exact fun _ => heard_refuse hempty event
  have hswept : CallInv { s with registry := s.registry.sweep now } := h.setRegistry (.of_records rfl fun _ => rfl)
  unfold RunCall.deliver
  split
  · exact hrefuse s h rfl rfl _
  · rename_i sessionId runId sinceSeq hcheck
    obtain ⟨record, hmem, hrunId⟩ := hok.frame sessionId runId sinceSeq hframe
    obtain ⟨-, hretains⟩ := hid conn hconn _ hframe rfl
    obtain ⟨hkept, hfresh⟩ := hretains record hmem
    rw [hrunId, RunRegistry.get_runId (h.known record hmem).2 hkept hfresh]
    dsimp only
    refine hswept.setSocket hconn ((hswept.conns conn (List.mem_of_getElem? hconn)).follow hmem) ?_ ?_
    · rintro ⟨⟩
    · exact fun _ => heard_follow hempty record
  · exact hrefuse s h rfl rfl _
  · rename_i sessionId
    have hresolve (t : RunCall) (ht : CallInv t) (hconn' : t.sockets[i]? = some conn) :
        CallInv (t.setSocket i { conn with frame := none, runner := .resolving sessionId }) := by
      have hok' := ht.conns conn (List.mem_of_getElem? hconn')
      refine ht.setSocket hconn' ⟨?_, hok'.acks, fun _ => hempty⟩ ?_ ?_
      · rintro _ _ _ ⟨⟩
      · intro _
        simp [Connection.making, hframe, FirstFrame.isInit]
      · intro _
        refine .inr (.inr ⟨?_, ?_⟩)
        · intro message hmem
          rw [hempty] at hmem
          cases hmem
        · rintro _ ⟨⟩
    split
    · exact hresolve s h hconn
    · dsimp only
      split
      · exact hrefuse _ hswept rfl rfl _
      · exact hresolve _ hswept hconn

private theorem CallInv.resolves (h : CallInv s) {fork : Bool} {sessionId : Option String} {now : ℚ} {known : Bool}
    {sessionUuid runUuid : String} (hconn : s.sockets[i]? = some conn) (hrunner : conn.runner = .resolving sessionId)
    (hfresh : runUuid ≠ "") : CallInv (s.resolve fork i conn sessionId now known sessionUuid runUuid) := by
  have hok := h.conns conn (List.mem_of_getElem? hconn)
  have hempty := hok.quiet (.inr ⟨sessionId, hrunner⟩)
  have hmaking : conn.making = true := by simp [Connection.making, hrunner]
  have hnone := h.made conn (List.mem_of_getElem? hconn) hmaking
  have hrefuse (t : RunCall) (ht : CallInv t) (hconn' : t.sockets[i]? = some conn) (event : String) :
      CallInv (t.setSocket i (conn.refuse event)) := by
    refine ht.setSocket hconn' ((ht.conns conn (List.mem_of_getElem? hconn')).refuse event) ?_ ?_
    · rintro ⟨⟩
    · exact fun _ => heard_refuse hempty event
  have hpersists := @RunRegistry.persists_create s.registry now
    (some (RunCall.sessionKey fork sessionId sessionUuid)) none runUuid
  unfold RunCall.resolve
  split
  · split
    · rename_i registry error hcreate
      rw [hcreate] at hpersists
      exact hrefuse _ (h.setRegistry hpersists) hconn _
    · rename_i registry record hcreate
      rw [hcreate] at hpersists
      have hrecord : record = s.registry.size ∧ record < registry.size ∧ (registry.records record).runId = runUuid := by
        unfold RunRegistry.create at hcreate
        dsimp only at hcreate
        split at hcreate
        · cases hcreate
        · split at hcreate <;> cases hcreate
          refine ⟨rfl, Nat.lt_succ_self _, ?_⟩
          simp [RunRegistry.insertRecord]
      -- the client knows no run, and no other socket makes one
      have hunnamed : s.client.activeRunId = none := by
        refine h.named.resolve_right ?_
        rintro ⟨other, hmem, -⟩
        rw [hnone] at hmem
        cases hmem
      have hothers (j : Nat) (other : Connection) (hother : (s.sockets.set i (conn.follow registry record))[j]? = some other) :
          other.making = false := by
        rcases Program.getElem?_set_cases hother with ⟨-, rfl⟩ | ⟨hj, hother⟩
        · rfl
        · rw [Bool.eq_false_iff]
          exact fun hm => hj (h.single j i other conn hother hconn hm hmaking)
      have hlt : ∀ other ∈ s.executes, other < s.registry.size := fun other hmem => (h.known other hmem).1
      have hmem : record ∈ s.executes ++ [record] := List.mem_append_right _ List.mem_cons_self
      refine ⟨h.mode, ?_, ?_, ?_, ?_, .inl hunnamed, h.unseen, ?_, ?_, ?_, h.retries⟩
      · simp [RunCall.setSocket, hnone]
      · intro other hother
        rw [RunCall.setSocket, hnone] at hother
        rw [List.mem_singleton.mp hother]
        refine ⟨hrecord.2.1, ?_⟩
        change (registry.records record).runId ≠ ""
        rw [hrecord.2.2]
        exact hfresh
      · intro j k other other' hj hk hm
        rw [hothers j other hj] at hm
        cases hm
      · intro other hother hm
        obtain ⟨j, hj⟩ := List.mem_iff_getElem?.mp hother
        rw [hothers j other hj] at hm
        cases hm
      · intro other hother
        rcases Program.mem_set_cases hother with rfl | hother
        · exact (hok.mono hlt hpersists (List.subset_append_left _ _)).follow hmem
        · exact (h.conns other hother).mono hlt hpersists (List.subset_append_left _ _)
      · intro other hother
        have hcurrent : (({ s with registry := registry, executes := s.executes ++ [record] } : RunCall).setSocket i
            (conn.follow registry record)).current = s.current := by
          simp [RunCall.current, RunCall.setSocket]
        rw [hcurrent] at hother
        rcases Program.getElem?_set_cases hother with ⟨-, rfl⟩ | ⟨-, hother⟩
        · exact heard_follow hempty record
        · exact h.heard other hother
      · intro hfirst
        have hidle := (h.first hfirst).2 conn (List.mem_of_getElem? hconn)
        rw [hmaking] at hidle
        cases hidle
  · exact hrefuse s h hconn _

private theorem CallInv.sends (h : CallInv s) (hconn : s.sockets[i]? = some conn) {record : RecordId}
    (hrunner : conn.runner = .following record) {message : ServerMessage} (hmessage : ¬ message.IsAttachOk) :
    CallInv (s.setSocket i { conn with inbox := conn.inbox ++ [message] }) := by
  have hok := h.conns conn (List.mem_of_getElem? hconn)
  refine h.setSocket hconn ⟨hok.frame, ?_, ?_⟩ id ?_
  · intro other hmem sessionId runId hack
    rcases List.mem_append.mp hmem with hmem | hmem
    · exact hok.acks other hmem sessionId runId hack
    · rw [List.mem_singleton.mp hmem] at hack
      exact absurd ⟨sessionId, runId, hack⟩ hmessage
  · dsimp only
    rw [hrunner]
    rintro (⟨⟨⟩⟩ | ⟨_, ⟨⟩⟩)
  · rintro rfl
    rcases h.heard conn hconn with hne | ⟨first, hfirst, hack⟩ | ⟨-, hfollows⟩
    · exact .inl hne
    · refine .inr (.inl ⟨first, ?_, hack⟩)
      dsimp only
      rw [List.head?_append, hfirst]
      rfl
    · exact absurd hrunner (hfollows record)

private theorem CallInv.drops (h : CallInv s) (hconn : s.sockets[i]? = some conn) {runner : RunnerConn}
    (hrunner : runner = .ended ∨ runner = conn.runner) :
    CallInv (s.setSocket i { conn with frame := none, runner := runner }) := by
  have hok := h.conns conn (List.mem_of_getElem? hconn)
  refine h.setSocket hconn ⟨?_, hok.acks, ?_⟩ ?_ ?_
  · rintro _ _ _ ⟨⟩
  · rcases hrunner with rfl | rfl
    · rintro (⟨⟨⟩⟩ | ⟨_, ⟨⟩⟩)
    · exact hok.quiet
  · intro hmaking
    unfold Connection.making at hmaking ⊢
    rcases hrunner with rfl | rfl
    · cases hmaking
    · rw [Bool.or_eq_true]
      exact .inr hmaking
  · rintro rfl
    rcases h.heard conn hconn with hne | hack | ⟨hneutral, hfollows⟩
    · exact .inl hne
    · exact .inr (.inl hack)
    · refine .inr (.inr ⟨hneutral, ?_⟩)
      rcases hrunner with rfl | rfl
      · rintro _ ⟨⟩
      · exact hfollows

private theorem call_step {fork : Bool} {s' : RunCall} {event : RunCallEvent} (h : CallInv s) (hid : Identified s event)
    (hs : s.step fork event = some s') : CallInv s' := by
  cases event with
  | opens =>
    simp only [RunCall.step] at hs
    split at hs <;> cases hs
    rename_i isReconnect conn hphase hconn
    exact h.opens hid hphase hconn
  | receives =>
    simp only [RunCall.step] at hs
    split at hs
    · rename_i conn hconn
      split at hs
      · rename_i message inbox hinbox
        split at hs <;> cases hs
        rename_i hlistening
        exact h.receives hconn hinbox (of_decide_eq_true hlistening)
      · cases hs
    · cases hs
  | closes code =>
    obtain ⟨hmode, hrun, hseq, hphase⟩ := onClose_keeps s.client code
    have hclosed : CallInv { s with client := (s.client.onClose code).1 } := by
      refine h.setClient hmode hrun hseq ?_ ?_
      · grind
      · grind
    simp only [RunCall.step] at hs
    grind
  | reconnects =>
    simp only [RunCall.step] at hs
    split at hs <;> cases hs
    rename_i hphase
    exact h.reconnects hphase
  | aborts =>
    cases hs
    have hphase : s.client.abort.1.phase = .closed ∧ s.client.abort.1.entryMode = s.client.entryMode ∧
        s.client.abort.1.activeRunId = s.client.activeRunId ∧ s.client.abort.1.lastSeq = s.client.lastSeq := by
      unfold AgentSocket.abort AgentSocket.finalize
      split
      · exact ⟨rfl, rfl, rfl, rfl⟩
      · exact ⟨rfl, rfl, rfl, rfl⟩
    obtain ⟨hclosed, hmode, hrun, hseq⟩ := hphase
    refine h.setClient hmode hrun hseq ?_ ?_
    · rw [hclosed]
      rintro ⟨⟩
    · rw [hclosed]
      rintro ⟨⟩
  | loses j =>
    simp only [RunCall.step] at hs
    split at hs
    · rename_i conn hconn
      split at hs <;> cases hs
      exact h.drops hconn (.inr rfl)
    · cases hs
  | delivers j now check =>
    simp only [RunCall.step] at hs
    split at hs
    · rename_i conn hconn
      split at hs <;> cases hs
      rename_i frame hrunner hframe
      exact h.delivers hid hconn hrunner hframe
    · cases hs
  | resolves j now known sessionUuid runUuid =>
    simp only [RunCall.step] at hs
    split at hs
    · rename_i conn hconn
      split at hs
      · rename_i sessionId hrunner
        split at hs <;> cases hs
        rename_i hfresh
        exact h.resolves hconn hrunner hfresh.2.1
      · cases hs
    · cases hs
  | sends j message =>
    simp only [RunCall.step] at hs
    split at hs
    · rename_i conn hconn
      split at hs
      · cases hs
      · rename_i record hrunner hnot
        cases hs
        refine h.sends hconn hrunner ?_
        rintro ⟨sessionId, runId, hack⟩
        exact hnot sessionId runId hack
      · cases hs
    · cases hs
  | ends j =>
    simp only [RunCall.step] at hs
    split at hs <;> cases hs
    rename_i conn hconn
    exact h.drops hconn (.inl rfl)
  | registry op =>
    simp only [RunCall.step] at hs
    split at hs <;> cases hs
    exact h.setRegistry (RunRegistry.persists_apply op)

private theorem rejoins_of_inv (h : CallInv s) {fork : Bool} {event : RunCallEvent} (hid : Identified s event) :
    Rejoins fork s event := by
  intro s' hs record hmem
  cases event with
  | opens =>
    simp only [RunCall.step, Option.mem_def] at hs
    split at hs <;> cases hs
    rename_i isReconnect conn hphase hconn
    have hreconnect : isReconnect = true := by
      cases isReconnect with
      | false =>
        rw [(h.first hphase).1] at hmem
        cases hmem
      | true => rfl
    have hrun : s.client.activeRunId ≠ none := by
      rw [hreconnect] at hphase
      refine (hid hphase).resolve_right ?_
      rintro ⟨hempty, -⟩
      rw [hempty] at hmem
      cases hmem
    obtain ⟨found, hfound, hrunId⟩ := h.named.resolve_left hrun
    have htruthy : truthy s.client.activeRunId = some (s.registry.records found).runId := by
      rw [hrunId]
      exact truthy_some (h.known found hfound).2
    refine ⟨_, List.getElem?_set_self (List.getElem?_eq_some_iff.mp hconn).1, _, rfl, ?_⟩
    simp [AgentSocket.onOpen, h.mode, hreconnect, htruthy, AgentSocket.sendAttach, FirstFrame.isInit]
  | delivers i now check =>
    intro conn hconn frame hframe hattach
    simp only [RunCall.step, Option.mem_def] at hs
    rw [Option.mem_def] at hconn hframe
    rw [hconn] at hs
    dsimp only at hs
    split at hs
    · rename_i frame' hrunner hframe'
      obtain rfl := Option.some.inj (hframe.symm.trans hframe')
      obtain ⟨hcheck, hretains⟩ := hid conn hconn frame hframe hattach
      cases frame with
      | init sessionId => cases hattach
      | attach sessionId runId sinceSeq =>
        obtain ⟨found, hfound, hrunId⟩ := (h.conns conn (List.mem_of_getElem? hconn)).frame sessionId runId sinceSeq hframe
        obtain ⟨hkept, hfresh⟩ := hretains found hfound
        have hsame : found = record := by
          have honce := h.once
          obtain ⟨only, hexecutes⟩ := List.length_eq_one_iff.mp
            (Nat.le_antisymm honce (List.length_pos_of_mem hmem))
          rw [hexecutes] at hfound hmem
          rw [List.mem_singleton.mp hfound, List.mem_singleton.mp hmem]
        have hget := @RunRegistry.get_runId _ _ _ sessionId _ (h.known found hfound).2 hkept hfresh
        unfold RunCall.deliver at hs
        rw [hrunId] at hs
        cases check with
        | authFailed => exact absurd rfl hcheck
        | invalid | passed =>
          dsimp only at hs
          rw [hget, hsame] at hs
          cases hs
          exact ⟨_, List.getElem?_set_self (List.getElem?_eq_some_iff.mp hconn).1, rfl⟩
    · cases hs
  | receives | closes | reconnects | aborts | loses | resolves | sends | ends | registry => trivial

end Moves

private theorem callInv_begin (sessionId : Option String) (registry : RunRegistry Payload) :
    CallInv (RunCall.begin sessionId registry) := by
  refine ⟨rfl, Nat.zero_le _, ?_, ?_, ?_, .inl rfl, fun _ => rfl, ?_, ?_, ?_, ?_⟩
  · rintro record ⟨⟩
  · intro i j conn conn' hconn _ hmaking
    rw [List.mem_singleton.mp (List.mem_of_getElem? hconn)] at hmaking
    cases hmaking
  · intro conn hconn hmaking
    rw [List.mem_singleton.mp hconn] at hmaking
    cases hmaking
  · intro conn hconn
    rw [List.mem_singleton.mp hconn]
    refine ⟨?_, ?_, fun _ => rfl⟩
    · rintro _ _ _ ⟨⟩
    · rintro _ ⟨⟩
  · rintro conn ⟨⟩
    refine .inr (.inr ⟨?_, ?_⟩)
    · rintro _ ⟨⟩
    · rintro _ ⟨⟩
  · refine fun _ => ⟨rfl, ?_⟩
    intro conn hconn
    rw [List.mem_singleton.mp hconn]
    rfl
  · rintro ⟨⟩

/-- Along every run whose sockets open again with the identity of the run, the message is run once at most,
and every socket that opens again joins its run. -/
theorem runsOnce_of_identified {fork : Bool} {sessionId : Option String} {registry : RunRegistry Payload}
    {events : List RunCallEvent} {s' : RunCall}
    (hid : RunMeets (RunCall.step fork) Identified (RunCall.begin sessionId registry) events)
    (hrun : run (RunCall.step fork) (RunCall.begin sessionId registry) events = some s') :
    s'.executes.length ≤ 1 ∧ RunMeets (RunCall.step fork) (Rejoins fork) (RunCall.begin sessionId registry) events := by
  have hstep (s : RunCall) (event : RunCallEvent) (next : RunCall) (hi : CallInv s) (hc : Identified s event)
      (hs : s.step fork event = some next) : CallInv next := call_step hi hc hs
  have hinit := callInv_begin sessionId registry
  exact ⟨(run_invariant hstep hinit hid hrun).once,
    runMeets_of_invariant hstep (fun _ _ hi hc => rejoins_of_inv hi hc) hinit hid⟩

def startsRun : List RunCallEvent := [.opens, .delivers 0 1 .passed, .resolves 0 1 true "s" "r"]

/-- The socket is lost while the run goes on, and the next one attaches. -/
def lostSocket : List RunCallEvent :=
  startsRun ++ [.receives, .sends 0 ⟨.streamInit (some "x"), some 1⟩, .receives, .closes 1006, .reconnects, .opens,
    .delivers 1 2 .passed, .receives]

theorem runsOnce_lostSocket :
    RunMeets (RunCall.step false) Identified (RunCall.begin none RunRegistry.empty) lostSocket ∧
      ∃ s', run (RunCall.step false) (RunCall.begin none RunRegistry.empty) lostSocket = some s' ∧
        s'.sockets.length = 2 ∧ s'.executes.length ≤ 1 ∧
        RunMeets (RunCall.step false) (Rejoins false) (RunCall.begin none RunRegistry.empty) lostSocket := by
  have hid : RunMeets (RunCall.step false) Identified (RunCall.begin none RunRegistry.empty) lostSocket := by
    decide
  obtain ⟨s', hrun, htwo⟩ := exists_run_of_map (RunCall.step false) (RunCall.begin none RunRegistry.empty) lostSocket
    (fun s => decide (s.sockets.length = 2)) (by decide)
  exact ⟨hid, s', hrun, of_decide_eq_true htwo, runsOnce_of_identified hid hrun⟩

/-- The socket is lost before `attach_ok` has come in, and the next one sends the message again. -/
def lostAttachOk : List RunCallEvent :=
  startsRun ++ [.closes 1006, .reconnects, .opens, .delivers 1 2 .passed, .resolves 1 2 true "t" "q"]

/-- The same for a session that is resumed, after its run has ended. -/
def lostShortRun : List RunCallEvent :=
  startsRun ++ [.closes 1006, .registry (.finish 0 .completed 2 2), .reconnects, .opens, .delivers 1 2 .passed,
    .resolves 1 2 true "t" "q"]

theorem lostAttachOk_runs_twice :
    (∃ s', run (RunCall.step false) (RunCall.begin none RunRegistry.empty) lostAttachOk = some s' ∧
        ¬ s'.executes.length ≤ 1) ∧
      ∃ s', run (RunCall.step false) (RunCall.begin (some "s") RunRegistry.empty) lostShortRun = some s' ∧
        ¬ s'.executes.length ≤ 1 := by
  constructor
  · obtain ⟨s', hrun, htest⟩ := exists_run_of_map (RunCall.step false) (RunCall.begin none RunRegistry.empty) lostAttachOk
      (fun s => decide (¬ s.executes.length ≤ 1)) (by decide)
    exact ⟨s', hrun, of_decide_eq_true htest⟩
  · obtain ⟨s', hrun, htest⟩ := exists_run_of_map (RunCall.step false) (RunCall.begin (some "s") RunRegistry.empty)
      lostShortRun (fun s => decide (¬ s.executes.length ≤ 1)) (by decide +kernel)
    exact ⟨s', hrun, of_decide_eq_true htest⟩

end PrivaCloud.Web
