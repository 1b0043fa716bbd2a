import PrivaCloud.AskUser.AnswerText
import PrivaCloud.Framework.Processes
import PrivaCloud.Framework.Table
import PrivaCloud.Framework.Utf8

/-!
# The session of a chat

The row of a chat binds it to a session. A message is run in the session of its chat, `/new` takes the session
from the row, and a run that ends puts the session it ended in there, whatever was handled in between.
-/

namespace PrivaCloud.ChannelConnector

open Framework

structure ChatKey where
  accountId : String
  /-- `chat_id or ""` -/
  chatId : String
  deriving DecidableEq

/-- A row of `channel_binding`. -/
structure Binding where
  accountId : String
  sessionUuid : Option String
  feishuChatId : Option String

namespace Binding

def chat (row : Binding) : ChatKey := ⟨row.accountId, row.feishuChatId.getD ""⟩

/-- The row of a chat that had none; an empty chat id becomes `NULL`. -/
def first (chat : ChatKey) (session : String) : Binding where
  accountId := chat.accountId
  sessionUuid := some session
  feishuChatId := if chat.chatId = "" then none else some chat.chatId

def withSession (row : Binding) (session : Option String) : Binding := { row with sessionUuid := session }

theorem chat_withSession (row : Binding) (session : Option String) : (row.withSession session).chat = row.chat := rfl

theorem chat_first (chat : ChatKey) (session : String) : (first chat session).chat = chat := by
  unfold Binding.chat first
  split
  · rename_i hempty
    rw [Option.getD_none, ← hempty]
  · rfl

end Binding

/-- One row for a chat (`ux_binding_account_chat`) -/
abbrev Bindings := Table Binding.chat

namespace Bindings

variable (rows : Bindings)

def session (chat : ChatKey) : Option String := (rows.find? chat).bind (·.sessionUuid)

/-- `ux_binding_session_active`: no two rows have the same session. -/
def Free (chat : ChatKey) (session : String) : Prop :=
  ∀ row ∈ rows.rows, row.sessionUuid = some session → row.chat = chat

instance (chat : ChatKey) (session : String) : Decidable (rows.Free chat session) :=
  List.decidableBAll _ _

def rebind (chat : ChatKey) (session : Option String) : Bindings :=
  rows.modify chat (·.withSession session) (·.chat_withSession session)

def bind (chat : ChatKey) (session : String) : Option Bindings := rows.insert (Binding.first chat session)

def detach (chat : ChatKey) : Bindings :=
  match rows.find? chat with
  | some _ => rows.rebind chat none
  | none => rows

/-- `SessionRouter.commit_session`, which raises where an index refuses the write -/
def commitSession (chat : ChatKey) (assigned : String) : Option Bindings :=
  if rows.Free chat assigned then
    match rows.find? chat with
    | none => rows.bind chat assigned
    | some row => if row.sessionUuid ≠ some assigned then some (rows.rebind chat (some assigned)) else some rows
  else none

end Bindings

structure ChatMessage where
  chat : ChatKey
  text : String

inductive DecisionKind
  | detach
  | help
  | skills
  | info
  | run

structure ChatDecision where
  kind : DecisionKind
  prompt : Option String := none
  resumeSessionId : Option String := none

def newCommands : List String := ["/new", "/新", "/reset"]

def helpCommands : List String := ["/help", "/帮助"]

def skillCommands : List String := ["/skill", "/skills", "/技能"]

def infoCommands : List String := ["/info", "/信息"]

def contextPrompt : String := "/context"

/-- `SessionRouter.decide`; what is no command, `/stop` too, is a prompt. -/
def decideMessage (rows : Bindings) (message : ChatMessage) : ChatDecision :=
  let text := String.ofList (stripBy AskUser.pySpace message.text.toList)
  if text ∈ newCommands then { kind := .detach }
  else if text ∈ helpCommands then { kind := .help }
  else if text ∈ skillCommands then { kind := .skills }
  else
    let resume := rows.session message.chat
    if text ∈ infoCommands then { kind := .info, prompt := some contextPrompt, resumeSessionId := resume }
    else { kind := .run, prompt := some message.text, resumeSessionId := resume }

inductive ChatEvent
  | ran (chat : ChatKey) (resume : Option String)
  | renewed (chat : ChatKey)
  | ended (chat : ChatKey) (session : String)
  deriving DecidableEq

/-- The rows, and what the turns did, the last first. -/
structure ChatWorld where
  rows : Bindings
  log : List ChatEvent := []

inductive ChatPhase
  | accepted
  | detaching
  | running (resume : Option String)
  | settled

structure ChatTurn where
  message : ChatMessage
  phase : ChatPhase := .accepted

/-- How the call that a turn awaits comes back. -/
inductive ChatReply
  | returned
  /-- `outcome.session_id` of the run -/
  | outcome (session : Option String)
  /-- An exception, or the cancellation of the turn -/
  | raised

namespace ChatWorld

def finish (world : ChatWorld) (chat : ChatKey) : Option String → ChatWorld
  | none | some "" => world
  | some session =>
    { rows := (world.rows.commitSession chat session).getD world.rows
      log := .ended chat session :: world.log }

/-- A section of `AppWorker._handle`, from one call to the router to the next. -/
def act (world : ChatWorld) (turn : ChatTurn) (reply : ChatReply) : Option (ChatWorld × ChatTurn) :=
  match turn.phase, reply with
  | .settled, _ => none
  | _, .raised => some (world, { turn with phase := .settled })
  | .accepted, .returned =>
    let decision := decideMessage world.rows turn.message
    match decision.kind with
    | .help | .skills => some (world, { turn with phase := .settled })
    | .detach => some (world, { turn with phase := .detaching })
    | .info | .run =>
      some ({ world with log := .ran turn.message.chat decision.resumeSessionId :: world.log },
        { turn with phase := .running decision.resumeSessionId })
  | .detaching, .returned =>
    some ({ rows := world.rows.detach turn.message.chat, log := .renewed turn.message.chat :: world.log },
      { turn with phase := .settled })
  | .running _, .outcome session =>
    some (world.finish turn.message.chat session, { turn with phase := .settled })
  | _, _ => none

end ChatWorld

abbrev ChatSystem := Processes ChatWorld ChatTurn

abbrev ChatTurnEvent := ProcessEvent ChatMessage ChatReply Empty

/-- The turns of a connector; a message that passes the gates begins one. -/
def chatProgram : Program ChatWorld ChatTurn ChatMessage ChatReply Empty where
  enter message := { message }
  act := ChatWorld.act
  outside world _ := some world

def chatSystem (rows : Bindings) : ChatSystem := ⟨{ rows }, []⟩

section Log

variable (was : Option String) (chat : ChatKey)

/-- The session of its last completed run, unless a `/new` came later; at first it had `was`. -/
def lastSession : List ChatEvent → Option String
  | [] => was
  | .ran _ _ :: log => lastSession log
  | .renewed c :: log => if c = chat then none else lastSession log
  | .ended c session :: log => if c = chat then some session else lastSession log

def hadSessions : List ChatEvent → List String
  | [] => was.toList
  | .ran _ _ :: log => hadSessions log
  | .renewed _ :: log => hadSessions log
  | .ended c session :: log => if c = chat then session :: hadSessions log else hadSessions log

/-- Those that its last `/new` left behind -/
def leftBehind : List ChatEvent → List String
  | [] => []
  | .ran _ _ :: log => leftBehind log
  | .renewed c :: log => if c = chat then hadSessions was chat log else leftBehind log
  | .ended _ _ :: log => leftBehind log

/-- A message runs in the session of the last completed run and in none that a `/new` left behind. -/
def Continued : List ChatEvent → Prop
  | [] => True
  | .ran c resume :: log =>
    (c = chat → resume = lastSession was chat log ∧ ∀ session ∈ resume, session ∉ leftBehind was chat log) ∧
      Continued log
  | .renewed _ :: log => Continued log
  | .ended _ _ :: log => Continued log

instance : (log : List ChatEvent) → Decidable (Continued was chat log)
  | [] => .isTrue trivial
  | .ran _ _ :: log =>
    have : Decidable (Continued was chat log) := instDecidableContinued log
    inferInstanceAs (Decidable (_ ∧ _))
  | .renewed _ :: log => instDecidableContinued log
  | .ended _ _ :: log => instDecidableContinued log

end Log

/-- No run of the chat ends in a session that a `/new` left behind, or in one that another chat has. -/
def Returns (was : Option String) (chat : ChatKey) (s : ChatSystem) : ChatTurnEvent → Prop
  | .advance i (.outcome (some session)) => ∀ turn ∈ s.procs[i]?, turn.message.chat = chat →
      session ∉ leftBehind was chat s.shared.log ∧ s.shared.rows.Free chat session
  | _ => True

instance (was : Option String) (chat : ChatKey) (s : ChatSystem) (event : ChatTurnEvent) :
    Decidable (Returns was chat s event) := by
  unfold Returns
  split <;> infer_instance

namespace Bindings

variable {rows rows' : Bindings} {chat : ChatKey}

theorem session_rebind (session : Option String) (other : ChatKey) : (rows.rebind chat session).session other =
      if other = chat then (rows.find? chat).bind fun _ => session else rows.session other := by
  unfold Bindings.session rebind
  rw [Table.find?_modify]
  split
  · cases rows.find? chat <;> rfl
  · rfl

theorem session_detach (other : ChatKey) :
    (rows.detach chat).session other = if other = chat then none else rows.session other := by
  unfold detach
  split
  · rename_i row hrow
    rw [session_rebind, hrow]
    rfl
  · rename_i hnone
    split
    · rename_i hother
      rw [hother, Bindings.session, hnone]
      rfl
    · rfl

theorem session_bind {assigned : String} (h : rows.bind chat assigned = some rows') (other : ChatKey) :
    rows'.session other = if other = chat then some assigned else rows.session other := by
  unfold Bindings.session
  rw [Table.find?_insert h other, Binding.chat_first]
  by_cases hother : other = chat
  · rw [if_pos hother, if_pos hother.symm]
    rfl
  · rw [if_neg hother, if_neg fun h => hother h.symm]

theorem session_commitSession {assigned : String} (h : rows.commitSession chat assigned = some rows')
    (other : ChatKey) : rows'.session other = if other = chat then some assigned else rows.session other := by
  unfold commitSession at h
  split at h
  · split at h
    · exact session_bind h other
    · rename_i row hrow
      split at h
      · cases h
        rw [session_rebind, hrow]
        rfl
      · rename_i hsame
        cases h
        split
        · rename_i hother
          rw [hother, Bindings.session, hrow]
          exact of_not_not hsame
        · rfl
  · cases h

theorem commitSession_eq_some {assigned : String} (hfree : rows.Free chat assigned) :
    ∃ rows', rows.commitSession chat assigned = some rows' := by
  unfold commitSession
  rw [if_pos hfree]
  cases hrow : rows.find? chat with
  | some row =>
    by_cases hsame : row.sessionUuid ≠ some assigned
    · exact ⟨_, if_pos hsame⟩
    · exact ⟨_, if_neg hsame⟩
  | none =>
    cases hbind : rows.bind chat assigned with
    | some rows' => exact ⟨rows', rfl⟩
    | none =>
      obtain ⟨row, hfound⟩ := Table.insert_isNone.mp hbind
      rw [Binding.chat_first, hrow] at hfound
      cases hfound

end Bindings

section Runs

variable {was : Option String} {chat : ChatKey}

/-- The row of the chat has the session of the last completed run, which is none from before a `/new`. -/
structure ChatWorld.Follows (was : Option String) (chat : ChatKey) (world : ChatWorld) : Prop where
  session : world.rows.session chat = lastSession was chat world.log
  new : ∀ session ∈ lastSession was chat world.log, session ∉ leftBehind was chat world.log
  continued : Continued was chat world.log

variable {world : ChatWorld}

theorem resumeSessionId_decideMessage {rows : Bindings} {message : ChatMessage}
    (h : (decideMessage rows message).kind = .info ∨ (decideMessage rows message).kind = .run) :
    (decideMessage rows message).resumeSessionId = rows.session message.chat := by
  dsimp only [decideMessage] at h ⊢
  split_ifs at h ⊢
  · rcases h with h | h <;> cases h
  · rcases h with h | h <;> cases h
  · rcases h with h | h <;> cases h
  · rfl
  · rfl

theorem ChatWorld.Follows.run (h : world.Follows was chat) {message : ChatMessage} {resume : Option String}
    (hresume : resume = world.rows.session message.chat) :
    ChatWorld.Follows was chat { world with log := .ran message.chat resume :: world.log } where
  session := h.session
  new := h.new
  continued := by
    refine ⟨?_, h.continued⟩
    rintro rfl
    rw [hresume, h.session]
    exact ⟨rfl, h.new⟩

theorem ChatWorld.Follows.renew (h : world.Follows was chat) (other : ChatKey) :
    ChatWorld.Follows was chat { rows := world.rows.detach other, log := .renewed other :: world.log } where
  session := by
    rw [Bindings.session_detach, lastSession, h.session]
    exact if_congr eq_comm rfl rfl
  new := by
    rw [lastSession, leftBehind]
    split
    · rintro _ ⟨⟩
    · exact h.new
  continued := h.continued

theorem ChatWorld.Follows.finish (h : world.Follows was chat) (other : ChatKey) (session : Option String)
    (hreturns : other = chat → ∀ s ∈ session, s ∉ leftBehind was chat world.log ∧ world.rows.Free chat s) :
    (world.finish other session).Follows was chat := by
  unfold ChatWorld.finish
  split
  · exact h
  · exact h
  · rename_i session hsession
    refine ⟨?_, ?_, h.continued⟩
    · rw [lastSession]
      split
      · rename_i hother
        obtain ⟨-, hfree⟩ := hreturns hother _ rfl
        obtain ⟨rows', hrows⟩ := Bindings.commitSession_eq_some hfree
        rw [hother, hrows, Option.getD_some, Bindings.session_commitSession hrows, if_pos rfl]
      · rename_i hother
        rw [← h.session]
        cases hrows : world.rows.commitSession other session with
        | none => rfl
        | some rows' =>
          rw [Option.getD_some, Bindings.session_commitSession hrows, if_neg fun hc => hother hc.symm]
    · rw [lastSession, leftBehind]
      split
      · rename_i hother
        rintro s ⟨⟩
        exact (hreturns hother _ rfl).1
      · exact h.new

theorem ChatWorld.Follows.act {turn : ChatTurn} {reply : ChatReply} {next : ChatWorld × ChatTurn}
    (h : world.Follows was chat) (hact : world.act turn reply = some next)
    (hreturns : ∀ session, reply = .outcome (some session) → turn.message.chat = chat →
      session ∉ leftBehind was chat world.log ∧ world.rows.Free chat session) :
    next.1.Follows was chat := by
  unfold ChatWorld.act at hact
  split at hact
  · cases hact
  · cases hact
    exact h
  · dsimp only at hact
    split at hact
    · cases hact
      exact h
    · cases hact
      exact h
    · cases hact
      exact h
    · rename_i hkind
      cases hact
      exact h.run (resumeSessionId_decideMessage (.inl hkind))
    · rename_i hkind
      cases hact
      exact h.run (resumeSessionId_decideMessage (.inr hkind))
  · cases hact
    exact h.renew turn.message.chat
  · rename_i session hphase
    cases hact
    refine h.finish turn.message.chat session ?_
    rintro hchat s ⟨⟩
    exact hreturns s rfl hchat
  · cases hact

theorem follows_chatSystem (rows : Bindings) (chat : ChatKey) :
    ChatWorld.Follows (rows.session chat) chat (chatSystem rows).shared where
  session := rfl
  new _ _ hmem := by cases hmem
  continued := trivial

/-- While no run of a chat comes back to a session that a `/new` left behind, every message of the chat continues
the session of the last completed run, and a new one after `/new`. -/
theorem continued_of_returns (rows : Bindings) (chat : ChatKey) {events : List ChatTurnEvent} {s : ChatSystem}
    (hrun : run chatProgram.step (chatSystem rows) events = some s)
    (hreturns : RunMeets chatProgram.step (Returns (rows.session chat) chat) (chatSystem rows) events) :
    Continued (rows.session chat) chat s.shared.log := by
  have hstep : ∀ (s : ChatSystem) (event : ChatTurnEvent) (s' : ChatSystem),
      s.shared.Follows (rows.session chat) chat → Returns (rows.session chat) chat s event →
        chatProgram.step s event = some s' → s'.shared.Follows (rows.session chat) chat := by
    intro s event s' h hc hs
    cases event with
    | spawn message =>
      cases hs
      exact h
    | outside event => cases event
    | advance i reply =>
      obtain ⟨turn, next, hturn, hact, rfl⟩ := Program.advance_eq_some hs
      refine h.act hact ?_
      rintro session rfl hchat
      exact hc turn hturn hchat
  exact (run_invariant hstep (follows_chatSystem rows chat) hreturns hrun).continued

end Runs

def boundRows : Bindings where
  rows := [⟨"a", some "s0", some "oc_1"⟩, ⟨"a", some "g0", some "oc_2"⟩]
  nodup := by decide

def privateChat : ChatKey := ⟨"a", "oc_1"⟩

/-- A message, `/new` after its run, and two more messages -/
def renewedRun : List ChatTurnEvent :=
  [.spawn ⟨privateChat, "hello"⟩, .advance 0 .returned, .advance 0 (.outcome (some "s0")),
    .spawn ⟨privateChat, " /new"⟩, .advance 1 .returned, .advance 1 .returned,
    .spawn ⟨privateChat, "hello again"⟩, .advance 2 .returned, .advance 2 (.outcome (some "s1")),
    .spawn ⟨privateChat, "/info"⟩, .advance 3 .returned]

theorem continued_renewedRun : ∃ s, run chatProgram.step (chatSystem boundRows) renewedRun = some s ∧
    s.shared.log.head? = some (.ran privateChat (some "s1")) ∧ Continued (some "s0") privateChat s.shared.log := by
  obtain ⟨s, hrun, hlast⟩ := exists_run_of_map chatProgram.step (chatSystem boundRows) renewedRun
    (fun s => s.shared.log.head? = some (.ran privateChat (some "s1"))) (by decide)
  exact ⟨s, hrun, of_decide_eq_true hlast, continued_of_returns boundRows privateChat hrun (by decide)⟩

/-- `/new` while a run of the old session is still going on -/
def lateRun : List ChatTurnEvent :=
  [.spawn ⟨privateChat, "a long task"⟩, .advance 0 .returned,
    .spawn ⟨privateChat, "/new"⟩, .advance 1 .returned, .advance 1 .returned,
    .advance 0 (.outcome (some "s0")), .spawn ⟨privateChat, "hello"⟩, .advance 2 .returned]

theorem not_continued_lateRun : ∃ s, run chatProgram.step (chatSystem boundRows) lateRun = some s ∧
    s.shared.log.head? = some (.ran privateChat (some "s0")) ∧ ¬ Continued (some "s0") privateChat s.shared.log := by
  obtain ⟨s, hrun, hbad⟩ := exists_run_of_map chatProgram.step (chatSystem boundRows) lateRun
    (fun s => s.shared.log.head? = some (.ran privateChat (some "s0")) ∧
      ¬ Continued (some "s0") privateChat s.shared.log) (by decide)
  exact ⟨s, hrun, of_decide_eq_true hbad⟩

end PrivaCloud.ChannelConnector
