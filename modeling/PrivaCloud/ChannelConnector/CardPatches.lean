import PrivaCloud.ChannelConnector.Prompts

/-!
# Patches of a streaming card

The turns of the worker with their tickers (`_animate`) and the calls of `patch_card`. A call runs in a
thread: the service applies it at some moment after it was made, also when the task that awaits it has
been cancelled.
-/

namespace PrivaCloud.ChannelConnector

open Framework AskUser

/-- What a patch shows, with the number of frames folded so far. -/
inductive PatchFace
  | progress (content dots : Nat)
  | prompt (content id : Nat)
  | final (content : Nat)
  deriving DecidableEq

def PatchFace.embeds : PatchFace → Option Nat
  | .prompt _ id => some id
  | _ => none

/-- A call of `patch_card`. -/
structure CardPatch where
  face : PatchFace
  applied : Bool := false

/-- A patch that the service has applied, with the prompts that waited on the card for an answer then. -/
structure AppliedPatch where
  face : PatchFace
  waiting : List Nat
  deriving DecidableEq

inductive Ticker
  | none
  | sleeping (dots : Nat)
  | patching (dots patch : Nat)
  | cancelled

inductive CardPhase
  | new
  | opening
  | streaming
  /-- `_embed_permission` awaits its patch -/
  | embedding (patch : Nat)
  /-- the run has returned, and the ticker is cancelled -/
  | stopped
  | finishing (patch : Nat)
  | over
  /-- the card could not be posted -/
  | plain (call : TurnCall)
  deriving DecidableEq

structure CardTurn where
  phase : CardPhase := .new
  turn : InboundTurn := ⟨"", ""⟩
  card : Option String := none
  /-- the prompts that this turn registered -/
  issued : List Nat := []
  ticker : Ticker := .none
  content : Nat := 0
  patches : List CardPatch := []
  applied : List AppliedPatch := []

namespace CardTurn

/-- A call of `patch_card` is made. -/
def startPatch (t : CardTurn) (face : PatchFace) : CardTurn :=
  { t with patches := t.patches ++ [{ face := face }] }

/-- The call is back, so that its patch has been applied. -/
def returned (t : CardTurn) (patch : Nat) : Bool := t.patches[patch]?.any (·.applied)

def shows (t : CardTurn) (id : Nat) : Bool := t.patches.any fun p => p.applied && p.face.embeds = some id

end CardTurn

structure CardSystem where
  world : PromptWorld := {}
  turns : Nat → CardTurn := fun _ => {}
  /-- the prompts that were answered from another client of the session -/
  answered : List Nat := []

inductive CardFrame
  | permissionRequest (request : PermissionRequest) (now : Nat)
  | permissionTimeout (requestId : String)
  /-- `keepalive` and `stream_init` -/
  | idle
  /-- any other event -/
  | content

inductive CardEvent
  | start (c : Nat) (turn : InboundTurn)
  /-- the first card has been sent, or not -/
  | card (c : Nat) (messageId : Option String)
  | tick (c : Nat)
  | tickReturn (c : Nat)
  | frame (c : Nat) (f : CardFrame)
  | embedReturn (c : Nat)
  /-- the run returns -/
  | finish (c : Nat)
  | final (c : Nat)
  | finalReturn (c : Nat)
  /-- the service applies a patch -/
  | apply (c patch : Nat)
  | plain (c : Nat) (input : TurnInput)
  | tap (tap : Tap)
  | respond (id : Nat)

namespace CardSystem

def setTurn (s : CardSystem) (c : Nat) (t : CardTurn) : CardSystem :=
  { s with turns := Function.update s.turns c t }

/-- The embedded prompts of a card that nobody has answered. -/
def waiting (s : CardSystem) (card : String) : List Nat :=
  (List.range s.world.prompts.length).filter fun id => id ∉ s.answered ∧ s.world.prompts[id]?.any fun prompt =>
      prompt.embedded && prompt.messageId = card && prompt.status = .pending

def waitingOn (s : CardSystem) (c : Nat) : List Nat := (s.turns c).card.elim [] s.waiting

/-- One frame of the stream, in `RunnerDialer.run`. -/
def frame (s : CardSystem) (c : Nat) (card : String) : CardFrame → Option CardSystem
  | .permissionRequest request now =>
    let t := s.turns c
    if TurnCall.newRequest s.world request.requestId then
      let id := s.world.prompts.length
      let world := s.world.register promptTtl (TurnCall.prompt t.turn request card true now)
      let t := { t with phase := .embedding t.patches.length, issued := t.issued ++ [id] }
      some ({ s with world := world }.setTurn c (t.startPatch (.prompt t.content id)))
    else none
  | .permissionTimeout requestId => some { s with world := s.world.clearPermission requestId }
  | .idle => some s
  | .content =>
    let t := s.turns c
    let world := { s.world with embeds := s.world.embeds.filter (·.1 ≠ card) }
    some ({ s with world := world }.setTurn c { t with content := t.content + 1 })

def step (s : CardSystem) : CardEvent → Option CardSystem
  | .start c turn =>
    match (s.turns c).phase with
    | .new => some (s.setTurn c { phase := .opening, turn := turn })
    | _ => none
  | .card c messageId =>
    let t := s.turns c
    match t.phase, messageId with
    | .opening, none => some (s.setTurn c { t with phase := .plain (.streaming t.turn none []) })
    | .opening, some messageId =>
      if TurnCall.newMessage s.world messageId then
        let world := { s.world with messageIds := messageId :: s.world.messageIds }
        some ({ s with world := world }.setTurn c
          { t with phase := .streaming, card := some messageId, ticker := .sleeping 1 })
      else none
    | _, _ => none
  | .tick c =>
    let t := s.turns c
    match t.ticker, t.card with
    | .sleeping dots, some card =>
      match getValue s.world.embeds card with
      | some _ => some s
      | none =>
        some (s.setTurn c
          ({ t with ticker := .patching dots t.patches.length }.startPatch (.progress t.content dots)))
    | _, _ => none
  | .tickReturn c =>
    let t := s.turns c
    match t.ticker with
    | .patching dots patch =>
      if t.returned patch then some (s.setTurn c { t with ticker := .sleeping (dots % 3 + 1) }) else none
    | _ => none
  | .frame c f =>
    let t := s.turns c
    match t.phase, t.card with
    | .streaming, some card => s.frame c card f
    | _, _ => none
  | .embedReturn c =>
    let t := s.turns c
    match t.phase with
    | .embedding patch => if t.returned patch then some (s.setTurn c { t with phase := .streaming }) else none
    | _ => none
  | .finish c =>
    let t := s.turns c
    match t.phase with
    | .streaming => some (s.setTurn c { t with phase := .stopped, ticker := .cancelled })
    | _ => none
  | .final c =>
    let t := s.turns c
    match t.phase with
    | .stopped =>
      some (s.setTurn c ({ t with phase := .finishing t.patches.length }.startPatch (.final t.content)))
    | _ => none
  | .finalReturn c =>
    let t := s.turns c
    match t.phase with
    | .finishing patch =>
      if t.returned patch then
        some ({ s with world := s.world.expirePrompts t.issued }.setTurn c { t with phase := .over })
      else none
    | _ => none
  | .apply c patch =>
    let t := s.turns c
    match t.patches[patch]? with
    | some p =>
      if p.applied then none
      else
        let waiting := (s.waitingOn c).filter t.shows
        some (s.setTurn c
          { t with
            patches := t.patches.set patch { p with applied := true }
            applied := t.applied ++ [{ face := p.face, waiting := waiting }] })
    | none => none
  | .plain c input =>
    let t := s.turns c
    match t.phase with
    | .plain call =>
      (TurnCall.act s.world call input).map fun result =>
        { s with world := result.1 }.setTurn c { t with phase := .plain result.2 }
    | _ => none
  | .tap tap => some { s with world := (s.world.handle tap).1 }
  | .respond id => some { s with answered := id :: s.answered }

/-- A finished turn has its final card, and no patch met a prompt that waited for its answer. -/
structure CardsRight (s : CardSystem) : Prop where
  final : ∀ c, (s.turns c).phase = .over → ∃ p, (s.turns c).applied.getLast? = some p ∧
    p.face = .final (s.turns c).content
  alone : ∀ c, ∀ p ∈ (s.turns c).applied, p.waiting = []

/-- A prompt arrives and a run returns when no patch is on its way, and what is not a prompt arrives
when none waits. -/
def Careful (s : CardSystem) (e : CardEvent) : Prop :=
  (match e with
  | .frame c (.permissionRequest ..) | .finish c =>
    decide (s.waitingOn c = []) && (s.turns c).patches.all (·.applied)
  | .frame c .content => decide (s.waitingOn c = [])
  | _ => true : Bool) = true

instance (s : CardSystem) (e : CardEvent) : Decidable (s.Careful e) :=
  inferInstanceAs (Decidable (_ = true))

end CardSystem

end PrivaCloud.ChannelConnector
