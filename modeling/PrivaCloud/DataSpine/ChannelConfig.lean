import PrivaCloud.AskUser.AnswerText
import PrivaCloud.Framework.Json
import PrivaCloud.Framework.Processes
import PrivaCloud.Framework.Table
import PrivaCloud.Framework.Utf8

/-!
# The Feishu channel configuration

The rows of `feishu_channel_config` with the columns that the setters write, the digest of the
connection, and the calls of `FeishuChannelConfigService` and `ChannelPlatformConfigService`. A
section of a call is one call of the repository.
-/

namespace PrivaCloud.DataSpine

open Framework

/-- The desired columns; a row that is inserted has the defaults of the schema. -/
structure FeishuRow where
  accountId : String
  appId : Option String := none
  appSecretEnc : Option String := none
  appSecretUpdatedAt : Option Nat := none
  userEnabled : Bool := false
  adminDisabled : Bool := false
  singleChatAccessMode : String := "owner_only"
  allowedUnionIds : String := "[]"
  welcomeMessage : String := ""
  rejectMessage : String := ""
  model : Option String := none
  maxQueueSize : Int := 3
  enablePermissionFeedback : Bool := true
  feedbackTimeoutSeconds : Int := 180
  domain : String := "feishu"
  groupChatEnabled : Bool := false
  ownerUnionId : String := ""
  ownerOpenId : String := ""
  ownerBoundAt : Option Nat := none
  linkCodeHash : Option String := none
  linkCodeExpiresAt : Option Nat := none
  desiredDigest : Option String := none
  updatedBy : String := ""
  deriving DecidableEq

/-- The columns of a write, by name; one that is not written is absent. -/
structure FeishuFields where
  appId : Option String := none
  appSecretEnc : Option (Option String) := none
  appSecretUpdatedAt : Option (Option Nat) := none
  userEnabled : Option Bool := none
  adminDisabled : Option Bool := none
  singleChatAccessMode : Option String := none
  allowedUnionIds : Option String := none
  welcomeMessage : Option String := none
  rejectMessage : Option String := none
  model : Option String := none
  maxQueueSize : Option Int := none
  enablePermissionFeedback : Option Bool := none
  feedbackTimeoutSeconds : Option Int := none
  domain : Option String := none
  groupChatEnabled : Option Bool := none
  ownerUnionId : Option String := none
  ownerOpenId : Option String := none
  ownerBoundAt : Option (Option Nat) := none
  linkCodeHash : Option (Option String) := none
  linkCodeExpiresAt : Option (Option Nat) := none
  desiredDigest : Option String := none
  updatedBy : Option String := none
  deriving DecidableEq

/-- `{**row, **fields}` -/
def FeishuFields.over (fields : FeishuFields) (row : FeishuRow) : FeishuRow where
  accountId := row.accountId
  appId := fields.appId.or row.appId
  appSecretEnc := fields.appSecretEnc.getD row.appSecretEnc
  appSecretUpdatedAt := fields.appSecretUpdatedAt.getD row.appSecretUpdatedAt
  userEnabled := fields.userEnabled.getD row.userEnabled
  adminDisabled := fields.adminDisabled.getD row.adminDisabled
  singleChatAccessMode := fields.singleChatAccessMode.getD row.singleChatAccessMode
  allowedUnionIds := fields.allowedUnionIds.getD row.allowedUnionIds
  welcomeMessage := fields.welcomeMessage.getD row.welcomeMessage
  rejectMessage := fields.rejectMessage.getD row.rejectMessage
  model := fields.model.or row.model
  maxQueueSize := fields.maxQueueSize.getD row.maxQueueSize
  enablePermissionFeedback := fields.enablePermissionFeedback.getD row.enablePermissionFeedback
  feedbackTimeoutSeconds := fields.feedbackTimeoutSeconds.getD row.feedbackTimeoutSeconds
  domain := fields.domain.getD row.domain
  groupChatEnabled := fields.groupChatEnabled.getD row.groupChatEnabled
  ownerUnionId := fields.ownerUnionId.getD row.ownerUnionId
  ownerOpenId := fields.ownerOpenId.getD row.ownerOpenId
  ownerBoundAt := fields.ownerBoundAt.getD row.ownerBoundAt
  linkCodeHash := fields.linkCodeHash.getD row.linkCodeHash
  linkCodeExpiresAt := fields.linkCodeExpiresAt.getD row.linkCodeExpiresAt
  desiredDigest := fields.desiredDigest.or row.desiredDigest
  updatedBy := fields.updatedBy.getD row.updatedBy

structure ChannelPlatformRow where
  groupChatDisabled : Bool := false
  updatedBy : String := ""

/-- `_DIGEST_COLS` -/
structure DigestCols where
  appId : Option String
  appSecretEnc : Option String
  userEnabled : Bool
  adminDisabled : Bool
  domain : String
  ownerUnionId : String
  groupChatEnabled : Bool
  deriving DecidableEq

def FeishuRow.digestCols (row : FeishuRow) : DigestCols where
  appId := row.appId
  appSecretEnc := row.appSecretEnc
  userEnabled := row.userEnabled
  adminDisabled := row.adminDisabled
  domain := row.domain
  ownerUnionId := row.ownerUnionId
  groupChatEnabled := row.groupChatEnabled

def bit (b : Bool) : Json := .int b.toNat

/-- `_digest`: the first half of the hash, sixteen digits. -/
def digest (merged : DigestCols) (groupDisabled : Bool) : String :=
  let payload := Json.arr [
    .str (merged.appId.getD ""),
    .str (merged.appSecretEnc.getD ""),
    bit merged.userEnabled,
    bit merged.adminDisabled,
    .str (if merged.domain = "" then "feishu" else merged.domain),
    .str merged.ownerUnionId,
    bit (merged.groupChatEnabled && !groupDisabled)]
  String.ofList ((Sha256.hexdigest (payload.dumps .compact)).take 16)

theorem digest_ne_empty (merged : DigestCols) (groupDisabled : Bool) : digest merged groupDisabled ≠ "" := by
  intro h
  have hlength := congrArg (fun text => text.toList.length) h
  simp [digest, Sha256.hexdigest, Sha256.hex] at hlength

structure ChannelStore where
  accounts : List String
  rows : Table FeishuRow.accountId := .empty
  platform : Option ChannelPlatformRow := none

namespace ChannelStore

def groupGloballyDisabled (s : ChannelStore) : Bool := s.platform.any (·.groupChatDisabled)

def feishuGet (s : ChannelStore) (accountId : String) : Option FeishuRow := s.rows.find? accountId

/-- The columns that a `CHECK` restricts. -/
def admissible (fields : FeishuFields) : Bool :=
  fields.singleChatAccessMode.all (· ∈ ["owner_only", "allowlist", "all"]) &&
    fields.domain.all (· ∈ ["feishu", "lark"])

/-- The row of the account, or the one that an insert begins with. -/
def current (s : ChannelStore) (accountId : String) : FeishuRow :=
  (s.feishuGet accountId).getD { accountId := accountId }

/-- `feishu_upsert`, or the `IntegrityError` of a constraint. -/
def feishuUpsert (s : ChannelStore) (accountId : String) (fields : FeishuFields) : Option ChannelStore :=
  if admissible fields ∧ ((s.feishuGet accountId).isSome ∨ accountId ∈ s.accounts) then
    some { s with rows := s.rows.upsert (fields.over (s.current accountId)) }
  else none

/-- `ORDER BY account_id` -/
def feishuList (s : ChannelStore) : List FeishuRow :=
  s.rows.rows.insertionSort fun a b => a.accountId ≤ b.accountId

def channelPlatformUpsert (s : ChannelStore) (groupChatDisabled : Option Bool) (updatedBy : String) :
    ChannelStore :=
  let row := s.platform.getD {}
  { s with platform := some {
      groupChatDisabled := groupChatDisabled.getD row.groupChatDisabled
      updatedBy := if updatedBy = "" then row.updatedBy else updatedBy } }

end ChannelStore

/-- The arguments of `set_user`; a secret comes with its ciphertext, and an empty one clears. -/
structure SetUser where
  appId : Option String := none
  appSecret : Option (String × String) := none
  userEnabled : Option Bool := none
  singleChatAccessMode : Option String := none
  allowedUnionIds : Option String := none
  welcomeMessage : Option String := none
  rejectMessage : Option String := none
  model : Option String := none
  maxQueueSize : Option Int := none
  enablePermissionFeedback : Option Bool := none
  feedbackTimeoutSeconds : Option Int := none
  domain : Option String := none
  groupChatEnabled : Option Bool := none
  updatedBy : String := ""
  now : Nat := 0

def orAbsent (text : String) : Option String := if text = "" then none else some text

def SetUser.fields (m : SetUser) : FeishuFields where
  appId := m.appId
  appSecretEnc := m.appSecret.map fun secret => if secret.1 = "" then none else some secret.2
  appSecretUpdatedAt := m.appSecret.map fun secret => if secret.1 = "" then none else some m.now
  userEnabled := m.userEnabled
  singleChatAccessMode := m.singleChatAccessMode
  allowedUnionIds := m.allowedUnionIds
  welcomeMessage := m.welcomeMessage
  rejectMessage := m.rejectMessage
  model := m.model
  maxQueueSize := m.maxQueueSize
  enablePermissionFeedback := m.enablePermissionFeedback
  feedbackTimeoutSeconds := m.feedbackTimeoutSeconds
  domain := m.domain
  groupChatEnabled := m.groupChatEnabled
  updatedBy := orAbsent m.updatedBy

inductive ChannelRequest
  | setUser (accountId : String) (args : SetUser)
  | setAdmin (accountId : String) (adminDisabled : Option Bool) (updatedBy : String)
  | createLinkCode (accountId code : String) (expires : Nat)
  | bindOwnerWithCode (accountId code unionId openId : String)
  | unbindOwner (accountId updatedBy : String)
  | setPlatform (groupChatDisabled : Option Bool) (updatedBy : String)

/-- Where a call is: before the call of the repository that it makes next. -/
inductive ChannelCall
  | checking (accountId code unionId openId : String)
  | writeDesired (accountId : String) (fields : FeishuFields)
  | merging (accountId : String) (fields : FeishuFields) (groupDisabled : Bool)
  | upserting (accountId : String) (fields : FeishuFields) (merged : FeishuRow) (groupDisabled : Bool)
  | setting (groupChatDisabled : Option Bool) (updatedBy : String)
  | recomputing
  | listing (groupDisabled : Bool)
  | rewriting (groupDisabled : Bool) (rest : List FeishuRow)
  | ended
  deriving DecidableEq

namespace ChannelCall

/-- `_sha256_hex` of a code. -/
def codeHash (code : String) : String := String.ofList (Sha256.hexdigest code.toList)

def enter : ChannelRequest → ChannelCall
  | .setUser accountId args => .writeDesired accountId args.fields
  | .setAdmin accountId adminDisabled updatedBy =>
    .writeDesired accountId { adminDisabled := adminDisabled, updatedBy := orAbsent updatedBy }
  | .createLinkCode accountId code expires =>
    .writeDesired accountId
      { linkCodeHash := some (codeHash code), linkCodeExpiresAt := some expires }
  | .bindOwnerWithCode accountId code unionId openId => .checking accountId code unionId openId
  | .unbindOwner accountId updatedBy =>
    .writeDesired accountId
      { ownerUnionId := some "", ownerOpenId := some "", ownerBoundAt := some none
        linkCodeHash := some none, linkCodeExpiresAt := some none, updatedBy := orAbsent updatedBy }
  | .setPlatform groupChatDisabled updatedBy => .setting groupChatDisabled updatedBy

/-- `str.upper`, as far as it gives letters of ASCII; a code has no others. -/
def upper (c : Char) : List Char :=
  match c.toNat with
  | 0xDF => ['S', 'S']
  | 0x131 => ['I']
  | 0x17F => ['S']
  | 0xFB00 => ['F', 'F']
  | 0xFB01 => ['F', 'I']
  | 0xFB02 => ['F', 'L']
  | 0xFB03 => ['F', 'F', 'I']
  | 0xFB04 => ['F', 'F', 'L']
  | 0xFB05 | 0xFB06 => ['S', 'T']
  | _ => [c.toUpper]

/-- `code.strip().upper()` -/
def presented (code : String) : String := String.ofList ((stripBy AskUser.pySpace code.toList).flatMap upper)

/-- The checks of `bind_owner_with_code`. -/
def accepts (row : FeishuRow) (code unionId : String) (now : Nat) : Bool :=
  code ≠ "" && unionId ≠ "" &&
    match row.linkCodeHash, row.linkCodeExpiresAt with
    | some stored, some expires => stored ≠ "" && stored = codeHash (presented code) && !(expires < now)
    | _, _ => false

def owner (unionId openId : String) (now : Nat) : FeishuFields where
  ownerUnionId := some unionId
  ownerOpenId := some openId
  ownerBoundAt := some (some now)
  linkCodeHash := some none
  linkCodeExpiresAt := some none

/-- One call of the repository, at the time of the clock. -/
def act (s : ChannelStore) (call : ChannelCall) (now : Nat) : Option (ChannelStore × ChannelCall) :=
  match call with
  | .checking accountId code unionId openId =>
    match s.feishuGet accountId with
    | none => some (s, .ended)
    | some row =>
      if accepts row code unionId now then
        some (s, .writeDesired accountId (owner unionId openId now))
      else some (s, .ended)
  | .writeDesired accountId fields =>
    some (s, .merging accountId fields s.groupGloballyDisabled)
  | .merging accountId fields groupDisabled =>
    if fields = {} then some (s, .ended)
    else some (s, .upserting accountId fields (fields.over (s.current accountId)) groupDisabled)
  | .upserting accountId fields merged groupDisabled =>
    let written := { fields with desiredDigest := some (digest merged.digestCols groupDisabled) }
    some ((s.feishuUpsert accountId written).getD s, .ended)
  | .setting groupChatDisabled updatedBy =>
    if groupChatDisabled = none ∧ updatedBy = "" then some (s, .ended)
    else some (s.channelPlatformUpsert groupChatDisabled updatedBy,
      if groupChatDisabled = none then .ended else .recomputing)
  | .recomputing => some (s, .listing s.groupGloballyDisabled)
  | .listing groupDisabled => some (s, .rewriting groupDisabled s.feishuList)
  | .rewriting _ [] => some (s, .ended)
  | .rewriting groupDisabled (row :: rest) =>
    let fresh := digest row.digestCols groupDisabled
    if fresh ≠ row.desiredDigest.getD "" then
      match s.feishuUpsert row.accountId { desiredDigest := some fresh } with
      | none => some (s, .ended)
      | some s' => some (s', .rewriting groupDisabled rest)
    else some (s, .rewriting groupDisabled rest)
  | .ended => none

end ChannelCall

def channelProgram : Program ChannelStore ChannelCall ChannelRequest Nat Empty where
  enter := ChannelCall.enter
  act := ChannelCall.act
  outside := fun _ event => nomatch event

end PrivaCloud.DataSpine
