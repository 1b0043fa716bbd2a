import PrivaCloud.Framework.Lines
import PrivaCloud.Framework.Table

/-!
# The accounts of the control panel

The account records as the control panel reads them from the data plane. A record without an account id
has the empty one.
-/

namespace PrivaCloud.ControlPanel

open Framework

inductive Role
  | admin
  | user
  deriving DecidableEq

inductive AccountStatus
  | active
  | disabled
  | offboarding
  | purged
  deriving DecidableEq

inductive RunnerType
  | autoScale
  | persistent
  deriving DecidableEq

structure UserRecord where
  accountId : String
  username : Text
  role : Role := .user
  status : AccountStatus := .active
  agentRunnerType : RunnerType := .autoScale
  passwordEpoch : Text := []
  apiKey : Option Text := none
  deriving DecidableEq

abbrev Accounts : Type := Table UserRecord.accountId

namespace Accounts

variable (t : Accounts)

def getUser (username : Text) : Option UserRecord := t.rows.find? (·.username = username)

def findByApiKey (key : Text) : Option UserRecord := t.rows.find? (·.apiKey = some key)

theorem getUser_username {t : Accounts} {username : Text} {user : UserRecord} (h : t.getUser username = some user) :
    user.username = username := by
  simpa using List.find?_some h

theorem mem_of_getUser {t : Accounts} {username : Text} {user : UserRecord} (h : t.getUser username = some user) :
    user ∈ t.rows := List.mem_of_find?_eq_some h

end Accounts

end PrivaCloud.ControlPanel
