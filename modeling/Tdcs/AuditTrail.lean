import Tdcs.Sessions
import Tdcs.Lib.Json

/-!
What the audit log tells of the users.

Each request that changes a user writes a row in a second transaction, whose failure nobody sees.
The rows are texts, and reading them in order gives the accounts back: their names, their roles,
and which of them are enabled.
-/

namespace Tdcs.AuditTrail

open Tdcs.Lib Tdcs.Lib.Run Tdcs.Lib.Json Tdcs.Lib.Transaction Tdcs.Users

/-- A row of `audit_log`. -/
structure AuditRow where
  userId : ℕ
  username : String
  userIp : String
  action : String
  target : String
  detail : List Char

structure World where
  state : State
  log : List AuditRow

/-- A request of the user API, the address it comes from, and how the transaction of `_audit`
ends. -/
structure Request where
  event : Event
  remoteAddr : String
  audit : Outcome

variable {F : Type*} (fmt : FloatFormat F) (o : Outside)

def target (userId : ℕ) : String := "users/" ++ toString userId

/-- `_audit`. -/
def audit (me : Option Token) (q : Request) (action target : String)
    (detail : List (String × Value F)) (log : List AuditRow) : List AuditRow :=
  match me, q.audit with
  | none, _ => log
  | _, .raised false => log
  | some me, _ => log ++
      [⟨me.sub, me.username, q.remoteAddr, action, target, print fmt true (.obj detail)⟩]

def roleText : Role → String
  | .viewer => "viewer"
  | .operator => "operator"
  | .admin => "admin"

/-- The row behind a response, if the request comes to the call of `_audit`. -/
def record (q : Request) (r : Response) (s : State) (log : List AuditRow) : List AuditRow :=
  match q.event, r with
  | .createUser me .., .created id username role =>
    audit fmt me q "user.create" (target id)
      [("username", .str username), ("role", .str (roleText role))] log
  | .deleteUser me userId _, .deleted _ =>
    match s.users.get? userId with
    | none => log
    | some u => audit fmt me q "user.delete" (target userId) [("username", .str u.username)] log
  | .changePassword me userId .., .passwordChanged =>
    audit fmt me q "user.password_change" (target userId)
      [("by_admin", .bool (me.any fun t => t.role = .admin))] log
  | .changeRole me userId _ _, .roleChanged role =>
    audit fmt me q "user.role_change" (target userId) [("new_role", .str (roleText role))] log
  | _, _ => log

def respond (s : State) : Event → Response
  | .tick _ => .raised
  | .login ip username password db => (login o ip username password db s).1
  | .createUser me username password role salt db =>
    (createUser o me username password role salt db s).1
  | .deleteUser me userId db => (deleteUser me userId db s).1
  | .changePassword me userId oldPassword newPassword salt db =>
    (changePassword o me userId oldPassword newPassword salt db s).1
  | .changeRole me userId role db => (changeRole o me userId role db s).1

def step (w : World) (q : Request) : World where
  state := Users.step o w.state q.event
  log := record fmt q (respond o w.state q.event) w.state w.log

/-! ### Reading the log -/

structure Account where
  username : String
  role : Role
  enabled : Bool

def account (u : User) : Account := ⟨u.username, u.role, u.enabled⟩

def State.accounts (s : State) : Dict ℕ Account := s.users.mapValues fun _ u => account u

/-- The user a target names. -/
def userOf (target : String) : Option ℕ :=
  if "users/".toList <+: target.toList then
    some (Nat.ofDigitChars 10 (target.toList.drop "users/".toList.length) 0)
  else none

/-- The text at `key` in the detail of a row. -/
def field (key : String) (row : AuditRow) : Option String :=
  match parse fmt row.detail with
  | some (.obj m) =>
    match Dict.lookup key m with
    | some (.str s) => some s
    | _ => none
  | _ => none

/-- What a row says has become of the account, if it says so. -/
def accountAfter (old : Option Account) (row : AuditRow) : Option Account :=
  if row.action = "user.create" then do
    let username ← field fmt "username" row
    let role ← (field fmt "role" row).bind Role.ofString?
    some ⟨username, role, true⟩
  else if row.action = "user.delete" then old.map fun a => { a with enabled := false }
  else if row.action = "user.role_change" then do
    let a ← old
    let role ← (field fmt "new_role" row).bind Role.ofString?
    some { a with role }
  else none

def readRow (accounts : Dict ℕ Account) (row : AuditRow) : Dict ℕ Account :=
  match userOf row.target with
  | none => accounts
  | some id =>
    match accountAfter fmt (accounts.get? id) row with
    | none => accounts
    | some a => accounts.set id a

def start (passwordHash : String) : World := ⟨init passwordHash, []⟩

/-- How the transaction of a request ends. -/
def outcome : Event → Outcome
  | .tick _ => .done
  | .login _ _ _ db | .createUser _ _ _ _ _ db | .deleteUser _ _ db
  | .changePassword _ _ _ _ _ db | .changeRole _ _ _ db => db

variable {fmt o} {w : World} {q : Request} {s : State}

/-! ### A row -/

lemma userOf_target (id : ℕ) : userOf (target id) = some id := by
  have htext : (target id).toList = "users/".toList ++ Nat.toDigits 10 id := by
    simp [target, toString, Nat.repr]
  unfold userOf
  rw [htext, if_pos (List.prefix_append _ _), List.drop_left, Nat.ofDigitChars_ten_toDigits]

lemma ofString?_roleText (r : Role) : Role.ofString? (roleText r) = some r := by
  cases r <;> rfl

/-- The row `audit` writes for the sender `me`. -/
def rowOf (fmt : FloatFormat F) (me : Token) (q : Request) (action target : String)
    (detail : List (String × Value F)) : AuditRow :=
  ⟨me.sub, me.username, q.remoteAddr, action, target, print fmt true (.obj detail)⟩

@[simp] lemma rowOf_action (me : Token) (q : Request) (action target : String)
    (detail : List (String × Value F)) :
    (rowOf fmt me q action target detail).action = action := rfl

@[simp] lemma rowOf_target (me : Token) (q : Request) (action target : String)
    (detail : List (String × Value F)) :
    (rowOf fmt me q action target detail).target = target := rfl

lemma audit_some (me : Token) (q : Request) (action target : String)
    (detail : List (String × Value F)) (log : List AuditRow) :
    audit fmt (some me) q action target detail log =
      if q.audit = .raised false then log else log ++ [rowOf fmt me q action target detail] := by
  unfold audit rowOf
  rcases q.audit with _ | _ | _ <;> simp

lemma field_rowOf (me : Token) (q : Request) (action target : String)
    (detail : List (String × Value F)) (hd : Distinct (.obj detail)) (key : String) :
    field fmt key (rowOf fmt me q action target detail) =
      match Dict.lookup key detail with
      | some (.str s) => some s
      | _ => none := by
  unfold field rowOf
  rw [parse_print fmt true _ hd]

lemma readRow_rowOf {accounts : Dict ℕ Account} {me : Token} {q : Request} {action : String}
    {id : ℕ} {detail : List (String × Value F)} {a : Account}
    (h : accountAfter fmt (accounts.get? id) (rowOf fmt me q action (target id) detail) = some a) :
    readRow fmt accounts (rowOf fmt me q action (target id) detail) = accounts.set id a := by
  unfold readRow
  rw [rowOf_target, userOf_target]
  dsimp only
  rw [h]

lemma readRow_create (accounts : Dict ℕ Account) (me : Token) (q : Request) (id : ℕ)
    (username : String) (role : Role) :
    readRow fmt accounts (rowOf fmt me q "user.create" (target id)
      [("username", .str username), ("role", .str (roleText role))]) =
        accounts.set id ⟨username, role, true⟩ := by
  apply readRow_rowOf
  have hd : Distinct (Value.obj (F := F)
      [("username", .str username), ("role", .str (roleText role))]) := by
    simp [Distinct, DistinctMembers]
  unfold accountAfter
  rw [rowOf_action, if_pos rfl, field_rowOf _ _ _ _ _ hd, field_rowOf _ _ _ _ _ hd]
  simp [Dict.lookup, ofString?_roleText]

lemma readRow_delete {accounts : Dict ℕ Account} {id : ℕ} {a : Account}
    (h : accounts.get? id = some a) (me : Token) (q : Request) (username : String) :
    readRow fmt accounts (rowOf fmt me q "user.delete" (target id)
      [("username", .str username)]) = accounts.set id { a with enabled := false } := by
  apply readRow_rowOf
  rw [h]
  rfl

lemma readRow_role {accounts : Dict ℕ Account} {id : ℕ} {a : Account}
    (h : accounts.get? id = some a) (me : Token) (q : Request) (role : Role) :
    readRow fmt accounts (rowOf fmt me q "user.role_change" (target id)
      [("new_role", .str (roleText role))]) = accounts.set id { a with role } := by
  apply readRow_rowOf
  have hd : Distinct (Value.obj (F := F) [("new_role", .str (roleText role))]) := by
    simp [Distinct, DistinctMembers]
  have hne : "user.role_change" ≠ "user.create" ∧ "user.role_change" ≠ "user.delete" := by decide
  unfold accountAfter
  rw [h, rowOf_action, if_neg hne.1, if_neg hne.2, if_pos rfl, field_rowOf _ _ _ _ _ hd]
  simp [Dict.lookup, ofString?_roleText]

lemma readRow_password (accounts : Dict ℕ Account) (me : Token) (q : Request) (id : ℕ)
    (detail : List (String × Value F)) :
    readRow fmt accounts (rowOf fmt me q "user.password_change" (target id) detail) =
      accounts := by
  have hnone : accountAfter fmt (accounts.get? id)
      (rowOf fmt me q "user.password_change" (target id) detail) = none := rfl
  unfold readRow
  rw [rowOf_target, userOf_target]
  dsimp only
  rw [hnone]

/-! ### A request -/

/-- What a request comes to: nothing, or one row of the table in one transaction, and one row of the
log that says so in another. -/
inductive Effect (fmt : FloatFormat F) (w : World) (q : Request) (w' : World) : Prop
  | quiet (haccounts : State.accounts w'.state = State.accounts w.state) (hlog : w'.log = w.log)
  | change (accounts : Dict ℕ Account) (row : AuditRow)
      (hrow : readRow fmt (State.accounts w.state) row = accounts)
      (haccounts : State.accounts w'.state =
        if outcome q.event = .raised false then State.accounts w.state else accounts)
      (hlog : w'.log = if outcome q.event ≠ .done ∨ q.audit = .raised false then w.log
        else w.log ++ [row])

lemma accounts_commit (db : Outcome) (s s' : State) :
    State.accounts (db.commit s s') =
      if db = .raised false then State.accounts s else State.accounts s' := by
  rcases db with _ | _ | _ <;> rfl

lemma accounts_setUser (s : State) (id : ℕ) (u : User) :
    State.accounts (s.setUser id u) = (State.accounts s).set id (account u) :=
  Dict.mapValues_set _ _ _ _

lemma get?_accounts {id : ℕ} {u : User} (h : s.users.get? id = some u) :
    (State.accounts s).get? id = some (account u) := by
  rw [State.accounts, Dict.get?_mapValues, h]
  rfl

lemma record_of_refuses {r : Response} (h : r.Refuses) (q : Request) (s : State)
    (log : List AuditRow) : record fmt q r s log = log := by
  unfold record
  cases h <;> cases q.event <;> rfl

lemma record_answer {me : Token} {action target : String} {detail : List (String × Value F)}
    {db : Outcome} {log : List AuditRow} {r e : Response}
    (hr : record fmt q r s log = audit fmt (some me) q action target detail log)
    (he : e.Refuses) :
    record fmt q (db.answer r e) s log = if db ≠ .done ∨ q.audit = .raised false then log
      else log ++ [rowOf fmt me q action target detail] := by
  rcases db with _ | applied
  · rw [Outcome.answer, hr, audit_some]
    simp
  · rw [Outcome.answer, record_of_refuses he, if_pos]
    simp

lemma Effect.refused {r : Response} (h : r.Refuses) (q : Request) (w : World) :
    Effect fmt w q ⟨w.state, record fmt q r w.state w.log⟩ :=
  .quiet rfl (record_of_refuses h q w.state w.log)

lemma effect_createUser (w : World) (me : Option Token) (username password role : Option String)
    (salt : ℕ) (db : Outcome) (addr : String) (out : Outcome) :
    Effect fmt w ⟨.createUser me username password role salt db, addr, out⟩
      (step fmt o w ⟨.createUser me username password role salt db, addr, out⟩) := by
  unfold step
  dsimp only [respond, Users.step]
  unfold createUser
  split
  · next hauth => exact .refused (requireAuth_error hauth) _ _
  next t hauth =>
  obtain ⟨rfl, -⟩ := Sessions.requireAuth_ok hauth
  dsimp only
  split
  · exact .refused (.error _ _ _) _ _
  split
  · exact .refused (.error _ _ _) _ _
  split
  · exact .refused (.error _ _ _) _ _
  split
  · exact .refused (.error _ _ _) _ _
  split
  · exact .refused .raised _ _
  split
  · exact .refused (.error _ _ _) _ _
  · refine .change _ _ (readRow_create _ t _ _ _ _) ?_ (record_answer rfl (.error _ _ _))
    rw [accounts_commit]
    exact congrArg _ (accounts_setUser _ _ _)

lemma effect_deleteUser (w : World) (me : Option Token) (userId : ℕ) (db : Outcome)
    (addr : String) (out : Outcome) :
    Effect fmt w ⟨.deleteUser me userId db, addr, out⟩
      (step fmt o w ⟨.deleteUser me userId db, addr, out⟩) := by
  unfold step
  dsimp only [respond, Users.step]
  unfold deleteUser
  split
  · next hauth => exact .refused (requireAuth_error hauth) _ _
  next t hauth =>
  obtain ⟨rfl, -⟩ := Sessions.requireAuth_ok hauth
  split
  · exact .refused (.error _ _ _) _ _
  split
  · exact .refused (.error _ _ _) _ _
  · next u hu =>
    refine .change _ _ (readRow_delete (get?_accounts hu) t _ u.username) ?_
      (record_answer ?_ .raised)
    · rw [accounts_commit]
      exact congrArg _ (accounts_setUser _ _ _)
    · simp only [record, hu]

lemma effect_changeRole (w : World) (me : Option Token) (userId : ℕ) (role : Option String)
    (db : Outcome) (addr : String) (out : Outcome) :
    Effect fmt w ⟨.changeRole me userId role db, addr, out⟩
      (step fmt o w ⟨.changeRole me userId role db, addr, out⟩) := by
  unfold step
  dsimp only [respond, Users.step]
  unfold changeRole
  split
  · next hauth => exact .refused (requireAuth_error hauth) _ _
  next t hauth =>
  obtain ⟨rfl, -⟩ := Sessions.requireAuth_ok hauth
  split
  · exact .refused (.error _ _ _) _ _
  split
  · exact .refused (.error _ _ _) _ _
  split
  · exact .refused (.error _ _ _) _ _
  next u hu =>
  split
  · exact .refused (.error _ _ _) _ _
  · refine .change _ _ (readRow_role (get?_accounts hu) t _ _) ?_ (record_answer rfl .raised)
    rw [accounts_commit]
    exact congrArg _ (accounts_setUser _ _ _)

lemma effect_changePassword (w : World) (me : Option Token) (userId : ℕ)
    (oldPassword newPassword : Option String) (salt : ℕ) (db : Outcome) (addr : String)
    (out : Outcome) :
    Effect fmt w ⟨.changePassword me userId oldPassword newPassword salt db, addr, out⟩
      (step fmt o w ⟨.changePassword me userId oldPassword newPassword salt db, addr, out⟩) := by
  unfold step
  dsimp only [respond, Users.step]
  rcases hauth : requireAuth .viewer me w.state with r | t
  · unfold changePassword
    rw [hauth]
    exact .refused (requireAuth_error hauth) _ _
  obtain ⟨rfl, -⟩ := Sessions.requireAuth_ok hauth
  have h := changes_changePassword (o := o) (some t) userId oldPassword newPassword salt db w.state
  generalize changePassword o (some t) userId oldPassword newPassword salt db w.state = r at h ⊢
  cases h with
  | refused h => exact .refused h _ _
  | written u passwordHash hu =>
    refine .change _ _ (readRow_password _ t _ _ _) ?_ (record_answer rfl .raised)
    rw [accounts_commit, accounts_setUser]
    have hsame := Dict.set_eq_self (get?_accounts hu)
    exact congrArg _ hsame

lemma effect_step (w : World) (q : Request) : Effect fmt w q (step fmt o w q) := by
  rcases q with ⟨e, addr, out⟩
  cases e with
  | tick d => exact .quiet rfl rfl
  | login ip username password db =>
    refine .quiet ?_ rfl
    have hu := (login_snd (o := o) ip username password db w.state).1
    exact congrArg (Dict.mapValues fun _ u => account u) hu
  | createUser me username password role salt db =>
    exact effect_createUser w me username password role salt db addr out
  | deleteUser me userId db => exact effect_deleteUser w me userId db addr out
  | changePassword me userId oldPassword newPassword salt db =>
    exact effect_changePassword w me userId oldPassword newPassword salt db addr out
  | changeRole me userId role db => exact effect_changeRole w me userId role db addr out

/-! ### Runs -/

end Tdcs.AuditTrail
