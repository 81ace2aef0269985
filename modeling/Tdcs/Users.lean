import Tdcs.TableRouter
import Tdcs.Lib.Run
import Tdcs.Lib.Transaction

/-!
The users table, the tokens, and the requests of the user API.

A request is authorised by the token it carries alone: the role and the user's id are those of
the moment the token was issued. Times are microseconds, the times in a token seconds.
-/

namespace Tdcs.Users

open Tdcs.Lib Tdcs.Lib.Run Tdcs.Lib.Transaction

inductive Role | viewer | operator | admin
  deriving DecidableEq, Repr

/-- `ROLE_LEVELS`. -/
def Role.level : Role → ℕ
  | .viewer => 1
  | .operator => 2
  | .admin => 3

/-- The roles in `_VALID_ROLES`. -/
def Role.ofString? (s : String) : Option Role :=
  if s = "admin" then some .admin
  else if s = "operator" then some .operator
  else if s = "viewer" then some .viewer
  else none

structure User where
  username : String
  passwordHash : String
  role : Role
  enabled : Bool := true
  deriving DecidableEq, Repr

/-- The payload of a token. -/
structure Token where
  sub : ℕ
  username : String
  role : Role
  iat : ℕ
  exp : ℕ
  deriving DecidableEq, Repr

/-- `bcrypt`, which may raise, by the password and the salt or the hash; when the collation of
`username` takes two names for one; what an update counts; and `str(_VALID_ROLES)`. -/
structure Outside where
  hashpw : String → ℕ → Option String
  checkpw : String → String → Option Bool
  dummyHash : String
  sameName : String → String → Bool
  foundRows : Bool
  tokenExpireHours : ℕ
  validRoles : String

structure State where
  clock : ℕ
  users : Dict ℕ User
  nextId : ℕ
  /-- The tokens `login` has issued. -/
  issued : List Token
  /-- `_login_attempts`. -/
  attempts : Dict String (List ℕ)

/-- The table as the first migration leaves it. -/
def init (passwordHash : String) : State :=
  ⟨0, Dict.empty.set 1 { username := "admin", passwordHash, role := .admin }, 2, [], Dict.empty⟩

inductive Response
  | error (status : ℕ) (code message : String)
  /-- An exception nothing catches. -/
  | raised
  | token (t : Token)
  | created (id : ℕ) (username : String) (role : Role)
  | deleted (id : ℕ)
  | passwordChanged
  | roleChanged (role : Role)
  deriving DecidableEq, Repr

def State.setUser (s : State) (id : ℕ) (u : User) : State := { s with users := s.users.set id u }

/-- `str.strip()`. -/
def strip (s : String) : String :=
  let cs := s.toList.dropWhile Pipeline.isSpace
  String.ofList (cs.reverse.dropWhile Pipeline.isSpace).reverse

/-- `s or default`. -/
def orElse (s : Option String) (default : String) : String :=
  match s with
  | none => default
  | some s => if s = "" then default else s

/-- `_USERNAME_RE`. -/
def validUsername (s : String) : Bool :=
  3 ≤ s.length && s.length ≤ 32 &&
    s.toList.all fun c => c.isAlphanum || c = '_' || c = '-'

/-! ### Tokens -/

def State.seconds (s : State) : ℕ := s.clock / 1000000

def generateToken (s : State) (userId : ℕ) (username : String) (role : Role) (expireHours : ℕ) :
    Token where
  sub := userId
  username := username
  role := role
  iat := s.seconds
  exp := s.seconds + 3600 * expireHours

/-- `require_auth`: the payload of the token, or the response that refuses the request. -/
def requireAuth (minRole : Role) (token : Option Token) (s : State) : Except Response Token :=
  match token with
  | none => .error (.error 401 "MISSING_TOKEN" "Missing token")
  | some t =>
    if t ∉ s.issued then .error (.error 401 "TOKEN_INVALID" "Invalid token")
    else if t.exp * 1000000 ≤ s.clock then .error (.error 401 "TOKEN_EXPIRED" "Token expired")
    else if t.role.level < minRole.level then
      .error (.error 403 "FORBIDDEN" "Insufficient permissions")
    else .ok t

/-! ### The requests -/

variable (o : Outside)

/-- `_check_login_rate`: five attempts a minute. -/
def checkLoginRate (ip : String) (s : State) : Bool × State :=
  let attempts := ((s.attempts.get? ip).getD []).filter fun t => s.clock - t < 60000000
  if 5 ≤ attempts.length then (false, s)
  else (true, { s with attempts := s.attempts.set ip (attempts ++ [s.clock]) })

/-- The check against `_get_dummy_hash` where there is no such user. -/
def dummyCheck (password : String) : Response :=
  match o.checkpw password o.dummyHash with
  | none => .error 503 "DB_UNAVAILABLE" "Database unavailable"
  | some _ => .error 401 "INVALID_CREDENTIALS" "Invalid credentials"

def login (ip username password : String) (db : Outcome) (s : State) : Response × State :=
  let (allowed, s) := checkLoginRate ip s
  if !allowed then
    (.error 429 "RATE_LIMITED" "Too many login attempts, try again later", s)
  else
    let username := strip username
    let unavailable := Response.error 503 "DB_UNAVAILABLE" "Database unavailable"
    let invalid := Response.error 401 "INVALID_CREDENTIALS" "Invalid credentials"
    if username = "" || password = "" then
      (.error 400 "INVALID_INPUT" "Missing credentials", s)
    else
      match s.users.entries.find? fun p => o.sameName p.2.username username with
      | none => (db.answer (dummyCheck o password) unavailable, s)
      | some (id, u) =>
        if !u.enabled then (db.answer (dummyCheck o password) unavailable, s)
        else
          match o.checkpw password u.passwordHash with
          | none => (unavailable, s)
          | some false => (db.answer invalid unavailable, s)
          | some true =>
            match db with
            | .raised _ => (unavailable, s)
            | .done =>
              let t := generateToken s id username u.role o.tokenExpireHours
              (.token t, { s with issued := s.issued ++ [t] })

def createUser (me : Option Token) (username password role : Option String) (salt : ℕ)
    (db : Outcome) (s : State) : Response × State :=
  match requireAuth .admin me s with
  | .error r => (r, s)
  | .ok _ =>
    let username := strip (username.getD "")
    let password := password.getD ""
    let role := strip (orElse role "viewer")
    if username = "" then (.error 400 "VALIDATION_ERROR" "用户名不能为空", s)
    else if !validUsername username then
      (.error 400 "VALIDATION_ERROR" "用户名只允许字母、数字、下划线和连字符，长度 3-32", s)
    else if password.length < 6 then (.error 400 "VALIDATION_ERROR" "密码至少 6 位", s)
    else
      match Role.ofString? role with
      | none => (.error 400 "VALIDATION_ERROR" ("角色必须是 " ++ o.validRoles ++ " 之一"), s)
      | some role =>
        match o.hashpw password salt with
        | none => (.raised, s)
        | some passwordHash =>
          if s.users.values.any fun u => o.sameName u.username username then
            (.error 409 "USERNAME_EXISTS" ("用户名 '" ++ username ++ "' 已存在"), s)
          else
            (db.answer (.created s.nextId username role) (.error 500 "DB_ERROR" "创建用户失败"),
              db.commit s { s.setUser s.nextId { username, passwordHash, role } with
                nextId := s.nextId + 1 })

def deleteUser (me : Option Token) (userId : ℕ) (db : Outcome) (s : State) : Response × State :=
  match requireAuth .admin me s with
  | .error r => (r, s)
  | .ok me =>
    if userId = me.sub then (.error 400 "CANNOT_DELETE_SELF" "不能删除自己", s)
    else
      match s.users.get? userId with
      | none => (.error 404 "USER_NOT_FOUND" "用户不存在", s)
      | some u => (db.answer (.deleted userId) .raised,
          db.commit s (s.setUser userId { u with enabled := false }))

def changePassword (me : Option Token) (userId : ℕ) (oldPassword newPassword : Option String)
    (salt : ℕ) (db : Outcome) (s : State) : Response × State :=
  match requireAuth .viewer me s with
  | .error r => (r, s)
  | .ok me =>
    let isAdmin := me.role = .admin
    let isSelf := userId = me.sub
    let newPw := newPassword.getD ""
    if ¬ isAdmin ∧ ¬ isSelf then (.error 403 "FORBIDDEN" "只能修改自己的密码", s)
    else if newPw.length < 6 then (.error 400 "VALIDATION_ERROR" "新密码至少 6 位", s)
    else if 72 < newPw.length then
      (.error 400 "VALIDATION_ERROR" "密码最长 72 位（bcrypt 限制）", s)
    else if ¬ isAdmin then
      match s.users.get? userId with
      | none => (.error 404 "USER_NOT_FOUND" "用户不存在", s)
      | some u =>
        if !u.enabled then (.error 404 "USER_NOT_FOUND" "用户不存在", s)
        else
          match o.checkpw (oldPassword.getD "") u.passwordHash, o.hashpw newPw salt with
          | none, _ => (.raised, s)
          | some false, _ => (.error 401 "WRONG_PASSWORD" "旧密码错误", s)
          | some true, none => (.raised, s)
          | some true, some passwordHash => (db.answer .passwordChanged .raised,
              db.commit s (s.setUser userId { u with passwordHash }))
    else
      match o.hashpw newPw salt with
      | none => (.raised, s)
      | some passwordHash =>
        match s.users.get? userId with
        | none => (.error 404 "USER_NOT_FOUND" "用户不存在", s)
        | some u =>
          if !o.foundRows && u.passwordHash = passwordHash then
            (.error 404 "USER_NOT_FOUND" "用户不存在", s)
          else (db.answer .passwordChanged .raised,
            db.commit s (s.setUser userId { u with passwordHash }))

def changeRole (me : Option Token) (userId : ℕ) (role : Option String) (db : Outcome)
    (s : State) : Response × State :=
  match requireAuth .admin me s with
  | .error r => (r, s)
  | .ok me =>
    if userId = me.sub then (.error 400 "CANNOT_CHANGE_SELF_ROLE" "不能修改自己的角色", s)
    else
      match Role.ofString? (strip (role.getD "")) with
      | none => (.error 400 "VALIDATION_ERROR"
          "角色必须是 ['admin', 'operator', 'viewer'] 之一", s)
      | some role =>
        match s.users.get? userId with
        | none => (.error 404 "USER_NOT_FOUND" "用户不存在", s)
        | some u =>
          if !o.foundRows && u.role = role then (.error 404 "USER_NOT_FOUND" "用户不存在", s)
          else (db.answer (.roleChanged role) .raised,
            db.commit s (s.setUser userId { u with role }))

inductive Event
  | tick (d : ℕ)
  | login (ip username password : String) (db : Outcome)
  | createUser (me : Option Token) (username password role : Option String) (salt : ℕ)
      (db : Outcome)
  | deleteUser (me : Option Token) (userId : ℕ) (db : Outcome)
  | changePassword (me : Option Token) (userId : ℕ) (oldPassword newPassword : Option String)
      (salt : ℕ) (db : Outcome)
  | changeRole (me : Option Token) (userId : ℕ) (role : Option String) (db : Outcome)

def step (s : State) : Event → State
  | .tick d => { s with clock := s.clock + d }
  | .login ip username password db => (login o ip username password db s).2
  | .createUser me username password role salt db =>
    (createUser o me username password role salt db s).2
  | .deleteUser me userId db => (deleteUser me userId db s).2
  | .changePassword me userId oldPassword newPassword salt db =>
    (changePassword o me userId oldPassword newPassword salt db s).2
  | .changeRole me userId role db => (changeRole o me userId role db s).2

/-! ### Administrators -/

def User.isAdmin (u : User) : Bool := u.enabled && u.role = .admin

/-- The user is enabled and an administrator. -/
def State.isAdmin (s : State) (id : ℕ) : Bool := (s.users.get? id).any User.isAdmin

def HasAdmin (s : State) : Prop := ∃ id, s.isAdmin id = true

/-- Who takes the rights of which enabled administrator away, if the request is let through and
does that. -/
def State.removal (s : State) : Event → Option (ℕ × ℕ)
  | .deleteUser me userId db =>
    match requireAuth .admin me s with
    | .error _ => none
    | .ok me =>
      if userId ≠ me.sub ∧ s.isAdmin userId = true ∧ db ≠ .raised false then some (me.sub, userId)
      else none
  | .changeRole me userId role db =>
    match requireAuth .admin me s, Role.ofString? (strip (role.getD "")) with
    | .ok me, some role =>
      if userId ≠ me.sub ∧ role ≠ .admin ∧ s.isAdmin userId = true ∧ db ≠ .raised false then
        some (me.sub, userId)
      else none
    | _, _ => none
  | _ => none

/-- One who is no enabled administrator any more, but holds a token that says so, takes the
rights of the only one away. -/
def StaleRemoval (s : State) (e : Event) : Prop :=
  ∃ sender target, s.removal e = some (sender, target) ∧ s.isAdmin sender = false ∧
    ∀ id, s.isAdmin id = true → id = target

variable {o} {s : State} {e : Event}

lemma isAdmin_setUser (id : ℕ) (u : User) (j : ℕ) :
    (s.setUser id u).isAdmin j = if j = id then u.isAdmin else s.isAdmin j := by
  unfold State.isAdmin State.setUser
  by_cases h : j = id
  · simp [h]
  · rw [if_neg h]
    dsimp only
    rw [Dict.get?_set_of_ne _ _ h]

lemma isAdmin_of_get? {id : ℕ} {u : User} (h : s.users.get? id = some u) :
    s.isAdmin id = u.isAdmin := by
  simp [State.isAdmin, h]

lemma commit_of_ne {db : Outcome} (h : db ≠ .raised false) (s s' : State) :
    db.commit s s' = s' := by
  rcases db with _ | _ | _
  · rfl
  · exact absurd rfl h
  · rfl

/-! ### What the requests come to -/

/-- The response of a request that is not carried out. -/
inductive Response.Refuses : Response → Prop
  | error (status : ℕ) (code message : String) : Refuses (.error status code message)
  | raised : Refuses .raised

lemma requireAuth_error {minRole : Role} {me : Option Token} {r : Response}
    (h : requireAuth minRole me s = .error r) : r.Refuses := by
  unfold requireAuth at h
  split at h
  · cases h
    exact .error _ _ _
  · split_ifs at h <;>
    · cases h
      exact .error _ _ _

/-- `create_user` refuses, or writes the row of a new user. -/
inductive Creates (o : Outside) (password : Option String) (salt : ℕ) (db : Outcome) (s : State) :
    Response × State → Prop
  | refused {r : Response} (h : r.Refuses) : Creates o password salt db s (r, s)
  | written (username passwordHash : String) (role : Role)
      (h : o.hashpw (password.getD "") salt = some passwordHash) :
      Creates o password salt db s
        (db.answer (.created s.nextId username role) (.error 500 "DB_ERROR" "创建用户失败"),
          db.commit s { s.setUser s.nextId { username, passwordHash, role } with
            nextId := s.nextId + 1 })

lemma creates_createUser (me : Option Token) (username password role : Option String) (salt : ℕ)
    (db : Outcome) (s : State) :
    Creates o password salt db s (createUser o me username password role salt db s) := by
  unfold createUser
  split
  · next hauth => exact .refused (requireAuth_error hauth)
  dsimp only
  split
  · exact .refused (.error _ _ _)
  split
  · exact .refused (.error _ _ _)
  split
  · exact .refused (.error _ _ _)
  split
  · exact .refused (.error _ _ _)
  split
  · exact .refused .raised
  · next hhash =>
    split
    · exact .refused (.error _ _ _)
    · exact .written _ _ _ hhash

/-- `change_password` refuses, or writes the hash into the row of the user. -/
inductive Changes (o : Outside) (userId : ℕ) (newPassword : Option String) (salt : ℕ)
    (db : Outcome) (s : State) : Response × State → Prop
  | refused {r : Response} (h : r.Refuses) : Changes o userId newPassword salt db s (r, s)
  | written (u : User) (passwordHash : String) (hu : s.users.get? userId = some u)
      (h : o.hashpw (newPassword.getD "") salt = some passwordHash) :
      Changes o userId newPassword salt db s
        (db.answer .passwordChanged .raised,
          db.commit s (s.setUser userId { u with passwordHash }))

lemma changes_changePassword (me : Option Token) (userId : ℕ)
    (oldPassword newPassword : Option String) (salt : ℕ) (db : Outcome) (s : State) :
    Changes o userId newPassword salt db s
      (changePassword o me userId oldPassword newPassword salt db s) := by
  unfold changePassword
  split
  · next hauth => exact .refused (requireAuth_error hauth)
  dsimp only
  split
  · exact .refused (.error _ _ _)
  split
  · exact .refused (.error _ _ _)
  split
  · exact .refused (.error _ _ _)
  split
  · -- the user's own
    split
    · exact .refused (.error _ _ _)
    · next u hu =>
      split
      · exact .refused (.error _ _ _)
      split
      · exact .refused .raised
      · exact .refused (.error _ _ _)
      · exact .refused .raised
      · next hhash => exact .written u _ hu hhash
  · split
    · exact .refused .raised
    · next hhash =>
      split
      · exact .refused (.error _ _ _)
      · next u hu =>
        split
        · exact .refused (.error _ _ _)
        · exact .written u _ hu hhash

lemma checkLoginRate_snd (ip : String) (s : State) :
    (checkLoginRate ip s).2.users = s.users ∧ (checkLoginRate ip s).2.nextId = s.nextId := by
  unfold checkLoginRate
  dsimp only
  split_ifs <;> exact ⟨rfl, rfl⟩

lemma login_snd (ip username password : String) (db : Outcome) (s : State) :
    (login o ip username password db s).2.users = s.users ∧
      (login o ip username password db s).2.nextId = s.nextId := by
  have hrate := checkLoginRate_snd ip s
  unfold login
  dsimp only
  split
  · exact hrate
  split
  · exact hrate
  split
  · exact hrate
  split
  · exact hrate
  split
  · exact hrate
  · exact hrate
  · split <;> exact hrate

/-! ### What a request does to the table -/

/-- Ids from `nextId` on are free. -/
def Fresh (s : State) : Prop := ∀ id, s.nextId ≤ id → s.users.get? id = none

/-- The table as a request leaves it that takes no rights away. -/
inductive Harmless (s : State) : State → Prop
  | same (s' : State) (hu : s'.users = s.users) (hn : s'.nextId = s.nextId) : Harmless s s'
  | create (u : User) : Harmless s { s.setUser s.nextId u with nextId := s.nextId + 1 }
  | update (id : ℕ) (u u' : User) (h : s.users.get? id = some u)
      (hkeep : u.isAdmin = true → u'.isAdmin = true) : Harmless s (s.setUser id u')

lemma Harmless.refl (s : State) : Harmless s s := .same s rfl rfl

lemma Harmless.commit {s' : State} (h : Harmless s s') (db : Outcome) :
    Harmless s (db.commit s s') := by
  rcases db with _ | _ | _
  · exact h
  · exact .refl s
  · exact h

lemma Harmless.isAdmin {s' : State} (h : Harmless s s') (hf : Fresh s) {id : ℕ}
    (ha : s.isAdmin id = true) : s'.isAdmin id = true := by
  cases h with
  | same _ hu hn => rwa [State.isAdmin, hu]
  | create u =>
    have hne : id ≠ s.nextId := by
      rintro rfl
      simp [State.isAdmin, hf _ le_rfl] at ha
    have h := isAdmin_setUser (s := s) s.nextId u id
    rw [if_neg hne] at h
    exact h.trans ha
  | update id' u u' h hkeep =>
    rw [isAdmin_setUser]
    split_ifs with hid
    · subst hid
      exact hkeep ((isAdmin_of_get? h).symm.trans ha)
    · exact ha

lemma fresh_setUser (hf : Fresh s) {id : ℕ} {u : User} (h : s.users.get? id = some u) (u' : User) :
    Fresh (s.setUser id u') := by
  intro j hj
  have hne : j ≠ id := by
    rintro rfl
    rw [hf j hj] at h
    cases h
  exact (Dict.get?_set_of_ne _ _ hne).trans (hf j hj)

lemma Harmless.fresh {s' : State} (h : Harmless s s') (hf : Fresh s) : Fresh s' := by
  cases h with
  | same _ hu hn =>
    intro j hj
    rw [hu]
    exact hf j (hn ▸ hj)
  | create u =>
    intro j hj
    have hlt : s.nextId < j := hj
    exact (Dict.get?_set_of_ne _ _ hlt.ne').trans (hf j hlt.le)
  | update id u u' h _ => exact fresh_setUser hf h u'

lemma harmless_login (ip username password : String) (db : Outcome) (s : State) :
    Harmless s (login o ip username password db s).2 := by
  obtain ⟨hu, hn⟩ := login_snd (o := o) ip username password db s
  exact .same _ hu hn

lemma harmless_createUser (me : Option Token) (username password role : Option String) (salt : ℕ)
    (db : Outcome) (s : State) :
    Harmless s (createUser o me username password role salt db s).2 := by
  have h := creates_createUser (o := o) me username password role salt db s
  generalize createUser o me username password role salt db s = r at h ⊢
  cases h with
  | refused => exact .refl s
  | written => exact (Harmless.create _).commit db

lemma harmless_changePassword (me : Option Token) (userId : ℕ)
    (oldPassword newPassword : Option String) (salt : ℕ) (db : Outcome) (s : State) :
    Harmless s (changePassword o me userId oldPassword newPassword salt db s).2 := by
  have h := changes_changePassword (o := o) me userId oldPassword newPassword salt db s
  generalize changePassword o me userId oldPassword newPassword salt db s = r at h ⊢
  cases h with
  | refused => exact .refl s
  | written u passwordHash hu =>
    exact (Harmless.update userId u { u with passwordHash } hu id).commit db

/-- What a step does: it takes no rights away, or those of one administrator, another than the
sender. -/
inductive Effect (o : Outside) (s : State) (e : Event) : Prop
  | harmless (hr : s.removal e = none) (h : Harmless s (step o s e))
  | remove (sender target : ℕ) (hr : s.removal e = some (sender, target)) (hne : target ≠ sender)
      (u u' : User) (hu : s.users.get? target = some u) (hu' : u'.isAdmin = false)
      (h : step o s e = s.setUser target u')

lemma effect_of_update {me : Token} {userId : ℕ} {u u' : User} {db : Outcome}
    (hself : userId ≠ me.sub) (hu : s.users.get? userId = some u)
    (hstep : step o s e = db.commit s (s.setUser userId u'))
    (hr : s.removal e = if userId ≠ me.sub ∧ s.isAdmin userId = true ∧ db ≠ .raised false then
      some (me.sub, userId) else none) (hu' : u'.isAdmin = false) : Effect o s e := by
  by_cases hdb : db = .raised false
  · refine .harmless (by simp [hr, hdb]) ?_
    rw [hstep, hdb]
    exact .refl s
  rw [commit_of_ne hdb] at hstep
  rcases ha : s.isAdmin userId with _ | _
  · refine .harmless (by simp [hr, ha]) ?_
    rw [hstep]
    refine .update userId u u' hu fun h => ?_
    rw [← isAdmin_of_get? hu, ha] at h
    cases h
  · exact .remove me.sub userId (by simp [hr, ha, hdb, hself]) hself u u' hu hu' hstep

/-- **The step lemma.** -/
theorem effect_step (o : Outside) (s : State) (e : Event) : Effect o s e := by
  cases e with
  | tick d => exact .harmless rfl (.same _ rfl rfl)
  | login ip username password db => exact .harmless rfl (harmless_login ip username password db s)
  | createUser me username password role salt db =>
    exact .harmless rfl (harmless_createUser me username password role salt db s)
  | changePassword me userId oldPassword newPassword salt db =>
    exact .harmless rfl (harmless_changePassword me userId oldPassword newPassword salt db s)
  | deleteUser me userId db =>
    rcases hauth : requireAuth .admin me s with r | t
    · refine .harmless (by simp [State.removal, hauth]) ?_
      simp only [step, deleteUser, hauth]
      exact .refl s
    · have hr : s.removal (.deleteUser me userId db) = if userId ≠ t.sub ∧
          s.isAdmin userId = true ∧ db ≠ .raised false then some (t.sub, userId) else none := by
        simp only [State.removal, hauth]
      by_cases hself : userId = t.sub
      · refine .harmless (hr.trans (if_neg fun h => h.1 hself)) ?_
        simp only [step, deleteUser, hauth, if_pos hself]
        exact .refl s
      rcases hu : s.users.get? userId with _ | u
      · refine .harmless (by simp [hr, State.isAdmin, hu]) ?_
        simp only [step, deleteUser, hauth, if_neg hself, hu]
        exact .refl s
      · have hstep : step o s (.deleteUser me userId db) =
            db.commit s (s.setUser userId { u with enabled := false }) := by
          simp only [step, deleteUser, hauth, if_neg hself, hu]
        exact effect_of_update hself hu hstep hr rfl
  | changeRole me userId role db =>
    rcases hauth : requireAuth .admin me s with r | t
    · refine .harmless (by simp [State.removal, hauth]) ?_
      simp only [step, changeRole, hauth]
      exact .refl s
    rcases hrole : Role.ofString? (strip (role.getD "")) with _ | new
    · refine .harmless (by simp [State.removal, hauth, hrole]) ?_
      simp only [step, changeRole, hauth, hrole]
      split_ifs <;> exact .refl s
    · have hr : s.removal (.changeRole me userId role db) = if userId ≠ t.sub ∧ new ≠ .admin ∧
          s.isAdmin userId = true ∧ db ≠ .raised false then some (t.sub, userId) else none := by
        simp only [State.removal, hauth, hrole]
      by_cases hself : userId = t.sub
      · refine .harmless (hr.trans (if_neg fun h => h.1 hself)) ?_
        simp only [step, changeRole, hauth, if_pos hself]
        exact .refl s
      rcases hu : s.users.get? userId with _ | u
      · refine .harmless (by simp [hr, State.isAdmin, hu]) ?_
        simp only [step, changeRole, hauth, if_neg hself, hrole, hu]
        exact .refl s
      by_cases hsame : (!o.foundRows && u.role = new) = true
      · -- the role is the user's own already
        have hstep : step o s (.changeRole me userId role db) = s := by
          simp only [step, changeRole, hauth, if_neg hself, hrole, hu, hsame, if_true]
        refine .harmless ?_ (by rw [hstep]; exact .refl s)
        rw [hr, if_neg]
        rintro ⟨-, hnew, ha, -⟩
        rw [isAdmin_of_get? hu] at ha
        simp only [User.isAdmin, Bool.and_eq_true, decide_eq_true_eq] at ha hsame
        exact hnew (hsame.2.symm.trans ha.2)
      · have hstep : step o s (.changeRole me userId role db) =
            db.commit s (s.setUser userId { u with role := new }) := by
          simp only [step, changeRole, hauth, if_neg hself, hrole, hu, if_neg hsame]
        by_cases hnew : new = .admin
        · refine .harmless (by simp [hr, hnew]) ?_
          rw [hstep]
          refine (Harmless.update userId u _ hu fun h => ?_).commit db
          simp only [User.isAdmin, Bool.and_eq_true, decide_eq_true_eq] at h ⊢
          exact ⟨h.1, hnew⟩
        · refine effect_of_update hself hu hstep ?_ (by simp [User.isAdmin, hnew])
          rw [hr]
          simp [hnew]

/-! ### Runs -/

lemma fresh_init (passwordHash : String) : Fresh (init passwordHash) := by
  intro id hid
  have hne : id ≠ 1 := by
    rintro rfl
    have : 2 ≤ 1 := hid
    omega
  exact (Dict.get?_set_of_ne _ _ hne).trans rfl

lemma hasAdmin_init (passwordHash : String) : HasAdmin (init passwordHash) := ⟨1, rfl⟩

lemma Fresh.step (hf : Fresh s) (e : Event) : Fresh (step o s e) := by
  rcases effect_step o s e with ⟨-, h⟩ | ⟨-, target, -, -, u, u', hu, -, h⟩
  · exact h.fresh hf
  · rw [h]
    exact fresh_setUser hf hu u'

/-- A request leaves no administrator exactly if it comes from one who is none any more, and takes
the last one's rights. -/
lemma hasAdmin_step (hf : Fresh s) (ha : HasAdmin s) (e : Event) :
    HasAdmin (step o s e) ↔ ¬ StaleRemoval s e := by
  rcases effect_step o s e with ⟨hr, h⟩ | ⟨sender, target, hr, hne, u, u', hu, hu', h⟩
  · obtain ⟨id, hid⟩ := ha
    refine iff_of_true ⟨id, h.isAdmin hf hid⟩ ?_
    rintro ⟨sender, target, hr', -⟩
    rw [hr] at hr'
    cases hr'
  · have hadmin : ∀ id, (step o s e).isAdmin id = true ↔ id ≠ target ∧ s.isAdmin id = true := by
      intro id
      rw [h, isAdmin_setUser]
      split_ifs with hid
      · simp [hid, hu']
      · simp [hid]
    constructor
    · rintro ⟨id, hid⟩ ⟨sender', target', hr', -, hlast⟩
      obtain ⟨rfl, rfl⟩ := Prod.mk.inj (Option.some.inj (hr.symm.trans hr'))
      exact ((hadmin id).mp hid).1 (hlast id ((hadmin id).mp hid).2)
    · intro hno
      by_contra hnone
      have hlast : ∀ id, s.isAdmin id = true → id = target := by
        intro id hid
        by_contra hid'
        exact hnone ⟨id, (hadmin id).mpr ⟨hid', hid⟩⟩
      refine hno ⟨sender, target, hr, ?_, hlast⟩
      -- the guard against removing oneself
      rcases hs : s.isAdmin sender with _ | _
      · rfl
      · exact absurd (hlast sender hs).symm hne

/-- **There is always an administrator**, in a run of requests, exactly if no one who is not an
enabled administrator any more takes the rights of the only one away. -/
theorem always_hasAdmin_iff (o : Outside) (passwordHash : String) (es : List Event) :
    Always (step o) HasAdmin (init passwordHash) es ↔
      Steps (step o) (fun s e => ¬ StaleRemoval s e) (init passwordHash) es :=
  always_iff_steps (P := HasAdmin) (fun _ e hf => Fresh.step hf e)
    (fun _ e hf ha => hasAdmin_step hf ha e)
    (fresh_init passwordHash) (hasAdmin_init passwordHash)

/-- Passwords are their own hashes. -/
def plain : Outside where
  hashpw pw _ := some pw
  checkpw pw hash := some (pw = hash)
  dummyHash := "dummy"
  sameName u v := u = v
  foundRows := true
  tokenExpireHours := 8
  validRoles := "\x7b'admin', 'operator', 'viewer'\x7d"

/-- The administrator creates a second one and deletes it again; the second one, whose token has
not expired, deletes the first. -/
def deletedDeletes : List Event :=
  let admin : Token := ⟨1, "admin", .admin, 0, 28800⟩
  let second : Token := ⟨2, "second", .admin, 0, 28800⟩
  [.login "10.0.0.1" "admin" "admin1" .done,
    .createUser admin "second" "second1" "admin" 0 .done,
    .login "10.0.0.2" "second" "second1" .done,
    .deleteUser admin 2 .done, .deleteUser second 1 .done]

theorem not_always_hasAdmin_deletedDeletes :
    ¬ ∀ (o : Outside) (passwordHash : String) (es : List Event),
      Always (step o) HasAdmin (init passwordHash) es := by
  intro h
  obtain ⟨id, hid⟩ := always_iff_states.mp (h plain "admin1" deletedDeletes) deletedDeletes
    (List.prefix_refl _)
  have hnone : (deletedDeletes.foldl (step plain) (init "admin1")).users.values.any
      User.isAdmin = false := by decide +kernel
  obtain ⟨u, hu, hadmin⟩ := (Option.any_eq_true _ _).mp hid
  have hmem := List.mem_map_of_mem (f := Prod.snd) (Dict.get?_eq_some_iff.mp hu)
  have hany := List.any_eq_true.mpr ⟨u, hmem, hadmin⟩
  exact absurd (hany.symm.trans hnone) (by decide)

end Tdcs.Users
