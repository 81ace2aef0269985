import Tdcs.Users
import Tdcs.Lib.PercentCoding

/-!
Whether a password that was stored lets another one in.

bcrypt sees the first 72 bytes of a password in UTF-8. Creating a user sets no upper limit, and
changing a password limits its characters, not its bytes; so two passwords that differ behind
byte 72 are one to every check.
-/

namespace Tdcs.Passwords

open Tdcs.Lib Tdcs.Lib.PercentCoding Tdcs.Lib.Transaction Tdcs.Users

/-- `password.encode()`. -/
def encode (p : String) : List UInt8 := utf8 p.toList

/-- What bcrypt looks at. -/
def first72 (p : String) : List UInt8 := (encode p).take 72

/-- `hashpw` and `checkpw` depend on exactly the first 72 bytes of the password. -/
structure Bcrypt (o : Outside) : Prop where
  hashes : ∀ p salt, ∃ h, o.hashpw p salt = some h
  checks : ∀ p salt h, o.hashpw p salt = some h →
    ∀ q, o.checkpw q h = some (decide (first72 p = first72 q))

/-- The request is carried out, and `p` is the password it gives the user. -/
def Stores (o : Outside) (s : State) (e : Event) (id : ℕ) (p : String) : Prop :=
  match e with
  | .createUser me username password role salt db => password = some p ∧
    ∃ name role', (createUser o me username password role salt db s).1 = .created id name role'
  | .changePassword me userId oldPassword newPassword salt db => userId = id ∧
    newPassword = some p ∧
    (changePassword o me userId oldPassword newPassword salt db s).1 = .passwordChanged
  | _ => False

/-- The request changes no password of the user. -/
def Keeps (id : ℕ) : Event → Prop
  | .changePassword _ userId _ _ _ _ => userId ≠ id
  | _ => True

/-- Neither a login nor a change of password takes `q` for the password of the user. -/
def Rejects (o : Outside) (s : State) (id : ℕ) (q : String) : Prop :=
  (∀ ip username db u,
    (s.users.entries.find? fun x => o.sameName x.2.username (strip username)) = some (id, u) →
    ∀ t, (login o ip username q db s).1 ≠ .token t) ∧
  ∀ me t newPassword salt db, requireAuth .viewer me s = .ok t → t.role ≠ .admin →
    (changePassword o me id (some q) newPassword salt db s).1 ≠ .passwordChanged ∧
    (changePassword o me id (some q) newPassword salt db s).2 = s

/-- Once `p` has been stored for a user, and until another is, `q` is rejected. -/
def Distinguishes (o : Outside) (p q : String) : Prop :=
  ∀ s e id (l : List Event), Fresh s → Stores o s e id p → (∀ e' ∈ l, Keeps id e') →
    Rejects o (l.foldl (step o) (step o s e)) id q

/-- Both are at least 72 bytes long, and the first 72 are the same. -/
def SamePrefix (p q : String) : Prop :=
  72 ≤ (encode p).length ∧ 72 ≤ (encode q).length ∧ first72 p = first72 q

/-- The hash in the row of the user is one of `p`. -/
def HasPassword (o : Outside) (s : State) (id : ℕ) (p : String) : Prop :=
  ∃ u salt, s.users.get? id = some u ∧ o.hashpw p salt = some u.passwordHash

variable {o : Outside} {s : State} {e : Event} {id : ℕ} {p q : String}

/-! ### The encoding -/

lemma encode_injective : Function.Injective encode := by
  intro p q h
  have hp := decode_utf8_append p.toList []
  have hq := decode_utf8_append q.toList []
  have h : utf8 p.toList = utf8 q.toList := h
  rw [h, hq] at hp
  exact (String.toList_inj.mp (List.append_cancel_right hp)).symm

lemma first72_eq_iff (hne : p ≠ q) : first72 p = first72 q ↔ SamePrefix p q := by
  refine ⟨fun h => ⟨?_, ?_, h⟩, fun h => h.2.2⟩ <;>
  · by_contra hshort
    have hlen := congrArg List.length h
    simp only [first72, List.length_take] at hlen
    rw [first72, first72, List.take_of_length_le (by omega),
      List.take_of_length_le (by omega)] at h
    exact hne (encode_injective h)

lemma length_encode_le (p : String) : (encode p).length ≤ 4 * p.length := by
  have hall : ∀ cs : List Char, (utf8 cs).length ≤ 4 * cs.length := by
    intro cs
    induction cs with
    | nil => simp [utf8]
    | cons c cs ih =>
      have hc : (String.utf8EncodeChar c).length ≤ 4 := by
        rw [String.length_utf8EncodeChar]
        exact c.utf8Size_le_four
      simp only [utf8, List.flatMap_cons, List.length_append, List.length_cons] at ih ⊢
      omega
  have h := hall p.toList
  rwa [String.length_toList] at h

/-! ### What the requests do to a row -/

lemma HasPassword.setUser {userId : ℕ} {u' : User} (h : HasPassword o s id p)
    (hkeep : userId = id → ∀ u, s.users.get? id = some u → u'.passwordHash = u.passwordHash) :
    HasPassword o (s.setUser userId u') id p := by
  obtain ⟨u, salt, hu, hhash⟩ := h
  by_cases hid : id = userId
  · subst hid
    exact ⟨u', salt, Dict.get?_set_self _ _ _, by rw [hkeep rfl u hu, hhash]⟩
  · exact ⟨u, salt, (Dict.get?_set_of_ne _ _ hid).trans hu, hhash⟩

lemma HasPassword.commit {s' : State} (h : HasPassword o s id p) (h' : HasPassword o s' id p)
    (db : Outcome) : HasPassword o (db.commit s s') id p := by
  rcases db with _ | _ | _
  · exact h'
  · exact h
  · exact h'

lemma hasPassword_createUser {me : Option Token} {username password role : Option String}
    {salt : ℕ} {db : Outcome} (hf : Fresh s) (h : HasPassword o s id p) :
    HasPassword o (createUser o me username password role salt db s).2 id p := by
  have hc := creates_createUser (o := o) me username password role salt db s
  generalize createUser o me username password role salt db s = r at hc ⊢
  cases hc with
  | refused => exact h
  | written =>
    refine h.commit ?_ db
    refine h.setUser fun hid u hu => ?_
    rw [← hid, hf _ (le_refl _)] at hu
    cases hu

lemma hasPassword_deleteUser {me : Option Token} {userId : ℕ} {db : Outcome}
    (h : HasPassword o s id p) : HasPassword o (deleteUser me userId db s).2 id p := by
  unfold deleteUser
  split
  · exact h
  split
  · exact h
  split
  · exact h
  · next u hu =>
    refine h.commit (h.setUser fun hid u' hu' => ?_) db
    rw [hid, hu'] at hu
    rw [Option.some.inj hu]

lemma hasPassword_changeRole {me : Option Token} {userId : ℕ} {role : Option String}
    {db : Outcome} (h : HasPassword o s id p) :
    HasPassword o (changeRole o me userId role db s).2 id p := by
  unfold changeRole
  split
  · exact h
  split
  · exact h
  split
  · exact h
  split
  · exact h
  split
  · exact h
  · next u hu _ =>
    refine h.commit (h.setUser fun hid u' hu' => ?_) db
    rw [hid, hu'] at hu
    rw [Option.some.inj hu]

lemma hasPassword_changePassword {me : Option Token} {userId : ℕ}
    {oldPassword newPassword : Option String} {salt : ℕ} {db : Outcome} (hid : userId ≠ id)
    (h : HasPassword o s id p) :
    HasPassword o (changePassword o me userId oldPassword newPassword salt db s).2 id p := by
  have hc := changes_changePassword (o := o) me userId oldPassword newPassword salt db s
  generalize changePassword o me userId oldPassword newPassword salt db s = r at hc ⊢
  cases hc with
  | refused => exact h
  | written => exact h.commit (h.setUser fun h' => absurd h' hid) db

/-- **A password stays until it is changed.** -/
lemma hasPassword_step (hf : Fresh s) (h : HasPassword o s id p) (he : Keeps id e) :
    HasPassword o (step o s e) id p := by
  cases e with
  | tick d => exact h
  | login ip username password db =>
    obtain ⟨u, salt, hu, hhash⟩ := h
    exact ⟨u, salt, by rw [step, (login_snd ip username password db s).1, hu], hhash⟩
  | createUser => exact hasPassword_createUser hf h
  | deleteUser => exact hasPassword_deleteUser h
  | changePassword => exact hasPassword_changePassword he h
  | changeRole => exact hasPassword_changeRole h

lemma hasPassword_run {l : List Event} (hf : Fresh s) (h : HasPassword o s id p)
    (hl : ∀ e ∈ l, Keeps id e) : HasPassword o (l.foldl (step o) s) id p := by
  induction l generalizing s with
  | nil => exact h
  | cons e l ih =>
    exact ih (hf.step e) (hasPassword_step hf h (hl e List.mem_cons_self))
      fun e' he' => hl e' (List.mem_cons_of_mem _ he')

/-! ### Storing a password -/

lemma hasPassword_of_created {me : Option Token} {username role : Option String} {salt : ℕ}
    {db : Outcome} {name : String} {role' : Role}
    (h : (createUser o me username (some p) role salt db s).1 = .created id name role') :
    HasPassword o (createUser o me username (some p) role salt db s).2 id p := by
  have hc := creates_createUser (o := o) me username (some p) role salt db s
  generalize createUser o me username (some p) role salt db s = r at h hc ⊢
  cases hc with
  | refused hr =>
    dsimp only at h
    subst h
    cases hr
  | written name' passwordHash role' hhash =>
    cases db with
    | raised applied => cases h
    | done =>
      cases h
      exact ⟨_, salt, Dict.get?_set_self _ _ _, hhash⟩

lemma hasPassword_of_changed {me : Option Token} {oldPassword : Option String} {salt : ℕ}
    {db : Outcome}
    (h : (changePassword o me id oldPassword (some p) salt db s).1 = .passwordChanged) :
    HasPassword o (changePassword o me id oldPassword (some p) salt db s).2 id p := by
  have hc := changes_changePassword (o := o) me id oldPassword (some p) salt db s
  generalize changePassword o me id oldPassword (some p) salt db s = r at h hc ⊢
  cases hc with
  | refused hr =>
    dsimp only at h
    subst h
    cases hr
  | written u passwordHash hu hhash =>
    cases db with
    | raised applied => cases h
    | done => exact ⟨_, salt, Dict.get?_set_self _ _ _, hhash⟩

lemma hasPassword_of_stores (h : Stores o s e id p) : HasPassword o (step o s e) id p := by
  cases e with
  | createUser me username password role salt db =>
    obtain ⟨rfl, name, role', h⟩ := h
    exact hasPassword_of_created h
  | changePassword me userId oldPassword newPassword salt db =>
    obtain ⟨rfl, rfl, h⟩ := h
    exact hasPassword_of_changed h
  | tick | login | deleteUser | changeRole => cases h

/-! ### Checking one -/

lemma checks_other (hb : Bcrypt o) (hdiff : first72 p ≠ first72 q) {u : User} {salt : ℕ}
    (hhash : o.hashpw p salt = some u.passwordHash) :
    o.checkpw q u.passwordHash = some false := by
  rw [hb.checks p salt _ hhash q, decide_eq_false hdiff]

lemma login_rejects (hb : Bcrypt o) (hdiff : first72 p ≠ first72 q) (h : HasPassword o s id p)
    {ip username : String} {db : Outcome} {u : User}
    (hfind : (s.users.entries.find? fun x => o.sameName x.2.username (strip username)) =
      some (id, u))
    (t : Token) : (login o ip username q db s).1 ≠ .token t := by
  obtain ⟨u', salt, hu', hhash⟩ := h
  have hu : s.users.get? id = some u := Dict.get?_eq_some_iff.mpr (List.mem_of_find?_eq_some hfind)
  obtain rfl := Option.some.inj (hu'.symm.trans hu)
  have hcheck := checks_other hb hdiff hhash
  have hrate := (checkLoginRate_snd ip s).1
  have hanswer : ∀ status code message,
      db.answer (Response.error status code message)
        (.error 503 "DB_UNAVAILABLE" "Database unavailable") ≠ .token t := by
    intro status code message
    cases db <;> simp [Outcome.answer]
  have hdummy : db.answer (dummyCheck o q) (.error 503 "DB_UNAVAILABLE" "Database unavailable") ≠
      .token t := by
    unfold dummyCheck
    split <;> exact hanswer _ _ _
  unfold login
  dsimp only
  rw [hrate, hfind]
  dsimp only
  rw [hcheck]
  split
  · simp
  split
  · simp
  split
  · exact hdummy
  · exact hanswer _ _ _

lemma change_rejects (hb : Bcrypt o) (hdiff : first72 p ≠ first72 q) (h : HasPassword o s id p)
    {me : Option Token} {t : Token} {newPassword : Option String} {salt : ℕ} {db : Outcome}
    (hauth : requireAuth .viewer me s = .ok t) (hrole : t.role ≠ .admin) :
    (changePassword o me id (some q) newPassword salt db s).1 ≠ .passwordChanged ∧
      (changePassword o me id (some q) newPassword salt db s).2 = s := by
  obtain ⟨u, salt', hu, hhash⟩ := h
  have hcheck : o.checkpw ((some q).getD "") u.passwordHash = some false :=
    checks_other hb hdiff hhash
  unfold changePassword
  rw [hauth]
  dsimp only
  split
  · simp
  split
  · simp
  split
  · simp
  rw [hu]
  dsimp only
  split
  · simp
  · rw [hcheck]
    simp

/-! ### Passwords that are one -/

def adminToken : Token := ⟨0, "admin", .admin, 0, 3600⟩
def viewerToken : Token := ⟨1, "abc", .viewer, 0, 3600⟩

/-- No users yet, but tokens of an administrator and of the user to come. -/
def twoTokens : State := ⟨0, Dict.empty, 1, [adminToken, viewerToken], Dict.empty⟩

lemma requireAuth_ok {minRole : Role} {t : Token} (hissued : t ∈ s.issued)
    (hexp : s.clock < t.exp * 1000000) (hlevel : minRole.level ≤ t.role.level) :
    requireAuth minRole (some t) s = .ok t := by
  unfold requireAuth
  dsimp only
  rw [if_neg (not_not.mpr hissued), if_neg (by omega), if_neg (by omega)]

lemma not_distinguishes (hb : Bcrypt o) (h : SamePrefix p q) : ¬ Distinguishes o p q := by
  intro hdist
  obtain ⟨hlong, -, hsame⟩ := h
  have hlen : ¬ p.length < 6 := by
    have := length_encode_le p
    omega
  obtain ⟨hashP, hp⟩ := hb.hashes p 0
  obtain ⟨hashNew, hnew⟩ := hb.hashes "abcdef" 0
  have hcheck : o.checkpw q hashP = some true := by
    rw [hb.checks p 0 hashP hp q, decide_eq_true hsame]
  have hname : strip ((some "abc" : Option String).getD "") = "abc" := by decide +kernel
  have hrole : Role.ofString? (strip (orElse none "viewer")) = some .viewer := by decide +kernel
  have hvalid : validUsername "abc" = true := by decide +kernel
  have hadmin : requireAuth .admin (some adminToken) twoTokens = .ok adminToken := by decide +kernel
  have hcreate : createUser o (some adminToken) (some "abc") (some p) none 0 .done twoTokens =
      (.created 1 "abc" .viewer,
        { twoTokens.setUser 1 ⟨"abc", hashP, .viewer, true⟩ with nextId := 2 }) := by
    have hpw : (some p).getD "" = p := rfl
    simp only [createUser, hadmin, hname, hpw, hrole, hp, hvalid, if_neg hlen]
    rfl
  have hfresh : Fresh twoTokens := fun _ _ => rfl
  obtain ⟨-, hchange⟩ := hdist twoTokens
    (.createUser (some adminToken) (some "abc") (some p) none 0 .done) 1 [] hfresh
    ⟨rfl, "abc", .viewer, by rw [hcreate]⟩ (by simp)
  rw [List.foldl_nil, step, hcreate] at hchange
  dsimp only at hchange
  have hexp : 0 < viewerToken.exp * 1000000 := by decide
  have hauth : requireAuth .viewer (some viewerToken)
      { twoTokens.setUser 1 ⟨"abc", hashP, .viewer, true⟩ with nextId := 2 } = .ok viewerToken :=
    requireAuth_ok (List.mem_cons_of_mem _ List.mem_cons_self) hexp (by decide)
  -- the owner gives `q` as the old password of `p`, and the hash accepts it
  refine (hchange (some viewerToken) viewerToken (some "abcdef") 0 .done hauth (by decide)).1 ?_
  have hrow : (({ twoTokens.setUser 1 ⟨"abc", hashP, .viewer, true⟩ with nextId := 2 }) :
      State).users.get? 1 = some ⟨"abc", hashP, .viewer, true⟩ := Dict.get?_set_self _ _ _
  have hold : (some q).getD "" = q := rfl
  have hnewpw : (some "abcdef" : Option String).getD "" = "abcdef" := rfl
  simp only [changePassword, hauth, hrow, hold, hnewpw, hcheck, hnew]
  rfl

/-- **Different passwords are told apart exactly unless they share their first 72 bytes.** -/
theorem distinguishes_iff (hb : Bcrypt o) (hne : p ≠ q) :
    Distinguishes o p q ↔ ¬ SamePrefix p q := by
  constructor
  · intro h hsame
    exact not_distinguishes hb hsame h
  · intro h s e id l hf hstores hkeeps
    have hdiff : first72 p ≠ first72 q := fun h' => h ((first72_eq_iff hne).mp h')
    have hhas := hasPassword_run (hf.step e) (hasPassword_of_stores hstores) hkeeps
    exact ⟨fun _ _ _ _ hfind t => login_rejects hb hdiff hhas hfind t,
      fun _ _ _ _ _ hauth hrole => change_rejects hb hdiff hhas hauth hrole⟩

/-! ### Two passwords -/

/-- bcrypt without salts and hashing: what is stored is the password, of which the first 72 bytes
are compared. -/
def plain : Outside where
  hashpw p _ := some p
  checkpw q h := some (decide (first72 h = first72 q))
  dummyHash := "dummy"
  sameName a b := a == b
  foundRows := false
  tokenExpireHours := 8
  validRoles := ""

lemma bcrypt_plain : Bcrypt plain where
  hashes p _ := ⟨p, rfl⟩
  checks p _ h hp q := by
    cases hp
    rfl

theorem distinguishes_iff_short : Bcrypt plain ∧ "secret1" ≠ "secret2" ∧
    (Distinguishes plain "secret1" "secret2" ↔ ¬ SamePrefix "secret1" "secret2") :=
  ⟨bcrypt_plain, by decide, distinguishes_iff bcrypt_plain (by decide)⟩

/-- Seventy-two letters and one more. -/
def long (c : Char) : String := String.ofList (List.replicate 72 'a' ++ [c])

/-- Two passwords of 73 letters that end in different ones. -/
theorem not_distinguishes_long : ¬ ∀ (o : Outside) (p q : String), Bcrypt o → p ≠ q →
    6 ≤ p.length → 6 ≤ q.length → Distinguishes o p q := by
  intro h
  have hsame : SamePrefix (long 'b') (long 'c') := by
    refine ⟨?_, ?_, ?_⟩ <;> decide +kernel
  exact not_distinguishes bcrypt_plain hsame
    (h plain (long 'b') (long 'c') bcrypt_plain (by decide +kernel) (by decide +kernel)
      (by decide +kernel))

end Tdcs.Passwords
