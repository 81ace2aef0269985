import Mathlib.Tactic
import Tdcs.Lib.PercentCoding
import Tdcs.ConfigManager

/-!
`_build_dsn` of the configuration manager, and the user and the password a URL carries.

Both are percent-decoded on the way out, without making a space of a plus sign; before that, an
`@`, a colon or a slash ends the part it stands in.
-/

namespace Tdcs.Dsn

open Tdcs.Lib.PercentCoding Tdcs.ConfigManager
open Tdcs.Config hiding hexDigit

/-- What ends the user or the password of a URL. -/
def isDelimiter (c : Char) : Bool := c = '@' || c = ':' || c = '/'

def component (cs : Text) : Text := cs.takeWhile fun c => !isDelimiter c

/-- What stands behind the scheme of a URL. -/
def afterScheme (url : Text) : Option Text :=
  let rest := url.dropWhile (· ≠ ':')
  if rest.take 3 = [':', '/', '/'] then some (rest.drop 3) else none

/-- The user and the password in front of the host, before they are decoded. -/
def userinfo (rest : Text) : Option (Text × Option Text) :=
  let user := component rest
  let behind := rest.drop user.length
  if behind.head? = some '@' then some (user, none)
  else if behind.head? = some ':' then
    let password := component behind.tail
    if (behind.tail.drop password.length).head? = some '@' then some (user, some password) else none
  else none

/-- The user and the password a URL connects with. -/
def credentials (url : Text) : Option (Text × Option Text) :=
  ((afterScheme url).bind userinfo).map fun p => (unquote p.1, p.2.map unquote)

/-- `raw["database"]["master"]`. -/
def masterNode (raw : Val) : Option (List (String × Val)) :=
  raw.asMap.bind fun raw => (section! raw "database").bind fun db => section! db "master"

/-- `db_master_dsn`, as `_read_yaml` and `_build_dsn` make it of a file. -/
def masterDsn (O : Outside) (content : Text) : Option String :=
  (readYaml O content).bind fun raw => (masterNode raw).bind (buildDsn O.py)

/-! ### Quoting -/

lemma toList_loop (bs : ByteArray) (i : ℕ) (r : List UInt8) :
    ByteArray.toList.loop bs i r = r.reverse ++ bs.data.toList.drop i := by
  fun_induction ByteArray.toList.loop bs i r with
  | case1 i r h ih =>
    have hlt : i < bs.data.toList.length := h
    rw [ih, List.drop_eq_getElem_cons hlt]
    simp only [ByteArray.get!, List.reverse_cons, List.append_assoc, List.singleton_append,
      Array.getElem_toList]
    rw [getElem!_pos bs.data i h]
  | case2 i r h =>
    have hle : bs.data.toList.length ≤ i := not_lt.1 h
    rw [List.drop_eq_nil_of_le hle, List.append_nil]

lemma toUTF8_toList (s : String) : s.toUTF8.toList = utf8 s.toList := by
  have h : s.toUTF8 = s.toList.utf8Encode := String.utf8Encode_toList.symm
  rw [h, ByteArray.toList, toList_loop, List.utf8Encode, List.toList_data_toByteArray]
  rfl

lemma quote_str (s : String) :
    quote (.str s) = some (String.ofList (encode isUnreserved (utf8 s.toList))) := by
  rw [quote, toUTF8_toList]
  rfl

lemma quote_isSome {v : Val} {q : String} (h : quote v = some q) : ∃ s, v = .str s := by
  cases v with
  | str s => exact ⟨s, rfl⟩
  | null | bool b | int n | float x | list l | map m | other t => cases h

lemma safe_isUnreserved : Safe isUnreserved := by
  intro b hb
  unfold isUnreserved at hb
  rw [UInt8.lt_iff_toNat_lt, Ne, ← UInt8.toNat_inj]
  simp at hb ⊢
  omega

lemma encode_char {keep : UInt8 → Bool} {bs : List UInt8} {c : Char} (h : c ∈ encode keep bs) :
    (∃ b, keep b = true ∧ c = Char.ofNat b.toNat) ∨ c = '%' ∨ ∃ n < 16, c = hexDigit n := by
  obtain ⟨b, -, hc⟩ := List.mem_flatMap.1 h
  unfold encodeByte at hc
  split_ifs at hc with hb
  · exact .inl ⟨b, hb, List.mem_singleton.1 hc⟩
  · have hlt := b.toNat_lt
    simp only [List.mem_cons, List.not_mem_nil, or_false] at hc
    rcases hc with rfl | rfl | rfl
    · exact .inr (.inl rfl)
    · exact .inr (.inr ⟨_, by omega, rfl⟩)
    · exact .inr (.inr ⟨_, by omega, rfl⟩)

lemma not_isDelimiter_hexDigit {n : ℕ} (h : n < 16) : isDelimiter (hexDigit n) = false := by
  revert n
  decide

lemma not_isDelimiter_encode {keep : UInt8 → Bool} (hkeep : ∀ b, keep b = true →
      isDelimiter (Char.ofNat b.toNat) = false) (bs : List UInt8) :
    ∀ c ∈ encode keep bs, isDelimiter c = false := by
  intro c hc
  rcases encode_char hc with ⟨b, hb, rfl⟩ | rfl | ⟨n, hn, rfl⟩
  · exact hkeep b hb
  · rfl
  · exact not_isDelimiter_hexDigit hn

lemma isDelimiter_iff {c : Char} : isDelimiter c = true ↔
    c.toNat = 64 ∨ c.toNat = 58 ∨ c.toNat = 47 := by
  have hchar : ∀ d : Char, c = d ↔ c.toNat = d.toNat := fun d => ⟨congrArg _, fun h => by
    rw [← Char.ofNat_toNat c, h, Char.ofNat_toNat]⟩
  simp only [isDelimiter, Bool.or_eq_true, decide_eq_true_eq, hchar, or_assoc]
  rfl

lemma not_isDelimiter_unreserved {b : UInt8} (h : isUnreserved b = true) :
    isDelimiter (Char.ofNat b.toNat) = false := by
  rw [Bool.eq_false_iff, Ne, isDelimiter_iff, toNat_ofNat_byte]
  unfold isUnreserved at h
  simp at h
  omega

/-! ### The parts of a URL -/

lemma component_of_free {cs : Text} (h : ∀ c ∈ cs, isDelimiter c = false) {d : Char}
    (hd : isDelimiter d = true) (rest : Text) : component (cs ++ d :: rest) = cs := by
  rw [component, List.takeWhile_append_of_pos fun c hc => by simp [h c hc], List.takeWhile_cons]
  simp [hd]

lemma component_append (cs : Text) {d : Char} (hd : isDelimiter d = true) (rest : Text) :
    component (cs ++ d :: rest) = component cs := by
  induction cs with
  | nil => simp [component, hd]
  | cons c cs ih =>
    rw [List.cons_append, component, component, List.takeWhile_cons, List.takeWhile_cons,
      ← component, ← component, ih]

def scheme : Text := "mysql+pymysql".toList

lemma afterScheme_scheme (rest : Text) :
    afterScheme (scheme ++ ':' :: '/' :: '/' :: rest) = some rest := by
  have hfree : scheme.all (fun c => decide (c ≠ ':')) = true := by decide
  have hdrop : (scheme ++ ':' :: '/' :: '/' :: rest).dropWhile (· ≠ ':') =
      ':' :: '/' :: '/' :: rest := by
    rw [List.dropWhile_append_of_pos (List.all_eq_true.1 hfree)]
    simp
  rw [afterScheme, hdrop]
  simp

variable {u p rest : Text}

lemma userinfo_of_free (hu : ∀ c ∈ u, isDelimiter c = false)
    (hp : ∀ c ∈ p, isDelimiter c = false) :
    userinfo (u ++ ':' :: (p ++ '@' :: rest)) = some (u, some p) := by
  simp [userinfo, component_of_free hu (d := ':') rfl, component_of_free hp (d := '@') rfl]

lemma userinfo_user {q : Text × Option Text} (h : userinfo (u ++ ':' :: rest) = some q) :
    q.1 = component u := by
  simp only [userinfo, component_append u (d := ':') rfl] at h
  split_ifs at h
  · cases h; rfl
  · cases h; rfl

/-! ### The service -/

/-- The text of a URL, with the literals as variables so that nothing unfolds them. -/
lemma toList_url (first user colon password sign host port slash database tail : String) (s : Text)
    (hfirst : first.toList = s ++ [':', '/', '/']) (hcolon : colon.toList = [':'])
    (hsign : sign.toList = ['@']) : ∃ rest,
    (first ++ user ++ colon ++ password ++ sign ++ host ++ colon ++ port ++ slash ++ database ++
      tail).toList =
        s ++ ':' :: '/' :: '/' :: (user.toList ++ ':' :: (password.toList ++ '@' :: rest)) := by
  refine ⟨host.toList ++ colon.toList ++ port.toList ++ slash.toList ++ database.toList ++
    tail.toList, ?_⟩
  simp [String.toList_append, hfirst, hcolon, hsign]

lemma toList_dsnText (user password dbHost port database : String) :
    ∃ rest, (dsnText user password dbHost port database).toList =
      scheme ++ ':' :: '/' :: '/' :: (user.toList ++ ':' :: (password.toList ++ '@' :: rest)) :=
  toList_url _ _ _ _ _ _ _ _ _ _ _ (by decide +kernel) (by decide +kernel) (by decide +kernel)

lemma buildDsn_eq_some {py : PyText} {db : List (String × Val)} {dsn : String}
    (h : buildDsn py db = some dsn) : ∃ user password rest, db.lookup "user" = some (.str user) ∧
      db.lookup "password" = some (.str password) ∧
      dsn.toList = scheme ++ ':' :: '/' :: '/' :: (encode isUnreserved (utf8 user.toList) ++ ':' ::
        (encode isUnreserved (utf8 password.toList) ++ '@' :: rest)) := by
  simp only [buildDsn, Option.bind_eq_bind, Option.bind_eq_some_iff] at h
  obtain ⟨qu, ⟨vu, hvu, hqu⟩, qp, ⟨vp, hvp, hqp⟩, host, -, database, -, hdsn⟩ := h
  obtain ⟨user, rfl⟩ := quote_isSome hqu
  obtain ⟨password, rfl⟩ := quote_isSome hqp
  rw [quote_str] at hqu hqp
  obtain rfl := Option.some.inj hqu
  obtain rfl := Option.some.inj hqp
  obtain rfl := Option.some.inj hdsn
  obtain ⟨rest, hrest⟩ := toList_dsnText (String.ofList (encode isUnreserved (utf8 user.toList)))
    (String.ofList (encode isUnreserved (utf8 password.toList))) host
    (py.str ((db.lookup "port").getD (.int 3306))) database
  rw [String.toList_ofList, String.toList_ofList] at hrest
  exact ⟨user, password, rest, hvu, hvp, hrest⟩

/-- **The service connects** with the user and the password of the node, whatever they are. -/
theorem credentials_buildDsn {py : PyText} {db : List (String × Val)} {dsn : String}
    (h : buildDsn py db = some dsn) : ∃ user password, db.lookup "user" = some (.str user) ∧
      db.lookup "password" = some (.str password) ∧
      credentials dsn.toList = some (user.toList, some password.toList) := by
  obtain ⟨user, password, rest, huser, hpassword, hdsn⟩ := buildDsn_eq_some h
  refine ⟨user, password, huser, hpassword, ?_⟩
  have hfree := not_isDelimiter_encode fun b hb => not_isDelimiter_unreserved hb
  rw [credentials, hdsn, afterScheme_scheme, Option.bind_some,
    userinfo_of_free (hfree _) (hfree _), Option.map_some, Option.map_some,
    unquote_encode safe_isUnreserved, unquote_encode safe_isUnreserved]

lemma buildDsn_isSome {py : PyText} {db : List (String × Val)}
    {user password host database : String}
    (huser : db.lookup "user" = some (.str user))
    (hpassword : db.lookup "password" = some (.str password))
    (hhost : db.lookup "host" = some (.str host))
    (hdatabase : db.lookup "database" = some (.str database)) :
    ∃ dsn, buildDsn py db = some dsn := by
  simp [buildDsn, huser, hpassword, hhost, hdatabase, quote, text]

end Tdcs.Dsn
