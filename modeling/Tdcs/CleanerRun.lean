import Mathlib.Tactic
import Tdcs.FileSelection
import Tdcs.Users
import Tdcs.Lib.Csv

/-!
`run_cleaner` and `download_result` of `cleaners.py`: a file is cleaned by a template, and the
result waits under a token.

A run has two sections under the lock: it purges what has expired when it begins, and stores its
result when the template is done. Between them, and while the background thread purges, other
requests run. Each section reads the clock before it takes the lock.
-/

namespace Tdcs.CleanerRun

open Tdcs.Lib Tdcs.Lib.Run

variable {V β : Type*}

/-- The label of a column as JSON has it: a string, or a number or the like with its text. -/
inductive Column
  | str (s : String)
  | other (text : String)
  deriving DecidableEq, Repr

def Column.text : Column → String
  | .str s => s
  | .other text => text

abbrev Row (V : Type*) := Dict String (Option V)

/-- What the runner prints, key by key. -/
structure Output (V : Type*) where
  rows : Option (List (Row V)) := none
  columns : Option (List Column) := none
  original : Option ℤ := none
  cleaned : Option ℤ := none
  dropped : Option ℤ := none

inductive Failure
  | timeout (msg : String)
  | runtime (msg : String)

structure Upload (β : Type*) where
  filename : String
  bytes : β

/-- The request to `/run`, by its form. -/
structure Request (β : Type*) where
  file : Option (Upload β)
  template : Option String
  preview : Option String := none
  contentLength : Option ℕ := none

/-- `str` of a value, the length of bytes, `str.lower`, the parser of Excel files behind
`to_csv`, and the registry. -/
structure Outside (V β : Type*) where
  str : V → String
  size : β → ℕ
  lower : String → String
  excelToCsv : β → Except String β
  getPath : String → Option String

/-- What is stored under a token. -/
structure Entry where
  csv : List Char
  filename : String
  expireTs : ℚ
  deriving DecidableEq

inductive Response (V : Type*)
  | error (status : ℕ) (code message : String)
  /-- An exception nothing catches. -/
  | raised
  | cleaned (template : String) (original cleaned dropped : ℤ) (columns : List Column)
      (preview : List (Row V)) (token : Option String)
  | file (csv : List Char) (filename : String)
  deriving DecidableEq

/-- `_DOWNLOAD_TTL`. -/
def downloadTtl : ℚ := 1800

/-- `_MAX_UPLOAD_BYTES`. -/
def maxUploadBytes : ℕ := 20 * 1024 * 1024

variable (o : Outside V β)

/-- The checks of `run_cleaner`: the template, its script, and the text it is run on. -/
def prepare (req : Request β) : Except (Response V) (String × String × β) :=
  match req.file, req.template with
  | none, _ => .error (.error 400 "MISSING_FIELD" "缺少上传文件字段 'file'")
  | some _, none => .error (.error 400 "MISSING_FIELD" "缺少模板名称字段 'template'")
  | some file, some template =>
    let name := Users.strip template
    let tooLarge : Response V := .error 413 "FILE_TOO_LARGE" "文件超过 20MB 限制"
    if file.filename = "" then .error (.error 400 "INVALID_FILE" "文件名为空")
    else if maxUploadBytes < req.contentLength.getD 0 then .error tooLarge
    else if maxUploadBytes < o.size file.bytes then .error tooLarge
    else
      let fname := o.lower file.filename
      let text : Except (Response V) β :=
        if FileSelection.endsWith fname ".csv" then .ok file.bytes
        else if FileSelection.endsWith fname ".xlsx" || FileSelection.endsWith fname ".xls" then
          match o.excelToCsv file.bytes with
          | .ok bytes => .ok bytes
          | .error e => .error (.error 400 "EXCEL_PARSE_ERROR" ("Excel 解析失败: " ++ e))
        else .error (.error 400 "UNSUPPORTED_FORMAT" "仅支持 .csv / .xlsx / .xls 格式")
      match text with
      | .error r => .error r
      | .ok bytes =>
        match o.getPath name with
        | none => .error (.error 404 "TEMPLATE_NOT_FOUND" ("模板 '" ++ name ++ "' 不存在或语法无效"))
        | some path => .ok (name, path, bytes)

/-- `row.get(column, "")`, as `csv.writer` writes it. -/
def cellText (row : Row V) : Column → List Char
  | .str s => (((row.get? s).join.map o.str).getD "").toList
  | .other _ => []

/-- The text `csv.DictWriter` makes, which raises for a key that is no column. -/
def writeCsv (columns : List Column) (rows : List (Row V)) : Option (List Char) :=
  if rows.all fun row => row.keys.all fun k => columns.contains (.str k) then
    some (Csv.writerows (columns.map (fun c => c.text.toList) ::
      rows.map fun row => columns.map (cellText o row)))
  else none

/-- The end of `run_cleaner`, with the token drawn and the times read for the deadline and the file
name: the response, and what is stored under the token. -/
def answer (name : String) (previewOnly : Bool) (output : Output V) (token : String)
    (stamp nameStamp : ℚ) : Response V × Option Entry :=
  let rows := output.rows.getD []
  let columns := output.columns.getD []
  let original := output.original.getD 0
  let cleaned := output.cleaned.getD rows.length
  let dropped := output.dropped.getD (original - cleaned)
  let preview := if previewOnly then rows.take 50 else rows
  if rows.isEmpty then (.cleaned name original cleaned dropped columns preview none, none)
  else
    match writeCsv o columns rows with
    | none => (.raised, none)
    | some csv =>
      (.cleaned name original cleaned dropped columns preview (some token),
        some ⟨csv, "cleaned_" ++ name ++ "_" ++ toString ⌊nameStamp⌋ ++ ".csv",
          stamp + downloadTtl⟩)

/-- `run_cleaner` after the purge; `script` is what the subprocess comes to. -/
def runCleaner (req : Request β) (script : String → β → Except Failure (Output V))
    (token : String) (stamp nameStamp : ℚ) : Response V × Option Entry :=
  match prepare o req with
  | .error r => (r, none)
  | .ok (name, path, bytes) =>
    match script path bytes with
    | .error (.timeout msg) => (.error 408 "TIMEOUT" msg, none)
    | .error (.runtime msg) => (.error 422 "CLEANER_ERROR" msg, none)
    | .ok output =>
      answer o name (o.lower (req.preview.getD "true") ≠ "false") output token stamp nameStamp

abbrev Store := Dict String Entry

/-- `_purge_expired_downloads`. -/
def purge (now : ℚ) (store : Store) : Store :=
  let expired := (store.entries.filter fun p => p.2.expireTs < now).map Prod.fst
  expired.foldl Dict.erase store

/-- The name in the header, without what could end it. -/
def safeFilename (filename : String) : String :=
  String.ofList (filename.toList.filter fun c => c ≠ '"' && c ≠ '\r' && c ≠ '\n')

/-- `download_result`. -/
def download (token : String) (now : ℚ) (store : Store) : Response V × Store :=
  let gone : Response V := .error 404 "TOKEN_EXPIRED" "下载令牌不存在或已过期（30分钟有效）"
  match store.get? token with
  | none => (gone, store.erase token)
  | some entry =>
    if entry.expireTs < now then (gone, store.erase token)
    else (.file entry.csv (safeFilename entry.filename), store.erase token)

/-! ### Runs -/

structure State where
  clock : ℚ := 0
  store : Store := Dict.empty

/-- What may happen. A section reads the clock a while before it has the lock. -/
inductive Event (V β : Type*)
  | tick (d : ℚ≥0)
  /-- A purge, by the thread or at the beginning of a run. -/
  | purge (ago : ℚ≥0)
  /-- The rest of a run. -/
  | run (req : Request β) (script : String → β → Except Failure (Output V)) (token : String)
      (ago nameAgo : ℚ≥0)
  | download (token : String)

/-- What a run stores, and under which token. -/
def stored (s : State) : Event V β → Option (String × Entry)
  | .run req script token ago nameAgo =>
    (runCleaner o req script token (s.clock - ago) (s.clock - nameAgo)).2.map fun e => (token, e)
  | _ => none

def step (s : State) (e : Event V β) : State :=
  match e with
  | .tick d => { s with clock := s.clock + d }
  | .purge ago => { s with store := purge (s.clock - ago) s.store }
  | .run _ _ _ _ _ =>
    match stored o s e with
    | none => s
    | some (token, entry) => { s with store := s.store.set token entry }
  | .download token => { s with store := (download (V := V) token s.clock s.store).2 }

def after (es : List (Event V β)) : State := es.foldl (step o) {}

/-- The event neither stores anything under the token nor asks for it. -/
def Untouched (token : String) (s : State) (e : Event V β) : Prop :=
  e ≠ .download token ∧ ∀ entry, stored o s e ≠ some (token, entry)

/-- A run has stored the entry under the token, and no event has touched the token since. -/
def Awaits (es : List (Event V β)) (token : String) (entry : Entry) : Prop :=
  ∃ before e later, es = before ++ e :: later ∧
    stored o (after o before) e = some (token, entry) ∧
    Steps (step o) (Untouched o token) (after o (before ++ [e])) later

variable {o} {es : List (Event V β)} {token : String} {entry : Entry}

lemma after_concat (es : List (Event V β)) (e : Event V β) :
    after o (es ++ [e]) = step o (after o es) e := by
  simp [after]

lemma after_append (es es' : List (Event V β)) :
    after o (es ++ es') = es'.foldl (step o) (after o es) := List.foldl_append

lemma get?_purge (now : ℚ) (store : Store) (token : String) :
    (purge now store).get? token = (store.get? token).filter fun e => now ≤ e.expireTs := by
  have hentries : (purge now store).entries =
      store.entries.filter fun p => now ≤ p.2.expireTs := by
    rw [purge, Dict.entries_foldl_erase_filter]
    simp only [not_lt]
  ext entry
  rw [Option.filter_eq_some_iff, Dict.get?_eq_some_iff, Dict.get?_eq_some_iff, hentries,
    List.mem_filter]

lemma download_snd (token : String) (now : ℚ) (store : Store) :
    (download (V := V) token now store).2 = store.erase token := by
  unfold download
  dsimp only
  split
  · rfl
  · split_ifs <;> rfl

lemma get?_step (s : State) (e : Event V β) (token : String) :
    (e = .download token ∧ (step o s e).store.get? token = none) ∨
    (∃ entry, stored o s e = some (token, entry) ∧
      (step o s e).store.get? token = some entry) ∨
    (Untouched o token s e ∧ ((step o s e).store.get? token = s.store.get? token ∨
      ∃ ago, e = .purge ago ∧ (step o s e).store.get? token =
        (s.store.get? token).filter fun x => s.clock - ago ≤ x.expireTs)) := by
  cases e with
  | tick d =>
    exact .inr (.inr ⟨⟨by simp, fun _ => by simp [stored]⟩, .inl rfl⟩)
  | purge ago =>
    refine .inr (.inr ⟨⟨by simp, fun _ => by simp [stored]⟩, .inr ⟨ago, rfl, ?_⟩⟩)
    exact get?_purge _ _ _
  | run req script token' ago nameAgo =>
    -- a run touches the entry of the token it draws, if its template came through
    rcases hst : stored o s (.run req script token' ago nameAgo) with _ | ⟨t, entry⟩
    · refine .inr (.inr ⟨⟨by simp, fun _ => by simp [hst]⟩, .inl ?_⟩)
      unfold step
      dsimp only
      rw [hst]
    · have hstep : (step o s (.run req script token' ago nameAgo)).store = s.store.set t entry := by
        unfold step
        dsimp only
        rw [hst]
      by_cases ht : t = token
      · subst ht
        refine .inr (.inl ⟨entry, rfl, ?_⟩)
        rw [hstep, Dict.get?_set_self]
      · refine .inr (.inr ⟨⟨by simp, fun e' he' => ?_⟩, .inl ?_⟩)
        · rw [hst] at he'
          cases he'
          exact ht rfl
        · rw [hstep, Dict.get?_set_of_ne _ _ (Ne.symm ht)]
  | download token' =>
    -- `pop`: a token is good for one download
    have hstep : (step o s (.download token')).store = s.store.erase token' := download_snd _ _ _
    by_cases ht : token' = token
    · subst ht
      refine .inl ⟨rfl, ?_⟩
      rw [hstep, Dict.get?_erase_self]
    · refine .inr (.inr ⟨⟨by simpa using ht, fun _ => by simp [stored]⟩, .inl ?_⟩)
      rw [hstep, Dict.get?_erase_of_ne _ (Ne.symm ht)]

lemma clock_le_step (s : State) (e : Event V β) : s.clock ≤ (step o s e).clock := by
  cases e with
  | tick d => exact le_add_of_nonneg_right d.2
  | purge ago => exact le_rfl
  | run req script token ago nameAgo =>
    unfold step
    dsimp only
    split <;> exact le_rfl
  | download token => exact le_rfl

lemma awaits_concat {e : Event V β} :
    Awaits o (es ++ [e]) token entry ↔ stored o (after o es) e = some (token, entry) ∨
      Awaits o es token entry ∧ Untouched o token (after o es) e := by
  constructor
  · rintro ⟨before, e', later, hes, hst, hlater⟩
    rcases later.eq_nil_or_concat with rfl | ⟨later, e'', rfl⟩
    · obtain ⟨rfl, hee⟩ := List.append_inj' hes rfl
      cases hee
      exact .inl hst
    · rw [List.concat_eq_append] at hes hlater
      have hes' : es ++ [e] = (before ++ e' :: later) ++ [e''] := by simpa using hes
      obtain ⟨rfl, hee⟩ := List.append_inj' hes' rfl
      cases hee
      rw [steps_append] at hlater
      have hstate : later.foldl (step o) (after o (before ++ [e'])) =
          after o (before ++ e' :: later) := by
        rw [← after_append]
        simp
      rw [hstate] at hlater
      exact .inr ⟨⟨before, e', later, rfl, hst, hlater.1⟩, hlater.2.1⟩
  · rintro (hst | ⟨⟨before, e', later, rfl, hst, hlater⟩, hun⟩)
    · exact ⟨es, e, [], rfl, hst, trivial⟩
    · refine ⟨before, e', later ++ [e], by simp, hst, ?_⟩
      have hstate : later.foldl (step o) (after o (before ++ [e'])) =
          after o (before ++ e' :: later) := by
        rw [← after_append]
        simp
      rw [steps_append, hstate]
      exact ⟨hlater, hun, trivial⟩

/-- What the store holds is awaited, and what is awaited and has not expired is held. -/
lemma store_iff (es : List (Event V β)) (token : String) (entry : Entry) :
    ((after o es).store.get? token = some entry → Awaits o es token entry) ∧
      (Awaits o es token entry → (after o es).clock ≤ entry.expireTs →
        (after o es).store.get? token = some entry) := by
  induction es using List.reverseRecOn with
  | nil =>
    refine ⟨fun h => ?_, ?_⟩
    · cases h
    · rintro ⟨before, e, later, hes, -⟩
      simp at hes
  | append_singleton es e ih =>
    rw [awaits_concat, after_concat]
    rcases get?_step (o := o) (after o es) e token with
      ⟨rfl, hget⟩ | ⟨entry', hst, hget⟩ | ⟨hun, hget⟩
    · refine ⟨fun h => ?_, ?_⟩
      · rw [hget] at h
        cases h
      · rintro (hst | ⟨-, hun⟩)
        · cases hst
        · exact absurd rfl hun.1
    · refine ⟨fun h => ?_, ?_⟩
      · obtain rfl : entry' = entry := Option.some.inj (hget.symm.trans h)
        exact .inl hst
      · rintro (hst' | ⟨-, hun⟩) -
        · obtain rfl : entry' = entry := by
            rw [hst] at hst'
            cases hst'
            rfl
          exact hget
        · exact absurd hst (hun.2 entry')
    · have hno : stored o (after o es) e ≠ some (token, entry) := hun.2 entry
      refine ⟨fun h => ?_, ?_⟩
      · -- what is there has been there before
        have hold : (after o es).store.get? token = some entry := by
          rcases hget with hget | ⟨ago, -, hget⟩
          · exact hget ▸ h
          · rw [hget, Option.filter_eq_some_iff] at h
            exact h.1
        exact .inr ⟨ih.1 hold, hun⟩
      · rintro (hst | ⟨hawaits, -⟩) hclock
        · exact absurd hst hno
        have hbefore := (clock_le_step (o := o) (after o es) e).trans hclock
        have hold := ih.2 hawaits hbefore
        rcases hget with hget | ⟨ago, -, hget⟩
        · rw [hget, hold]
        · have hago : (after o es).clock - ago ≤ entry.expireTs := by
            have hnonneg : (0 : ℚ) ≤ ago := ago.2
            linarith
          rw [hget, hold, Option.filter_eq_some_iff]
          exact ⟨rfl, by simpa using hago⟩

lemma awaits_of_download {csv : List Char} {filename : String}
    (h : (download (V := V) token (after o es).clock (after o es).store).1 = .file csv filename) :
    ∃ entry, Awaits o es token entry ∧ (after o es).clock ≤ entry.expireTs ∧
      csv = entry.csv ∧ filename = safeFilename entry.filename := by
  unfold download at h
  dsimp only at h
  split at h
  · cases h
  · next entry hget =>
    split_ifs at h with hexp
    cases h
    exact ⟨entry, (store_iff es token entry).1 hget, not_lt.1 hexp, rfl, rfl⟩

/-- **A token is good for one download, for half an hour.** Whatever runs, purges and downloads came
before, and in whichever order, a download is answered with a file exactly if a run has stored that
file under the token, nothing has been stored under it or downloaded with it since, and the
deadline has not passed. -/
theorem download_iff (o : Outside V β) (es : List (Event V β)) (token : String)
    (csv : List Char) (filename : String) :
    (download (V := V) token (after o es).clock (after o es).store).1 = .file csv filename ↔
      ∃ entry, Awaits o es token entry ∧ (after o es).clock ≤ entry.expireTs ∧
        csv = entry.csv ∧ filename = safeFilename entry.filename := by
  refine ⟨awaits_of_download, ?_⟩
  rintro ⟨entry, hawaits, hclock, rfl, rfl⟩
  unfold download
  dsimp only
  rw [(store_iff es token entry).2 hawaits hclock]
  dsimp only
  rw [if_neg (not_lt.2 hclock)]

end Tdcs.CleanerRun
