import Mathlib.Tactic
import Tdcs.Lib.Dict

/-!
The table `processed_files` and the statements `ProcessedFileRepository` runs on it.

A row is found by its unique key `(task_id, file_path, file_mtime)`, so the table is a
dictionary from keys to rows. Every method is one statement, hence one function from
tables to tables. The assignments of `ON DUPLICATE KEY UPDATE` are carried out from left
to right, a later one reading what the earlier ones have written, and a comparison with
`NULL` is not true. Times are microseconds; the `TIMESTAMP` columns have whole seconds, and MySQL
brings a time to them as it stores it, while a comparison takes the time as it is.
-/

namespace Tdcs.ProcessedFileRepo

open Tdcs.Lib

inductive Status | pending | claimed | processing | success | failed | skipped
  deriving DecidableEq, Repr

/-- The unique key `uk_task_file_mtime`. -/
structure Key where
  taskId : String
  filePath : String
  fileMtime : ℤ
  deriving DecidableEq, Repr

/-- The value object `FileRef`. -/
structure FileRef extends Key where
  fileSize : ℤ
  fileHash : String
  deriving DecidableEq, Repr

structure Row where
  id : ℕ
  fileName : String
  fileSize : ℤ
  fileHash : String
  status : Status
  claimedBy : Option String
  claimedAt : Option ℕ
  claimExpiresAt : Option ℕ
  instanceId : Option String
  retryCount : ℕ
  errorType : Option String
  errorMessage : Option String
  rowCount : ℕ
  validRowCount : ℕ
  processingTimeMs : Option ℕ
  archivePath : Option String
  processedAt : Option ℕ
  deriving DecidableEq, Repr

/-- The rows, and the next value of the auto-increment column `id`. -/
structure Table where
  rows : Dict Key Row
  nextId : ℕ

def Table.empty : Table := ⟨Dict.empty, 1⟩

def Table.row (t : Table) (k : Key) : Option Row := t.rows.get? k

def Table.setRow (t : Table) (k : Key) (r : Row) : Table := { t with rows := t.rows.set k r }

@[simp] lemma row_empty (k : Key) : Table.empty.row k = none := rfl

@[simp] lemma row_setRow_self (t : Table) (k : Key) (r : Row) :
    (t.setRow k r).row k = some r := by
  simp [Table.row, Table.setRow]

lemma row_setRow_of_ne (t : Table) {k k' : Key} (r : Row) (h : k' ≠ k) :
    (t.setRow k r).row k' = t.row k' :=
  Dict.get?_set_of_ne _ _ h

/-- `os.path.basename`. -/
def basename (path : String) : String :=
  String.ofList (path.toList.reverse.takeWhile (· ≠ '/')).reverse

/-- An instance of the repository: whose claims it makes, for how many seconds, and what its
connection does to fractions of a second. The service leaves the claim timeout at its default. -/
structure Repository where
  instanceId : String
  claimTimeout : ℕ+ := Nat.toPNat' 600
  /-- `TIME_TRUNCATE_FRACTIONAL` is in the `sql_mode`. -/
  truncates : Bool := false
  deriving DecidableEq, Repr

/-- `timedelta(seconds=claim_timeout)`. -/
def Repository.lease (p : Repository) : ℕ := p.claimTimeout * 1000000

/-- What a column of type `TIMESTAMP` has of a time stored in it: the nearest second, unless
fractions are cut off. -/
def Repository.stored (p : Repository) (t : ℕ) : ℕ :=
  if p.truncates then t / 1000000 * 1000000 else (t + 500000) / 1000000 * 1000000

/-- The `claim_expires_at` of a claim granted at `now`, as the row has it. -/
def Repository.expiresAt (p : Repository) (now : ℕ) : ℕ := p.stored (now + p.lease)

/-- `NOW()`, which has no fractions. -/
def sqlNow (now : ℕ) : ℕ := now / 1000000 * 1000000

/-- The row is claimed or being processed. -/
def Row.Held (r : Row) : Prop := r.status = .claimed ∨ r.status = .processing

/-! ### `try_claim` -/

/-- `claim_expires_at < :now`, not true of a `NULL`. -/
def Row.expired (r : Row) (now : ℕ) : Bool :=
  match r.claimExpiresAt with
  | none => false
  | some e => e < now

/-- The condition of the four `IF`s. -/
def Row.claimable (r : Row) (maxRetries : ℕ) (now : ℕ) : Bool :=
  (r.status = .failed && r.retryCount < maxRetries) ||
    ((r.status = .claimed || r.status = .processing) && r.expired now)

/-- The four assignments of `ON DUPLICATE KEY UPDATE`, in their order. -/
def Row.onDuplicateKey (r : Row) (p : Repository) (maxRetries : ℕ) (now expires : ℕ) : Row :=
  let r := if r.claimable maxRetries now then { r with status := .claimed } else r
  let r := if r.claimable maxRetries now then { r with claimedBy := some p.instanceId } else r
  let r := if r.claimable maxRetries now then { r with claimedAt := some (p.stored now) } else r
  if r.claimable maxRetries now then { r with claimExpiresAt := some (p.stored expires) } else r

/-- The row `try_claim` inserts. -/
def newRow (p : Repository) (ref : FileRef) (id : ℕ) (now expires : ℕ) : Row where
  id := id
  fileName := basename ref.filePath
  fileSize := ref.fileSize
  fileHash := ref.fileHash
  status := .claimed
  claimedBy := some p.instanceId
  claimedAt := some (p.stored now)
  claimExpiresAt := some (p.stored expires)
  instanceId := some p.instanceId
  retryCount := 0
  errorType := none
  errorMessage := none
  rowCount := 0
  validRowCount := 0
  processingTimeMs := none
  archivePath := none
  processedAt := none

/-- The statement of `try_claim` with its affected rows: 1 for an insertion, 2 for an
update that changes the row, 0 for one that does not. -/
def Repository.upsert (p : Repository) (ref : FileRef) (maxRetries : ℕ) (now : ℕ)
    (t : Table) : ℕ × Table :=
  let expires := now + p.lease
  match t.row ref.toKey with
  | none => (1, { (t.setRow ref.toKey (newRow p ref t.nextId now expires)) with
      nextId := t.nextId + 1 })
  | some r =>
    let r' := r.onDuplicateKey p maxRetries now expires
    (if r' = r then 0 else 2, t.setRow ref.toKey r')

def Repository.tryClaim (p : Repository) (ref : FileRef) (maxRetries : ℕ) (now : ℕ)
    (t : Table) : Bool × Table :=
  let (rowcount, t') := p.upsert ref maxRetries now t
  (rowcount = 1 || rowcount = 2, t')

/-! ### The `mark_*` methods -/

def Repository.markProcessing (p : Repository) (k : Key) (t : Table) : Bool × Table :=
  match t.row k with
  | none => (false, t)
  | some r =>
    if r.claimedBy = some p.instanceId ∧ r.status = .claimed then
      (true, t.setRow k { r with status := .processing })
    else (false, t)

/-- Returns the row's `id`, or `0` where there is no row. -/
def markSuccess (k : Key) (rowCount validCount elapsedMs : ℕ) (now : ℕ) (t : Table) :
    ℕ × Table :=
  match t.row k with
  | none => (0, t)
  | some r => (r.id, t.setRow k { r with
      status := .success
      processedAt := some (sqlNow now)
      rowCount := rowCount
      validRowCount := validCount
      processingTimeMs := some elapsedMs })

/-- Returns the new `retry_count`. -/
def markFailed (k : Key) (errorType errorMsg : String) (t : Table) : ℕ × Table :=
  match t.row k with
  | none => (1, t)
  | some r => (r.retryCount + 1, t.setRow k { r with
      status := .failed
      errorType := some errorType
      errorMessage := some errorMsg
      retryCount := r.retryCount + 1
      claimExpiresAt := none })

def markSkipped (k : Key) (reason : String) (t : Table) : Table :=
  match t.row k with
  | none => t
  | some r => t.setRow k { r with status := .skipped, errorMessage := some reason }

def markArchived (k : Key) (archivePath : String) (t : Table) : Table :=
  match t.row k with
  | none => t
  | some r =>
    if r.status = .success then t.setRow k { r with archivePath := some archivePath } else t

/-! ### A method call as a value -/

/-- The methods that write, with their arguments other than the file. -/
inductive Call
  | tryClaim (maxRetries : ℕ)
  | markProcessing
  | markSuccess (rowCount validCount elapsedMs : ℕ)
  | markFailed (errorType errorMsg : String)
  | markSkipped (reason : String)
  | markArchived (archivePath : String)
  deriving DecidableEq, Repr

/-- What a method returns. -/
inductive Reply
  | granted (b : Bool)
  | fileId (n : ℕ)
  | retryCount (n : ℕ)
  | unit
  deriving DecidableEq, Repr

/-- One method call at one moment. -/
def Repository.perform (p : Repository) (ref : FileRef) (now : ℕ) (t : Table) :
    Call → Reply × Table
  | .tryClaim maxRetries => (p.tryClaim ref maxRetries now t).map .granted id
  | .markProcessing => (p.markProcessing ref.toKey t).map .granted id
  | .markSuccess rc vc ms => (markSuccess ref.toKey rc vc ms now t).map .fileId id
  | .markFailed et em => (markFailed ref.toKey et em t).map .retryCount id
  | .markSkipped reason => (.unit, markSkipped ref.toKey reason t)
  | .markArchived path => (.unit, markArchived ref.toKey path t)

/-! ### The manual retry of the web API -/

inductive RetryAnswer | queued | notRetryable | notFound
  deriving DecidableEq, Repr

/-- The assignments of `retry_file` on one row, behind its `WHERE`. -/
def Row.retry (fileId : ℕ) (r : Row) : Row :=
  if r.id = fileId ∧ r.status = .failed then
    { r with
      status := .pending
      retryCount := 0
      errorType := none
      errorMessage := none
      claimExpiresAt := none
      claimedBy := none }
  else r

def retryFile (fileId : ℕ) (t : Table) : RetryAnswer × Table :=
  (if t.rows.values.any fun r => r.id = fileId ∧ r.status = .failed then .queued
    else if t.rows.values.any fun r => r.id = fileId then .notRetryable else .notFound,
   { t with rows := t.rows.mapValues fun _ r => r.retry fileId })

lemma row_retryFile (fileId : ℕ) (t : Table) (k : Key) :
    (retryFile fileId t).2.row k = (t.row k).map (Row.retry fileId) :=
  Dict.get?_mapValues _ _ _

/-! ### What `try_claim` does to the row of its key -/

lemma expired_iff {r : Row} {now : ℕ} :
    r.expired now = true ↔ ∃ e, r.claimExpiresAt = some e ∧ e < now := by
  unfold Row.expired
  split <;> simp_all

lemma claimable_iff {r : Row} {maxRetries now : ℕ} :
    r.claimable maxRetries now = true ↔ (r.status = .failed ∧ r.retryCount < maxRetries) ∨
      ((r.status = .claimed ∨ r.status = .processing) ∧ r.expired now = true) := by
  simp [Row.claimable]

lemma onDuplicateKey_of_not_claimable {r : Row} {p : Repository} {maxRetries : ℕ}
    {now expires : ℕ} (h : r.claimable maxRetries now = false) :
    r.onDuplicateKey p maxRetries now expires = r := by
  simp [Row.onDuplicateKey, h]

lemma onDuplicateKey_of_expired {r : Row} {p : Repository} {maxRetries : ℕ}
    {now expires : ℕ} (hs : r.status = .claimed ∨ r.status = .processing)
    (he : r.expired now = true) :
    r.onDuplicateKey p maxRetries now expires = { r with
      status := .claimed
      claimedBy := some p.instanceId
      claimedAt := some (p.stored now)
      claimExpiresAt := some (p.stored expires) } := by
  have h0 : r.claimable maxRetries now = true := claimable_iff.mpr (Or.inr ⟨hs, he⟩)
  have h1 : ∀ r' : Row, r'.status = .claimed → r'.claimExpiresAt = r.claimExpiresAt →
      r'.claimable maxRetries now = true := fun r' h h' =>
    claimable_iff.mpr (Or.inr ⟨Or.inl h, by rw [Row.expired, h', ← Row.expired, he]⟩)
  simp [Row.onDuplicateKey, h0, h1]

/-- A failed row without a lease only changes its status: once that is `CLAIMED`, the
condition of the other three `IF`s reads the missing lease. -/
lemma onDuplicateKey_of_failed {r : Row} {p : Repository} {maxRetries : ℕ}
    {now expires : ℕ} (hs : r.status = .failed) (hr : r.retryCount < maxRetries)
    (he : r.claimExpiresAt = none) :
    r.onDuplicateKey p maxRetries now expires = { r with status := .claimed } := by
  have h0 : r.claimable maxRetries now = true := claimable_iff.mpr (Or.inl ⟨hs, hr⟩)
  have h1 : ({ r with status := .claimed } : Row).claimable maxRetries now = false := by
    simp [Row.claimable, Row.expired, he]
  simp [Row.onDuplicateKey, h0, h1]

lemma lt_expiresAt (p : Repository) (now : ℕ) : now < p.expiresAt now := by
  have hpos : 0 < (p.claimTimeout : ℕ) := p.claimTimeout.pos
  unfold Repository.expiresAt Repository.stored Repository.lease
  split_ifs <;> omega

lemma onDuplicateKey_status {r : Row} {maxRetries now : ℕ}
    (h : r.claimable maxRetries now = true) (p : Repository) (expires : ℕ) :
    (r.onDuplicateKey p maxRetries now expires).status = .claimed := by
  unfold Row.onDuplicateKey
  rw [if_pos h]
  dsimp only
  split_ifs <;> rfl

/-- The update changes the row exactly where its condition holds: the lease it writes
differs from one that has run out. -/
lemma onDuplicateKey_ne_iff (r : Row) (p : Repository) (maxRetries now : ℕ) :
    r.onDuplicateKey p maxRetries now (now + p.lease) ≠ r ↔
      r.claimable maxRetries now = true := by
  constructor
  · intro h
    by_contra hc
    exact h (onDuplicateKey_of_not_claimable (by simpa using hc))
  · intro h heq
    have hst := onDuplicateKey_status h p (now + p.lease)
    rw [heq] at hst
    rcases claimable_iff.mp h with ⟨hf, -⟩ | ⟨hs, he⟩
    · rw [hf] at hst; cases hst
    · obtain ⟨e, hre, hlt⟩ := expired_iff.mp he
      rw [onDuplicateKey_of_expired hs he] at heq
      have hsame := congrArg Row.claimExpiresAt heq
      simp only [hre, Option.some.injEq] at hsame
      have hnew : now < p.stored (now + p.lease) := lt_expiresAt p now
      omega

section tryClaim

variable {p : Repository} {ref : FileRef} {maxRetries now : ℕ} {t : Table}

lemma row_tryClaim_of_ne {k : Key} (h : k ≠ ref.toKey) :
    (p.tryClaim ref maxRetries now t).2.row k = t.row k := by
  unfold Repository.tryClaim Repository.upsert
  rcases ht : t.row ref.toKey with _ | r
  · exact row_setRow_of_ne _ _ h
  · exact row_setRow_of_ne _ _ h

lemma tryClaim_of_none (h : t.row ref.toKey = none) (p : Repository) (maxRetries now : ℕ) :
    (p.tryClaim ref maxRetries now t).1 = true ∧
      (p.tryClaim ref maxRetries now t).2.row ref.toKey =
        some (newRow p ref t.nextId now (now + p.lease)) := by
  unfold Repository.tryClaim Repository.upsert
  rw [h]
  exact ⟨rfl, row_setRow_self _ _ _⟩

lemma tryClaim_of_some {r : Row} (h : t.row ref.toKey = some r) (p : Repository)
    (maxRetries now : ℕ) :
    (p.tryClaim ref maxRetries now t).1 = r.claimable maxRetries now ∧
      (p.tryClaim ref maxRetries now t).2.row ref.toKey =
        some (r.onDuplicateKey p maxRetries now (now + p.lease)) := by
  unfold Repository.tryClaim Repository.upsert
  rw [h]
  refine ⟨?_, row_setRow_self _ _ _⟩
  have hne := onDuplicateKey_ne_iff r p maxRetries now
  by_cases hc : r.claimable maxRetries now = true
  · simp [hne.mpr hc, hc]
  · simp [onDuplicateKey_of_not_claimable (by simpa using hc), hc]

end tryClaim

/-! ### What the other methods do to the row of their key -/

section marks

variable {p : Repository} {ref : FileRef} {now : ℕ} {t : Table} {k : Key}

lemma markProcessing_of_true (h : (p.markProcessing k t).1 = true) :
    ∃ row, t.row k = some row ∧ row.claimedBy = some p.instanceId ∧ row.status = .claimed ∧
      (p.markProcessing k t).2 = t.setRow k { row with status := .processing } := by
  unfold Repository.markProcessing at h ⊢
  rcases hrow : t.row k with _ | row
  · simp [hrow] at h
  · by_cases hc : row.claimedBy = some p.instanceId ∧ row.status = .claimed
    · exact ⟨row, rfl, hc.1, hc.2, by simp [hc]⟩
    · simp [hrow, hc] at h

lemma markProcessing_of_false (h : (p.markProcessing k t).1 = false) :
    (p.markProcessing k t).2 = t := by
  unfold Repository.markProcessing at h ⊢
  rcases hrow : t.row k with _ | row
  · rfl
  · by_cases hc : row.claimedBy = some p.instanceId ∧ row.status = .claimed
    · simp [hrow, hc] at h
    · simp [hc]

lemma row_markSuccess (rc vc ms : ℕ) :
    (markSuccess k rc vc ms now t).2.row k = (t.row k).map fun r => { r with
      status := .success
      processedAt := some (sqlNow now)
      rowCount := rc
      validRowCount := vc
      processingTimeMs := some ms } := by
  unfold markSuccess
  rcases hrow : t.row k with _ | r <;> simp [hrow]

lemma row_markFailed (et em : String) :
    (markFailed k et em t).2.row k = (t.row k).map fun r => { r with
      status := .failed
      errorType := some et
      errorMessage := some em
      retryCount := r.retryCount + 1
      claimExpiresAt := none } := by
  unfold markFailed
  rcases hrow : t.row k with _ | r <;> simp [hrow]

lemma row_markSkipped (reason : String) :
    (markSkipped k reason t).row k = (t.row k).map fun r => { r with
      status := .skipped
      errorMessage := some reason } := by
  unfold markSkipped
  rcases hrow : t.row k with _ | r <;> simp [hrow]

lemma row_markArchived (path : String) :
    (markArchived k path t).row k = (t.row k).map fun r =>
      if r.status = .success then { r with archivePath := some path } else r := by
  unfold markArchived
  rcases hrow : t.row k with _ | r
  · simp [hrow]
  · by_cases h : r.status = .success <;> simp [hrow, h]

section perform

@[simp] lemma perform_tryClaim (m : ℕ) : p.perform ref now t (.tryClaim m) =
    (.granted (p.tryClaim ref m now t).1, (p.tryClaim ref m now t).2) := rfl
@[simp] lemma perform_markProcessing : p.perform ref now t .markProcessing =
    (.granted (p.markProcessing ref.toKey t).1, (p.markProcessing ref.toKey t).2) := rfl
@[simp] lemma perform_markSuccess (rc vc ms : ℕ) : p.perform ref now t (.markSuccess rc vc ms) =
    (.fileId (markSuccess ref.toKey rc vc ms now t).1,
      (markSuccess ref.toKey rc vc ms now t).2) := rfl
@[simp] lemma perform_markFailed (et em : String) : p.perform ref now t (.markFailed et em) =
    (.retryCount (markFailed ref.toKey et em t).1, (markFailed ref.toKey et em t).2) := rfl
@[simp] lemma perform_markSkipped (reason : String) : p.perform ref now t (.markSkipped reason) =
    (.unit, markSkipped ref.toKey reason t) := rfl
@[simp] lemma perform_markArchived (path : String) : p.perform ref now t (.markArchived path) =
    (.unit, markArchived ref.toKey path t) := rfl

end perform

lemma row_perform_of_ne (p : Repository) (now : ℕ) (c : Call) {k : Key} (h : k ≠ ref.toKey) :
    (p.perform ref now t c).2.row k = t.row k := by
  cases c with
  | tryClaim m => exact row_tryClaim_of_ne h
  | markProcessing =>
    rw [perform_markProcessing, Repository.markProcessing]
    rcases t.row ref.toKey with _ | r
    · rfl
    · dsimp only
      split_ifs
      · exact row_setRow_of_ne _ _ h
      · rfl
  | markSuccess rc vc ms =>
    rw [perform_markSuccess, markSuccess]
    rcases t.row ref.toKey with _ | r
    · rfl
    · exact row_setRow_of_ne _ _ h
  | markFailed et em =>
    rw [perform_markFailed, markFailed]
    rcases t.row ref.toKey with _ | r
    · rfl
    · exact row_setRow_of_ne _ _ h
  | markSkipped reason =>
    rw [perform_markSkipped, markSkipped]
    rcases t.row ref.toKey with _ | r
    · rfl
    · exact row_setRow_of_ne _ _ h
  | markArchived path =>
    rw [perform_markArchived, markArchived]
    rcases t.row ref.toKey with _ | r
    · rfl
    · dsimp only
      split_ifs
      · exact row_setRow_of_ne _ _ h
      · rfl

end marks

/-! ### Everything a method can do to the row of its key -/

/-- The call `c`, made through `p` at `now`, turns the one row into the other. -/
inductive Row.Change (p : Repository) (now : ℕ) : Call → Row → Row → Prop
  | claim {m : ℕ} {row : Row} (h : row.claimable m now = true) :
      Change p now (.tryClaim m) row (row.onDuplicateKey p m now (now + p.lease))
  | start {row : Row} (hc : row.claimedBy = some p.instanceId) (hs : row.status = .claimed) :
      Change p now .markProcessing row { row with status := .processing }
  | success (rc vc ms : ℕ) (row : Row) : Change p now (.markSuccess rc vc ms) row { row with
      status := .success
      processedAt := some (sqlNow now)
      rowCount := rc
      validRowCount := vc
      processingTimeMs := some ms }
  | failed (et em : String) (row : Row) : Change p now (.markFailed et em) row { row with
      status := .failed
      errorType := some et
      errorMessage := some em
      retryCount := row.retryCount + 1
      claimExpiresAt := none }
  | skipped (reason : String) (row : Row) : Change p now (.markSkipped reason) row { row with
      status := .skipped
      errorMessage := some reason }
  | archived (path : String) {row : Row} (hs : row.status = .success) :
      Change p now (.markArchived path) row { row with archivePath := some path }

section change

variable {p : Repository} {ref : FileRef} {now : ℕ} {t : Table} {c : Call}

lemma row_perform_of_some {row : Row} (h : t.row ref.toKey = some row) :
    ∃ row', (p.perform ref now t c).2.row ref.toKey = some row' ∧
      (row' = row ∨ row.Change p now c row') := by
  cases c with
  | tryClaim m =>
    have h2 := (tryClaim_of_some h p m now).2
    by_cases hc : row.claimable m now = true
    · exact ⟨_, h2, .inr (.claim hc)⟩
    · rw [onDuplicateKey_of_not_claimable (by simpa using hc)] at h2
      exact ⟨row, h2, .inl rfl⟩
  | markProcessing =>
    rw [perform_markProcessing]
    rcases hb : (p.markProcessing ref.toKey t).1 with _ | _
    · rw [markProcessing_of_false hb]
      exact ⟨row, h, .inl rfl⟩
    · obtain ⟨r, hr, hcl, hs, ht⟩ := markProcessing_of_true hb
      obtain rfl := Option.some.inj (hr.symm.trans h)
      rw [ht]
      exact ⟨_, row_setRow_self _ _ _, .inr (.start hcl hs)⟩
  | markSuccess rc vc ms =>
    rw [perform_markSuccess, row_markSuccess, h]
    exact ⟨_, rfl, .inr (.success rc vc ms row)⟩
  | markFailed et em =>
    rw [perform_markFailed, row_markFailed, h]
    exact ⟨_, rfl, .inr (.failed et em row)⟩
  | markSkipped reason =>
    rw [perform_markSkipped, row_markSkipped, h]
    exact ⟨_, rfl, .inr (.skipped reason row)⟩
  | markArchived path =>
    rw [perform_markArchived, row_markArchived, h]
    by_cases hs : row.status = .success
    · exact ⟨_, congrArg some (if_pos hs), .inr (.archived path hs)⟩
    · exact ⟨_, congrArg some (if_neg hs), .inl rfl⟩

lemma row_perform_of_none (h : t.row ref.toKey = none) {row : Row}
    (hrow : (p.perform ref now t c).2.row ref.toKey = some row) :
    (∃ m, c = .tryClaim m) ∧ row = newRow p ref t.nextId now (now + p.lease) := by
  cases c with
  | tryClaim m =>
    rw [perform_tryClaim, (tryClaim_of_none h p m now).2] at hrow
    exact ⟨⟨m, rfl⟩, (Option.some.inj hrow).symm⟩
  | markProcessing => simp [Repository.markProcessing, h] at hrow
  | markSuccess rc vc ms => simp [markSuccess, h] at hrow
  | markFailed et em => simp [markFailed, h] at hrow
  | markSkipped reason => simp [markSkipped, h] at hrow
  | markArchived path => simp [markArchived, h] at hrow

/-- Where a row after a call comes from. -/
lemma row_perform_cases {k : Key} {row' : Row}
    (h : (p.perform ref now t c).2.row k = some row') :
    t.row k = some row' ∨ k = ref.toKey ∧
      ((∃ m, c = .tryClaim m) ∧ row' = newRow p ref t.nextId now (now + p.lease) ∨
        ∃ row, t.row k = some row ∧ row.Change p now c row') := by
  by_cases hk : k = ref.toKey
  swap
  · exact .inl ((row_perform_of_ne p now c hk).symm.trans h)
  subst hk
  rcases hrow : t.row ref.toKey with _ | row
  · exact .inr ⟨rfl, .inl (row_perform_of_none hrow h)⟩
  · obtain ⟨row₁, h₁, hc⟩ := @row_perform_of_some p ref now t c row hrow
    obtain rfl := Option.some.inj (h₁.symm.trans h)
    rcases hc with rfl | hc
    · exact .inl rfl
    · exact .inr ⟨rfl, .inr ⟨row, rfl, hc⟩⟩

end change

/-! ### Failed rows have no lease -/

def FailedUnleased (t : Table) : Prop :=
  ∀ k row, t.row k = some row → row.status = .failed → row.claimExpiresAt = none

lemma failedUnleased_empty : FailedUnleased Table.empty := by
  intro k row h
  simp at h

lemma failedUnleased_perform {t : Table} (h : FailedUnleased t) (p : Repository)
    (ref : FileRef) (now : ℕ) (c : Call) : FailedUnleased (p.perform ref now t c).2 := by
  intro k row hrow hf
  rcases row_perform_cases hrow with hrow | ⟨-, ⟨-, rfl⟩ | ⟨r, ht, hc⟩⟩
  · exact h k row hrow hf
  · cases hf
  cases hc with
  | claim hc =>
    rw [onDuplicateKey_status hc] at hf
    cases hf
  | failed et em => rfl
  | archived path hs => exact h k r ht hf
  | _ => cases hf

lemma failedUnleased_retryFile {t : Table} (h : FailedUnleased t) (fileId : ℕ) :
    FailedUnleased (retryFile fileId t).2 := by
  intro k row hrow hf
  rw [row_retryFile] at hrow
  obtain ⟨r, ht, rfl⟩ := Option.map_eq_some_iff.mp hrow
  unfold Row.retry at hf ⊢
  split_ifs at hf ⊢ with hc
  exact h k r ht hf

end Tdcs.ProcessedFileRepo
