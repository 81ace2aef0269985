import Tdcs.ProcessedFileRepo

/-!
What `try_claim` reports, on both kinds of connections.

MySQL counts one row for an insertion and two for an update that changes the row. A row the
update leaves as it is counts nothing, except on a connection opened with `CLIENT_FOUND_ROWS`,
where it counts one.
-/

namespace Tdcs.ClaimReport

open Tdcs.Lib Tdcs.ProcessedFileRepo

/-- The affected rows of `INSERT ... ON DUPLICATE KEY UPDATE`. -/
def affectedRows (foundRows : Bool) (before : Option Row) (after : Row) : ℕ :=
  match before with
  | none => 1
  | some r => if after = r then (if foundRows then 1 else 0) else 2

/-- `try_claim` on a connection of either kind. -/
def tryClaim (foundRows : Bool) (p : Repository) (ref : FileRef) (maxRetries now : ℕ)
    (t : Table) : Bool × Table :=
  let t' := (p.upsert ref maxRetries now t).2
  let rowcount := match t'.row ref.toKey with
    | none => 0
    | some after => affectedRows foundRows (t.row ref.toKey) after
  (rowcount = 1 || rowcount = 2, t')

/-- The row is there for the taking. -/
def Free (maxRetries now : ℕ) : Option Row → Prop
  | none => True
  | some row => (row.status = .failed ∧ row.retryCount < maxRetries) ∨
      ((row.status = .claimed ∨ row.status = .processing) ∧
        ∃ e, row.claimExpiresAt = some e ∧ e < now)

/-- `try_claim` answers `True` exactly for a free row; then `mark_processing` lets the same
instance start; and where it answers `False` the row is as it was. -/
def ReportsClaim (foundRows : Bool) (p : Repository) (ref : FileRef) (maxRetries now : ℕ)
    (t : Table) : Prop :=
  let claim := tryClaim foundRows p ref maxRetries now t
  (claim.1 = true ↔ Free maxRetries now (t.row ref.toKey)) ∧
    (Free maxRetries now (t.row ref.toKey) → (p.markProcessing ref.toKey claim.2).1 = true) ∧
    (claim.1 = false → claim.2.row ref.toKey = t.row ref.toKey)

variable {foundRows : Bool} {p : Repository} {ref : FileRef} {maxRetries now : ℕ} {t : Table}

lemma free_some_iff {row : Row} :
    Free maxRetries now (some row) ↔ row.claimable maxRetries now = true := by
  rw [claimable_iff, expired_iff]
  rfl

/-- Where unchanged rows count nothing this is `try_claim` as its docstring has it. -/
lemma tryClaim_changedRows : tryClaim false p ref maxRetries now t =
    p.tryClaim ref maxRetries now t := by
  unfold tryClaim Repository.tryClaim Repository.upsert
  rcases hrow : t.row ref.toKey with _ | row
  · have hself : (t.setRow ref.toKey (newRow p ref t.nextId now (now + p.lease))).row ref.toKey =
        some _ := row_setRow_self _ _ _
    simp only [Table.row] at hself ⊢
    simp [hself, affectedRows]
  · simp only [row_setRow_self, affectedRows]
    rfl

lemma tryClaim_snd : (tryClaim foundRows p ref maxRetries now t).2 =
    (p.tryClaim ref maxRetries now t).2 := rfl

lemma tryClaim_of_none (h : t.row ref.toKey = none) :
    (tryClaim foundRows p ref maxRetries now t).1 = true := by
  have hrow := (ProcessedFileRepo.tryClaim_of_none h p maxRetries now).2
  have hafter : (p.upsert ref maxRetries now t).2.row ref.toKey = some _ := hrow
  simp [tryClaim, hafter, affectedRows, h]

lemma tryClaim_of_some {row : Row} (h : t.row ref.toKey = some row) :
    (tryClaim foundRows p ref maxRetries now t).1 =
      (foundRows || row.claimable maxRetries now) := by
  have hrow := (ProcessedFileRepo.tryClaim_of_some h p maxRetries now).2
  have hafter : (p.upsert ref maxRetries now t).2.row ref.toKey = some _ := hrow
  have hne := onDuplicateKey_ne_iff row p maxRetries now
  by_cases hc : row.claimable maxRetries now = true
  · simp [tryClaim, hafter, affectedRows, h, hne.mpr hc, hc]
  · rw [Bool.not_eq_true] at hc
    cases foundRows <;> simp [tryClaim, hafter, affectedRows, h,
      onDuplicateKey_of_not_claimable hc, hc]

/-- Who a claimable row belongs to afterwards: the second `IF` reads the status the first has
written, so a failed row changes hands only if it has a lease that has run out. -/
lemma claimedBy_onDuplicateKey {row : Row} (h : row.claimable maxRetries now = true)
    (expires : ℕ) : (row.onDuplicateKey p maxRetries now expires).claimedBy =
      if row.expired now then some p.instanceId else row.claimedBy := by
  by_cases he : row.expired now = true
  · have h1 : ∀ r' : Row, r'.status = .claimed → r'.claimExpiresAt = row.claimExpiresAt →
        r'.claimable maxRetries now = true := fun r' hs hl =>
      claimable_iff.mpr (Or.inr ⟨Or.inl hs, by rw [Row.expired, hl, ← Row.expired, he]⟩)
    simp [Row.onDuplicateKey, h, h1, he]
  · have h1 : ({ row with status := .claimed } : Row).claimable maxRetries now = false := by
      rw [Bool.not_eq_true] at he
      simp only [Row.expired] at he
      simp [Row.claimable, Row.expired, he]
    simp [Row.onDuplicateKey, h, h1, he]

lemma markProcessing_tryClaim {row : Row} (h : t.row ref.toKey = some row)
    (hc : row.claimable maxRetries now = true) :
    (p.markProcessing ref.toKey (tryClaim foundRows p ref maxRetries now t).2).1 = true ↔
      row.expired now = true ∨ row.claimedBy = some p.instanceId := by
  have hrow := (ProcessedFileRepo.tryClaim_of_some h p maxRetries now).2
  have hst := onDuplicateKey_status hc p (now + p.lease)
  have hby := claimedBy_onDuplicateKey (p := p) hc (now + p.lease)
  unfold Repository.markProcessing
  rw [tryClaim_snd, hrow]
  dsimp only
  rw [hst, hby]
  by_cases he : row.expired now = true <;> by_cases hb : row.claimedBy = some p.instanceId <;>
    simp [he, hb]

lemma markProcessing_tryClaim_of_none {ref : FileRef} {t : Table} (h : t.row ref.toKey = none)
    (foundRows : Bool) (p : Repository) (maxRetries now : ℕ) :
    (p.markProcessing ref.toKey (tryClaim foundRows p ref maxRetries now t).2).1 = true := by
  have hafter := (ProcessedFileRepo.tryClaim_of_none h p maxRetries now).2
  simp [Repository.markProcessing, tryClaim_snd, hafter, newRow]

/-- **A reported claim is a real claim**, exactly where the connection counts changed rows or the
row is free, and a failed row that may be retried is the instance's own or has a lease that has
run out. -/
theorem reportsClaim_iff (foundRows : Bool) (p : Repository) (ref : FileRef)
    (maxRetries now : ℕ) (t : Table) :
    ReportsClaim foundRows p ref maxRetries now t ↔
      (foundRows = true → Free maxRetries now (t.row ref.toKey)) ∧
      ∀ row, t.row ref.toKey = some row → row.status = .failed → row.retryCount < maxRetries →
        row.claimedBy = some p.instanceId ∨ ∃ e, row.claimExpiresAt = some e ∧ e < now := by
  unfold ReportsClaim
  dsimp only
  rcases hrow : t.row ref.toKey with _ | row
  · -- an insertion
    have hgrant : (tryClaim foundRows p ref maxRetries now t).1 = true := tryClaim_of_none hrow
    have hstart := markProcessing_tryClaim_of_none hrow foundRows p maxRetries now
    refine iff_of_true ⟨iff_of_true hgrant trivial, fun _ => hstart, fun hno => ?_⟩
      ⟨fun _ => trivial, fun row h => by cases h⟩
    rw [hgrant] at hno
    cases hno
  · have hgrant : (tryClaim foundRows p ref maxRetries now t).1 =
        (foundRows || row.claimable maxRetries now) := tryClaim_of_some hrow
    have hkeep : (tryClaim foundRows p ref maxRetries now t).1 = false →
        (tryClaim foundRows p ref maxRetries now t).2.row ref.toKey = some row := by
      intro hno
      rw [hgrant, Bool.or_eq_false_iff] at hno
      have hafter := (ProcessedFileRepo.tryClaim_of_some hrow p maxRetries now).2
      rwa [onDuplicateKey_of_not_claimable hno.2] at hafter
    rw [hgrant, free_some_iff]
    by_cases hc : row.claimable maxRetries now = true
    · have hstart : (p.markProcessing ref.toKey
          (tryClaim foundRows p ref maxRetries now t).2).1 = true ↔
            row.expired now = true ∨ row.claimedBy = some p.instanceId :=
        markProcessing_tryClaim hrow hc
      simp only [hc, Bool.or_true, forall_const, hstart, Bool.true_eq_false,
        false_implies, and_true, implies_true, true_and, Option.some.injEq, forall_eq']
      rw [expired_iff]
      constructor
      · rintro (he | hb) - -
        · exact .inr he
        · exact .inl hb
      · intro h
        rcases claimable_iff.mp hc with ⟨hs, hr⟩ | ⟨-, he⟩
        · exact (h hs hr).symm
        · exact .inl (expired_iff.mp he)
    · have hnot : ∀ row', some row = some row' → row'.status = .failed →
          row'.retryCount < maxRetries → row'.claimedBy = some p.instanceId ∨
            ∃ e, row'.claimExpiresAt = some e ∧ e < now := by
        rintro row' h hs hr
        cases h
        exact absurd (claimable_iff.mpr (.inl ⟨hs, hr⟩)) hc
      rw [Bool.not_eq_true] at hc
      cases foundRows with
      | true => simp [hc]
      | false =>
        refine iff_of_true ⟨by simp [hc], by simp [hc], fun hno => hkeep (hgrant.trans hno)⟩
          ⟨by simp, hnot⟩

/-- A file that failed once on the instance `a`. -/
def failedOnA : Table :=
  let a : Repository := { instanceId := "a" }
  let ref : FileRef := ⟨⟨"t", "/in/x.csv", 0⟩, 3, "h"⟩
  (markFailed ref.toKey "RetryableError" "timeout"
    (a.markProcessing ref.toKey (a.tryClaim ref 3 0 Table.empty).2).2).2

/-- The instance `b` is told that the file is its own, and is not let in. -/
theorem not_reportsClaim_failedOnA :
    ¬ ∀ (foundRows : Bool) (p : Repository) (ref : FileRef) (maxRetries now : ℕ) (t : Table),
      ReportsClaim foundRows p ref maxRetries now t := by
  intro h
  obtain ⟨-, hstart, -⟩ :=
    h false { instanceId := "b" } ⟨⟨"t", "/in/x.csv", 0⟩, 3, "h"⟩ 3 1 failedOnA
  have hno : (Repository.markProcessing { instanceId := "b" } ⟨"t", "/in/x.csv", 0⟩
      (tryClaim false { instanceId := "b" } ⟨⟨"t", "/in/x.csv", 0⟩, 3, "h"⟩ 3 1 failedOnA).2).1 =
        false := by
    decide
  rw [hstart (.inl ⟨rfl, by decide⟩)] at hno
  cases hno

end Tdcs.ClaimReport
