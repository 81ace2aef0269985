import Tdcs.ClaimReport
import Tdcs.ClaimProtocol

/-!
The manual retry of a failed file, and the claim that is to follow it.

`retry_file` writes the status `PENDING`, which is none of those `try_claim` hands over.
-/

namespace Tdcs.ManualRetry

open Tdcs.Lib Tdcs.Lib.Run Tdcs.ProcessedFileRepo Tdcs.FileProcessor Tdcs.ClaimProtocol

/-- A run of the instance on the file gets `True` from `try_claim` and from `mark_processing`. -/
def LetsIn (foundRows : Bool) (p : Repository) (ref : FileRef) (maxRetries now : ℕ) (t : Table) :
    Prop :=
  let claim := ClaimReport.tryClaim foundRows p ref maxRetries now t
  claim.1 = true ∧ (p.markProcessing ref.toKey claim.2).1 = true

variable {t : Table}

lemma not_claimable_of_pending {row : Row} (h : row.status = .pending) (maxRetries now : ℕ) :
    row.claimable maxRetries now = false := by
  simp [Row.claimable, h]

lemma not_letsIn_of_pending {ref : FileRef} {row : Row} (hrow : t.row ref.toKey = some row)
    (h : row.status = .pending) (foundRows : Bool) (p : Repository) (maxRetries now : ℕ) :
    ¬ LetsIn foundRows p ref maxRetries now t := by
  rintro ⟨-, hstart⟩
  have hsame := (ProcessedFileRepo.tryClaim_of_some hrow p maxRetries now).2
  rw [onDuplicateKey_of_not_claimable (not_claimable_of_pending h maxRetries now),
    ← ClaimReport.tryClaim_snd] at hsame
  obtain ⟨row', hrow', -, hclaimed, -⟩ := markProcessing_of_true hstart
  obtain rfl := Option.some.inj (hsame.symm.trans hrow')
  rw [h] at hclaimed
  cases hclaimed

lemma retryFile_of_failed {k : Key} {row : Row} (hrow : t.row k = some row)
    (h : row.status = .failed) :
    (retryFile row.id t).1 = .queued ∧ ∃ row', (retryFile row.id t).2.row k = some row' ∧
      row'.status = .pending := by
  have hmem := Dict.get?_eq_some_iff.1 hrow
  have hany : (t.rows.values.any fun r => r.id = row.id ∧ r.status = .failed) = true :=
    List.any_eq_true.2 ⟨row, List.mem_map.2 ⟨_, hmem, rfl⟩, by simp [h]⟩
  refine ⟨by rw [retryFile, if_pos hany], ?_⟩
  rw [row_retryFile, hrow]
  exact ⟨_, rfl, by simp [Row.retry, h]⟩

/-- **The manual retry lets nobody in.** For every failed row `retry_file` answers that the file is
queued, and whoever then runs on the file is turned away by `try_claim` or by `mark_processing`,
on both kinds of connections. -/
theorem not_letsIn_retryFile (foundRows : Bool) (p : Repository) (ref : FileRef)
    (maxRetries now : ℕ) (t : Table) (row : Row) (hrow : t.row ref.toKey = some row)
    (hfailed : row.status = .failed) :
    (retryFile row.id t).1 = .queued ∧
      ¬ LetsIn foundRows p ref maxRetries now (retryFile row.id t).2 := by
  obtain ⟨hqueued, row', hrow', hpending⟩ := retryFile_of_failed hrow hfailed
  exact ⟨hqueued, not_letsIn_of_pending hrow' hpending foundRows p maxRetries now⟩

/-- One run on the instance `a` whose file fails once. -/
def onA : ℕ → Worker := fun _ => ⟨{ instanceId := "a" }, ⟨⟨"t", "/in/x.csv", 0⟩, 3, "h"⟩⟩

def failsOnce : List Event :=
  [.call 0 (.task (some 3)), .db 0, .db 0,
    .call 0 (.result { status := .retry, error := some (.retryable "timeout") }), .db 0]

lemma row_failsOnce : ∃ row, (failsOnce.foldl (step onA {}) init).table.row (onA 0).key = some row ∧
    row.id = 1 ∧ row.status = .failed := by
  have h : ((failsOnce.foldl (step onA {}) init).table.row (onA 0).key).any
      (fun row => row.id = 1 ∧ row.status = .failed) = true := by decide +kernel
  obtain ⟨row, hrow, hok⟩ := (Option.any_eq_true _ _).1 h
  obtain ⟨hid, hfailed⟩ := of_decide_eq_true hok
  exact ⟨row, hrow, hid, hfailed⟩

theorem not_letsIn_retryFile_failsOnce :
    let t := (failsOnce.foldl (step onA {}) init).table
    (retryFile 1 t).1 = .queued ∧
      ¬ LetsIn false (onA 0).repo (onA 0).ref 3 1 (retryFile 1 t).2 := by
  obtain ⟨row, hrow, hid, hfailed⟩ := row_failsOnce
  have h := not_letsIn_retryFile false (onA 0).repo (onA 0).ref 3 1 _ row hrow hfailed
  rwa [hid] at h

/-- The retry of a file that failed once is answered, and the same instance is not let in. -/
theorem not_letsIn_failsOnce :
    ¬ ∀ (w : ℕ → Worker) (deps : Deps) (es : List Event) (foundRows : Bool) (p : Repository)
      (ref : FileRef) (maxRetries now : ℕ) (row : Row),
      let t := (es.foldl (step w deps) init).table
      t.row ref.toKey = some row → row.status = .failed → (retryFile row.id t).1 = .queued →
      LetsIn foundRows p ref maxRetries now (retryFile row.id t).2 := by
  intro h
  obtain ⟨row, hrow, hid, hfailed⟩ := row_failsOnce
  obtain ⟨hqueued, row', hrow', hpending⟩ := retryFile_of_failed hrow hfailed
  have hin := h onA {} failsOnce false (onA 0).repo (onA 0).ref 3 1 row hrow hfailed hqueued
  exact not_letsIn_of_pending hrow' hpending false (onA 0).repo 3 1 hin

/-! ### The file afterwards -/

variable (w : ℕ → Worker) (deps : Deps)

/-- The row of the key is `PENDING`, and no run stands between a claim of it and its mark. -/
def Parked (k : Key) (s : State) : Prop :=
  (∃ row, s.table.row k = some row ∧ row.status = .pending) ∧
    ∀ r, (w r).key = k → ¬ Live s r

variable {w deps} {s : State} {k : Key}

lemma perform_of_pending {ref : FileRef} {c : Call} {row : Row}
    (hrow : t.row ref.toKey = some row) (h : row.status = .pending)
    (hc : terminalMark c = false) (p : Repository) (now : ℕ) :
    (p.perform ref now t c).2.row ref.toKey = some row ∧
      isGrant c (p.perform ref now t c).1 = false := by
  obtain ⟨row', hrow', hch⟩ := @row_perform_of_some p ref now t c row hrow
  have hsame : row' = row := by
    rcases hch with heq | hch
    · exact heq
    · exfalso
      cases hch with
      | claim hcl =>
        rw [not_claimable_of_pending h] at hcl
        cases hcl
      | start _ hs =>
        rw [h] at hs
        cases hs
      | archived path hs =>
        rw [h] at hs
        cases hs
      | _ => cases hc
  refine ⟨hsame ▸ hrow', ?_⟩
  cases c with
  | tryClaim m =>
    rw [perform_tryClaim, (tryClaim_of_some hrow p m now).1, not_claimable_of_pending h]
    rfl
  | _ => rfl

lemma terminalMark_of_idle {pc : Pc} {c : Call} (hc : pc.dbCall = some c) (h : pc.phase = .idle) :
    terminalMark c = false := by
  rcases ht : terminalMark c with _ | _
  · rfl
  · rw [phase_terminal hc ht] at h
    cases h

/-- **The step lemma.** A parked file stays parked, whatever happens. -/
theorem Parked.step (h : Parked w k s) (e : Event) :
    Parked w k (ClaimProtocol.step w deps s e) := by
  obtain ⟨⟨row, hrow, hp⟩, hlive⟩ := h
  refine ⟨⟨row, ?_, hp⟩, fun r hk hl => ?_⟩
  · rcases row_step w deps s e k with hsame | ⟨fileId, -, hretry⟩ | ⟨r, c, -, hst, hc, rfl, hdb⟩
    · rw [hsame, hrow]
    · simp [hretry, hrow, Row.retry, hp]
    · have hidle : (s.runs r).pc.phase = .idle := by
        by_contra hne
        exact hlive r rfl ⟨hst, hne⟩
      rw [hdb]
      exact (perform_of_pending hrow hp (terminalMark_of_idle hc hidle) _ _).1
  · rcases live_step hl with hl | ⟨m, -, -, -, hg⟩
    · exact hlive r hk hl
    · -- a grant needs a row that is claimable
      subst hk
      have hno := (perform_of_pending hrow hp (rfl : terminalMark (.tryClaim m) = false)
        (w r).repo s.clock).2
      rw [show (s.perform w r (.tryClaim m)).1 = _ from rfl, State.perform, hno] at hg
      cases hg

lemma parked_of_retryFile {row : Row} (hrow : s.table.row k = some row) (hf : row.status = .failed)
    (hidle : ∀ r, (w r).key = k → ¬ Live s r) :
    Parked w k (ClaimProtocol.step w deps s (.retryFile row.id)) := by
  obtain ⟨-, row', hrow', hp⟩ := retryFile_of_failed hrow hf
  exact ⟨⟨row', hrow', hp⟩, hidle⟩

/-- **The run lemma.** However long the instances go on, nobody is let in on a file whose failed
row was retried while nobody worked on it. -/
theorem always_not_letsIn_retryFile {row : Row} {ref : FileRef}
    (hrow : s.table.row ref.toKey = some row) (hf : row.status = .failed)
    (hidle : ∀ r, (w r).key = ref.toKey → ¬ Live s r) (es : List Event) :
    Always (ClaimProtocol.step w deps)
      (fun s => ∀ foundRows p maxRetries, ¬ LetsIn foundRows p ref maxRetries s.clock s.table)
      (ClaimProtocol.step w deps s (.retryFile row.id)) es := by
  have hpark : Always (ClaimProtocol.step w deps) (Parked w ref.toKey)
      (ClaimProtocol.step w deps s (.retryFile row.id)) es :=
    always_of_step (fun _ e h => h.step e) (parked_of_retryFile hrow hf hidle) es
  refine hpark.mono fun s' h foundRows p maxRetries => ?_
  obtain ⟨⟨row', hrow', hp⟩, -⟩ := h
  exact not_letsIn_of_pending hrow' hp foundRows p maxRetries s'.clock

end Tdcs.ManualRetry
