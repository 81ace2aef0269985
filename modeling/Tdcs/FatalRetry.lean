import Tdcs.ClaimProtocol

/-!
Files that failed for good, and the claims that come after.

`mark_failed` writes the same row for a fatal error as for one that is to be tried again, so what
keeps a later `try_claim` away is the number of attempts alone. The ghost `fatal` remembers the
keys a run has marked in its `FAILED` branch, until `retry_file` is called for their rows.
-/

namespace Tdcs.FatalRetry

open Tdcs.Lib Tdcs.Lib.Run Tdcs.ProcessedFileRepo Tdcs.FileProcessor Tdcs.ClaimProtocol

structure State where
  claims : ClaimProtocol.State
  fatal : Key → Bool

def init : State := ⟨ClaimProtocol.init, fun _ => false⟩

/-- The body stands at the mark of its `FAILED` branch. -/
def AtFatalMark : Pc → Bool
  | .markFatal _ => true
  | _ => false

variable (w : ℕ → Worker) (deps : Deps)

/-- The keys that failed for good, after a step. -/
def State.fatalAfter (s : State) : Event → Key → Bool
  | .db r, k =>
    s.fatal k ||
      (!(s.claims.runs r).stopped && AtFatalMark (s.claims.runs r).pc && (w r).key = k)
  | .retryFile fileId, k => s.fatal k && !(s.claims.table.row k).any (·.id = fileId)
  | _, k => s.fatal k

def step (s : State) (e : Event) : State :=
  ⟨ClaimProtocol.step w deps s.claims e, s.fatalAfter w e⟩

/-- The step is a claim of a file that failed for good. -/
def Reclaims (s : State) (r m : ℕ) (e : Event) : Prop :=
  e = .db r ∧ (s.claims.runs r).stopped = false ∧ (s.claims.runs r).pc = .tryClaim m ∧
    s.fatal (w r).key = true

/-- No such claim is granted. -/
def NoRegrant (s : State) (e : Event) : Prop :=
  ∀ r m, Reclaims w s r m e →
    ((w r).repo.tryClaim (w r).ref m s.claims.clock s.claims.table).1 = false

/-- Such a claim finds the attempts used up, unless the row has another status by now. -/
def Exhausted (s : State) (e : Event) : Prop :=
  ∀ r m, Reclaims w s r m e → ∀ row, s.claims.table.row (w r).key = some row →
    row.status = .failed → m ≤ row.retryCount

/-- A live run has a row, and that of a file that failed for good is not held. -/
structure Inv (s : State) : Prop where
  live : ∀ r, Live s.claims r → ∃ row, s.claims.table.row (w r).key = some row
  fatal : ∀ k, s.fatal k = true → ∃ row, s.claims.table.row k = some row ∧ ¬ row.Held

variable {w deps} {s : State}

lemma inv_init : Inv w init where
  live _ h := absurd rfl h.2
  fatal _ h := by cases h

lemma row_step_of_some {s : ClaimProtocol.State} {k : Key} {row : Row}
    (h : s.table.row k = some row) (e : Event) :
    ∃ row', (ClaimProtocol.step w deps s e).table.row k = some row' := by
  rcases row_step w deps s e k with hsame | ⟨fileId, -, hretry⟩ | ⟨r, c, -, -, -, rfl, hdb⟩
  · exact ⟨row, hsame.trans h⟩
  · exact ⟨_, by rw [hretry, h]; rfl⟩
  · obtain ⟨row', hrow', -⟩ := @row_perform_of_some (w r).repo (w r).ref s.clock s.table c row h
    exact ⟨row', hdb.trans hrow'⟩

lemma row_tryClaim (p : Repository) (ref : FileRef) (m now : ℕ) (t : Table) :
    ∃ row, (p.tryClaim ref m now t).2.row ref.toKey = some row := by
  rcases hrow : t.row ref.toKey with _ | row
  · exact ⟨_, (tryClaim_of_none hrow _ _ _).2⟩
  · exact ⟨_, (tryClaim_of_some hrow _ _ _).2⟩

lemma Inv.live_step (h : Inv w s) (e : Event) (r : ℕ)
    (hl : Live (ClaimProtocol.step w deps s.claims e) r) :
    ∃ row, (ClaimProtocol.step w deps s.claims e).table.row (w r).key = some row := by
  rcases ClaimProtocol.live_step hl with hl | ⟨m, rfl, hst, hpc, -⟩
  · obtain ⟨row, hrow⟩ := h.live r hl
    exact row_step_of_some hrow e
  · rw [table_step_db (c := .tryClaim m) hst (by rw [hpc]; rfl)]
    exact row_tryClaim _ _ _ _ _

lemma claimable_of_not_held {row : Row} (h : ¬ row.Held) (m now : ℕ) :
    row.claimable m now = true ↔ row.status = .failed ∧ row.retryCount < m := by
  rw [claimable_iff]
  exact ⟨fun hc => hc.resolve_right fun hh => h hh.1, .inl⟩

lemma not_held_perform {p : Repository} {ref : FileRef} {now : ℕ} {t : Table} {c : Call} {row : Row}
    (hrow : t.row ref.toKey = some row) (h : ¬ row.Held)
    (hc : ∀ m, c = .tryClaim m → row.claimable m now = false) :
    ∃ row', (p.perform ref now t c).2.row ref.toKey = some row' ∧ ¬ row'.Held := by
  obtain ⟨row', hrow', rfl | hch⟩ := @row_perform_of_some p ref now t c row hrow
  · exact ⟨_, hrow', h⟩
  refine ⟨row', hrow', ?_⟩
  cases hch with
  | claim hcl =>
    rw [hc _ rfl] at hcl
    cases hcl
  | start _ hs => exact absurd (.inl hs) h
  | archived path hs => simp [Row.Held, hs]
  | _ => simp [Row.Held]

lemma not_held_of_markFailed {p : Repository} {ref : FileRef} {now : ℕ} {t : Table}
    {et em : String} {row : Row} (hrow : t.row ref.toKey = some row) :
    ∃ row', (p.perform ref now t (.markFailed et em)).2.row ref.toKey = some row' ∧
      ¬ row'.Held := by
  rw [perform_markFailed, row_markFailed, hrow]
  exact ⟨_, rfl, by simp [Row.Held]⟩

lemma live_of_atFatalMark {r : ℕ} (hst : (s.claims.runs r).stopped = false)
    (h : AtFatalMark (s.claims.runs r).pc = true) :
    Live s.claims r ∧ ∃ result, (s.claims.runs r).pc = .markFatal result := by
  cases hpc : (s.claims.runs r).pc <;> rw [hpc] at h <;>
    simp only [AtFatalMark, Bool.false_eq_true] at h
  exact ⟨⟨hst, by rw [hpc]; simp [Pc.phase]⟩, _, rfl⟩

lemma Inv.fatal_step (h : Inv w s) (e : Event) (hno : NoRegrant w s e) {k : Key}
    (hk : s.fatal k = true) :
    ∃ row, (ClaimProtocol.step w deps s.claims e).table.row k = some row ∧ ¬ row.Held := by
  obtain ⟨row, hrow, hh⟩ := h.fatal k hk
  rcases row_step w deps s.claims e k with
    hsame | ⟨fileId, -, hretry⟩ | ⟨r, c, rfl, hst, hc, rfl, hdb⟩
  · exact ⟨row, hsame.trans hrow, hh⟩
  · refine ⟨row.retry fileId, by rw [hretry, hrow]; rfl, ?_⟩
    unfold Row.retry
    split_ifs
    · simp [Row.Held]
    · exact hh
  · rw [hdb]
    refine not_held_perform hrow hh fun m hm => ?_
    subst hm
    have hrefused := hno r m ⟨rfl, hst, pc_of_tryClaim hc, hk⟩
    rwa [(tryClaim_of_some hrow _ _ _).1] at hrefused

lemma Inv.markFatal_step (h : Inv w s) {r : ℕ} (hst : (s.claims.runs r).stopped = false)
    (hat : AtFatalMark (s.claims.runs r).pc = true) :
    ∃ row, (ClaimProtocol.step w deps s.claims (.db r)).table.row (w r).key = some row ∧
      ¬ row.Held := by
  obtain ⟨hl, result, hpc⟩ := live_of_atFatalMark hst hat
  obtain ⟨row, hrow⟩ := h.live r hl
  rw [table_step_db (c := .markFailed result.errorType result.errorStr) hst (by rw [hpc]; rfl)]
  exact not_held_of_markFailed hrow

/-- **The step lemma.** As long as no claim of a file that failed for good is granted, the rows of
such files are not held. -/
lemma Inv.step (h : Inv w s) (e : Event) (hno : NoRegrant w s e) :
    Inv w (FatalRetry.step w deps s e) := by
  refine ⟨fun r hl => h.live_step e r hl, fun k hk => ?_⟩
  by_cases hbefore : s.fatal k = true
  · exact h.fatal_step e hno hbefore
  · -- the step itself marks the file
    simp only [FatalRetry.step] at hk
    cases e with
    | db r =>
      simp only [State.fatalAfter, hbefore, Bool.false_or, Bool.and_eq_true, Bool.not_eq_true',
        decide_eq_true_eq] at hk
      obtain ⟨⟨hst, hat⟩, rfl⟩ := hk
      exact h.markFatal_step hst hat
    | retryFile fileId =>
      simp [State.fatalAfter, hbefore] at hk
    | _ => exact absurd hk hbefore

/-- **One step.** A claim of a file that failed for good is refused exactly if the attempts are
used up. -/
lemma Inv.refused_iff (h : Inv w s) (e : Event) : NoRegrant w s e ↔ Exhausted w s e := by
  refine forall_congr' fun r => forall_congr' fun m => forall_congr' fun hre => ?_
  obtain ⟨row, hrow, hh⟩ := h.fatal _ hre.2.2.2
  have hgrant := (tryClaim_of_some hrow (w r).repo m s.claims.clock).1
  have hclaim := claimable_of_not_held hh m s.claims.clock
  rw [hgrant, ← Bool.not_eq_true, hclaim]
  constructor
  · intro hrefused row' hrow' hf
    obtain rfl := Option.some.inj (hrow.symm.trans hrow')
    by_contra hlt
    exact hrefused ⟨hf, by omega⟩
  · rintro hex ⟨hf, hlt⟩
    have := hex row hrow hf
    omega

/-- **Fatal failures and the number of attempts.** In a run of any instances from an empty table, a
file that failed for good is never handed over again before its manual retry, exactly if whoever
claims it finds its attempts used up. -/
theorem noRegrant_iff (w : ℕ → Worker) (deps : Deps) (es : List Event) :
    Steps (step w deps) (NoRegrant w) init es ↔ Steps (step w deps) (Exhausted w) init es :=
  steps_iff_of_inv (I := Inv w) (fun _ e h hno => h.step e hno) (fun _ e h => h.refused_iff e)
    inv_init

/-- Two runs on one file, whose error is fatal. -/
def twice : ℕ → Worker := fun _ => ⟨{ instanceId := "a" }, ⟨⟨"t", "/in/x.csv", 0⟩, 3, "h"⟩⟩

/-- The first run fails for good and returns, and the second claims the file. -/
def failsForGood : List Event :=
  [.call 0 (.task (some 3)), .db 0, .db 0,
    .call 0 (.result { status := .failed, error := some (.fatal "no such table") }), .db 0,
    .call 0 .unit, .call 0 .unit, .call 0 .unit, .call 1 (.task (some 3)), .db 1]

theorem not_noRegrant_failsForGood :
    ¬ ∀ (w : ℕ → Worker) (deps : Deps) (es : List Event),
      Steps (step w deps) (NoRegrant w) init es := by
  intro h
  have hlast : failsForGood = failsForGood.dropLast ++ [.db 1] := rfl
  have hrun := h twice {} failsForGood
  rw [hlast] at hrun
  have hclaim : Reclaims twice (failsForGood.dropLast.foldl (step twice {}) init) 1 3 (.db 1) :=
    ⟨rfl, by decide +kernel, by decide +kernel, by decide +kernel⟩
  have hrefused := hrun.at 1 3 hclaim
  revert hrefused
  decide +kernel

end Tdcs.FatalRetry
