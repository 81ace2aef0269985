import Tdcs.ClaimReport
import Tdcs.FileProcessor
import Tdcs.Lib.Run

/-!
The retry budget of one file on one instance.

Any number of calls of `FileProcessor.__call__` for the file, each standing at a control point
of its own, take their steps in any order; the pipeline answers `RETRY` every time, and
`move_to_dead_letter` and `notify_dead_letter` answer or raise. The machine counts the calls that
are let in and the calls of those two, and remembers of each call whether it was let in and
whether another has been in its way.
-/

namespace Tdcs.RetryBudget

open Tdcs.Lib Tdcs.Lib.Run Tdcs.ProcessedFileRepo Tdcs.FileProcessor Tdcs.ClaimReport

/-- The instance, its kind of connection, the file and its task's `max_retries`. -/
structure Setup where
  foundRows : Bool
  repo : Repository
  ref : FileRef
  deps : Deps
  maxRetries : ℕ

structure State where
  clock : ℕ
  table : Table
  pcs : ℕ → Pc
  /-- The call met the file held by another when it tried to claim it, or another has been let
  in since. -/
  rivalled : ℕ → Bool
  letIn : ℕ → Bool
  admitted : ℕ
  moved : ℕ
  notified : ℕ
  /-- A call of `move_to_dead_letter` has raised, and the alerter was not called after it. -/
  unreported : Bool

/-- No call has begun. -/
def init : State where
  clock := 0
  table := Table.empty
  pcs := fun _ => .getTask
  rivalled := fun _ => false
  letIn := fun _ => false
  admitted := 0
  moved := 0
  notified := 0
  unreported := false

inductive Event
  | tick (d : ℕ)
  /-- The pending call of the body `i` answers, with `r` where it is the pipeline. -/
  | resume (i : ℕ) (r : {r : PipelineResult // r.status = .retry})
  /-- The pending call of the body `i` raises, where it is one for the dead letter:
  `os.makedirs` in `move_to_dead_letter` stands before the `try`. -/
  | fail (i : ℕ) (e : Exc)

variable (u : Setup)

/-- How many attempts a file is given. -/
def Setup.budget : ℕ := max 1 u.maxRetries

def State.row (s : State) : Option Row := s.table.row u.ref.toKey

/-- Some call holds the file. -/
def State.held (s : State) : Bool :=
  (s.row u).any fun row => row.status = .claimed || row.status = .processing

/-- The answer of the pending call of a body at `pc`, and the table after it. -/
def State.answer (s : State) (pc : Pc) (r : PipelineResult) : Answer × Table :=
  match pc with
  | .getTask => (.task (some u.maxRetries), s.table)
  | .execute _ => (.result r, s.table)
  | .tryClaim m =>
    let (b, t) := ClaimReport.tryClaim u.foundRows u.repo u.ref m s.clock s.table
    (.db (.granted b), t)
  | pc =>
    match pc.dbCall with
    | some c => ((u.repo.perform u.ref s.clock s.table c).map .db id)
    | none => (.unit, s.table)

/-- Whether the answer lets the call in, where it decides that. -/
def verdict : Pc → Answer → Option Bool
  | .tryClaim _, .db (.granted false) => some false
  | .markProcessing _, .db (.granted b) => some b
  | _, _ => none

def step (s : State) : Event → State
  | .tick d => { s with clock := s.clock + d }
  | .resume i r =>
    let pc := s.pcs i
    let (a, t) := s.answer u pc r
    { s with
      table := t
      pcs := Function.update s.pcs i (resume u.deps pc a)
      rivalled := match pc with
        | .tryClaim _ => Function.update s.rivalled i (s.held u)
        | _ => if verdict pc a = some true then fun _ => true else s.rivalled
      letIn := if verdict pc a = some true then Function.update s.letIn i true else s.letIn
      admitted := if verdict pc a = some true then s.admitted + 1 else s.admitted
      moved := if pc = .retryToDeadLetter then s.moved + 1 else s.moved
      notified := if pc = .notifyDeadLetter then s.notified + 1 else s.notified }
  | .fail i e =>
    match s.pcs i with
    | .retryToDeadLetter => { s with
        pcs := Function.update s.pcs i (resume u.deps .retryToDeadLetter (.exc e))
        moved := s.moved + 1
        unreported := s.unreported || u.deps.alerter }
    | .notifyDeadLetter => { s with
        pcs := Function.update s.pcs i (resume u.deps .notifyDeadLetter (.exc e))
        notified := s.notified + 1 }
    | _ => s

/-- The lease of a row that is held has not run out. -/
def InLease (s : State) : Prop :=
  s.held u = true → (s.row u).any (Row.expired · s.clock) = false

instance : DecidablePred (InLease u) := fun _ => inferInstanceAs (Decidable (_ → _))

/-- Where the step decides about the call `i`, which is attempt number `k`: it is let in only if
`k` is within the budget, and kept out, with no other call in its way, only if `k` is not. -/
def Budgeted (s : State) : Event → Prop
  | .tick _ | .fail _ _ => True
  | .resume i r => ∀ b, verdict (s.pcs i) (s.answer u (s.pcs i) r).1 = some b →
      (b = true → s.admitted + 1 ≤ u.budget) ∧
        (b = false → (step u s (.resume i r)).rivalled i = false → u.budget < s.admitted + 1)

/-- The body has been let in and has not returned. -/
def Working : Pc → Bool
  | .execute _ | .markRetry _ _ | .retryToDeadLetter | .notifyDeadLetter => true
  | _ => false

/-- The attempt is still under way. -/
def Attempting : Pc → Bool
  | .execute _ | .markRetry _ _ => true
  | _ => false

/-- Each of the two is called at most once, no earlier than the last attempt within the budget
has ended, and exactly once, where its object is there, when the calls let in have returned. -/
structure DeadLettered (s : State) : Prop where
  moved_le : s.moved ≤ 1
  notified_le : s.notified ≤ 1
  last : 0 < s.moved + s.notified → s.admitted = u.budget ∧ ∀ i, Attempting (s.pcs i) = false
  called : (∀ i, Working (s.pcs i) = false) → s.admitted = u.budget →
    s.moved = u.deps.taskManager.toNat ∧ s.notified = u.deps.alerter.toNat

/-! ### The stages of the file -/

/-- The control points a call can stand at. -/
inductive Known : Pc → Prop
  | getTask : Known .getTask
  | tryClaim : Known (.tryClaim u.maxRetries)
  | markProcessing : Known (.markProcessing u.maxRetries)
  | execute : Known (.execute u.maxRetries)
  | markRetry (r : PipelineResult) : Known (.markRetry u.maxRetries r)
  | retryToDeadLetter : Known .retryToDeadLetter
  | notifyDeadLetter : Known .notifyDeadLetter
  | done : Known .done
  | raised (e : Exc) : Known (.raised e)

/-- No call is working. -/
def Quiet (pcs : ℕ → Pc) : Prop := ∀ j, Working (pcs j) = false

/-- No call but `d` is working. -/
def Busy (pcs : ℕ → Pc) (d : ℕ) : Prop := ∀ j, j ≠ d → Working (pcs j) = false

/-- The dead letter has not been touched. -/
structure Uncalled (s : State) : Prop where
  moved : s.moved = 0
  notified : s.notified = 0
  reported : s.unreported = false

/-- What is left to do once the budget is used up. -/
inductive Closing (s : State) : Prop
  | move (d : ℕ) (busy : Busy s.pcs d) (pc : s.pcs d = .retryToDeadLetter)
      (task : u.deps.taskManager = true) (calls : Uncalled s)
  | notify (d : ℕ) (busy : Busy s.pcs d) (pc : s.pcs d = .notifyDeadLetter)
      (alert : u.deps.alerter = true) (moved : s.moved = u.deps.taskManager.toNat)
      (notified : s.notified = 0) (reported : s.unreported = false)
  | closed (quiet : Quiet s.pcs) (moved : s.moved = u.deps.taskManager.toNat)
      (notified : s.notified + s.unreported.toNat = u.deps.alerter.toNat)

/-- Where the file stands, with the attempts it has had. -/
inductive Stage (s : State) : Prop
  | absent (row : s.row u = none) (adm : s.admitted = 0) (quiet : Quiet s.pcs)
      (calls : Uncalled s)
  | claimed (r : Row) (row : s.row u = some r) (st : r.status = .claimed)
      (count : r.retryCount = s.admitted) (lt : s.admitted < u.budget) (quiet : Quiet s.pcs)
      (calls : Uncalled s)
  | processing (r : Row) (row : s.row u = some r) (st : r.status = .processing)
      (count : r.retryCount + 1 = s.admitted) (le : s.admitted ≤ u.budget) (d : ℕ)
      (busy : Busy s.pcs d) (pc : Attempting (s.pcs d) = true)
      (calls : Uncalled s)
  | retryable (r : Row) (row : s.row u = some r) (st : r.status = .failed)
      (count : r.retryCount = s.admitted) (lt : s.admitted < u.maxRetries)
      (quiet : Quiet s.pcs) (calls : Uncalled s)
  | exhausted (r : Row) (row : s.row u = some r) (st : r.status = .failed)
      (count : r.retryCount = s.admitted) (le : u.maxRetries ≤ s.admitted)
      (adm : s.admitted = u.budget) (closing : Closing u s)

structure Inv (s : State) : Prop where
  known : ∀ i, Known u (s.pcs i)
  owner : ∀ r, s.row u = some r → r.claimedBy = some u.repo.instanceId
  failed : ∀ r, s.row u = some r → r.status = .failed → r.claimExpiresAt = none
  stage : Stage u s
  /-- A claim nobody has been in the way of is there to be used, unless it was reported where
  there was none to have. -/
  fresh : ∀ i m, s.pcs i = .markProcessing m → s.rivalled i = false →
    (∃ r, s.row u = some r ∧ r.status = .claimed) ∨ s.admitted = u.budget

variable {u} {s : State} {i : ℕ} {r : {r : PipelineResult // r.status = .retry}}

lemma inv_init : Inv u init where
  known _ := .getTask
  owner _ h := by cases h
  failed _ h := by cases h
  stage := .absent rfl rfl (fun _ => rfl) ⟨rfl, rfl, rfl⟩
  fresh _ _ h := by cases h

/-! ### Who works -/

section update

variable {pcs : ℕ → Pc} {pc : Pc} {d : ℕ}

lemma idle_update {j : ℕ} (h : j ≠ i → Working (pcs j) = false) (hp : j = i → Working pc = false) :
    Working (Function.update pcs i pc j) = false := by
  by_cases hj : j = i
  · subst hj
    rw [Function.update_self]
    exact hp rfl
  · rw [Function.update_of_ne hj]
    exact h hj

lemma Quiet.update (h : Quiet pcs) (hp : Working pc = false) :
    Quiet (Function.update pcs i pc) :=
  fun j => idle_update (fun _ => h j) (fun _ => hp)

lemma Busy.update (h : Busy pcs d) (hp : i ≠ d → Working pc = false) :
    Busy (Function.update pcs i pc) d :=
  fun j hj => idle_update (fun _ => h j hj) (fun hji => hp (hji ▸ hj))

lemma Busy.quiet (h : Busy pcs d) (hp : Working pc = false) :
    Quiet (Function.update pcs d pc) :=
  fun j => idle_update (h j) (fun _ => hp)

lemma Quiet.busy (h : Quiet pcs) : Busy pcs d := fun j _ => h j

lemma Busy.eq (h : Busy pcs d) (hw : Working (pcs i) = true) : i = d := by
  by_contra hne
  rw [h i hne] at hw
  cases hw

lemma not_quiet (hw : Working (pcs i) = true) : ¬ Quiet pcs := by
  intro hq
  rw [hq i] at hw
  cases hw

lemma attempting_update (hp : Attempting pc = true) :
    Attempting (Function.update pcs i pc i) = true := by
  rwa [Function.update_self]

lemma working_of_attempting (h : Attempting pc = true) : Working pc = true := by
  cases pc <;> first | rfl | cases h

end update

lemma Uncalled.congr {s' : State} (h : Uncalled s) (hm : s'.moved = s.moved)
    (hn : s'.notified = s.notified) (hr : s'.unreported = s.unreported) : Uncalled s' :=
  ⟨hm.trans h.moved, hn.trans h.notified, hr.trans h.reported⟩

/-- The stage stays where the row and the counts do, those who work stand where they stood and
nobody has begun to. -/
lemma Stage.of_same {s' : State} (h : Stage u s)
    (hkeep : ∀ d, Working (s.pcs d) = true → s'.pcs d = s.pcs d)
    (hidle : ∀ d, Working (s.pcs d) = false → Working (s'.pcs d) = false)
    (hrow : s'.row u = s.row u) (hadm : s'.admitted = s.admitted)
    (hcalls : s'.moved = s.moved ∧ s'.notified = s.notified ∧ s'.unreported = s.unreported) :
    Stage u s' := by
  have hquiet : Quiet s.pcs → Quiet s'.pcs := fun hq j => hidle j (hq j)
  have hbusy : ∀ d, Busy s.pcs d → Busy s'.pcs d := fun d hb j hj => hidle j (hb j hj)
  obtain ⟨hm, hn, hr⟩ := hcalls
  have huncalled : Uncalled s → Uncalled s' := fun h => h.congr hm hn hr
  cases h with
  | absent row adm quiet calls =>
    exact .absent (hrow ▸ row) (hadm ▸ adm) (hquiet quiet) (huncalled calls)
  | claimed r row st count lt quiet calls =>
    exact .claimed r (hrow ▸ row) st (hadm ▸ count) (hadm ▸ lt) (hquiet quiet) (huncalled calls)
  | processing r row st count le d busy pc calls =>
    refine .processing r (hrow ▸ row) st (hadm ▸ count) (hadm ▸ le) d (hbusy d busy) ?_
      (huncalled calls)
    rwa [hkeep d (working_of_attempting pc)]
  | retryable r row st count lt quiet calls =>
    exact .retryable r (hrow ▸ row) st (hadm ▸ count) (hadm ▸ lt) (hquiet quiet)
      (huncalled calls)
  | exhausted r row st count le adm closing =>
    refine .exhausted r (hrow ▸ row) st (hadm ▸ count) (hadm ▸ le) (hadm ▸ adm) ?_
    cases closing with
    | move d busy pc task calls =>
      exact .move d (hbusy d busy) (by rw [hkeep d (by rw [pc]; rfl), pc]) task (huncalled calls)
    | notify d busy pc alert moved notified reported =>
      exact .notify d (hbusy d busy) (by rw [hkeep d (by rw [pc]; rfl), pc]) alert
        (hm.trans moved) (hn.trans notified) (hr.trans reported)
    | closed quiet moved notified =>
      exact .closed (hquiet quiet) (hm.trans moved) (by rw [hn, hr, notified])

lemma Stage.of_idle {s' : State} (h : Stage u s) {pc : Pc} (hpc : Working (s.pcs i) = false)
    (hpc' : Working pc = false) (hpcs : s'.pcs = Function.update s.pcs i pc)
    (hrow : s'.row u = s.row u) (hadm : s'.admitted = s.admitted)
    (hcalls : s'.moved = s.moved ∧ s'.notified = s.notified ∧ s'.unreported = s.unreported) :
    Stage u s' := by
  refine h.of_same (fun d hd => ?_) (fun d hd => ?_) hrow hadm hcalls
  · have hne : d ≠ i := by
      rintro rfl
      rw [hpc] at hd
      cases hd
    rw [hpcs, Function.update_of_ne hne]
  · by_cases hdi : d = i
    · subst hdi
      rwa [hpcs, Function.update_self]
    · rwa [hpcs, Function.update_of_ne hdi]

/-! ### The steps -/

lemma Known.update {pcs : ℕ → Pc} {pc : Pc} (h : ∀ j, Known u (pcs j)) (hpc : Known u pc) :
    ∀ j, Known u (Function.update pcs i pc j) :=
  (Function.forall_update_iff pcs fun _ => Known u).mpr ⟨hpc, fun j _ => h j⟩

lemma step_getTask (h : s.pcs i = .getTask) : step u s (.resume i r) =
    { s with pcs := Function.update s.pcs i (.tryClaim u.maxRetries) } := by
  simp [step, h, State.answer, resume, verdict]

lemma step_tryClaim {m : ℕ} (h : s.pcs i = .tryClaim m) {b : Bool} {t : Table}
    (hb : ClaimReport.tryClaim u.foundRows u.repo u.ref m s.clock s.table = (b, t)) :
    step u s (.resume i r) = { s with
      table := t
      pcs := Function.update s.pcs i (if b then .markProcessing m else .done)
      rivalled := Function.update s.rivalled i (s.held u) } := by
  cases b <;> simp [step, h, State.answer, resume, verdict, hb]

lemma step_markProcessing {m : ℕ} (h : s.pcs i = .markProcessing m) {b : Bool} {t : Table}
    (hb : u.repo.markProcessing u.ref.toKey s.table = (b, t)) :
    step u s (.resume i r) = { s with
      table := t
      pcs := Function.update s.pcs i (if b then .execute m else .done)
      rivalled := if b then fun _ => true else s.rivalled
      letIn := if b then Function.update s.letIn i true else s.letIn
      admitted := if b then s.admitted + 1 else s.admitted } := by
  cases b <;> simp [step, h, State.answer, resume, verdict, hb, Pc.dbCall]

lemma step_execute {m : ℕ} (h : s.pcs i = .execute m) : step u s (.resume i r) =
    { s with pcs := Function.update s.pcs i (.markRetry m r) } := by
  simp [step, h, State.answer, resume, verdict, dispatch, r.2]

lemma step_markRetry {m : ℕ} {r' : PipelineResult} (h : s.pcs i = .markRetry m r') {n : ℕ}
    {t : Table} (hn : markFailed u.ref.toKey r'.errorType r'.errorStr s.table = (n, t)) :
    step u s (.resume i r) = { s with
      table := t
      pcs := Function.update s.pcs i (if m ≤ n then afterRetry u.deps else .done) } := by
  simp [step, h, State.answer, resume, verdict, hn, Pc.dbCall]

lemma step_retryToDeadLetter (h : s.pcs i = .retryToDeadLetter) : step u s (.resume i r) =
    { s with
      pcs := Function.update s.pcs i (if u.deps.alerter then .notifyDeadLetter else .done)
      moved := s.moved + 1 } := by
  simp [step, h, State.answer, resume, verdict, Pc.dbCall]

lemma step_notifyDeadLetter (h : s.pcs i = .notifyDeadLetter) : step u s (.resume i r) =
    { s with pcs := Function.update s.pcs i .done, notified := s.notified + 1 } := by
  simp [step, h, State.answer, resume, verdict, Pc.dbCall]

lemma step_done (h : s.pcs i = .done) : step u s (.resume i r) = s := by
  have hpcs : Function.update s.pcs i .done = s.pcs := by rw [← h, Function.update_eq_self]
  simp [step, h, State.answer, resume, verdict, Pc.dbCall, hpcs]

lemma step_raised {e : Exc} (h : s.pcs i = .raised e) : step u s (.resume i r) = s := by
  have hpcs : Function.update s.pcs i (.raised e) = s.pcs := by rw [← h, Function.update_eq_self]
  simp [step, h, State.answer, resume, verdict, Pc.dbCall, hpcs]

lemma step_fail_retryToDeadLetter (h : s.pcs i = .retryToDeadLetter) (e : Exc) :
    step u s (.fail i e) = { s with
      pcs := Function.update s.pcs i (.raised e)
      moved := s.moved + 1
      unreported := s.unreported || u.deps.alerter } := by
  simp [step, h, resume, onRaise]

lemma step_fail_notifyDeadLetter (h : s.pcs i = .notifyDeadLetter) (e : Exc) :
    step u s (.fail i e) = { s with
      pcs := Function.update s.pcs i (.raised e)
      notified := s.notified + 1 } := by
  simp [step, h, resume, onRaise]

lemma step_fail_of_ne (hm : s.pcs i ≠ .retryToDeadLetter) (hn : s.pcs i ≠ .notifyDeadLetter)
    (e : Exc) : step u s (.fail i e) = s := by
  generalize hpc : s.pcs i = pc at hm hn
  cases pc <;> first | exact absurd rfl hm | exact absurd rfl hn | simp [step, hpc]

/-! ### What a claim finds -/

lemma held_iff : s.held u = true ↔ ∃ row, s.row u = some row ∧ row.Held := by
  simp [State.held, Row.Held, Option.any_eq_true]

lemma Stage.of_attempting (h : Stage u s) (ha : Attempting (s.pcs i) = true) :
    ∃ row, s.row u = some row ∧ row.status = .processing ∧ row.retryCount + 1 = s.admitted ∧
      s.admitted ≤ u.budget ∧ Busy s.pcs i ∧ Uncalled s := by
  have hw := working_of_attempting ha
  have hno := not_quiet hw
  cases h with
  | processing row hrow st count le d busy pc calls =>
    obtain rfl := busy.eq hw
    exact ⟨row, hrow, st, count, le, busy, calls⟩
  | exhausted row hrow st count le adm closing =>
    cases closing with
    | move d busy pc => rw [busy.eq hw, pc] at ha; cases ha
    | notify d busy pc => rw [busy.eq hw, pc] at ha; cases ha
    | closed quiet => exact absurd quiet hno
  | absent _ _ quiet | claimed _ _ _ _ _ quiet | retryable _ _ _ _ _ quiet => exact absurd quiet hno

lemma Stage.of_closing (h : Stage u s) (hw : Working (s.pcs i) = true)
    (ha : Attempting (s.pcs i) = false) :
    ∃ row, s.row u = some row ∧ row.status = .failed ∧ row.retryCount = s.admitted ∧
      u.maxRetries ≤ s.admitted ∧ s.admitted = u.budget ∧ Closing u s ∧ Busy s.pcs i := by
  have hno := not_quiet hw
  cases h with
  | processing row hrow st count le d busy pc calls =>
    rw [busy.eq hw, pc] at ha
    cases ha
  | exhausted row hrow st count le adm closing =>
    refine ⟨row, hrow, st, count, le, adm, closing, ?_⟩
    cases closing with
    | move d busy pc => rwa [busy.eq hw]
    | notify d busy pc => rwa [busy.eq hw]
    | closed quiet => exact absurd quiet hno
  | absent _ _ quiet | claimed _ _ _ _ _ quiet | retryable _ _ _ _ _ quiet => exact absurd quiet hno

/-- The row as a claim leaves it: as it was, where it is held or the budget is used up, or
claimed. -/
lemma Inv.tryClaim_cases (h : Inv u s) (hl : InLease u s) {m : ℕ} (hm : m = u.maxRetries)
    {b : Bool} {t : Table}
    (hb : ClaimReport.tryClaim u.foundRows u.repo u.ref m s.clock s.table = (b, t)) :
    (t.row u.ref.toKey = s.row u ∧ (s.held u = true ∨ s.admitted = u.budget)) ∨
      (b = true ∧ s.admitted < u.budget ∧ Quiet s.pcs ∧ Uncalled s ∧
        ∃ row, t.row u.ref.toKey = some row ∧ row.status = .claimed ∧
          row.claimedBy = some u.repo.instanceId ∧ row.retryCount = s.admitted) := by
  subst hm
  have hb1 := congrArg Prod.fst hb
  have hb2 := congrArg Prod.snd hb
  simp only at hb1 hb2
  rw [tryClaim_snd] at hb2
  -- a row that is there and is not claimable stays as it is
  have hstay : ∀ row, s.row u = some row → row.claimable u.maxRetries s.clock = false →
      t.row u.ref.toKey = s.row u := by
    intro row hrow hc
    rw [← hb2, (ProcessedFileRepo.tryClaim_of_some hrow _ _ _).2,
      onDuplicateKey_of_not_claimable hc, hrow]
  have hheld : ∀ row, s.row u = some row → row.Held → t.row u.ref.toKey = s.row u := by
    intro row hrow hh
    have hexp := hl (held_iff.mpr ⟨row, hrow, hh⟩)
    rw [hrow, Option.any_some] at hexp
    refine hstay row hrow ?_
    rcases hh with hs | hs <;> simp [Row.claimable, hs, hexp]
  cases h.stage with
  | absent hrow adm quiet calls =>
    refine .inr ⟨?_, ?_, quiet, calls, newRow u.repo u.ref s.table.nextId s.clock
      (s.clock + u.repo.lease), ?_, rfl, rfl, adm.symm⟩
    · rw [← hb1]
      exact ClaimReport.tryClaim_of_none hrow
    · rw [adm]
      exact lt_max_of_lt_left Nat.one_pos
    · rw [← hb2]
      exact (ProcessedFileRepo.tryClaim_of_none hrow u.repo u.maxRetries s.clock).2
  | claimed row hrow st =>
    exact .inl ⟨hheld row hrow (.inl st), .inl (held_iff.mpr ⟨row, hrow, .inl st⟩)⟩
  | processing row hrow st =>
    exact .inl ⟨hheld row hrow (.inr st), .inl (held_iff.mpr ⟨row, hrow, .inr st⟩)⟩
  | retryable row hrow st count lt quiet calls =>
    have hc : row.retryCount < u.maxRetries := count ▸ lt
    have hclaim : row.claimable u.maxRetries s.clock = true := claimable_iff.mpr (.inl ⟨st, hc⟩)
    refine .inr ⟨?_, lt_max_of_lt_right lt, quiet, calls, { row with status := .claimed }, ?_, rfl,
      h.owner row hrow, count⟩
    · rw [← hb1, ClaimReport.tryClaim_of_some hrow, hclaim, Bool.or_true]
    · rw [← hb2, (ProcessedFileRepo.tryClaim_of_some hrow _ _ _).2,
        onDuplicateKey_of_failed st hc (h.failed row hrow st)]
  | exhausted row hrow st count le adm =>
    refine .inl ⟨hstay row hrow ?_, .inr adm⟩
    have : ¬ row.retryCount < u.maxRetries := by omega
    simp [Row.claimable, st, this]

/-! ### Each step keeps the invariant -/

lemma fresh_update {pcs : ℕ → Pc} {pc : Pc} {P : ℕ → Prop} (hpc : pc.phase ≠ .claimed)
    (h : ∀ j m, pcs j = .markProcessing m → P j) :
    ∀ j m, Function.update pcs i pc j = .markProcessing m → P j := by
  intro j m hj
  by_cases hji : j = i
  · subst hji
    rw [Function.update_self] at hj
    rw [hj] at hpc
    exact absurd rfl hpc
  · rw [Function.update_of_ne hji] at hj
    exact h j m hj

lemma Inv.getTask (h : Inv u s) (hpc : s.pcs i = .getTask) : Inv u (step u s (.resume i r)) := by
  rw [step_getTask hpc]
  refine ⟨Known.update h.known .tryClaim, h.owner, h.failed, ?_,
    fresh_update (by simp [Pc.phase]) h.fresh⟩
  exact h.stage.of_idle (by rw [hpc]; rfl) rfl rfl rfl rfl ⟨rfl, rfl, rfl⟩

lemma Inv.tryClaim (h : Inv u s) (hl : InLease u s) (hpc : s.pcs i = .tryClaim u.maxRetries) :
    Inv u (step u s (.resume i r)) := by
  rcases hb : ClaimReport.tryClaim u.foundRows u.repo u.ref u.maxRetries s.clock s.table with
    ⟨b, t⟩
  rw [step_tryClaim hpc hb]
  have hknown : ∀ j, Known u (Function.update s.pcs i
      (if b then .markProcessing u.maxRetries else .done) j) := by
    refine Known.update h.known ?_
    cases b
    · exact .done
    · exact .markProcessing
  have hw : Working (if b then .markProcessing u.maxRetries else .done) = false := by
    cases b <;> rfl
  rcases h.tryClaim_cases hl rfl hb with ⟨hrow, hwhy⟩ |
    ⟨hb', hlt, hq, hcalls, row, hrow, hst, hby, hn⟩
  · -- the row is as it was
    refine ⟨hknown, fun x hx => h.owner x (hrow.symm.trans hx),
      fun x hx => h.failed x (hrow.symm.trans hx),
      h.stage.of_idle (by rw [hpc]; rfl) hw rfl hrow rfl ⟨rfl, rfl, rfl⟩, fun j m hj hr => ?_⟩
    by_cases hji : j = i
    · subst hji
      simp only [Function.update_self] at hr
      rw [hr] at hwhy
      exact .inr (hwhy.resolve_left (by simp))
    · simp only [Function.update_of_ne hji] at hj hr
      rcases h.fresh j m hj hr with ⟨x, hx, hxs⟩ | hadm
      · exact .inl ⟨x, hrow.trans hx, hxs⟩
      · exact .inr hadm
  · -- the row is claimed
    refine ⟨hknown, fun x hx => ?_, fun x hx hf => ?_,
      .claimed row hrow hst hn hlt (hq.update hw) (hcalls.congr rfl rfl rfl),
      fun _ _ _ _ => .inl ⟨row, hrow, hst⟩⟩
    · obtain rfl := Option.some.inj (hrow.symm.trans hx)
      exact hby
    · obtain rfl := Option.some.inj (hrow.symm.trans hx)
      rw [hst] at hf
      cases hf

lemma Inv.markProcessing_iff (h : Inv u s) : (u.repo.markProcessing u.ref.toKey s.table).1 = true ↔
    ∃ row, s.row u = some row ∧ row.status = .claimed := by
  constructor
  · intro hb
    obtain ⟨row, hrow, -, hs, -⟩ := markProcessing_of_true hb
    exact ⟨row, hrow, hs⟩
  · rintro ⟨row, hrow, hs⟩
    have hby := h.owner row hrow
    unfold State.row at hrow
    simp [Repository.markProcessing, hrow, hby, hs]

lemma Stage.of_claimed (h : Stage u s) {row : Row} (hrow : s.row u = some row)
    (hs : row.status = .claimed) : row.retryCount = s.admitted ∧ s.admitted < u.budget ∧
      Quiet s.pcs ∧ Uncalled s := by
  cases h with
  | absent hrow' =>
    rw [hrow] at hrow'
    cases hrow'
  | claimed row' hrow' st count lt quiet calls =>
    obtain rfl := Option.some.inj (hrow.symm.trans hrow')
    exact ⟨count, lt, quiet, calls⟩
  | processing row' hrow' st | retryable row' hrow' st | exhausted row' hrow' st =>
    obtain rfl := Option.some.inj (hrow.symm.trans hrow')
    rw [hs] at st
    cases st

lemma Inv.markProcessing (h : Inv u s) (hpc : s.pcs i = .markProcessing u.maxRetries) :
    Inv u (step u s (.resume i r)) := by
  rcases hb : u.repo.markProcessing u.ref.toKey s.table with ⟨b, t⟩
  have hb1 := congrArg Prod.fst hb
  have hb2 := congrArg Prod.snd hb
  rw [step_markProcessing hpc hb]
  cases b with
  | false =>
    -- the lease has gone to another instance: this call loads nothing
    rw [markProcessing_of_false hb1] at hb2
    subst hb2
    refine ⟨Known.update h.known .done, h.owner, h.failed, ?_,
      fresh_update (by simp [Pc.phase]) h.fresh⟩
    exact h.stage.of_idle (by rw [hpc]; rfl) rfl rfl rfl rfl ⟨rfl, rfl, rfl⟩
  | true =>
    obtain ⟨row, hrow, hby, hs, ht⟩ := markProcessing_of_true hb1
    obtain ⟨hn, hlt, hq, hcalls⟩ := h.stage.of_claimed hrow hs
    have hrow' : t.row u.ref.toKey = some { row with status := .processing } := by
      rw [← row_setRow_self s.table, ← ht, hb2]
    refine ⟨Known.update h.known .execute, fun x hx => ?_, fun x hx hf => ?_, ?_,
      fun _ _ _ hr => by cases hr⟩
    · obtain rfl := Option.some.inj (hrow'.symm.trans hx)
      exact hby
    · obtain rfl := Option.some.inj (hrow'.symm.trans hx)
      cases hf
    · refine .processing { row with status := .processing } hrow' rfl ?_ hlt i
        (hq.busy.update fun hne => absurd rfl hne) ?_ (hcalls.congr rfl rfl rfl)
      · exact congrArg (· + 1) hn
      · exact attempting_update rfl

lemma Inv.execute (h : Inv u s) (hpc : s.pcs i = .execute u.maxRetries) :
    Inv u (step u s (.resume i r)) := by
  obtain ⟨row, hrow, hs, hn, hle, hbusy, hcalls⟩ := h.stage.of_attempting (by rw [hpc]; rfl)
  rw [step_execute hpc]
  refine ⟨Known.update h.known (.markRetry r), h.owner, h.failed, ?_,
    fresh_update (by simp [Pc.phase]) h.fresh⟩
  exact .processing row hrow hs hn hle i (hbusy.update fun hne => absurd rfl hne)
    (attempting_update rfl) (hcalls.congr rfl rfl rfl)

lemma Inv.markRetry (h : Inv u s) {r' : PipelineResult}
    (hpc : s.pcs i = .markRetry u.maxRetries r') : Inv u (step u s (.resume i r)) := by
  obtain ⟨row, hrow, hs, hn, hle, hbusy, hcalls⟩ := h.stage.of_attempting (by rw [hpc]; rfl)
  rcases hb : markFailed u.ref.toKey r'.errorType r'.errorStr s.table with ⟨n, t⟩
  have hcount : n = s.admitted := by
    have := congrArg Prod.fst hb
    unfold State.row at hrow
    simp only [markFailed, hrow] at this
    omega
  obtain ⟨row', hrow', hs', hn', hby', he'⟩ : ∃ row', t.row u.ref.toKey = some row' ∧
      row'.status = .failed ∧ row'.retryCount = s.admitted ∧
      row'.claimedBy = some u.repo.instanceId ∧ row'.claimExpiresAt = none := by
    have hrow₁ := row_markFailed (k := u.ref.toKey) (t := s.table) r'.errorType r'.errorStr
    unfold State.row at hrow
    rw [hb, hrow, Option.map_some] at hrow₁
    exact ⟨_, hrow₁, rfl, hn, h.owner row hrow, rfl⟩
  rw [step_markRetry hpc hb]
  subst hcount
  have hknown : Known u (if u.maxRetries ≤ s.admitted then afterRetry u.deps else .done) := by
    unfold afterRetry
    split_ifs <;> constructor
  have hphase : (if u.maxRetries ≤ s.admitted then afterRetry u.deps else .done).phase ≠
      .claimed := by
    unfold afterRetry
    split_ifs <;> simp [Pc.phase]
  refine ⟨Known.update h.known hknown, fun x hx => ?_, fun x hx _ => ?_, ?_,
    fresh_update hphase fun j m hj hr => ?_⟩
  · obtain rfl := Option.some.inj (hrow'.symm.trans hx)
    exact hby'
  · obtain rfl := Option.some.inj (hrow'.symm.trans hx)
    exact he'
  · by_cases hm : u.maxRetries ≤ s.admitted
    · -- the budget is used up
      have hadm : s.admitted = u.budget := by
        unfold Setup.budget at hle ⊢
        omega
      refine .exhausted row' hrow' hs' hn' hm hadm ?_
      rw [if_pos hm]
      unfold afterRetry
      split_ifs with ht ha
      · exact .move i (hbusy.update fun hne => absurd rfl hne) (Function.update_self ..) ht
          (hcalls.congr rfl rfl rfl)
      · exact .notify i (hbusy.update fun hne => absurd rfl hne) (Function.update_self ..) ha
          (by simp [hcalls.moved, ht]) hcalls.notified hcalls.reported
      · exact .closed (hbusy.quiet rfl) (by simp [hcalls.moved, ht])
          (by simp [hcalls.notified, hcalls.reported, ha])
    · rw [if_neg hm]
      exact .retryable row' hrow' hs' hn' (Nat.lt_of_not_le hm) (hbusy.quiet rfl)
        (hcalls.congr rfl rfl rfl)
  · -- a claim reported by now has seen the file held
    rcases h.fresh j m hj hr with ⟨x, hx, hxs⟩ | hadm
    · obtain rfl := Option.some.inj (hrow.symm.trans hx)
      rw [hs] at hxs
      cases hxs
    · exact .inr hadm

lemma Inv.of_retryToDeadLetter (h : Inv u s) (hpc : s.pcs i = .retryToDeadLetter) :
    ∃ row, s.row u = some row ∧ row.status = .failed ∧ row.retryCount = s.admitted ∧
      u.maxRetries ≤ s.admitted ∧ s.admitted = u.budget ∧ u.deps.taskManager = true ∧
      Uncalled s ∧ Busy s.pcs i := by
  obtain ⟨row, hrow, hs, hn, hle, hadm, hcl, hbusy⟩ :=
    h.stage.of_closing (i := i) (by rw [hpc]; rfl) (by rw [hpc]; rfl)
  refine ⟨row, hrow, hs, hn, hle, hadm, ?_⟩
  cases hcl with
  | move d busy pc task calls => exact ⟨task, calls, hbusy⟩
  | notify d busy pc =>
    rw [busy.eq (i := i) (by rw [hpc]; rfl), pc] at hpc
    cases hpc
  | closed quiet => exact absurd quiet (not_quiet (i := i) (by rw [hpc]; rfl))

lemma Inv.of_notifyDeadLetter (h : Inv u s) (hpc : s.pcs i = .notifyDeadLetter) :
    ∃ row, s.row u = some row ∧ row.status = .failed ∧ row.retryCount = s.admitted ∧
      u.maxRetries ≤ s.admitted ∧ s.admitted = u.budget ∧ u.deps.alerter = true ∧
      s.moved = u.deps.taskManager.toNat ∧ s.notified = 0 ∧ s.unreported = false ∧
      Busy s.pcs i := by
  obtain ⟨row, hrow, hs, hn, hle, hadm, hcl, hbusy⟩ :=
    h.stage.of_closing (i := i) (by rw [hpc]; rfl) (by rw [hpc]; rfl)
  refine ⟨row, hrow, hs, hn, hle, hadm, ?_⟩
  cases hcl with
  | move d busy pc =>
    rw [busy.eq (i := i) (by rw [hpc]; rfl), pc] at hpc
    cases hpc
  | notify d busy pc alert moved notified reported =>
    exact ⟨alert, moved, notified, reported, hbusy⟩
  | closed quiet => exact absurd quiet (not_quiet (i := i) (by rw [hpc]; rfl))

lemma Inv.retryToDeadLetter (h : Inv u s) (hpc : s.pcs i = .retryToDeadLetter) :
    Inv u (step u s (.resume i r)) := by
  obtain ⟨row, hrow, hs, hn, hle, hadm, ht, hcalls, hbusy⟩ := h.of_retryToDeadLetter hpc
  rw [step_retryToDeadLetter hpc]
  refine ⟨Known.update h.known ?_, h.owner, h.failed, ?_, fresh_update ?_ h.fresh⟩
  · split_ifs <;> constructor
  · refine .exhausted row hrow hs hn hle hadm ?_
    split_ifs with ha
    · exact .notify i (hbusy.update fun hne => absurd rfl hne) (Function.update_self ..) ha
        (by simp [hcalls.moved, ht]) hcalls.notified hcalls.reported
    · exact .closed (hbusy.quiet rfl) (by simp [hcalls.moved, ht])
        (by simp [hcalls.notified, hcalls.reported, ha])
  · split_ifs <;> simp [Pc.phase]

lemma Inv.notifyDeadLetter (h : Inv u s) (hpc : s.pcs i = .notifyDeadLetter) :
    Inv u (step u s (.resume i r)) := by
  obtain ⟨row, hrow, hs, hn, hle, hadm, ha, hm, hnot, hrep, hbusy⟩ := h.of_notifyDeadLetter hpc
  rw [step_notifyDeadLetter hpc]
  refine ⟨Known.update h.known .done, h.owner, h.failed, ?_,
    fresh_update (by simp [Pc.phase]) h.fresh⟩
  exact .exhausted row hrow hs hn hle hadm
    (.closed (hbusy.quiet rfl) hm (by simp [hnot, hrep, ha]))

lemma Inv.fail (h : Inv u s) (e : Exc) : Inv u (step u s (.fail i e)) := by
  by_cases hm : s.pcs i = .retryToDeadLetter
  · obtain ⟨row, hrow, hs, hn, hle, hadm, ht, hcalls, hbusy⟩ := h.of_retryToDeadLetter hm
    rw [step_fail_retryToDeadLetter hm]
    refine ⟨Known.update h.known (.raised e), h.owner, h.failed, ?_,
      fresh_update (by simp [Pc.phase]) h.fresh⟩
    -- the alerter is not called any more
    exact .exhausted row hrow hs hn hle hadm (.closed (hbusy.quiet rfl)
      (by simp [hcalls.moved, ht]) (by simp [hcalls.notified, hcalls.reported]))
  by_cases hnp : s.pcs i = .notifyDeadLetter
  · obtain ⟨row, hrow, hs, hn, hle, hadm, ha, hmoved, hnot, hrep, hbusy⟩ :=
      h.of_notifyDeadLetter hnp
    rw [step_fail_notifyDeadLetter hnp]
    refine ⟨Known.update h.known (.raised e), h.owner, h.failed, ?_,
      fresh_update (by simp [Pc.phase]) h.fresh⟩
    exact .exhausted row hrow hs hn hle hadm
      (.closed (hbusy.quiet rfl) hmoved (by simp [hnot, hrep, ha]))
  · rwa [step_fail_of_ne hm hnp]

/-- **The step lemma.** -/
theorem Inv.step (h : Inv u s) (hl : InLease u s) (e : Event) : Inv u (step u s e) := by
  cases e with
  | tick d =>
    exact ⟨h.known, h.owner, h.failed,
      h.stage.of_same (fun _ _ => rfl) (fun _ hd => hd) rfl rfl ⟨rfl, rfl, rfl⟩, h.fresh⟩
  | resume i r =>
    have hk := h.known i
    generalize hpc : s.pcs i = pc at hk
    cases hk with
    | getTask => exact h.getTask hpc
    | tryClaim => exact h.tryClaim hl hpc
    | markProcessing => exact h.markProcessing hpc
    | execute => exact h.execute hpc
    | markRetry r' => exact h.markRetry hpc
    | retryToDeadLetter => exact h.retryToDeadLetter hpc
    | notifyDeadLetter => exact h.notifyDeadLetter hpc
    | done => rwa [step_done hpc]
    | raised e => rwa [step_raised hpc]
  | fail i e => exact h.fail e

lemma always_inv {es : List Event} (h : Always (step u) (InLease u) init es) :
    Always (step u) (Inv u) init es :=
  always_of_always (fun _ e hl hi => hi.step hl e) inv_init h

/-! ### Attempts and dead letters -/

lemma Inv.budgeted (h : Inv u s) (hl : InLease u s) (e : Event) : Budgeted u s e := by
  cases e with
  | tick d => trivial
  | fail i e => trivial
  | resume i r =>
    unfold Budgeted
    have hk := h.known i
    generalize hpc : s.pcs i = pc at hk
    intro b hv
    rw [hpc] at hv
    cases hk with
    | tryClaim =>
      -- only a refusal decides
      rcases hb : ClaimReport.tryClaim u.foundRows u.repo u.ref u.maxRetries s.clock s.table with
        ⟨b', t⟩
      rw [step_tryClaim hpc hb]
      simp only [State.answer, hb] at hv
      cases b' with
      | true => cases hv
      | false =>
        obtain rfl : b = false := (Option.some.inj hv).symm
        refine ⟨nofun, fun _ hr => ?_⟩
        simp only [Function.update_self] at hr
        rcases h.tryClaim_cases hl rfl hb with ⟨-, hh | hadm⟩ | ⟨hb', -⟩
        · rw [hr] at hh
          cases hh
        · omega
        · cases hb'
    | markProcessing =>
      rcases hb : u.repo.markProcessing u.ref.toKey s.table with ⟨b', t⟩
      rw [step_markProcessing hpc hb]
      simp only [State.answer, Pc.dbCall, perform_markProcessing, hb, Prod.map_apply] at hv
      obtain rfl : b = b' := (Option.some.inj hv).symm
      have hiff := h.markProcessing_iff
      rw [hb] at hiff
      refine ⟨fun ht => ?_, fun hf hr => ?_⟩
      · obtain ⟨row, hrow, hs⟩ := hiff.mp ht
        exact (h.stage.of_claimed hrow hs).2.1
      · subst hf
        rcases h.fresh i u.maxRetries hpc hr with hc | hadm
        · cases hiff.mpr hc
        · omega
    | _ => cases hv

lemma Stage.deadLettered_iff (h : Stage u s) : DeadLettered u s ↔ s.unreported = false := by
  have hopen : Uncalled s → s.admitted < u.budget ∨ (∃ d, Attempting (s.pcs d) = true) →
      (DeadLettered u s ↔ s.unreported = false) := by
    rintro ⟨hm, hn, hr⟩ hopen
    refine iff_of_true ⟨by omega, by omega, fun hpos => by omega, fun hq hadm => ?_⟩ hr
    rcases hopen with hlt | ⟨d, hd⟩
    · omega
    · exact absurd hq (not_quiet (working_of_attempting hd))
  have hatt : ∀ j, Working (s.pcs j) = false → Attempting (s.pcs j) = false := by
    intro j hj
    by_contra ha
    rw [working_of_attempting (by simpa using ha)] at hj
    cases hj
  cases h with
  | absent row adm quiet calls =>
    refine hopen calls (.inl ?_)
    rw [adm]
    exact lt_max_of_lt_left Nat.one_pos
  | claimed row hrow st count lt quiet calls => exact hopen calls (.inl lt)
  | processing row hrow st count le d busy pc calls => exact hopen calls (.inr ⟨d, pc⟩)
  | retryable row hrow st count lt quiet calls => exact hopen calls (.inl (lt_max_of_lt_right lt))
  | exhausted row hrow st count le adm closing =>
    have hle : ∀ b : Bool, b.toNat ≤ 1 := Bool.toNat_le
    cases closing with
    | move d busy pc task calls =>
      obtain ⟨hm, hn, hr⟩ := calls
      refine iff_of_true ⟨by omega, by omega, fun hpos => by omega, fun hq => ?_⟩ hr
      exact absurd hq (not_quiet (i := d) (by rw [pc]; rfl))
    | notify d busy pc alert moved notified reported =>
      refine iff_of_true ⟨moved ▸ hle _, by omega, fun _ => ⟨adm, fun j => ?_⟩, fun hq => ?_⟩
        reported
      · by_cases hj : j = d
        · rw [hj, pc]
          rfl
        · exact hatt j (busy j hj)
      · exact absurd hq (not_quiet (i := d) (by rw [pc]; rfl))
    | closed quiet moved notified =>
      constructor
      · intro hd
        -- all calls are back: a notification not made is one lost to an exception
        have := (hd.called quiet adm).2
        exact Bool.toNat_eq_zero.mp (by omega)
      · intro hr
        rw [hr, Bool.toNat_false, Nat.add_zero] at notified
        exact ⟨moved ▸ hle _, notified ▸ hle _, fun _ => ⟨adm, fun j => hatt j (quiet j)⟩,
          fun _ _ => ⟨moved, notified⟩⟩

lemma Stage.admitted_le (h : Stage u s) : s.admitted ≤ u.budget := by
  cases h with
  | absent row adm => omega
  | claimed row hrow st count lt => exact lt.le
  | processing row hrow st count le => exact le
  | retryable row hrow st count lt => exact lt.le.trans (le_max_right _ _)
  | exhausted row hrow st count le adm => exact adm.le

end Tdcs.RetryBudget
