import Tdcs.FileHandling
import Tdcs.SubmitReject

/-!
The pool with the body of `FileProcessor.__call__` in its workers, and what becomes of a breaker
whose probe has been handled.

The reports to the breakers are those the body makes, and `_work`'s own. The machine moves the pool
by the pool's own steps.
-/

namespace Tdcs.ProbeSettles

open Tdcs.Lib Tdcs.Lib.Run Tdcs.ProcessedFileRepo Tdcs.FileProcessor Tdcs.FileHandling
open Tdcs.WorkerPool

structure State where
  pool : Pool
  numWorkers : ℕ
  /-- How far each worker is with the task it has taken. -/
  handling : ℕ → Handling := fun _ => {}
  /-- The numbers of the tasks let through by a breaker that was not closed. -/
  probes : List ℕ := []

def init (queueMaxsize : ℤ) (numWorkers : ℕ) : State where
  pool := { queueMaxsize }
  numWorkers := numWorkers

inductive Event
  | tick (d : ℚ≥0)
  | submit (ref : FileRef) (priority : ℤ) (isActive : Bool) (d : ℚ≥0)
  | put (id : ℕ)
  | get (worker id : ℕ)
  /-- The pending call of the worker's body ends. -/
  | respond (worker : ℕ) (x : Response)
  /-- The worker leaves the `try` of `_work`. -/
  | finish (worker : ℕ)
  | pause (taskId : String)
  | resume (taskId : String)

/-- How `_work` sees the body end. -/
def outcome : Pc → Option Outcome
  | .done => some .returned
  | .raised e => some (if e.isSkipFile then .skipFile else .raised)
  | _ => none

/-- The step of the pool in a step of the machine. -/
def State.poolEvent (s : State) : Event → Option WorkerPool.Event
  | .tick d => some (.tick d)
  | .submit ref priority isActive d => some (.submit ref priority isActive d)
  | .put id => some (.put id)
  | .get worker id => if worker < s.numWorkers then some (.get worker id) else none
  | .respond worker _ => (report (s.handling worker).pc).map (.report worker)
  | .finish worker => (outcome (s.handling worker).pc).map (.finish worker)
  | .pause taskId => some (.pause taskId)
  | .resume taskId => some (.resume taskId)

/-- `allow` lets the task through as a probe. -/
def AdmitsProbe (s : Pool) (ref : FileRef) (isActive : Bool) (d : ℚ≥0) : Prop :=
  isActive = true ∧ ref.taskId ∉ s.paused ∧ (s.breakers ref.taskId).state ≠ .closed ∧
    ((s.breakers ref.taskId).allow s.clock (s.clock + d)).1 = true

instance (s : Pool) (ref : FileRef) (isActive : Bool) (d : ℚ≥0) :
    Decidable (AdmitsProbe s ref isActive d) :=
  inferInstanceAs (Decidable (_ ∧ _ ∧ _ ∧ _))

variable (deps : Deps)

/-- The bodies after a step: a worker begins with the task it takes, and goes on with it. -/
def State.handlingAfter (s : State) : Event → ℕ → Handling
  | .get worker _ =>
    if s.pool.running worker = none then Function.update s.handling worker {} else s.handling
  | .respond worker x =>
    if s.pool.running worker = none then s.handling
    else Function.update s.handling worker (FileHandling.step deps (s.handling worker) x)
  | _ => s.handling

/-- The probes after a step. -/
def State.probesAfter (s : State) : Event → List ℕ
  | .submit ref _ isActive d =>
    if AdmitsProbe s.pool ref isActive d then s.pool.nextId :: s.probes else s.probes
  | _ => s.probes

def step (s : State) (e : Event) : State :=
  { s with
    pool := (s.poolEvent e).elim s.pool (WorkerPool.step s.pool)
    handling := s.handlingAfter deps e
    probes := s.probesAfter e }

/-- The worker has a probe in hand. -/
def State.probing (s : State) (worker : ℕ) (a : Admitted) : Prop :=
  s.pool.running worker = some a ∧ a.id ∈ s.probes

/-- The breaker is closed or open, and no probe is awaited. -/
def Settled (b : CircuitBreaker) : Prop :=
  b.state ≠ .halfOpen ∧ b.halfOpenInProgress = false

/-- When a worker is done with a probe, the breaker is settled. -/
def Settles (s : State) (e : Event) : Prop :=
  ∀ worker a, e = .finish worker → s.probing worker a → Finished (s.handling worker) →
    Settled ((step deps s e).pool.breakers a.taskId)

/-- The exits of the body that report nothing: there is no such task, the claim or the start of the
processing is lost, the file is skipped or to be tried again, or `SkipFileError` leaves the body. -/
def silentExit : Pc → Answer → Bool
  | .getTask, .task none => true
  | .tryClaim _, .db (.granted b) => !b
  | .markProcessing _, .db (.granted b) => !b
  | .markSkipped _, .db .unit => true
  | .markRetry maxRetries _, .db (.retryCount n) => n < maxRetries || afterRetry deps = .done
  | .retryToDeadLetter, .unit => !deps.alerter
  | .notifyDeadLetter, .unit => true
  | pc, .exc (.skipFile msg) => FileProcessor.onRaise (.skipFile msg) pc = .raised (.skipFile msg)
  | _, _ => false

/-- The worker leaves a probe's body without a report. -/
def Silent (s : State) : Event → Prop
  | .respond worker x =>
    (s.pool.running worker).any (fun a => a.id ∈ s.probes) = true ∧
      (s.handling worker).reports = [] ∧ report (s.handling worker).pc = none ∧
      silentExit deps (s.handling worker).pc x.answer = true
  | _ => False

/-- A probe is let through between the report of an earlier one and the end of its handling. -/
def Overtakes (s : State) : Event → Prop
  | .submit ref _ isActive d =>
    AdmitsProbe s.pool ref isActive d ∧ ∃ worker < s.numWorkers,
      (s.pool.running worker).any (fun a => a.id ∈ s.probes ∧ a.taskId = ref.taskId) = true ∧
        (s.handling worker).reports ≠ []
  | _ => False

instance (s : State) : ∀ e, Decidable (Silent deps s e)
  | .respond _ _ => inferInstanceAs (Decidable (_ ∧ _ ∧ _ ∧ _))
  | .tick _ | .submit _ _ _ _ | .put _ | .get _ _ | .finish _ | .pause _ | .resume _ =>
    inferInstanceAs (Decidable False)

instance (s : State) : ∀ e, Decidable (Overtakes s e)
  | .submit _ _ _ _ => inferInstanceAs (Decidable (_ ∧ ∃ worker < s.numWorkers, _ ∧ _))
  | .tick _ | .respond _ _ | .put _ | .get _ _ | .finish _ | .pause _ | .resume _ =>
    inferInstanceAs (Decidable False)

/-- The step neither ends a probe's handling silently nor lets the next probe through too early. -/
def Outspoken (s : State) (e : Event) : Prop := ¬ Silent deps s e ∧ ¬ Overtakes s e

instance (s : State) (e : Event) : Decidable (Outspoken deps s e) :=
  inferInstanceAs (Decidable (_ ∧ _))

/-! ### Breakers -/

lemma settled_record (b : CircuitBreaker) (t : ℚ) (ok : Bool) : Settled (record b t ok) := by
  cases ok with
  | true => exact ⟨by simp [record], rfl⟩
  | false =>
    show Settled (b.recordFailure t)
    unfold CircuitBreaker.recordFailure
    dsimp only
    split_ifs with hcond
    · exact ⟨by simp, rfl⟩
    · exact ⟨fun hh => hcond (.inl hh), rfl⟩

lemma settled_poolStep {s : Pool} {e : WorkerPool.Event} {k : String} (h : Settled (s.breakers k))
    (hno : ∀ ref priority isActive d, e = .submit ref priority isActive d → ref.taskId = k →
      ¬ AdmitsProbe s ref isActive d) : Settled ((WorkerPool.step s e).breakers k) := by
  rcases hrep : s.reporting e with _ | ⟨a, ok⟩
  · rcases breakers_of_not_reporting hrep k with
      hb | ⟨ref, priority, isActive, d, rfl, rfl, hact, hp, hb⟩
    · rwa [hb]
    · rw [hb]
      have hrefuse := hno ref priority isActive d rfl rfl
      by_cases hc : (s.breakers ref.taskId).state = .closed
      · rwa [allow_of_closed hc]
      · rcases CircuitBreaker.allow_cases s.clock (s.clock + d) hc with hsame | ⟨hyes, -⟩
        · rwa [hsame]
        · exact absurd ⟨hact, hp, hc, hyes⟩ hrefuse
  · rw [(step_of_reporting hrep).1, Pool.report]
    by_cases hk : k = a.taskId
    · subst hk
      rw [setBreaker_breakers_self]
      exact settled_record _ _ _
    · rwa [setBreaker_breakers_of_ne hk]

lemma running_poolStep {s : Pool} {e : WorkerPool.Event} {worker : ℕ} {a : Admitted}
    (h : (WorkerPool.step s e).running worker = some a) :
    s.running worker = some a ∨ s.running worker = none ∧ ∃ id, e = .get worker id := by
  cases e with
  | submit ref priority isActive d =>
    unfold WorkerPool.step Pool.submit at h
    dsimp only at h
    split_ifs at h <;> exact .inl h
  | put id =>
    rcases step_put s id with hs | ⟨a', -, hs⟩ <;> rw [hs] at h
    · exact .inl h
    · unfold Pool.put at h
      dsimp only at h
      split_ifs at h <;> exact .inl h
  | get worker' id =>
    rcases step_get s worker' id with hs | ⟨a', -, hidle, hs⟩ <;> rw [hs] at h
    · exact .inl h
    · by_cases hw : worker = worker'
      · subst hw
        exact .inr ⟨hidle, id, rfl⟩
      · exact .inl (by simpa [hw] using h)
  | report worker' ok =>
    rcases step_report s worker' ok with hs | ⟨a', -, hs⟩ <;> rw [hs] at h <;> exact .inl h
  | finish worker' outcome =>
    rcases step_finish s worker' outcome with hs | ⟨a', -, ⟨-, hs⟩ | ⟨-, hs⟩⟩ <;> rw [hs] at h
    · exact .inl h
    · have hold := running_of_done h
      exact .inl hold
    · exact .inl (running_of_done h)
  | tick d => exact .inl h
  | pause taskId => exact .inl h
  | resume taskId => exact .inl h

/-! ### Bodies -/

/-- The body has been left without `_work` reporting a failure. -/
def LeftQuietly (pc : Pc) : Prop := pc = .done ∨ ∃ msg, pc = .raised (.skipFile msg)

variable {deps} {s : State}

lemma silentExit_of_onRaise {pc : Pc} {e : Exc} (hleft : LeftQuietly (onRaise e pc)) :
    LeftQuietly pc ∨ silentExit deps pc (.exc e) = true := by
  have hskip : onRaise e pc = .raised e → silentExit deps pc (.exc e) = true := by
    intro h
    rcases hleft with hdone | ⟨msg, hraised⟩
    · rw [h] at hdone
      cases hdone
    · rw [h] at hraised
      obtain rfl := Pc.raised.inj hraised
      cases pc <;> simpa [silentExit] using h
  cases pc with
  | execute m => simp [LeftQuietly, onRaise] at hleft
  | saveQuality result n => simp [LeftQuietly, onRaise] at hleft
  | checkQualityAlert result => simp [LeftQuietly, onRaise] at hleft
  | done => exact .inl (.inl rfl)
  | raised e' => exact .inl hleft
  | _ => exact .inr (hskip rfl)

lemma not_leftQuietly_dispatch (maxRetries : ℕ) (result : PipelineResult) :
    ¬ LeftQuietly (dispatch maxRetries result) := by
  unfold dispatch
  cases result.status <;> simp [LeftQuietly]

lemma leftQuietly_afterRetry (h : LeftQuietly (afterRetry deps)) : afterRetry deps = .done := by
  rcases h with hdone | ⟨msg, hraised⟩
  · exact hdone
  · unfold afterRetry at hraised
    split_ifs at hraised

lemma silentExit_of_leftQuietly {h : Handling} {x : Response} (hs : Sound h ∨ Spoiled h)
    (hr : report h.pc = none) (hrep : h.reports = [])
    (hleft : LeftQuietly (FileHandling.step deps h x).pc) :
    LeftQuietly h.pc ∨ silentExit deps h.pc x.answer = true := by
  rcases hs with hs | hbad
  swap
  · rw [step_of_finished hbad.1] at hleft
    exact .inl hleft
  obtain ⟨pc, reports, committed⟩ := h
  obtain ⟨a, took⟩ := x
  unfold FileHandling.step at hleft
  simp only [hr, Option.isSome_none, Bool.false_eq_true, if_false] at hleft hrep ⊢
  subst hrep
  revert hleft
  fun_cases resume deps pc a <;> intro hleft
  case case1 e => exact silentExit_of_onRaise hleft
  case case8 maxRetries result => exact absurd hleft (not_leftQuietly_dispatch _ _)
  case case21 maxRetries result n hle =>
    exact .inr (by simp [silentExit, leftQuietly_afterRetry hleft])
  all_goals first
    | cases hr; done
    | simp_all [LeftQuietly, silentExit, Sound]

/-! ### The invariant -/

structure Inv (s : State) : Prop where
  numbers : NumbersGiven s.pool
  workers : ∀ worker a, s.pool.running worker = some a → worker < s.numWorkers
  bodies : ∀ worker, Sound (s.handling worker) ∨ Spoiled (s.handling worker)
  /-- What a probe's body has reported has settled the breaker. -/
  reported : ∀ worker a, s.probing worker a → (s.handling worker).reports ≠ [] →
    Settled (s.pool.breakers a.taskId)
  /-- A probe's body is not left without a report. -/
  spoken : ∀ worker a, s.probing worker a → LeftQuietly (s.handling worker).pc →
    (s.handling worker).reports ≠ []

lemma inv_init (queueMaxsize : ℤ) (numWorkers : ℕ) : Inv (init queueMaxsize numWorkers) where
  numbers _ ha := by simp [init, Pool.Holds] at ha
  workers _ _ h := by cases h
  bodies _ := .inl sound_init
  reported _ _ h := by cases h.1
  spoken _ _ h := by cases h.1

lemma pool_step (deps : Deps) (s : State) (e : Event) :
    (step deps s e).pool = s.pool ∨ ∃ e', s.poolEvent e = some e' ∧
      (step deps s e).pool = WorkerPool.step s.pool e' := by
  rcases h : s.poolEvent e with _ | e'
  · exact .inl (by simp [step, h])
  · exact .inr ⟨e', rfl, by simp [step, h]⟩

lemma Inv.numbers_step (h : Inv s) (e : Event) : NumbersGiven (step deps s e).pool := by
  rcases pool_step deps s e with hp | ⟨e', -, hp⟩ <;> rw [hp]
  · exact h.numbers
  · exact h.numbers.step e'

lemma poolEvent_get {e : Event} {worker id : ℕ} (h : s.poolEvent e = some (.get worker id)) :
    e = .get worker id ∧ worker < s.numWorkers := by
  cases e with
  | get worker' id' =>
    simp only [State.poolEvent, Option.ite_none_right_eq_some, Option.some.injEq,
      WorkerPool.Event.get.injEq] at h
    obtain ⟨hlt, rfl, rfl⟩ := h
    exact ⟨rfl, hlt⟩
  | respond worker' x => simp [State.poolEvent] at h
  | finish worker' => simp [State.poolEvent] at h
  | _ => cases h

lemma running_step {e : Event} {worker : ℕ} {a : Admitted}
    (h : (step deps s e).pool.running worker = some a) :
    s.pool.running worker = some a ∨
      s.pool.running worker = none ∧ worker < s.numWorkers ∧ ∃ id, e = .get worker id := by
  rcases pool_step deps s e with hp | ⟨e', he, hp⟩ <;> rw [hp] at h
  · exact .inl h
  · rcases running_poolStep h with hold | ⟨hidle, id, rfl⟩
    · exact .inl hold
    · obtain ⟨rfl, hlt⟩ := poolEvent_get he
      exact .inr ⟨hidle, hlt, id, rfl⟩

lemma Inv.workers_step (h : Inv s) (e : Event) (worker : ℕ) (a : Admitted)
    (hrun : (step deps s e).pool.running worker = some a) :
    worker < (step deps s e).numWorkers := by
  rcases running_step hrun with hold | ⟨-, hlt, -⟩
  · exact h.workers worker a hold
  · exact hlt

lemma Inv.bodies_step (h : Inv s) (e : Event) (worker : ℕ) :
    Sound ((step deps s e).handling worker) ∨ Spoiled ((step deps s e).handling worker) := by
  cases e with
  | get worker' id =>
    simp only [step, State.handlingAfter]
    split_ifs
    · by_cases hw : worker = worker'
      · subst hw
        rw [Function.update_self]
        exact .inl sound_init
      · rw [Function.update_of_ne hw]
        exact h.bodies worker
    · exact h.bodies worker
  | respond worker' x =>
    simp only [step, State.handlingAfter]
    split_ifs
    · exact h.bodies worker
    · by_cases hw : worker = worker'
      · subst hw
        rw [Function.update_self]
        exact sound_or_spoiled_step (h.bodies worker) x
      · rw [Function.update_of_ne hw]
        exact h.bodies worker
  | _ => exact h.bodies worker

lemma Inv.probing_step (h : Inv s) {e : Event} {worker : ℕ} {a : Admitted}
    (hp : (step deps s e).probing worker a) :
    s.probing worker a ∨ (step deps s e).handling worker = {} := by
  obtain ⟨hrun, hmem⟩ := hp
  rcases running_step hrun with hold | ⟨hidle, -, id, rfl⟩
  · refine .inl ⟨hold, ?_⟩
    cases e with
    | submit ref priority isActive d =>
      simp only [step, State.probesAfter] at hmem
      split_ifs at hmem
      · have hlt := h.numbers a (.inr (.inr ⟨worker, hold⟩))
        rcases List.mem_cons.1 hmem with hnew | hmem
        · omega
        · exact hmem
      · exact hmem
    | _ => exact hmem
  · right
    simp [step, State.handlingAfter, hidle]

lemma handling_step {e : Event} {worker : ℕ} {a : Admitted}
    (hrun : s.pool.running worker = some a) :
    (step deps s e).handling worker = s.handling worker ∨ ∃ x, e = .respond worker x ∧
      (step deps s e).handling worker = FileHandling.step deps (s.handling worker) x := by
  cases e with
  | get worker' id =>
    left
    simp only [step, State.handlingAfter]
    split_ifs with hidle
    · have hw : worker ≠ worker' := by
        rintro rfl
        rw [hrun] at hidle
        cases hidle
      exact Function.update_of_ne hw _ _
    · rfl
  | respond worker' x =>
    by_cases hw : worker = worker'
    · subst hw
      exact .inr ⟨x, rfl, by simp [step, State.handlingAfter, hrun]⟩
    · left
      simp only [step, State.handlingAfter]
      split_ifs
      · rfl
      · exact Function.update_of_ne hw _ _
  | _ => exact .inl rfl

lemma pool_respond {worker : ℕ} {a : Admitted} (hrun : s.pool.running worker = some a)
    (x : Response) : (step deps s (.respond worker x)).pool =
      (report (s.handling worker).pc).elim s.pool (s.pool.report a) := by
  simp only [step, State.poolEvent]
  cases report (s.handling worker).pc with
  | none => rfl
  | some ok => simp [WorkerPool.step, hrun]

lemma Inv.settled_step (h : Inv s) {e : Event} (hno : ¬ Overtakes s e) {worker : ℕ} {a : Admitted}
    (hp : s.probing worker a) (hrep : (s.handling worker).reports ≠ []) :
    Settled ((step deps s e).pool.breakers a.taskId) := by
  have hbefore := h.reported worker a hp hrep
  rcases pool_step deps s e with hpool | ⟨e', he, hpool⟩ <;> rw [hpool]
  · exact hbefore
  · refine settled_poolStep hbefore fun ref priority isActive d he' hk hadmits => hno ?_
    subst he'
    obtain rfl : e = .submit ref priority isActive d := by
      cases e with
      | submit ref' priority' isActive' d' => simpa [State.poolEvent] using he
      | get worker' id => simp [State.poolEvent] at he
      | respond worker' x => simp [State.poolEvent] at he
      | finish worker' => simp [State.poolEvent] at he
      | _ => cases he
    refine ⟨hadmits, worker, h.workers worker a hp.1, ?_, hrep⟩
    simp [hp.1, hp.2, hk]

lemma Inv.reported_step (h : Inv s) {e : Event} (hno : ¬ Overtakes s e) {worker : ℕ} {a : Admitted}
    (hp : (step deps s e).probing worker a)
    (hrep : ((step deps s e).handling worker).reports ≠ []) :
    Settled ((step deps s e).pool.breakers a.taskId) := by
  rcases h.probing_step hp with hold | hnew
  swap
  · rw [hnew] at hrep
    exact absurd rfl hrep
  rcases @handling_step deps s e worker a hold.1 with hsame | ⟨x, rfl, hstep⟩
  · rw [hsame] at hrep
    exact h.settled_step hno hold hrep
  · rw [hstep] at hrep
    rcases hr : report (s.handling worker).pc with _ | ok
    · have hbefore : (s.handling worker).reports ≠ [] := by
        simpa [FileHandling.step, hr] using hrep
      exact h.settled_step hno hold hbefore
    · -- the response is the report itself
      rw [pool_respond hold.1, hr]
      show Settled ((s.pool.report a ok).breakers a.taskId)
      rw [Pool.report, setBreaker_breakers_self]
      exact settled_record _ _ _

lemma Inv.spoken_step (h : Inv s) {e : Event} (hno : ¬ Silent deps s e) {worker : ℕ} {a : Admitted}
    (hp : (step deps s e).probing worker a)
    (hleft : LeftQuietly ((step deps s e).handling worker).pc) :
    ((step deps s e).handling worker).reports ≠ [] := by
  rcases h.probing_step hp with hold | hnew
  swap
  · rw [hnew] at hleft
    rcases hleft with hdone | ⟨msg, hraised⟩
    · cases hdone
    · cases hraised
  rcases @handling_step deps s e worker a hold.1 with hsame | ⟨x, rfl, hstep⟩
  · rw [hsame] at hleft ⊢
    exact h.spoken worker a hold hleft
  · rw [hstep] at hleft ⊢
    rcases hr : report (s.handling worker).pc with _ | ok
    · have hreports : (FileHandling.step deps (s.handling worker) x).reports =
          (s.handling worker).reports := by simp [FileHandling.step, hr]
      rw [hreports]
      intro hnone
      rcases silentExit_of_leftQuietly (h.bodies worker) hr hnone hleft with hbefore | hexit
      · exact h.spoken worker a hold hbefore hnone
      · exact hno ⟨by simp [hold.1, hold.2], hnone, hr, hexit⟩
    · simp [FileHandling.step, hr]

/-- **The step lemma.** -/
lemma Inv.step (h : Inv s) (e : Event) (hout : Outspoken deps s e) :
    Inv (ProbeSettles.step deps s e) where
  numbers := h.numbers_step e
  workers worker a hrun := h.workers_step e worker a hrun
  bodies worker := h.bodies_step e worker
  reported _ _ hp hrep := h.reported_step hout.2 hp hrep
  spoken _ _ hp hleft := h.spoken_step hout.1 hp hleft

/-! ### The end of a handling -/

lemma breakers_finish {worker : ℕ} {a : Admitted} (hrun : s.pool.running worker = some a)
    (hleft : LeftQuietly (s.handling worker).pc) :
    (step deps s (.finish worker)).pool.breakers = s.pool.breakers := by
  rcases hleft with hdone | ⟨msg, hraised⟩
  · simp [step, State.poolEvent, outcome, hdone, WorkerPool.step, hrun, Pool.done]
  · simp [step, State.poolEvent, outcome, hraised, Exc.isSkipFile, WorkerPool.step, hrun, Pool.done]

lemma breakers_finish_of_raised {worker : ℕ} {a : Admitted} {e : Exc}
    (hrun : s.pool.running worker = some a) (hraised : (s.handling worker).pc = .raised e)
    (hskip : e.isSkipFile = false) :
    (step deps s (.finish worker)).pool.breakers = (s.pool.report a false).breakers := by
  simp [step, State.poolEvent, outcome, hraised, hskip, WorkerPool.step, hrun, Pool.done]

lemma not_settled_finish {worker : ℕ} {a : Admitted} (hrun : s.pool.running worker = some a)
    (hleft : LeftQuietly (s.handling worker).pc)
    (hhalf : (s.pool.breakers a.taskId).state = .halfOpen) :
    ¬ Settled ((step deps s (.finish worker)).pool.breakers a.taskId) := by
  rw [breakers_finish hrun hleft]
  exact fun hsettled => hsettled.1 hhalf

/-- **One step.** A worker that is done with a probe leaves a settled breaker. -/
lemma Inv.settles (h : Inv s) (e : Event) : Settles deps s e := by
  rintro worker a rfl hp hf
  by_cases hleft : LeftQuietly (s.handling worker).pc
  · rw [breakers_finish hp.1 hleft]
    exact h.reported worker a hp (h.spoken worker a hp hleft)
  · obtain ⟨e, hraised⟩ := hf.resolve_left fun hdone => hleft (.inl hdone)
    have hskip : e.isSkipFile = false := by
      cases e with
      | skipFile msg => exact absurd (.inr ⟨msg, hraised⟩) hleft
      | _ => rfl
    rw [breakers_finish_of_raised hp.1 hraised hskip, Pool.report, setBreaker_breakers_self]
    exact settled_record _ _ _

/-- The pool's part in a run is a run of the pool. -/
theorem pool_run (deps : Deps) (s : State) (l : List Event) :
    ∃ l' : List WorkerPool.Event,
      (l.foldl (step deps) s).pool = l'.foldl WorkerPool.step s.pool := by
  induction l generalizing s with
  | nil => exact ⟨[], rfl⟩
  | cons e l ih =>
    obtain ⟨l', hl'⟩ := ih (step deps s e)
    rcases pool_step deps s e with hp | ⟨e', -, hp⟩
    · exact ⟨l', by rw [List.foldl_cons, hl', hp]⟩
    · exact ⟨e' :: l', by rw [List.foldl_cons, hl', hp, List.foldl_cons]⟩

/-- **Every finished probe settles the breaker**, in the runs in which no probe is left silently,
and none is let through between the report of an earlier one and the end of its handling. -/
theorem settles_of_outspoken (deps : Deps) (queueMaxsize : ℤ) (numWorkers : ℕ) (l : List Event)
    (h : Steps (step deps) (Outspoken deps) (init queueMaxsize numWorkers) l) :
    Steps (step deps) (Settles deps) (init queueMaxsize numWorkers) l :=
  steps_of_inv (fun _ e hi hout => hi.step e hout) (fun _ e hi _ => hi.settles e)
    (inv_init queueMaxsize numWorkers) h

/-- The file number `i` of the task `t` goes through the only worker, whose calls answer so. -/
def fileAnswered (i : ℕ) (answers : List Answer) : List Event :=
  [.submit ⟨⟨"t", "/in/x.csv", i⟩, 3, "h"⟩ 5 true 0, .put i, .get 0 i] ++
    answers.map (fun a => .respond 0 ⟨a, false⟩) ++ [.finish 0]

def answersUpTo (result : PipelineResult) : List Answer :=
  [.task (some 3), .db (.granted true), .db (.granted true), .result result]

/-- Five files fail for good, and the time of the open breaker goes by. -/
def tripped : List Event :=
  (List.range 5).flatMap (fun i => fileAnswered i
    (answersUpTo { status := .failed, error := some (.fatal "no such table") } ++
      [.db (.retryCount 1), .unit, .unit, .unit])) ++ [.tick pastRecovery]

/-- The probe is loaded. -/
def probeLoaded : List Event :=
  tripped ++ fileAnswered 5
    (answersUpTo { status := .success } ++ [.db (.fileId 6), .path "", .unit])

theorem settles_of_outspoken_probeLoaded :
    Steps (step {}) (Settles {}) (init 500 1) probeLoaded :=
  settles_of_outspoken {} 500 1 probeLoaded (by decide +kernel)

/-- The probe is an empty file. -/
def probeSkipped : List Event :=
  tripped ++ fileAnswered 5
    (answersUpTo { status := .skipped, error := some (.skipFile "Empty file") } ++ [.db .unit])

theorem not_settles_probeSkipped :
    ¬ ∀ (deps : Deps) (queueMaxsize : ℤ) (numWorkers : ℕ) (l : List Event),
      Steps (step deps) (Settles deps) (init queueMaxsize numWorkers) l := by
  intro h
  have hlast : probeSkipped = probeSkipped.dropLast ++ [.finish 0] := rfl
  have hrun := h {} 500 1 probeSkipped
  rw [hlast] at hrun
  have hprobe : ∃ a, (probeSkipped.dropLast.foldl (step {}) (init 500 1)).probing 0 a ∧
      a.taskId = "t" := ⟨⟨5, 5, ⟨⟨"t", "/in/x.csv", 5⟩, 3, "h"⟩⟩,
        ⟨by decide +kernel, by decide +kernel⟩,
    rfl⟩
  obtain ⟨a, hprobe, htask⟩ := hprobe
  have hsettled := hrun.at 0 a rfl hprobe (.inl (by decide +kernel))
  rw [htask] at hsettled
  have hhalf : ((step {} (probeSkipped.dropLast.foldl (step {}) (init 500 1))
      (.finish 0)).pool.breakers "t").state = .halfOpen := by decide +kernel
  exact hsettled.1 hhalf

end Tdcs.ProbeSettles
