import Tdcs.CircuitBreaker
import Tdcs.ProcessedFileRepo
import Mathlib.Logic.Function.Basic

/-!
`WorkerPool`: the queue, the breakers and the worker threads.

`submit` asks the breaker and puts the task into the queue in two steps, between which other
threads can run. What `process_fn` does with a task is left open: while it runs it may report to
the breaker as often as it likes, and it may raise.

A report does not say which admission it belongs to. The number of a task, which only the model
knows, tells the task that was let through as the probe from those that were let through before
the breaker tripped.
-/

namespace Tdcs.WorkerPool

open Tdcs.Lib Tdcs.Lib.Run Tdcs.ProcessedFileRepo

inductive SubmitResult
  | queued
  | rejectedCircuitOpen
  | rejectedHaStandby
  | rejectedTaskPaused
  | queueFull
  deriving DecidableEq, Repr

structure WorkerTask where
  priority : ℤ
  ref : FileRef
  deriving DecidableEq, Repr

/-- A task with its number. -/
structure Admitted where
  id : ℕ
  task : WorkerTask
  deriving DecidableEq, Repr

def Admitted.taskId (a : Admitted) : String := a.task.ref.taskId

structure Pool where
  clock : ℚ := 0
  queueMaxsize : ℤ := 500
  queue : List Admitted := []
  paused : List String := []
  breakers : String → CircuitBreaker := fun _ => {}
  queueCounts : String → ℕ := fun _ => 0
  /-- Let through by `allow`, not put into the queue yet. -/
  submitting : List Admitted := []
  /-- What each worker thread is at. -/
  running : ℕ → Option Admitted := fun _ => none
  nextId : ℕ := 0
  /-- The task let through last by a breaker that was not closed, while it is half open. -/
  probe : String → Option ℕ := fun _ => none

/-- How `process_fn` ends. -/
inductive Outcome | returned | skipFile | raised
  deriving DecidableEq, Repr

inductive Event
  | tick (d : ℚ≥0)
  /-- `submit`, as far as `allow`; the time `d` passes in `allow`. -/
  | submit (ref : FileRef) (priority : ℤ) (isActive : Bool) (d : ℚ≥0)
  /-- `put_nowait`. -/
  | put (id : ℕ)
  /-- The worker takes the task from the queue. -/
  | get (worker id : ℕ)
  /-- `process_fn` calls `record_success` or `record_failure`. -/
  | report (worker : ℕ) (ok : Bool)
  | finish (worker : ℕ) (outcome : Outcome)
  | pause (taskId : String)
  | resume (taskId : String)

/-- A task's breaker is replaced. -/
def Pool.setBreaker (s : Pool) (taskId : String) (b : CircuitBreaker) : Pool :=
  { s with
    breakers := Function.update s.breakers taskId b
    probe := if b.state = .halfOpen then s.probe else Function.update s.probe taskId none }

/-- `allow` has let the task through, in the state `before` of its breaker. -/
def Pool.letThrough (s : Pool) (task : WorkerTask) (before : CircuitState) : Pool :=
  { s with
    submitting := s.submitting ++ [⟨s.nextId, task⟩]
    nextId := s.nextId + 1
    probe := if before = .closed then s.probe
      else Function.update s.probe task.ref.taskId (some s.nextId) }

/-- `submit` up to `put_nowait`: a refusal, or none. -/
def Pool.submit (s : Pool) (ref : FileRef) (priority : ℤ) (isActive : Bool) (d : ℚ≥0) :
    Option SubmitResult × Pool :=
  if !isActive then (some .rejectedHaStandby, s)
  else if ref.taskId ∈ s.paused then (some .rejectedTaskPaused, s)
  else
    let b := s.breakers ref.taskId
    let (allowed, b') := b.allow s.clock (s.clock + d)
    let s' := { s.setBreaker ref.taskId b' with clock := s.clock + d }
    if allowed then (none, s'.letThrough ⟨priority, ref⟩ b.state)
    else (some .rejectedCircuitOpen, s')

/-- `PriorityQueue.full`. -/
def Pool.full (s : Pool) : Bool := 0 < s.queueMaxsize && s.queueMaxsize ≤ s.queue.length

/-- The rest of `submit`. -/
def Pool.put (s : Pool) (a : Admitted) : SubmitResult × Pool :=
  let s' := { s with submitting := s.submitting.erase a }
  if s.full then (.queueFull, s')
  else (.queued, { s' with
    queue := s.queue ++ [a]
    queueCounts := Function.update s.queueCounts a.taskId (s.queueCounts a.taskId + 1) })

/-- No task in the queue is less than this one. -/
def Pool.isMin (s : Pool) (a : Admitted) : Bool :=
  s.queue.all fun b => a.task.priority ≤ b.task.priority

/-- The breaker after a report. -/
def record (b : CircuitBreaker) (t : ℚ) (ok : Bool) : CircuitBreaker :=
  if ok then b.recordSuccess else b.recordFailure t

def Pool.report (s : Pool) (a : Admitted) (ok : Bool) : Pool :=
  s.setBreaker a.taskId (record (s.breakers a.taskId) s.clock ok)

/-- The `finally` of `_work`. -/
def Pool.done (s : Pool) (worker : ℕ) (a : Admitted) : Pool :=
  { s with
    running := Function.update s.running worker none
    queueCounts := Function.update s.queueCounts a.taskId (s.queueCounts a.taskId - 1) }

def step (s : Pool) : Event → Pool
  | .tick d => { s with clock := s.clock + d }
  | .submit ref priority isActive d => (s.submit ref priority isActive d).2
  | .put id =>
    match s.submitting.find? fun a => a.id = id with
    | none => s
    | some a => (s.put a).2
  | .get worker id =>
    match s.queue.find? fun a => a.id = id with
    | none => s
    | some a =>
      if s.running worker = none ∧ s.isMin a = true then
        { s with queue := s.queue.erase a, running := Function.update s.running worker (some a) }
      else s
  | .report worker ok =>
    match s.running worker with
    | none => s
    | some a => s.report a ok
  | .finish worker outcome =>
    match s.running worker, outcome with
    | none, _ => s
    | some a, .raised => (s.report a false).done worker a
    | some a, _ => s.done worker a
  | .pause taskId => { s with paused := taskId :: s.paused }
  | .resume taskId => { s with paused := s.paused.filter (· ≠ taskId) }

/-! ### What is to hold, and when -/

/-- The task whose outcome the step reports, and the outcome. -/
def Pool.reporting (s : Pool) : Event → Option (Admitted × Bool)
  | .report worker ok => (s.running worker).map fun a => (a, ok)
  | .finish worker .raised => (s.running worker).map fun a => (a, false)
  | _ => none

/-- The step takes no breaker from `OPEN` to `CLOSED`, and none out of `HALF_OPEN` unless it
reports the outcome of the probe. -/
def Orderly (s : Pool) (e : Event) : Prop :=
  ∀ k, ((s.breakers k).state = .opened → ((step s e).breakers k).state ≠ .closed) ∧
    ((s.breakers k).state = .halfOpen → ((step s e).breakers k).state ≠ .halfOpen →
      ∃ a ok, s.reporting e = some (a, ok) ∧ a.taskId = k ∧ s.probe k = some a.id)

/-- A task that is not the probe reports to a closed breaker, or a failure to an open one. -/
def NoStaleReport (s : Pool) (e : Event) : Prop :=
  ∀ a ok, s.reporting e = some (a, ok) → s.probe a.taskId ≠ some a.id →
    (s.breakers a.taskId).state = .closed ∨ (s.breakers a.taskId).state = .opened ∧ ok = false

/-- A breaker that is not half open has no probe. -/
def ProbesHalfOpen (s : Pool) : Prop := ∀ k, (s.breakers k).state ≠ .halfOpen → s.probe k = none

variable {s : Pool} {k : String}

/-! ### What a step can be -/

lemma step_put (s : Pool) (id : ℕ) :
    step s (.put id) = s ∨ ∃ a ∈ s.submitting, step s (.put id) = (s.put a).2 := by
  unfold step
  dsimp only
  split
  · exact .inl rfl
  · next hfind => exact .inr ⟨_, List.mem_of_find?_eq_some hfind, rfl⟩

lemma step_get (s : Pool) (worker id : ℕ) :
    step s (.get worker id) = s ∨ ∃ a ∈ s.queue, s.running worker = none ∧
      step s (.get worker id) =
        { s with
          queue := s.queue.erase a
          running := Function.update s.running worker (some a) } := by
  unfold step
  dsimp only
  split
  · exact .inl rfl
  · next hfind =>
    split_ifs with hidle
    · exact .inr ⟨_, List.mem_of_find?_eq_some hfind, hidle.1, rfl⟩
    · exact .inl rfl

lemma step_report (s : Pool) (worker : ℕ) (ok : Bool) :
    step s (.report worker ok) = s ∨
      ∃ a, s.running worker = some a ∧ step s (.report worker ok) = s.report a ok := by
  unfold step
  dsimp only
  split
  · exact .inl rfl
  · next hrun => exact .inr ⟨_, hrun, rfl⟩

lemma step_finish (s : Pool) (worker : ℕ) (outcome : Outcome) :
    step s (.finish worker outcome) = s ∨ ∃ a, s.running worker = some a ∧
      (outcome = .raised ∧ step s (.finish worker outcome) = (s.report a false).done worker a ∨
        outcome ≠ .raised ∧ step s (.finish worker outcome) = s.done worker a) := by
  rcases hrun : s.running worker with _ | a
  · exact .inl (by simp [step, hrun])
  · refine .inr ⟨a, rfl, ?_⟩
    cases outcome <;> simp [step, hrun]

/-! ### What a step does to a breaker -/

@[simp] lemma setBreaker_breakers_self (b : CircuitBreaker) :
    (s.setBreaker k b).breakers k = b := by
  simp [Pool.setBreaker]

lemma setBreaker_breakers_of_ne {k' : String} (h : k' ≠ k) (b : CircuitBreaker) :
    (s.setBreaker k b).breakers k' = s.breakers k' := by
  simp [Pool.setBreaker, h]

@[simp] lemma letThrough_breakers (task : WorkerTask) (before : CircuitState) :
    (s.letThrough task before).breakers = s.breakers := rfl

lemma breakers_submit (ref : FileRef) (priority : ℤ) (isActive : Bool) (d : ℚ≥0) (k : String) :
    (s.submit ref priority isActive d).2.breakers k = s.breakers k ∨
      k = ref.taskId ∧ isActive = true ∧ k ∉ s.paused ∧
        (s.submit ref priority isActive d).2.breakers k =
          ((s.breakers k).allow s.clock (s.clock + d)).2 := by
  by_cases hk : k = ref.taskId
  · subst hk
    unfold Pool.submit
    dsimp only
    split_ifs with hact hp
    · exact .inl rfl
    · exact .inl rfl
    · exact .inr ⟨rfl, by simpa using hact, hp, setBreaker_breakers_self _⟩
    · exact .inr ⟨rfl, by simpa using hact, hp, setBreaker_breakers_self _⟩
  · refine .inl ?_
    unfold Pool.submit
    dsimp only
    split_ifs
    · rfl
    · rfl
    · exact setBreaker_breakers_of_ne hk _
    · exact setBreaker_breakers_of_ne hk _

lemma put_breakers (a : Admitted) : (s.put a).2.breakers = s.breakers := by
  unfold Pool.put
  dsimp only
  split_ifs <;> rfl

lemma breakers_of_not_reporting {e : Event} (h : s.reporting e = none) (k : String) :
    (step s e).breakers k = s.breakers k ∨
      ∃ ref priority isActive d, e = .submit ref priority isActive d ∧ k = ref.taskId ∧
        isActive = true ∧ k ∉ s.paused ∧
        (step s e).breakers k = ((s.breakers k).allow s.clock (s.clock + d)).2 := by
  cases e with
  | submit ref priority isActive d =>
    rcases breakers_submit (s := s) ref priority isActive d k with hb | hb
    · exact .inl hb
    · exact .inr ⟨ref, priority, isActive, d, rfl, hb⟩
  | put id =>
    rcases step_put s id with hs | ⟨a, -, hs⟩
    · exact .inl (by rw [hs])
    · exact .inl (by rw [hs, put_breakers])
  | get worker id =>
    rcases step_get s worker id with hs | ⟨a, -, -, hs⟩
    · exact .inl (by rw [hs])
    · exact .inl (by rw [hs])
  | report worker ok =>
    have hidle : s.running worker = none := Option.map_eq_none_iff.mp h
    exact .inl (by simp [step, hidle])
  | finish worker outcome =>
    rcases step_finish s worker outcome with hs | ⟨a, hrun, ⟨rfl, -⟩ | ⟨-, hs⟩⟩
    · exact .inl (by rw [hs])
    · rw [Pool.reporting, hrun] at h
      cases h
    · exact .inl (by rw [hs]; rfl)
  | tick d => exact .inl rfl
  | pause taskId => exact .inl rfl
  | resume taskId => exact .inl rfl

lemma step_of_reporting {e : Event} {a : Admitted} {ok : Bool}
    (h : s.reporting e = some (a, ok)) :
    (step s e).breakers = (s.report a ok).breakers ∧
      (step s e).probe = (s.report a ok).probe := by
  cases e with
  | report worker ok' =>
    obtain ⟨a', hrun, ha⟩ := Option.map_eq_some_iff.mp h
    cases ha
    simp [step, hrun]
  | finish worker outcome =>
    cases outcome with
    | raised =>
      obtain ⟨a', hrun, ha⟩ := Option.map_eq_some_iff.mp h
      cases ha
      simp [step, hrun, Pool.done]
    | _ => cases h
  | _ => cases h

lemma allow_state_of_opened {b : CircuitBreaker} (t t' : ℚ) (h : b.state = .opened) :
    (b.allow t t').2.state ≠ .closed := by
  rcases CircuitBreaker.allow_cases t t' (by simp [h] : b.state ≠ .closed) with
    hno | ⟨-, hst, -⟩
  · simp [hno, h]
  · simp [hst]

lemma allow_state_of_halfOpen {b : CircuitBreaker} (t t' : ℚ) (h : b.state = .halfOpen) :
    (b.allow t t').2.state = .halfOpen := by
  rcases CircuitBreaker.allow_cases t t' (by simp [h] : b.state ≠ .closed) with
    hno | ⟨-, hst, -⟩
  · simp [hno, h]
  · exact hst

lemma record_state (b : CircuitBreaker) (t : ℚ) (ok : Bool) :
    (b.state = .opened → ((record b t ok).state ≠ .closed ↔ ok = false)) ∧
      (b.state = .halfOpen → (record b t ok).state ≠ .halfOpen) := by
  cases ok with
  | true => simp [record]
  | false =>
    rcases CircuitBreaker.recordFailure_cases (b := b) (t := t) with ⟨hs, -⟩ | ⟨hne, hs, -⟩
    · simp [record, hs]
    · exact ⟨fun h => by simp [record, hs, h], fun h => absurd h hne⟩

/-! ### The probe -/

lemma probesHalfOpen_init (queueMaxsize : ℤ) : ProbesHalfOpen { queueMaxsize } := fun _ _ => rfl

lemma ProbesHalfOpen.congr {s' : Pool} (h : ProbesHalfOpen s) (hb : s'.breakers = s.breakers)
    (hp : s'.probe = s.probe) : ProbesHalfOpen s' := by
  intro k hk
  rw [hp]
  exact h k (hb ▸ hk)

lemma ProbesHalfOpen.setBreaker (h : ProbesHalfOpen s) (k : String) (b : CircuitBreaker) :
    ProbesHalfOpen (s.setBreaker k b) := by
  intro k' hk'
  by_cases hkk : k' = k
  · subst hkk
    rw [setBreaker_breakers_self] at hk'
    simp [Pool.setBreaker, hk']
  · rw [setBreaker_breakers_of_ne hkk] at hk'
    unfold Pool.setBreaker
    dsimp only
    split_ifs
    · exact h k' hk'
    · rw [Function.update_of_ne hkk]
      exact h k' hk'

lemma ProbesHalfOpen.letThrough (h : ProbesHalfOpen s) (task : WorkerTask) {before : CircuitState}
    (hb : before ≠ .closed → (s.breakers task.ref.taskId).state = .halfOpen) :
    ProbesHalfOpen (s.letThrough task before) := by
  intro k hk
  unfold Pool.letThrough
  dsimp only
  split_ifs with hc
  · exact h k hk
  · have hne : k ≠ task.ref.taskId := by
      rintro rfl
      exact hk (hb hc)
    rw [Function.update_of_ne hne]
    exact h k hk

lemma ProbesHalfOpen.submit (h : ProbesHalfOpen s) (ref : FileRef) (priority : ℤ)
    (isActive : Bool) (d : ℚ≥0) : ProbesHalfOpen (s.submit ref priority isActive d).2 := by
  unfold Pool.submit
  dsimp only
  have hset := h.setBreaker ref.taskId
    ((s.breakers ref.taskId).allow s.clock (s.clock + d)).2
  split_ifs with _ _ hallow
  · exact h
  · exact h
  · refine ProbesHalfOpen.letThrough (hset.congr rfl rfl) _ fun hne => ?_
    show ((s.setBreaker ref.taskId _).breakers ref.taskId).state = .halfOpen
    rw [setBreaker_breakers_self]
    rcases CircuitBreaker.allow_cases s.clock (s.clock + d) hne with
      hno | ⟨-, hst, -⟩
    · rw [hno] at hallow
      cases hallow
    · exact hst
  · exact hset.congr rfl rfl

lemma ProbesHalfOpen.step (h : ProbesHalfOpen s) (e : Event) : ProbesHalfOpen (step s e) := by
  rcases hrep : s.reporting e with _ | ⟨a, ok⟩
  swap
  · -- a report replaces the breaker of its task
    obtain ⟨hb, hp⟩ := step_of_reporting hrep
    exact (h.setBreaker a.taskId _).congr hb hp
  cases e with
  | tick d => exact h.congr rfl rfl
  | submit ref priority isActive d => exact h.submit ref priority isActive d
  | put id =>
    rcases step_put s id with hs | ⟨a, -, hs⟩ <;> rw [hs]
    · exact h
    · unfold Pool.put
      dsimp only
      split_ifs <;> exact h.congr rfl rfl
  | get worker id =>
    rcases step_get s worker id with hs | ⟨a, -, -, hs⟩ <;> rw [hs]
    · exact h
    · exact h.congr rfl rfl
  | report worker ok =>
    have hidle : s.running worker = none := Option.map_eq_none_iff.mp hrep
    simpa [WorkerPool.step, hidle] using h
  | finish worker outcome =>
    rcases step_finish s worker outcome with hs | ⟨a, hrun, ⟨rfl, -⟩ | ⟨-, hs⟩⟩
    · rwa [hs]
    · rw [Pool.reporting, hrun] at hrep
      cases hrep
    · rw [hs]
      exact h.congr rfl rfl
  | pause taskId => exact h.congr rfl rfl
  | resume taskId => exact h.congr rfl rfl

/-- **One step.** It is orderly exactly when it reports nothing stale. -/
lemma orderly_iff_noStaleReport (h : ProbesHalfOpen s) (e : Event) :
    Orderly s e ↔ NoStaleReport s e := by
  rcases hrep : s.reporting e with _ | ⟨a, ok⟩
  · -- the breakers are asked at most
    refine iff_of_true (fun k => ?_) fun a ok ha => by rw [hrep] at ha; cases ha
    rcases breakers_of_not_reporting hrep k with hb |
      ⟨ref, priority, isActive, d, -, -, -, -, hb⟩ <;>
      rw [hb]
    · exact ⟨fun ho => by simp [ho], fun hh hne => absurd hh hne⟩
    · exact ⟨allow_state_of_opened _ _,
        fun hh hne => absurd (allow_state_of_halfOpen _ _ hh) hne⟩
  · have hself : (step s e).breakers a.taskId =
        record (s.breakers a.taskId) s.clock ok := by
      rw [(step_of_reporting hrep).1]
      exact setBreaker_breakers_self _
    obtain ⟨hopened, hhalf⟩ := record_state (s.breakers a.taskId) s.clock ok
    constructor
    · intro ho a' ok' ha' hstale
      rw [hrep] at ha'
      cases ha'
      obtain ⟨h1, h2⟩ := ho a.taskId
      rw [hself] at h1 h2
      cases hs : (s.breakers a.taskId).state with
      | closed => exact .inl rfl
      | opened => exact .inr ⟨rfl, (hopened hs).mp (h1 hs)⟩
      | halfOpen =>
        obtain ⟨a', ok', ha', -, hprobe⟩ := h2 hs (hhalf hs)
        rw [hrep] at ha'
        cases ha'
        exact absurd hprobe hstale
    · intro hn k
      by_cases hk : k = a.taskId
      · subst hk
        rw [hself]
        refine ⟨fun hs => ?_, fun hs _ => ⟨a, ok, hrep, rfl, ?_⟩⟩
        · have hnone := h a.taskId (by simp [hs])
          rcases hn a ok hrep (by simp [hnone]) with hc | ⟨-, hok⟩
          · rw [hs] at hc
            cases hc
          · exact (hopened hs).mpr hok
        · by_contra hstale
          rcases hn a ok hrep hstale with hc | ⟨hc, -⟩ <;> rw [hs] at hc <;> cases hc
      · rw [(step_of_reporting hrep).1, Pool.report, setBreaker_breakers_of_ne hk]
        exact ⟨fun ho => by simp [ho], fun hh hne => absurd hh hne⟩

/-- **Only a probe ends an outage, in the runs without stale reports.** No breaker goes from
`OPEN` to `CLOSED` directly, and none leaves `HALF_OPEN` but on the outcome of its probe, exactly
in the runs in which no other task reports to a breaker that is half open, or a success to one
that is open. -/
theorem orderly_iff (queueMaxsize : ℤ) (l : List Event) :
    Steps step Orderly { queueMaxsize } l ↔ Steps step NoStaleReport { queueMaxsize } l :=
  steps_iff_steps (I := ProbesHalfOpen) (fun _ e h => h.step e)
    (fun _ e h => orderly_iff_noStaleReport h e) (probesHalfOpen_init queueMaxsize)

/-- Six files of one task are queued and taken while the breaker is closed; five fail, and then
the sixth succeeds. -/
def lateSuccess : List Event :=
  let file (i : ℕ) : FileRef := ⟨⟨"t", "/in/x.csv", i⟩, 3, "h"⟩
  (List.range 6).flatMap (fun i => [.submit (file i) 5 true 0, .put i, .get i i]) ++
    (List.range 5).map (fun i => .report i false) ++ [.report 5 true]

theorem not_orderly_lateSuccess :
    ¬ ∀ (queueMaxsize : ℤ) (l : List Event), Steps step Orderly { queueMaxsize } l := by
  intro h
  have hlast : lateSuccess = lateSuccess.dropLast ++ [.report 5 true] := rfl
  have hord := h 500 lateSuccess
  rw [hlast] at hord
  have hopen : ((lateSuccess.dropLast.foldl step { queueMaxsize := 500 }).breakers "t").state =
      .opened := by decide +kernel
  have hclosed : ((step (lateSuccess.dropLast.foldl step { queueMaxsize := 500 })
      (.report 5 true)).breakers "t").state = .closed := by decide +kernel
  exact (hord.at "t").1 hopen hclosed

end Tdcs.WorkerPool
