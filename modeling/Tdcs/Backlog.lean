import Tdcs.WorkerPool
import Mathlib.Data.List.Count

/-!
The backlog counter of `WorkerPool` under any interleaving.

`submit` puts its task into the queue and then counts it; a worker takes a task, works, and then
counts it off. Each is a step of its own, with its own lock. A submit and a worker are given by
the task they have in hand, so there may be any number of them.
-/

namespace Tdcs.Backlog

open Tdcs.Lib Tdcs.Lib.Run Tdcs.ProcessedFileRepo
open Tdcs.WorkerPool (WorkerTask Pool Admitted)

structure State where
  queueMaxsize : ℤ := 500
  queue : List WorkerTask := []
  /-- In the queue, or already out of it, while `submit` has still to count it. -/
  counting : List WorkerTask := []
  processing : List WorkerTask := []
  /-- `process_fn` has ended; the worker has still to count it off. -/
  closing : List WorkerTask := []
  queueCounts : String → ℕ := fun _ => 0

inductive Event
  /-- `put_nowait`. -/
  | put (task : WorkerTask)
  /-- `submit` increments the counter. -/
  | count (task : WorkerTask)
  | get (task : WorkerTask)
  /-- `process_fn` returns or raises. -/
  | process (task : WorkerTask)
  /-- The `finally` of `_work`. -/
  | uncount (task : WorkerTask)

/-- `PriorityQueue.full`. -/
def State.full (s : State) : Bool := 0 < s.queueMaxsize && s.queueMaxsize ≤ s.queue.length

/-- No task in the queue is less than this one. -/
def State.isMin (s : State) (task : WorkerTask) : Bool :=
  s.queue.all fun other => task.priority ≤ other.priority

/-- The decrement, which is refused at zero. -/
def decrement (counts : String → ℕ) (taskId : String) : String → ℕ :=
  if 0 < counts taskId then Function.update counts taskId (counts taskId - 1) else counts

def step (s : State) : Event → State
  | .put task =>
    if s.full then s
    else { s with queue := s.queue ++ [task], counting := s.counting ++ [task] }
  | .count task =>
    if task ∈ s.counting then
      { s with
        counting := s.counting.erase task
        queueCounts := Function.update s.queueCounts task.ref.taskId
          (s.queueCounts task.ref.taskId + 1) }
    else s
  | .get task =>
    if task ∈ s.queue ∧ s.isMin task = true then
      { s with queue := s.queue.erase task, processing := s.processing ++ [task] }
    else s
  | .process task =>
    if task ∈ s.processing then
      { s with processing := s.processing.erase task, closing := s.closing ++ [task] }
    else s
  | .uncount task =>
    if task ∈ s.closing then
      { s with
        closing := s.closing.erase task
        queueCounts := decrement s.queueCounts task.ref.taskId }
    else s

def init (queueMaxsize : ℤ) : State := { queueMaxsize }

/-- `queue_backlog`. -/
def State.queueBacklog (s : State) (taskId : String) : ℕ := s.queueCounts taskId

/-- How many of the tasks are of the task id `k`. -/
def tasksOf (k : String) (l : List WorkerTask) : ℕ := l.countP fun task => task.ref.taskId = k

/-- No submit and no worker is in the middle of its steps. -/
structure State.Quiet (s : State) : Prop where
  counting : s.counting = []
  processing : s.processing = []
  closing : s.closing = []

/-- The step is a decrement of the counter of `k` that is refused. -/
def Refused (k : String) (s : State) : Event → Prop
  | .uncount task => task ∈ s.closing ∧ task.ref.taskId = k ∧ s.queueCounts k = 0
  | _ => False

/-- What the counter is ahead of the tasks it should count: those that have been put and not been
counted off, but for those still to be counted. -/
def State.drift (s : State) (k : String) : ℤ :=
  s.queueCounts k + tasksOf k s.counting - tasksOf k s.queue - tasksOf k s.processing -
    tasksOf k s.closing

/-! ### The tasks of one task id -/

variable {k : String} {task : WorkerTask} {l : List WorkerTask} {s : State}

@[simp] lemma tasksOf_nil : tasksOf k [] = 0 := rfl

lemma tasksOf_append_singleton :
    tasksOf k (l ++ [task]) = tasksOf k l + tasksOf k [task] := List.countP_append

lemma tasksOf_singleton : tasksOf k [task] = if task.ref.taskId = k then 1 else 0 := by
  simp [tasksOf, List.countP_cons]

lemma tasksOf_erase (h : task ∈ l) : tasksOf k (l.erase task) + tasksOf k [task] = tasksOf k l := by
  have hperm : tasksOf k l = tasksOf k (task :: l.erase task) :=
    (List.perm_cons_erase h).countP_eq _
  rw [hperm, tasksOf_singleton, tasksOf, tasksOf, List.countP_cons]
  simp

/-! ### One step -/

lemma increment_apply (counts : String → ℕ) (task : WorkerTask) (k : String) :
    Function.update counts task.ref.taskId (counts task.ref.taskId + 1) k =
      counts k + tasksOf k [task] := by
  rw [tasksOf_singleton]
  by_cases hk : task.ref.taskId = k
  · subst hk
    simp
  · simp [hk, Ne.symm hk]

lemma decrement_apply (counts : String → ℕ) (task : WorkerTask) (k : String) :
    decrement counts task.ref.taskId k = counts k - tasksOf k [task] := by
  rw [tasksOf_singleton, decrement]
  by_cases hk : task.ref.taskId = k
  · subst hk
    by_cases hpos : 0 < counts task.ref.taskId
    · simp [hpos]
    · have hzero : counts task.ref.taskId = 0 := by omega
      simp [hzero]
  · by_cases hpos : 0 < counts task.ref.taskId
    · simp [hpos, hk, Ne.symm hk]
    · simp [hpos, hk]

/-- **The step lemma.** Every step keeps the drift but a refused decrement, after which it is one
more. -/
lemma drift_step (s : State) (e : Event) (k : String) :
    ¬ Refused k s e ∧ (step s e).drift k = s.drift k ∨
      Refused k s e ∧ (step s e).drift k = s.drift k + 1 := by
  cases e with
  | put task =>
    refine .inl ⟨id, ?_⟩
    unfold step
    dsimp only
    split_ifs with hfull
    · rfl
    · simp only [State.drift, tasksOf_append_singleton]
      omega
  | count task =>
    refine .inl ⟨id, ?_⟩
    unfold step
    dsimp only
    split_ifs with hmem
    · have herase := tasksOf_erase (k := k) hmem
      simp only [State.drift, increment_apply]
      omega
    · rfl
  | get task =>
    refine .inl ⟨id, ?_⟩
    unfold step
    dsimp only
    split_ifs with hmem
    · have herase := tasksOf_erase (k := k) hmem.1
      simp only [State.drift, tasksOf_append_singleton]
      omega
    · rfl
  | process task =>
    refine .inl ⟨id, ?_⟩
    unfold step
    dsimp only
    split_ifs with hmem
    · have herase := tasksOf_erase (k := k) hmem
      simp only [State.drift, tasksOf_append_singleton]
      omega
    · rfl
  | uncount task =>
    -- `_decrement_queue_count` leaves a missing count alone: only here the sum changes
    unfold step Refused
    dsimp only
    split_ifs with hmem
    · have herase := tasksOf_erase (k := k) hmem
      have hone : tasksOf k [task] = if task.ref.taskId = k then 1 else 0 := tasksOf_singleton
      simp only [State.drift, decrement_apply, hmem, true_and]
      by_cases hk : task.ref.taskId = k
      · rw [if_pos hk] at hone
        by_cases hzero : s.queueCounts k = 0
        · refine .inr ⟨⟨hk, hzero⟩, ?_⟩
          omega
        · refine .inl ⟨fun h => hzero h.2, ?_⟩
          omega
      · rw [if_neg hk] at hone
        refine .inl ⟨fun h => hk h.1, ?_⟩
        omega
    · exact .inl ⟨fun h => hmem h.1, rfl⟩

/-! ### Runs -/

lemma drift_nonneg_step (s : State) (e : Event) (h : 0 ≤ s.drift k) : 0 ≤ (step s e).drift k := by
  rcases drift_step s e k with ⟨-, hd⟩ | ⟨-, hd⟩
  · rwa [hd]
  · omega

lemma drift_nonneg (queueMaxsize : ℤ) (l : List Event) (k : String) :
    0 ≤ (l.foldl step (init queueMaxsize)).drift k := by
  have halways : Always step (fun s => 0 ≤ s.drift k) (init queueMaxsize) l :=
    always_of_step drift_nonneg_step le_rfl l
  exact always_iff_states.mp halways l (List.prefix_refl l)

/-- **The run lemma.** The counter is ahead as soon as a decrement has been refused, and stays. -/
lemma drift_pos_iff (queueMaxsize : ℤ) (l : List Event) (k : String) :
    0 < (l.foldl step (init queueMaxsize)).drift k ↔
      Once step (Refused k) (init queueMaxsize) l := by
  have hstep : ∀ (s : State) (e : Event), 0 ≤ s.drift k →
      (0 < (step s e).drift k ↔ 0 < s.drift k ∨ Refused k s e) := by
    intro s e h
    rcases drift_step s e k with ⟨hr, hd⟩ | ⟨hr, hd⟩
    · rw [hd]
      simp [hr]
    · simp only [hr, or_true, iff_true]
      omega
  have hinit : 0 ≤ (init queueMaxsize).drift k := le_refl _
  rw [final_iff_once (I := fun s : State => 0 ≤ s.drift k) (P := fun s : State => 0 < s.drift k)
    drift_nonneg_step hstep hinit (l := l)]
  exact or_iff_right (lt_irrefl 0)

lemma State.Quiet.drift_eq (h : s.Quiet) (k : String) :
    s.drift k = s.queueBacklog k - tasksOf k s.queue := by
  simp [State.drift, State.queueBacklog, h.counting, h.processing, h.closing]

/-- **When the backlog counter is right.** In any run of any number of submits and workers that
ends with none of them in the middle of its steps, the counter of a task shows the number of its
tasks in the queue exactly if no decrement of it was refused. -/
theorem queueBacklog_eq_iff (queueMaxsize : ℤ) (l : List Event) (k : String)
    (hquiet : (l.foldl step (init queueMaxsize)).Quiet) :
    (l.foldl step (init queueMaxsize)).queueBacklog k =
        tasksOf k (l.foldl step (init queueMaxsize)).queue ↔
      Steps step (fun s e => ¬ Refused k s e) (init queueMaxsize) l := by
  have hdrift := hquiet.drift_eq k
  have hnonneg := drift_nonneg queueMaxsize l k
  rw [← not_once, ← drift_pos_iff]
  omega

def csvTask : WorkerTask := ⟨5, ⟨⟨"orders", "/in/a.csv", 1⟩, 1, "h"⟩⟩

/-- The submitter counts its task before the worker counts it off. -/
theorem queueBacklog_eq_iff_inOrder :
    let l := [Event.put csvTask, .get csvTask, .count csvTask, .process csvTask, .uncount csvTask]
    (l.foldl step (init 500)).queueBacklog "orders" =
        tasksOf "orders" (l.foldl step (init 500)).queue ↔
      Steps step (fun s e => ¬ Refused "orders" s e) (init 500) l :=
  queueBacklog_eq_iff 500 _ "orders" ⟨by decide, by decide, by decide⟩

/-- A worker is done with the task before its submitter has counted it. -/
theorem queueBacklog_fastWorker :
    ¬ ∀ (queueMaxsize : ℤ) (l : List Event) (k : String),
      (l.foldl step (init queueMaxsize)).Quiet →
        (l.foldl step (init queueMaxsize)).queueBacklog k =
          tasksOf k (l.foldl step (init queueMaxsize)).queue := by
  intro hall
  have h := hall 500
    [.put csvTask, .get csvTask, .process csvTask, .uncount csvTask, .count csvTask] "orders"
    ⟨by decide, by decide, by decide⟩
  exact absurd h (by decide)

/-! ### The pool with larger steps -/

/-- A state of `Tdcs.WorkerPool`, which counts a task in the step that puts it into the queue and
off in the step that ends the work. -/
structure Matches (p : Pool) (s : State) : Prop where
  queueMaxsize : s.queueMaxsize = p.queueMaxsize
  queue : s.queue = p.queue.map Admitted.task
  counting : s.counting = []
  closing : s.closing = []
  queueCounts : s.queueCounts = p.queueCounts

variable {p : Pool}

/-- The pool's `put` is a `put` and a `count`, with nothing between them. -/
lemma Matches.put (h : Matches p s) (a : Admitted) :
    Matches (p.put a).2 (step (step s (.put a.task)) (.count a.task)) := by
  have hfull : s.full = p.full := by
    simp [State.full, Pool.full, h.queueMaxsize, h.queue]
  unfold Pool.put step
  dsimp only
  rw [hfull]
  split_ifs with hf hmem hmem
  · simp [h.counting] at hmem
  · exact ⟨h.queueMaxsize, h.queue, h.counting, h.closing, h.queueCounts⟩
  · refine ⟨h.queueMaxsize, ?_, ?_, h.closing, ?_⟩
    · simp [h.queue]
    · simp [h.counting]
    · simp [h.queueCounts, Admitted.taskId]
  · simp at hmem

lemma Matches.done (h : Matches p s) (worker : ℕ) (a : Admitted) (ha : a.task ∈ s.processing) :
    Matches (p.done worker a) (step (step s (.process a.task)) (.uncount a.task)) := by
  have hcounts : decrement p.queueCounts a.taskId =
      Function.update p.queueCounts a.taskId (p.queueCounts a.taskId - 1) := by
    unfold decrement
    split_ifs with hpos
    · rfl
    · have hzero : p.queueCounts a.taskId - 1 = p.queueCounts a.taskId := by omega
      rw [hzero, Function.update_eq_self]
  have hprocess : step s (.process a.task) =
      { s with processing := s.processing.erase a.task, closing := [a.task] } := by
    simp [step, ha, h.closing]
  have huncount : step (step s (.process a.task)) (.uncount a.task) =
      { s with
        processing := s.processing.erase a.task
        closing := []
        queueCounts := decrement s.queueCounts a.taskId } := by
    rw [hprocess]
    simp [step, Admitted.taskId]
  rw [huncount]
  refine ⟨h.queueMaxsize, h.queue, h.counting, rfl, ?_⟩
  dsimp only [Pool.done]
  rw [h.queueCounts, hcounts]

end Tdcs.Backlog
