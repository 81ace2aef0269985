import Tdcs.Lib.Heap
import Tdcs.SubmitReject

/-!
The queue of the pool: a `queue.PriorityQueue`, a heap of `heapq` whose items are compared by their
priorities.

A worker takes what `heappop` gives, and has no say in it. The pool with the heap is a refinement of
the pool that takes any task of least priority, and that pool loses no task: what `submit` has put
into the queue is handled once.
-/

namespace Tdcs.TaskQueue

open Tdcs.Lib Tdcs.Lib.Run Tdcs.Lib.Heap Tdcs.WorkerPool

/-- What `WorkerTask.__lt__` compares. -/
def priority (a : Admitted) : ℤ := a.task.priority

/-- The rest of `submit`, with the heap. -/
def putHeap (s : Pool) (a : Admitted) : Pool :=
  let s' := { s with submitting := s.submitting.erase a }
  if s.full then s'
  else { s' with
    queue := heappush priority s.queue a
    queueCounts := Function.update s.queueCounts a.taskId (s.queueCounts a.taskId + 1) }

/-- An idle worker takes what the heap gives. -/
def getHeap (s : Pool) (worker : ℕ) : Pool :=
  match s.running worker, heappop priority s.queue with
  | none, some (a, q) =>
    { s with queue := q, running := Function.update s.running worker (some a) }
  | _, _ => s

/-- A step of the pool with the heap. The number a `get` names means nothing to it. -/
def heapStep (s : Pool) : Event → Pool
  | .put id =>
    match s.submitting.find? fun a => a.id = id with
    | none => s
    | some a => putHeap s a
  | .get worker _ => getHeap s worker
  | e => step s e

/-- The same call, but for the task a worker takes. -/
def SameCall (e e' : Event) : Prop :=
  e = e' ∨ ∃ worker id id', e = .get worker id ∧ e' = .get worker id'

/-- The two pools differ in the order of the queue at most. -/
def Agree (s t : Pool) : Prop := ∃ q, q.Perm s.queue ∧ t = { s with queue := q }

/-! ### No number twice -/

/-- The tasks that are let through but in no worker's hands, and those that are done with. -/
def waiting (s : Pool) (finished : List Admitted) : List Admitted :=
  s.submitting ++ s.queue ++ finished

/-- No number stands for two tasks, and no task is in two places. -/
structure Apart (s : Pool) (finished : List Admitted) : Prop where
  once : ((waiting s finished).map Admitted.id).Nodup
  inHand : ∀ worker a, s.running worker = some a → ∀ b ∈ waiting s finished, b.id ≠ a.id
  alone : ∀ worker worker' a a', s.running worker = some a → s.running worker' = some a' →
    a.id = a'.id → worker = worker'
  given : NumbersGiven s
  past : ∀ a ∈ finished, a.id < s.nextId

variable {s t : Pool} {finished : List Admitted}

lemma apart_init (queueMaxsize : ℤ) : Apart { queueMaxsize } [] where
  once := List.nodup_nil
  inHand worker a h := by cases h
  alone worker worker' a a' h := by cases h
  given a h := by
    rcases h with h | h | ⟨worker, h⟩
    · cases h
    · cases h
    · cases h
  past a h := by cases h

/-- The tasks done with after a step. -/
def finishedAfter (s : Pool) (finished : List Admitted) : Event → List Admitted
  | .finish worker _ => finished ++ (s.running worker).toList
  | _ => finished

lemma Apart.congr {s' : Pool} {finished' : List Admitted} (h : Apart s finished)
    (hw : (waiting s' finished').Subperm (waiting s finished))
    (hr : s'.running = s.running) (hg : NumbersGiven s')
    (hp : ∀ a ∈ finished', a.id < s'.nextId) : Apart s' finished' where
  once := by
    obtain ⟨l, hl, hsub⟩ := hw
    exact (hl.map Admitted.id).nodup_iff.1 ((hsub.map Admitted.id).nodup h.once)
  inHand worker a hrun b hb := h.inHand worker a (by rw [← hr]; exact hrun) b (hw.subset hb)
  alone worker worker' a a' hrun hrun' :=
    h.alone worker worker' a a' (by rw [← hr]; exact hrun) (by rw [← hr]; exact hrun')
  given := hg
  past := hp

lemma Apart.submit (h : Apart s finished) (ref : ProcessedFileRepo.FileRef) (priority : ℤ)
    (isActive : Bool) (d : ℚ≥0) :
    Apart (WorkerPool.step s (.submit ref priority isActive d)) finished := by
  have hg := h.given.step (.submit ref priority isActive d)
  have hnext : s.nextId ≤ (WorkerPool.step s (.submit ref priority isActive d)).nextId := by
    unfold WorkerPool.step Pool.submit
    dsimp only
    split_ifs
    · exact le_rfl
    · exact le_rfl
    · exact Nat.le_succ _
    · exact le_rfl
  have hp : ∀ a ∈ finished,
      a.id < (WorkerPool.step s (.submit ref priority isActive d)).nextId :=
    fun a ha => (h.past a ha).trans_le hnext
  have hold : ∀ a ∈ waiting s finished, a.id ≠ s.nextId := by
    intro a ha
    rcases List.mem_append.1 ha with ha | ha
    · have := h.given a ((List.mem_append.1 ha).imp_right Or.inl)
      omega
    · have := h.past a ha
      omega
  unfold WorkerPool.step Pool.submit at hg hp ⊢
  dsimp only at hg hp ⊢
  split_ifs at hg hp ⊢
  · exact h.congr (List.Subperm.refl _) rfl hg hp
  · exact h.congr (List.Subperm.refl _) rfl hg hp
  · -- the new task has a number that none before it has
    have hperm : ∀ a, (s.submitting ++ [a] ++ s.queue ++ finished).Perm
        (a :: waiting s finished) := by
      intro a
      simp only [waiting, List.append_assoc, List.singleton_append]
      exact List.perm_middle
    refine ⟨?_, ?_, ?_, hg, hp⟩
    · refine ((hperm _).map Admitted.id).nodup_iff.2 (List.nodup_cons.2 ⟨?_, h.once⟩)
      intro hmem
      obtain ⟨b, hb, hid⟩ := List.mem_map.1 hmem
      exact hold b hb hid
    · intro worker a hrun b hb
      rcases List.mem_cons.1 ((hperm _).subset hb) with rfl | hb
      · have := h.given a (.inr (.inr ⟨worker, hrun⟩))
        show s.nextId ≠ a.id
        omega
      · exact h.inHand worker a hrun b hb
    · exact h.alone
  · exact h.congr (List.Subperm.refl _) rfl hg hp

lemma Apart.put (h : Apart s finished) {a : Admitted} (ha : a ∈ s.submitting)
    (hg : NumbersGiven (s.put a).2) : Apart (s.put a).2 finished := by
  have hnext : (s.put a).2.nextId = s.nextId := by
    unfold Pool.put
    dsimp only
    split_ifs <;> rfl
  have hp : ∀ b ∈ finished, b.id < (s.put a).2.nextId := by
    rw [hnext]
    exact h.past
  unfold Pool.put at hg hp ⊢
  dsimp only at hg hp ⊢
  split_ifs at hg hp ⊢
  · refine h.congr (List.Sublist.subperm ?_) rfl hg hp
    exact ((List.erase_sublist).append_right _).append_right _
  · -- the task leaves the submitting threads for the queue
    refine h.congr (List.Perm.subperm ?_) rfl hg hp
    have hmove := (List.perm_cons_erase ha).symm
    simp only [waiting, List.append_assoc, List.singleton_append]
    rw [← List.append_assoc]
    refine List.perm_middle.trans ?_
    rw [List.append_assoc, ← List.cons_append]
    exact hmove.append_right _

lemma Apart.get (h : Apart s finished) {worker : ℕ} {a : Admitted} (ha : a ∈ s.queue)
    (hg : NumbersGiven { s with
      queue := s.queue.erase a
      running := Function.update s.running worker (some a) }) :
    Apart { s with
      queue := s.queue.erase a
      running := Function.update s.running worker (some a) } finished := by
  -- `a` moves from the queue into the hands of `worker`; all others keep their place
  have hperm : (waiting s finished).Perm
      (a :: (s.submitting ++ s.queue.erase a ++ finished)) := by
    have hmove := List.perm_cons_erase ha
    simp only [waiting, List.append_assoc]
    refine ((hmove.append_right finished).append_left _).trans ?_
    exact List.perm_middle
  have hnodup := (hperm.map Admitted.id).nodup_iff.1 h.once
  rw [List.map_cons, List.nodup_cons] at hnodup
  have hmem : a ∈ waiting s finished := hperm.symm.subset List.mem_cons_self
  have hsub : ∀ b ∈ s.submitting ++ s.queue.erase a ++ finished, b ∈ waiting s finished :=
    fun b hb => hperm.symm.subset (List.mem_cons_of_mem _ hb)
  refine ⟨hnodup.2, ?_, ?_, hg, h.past⟩
  · intro worker' a' hrun b hb
    dsimp only at hrun
    by_cases hw : worker' = worker
    · subst hw
      obtain rfl : a = a' := by simpa using hrun
      intro hid
      exact hnodup.1 (List.mem_map.2 ⟨b, hb, hid⟩)
    · exact h.inHand worker' a' (by simpa [hw] using hrun) b (hsub b hb)
  · intro w w' b b' hrun hrun' hid
    dsimp only at hrun hrun'
    by_cases hw : w = worker
    · by_cases hw' : w' = worker
      · rw [hw, hw']
      · subst hw
        obtain rfl : a = b := by simpa using hrun
        exact absurd hid (h.inHand w' b' (by simpa [hw'] using hrun') a hmem)
    · by_cases hw' : w' = worker
      · subst hw'
        obtain rfl : a = b' := by simpa using hrun'
        exact absurd hid.symm (h.inHand w b (by simpa [hw] using hrun) a hmem)
      · exact h.alone w w' b b' (by simpa [hw] using hrun) (by simpa [hw'] using hrun') hid

lemma Apart.done (h : Apart s finished) {worker : ℕ} {a : Admitted}
    (ha : s.running worker = some a) (hg : NumbersGiven (s.done worker a)) :
    Apart (s.done worker a) (finished ++ [a]) := by
  have hperm : (waiting (s.done worker a) (finished ++ [a])).Perm (a :: waiting s finished) := by
    unfold waiting
    rw [← List.append_assoc]
    exact List.perm_append_singleton _ _
  refine ⟨?_, ?_, ?_, hg, ?_⟩
  · refine (hperm.map Admitted.id).nodup_iff.2 (List.nodup_cons.2 ⟨?_, h.once⟩)
    intro hmem
    obtain ⟨b, hb, hid⟩ := List.mem_map.1 hmem
    exact h.inHand worker a ha b hb hid
  · intro worker' a' hrun b hb
    have hw : worker' ≠ worker := by
      rintro rfl
      simp [Pool.done] at hrun
    have hrun' := running_of_done hrun
    rcases List.mem_cons.1 (hperm.subset hb) with rfl | hb
    · exact fun hid => hw (h.alone worker' worker a' b hrun' ha hid.symm)
    · exact h.inHand worker' a' hrun' b hb
  · intro w w' b b' hrun hrun' hid
    exact h.alone w w' b b' (running_of_done hrun) (running_of_done hrun') hid
  · intro b hb
    rcases List.mem_append.1 hb with hb | hb
    · exact h.past b hb
    · obtain rfl := List.mem_singleton.1 hb
      exact h.given b (.inr (.inr ⟨worker, ha⟩))

lemma Apart.report (h : Apart s finished) (a : Admitted) (ok : Bool) :
    Apart (s.report a ok) finished :=
  h.congr (List.Subperm.refl _) rfl h.given h.past

/-- No step brings a task into two places. -/
theorem Apart.step (h : Apart s finished) (e : Event) :
    Apart (WorkerPool.step s e) (finishedAfter s finished e) := by
  have hg := h.given.step e
  cases e with
  | submit ref priority isActive d => exact h.submit ref priority isActive d
  | put id =>
    rcases step_put s id with hs | ⟨a, ha, hs⟩ <;> rw [hs] at hg ⊢
    · exact h
    · exact h.put ha hg
  | get worker id =>
    rcases step_get s worker id with hs | ⟨a, ha, -, hs⟩ <;> rw [hs] at hg ⊢
    · exact h
    · exact h.get ha hg
  | report worker ok =>
    rcases step_report s worker ok with hs | ⟨a, -, hs⟩ <;> rw [hs]
    · exact h
    · exact h.report a ok
  | finish worker outcome =>
    unfold finishedAfter
    rcases hrun : s.running worker with _ | a
    · have hs : WorkerPool.step s (.finish worker outcome) = s := by simp [WorkerPool.step, hrun]
      rw [hs]
      simpa [hrun] using h
    · dsimp only
      rw [hrun, Option.toList_some]
      by_cases ho : outcome = .raised
      · subst ho
        have hs : WorkerPool.step s (.finish worker .raised) =
            (s.report a false).done worker a := by simp [WorkerPool.step, hrun]
        rw [hs] at hg ⊢
        exact (h.report a false).done hrun hg
      · have hs : WorkerPool.step s (.finish worker outcome) = s.done worker a := by
          cases outcome <;> simp [WorkerPool.step, hrun] at ho ⊢
        rw [hs] at hg ⊢
        exact h.done hrun hg
  | tick d => exact h.congr (List.Subperm.refl _) rfl hg h.past
  | pause taskId => exact h.congr (List.Subperm.refl _) rfl hg h.past
  | resume taskId => exact h.congr (List.Subperm.refl _) rfl hg h.past

/-! ### The heap refines the queue -/

lemma agree_refl (s : Pool) : Agree s s := ⟨s.queue, .refl _, rfl⟩

lemma step_withQueue (s : Pool) (q : List Admitted) {e : Event} (hput : ∀ id, e ≠ .put id)
    (hget : ∀ worker id, e ≠ .get worker id) :
    step { s with queue := q } e = { step s e with queue := q } := by
  cases e with
  | submit ref priority isActive d =>
    unfold step Pool.submit
    dsimp only
    split_ifs <;> rfl
  | put id => exact absurd rfl (hput id)
  | get worker id => exact absurd rfl (hget worker id)
  | report worker ok =>
    unfold step
    dsimp only
    cases s.running worker <;> rfl
  | finish worker outcome =>
    unfold step
    dsimp only
    cases s.running worker <;> cases outcome <;> rfl
  | tick d => rfl
  | pause taskId => rfl
  | resume taskId => rfl

lemma queue_step (s : Pool) {e : Event} (hput : ∀ id, e ≠ .put id)
    (hget : ∀ worker id, e ≠ .get worker id) : (step s e).queue = s.queue := by
  have h : step s e = { step s e with queue := s.queue } := step_withQueue s s.queue hput hget
  have hqueue := congrArg Pool.queue h
  exact hqueue

lemma full_perm {q : List Admitted} (hq : q.Perm s.queue) :
    Pool.full { s with queue := q } = s.full := by
  unfold Pool.full
  rw [hq.length_eq]

lemma agree_putHeap {q : List Admitted} (hq : q.Perm s.queue) (a : Admitted) :
    Agree (putHeap s a) (Pool.put { s with queue := q } a).2 := by
  unfold putHeap Pool.put
  dsimp only
  rw [full_perm hq]
  split_ifs
  · exact ⟨q, hq, rfl⟩
  · refine ⟨q ++ [a], ?_, rfl⟩
    have hpush : (heappush priority s.queue a).Perm (a :: s.queue) := heappush_perm s.queue a
    calc List.Perm (q ++ [a]) (a :: q) := List.perm_append_singleton a q
      List.Perm _ (a :: s.queue) := hq.cons a
      List.Perm _ (heappush priority s.queue a) := hpush.symm

lemma ordered_putHeap (ho : Ordered priority s.queue) (a : Admitted) :
    Ordered priority (putHeap s a).queue := by
  unfold putHeap
  dsimp only
  split_ifs
  · exact ho
  · exact ho.heappush a

lemma get_of_heappop {q rest : List Admitted} {worker : ℕ} {a : Admitted}
    (ho : Ordered priority s.queue) (hq : q.Perm s.queue) (hnodup : (q.map Admitted.id).Nodup)
    (hidle : s.running worker = none) (hpop : heappop priority s.queue = some (a, rest)) :
    Agree { s with queue := rest, running := Function.update s.running worker (some a) }
      (step { s with queue := q } (.get worker a.id)) := by
  have hperm := heappop_perm hpop
  have hmem : a ∈ q := hq.symm.subset (hperm.subset List.mem_cons_self)
  have hfind : q.find? (fun b => b.id = a.id) = some a := by
    rcases hf : q.find? (fun b => b.id = a.id) with _ | b
    · have := List.find?_eq_none.1 hf a hmem
      simp at this
    · have hid : b.id = a.id := by simpa using List.find?_some hf
      have hb := List.mem_of_find?_eq_some hf
      exact hf.trans (congrArg some (List.inj_on_of_nodup_map hnodup hb hmem hid))
  have hmin : Pool.isMin { s with queue := q } a = true := by
    refine List.all_eq_true.2 fun b hb => ?_
    exact decide_eq_true (ho.heappop_le hpop b (hq.subset hb))
  have hstep : step { s with queue := q } (.get worker a.id) =
      { s with
        queue := q.erase a
        running := Function.update s.running worker (some a) } := by
    unfold step
    dsimp only
    rw [hfind]
    simp [hidle, hmin]
  rw [hstep]
  refine ⟨q.erase a, ?_, rfl⟩
  have herase := (hq.erase a).trans (hperm.symm.erase a)
  rwa [List.erase_cons_head] at herase

/-- What relates the pool with the heap to the pool that takes any task of least priority. -/
structure Refines (s t : Pool) : Prop where
  agree : Agree s t
  heap : Ordered priority s.queue
  apart : ∃ finished, Apart t finished

/-- Each step of the pool with the heap is a step of the other, and nobody sees a difference. -/
lemma Refines.step (h : Refines s t) (e : Event) :
    ∃ e', SameCall e e' ∧ Refines (heapStep s e) (WorkerPool.step t e') := by
  obtain ⟨⟨q, hq, rfl⟩, ho, finished, ha⟩ := h
  have hapart : ∀ e', ∃ f, Apart (WorkerPool.step { s with queue := q } e') f :=
    fun e' => ⟨_, ha.step e'⟩
  by_cases hput : ∃ id, e = .put id
  · obtain ⟨id, rfl⟩ := hput
    refine ⟨.put id, .inl rfl, ?_, ?_, hapart _⟩
    · unfold heapStep WorkerPool.step
      dsimp only
      generalize List.find? _ s.submitting = found
      rcases found with _ | a
      · exact ⟨q, hq, rfl⟩
      · exact agree_putHeap hq a
    · unfold heapStep
      dsimp only
      generalize List.find? _ s.submitting = found
      rcases found with _ | a
      · exact ho
      · exact ordered_putHeap ho a
  by_cases hget : ∃ worker id, e = .get worker id
  · obtain ⟨worker, id, rfl⟩ := hget
    have hnodup : (q.map Admitted.id).Nodup := by
      refine ha.once.sublist (List.Sublist.map _ ?_)
      exact (List.sublist_append_right _ _).trans (List.sublist_append_left _ _)
    rcases hrun : s.running worker with _ | b
    · rcases hpop : heappop priority s.queue with _ | ⟨a, rest⟩
      · -- the queue is empty, and no number is in it
        have hs : s.queue = [] := heappop_eq_none.1 hpop
        have hqnil : q = [] := List.Perm.eq_nil (by rw [← hs]; exact hq)
        have hstay : heapStep s (.get worker id) = s := by simp [heapStep, getHeap, hpop]
        have hstay' : WorkerPool.step { s with queue := q } (.get worker id) =
            { s with queue := q } := by simp [WorkerPool.step, hqnil]
        refine ⟨.get worker id, .inl rfl, ?_, ?_, hapart _⟩
        · rw [hstay, hstay']
          exact ⟨q, hq, rfl⟩
        · rw [hstay]
          exact ho
      · have htake : heapStep s (.get worker id) =
            { s with queue := rest, running := Function.update s.running worker (some a) } := by
          simp [heapStep, getHeap, hrun, hpop]
        refine ⟨.get worker a.id, .inr ⟨worker, id, a.id, rfl, rfl⟩, ?_, ?_, hapart _⟩
        · rw [htake]
          exact get_of_heappop ho hq hnodup hrun hpop
        · rw [htake]
          exact ho.heappop hpop
    · -- the worker has a task in hand
      have hstay : heapStep s (.get worker id) = s := by simp [heapStep, getHeap, hrun]
      have hstay' : WorkerPool.step { s with queue := q } (.get worker id) =
          { s with queue := q } := by
        rcases step_get { s with queue := q } worker id with hs | ⟨a, -, hidle, -⟩
        · exact hs
        · simp [hrun] at hidle
      refine ⟨.get worker id, .inl rfl, ?_, ?_, hapart _⟩
      · rw [hstay, hstay']
        exact ⟨q, hq, rfl⟩
      · rw [hstay]
        exact ho
  push Not at hput hget
  have hsame : heapStep s e = WorkerPool.step s e := by
    cases e <;> first | rfl | exact absurd rfl (hput _) | exact absurd rfl (hget _ _)
  refine ⟨e, .inl rfl, ?_, ?_, hapart _⟩
  · rw [hsame, step_withQueue s q hput hget]
    exact ⟨q, by rw [queue_step s hput hget]; exact hq, rfl⟩
  · rw [hsame, queue_step s hput hget]
    exact ho

lemma refines_init (queueMaxsize : ℤ) : Refines { queueMaxsize } { queueMaxsize } :=
  ⟨agree_refl _, ordered_nil, [], apart_init queueMaxsize⟩

lemma Refines.run (h : Refines s t) (es : List Event) :
    ∃ es', es.Forall₂ SameCall es' ∧
      ∀ n, Refines ((es.take n).foldl heapStep s) ((es'.take n).foldl WorkerPool.step t) := by
  induction es generalizing s t with
  | nil => exact ⟨[], .nil, fun n => by simpa using h⟩
  | cons e es ih =>
    obtain ⟨e', hsame, hstep⟩ := h.step e
    obtain ⟨es', hcalls, hrun⟩ := ih hstep
    refine ⟨e' :: es', .cons hsame hcalls, fun n => ?_⟩
    cases n with
    | zero => simpa using h
    | succ n => simpa using hrun n

/-- **The heap refines the queue.** Every run of the pool over `heapq` is, call by call and in every
state, a run of the pool in which a worker takes some queued task of least priority. -/
theorem heap_refines (queueMaxsize : ℤ) (es : List Event) :
    ∃ es', es.Forall₂ SameCall es' ∧
      ∀ n, Agree ((es.take n).foldl heapStep { queueMaxsize })
        ((es'.take n).foldl step { queueMaxsize }) := by
  obtain ⟨es', hcalls, hrun⟩ := (refines_init queueMaxsize).run es
  exact ⟨es', hcalls, fun n => (hrun n).agree⟩

/-! ### Every task is handled once -/

/-- The tasks a step puts into the queue. -/
def accepted (s : Pool) : Event → List Admitted
  | .put id => if s.full then [] else (s.submitting.find? fun a => a.id = id).toList
  | _ => []

/-- The pool with the heap, the tasks `submit` has answered `QUEUED` for, and those that have left
`_work`. -/
structure Ledger where
  pool : Pool
  accepted : List Admitted := []
  finished : List Admitted := []

def Ledger.step (l : Ledger) (e : Event) : Ledger where
  pool := heapStep l.pool e
  accepted := l.accepted ++ TaskQueue.accepted l.pool e
  finished := finishedAfter l.pool l.finished e

/-- The task is in the queue, in a worker's hands or done with. -/
def Placed (s : Pool) (finished : List Admitted) (a : Admitted) : Prop :=
  a ∈ s.queue ∨ (∃ worker, s.running worker = some a) ∨ a ∈ finished

/-- The accepted tasks are those in the queue, those in the workers' hands and those done with, and
each is in one of these places and there once. -/
structure Conserved (l : Ledger) : Prop where
  kept : ∀ a, a ∈ l.accepted ↔ Placed l.pool l.finished a
  acceptedOnce : l.accepted.Nodup
  once : (l.pool.queue ++ l.finished).Nodup
  inHand : ∀ worker a, l.pool.running worker = some a →
    a ∉ l.pool.queue ++ l.finished ∧ ∀ worker', l.pool.running worker' = some a → worker' = worker

lemma Agree.apart (h : Agree s t) (ha : Apart t finished) : Apart s finished := by
  obtain ⟨q, hq, rfl⟩ := h
  have hw : (waiting s finished).Perm (waiting { s with queue := q } finished) :=
    (hq.symm.append_left _).append_right _
  refine ha.congr hw.subperm rfl ?_ ha.past
  intro a hold
  exact ha.given a (hold.imp_right (Or.imp_left fun hm => hq.symm.subset hm))

lemma Agree.placed (h : Agree s t) (a : Admitted) :
    Placed s finished a ↔ Placed t finished a := by
  obtain ⟨q, hq, rfl⟩ := h
  exact or_congr_left hq.mem_iff.symm

lemma SameCall.accepted {e e' : Event} (h : SameCall e e') (s : Pool) :
    accepted s e = accepted s e' := by
  rcases h with rfl | ⟨worker, id, id', rfl, rfl⟩
  · rfl
  · rfl

lemma SameCall.finishedAfter {e e' : Event} (h : SameCall e e') (s : Pool)
    (finished : List Admitted) : finishedAfter s finished e = finishedAfter s finished e' := by
  rcases h with rfl | ⟨worker, id, id', rfl, rfl⟩
  · rfl
  · rfl

/-- A task is where it was, or has just been accepted. -/
lemma placed_step (s : Pool) (finished : List Admitted) (e : Event) (a : Admitted) :
    Placed (step s e) (finishedAfter s finished e) a ↔
      Placed s finished a ∨ a ∈ accepted s e := by
  cases e with
  | submit ref priority isActive d =>
    have hsame : (step s (.submit ref priority isActive d)).queue = s.queue ∧
        (step s (.submit ref priority isActive d)).running = s.running := by
      unfold step Pool.submit
      dsimp only
      split_ifs <;> exact ⟨rfl, rfl⟩
    simp [Placed, hsame, finishedAfter, accepted]
  | put id =>
    unfold step accepted
    dsimp only
    generalize List.find? _ s.submitting = found
    rcases found with _ | b
    · simp [Placed, finishedAfter]
    · unfold Pool.put
      dsimp only
      split_ifs
      · simp [Placed, finishedAfter]
      · simp only [Placed, finishedAfter, List.mem_append, List.mem_singleton, Option.toList_some]
        tauto
  | get worker id =>
    rcases step_get s worker id with hs | ⟨b, hb, hidle, hs⟩ <;> rw [hs]
    · simp [accepted, finishedAfter]
    · have hqueue : a ∈ s.queue ↔ a = b ∨ a ∈ s.queue.erase b :=
        (List.perm_cons_erase hb).mem_iff.trans List.mem_cons
      -- the worker was idle, so nothing falls out of its hands
      have hhand : (∃ w, Function.update s.running worker (some b) w = some a) ↔
          a = b ∨ ∃ w, s.running w = some a := by
        constructor
        · rintro ⟨w, hw⟩
          by_cases hww : w = worker
          · subst hww
            exact .inl (by simpa using hw.symm)
          · exact .inr ⟨w, by simpa [hww] using hw⟩
        · rintro (rfl | ⟨w, hw⟩)
          · exact ⟨worker, by simp⟩
          · have hww : w ≠ worker := by
              rintro rfl
              rw [hidle] at hw
              cases hw
            exact ⟨w, by simpa [hww] using hw⟩
      simp only [Placed, finishedAfter, accepted, hqueue, hhand, List.not_mem_nil, or_false]
      tauto
  | report worker ok =>
    rcases step_report s worker ok with hs | ⟨b, -, hs⟩ <;> rw [hs]
    · simp [accepted, finishedAfter]
    · simp [accepted, finishedAfter, Placed, Pool.report, Pool.setBreaker]
  | finish worker outcome =>
    rcases hrun : s.running worker with _ | b
    · have hs : step s (.finish worker outcome) = s := by simp [step, hrun]
      simp [hs, finishedAfter, hrun, accepted]
    · -- the task goes over to the finished ones, whatever the outcome
      have hs : (step s (.finish worker outcome)).queue = s.queue ∧
          (step s (.finish worker outcome)).running =
            Function.update s.running worker none := by
        cases outcome <;> simp [step, hrun, Pool.done, Pool.report, Pool.setBreaker]
      have hhand : ((∃ w, Function.update s.running worker none w = some a) ∨ a = b) ↔
          ∃ w, s.running w = some a := by
        constructor
        · rintro (⟨w, hw⟩ | rfl)
          · by_cases hww : w = worker
            · subst hww
              simp at hw
            · exact ⟨w, by simpa [hww] using hw⟩
          · exact ⟨worker, hrun⟩
        · rintro ⟨w, hw⟩
          by_cases hww : w = worker
          · subst hww
            exact .inr (Option.some.inj (hw.symm.trans hrun))
          · exact .inl ⟨w, by simpa [hww] using hw⟩
      simp only [Placed, hs, finishedAfter, hrun, Option.toList_some, List.mem_append,
        List.mem_singleton, accepted, List.not_mem_nil, or_false, ← hhand]
      tauto
  | tick d => simp [step, Placed, finishedAfter, accepted]
  | pause taskId => simp [step, Placed, finishedAfter, accepted]
  | resume taskId => simp [step, Placed, finishedAfter, accepted]

lemma Apart.not_placed (h : Apart s finished) {e : Event} {a : Admitted}
    (ha : a ∈ accepted s e) : ¬ Placed s finished a := by
  have hsub : a ∈ s.submitting := by
    cases e with
    | put id =>
      unfold accepted at ha
      dsimp only at ha
      split_ifs at ha
      · cases ha
      · exact List.mem_of_find?_eq_some (Option.mem_toList.1 ha)
    | _ => cases ha
  have hnodup := h.once
  unfold waiting at hnodup
  rw [List.append_assoc, List.map_append, List.nodup_append'] at hnodup
  have hrest : a ∉ s.queue ++ finished := fun hmem =>
    hnodup.2.2 (List.mem_map.2 ⟨a, hsub, rfl⟩) (List.mem_map.2 ⟨a, hmem, rfl⟩)
  have hwait : a ∈ waiting s finished :=
    List.mem_append_left _ (List.mem_append_left _ hsub)
  rintro (hq | ⟨worker, hrun⟩ | hf)
  · exact hrest (List.mem_append_left _ hq)
  · exact h.inHand worker a hrun a hwait rfl
  · exact hrest (List.mem_append_right _ hf)

lemma nodup_accepted (s : Pool) (e : Event) : (accepted s e).Nodup := by
  cases e with
  | put id =>
    unfold accepted
    dsimp only
    split_ifs
    · exact List.nodup_nil
    · rcases s.submitting.find? _ with _ | a
      · exact List.nodup_nil
      · exact List.nodup_singleton a
  | _ => exact List.nodup_nil

/-- What holds along the runs of the ledger. -/
structure Kept (l : Ledger) : Prop where
  heap : Ordered priority l.pool.queue
  apart : Apart l.pool l.finished
  kept : ∀ a, a ∈ l.accepted ↔ Placed l.pool l.finished a
  acceptedOnce : l.accepted.Nodup

lemma Kept.step {l : Ledger} (h : Kept l) (e : Event) : Kept (l.step e) := by
  obtain ⟨e', hsame, hstep⟩ :=
    Refines.step ⟨agree_refl l.pool, h.heap, l.finished, h.apart⟩ e
  have hfin : (l.step e).finished = TaskQueue.finishedAfter l.pool l.finished e' :=
    hsame.finishedAfter l.pool l.finished
  have hacc : (l.step e).accepted = l.accepted ++ accepted l.pool e' :=
    congrArg (l.accepted ++ ·) (hsame.accepted l.pool)
  constructor
  · exact hstep.heap
  · rw [hfin]
    exact hstep.agree.apart (h.apart.step e')
  · intro a
    have hplaced := (hstep.agree.placed a).trans (placed_step l.pool l.finished e' a)
    rw [hacc, hfin, List.mem_append, h.kept]
    exact hplaced.symm
  · rw [hacc, List.nodup_append']
    refine ⟨h.acceptedOnce, nodup_accepted _ _, fun a ha ha' => ?_⟩
    exact h.apart.not_placed ha' ((h.kept a).1 ha)

lemma Kept.conserved {l : Ledger} (h : Kept l) : Conserved l where
  kept := h.kept
  acceptedOnce := h.acceptedOnce
  once := by
    have hnodup := h.apart.once.of_map
    unfold waiting at hnodup
    rw [List.append_assoc] at hnodup
    exact (List.nodup_append'.1 hnodup).2.1
  inHand worker a hrun := by
    refine ⟨fun hmem => ?_, fun worker' hrun' => h.apart.alone worker' worker a a hrun' hrun rfl⟩
    have hwait : a ∈ waiting l.pool l.finished := by
      unfold waiting
      rw [List.append_assoc]
      exact List.mem_append_right _ hmem
    exact h.apart.inHand worker a hrun a hwait rfl

/-- **No accepted task is lost or handled twice.** Along every run of the pool over `heapq`, the
tasks `submit` has answered `QUEUED` for are in the queue, in the hands of one worker or done with,
each in one of these places and once. -/
theorem conserved_run (queueMaxsize : ℤ) (es : List Event) :
    Conserved (es.foldl Ledger.step { pool := { queueMaxsize } }) := by
  have hinit : Kept { pool := { queueMaxsize } } := by
    refine ⟨ordered_nil, apart_init queueMaxsize, fun a => ?_, List.nodup_nil⟩
    simp [Placed]
  have hrun : Always Ledger.step Kept { pool := { queueMaxsize } } es :=
    always_of_step (fun _ e h => h.step e) hinit es
  exact (always_iff_states.1 hrun es (List.prefix_refl es)).conserved

end Tdcs.TaskQueue
