import Tdcs.WorkerPool

/-!
Submissions that are refused.

`submit` asks the breaker before it tries the queue. A breaker that is not closed and lets the task
through has thereby let its probe through, whether or not the queue takes the task.
-/

namespace Tdcs.WorkerPool

open Tdcs.Lib Tdcs.Lib.Run Tdcs.ProcessedFileRepo

/-- A call of `submit` from its beginning to its end, no other thread running in between. -/
def Pool.submitCall (s : Pool) (ref : FileRef) (priority : ℤ) (isActive : Bool) (d : ℚ≥0) :
    SubmitResult × Pool :=
  match s.submit ref priority isActive d with
  | (some refusal, s') => (refusal, s')
  | (none, s') => s'.put ⟨s.nextId, ⟨priority, ref⟩⟩

/-- What a breaker lets through. -/
def Timed.answer (s : Timed) : Op → Option Bool
  | .allow d => some (s.allows d)
  | _ => none

/-- Whatever is asked and reported from the time `t` on, the two breakers let the same through. -/
def AdmitsAlike (t : ℚ) (b b' : CircuitBreaker) : Prop :=
  Alike Timed.step Timed.answer ⟨t, b⟩ ⟨t, b'⟩

/-- The queue, the pauses and the counters are the same, and the breakers let the same through. -/
structure Pool.SameAdmissions (s s' : Pool) : Prop where
  queueMaxsize : s'.queueMaxsize = s.queueMaxsize
  queue : s'.queue = s.queue
  paused : s'.paused = s.paused
  queueCounts : s'.queueCounts = s.queueCounts
  breakers : ∀ k, AdmitsAlike s'.clock (s.breakers k) (s'.breakers k)

/-- A call that is not answered `QUEUED` has no effect on later ones. -/
def RejectsQuietly (s : Pool) (ref : FileRef) (priority : ℤ) (isActive : Bool) (d : ℚ≥0) : Prop :=
  (s.submitCall ref priority isActive d).1 ≠ .queued →
    s.SameAdmissions (s.submitCall ref priority isActive d).2

/-- At `t` a breaker that is not closed would let its probe through. -/
def CircuitBreaker.ProbeDue (b : CircuitBreaker) (t : ℚ) : Prop :=
  (b.state = .opened ∧ b.recoveryTimeout < t - b.openedAt) ∨
    (b.state = .halfOpen ∧ (b.halfOpenInProgress = true → b.recoveryTimeout < t - b.halfOpenAt))

/-- The call lets a probe through that the full queue does not take. -/
def WastesProbe (s : Pool) (ref : FileRef) (isActive : Bool) : Prop :=
  isActive = true ∧ ref.taskId ∉ s.paused ∧ (s.breakers ref.taskId).ProbeDue s.clock ∧
    s.full = true

variable {s : Pool} {b : CircuitBreaker} {t t' : ℚ}

/-! ### Breakers -/

lemma not_closed_of_probeDue (h : b.ProbeDue t) : b.state ≠ .closed := by
  rcases h with ⟨hs, -⟩ | ⟨hs, -⟩ <;> rw [hs] <;> simp

lemma allow_of_closed (h : b.state = .closed) : b.allow t t' = (true, b) := by
  simp [CircuitBreaker.allow, h]

lemma allow_iff_probeDue (t' : ℚ) (h : b.state ≠ .closed) :
    (b.allow t t').1 = true ↔ b.ProbeDue t := by
  unfold CircuitBreaker.allow CircuitBreaker.ProbeDue
  cases hs : b.state with
  | closed => exact absurd hs h
  | opened => by_cases ht : b.recoveryTimeout < t - b.openedAt <;> simp [ht]
  | halfOpen =>
    rcases hp : b.halfOpenInProgress with _ | _
    · simp
    · by_cases ht : b.recoveryTimeout < t - b.halfOpenAt <;> simp [ht]

lemma CircuitBreaker.ProbeDue.mono (h : b.ProbeDue t) (ht : t ≤ t') : b.ProbeDue t' := by
  rcases h with ⟨hs, hd⟩ | ⟨hs, hd⟩
  · exact .inl ⟨hs, by linarith⟩
  · exact .inr ⟨hs, fun hp => by linarith [hd hp]⟩

lemma not_probeDue_allow (h : b.ProbeDue t) (hr : 0 ≤ b.recoveryTimeout) :
    ¬ (b.allow t t').2.ProbeDue t' := by
  have hne := not_closed_of_probeDue h
  rcases CircuitBreaker.allow_cases t t' hne with hno | ⟨-, hst, hp, hat, -, -⟩
  · have := (allow_iff_probeDue t' hne).2 h
    rw [hno] at this
    cases this
  · rintro (⟨hs, -⟩ | ⟨-, hd⟩)
    · rw [hst] at hs
      cases hs
    · have hlt := hd hp
      rw [hat, CircuitBreaker.allow_recoveryTimeout] at hlt
      have : (0 : ℚ) ≤ (b.recoveryTimeout : ℚ) := by exact_mod_cast hr
      linarith

/-- **A probe let through can be noticed.** -/
lemma not_admitsAlike_allow (h : b.ProbeDue t) (hr : 0 ≤ b.recoveryTimeout) (ht : t ≤ t') :
    ¬ AdmitsAlike t' b (b.allow t t').2 := by
  have hne := not_closed_of_probeDue h
  have hne' : (b.allow t t').2.state ≠ .closed := by
    rcases CircuitBreaker.allow_cases t t' hne with hno | ⟨-, hst, -⟩
    · rwa [hno]
    · rw [hst]
      simp
  have hnot : ¬ (b.allow t t').2.ProbeDue t' := not_probeDue_allow h hr
  refine not_alike (a := .allow 0) fun hsame => hnot ?_
  have hthrough : (b.allow t' (t' + (0 : ℚ≥0))).1 = true :=
    (allow_iff_probeDue _ hne).2 (h.mono ht)
  refine (allow_iff_probeDue (t' + (0 : ℚ≥0)) hne').1 ?_
  exact (Option.some.inj hsame).symm.trans hthrough

lemma allow_of_not_probeDue (h : ¬ b.ProbeDue t) (t' : ℚ) : (b.allow t t').2 = b := by
  by_cases hc : b.state = .closed
  · rw [allow_of_closed hc]
  · rcases CircuitBreaker.allow_cases t t' hc with hno | ⟨hyes, -⟩
    · rw [hno]
    · exact absurd ((allow_iff_probeDue t' hc).1 hyes) h

/-! ### What a call does -/

lemma Pool.SameAdmissions.refl (s : Pool) : s.SameAdmissions s :=
  ⟨rfl, rfl, rfl, rfl, fun _ => Alike.refl _⟩

section call

variable {ref : FileRef} {priority : ℤ} {isActive : Bool} {d : ℚ≥0}

lemma submitCall_of_barred (h : isActive = false ∨ ref.taskId ∈ s.paused) :
    (s.submitCall ref priority isActive d).2 = s := by
  rcases h with rfl | hp
  · rfl
  · unfold Pool.submitCall Pool.submit
    cases isActive <;> simp [hp]

lemma submitCall_of_asked (hact : isActive = true) (hp : ref.taskId ∉ s.paused)
    (hrej : (s.submitCall ref priority isActive d).1 ≠ .queued) :
    let s' := (s.submitCall ref priority isActive d).2
    s'.queueMaxsize = s.queueMaxsize ∧ s'.queue = s.queue ∧ s'.paused = s.paused ∧
      s'.queueCounts = s.queueCounts ∧ s'.clock = s.clock + d ∧
      s'.breakers = Function.update s.breakers ref.taskId
        ((s.breakers ref.taskId).allow s.clock (s.clock + d)).2 := by
  unfold Pool.submitCall Pool.submit at hrej ⊢
  rcases ha : (s.breakers ref.taskId).allow s.clock (s.clock + d) with ⟨_ | _, b'⟩
  · simp [hact, hp, ha, Pool.setBreaker]
  · simp only [hact, hp, ha, Bool.not_true, Bool.false_eq_true, if_false, if_true] at hrej ⊢
    unfold Pool.put at hrej ⊢
    split_ifs at hrej ⊢
    · exact ⟨rfl, rfl, rfl, rfl, rfl, rfl⟩
    · exact absurd rfl hrej

lemma put_fst (s : Pool) (a : Admitted) : (s.put a).1 = if s.full then .queueFull else .queued := by
  unfold Pool.put
  dsimp only
  split_ifs <;> rfl

lemma submitCall_of_through (hact : isActive = true) (hp : ref.taskId ∉ s.paused)
    (ha : ((s.breakers ref.taskId).allow s.clock (s.clock + d)).1 = true) :
    (s.submitCall ref priority isActive d).1 = if s.full then .queueFull else .queued := by
  unfold Pool.submitCall Pool.submit
  simp only [hact, hp, ha, Bool.not_true, Bool.false_eq_true, if_false, if_true]
  exact put_fst _ _

end call

/-! ### Calls and steps -/

/-- The task has been let through and is not done with. -/
def Pool.Holds (s : Pool) (a : Admitted) : Prop :=
  a ∈ s.submitting ∨ a ∈ s.queue ∨ ∃ worker, s.running worker = some a

/-- The numbers of the tasks in the pool have all been given out. -/
def NumbersGiven (s : Pool) : Prop := ∀ a, s.Holds a → a.id < s.nextId

lemma running_of_done {worker worker' : ℕ} {a a' : Admitted}
    (h : (s.done worker a').running worker' = some a) : s.running worker' = some a := by
  have hw : worker' ≠ worker := by
    rintro rfl
    simp [Pool.done] at h
  simpa [Pool.done, hw] using h

lemma holds_of_done {worker : ℕ} {a a' : Admitted} (h : (s.done worker a').Holds a) :
    s.Holds a := by
  rcases h with hsub | hqueue | ⟨worker', hrun⟩
  · exact .inl hsub
  · exact .inr (.inl hqueue)
  · exact .inr (.inr ⟨worker', running_of_done hrun⟩)

lemma holds_of_step {e : Event} {a : Admitted} (h : (step s e).Holds a) :
    s.Holds a ∧ s.nextId ≤ (step s e).nextId ∨
      a.id = s.nextId ∧ (step s e).nextId = s.nextId + 1 := by
  cases e with
  | submit ref priority isActive d =>
    unfold step Pool.submit at h ⊢
    dsimp only at h ⊢
    split_ifs at h ⊢
    · exact .inl ⟨h, le_rfl⟩
    · exact .inl ⟨h, le_rfl⟩
    · -- accepted: the new task takes the next id
      rcases h with hsub | hrest
      · rcases List.mem_append.1 hsub with hold | hnew
        · exact .inl ⟨.inl hold, Nat.le_succ _⟩
        · obtain rfl := List.mem_singleton.1 hnew
          exact .inr ⟨rfl, rfl⟩
      · exact .inl ⟨.inr hrest, Nat.le_succ _⟩
    · exact .inl ⟨h, le_rfl⟩
  | put id =>
    rcases step_put s id with hs | ⟨a', hmem, hs⟩ <;> rw [hs] at h ⊢
    · exact .inl ⟨h, le_rfl⟩
    · unfold Pool.put at h ⊢
      dsimp only at h ⊢
      split_ifs at h ⊢
      · exact .inl ⟨h.imp_left List.mem_of_mem_erase, le_rfl⟩
      · rcases h with hsub | hqueue | hrun
        · exact .inl ⟨.inl (List.mem_of_mem_erase hsub), le_rfl⟩
        · rcases List.mem_append.1 hqueue with hold | hnew
          · exact .inl ⟨.inr (.inl hold), le_rfl⟩
          · obtain rfl := List.mem_singleton.1 hnew
            exact .inl ⟨.inl hmem, le_rfl⟩
        · exact .inl ⟨.inr (.inr hrun), le_rfl⟩
  | get worker id =>
    rcases step_get s worker id with hs | ⟨a', hmem, -, hs⟩ <;> rw [hs] at h ⊢
    · exact .inl ⟨h, le_rfl⟩
    · rcases h with hsub | hqueue | ⟨worker', hrun⟩
      · exact .inl ⟨.inl hsub, le_rfl⟩
      · exact .inl ⟨.inr (.inl (List.mem_of_mem_erase hqueue)), le_rfl⟩
      · by_cases hw : worker' = worker
        · subst hw
          obtain rfl : a' = a := by simpa using hrun
          exact .inl ⟨.inr (.inl hmem), le_rfl⟩
        · exact .inl ⟨.inr (.inr ⟨worker', by simpa [hw] using hrun⟩), le_rfl⟩
  | report worker ok =>
    rcases step_report s worker ok with hs | ⟨a', -, hs⟩ <;> rw [hs] at h ⊢
    · exact .inl ⟨h, le_rfl⟩
    · exact .inl ⟨h, le_rfl⟩
  | finish worker outcome =>
    rcases step_finish s worker outcome with hs | ⟨a', -, ⟨-, hs⟩ | ⟨-, hs⟩⟩ <;> rw [hs] at h ⊢
    · exact .inl ⟨h, le_rfl⟩
    · have hold := holds_of_done h
      exact .inl ⟨hold, le_rfl⟩
    · exact .inl ⟨holds_of_done h, le_rfl⟩
  | tick d => exact .inl ⟨h, le_rfl⟩
  | pause taskId => exact .inl ⟨h, le_rfl⟩
  | resume taskId => exact .inl ⟨h, le_rfl⟩

lemma NumbersGiven.step (h : NumbersGiven s) (e : Event) : NumbersGiven (step s e) := by
  intro a ha
  rcases holds_of_step ha with ⟨hold, hle⟩ | ⟨hid, hnext⟩
  · exact (h a hold).trans_le hle
  · omega

lemma submitting_submit (s : Pool) (ref : FileRef) (priority : ℤ) (isActive : Bool) (d : ℚ≥0) :
    (s.submit ref priority isActive d).2.submitting =
      if (s.submit ref priority isActive d).1.isNone then
        s.submitting ++ [⟨s.nextId, ⟨priority, ref⟩⟩]
      else s.submitting := by
  unfold Pool.submit
  dsimp only
  cases isActive with
  | false => rfl
  | true =>
    by_cases hp : ref.taskId ∈ s.paused
    · simp [hp]
    by_cases ha : ((s.breakers ref.taskId).allow s.clock (s.clock + d)).1 = true
    · simp [hp, ha, Pool.setBreaker, Pool.letThrough]
    · simp [hp, ha, Pool.setBreaker]

lemma submitCall_eq_steps (h : NumbersGiven s) (ref : FileRef) (priority : ℤ) (isActive : Bool)
    (d : ℚ≥0) : [Event.submit ref priority isActive d, .put s.nextId].foldl step s =
      (s.submitCall ref priority isActive d).2 := by
  have hnone : s.submitting.find? (fun a => a.id = s.nextId) = none := by
    rw [List.find?_eq_none]
    intro a ha
    have := h a (.inl ha)
    simp only [decide_eq_true_eq]
    omega
  have hsubmitting := submitting_submit s ref priority isActive d
  rw [List.foldl_cons, List.foldl_cons, List.foldl_nil, Pool.submitCall, step, step]
  rcases hsub : s.submit ref priority isActive d with ⟨_ | refusal, s'⟩ <;> rw [hsub] at hsubmitting
  · have hfind : s'.submitting.find? (fun a => a.id = s.nextId) =
        some ⟨s.nextId, ⟨priority, ref⟩⟩ := by
      rw [hsubmitting]
      simp [List.find?_append, hnone]
    simp only [hfind]
  · have hfind : s'.submitting.find? (fun a => a.id = s.nextId) = none := by
      rw [hsubmitting]
      exact hnone
    simp only [hfind]

lemma recoveryTimeout_poolStep (s : Pool) (e : Event) (k : String) :
    ((step s e).breakers k).recoveryTimeout = (s.breakers k).recoveryTimeout := by
  rcases hrep : s.reporting e with _ | ⟨a, ok⟩
  · rcases breakers_of_not_reporting hrep k with hb | ⟨ref, priority, isActive, d, -, -, -, -, hb⟩
    · rw [hb]
    · rw [hb, CircuitBreaker.allow_recoveryTimeout]
  · rw [(step_of_reporting hrep).1, Pool.report]
    by_cases hk : k = a.taskId
    · subst hk
      rw [setBreaker_breakers_self]
      cases ok
      · exact CircuitBreaker.recordFailure_recoveryTimeout
      · rfl
    · rw [setBreaker_breakers_of_ne hk]

/-- What holds of every pool the events lead to. -/
lemma sound_run (queueMaxsize : ℤ) (l : List Event) :
    NumbersGiven (l.foldl step { queueMaxsize }) ∧
      ∀ k, ((l.foldl step { queueMaxsize }).breakers k).recoveryTimeout = 60 := by
  have h : Always step (fun s => NumbersGiven s ∧ ∀ k, (s.breakers k).recoveryTimeout = 60)
      { queueMaxsize } l :=
    always_of_step (fun s e h =>
      ⟨h.1.step e, fun k => (recoveryTimeout_poolStep s e k).trans (h.2 k)⟩)
      ⟨fun _ ha => by simp [Pool.Holds] at ha, fun _ => rfl⟩ l
  exact always_iff_states.mp h l (List.prefix_refl _)

/-! ### Which rejections have an effect -/

lemma not_rejectsQuietly_of_wastesProbe {ref : FileRef} {isActive : Bool}
    (hr : 0 ≤ (s.breakers ref.taskId).recoveryTimeout) (h : WastesProbe s ref isActive)
    (priority : ℤ) (d : ℚ≥0) : ¬ RejectsQuietly s ref priority isActive d := by
  obtain ⟨hact, hp, hdue, hfull⟩ := h
  intro hquiet
  have hthrough := (allow_iff_probeDue (s.clock + d) (not_closed_of_probeDue hdue)).2 hdue
  have hanswer := @submitCall_of_through s ref priority isActive d hact hp hthrough
  have hrej : (s.submitCall ref priority isActive d).1 ≠ .queued := by
    rw [hanswer, hfull]
    simp
  obtain ⟨-, -, -, -, hclock, hbreakers⟩ := submitCall_of_asked hact hp hrej
  have halike := (hquiet hrej).breakers ref.taskId
  rw [hclock, hbreakers, Function.update_self] at halike
  exact not_admitsAlike_allow hdue hr (le_add_of_nonneg_right d.2) halike

lemma breakers_of_not_wastesProbe {ref : FileRef} {priority : ℤ} {isActive : Bool} {d : ℚ≥0}
    (h : ¬ WastesProbe s ref isActive) (hact : isActive = true) (hp : ref.taskId ∉ s.paused)
    (hrej : (s.submitCall ref priority isActive d).1 ≠ .queued) :
    (s.submitCall ref priority isActive d).2.breakers = s.breakers := by
  obtain ⟨-, -, -, -, -, hbreakers⟩ := submitCall_of_asked hact hp hrej
  rw [hbreakers]
  by_cases hdue : (s.breakers ref.taskId).ProbeDue s.clock
  · -- the task is let through, so the queue is not full and takes it
    have hthrough := (allow_iff_probeDue (s.clock + d) (not_closed_of_probeDue hdue)).2 hdue
    have hfull : s.full = false := by
      rw [← Bool.not_eq_true]
      exact fun hfull => h ⟨hact, hp, hdue, hfull⟩
    have hanswer := @submitCall_of_through s ref priority isActive d hact hp hthrough
    rw [hfull] at hanswer
    exact absurd hanswer hrej
  · rw [allow_of_not_probeDue hdue, Function.update_eq_self]

/-- **Rejected submissions.** A call of `submit` that is not answered `QUEUED` leaves the queue, the
counters and the breakers so that they admit the same later on, unless it lets a probe through that
the full queue does not take. -/
theorem rejectsQuietly_iff (s : Pool) (ref : FileRef) (priority : ℤ) (isActive : Bool) (d : ℚ≥0)
    (hr : 0 ≤ (s.breakers ref.taskId).recoveryTimeout) :
    RejectsQuietly s ref priority isActive d ↔ ¬ WastesProbe s ref isActive := by
  constructor
  · exact fun hquiet hw => not_rejectsQuietly_of_wastesProbe hr hw priority d hquiet
  · intro hno hrej
    by_cases hbar : isActive = false ∨ ref.taskId ∈ s.paused
    · rw [submitCall_of_barred hbar]
      exact .refl s
    · rw [not_or, Bool.not_eq_false] at hbar
      obtain ⟨hact, hp⟩ := hbar
      obtain ⟨hmax, hqueue, hpaused, hcounts, -, -⟩ := submitCall_of_asked hact hp hrej
      refine ⟨hmax, hqueue, hpaused, hcounts, fun k => ?_⟩
      rw [breakers_of_not_wastesProbe hno hact hp hrej]
      exact Alike.refl _

/-- A time past the default `recovery_timeout`. -/
def pastRecovery : ℚ≥0 := 61

/-- A queue for one file is full, the breaker has tripped, and its time is over. -/
def fullAtProbe : List Event :=
  let file (i : ℕ) : FileRef := ⟨⟨"t", "/in/x.csv", i⟩, 3, "h"⟩
  [.submit (file 0) 5 true 0, .put 0, .get 0 0, .submit (file 1) 5 true 0, .put 1] ++
    List.replicate 5 (.report 0 false) ++ [.tick pastRecovery]

lemma wastesProbe_fullAtProbe :
    WastesProbe (fullAtProbe.foldl step { queueMaxsize := 1 }) ⟨⟨"t", "/in/x.csv", 2⟩, 3, "h"⟩
      true :=
  ⟨rfl, by decide +kernel, .inl ⟨by decide +kernel, by decide +kernel⟩, by decide +kernel⟩

theorem rejectsQuietly_iff_fullAtProbe :
    let s := fullAtProbe.foldl step { queueMaxsize := 1 }
    let ref : FileRef := ⟨⟨"t", "/in/x.csv", 2⟩, 3, "h"⟩
    RejectsQuietly s ref 5 true 0 ↔ ¬ WastesProbe s ref true :=
  rejectsQuietly_iff _ _ 5 true 0 (by decide +kernel)

theorem not_rejectsQuietly_fullAtProbe :
    ¬ ∀ (queueMaxsize : ℤ) (l : List Event) (ref : FileRef) (priority : ℤ) (isActive : Bool)
      (d : ℚ≥0), RejectsQuietly (l.foldl step { queueMaxsize }) ref priority isActive d := by
  intro h
  refine not_rejectsQuietly_of_wastesProbe ?_ wastesProbe_fullAtProbe 5 0
    (h 1 fullAtProbe _ 5 true 0)
  rw [(sound_run 1 fullAtProbe).2]
  decide

end Tdcs.WorkerPool
