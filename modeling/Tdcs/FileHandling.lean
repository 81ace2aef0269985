import Tdcs.Lib.Run
import Tdcs.FileProcessor

/-!
One file in the hands of a worker: `FileProcessor.__call__` inside the `try` of `WorkerPool._work`,
and what it reports to the breaker.

The collaborators answer in any way and may raise anywhere; the breaker does neither. A call of
`mark_success` that raises may have been committed all the same.
-/

namespace Tdcs.FileHandling

open Tdcs.Lib.Run Tdcs.FileProcessor

/-- How the pending call ends, and whether one that raises has taken effect. -/
structure Response where
  answer : Answer
  tookEffect : Bool := false

structure Handling where
  pc : Pc := .getTask
  /-- The calls of the breaker so far, `true` for `record_success`. -/
  reports : List Bool := []
  /-- `mark_success` has been committed. -/
  committed : Bool := false
  deriving DecidableEq, Repr

/-- The call of the breaker a control point stands at. -/
def report : Pc → Option Bool
  | .unhandledFailure | .recordFailure _ => some false
  | .recordSuccess => some true
  | _ => none

/-- The response commits `mark_success`. -/
def commits : Pc → Response → Bool
  | .markSuccess _, ⟨.db (.fileId _), _⟩ => true
  | .markSuccess _, ⟨.exc _, tookEffect⟩ => tookEffect
  | _, _ => false

variable (deps : Deps)

def step (h : Handling) (x : Response) : Handling where
  pc := resume deps h.pc (if (report h.pc).isSome then .unit else x.answer)
  reports := h.reports ++ (report h.pc).toList
  committed := h.committed || commits h.pc x

/-- The body of the `try` has been left. -/
def Finished (h : Handling) : Prop := h.pc = .done ∨ ∃ e, h.pc = .raised e

/-- All calls of the breaker, that of `_work`'s `except Exception` included. -/
def Handling.reported (h : Handling) : List Bool :=
  match h.pc with
  | .raised e => if e.isSkipFile then h.reports else h.reports ++ [false]
  | _ => h.reports

/-- The breaker is called once at most, and for a success exactly if `mark_success` was
committed. -/
def OneOutcome (h : Handling) : Prop :=
  h.reported.length ≤ 1 ∧ (true ∈ h.reported ↔ h.committed = true)

/-- What raises here has been reported already, or comes after the commit. -/
def Untimely (h : Handling) (x : Response) : Prop :=
  match h.pc, x.answer with
  | .fatalToDeadLetter _, .exc e | .notifyPipelineFailure _, .exc e => e.isSkipFile = false
  | .archiveAfterSuccess, .exc _ | .markArchived _, .exc _ => True
  | .markSuccess _, .exc _ => x.tookEffect = true
  | _, _ => False

/-- What the breaker has been told at a control point, and whether `mark_success` has been
committed. -/
def Sound (h : Handling) : Prop :=
  match h.pc with
  | .saveQuality _ _ | .checkQualityAlert _ | .archiveAfterSuccess | .markArchived _
  | .recordSuccess => h.reports = [] ∧ h.committed = true
  | .fatalToDeadLetter _ | .notifyPipelineFailure _ => h.reports = [false] ∧ h.committed = false
  | .done | .raised _ => OneOutcome h
  | _ => h.reports = [] ∧ h.committed = false

/-- The handling is over, and went wrong. -/
def Spoiled (h : Handling) : Prop := Finished h ∧ ¬ OneOutcome h

variable {deps} {h : Handling}

lemma sound_init : Sound {} := ⟨rfl, rfl⟩

lemma step_of_finished (hf : Finished h) (x : Response) : step deps h x = h := by
  obtain ⟨pc, reports, committed⟩ := h
  obtain ⟨a, took⟩ := x
  rcases hf with rfl | ⟨e, rfl⟩ <;> cases a <;> simp [step, report, commits, resume, onRaise]

lemma Sound.oneOutcome (hs : Sound h) (hf : Finished h) : OneOutcome h := by
  obtain ⟨pc, reports, committed⟩ := h
  rcases hf with rfl | ⟨e, rfl⟩
  · exact hs
  · exact hs

lemma Sound.not_spoiled (hs : Sound h) : ¬ Spoiled h := fun hbad => hbad.2 (hs.oneOutcome hbad.1)

/-! ### How a handling can end -/

@[simp] lemma oneOutcome_done (reports : List Bool) (committed : Bool) :
    OneOutcome ⟨.done, reports, committed⟩ ↔
      reports.length ≤ 1 ∧ (true ∈ reports ↔ committed = true) := Iff.rfl

@[simp] lemma oneOutcome_raised_nil (e : Exc) : OneOutcome ⟨.raised e, [], false⟩ := by
  cases he : e.isSkipFile <;> simp [OneOutcome, Handling.reported, he]

@[simp] lemma oneOutcome_raised_failed (e : Exc) :
    OneOutcome ⟨.raised e, [false], false⟩ ↔ e.isSkipFile = true := by
  cases he : e.isSkipFile <;> simp [OneOutcome, Handling.reported, he]

@[simp] lemma not_oneOutcome_raised_committed (e : Exc) : ¬ OneOutcome ⟨.raised e, [], true⟩ := by
  cases he : e.isSkipFile <;> simp [OneOutcome, Handling.reported, he]

/-! ### One step -/

lemma Sound.raise (hs : Sound h) (hr : report h.pc = none) {e : Exc} {took : Bool}
    (hu : ¬ Untimely h ⟨.exc e, took⟩) : Sound (step deps h ⟨.exc e, took⟩) := by
  obtain ⟨pc, reports, committed⟩ := h
  cases pc with
  | done => simpa [step, report, commits, resume, onRaise] using hs
  | raised e' => simpa [step, report, commits, resume, onRaise] using hs
  | fatalToDeadLetter result =>
    obtain ⟨rfl, rfl⟩ := hs
    simpa [step, report, commits, resume, onRaise, Sound, Untimely] using hu
  | notifyPipelineFailure result =>
    obtain ⟨rfl, rfl⟩ := hs
    simpa [step, report, commits, resume, onRaise, Sound, Untimely] using hu
  | archiveAfterSuccess => exact absurd trivial hu
  | markArchived path => exact absurd trivial hu
  | unhandledFailure => cases hr
  | recordSuccess => cases hr
  | recordFailure result => cases hr
  | markSuccess result =>
    obtain ⟨rfl, rfl⟩ := hs
    obtain rfl : took = false := by simpa [Untimely] using hu
    simp [step, report, commits, resume, onRaise, Sound]
  | _ =>
    obtain ⟨rfl, rfl⟩ := hs
    simp [step, report, commits, resume, onRaise, Sound]

lemma Sound.spoiled (hs : Sound h) {x : Response} (hu : Untimely h x) :
    Spoiled (step deps h x) := by
  obtain ⟨pc, reports, committed⟩ := h
  obtain ⟨a, took⟩ := x
  cases a with
  | exc e =>
    cases pc with
    | fatalToDeadLetter result =>
      obtain ⟨rfl, rfl⟩ := hs
      refine ⟨.inr ⟨e, rfl⟩, ?_⟩
      simpa [step, report, commits, resume, onRaise, Untimely] using hu
    | notifyPipelineFailure result =>
      obtain ⟨rfl, rfl⟩ := hs
      refine ⟨.inr ⟨e, rfl⟩, ?_⟩
      simpa [step, report, commits, resume, onRaise, Untimely] using hu
    | archiveAfterSuccess =>
      obtain ⟨rfl, rfl⟩ := hs
      refine ⟨.inr ⟨e, rfl⟩, ?_⟩
      simp [step, report, commits, resume, onRaise]
    | markArchived path =>
      obtain ⟨rfl, rfl⟩ := hs
      refine ⟨.inr ⟨e, rfl⟩, ?_⟩
      simp [step, report, commits, resume, onRaise]
    | markSuccess result =>
      -- the row says SUCCESS, but the pool is told of an exception
      obtain ⟨rfl, rfl⟩ := hs
      obtain rfl : took = true := hu
      refine ⟨.inr ⟨e, rfl⟩, ?_⟩
      simp [step, report, commits, resume, onRaise]
    | _ => cases hu
  | _ => cases pc <;> cases hu

lemma Sound.report (hs : Sound h) (x : Response) (hr : (report h.pc).isSome) :
    Sound (step deps h x) := by
  obtain ⟨pc, reports, committed⟩ := h
  cases pc with
  | unhandledFailure =>
    obtain ⟨rfl, rfl⟩ := hs
    simp [step, FileHandling.report, commits, resume, Sound]
  | recordSuccess =>
    obtain ⟨rfl, rfl⟩ := hs
    simp [step, FileHandling.report, commits, resume, Sound]
  | recordFailure result =>
    obtain ⟨rfl, rfl⟩ := hs
    obtain ⟨_ | _, _ | _⟩ := deps <;>
      simp [step, FileHandling.report, commits, resume, afterFailure, Sound]
  | _ => cases hr

lemma sound_dispatch (maxRetries : ℕ) (result : PipelineResult) :
    Sound ⟨dispatch maxRetries result, [], false⟩ := by
  unfold dispatch
  cases result.status <;> exact ⟨rfl, rfl⟩

lemma sound_afterRetry (deps : Deps) : Sound ⟨afterRetry deps, [], false⟩ := by
  obtain ⟨_ | _, _ | _⟩ := deps <;> simp [afterRetry, Sound]

lemma Sound.answer (hs : Sound h) (hr : FileHandling.report h.pc = none) {x : Response}
    (ha : x.answer.isExc = false) : Sound (step deps h x) := by
  obtain ⟨pc, reports, committed⟩ := h
  obtain ⟨a, took⟩ := x
  unfold step
  simp only [hr, Option.isSome_none, Bool.false_eq_true, if_false, Option.toList_none,
    List.append_nil]
  fun_cases resume deps pc a with
  | case1 pc e => cases ha
  | case8 maxRetries result =>
    obtain ⟨rfl, rfl⟩ := hs
    exact sound_dispatch maxRetries result
  | case21 maxRetries result n =>
    obtain ⟨rfl, rfl⟩ := hs
    exact sound_afterRetry deps
  | _ => first | cases hr; done | simp_all [Sound, commits]

lemma Sound.step (hs : Sound h) {x : Response} (hu : ¬ Untimely h x) : Sound (step deps h x) := by
  rcases hr : FileHandling.report h.pc with _ | ok
  · obtain ⟨a, took⟩ := x
    rcases ha : a.isExc with _ | _
    · exact hs.answer hr ha
    · obtain ⟨e, rfl⟩ : ∃ e, a = .exc e := by
        cases a <;> first | exact ⟨_, rfl⟩ | cases ha
      exact hs.raise hr hu
  · exact hs.report x (by rw [hr]; rfl)

/-- **One step.** A handling goes wrong exactly at an exception that comes at a wrong time, and what
has gone wrong stays so. -/
lemma spoiled_step_iff (hs : Sound h ∨ Spoiled h) (x : Response) :
    Spoiled (step deps h x) ↔ Spoiled h ∨ Untimely h x := by
  rcases hs with hs | hbad
  · refine ⟨fun hbad => .inr ?_, fun hor => ?_⟩
    · by_contra hu
      exact (hs.step hu).not_spoiled hbad
    · exact hs.spoiled (hor.resolve_left hs.not_spoiled)
  · rw [step_of_finished hbad.1]
    exact iff_of_true hbad (.inl hbad)

lemma sound_or_spoiled_step (hs : Sound h ∨ Spoiled h) (x : Response) :
    Sound (step deps h x) ∨ Spoiled (step deps h x) := by
  by_cases hu : Untimely h x
  · exact .inr ((spoiled_step_iff hs x).2 (.inr hu))
  · rcases hs with hs | hbad
    · exact .inl (hs.step hu)
    · exact .inr ((spoiled_step_iff (.inr hbad) x).2 (.inl hbad))

lemma spoiled_iff_once (deps : Deps) (l : List Response) :
    Spoiled (l.foldl (step deps) {}) ↔ Once (step deps) Untimely {} l := by
  have h : Spoiled (l.foldl (step deps) {}) ↔
      Spoiled ({} : Handling) ∨ Once (step deps) Untimely {} l :=
    final_iff_once (I := fun h => Sound h ∨ Spoiled h) (fun _ x hs => sound_or_spoiled_step hs x)
      (fun _ x hs => spoiled_step_iff hs x) (.inl sound_init)
  rw [h]
  exact or_iff_right sound_init.not_spoiled

/-- **One outcome per file.** Handling a file reports one outcome at most, and a success exactly if
`mark_success` was committed, unless something raises after the failure was reported or after the
commit. -/
theorem oneOutcome_iff (deps : Deps) (l : List Response) :
    (Finished (l.foldl (step deps) {}) → OneOutcome (l.foldl (step deps) {})) ↔
      ¬ Once (step deps) Untimely {} l := by
  rw [← spoiled_iff_once, Spoiled, not_and, not_not]

/-- The file fails for good, and the dead-letter directory cannot be made. -/
def noDeadLetterDir : List Response :=
  [⟨.task (some 3), false⟩, ⟨.db (.granted true), false⟩, ⟨.db (.granted true), false⟩,
    ⟨.result { status := .failed, error := some (.fatal "no such table") }, false⟩,
    ⟨.db (.retryCount 1), false⟩, ⟨.unit, false⟩,
    ⟨.exc (.other "PermissionError" "/dead"), false⟩]

example : (noDeadLetterDir.foldl (step {}) {}).reported = [false, false] := by decide

theorem not_oneOutcome_noDeadLetterDir :
    ¬ ∀ (deps : Deps) (l : List Response),
      Finished (l.foldl (step deps) {}) → OneOutcome (l.foldl (step deps) {}) := by
  intro h
  obtain ⟨hone, -⟩ := h {} noDeadLetterDir (.inr ⟨_, rfl⟩)
  revert hone
  decide

end Tdcs.FileHandling
