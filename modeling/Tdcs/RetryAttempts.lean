import Tdcs.RetryBudget

/-!
What the calls for one file use up of its retry budget, and whether its dead letter is reported.

A call that was let in has used up one attempt. A call that was sent away though no other was in
its way has found none left. All calls return: each answer takes its body one call further.
-/

namespace Tdcs.RetryAttempts

open Tdcs.Lib Tdcs.Lib.Run Tdcs.ProcessedFileRepo Tdcs.FileProcessor Tdcs.RetryBudget

variable (u : Setup)

/-- The body has returned, or an exception has left it. -/
def Returned : Pc → Bool
  | .done | .raised _ => true
  | _ => false

/-- The calls that were let in, and those that returned though no other call was in their way, have
used up one attempt each, as long as there were any. -/
def UsesUp (s : State) : Prop :=
  s.admitted ≤ u.budget ∧ ∀ C : Finset ℕ,
    (∀ i ∈ C, s.letIn i = true ∨ Returned (s.pcs i) = true ∧ s.rivalled i = false) →
      min C.card u.budget ≤ s.admitted

/-- No call of `move_to_dead_letter` raises where there is an alerter. -/
def Reports (s : State) : Event → Prop
  | .fail i _ => s.pcs i = .retryToDeadLetter → u.deps.alerter = false
  | _ => True

/-- The step is an answer to a call of the body `i`. -/
def answers (i : ℕ) : Event → Bool
  | .resume j _ => j = i
  | _ => false

variable {u} {s : State} {i : ℕ} {r : {r : PipelineResult // r.status = .retry}}

/-! ### What the calls have used up -/

/-- The calls that were let in are those at work and some of those that have returned; a call that
was sent away with no other in its way has found the budget used up. -/
structure Counted (u : Setup) (s : State) : Prop where
  card : ∃ D : Finset ℕ, (∀ i, i ∈ D ↔ s.letIn i = true) ∧ D.card = s.admitted
  past : ∀ i, s.letIn i = true → Working (s.pcs i) = true ∨ Returned (s.pcs i) = true
  working : ∀ i, Working (s.pcs i) = true → s.letIn i = true
  refused : ∀ i, Returned (s.pcs i) = true → s.letIn i = false → s.rivalled i = false →
    s.admitted = u.budget

lemma counted_init : Counted u init where
  card := ⟨∅, fun i => by simp [init], rfl⟩
  past _ h := by cases h
  working _ h := by cases h
  refused _ h := by cases h

lemma Counted.of_pc {s' : State} {pc : Pc} (h : Counted u s)
    (hpcs : s'.pcs = Function.update s.pcs i pc) (hlet : s'.letIn = s.letIn)
    (hadm : s'.admitted = s.admitted) (hriv : ∀ j, j ≠ i → s'.rivalled j = s.rivalled j)
    (hpast : s.letIn i = true → Working pc = true ∨ Returned pc = true)
    (hwork : Working pc = true → s.letIn i = true)
    (href : Returned pc = true → s.letIn i = false → s'.rivalled i = false →
      s.admitted = u.budget) : Counted u s' := by
  have hself : s'.pcs i = pc := by rw [hpcs, Function.update_self]
  have hother : ∀ j, j ≠ i → s'.pcs j = s.pcs j := fun j hj => by
    rw [hpcs, Function.update_of_ne hj]
  refine ⟨by rw [hlet, hadm]; exact h.card, fun j hj => ?_, fun j hj => ?_, fun j hj hn hr => ?_⟩
  · rw [hlet] at hj
    by_cases hji : j = i
    · subst hji
      rw [hself]
      exact hpast hj
    · rw [hother j hji]
      exact h.past j hj
  · rw [hlet]
    by_cases hji : j = i
    · subst hji
      rw [hself] at hj
      exact hwork hj
    · rw [hother j hji] at hj
      exact h.working j hj
  · rw [hlet] at hn
    rw [hadm]
    by_cases hji : j = i
    · subst hji
      rw [hself] at hj
      exact href hj hn hr
    · rw [hother j hji] at hj
      rw [hriv j hji] at hr
      exact h.refused j hj hn hr

lemma Counted.of_working {s' : State} {pc : Pc} (h : Counted u s)
    (hw : Working (s.pcs i) = true) (hpcs : s'.pcs = Function.update s.pcs i pc)
    (hlet : s'.letIn = s.letIn) (hadm : s'.admitted = s.admitted)
    (hriv : s'.rivalled = s.rivalled) (hpc : Working pc = true ∨ Returned pc = true) :
    Counted u s' := by
  have hin := h.working i hw
  refine h.of_pc hpcs hlet hadm (fun j _ => by rw [hriv]) (fun _ => hpc) (fun _ => hin) ?_
  intro _ hn
  rw [hin] at hn
  cases hn

lemma Counted.of_letIn {s' : State} {pc : Pc} (h : Counted u s) (hnew : s.letIn i = false)
    (hpcs : s'.pcs = Function.update s.pcs i pc) (hpc : Working pc = true)
    (hlet : s'.letIn = Function.update s.letIn i true) (hadm : s'.admitted = s.admitted + 1)
    (hriv : ∀ j, s'.rivalled j = true) : Counted u s' := by
  obtain ⟨D, hD, hcard⟩ := h.card
  refine ⟨⟨insert i D, fun j => ?_, ?_⟩, fun j hj => ?_, fun j hj => ?_, fun j _ _ hr => ?_⟩
  · by_cases hji : j = i
    · subst hji
      simp [hlet]
    · simp [hlet, hji, hD]
  · -- `i` is counted for the first time
    have hmem : i ∉ D := by
      rw [hD, hnew]
      exact Bool.false_ne_true
    rw [Finset.card_insert_of_notMem hmem, hcard, hadm]
  · by_cases hji : j = i
    · subst hji
      rw [hpcs, Function.update_self]
      exact .inl hpc
    · rw [hlet, Function.update_of_ne hji] at hj
      rw [hpcs, Function.update_of_ne hji]
      exact h.past j hj
  · rw [hlet]
    by_cases hji : j = i
    · subst hji
      exact Function.update_self ..
    · rw [hpcs, Function.update_of_ne hji] at hj
      rw [Function.update_of_ne hji]
      exact h.working j hj
  · rw [hriv j] at hr
    cases hr

lemma Counted.not_letIn (h : Counted u s) (hw : Working (s.pcs i) = false)
    (hr : Returned (s.pcs i) = false) : s.letIn i = false := by
  by_contra hin
  rcases h.past i (by simpa using hin) with hp | hp
  · rw [hw] at hp
    cases hp
  · rw [hr] at hp
    cases hp

lemma Counted.fail (h : Counted u s) (e : Exc) : Counted u (step u s (.fail i e)) := by
  by_cases hm : s.pcs i = .retryToDeadLetter
  · rw [step_fail_retryToDeadLetter hm]
    exact h.of_working (i := i) (by rw [hm]; rfl) rfl rfl rfl rfl (.inr rfl)
  by_cases hn : s.pcs i = .notifyDeadLetter
  · rw [step_fail_notifyDeadLetter hn]
    exact h.of_working (i := i) (by rw [hn]; rfl) rfl rfl rfl rfl (.inr rfl)
  · rwa [step_fail_of_ne hm hn]

lemma Counted.tryClaim (h : Counted u s) (hi : Inv u s) (hl : InLease u s)
    (hpc : s.pcs i = .tryClaim u.maxRetries) : Counted u (step u s (.resume i r)) := by
  rcases hb : ClaimReport.tryClaim u.foundRows u.repo u.ref u.maxRetries s.clock s.table with
    ⟨b, t⟩
  have hnew : s.letIn i = false := h.not_letIn (by rw [hpc]; rfl) (by rw [hpc]; rfl)
  rw [step_tryClaim hpc hb]
  refine h.of_pc (i := i) rfl rfl rfl (fun j hj => Function.update_of_ne hj _ _) ?_ ?_ ?_
  · rw [hnew]
    exact nofun
  · cases b <;> exact nofun
  · intro hret _ hr
    cases b with
    | true => cases hret
    | false =>
      simp only [Function.update_self] at hr
      rcases hi.tryClaim_cases hl rfl hb with ⟨-, hh | hadm⟩ | ⟨hb', -⟩
      · rw [hr] at hh
        cases hh
      · exact hadm
      · cases hb'

lemma Counted.markProcessing (h : Counted u s) (hi : Inv u s)
    (hpc : s.pcs i = .markProcessing u.maxRetries) : Counted u (step u s (.resume i r)) := by
  rcases hb : u.repo.markProcessing u.ref.toKey s.table with ⟨b, t⟩
  have hnew : s.letIn i = false := h.not_letIn (by rw [hpc]; rfl) (by rw [hpc]; rfl)
  rw [step_markProcessing hpc hb]
  cases b with
  | true => exact h.of_letIn hnew rfl rfl rfl rfl fun _ => rfl
  | false =>
    refine h.of_pc (i := i) rfl rfl rfl (fun _ _ => rfl) (fun _ => .inr rfl) nofun ?_
    -- a fresh claim would have been there to be used
    intro _ _ hr
    rcases hi.fresh i u.maxRetries hpc hr with hc | hadm
    · have hgrant := hi.markProcessing_iff.mpr hc
      rw [hb] at hgrant
      cases hgrant
    · exact hadm

lemma Counted.step (h : Counted u s) (hi : Inv u s) (hl : InLease u s) (e : Event) :
    Counted u (step u s e) := by
  cases e with
  | tick d => exact ⟨h.card, h.past, h.working, h.refused⟩
  | fail i e => exact h.fail e
  | resume i r =>
    have hk := hi.known i
    generalize hpc : s.pcs i = pc at hk
    cases hk with
    | getTask =>
      have hnew : s.letIn i = false := h.not_letIn (by rw [hpc]; rfl) (by rw [hpc]; rfl)
      rw [step_getTask hpc]
      refine h.of_pc (i := i) rfl rfl rfl (fun _ _ => rfl) ?_ nofun nofun
      rw [hnew]
      exact nofun
    | tryClaim => exact h.tryClaim hi hl hpc
    | markProcessing => exact h.markProcessing hi hpc
    | execute =>
      rw [step_execute hpc]
      exact h.of_working (i := i) (by rw [hpc]; rfl) rfl rfl rfl rfl (.inl rfl)
    | markRetry r' =>
      rcases hb : markFailed u.ref.toKey r'.errorType r'.errorStr s.table with ⟨n, t⟩
      rw [step_markRetry hpc hb]
      -- with no retries left the file goes on to the dead letters, else the call is over
      refine h.of_working (i := i) (by rw [hpc]; rfl) rfl rfl rfl rfl ?_
      unfold afterRetry
      split_ifs <;> first | exact .inl rfl | exact .inr rfl
    | retryToDeadLetter =>
      rw [step_retryToDeadLetter hpc]
      refine h.of_working (i := i) (by rw [hpc]; rfl) rfl rfl rfl rfl ?_
      split_ifs <;> first | exact .inl rfl | exact .inr rfl
    | notifyDeadLetter =>
      rw [step_notifyDeadLetter hpc]
      exact h.of_working (i := i) (by rw [hpc]; rfl) rfl rfl rfl rfl (.inr rfl)
    | done => rwa [step_done hpc]
    | raised e => rwa [step_raised hpc]

lemma Counted.usesUp (h : Counted u s) (hs : Stage u s) : UsesUp u s := by
  refine ⟨hs.admitted_le, fun C hC => ?_⟩
  obtain ⟨D, hD, hcard⟩ := h.card
  by_cases hall : ∀ i ∈ C, s.letIn i = true
  · have hsub : C ⊆ D := fun i hi => (hD i).mpr (hall i hi)
    have := Finset.card_le_card hsub
    omega
  · -- a call that was sent away has found the budget used up
    obtain ⟨i, hi, hn⟩ : ∃ i, i ∈ C ∧ ¬ s.letIn i = true := by simpa using hall
    rcases hC i hi with hin | ⟨hret, hr⟩
    · exact absurd hin hn
    · have := h.refused i hret (by simpa using hn) hr
      omega

/-! ### The calls return -/

/-- How many calls a body still has before it. -/
def callsLeft : Pc → ℕ
  | .getTask => 7
  | .tryClaim _ => 6
  | .markProcessing _ => 5
  | .execute _ => 4
  | .markRetry _ _ => 3
  | .retryToDeadLetter => 2
  | .notifyDeadLetter => 1
  | _ => 0

lemma returned_of_callsLeft {pc : Pc} (h : Known u pc) (hz : callsLeft pc = 0) :
    Returned pc = true := by
  cases h <;> first | rfl | cases hz

lemma callsLeft_afterRetry (deps : Deps) : callsLeft (afterRetry deps) ≤ 2 := by
  unfold afterRetry
  split_ifs <;> decide

lemma callsLeft_resume (hk : Known u (s.pcs i)) :
    callsLeft ((step u s (.resume i r)).pcs i) ≤ callsLeft (s.pcs i) - 1 := by
  generalize hpc : s.pcs i = pc at hk
  cases hk with
  | getTask => simp [step_getTask hpc, callsLeft]
  | tryClaim =>
    rw [step_tryClaim hpc rfl]
    simp only [Function.update_self]
    split_ifs <;> simp [callsLeft]
  | markProcessing =>
    rw [step_markProcessing hpc rfl]
    simp only [Function.update_self]
    split_ifs <;> simp [callsLeft]
  | execute => simp [step_execute hpc, callsLeft]
  | markRetry r' =>
    rw [step_markRetry hpc rfl]
    simp only [Function.update_self]
    split_ifs
    · exact callsLeft_afterRetry u.deps
    · exact Nat.zero_le _
  | retryToDeadLetter =>
    rw [step_retryToDeadLetter hpc]
    simp only [Function.update_self]
    split_ifs <;> simp [callsLeft]
  | notifyDeadLetter => simp [step_notifyDeadLetter hpc, callsLeft]
  | done => simp [step_done hpc, hpc, callsLeft]
  | raised e => simp [step_raised hpc, hpc, callsLeft]

lemma pcs_resume_of_ne {j : ℕ} (h : j ≠ i) : (step u s (.resume i r)).pcs j = s.pcs j :=
  Function.update_of_ne h _ _

lemma callsLeft_fail (j : ℕ) (e : Exc) :
    callsLeft ((step u s (.fail i e)).pcs j) ≤ callsLeft (s.pcs j) := by
  have hraised : callsLeft (Function.update s.pcs i (.raised e) j) ≤ callsLeft (s.pcs j) := by
    by_cases hji : j = i
    · rw [hji, Function.update_self]
      exact Nat.zero_le _
    · rw [Function.update_of_ne hji]
  by_cases hm : s.pcs i = .retryToDeadLetter
  · rwa [step_fail_retryToDeadLetter hm]
  by_cases hn : s.pcs i = .notifyDeadLetter
  · rwa [step_fail_notifyDeadLetter hn]
  · rw [step_fail_of_ne hm hn]

/-- A body that has got as many answers as it has calls before it has returned. -/
lemma callsLeft_run {es : List Event} (h : Always (step u) (Inv u) s es) (j : ℕ) :
    callsLeft ((es.foldl (step u) s).pcs j) ≤
      callsLeft (s.pcs j) - es.countP (answers j) := by
  induction es generalizing s with
  | nil => exact le_rfl
  | cons e es ih =>
    have hrest := ih h.2
    rw [List.foldl_cons, List.countP_cons]
    have hstep : callsLeft ((step u s e).pcs j) ≤
        callsLeft (s.pcs j) - if answers j e = true then 1 else 0 := by
      cases e with
      | tick d => exact le_rfl
      | fail i e => exact callsLeft_fail j e
      | resume i r =>
        by_cases hij : i = j
        · subst hij
          simpa [answers] using callsLeft_resume (r := r) (h.1.known i)
        · simp [answers, hij, pcs_resume_of_ne (Ne.symm hij)]
    omega

/-! ### The dead letter -/

lemma unreported_step (hs : s.unreported = false) (e : Event) :
    (step u s e).unreported = false ↔ Reports u s e := by
  cases e with
  | tick d => exact iff_of_true hs trivial
  | resume i r => exact iff_of_true hs trivial
  | fail i e =>
    by_cases hm : s.pcs i = .retryToDeadLetter
    · rw [step_fail_retryToDeadLetter hm]
      simp [Reports, hs, hm]
    have hrep : Reports u s (.fail i e) := fun h => absurd h hm
    refine iff_of_true ?_ hrep
    by_cases hn : s.pcs i = .notifyDeadLetter
    · rw [step_fail_notifyDeadLetter hn]
      exact hs
    · rwa [step_fail_of_ne hm hn]

/-- **Retry budget and dead letter.** However the calls for a file interleave, as long as they keep
to the lease, each is let in exactly if its number is within the budget, unless another call is in
its way, all return, and they use the budget up. The file is moved and reported once, after the
last of them, exactly if no call of `move_to_dead_letter` raises that the alerter waits for. -/
theorem budgeted_and_deadLettered_iff (u : Setup) (es : List Event)
    (h : Always (step u) (InLease u) init es) :
    Steps (step u) (Budgeted u) init es ∧ Always (step u) (UsesUp u) init es ∧
      (∀ i, 7 ≤ es.countP (answers i) → Returned ((es.foldl (step u) init).pcs i) = true) ∧
      (Always (step u) (DeadLettered u) init es ↔ Steps (step u) (Reports u) init es) := by
  have hinv := always_inv h
  have hcount : Always (step u) (Counted u) init es :=
    always_of_always (fun _ e hi hc => hc.step hi.1 hi.2 e) counted_init
      (hinv.mono₂ (fun _ hi hl => And.intro hi hl) h)
  refine ⟨hinv.steps h fun _ e hi hl => hi.budgeted hl e,
    hcount.mono₂ (fun _ hc hi => hc.usesUp hi.stage) hinv, fun i hi => ?_, ?_⟩
  · have hlast : Inv u (es.foldl (step u) init) :=
      always_iff_states.mp hinv es (List.prefix_refl es)
    have hleft := callsLeft_run hinv i
    refine returned_of_callsLeft (hlast.known i) ?_
    have hstart : callsLeft (init.pcs i) = 7 := rfl
    omega
  · have hreported : Always (step u) (fun s => s.unreported = false) init es ↔
        Steps (step u) (Reports u) init es :=
      always_iff_steps (I := fun _ => True) (fun _ _ _ => trivial)
        (fun _ e _ hs => unreported_step hs e) trivial rfl
    rw [← hreported]
    exact ⟨fun hd => hinv.mono₂ (fun _ hi => hi.stage.deadLettered_iff.mp) hd,
      fun hr => hinv.mono₂ (fun _ hi => hi.stage.deadLettered_iff.mpr) hr⟩

/-- A task with two attempts a file. -/
def twoAttempts : Setup where
  foundRows := true
  repo := { instanceId := "a" }
  ref := ⟨⟨"t", "/in/x.csv", 0⟩, 3, "h"⟩
  deps := {}
  maxRetries := 2

/-- Three calls for the file: `1` comes while `0` holds it and is sent away, `0` fails, `2` fails
and is about to move the file. -/
def threeCalls : List Event :=
  let retry : {r : PipelineResult // r.status = .retry} :=
    ⟨{ status := .retry, error := some (.retryable "timeout") }, rfl⟩
  [0, 0, 1, 0, 1, 0, 1, 0, 1, 0].map (.resume · retry) ++ [.tick 5] ++
    List.replicate 5 (.resume 2 retry)

/-- `2` moves the file and reports it. -/
def closing : List Event :=
  let retry : {r : PipelineResult // r.status = .retry} :=
    ⟨{ status := .retry, error := some (.retryable "timeout") }, rfl⟩
  List.replicate 2 (.resume 2 retry)

theorem budgeted_and_deadLettered_threeCalls :
    let es := threeCalls ++ closing
    Steps (step twoAttempts) (Budgeted twoAttempts) init es ∧
      Always (step twoAttempts) (UsesUp twoAttempts) init es ∧
      (∀ i, 7 ≤ es.countP (answers i) →
        Returned ((es.foldl (step twoAttempts) init).pcs i) = true) ∧
      (Always (step twoAttempts) (DeadLettered twoAttempts) init es ↔
        Steps (step twoAttempts) (Reports twoAttempts) init es) :=
  budgeted_and_deadLettered_iff twoAttempts (threeCalls ++ closing) (by decide)

example : let s := (threeCalls ++ closing).foldl (step twoAttempts) init
    (s.admitted, s.moved, s.notified) = (2, 1, 1) := by decide

/-- The directory for dead letters cannot be made. -/
def noDirectory : List Event :=
  threeCalls ++ [.fail 2 (.other "NotADirectoryError" "/data/dead")]

theorem not_deadLettered_makedirs :
    ¬ ∀ (u : Setup) (es : List Event), Always (step u) (InLease u) init es →
      Steps (step u) (Budgeted u) init es ∧ Always (step u) (UsesUp u) init es ∧
        Always (step u) (DeadLettered u) init es := by
  intro h
  have hlease : Always (step twoAttempts) (InLease twoAttempts) init noDirectory := by decide
  have hall := (h twoAttempts noDirectory hlease).2.2
  have hlast := always_iff_states.mp hall noDirectory (List.prefix_refl _)
  have hinv := always_iff_states.mp (always_inv hlease) noDirectory (List.prefix_refl _)
  have hreported := hinv.stage.deadLettered_iff.mp hlast
  -- the alerter was not called
  revert hreported
  decide

end Tdcs.RetryAttempts
