import Mathlib.Tactic
import Tdcs.Lib.Run
import Tdcs.Lib.SlidingWindow

/-!
The supervisor of the worker pool: which dead workers it restarts, and which it gives up.

A pass of the supervisor reads the time once and then looks at one worker after the other, while
the workers go on and may die. A restart counts for the time the pass has read. Times are
seconds.
-/

namespace Tdcs.Supervisor

open Tdcs.Lib Tdcs.Lib.Run Tdcs.Lib.SlidingWindow

/-- Where `_supervise` stands. -/
inductive Phase
  /-- In `_stop.wait`. -/
  | waiting
  /-- In the pass of the time `now`, before the worker `i`. -/
  | checking (now : ℚ) (i : ℕ)
  /-- A thread could not be started, which ends the supervisor. -/
  | dead
  deriving DecidableEq

structure State where
  clock : ℚ
  numWorkers : ℕ
  alive : ℕ → Bool
  restartTimes : ℕ → List ℚ
  disabledWorkers : List ℕ
  phase : Phase
  /-- The restarts so far, each with its worker and the time of its pass. -/
  restarts : List (ℕ × ℚ)
  /-- When a worker died last. -/
  diedAt : ℕ → ℚ

inductive Event
  | tick (d : ℚ≥0)
  /-- The thread of a worker ends. -/
  | die (i : ℕ)
  /-- The supervisor goes on by one worker; `starts` is whether a thread can be started. -/
  | supervise (starts : Bool)

/-- `_RESTART_WINDOW`. -/
def restartWindow : ℚ := 300
/-- `_RESTART_MAX`. -/
def restartMax : ℕ := 3

/-- The body of the loop over the workers. -/
def checkWorker (s : State) (now : ℚ) (i : ℕ) (starts : Bool) : State :=
  if s.disabledWorkers.contains i || s.alive i then { s with phase := .checking now (i + 1) }
  else
    let times := (s.restartTimes i).filter fun t => now - t < restartWindow
    if restartMax ≤ times.length then
      { s with
        restartTimes := Function.update s.restartTimes i times
        disabledWorkers := i :: s.disabledWorkers
        phase := .checking now (i + 1) }
    else if starts then
      { s with
        restartTimes := Function.update s.restartTimes i (times ++ [now])
        alive := Function.update s.alive i true
        phase := .checking now (i + 1)
        restarts := s.restarts ++ [(i, now)] }
    else
      { s with
        restartTimes := Function.update s.restartTimes i (times ++ [now])
        phase := .dead }

def step (s : State) : Event → State
  | .tick d => { s with clock := s.clock + d }
  | .die i =>
    if s.alive i then
      { s with
        alive := Function.update s.alive i false
        diedAt := Function.update s.diedAt i s.clock }
    else s
  | .supervise starts =>
    match s.phase with
    | .waiting => { s with phase := .checking s.clock 0 }
    | .checking now i =>
      if i < s.numWorkers then checkWorker s now i starts else { s with phase := .waiting }
    | .dead => s

/-- After `start`. -/
def start (numWorkers : ℕ) : State :=
  ⟨0, numWorkers, fun _ => true, fun _ => [], [], .waiting, [], fun _ => 0⟩

/-- When a worker was restarted. -/
def restartsOf (i : ℕ) (s : State) : List ℚ := (s.restarts.filter (·.1 = i)).map (·.2)

/-- No worker was restarted more than three times in five minutes. -/
def Bounded (s : State) : Prop := ∀ i, Sparse restartWindow restartMax (restartsOf i s)

/-- A worker that is given up has been found dead by a pass, with three restarts in the five
minutes before the pass; and in those before its death, unless it died during the pass. -/
def DisablesJustly (s : State) (e : Event) : Prop :=
  ∀ i, i ∉ s.disabledWorkers → i ∈ (step s e).disabledWorkers →
    s.alive i = false ∧ ∃ now, s.phase = .checking now i ∧
      restartMax ≤ (recent restartWindow now (restartsOf i s)).length ∧
      (s.diedAt i ≤ now →
        restartMax ≤ (recent restartWindow (s.diedAt i) (restartsOf i s)).length)

/-- A worker that has been given up is not restarted, and stays given up. -/
def LeavesDisabled (s : State) (e : Event) : Prop :=
  ∀ i ∈ s.disabledWorkers, i ∈ (step s e).disabledWorkers ∧
    restartsOf i (step s e) = restartsOf i s

variable {s : State} {i j : ℕ} {now : ℚ} {starts : Bool}

/-! ### One worker -/

lemma filter_eq_recent (now : ℚ) (l : List ℚ) :
    (l.filter fun t => now - t < restartWindow) = recent restartWindow now l := by
  unfold recent
  refine List.filter_congr fun t _ => ?_
  rw [decide_eq_decide, sub_lt_iff_lt_add']

/-- What the supervisor does about a worker. -/
inductive Checked (s : State) (now : ℚ) (i : ℕ) : State → Prop
  | skipped (h : i ∈ s.disabledWorkers ∨ s.alive i = true) :
      Checked s now i { s with phase := .checking now (i + 1) }
  | disabled (hout : i ∉ s.disabledWorkers) (hdead : s.alive i = false)
      (hfull : restartMax ≤ (recent restartWindow now (s.restartTimes i)).length) :
      Checked s now i { s with
        restartTimes :=
          Function.update s.restartTimes i (recent restartWindow now (s.restartTimes i))
        disabledWorkers := i :: s.disabledWorkers
        phase := .checking now (i + 1) }
  | restarted (hout : i ∉ s.disabledWorkers)
      (hroom : (recent restartWindow now (s.restartTimes i)).length < restartMax) :
      Checked s now i { s with
        restartTimes :=
          Function.update s.restartTimes i (recent restartWindow now (s.restartTimes i) ++ [now])
        alive := Function.update s.alive i true
        phase := .checking now (i + 1)
        restarts := s.restarts ++ [(i, now)] }
  | ended (times : ℕ → List ℚ) : Checked s now i { s with restartTimes := times, phase := .dead }

lemma checked_checkWorker (s : State) (now : ℚ) (i : ℕ) (starts : Bool) :
    Checked s now i (checkWorker s now i starts) := by
  unfold checkWorker
  dsimp only
  rw [filter_eq_recent]
  split_ifs with hskip hfull hstarts
  · exact .skipped (by simpa using hskip)
  · obtain ⟨hout, hdead⟩ : i ∉ s.disabledWorkers ∧ s.alive i = false := by simpa using hskip
    exact .disabled hout hdead hfull
  · obtain ⟨hout, -⟩ : i ∉ s.disabledWorkers ∧ s.alive i = false := by simpa using hskip
    exact .restarted hout (not_le.mp hfull)
  · exact .ended _

/-! ### The kept times -/

/-- The time the next restart will count for is not before this one. -/
def base (s : State) : ℚ :=
  match s.phase with
  | .checking now _ => now
  | _ => s.clock

/-- As long as the supervisor runs, the kept times count the restarts, of which no window has more
than three. -/
structure Inv (s : State) : Prop where
  base_le : base s ≤ s.clock
  tracks : s.phase ≠ .dead →
    ∀ i, Tracks restartWindow (base s) (s.restartTimes i) (restartsOf i s)
  bounded : Bounded s

lemma inv_start (numWorkers : ℕ) : Inv (start numWorkers) :=
  ⟨le_rfl, fun _ _ => tracks_nil, fun _ => sparse_nil⟩

lemma restartsOf_append {s' : State} (h : s'.restarts = s.restarts ++ [(i, now)]) :
    restartsOf j s' = if j = i then restartsOf j s ++ [now] else restartsOf j s := by
  unfold restartsOf
  rw [h, List.filter_append, List.map_append]
  split_ifs with hij
  · simp [hij]
  · simp [Ne.symm hij]

/-- **One worker.** -/
lemma inv_checked {s' : State} (h : Inv s) (hphase : s.phase = .checking now i)
    (hc : Checked s now i s') : Inv s' := by
  have hbase : base s = now := by rw [base, hphase]
  have hle := h.base_le
  have htracks := h.tracks (by simp [hphase])
  rw [hbase] at hle htracks
  cases hc with
  | skipped => exact ⟨hle, fun _ => htracks, h.bounded⟩
  | disabled hout hdead hfull =>
    refine ⟨hle, fun _ j => ?_, h.bounded⟩
    by_cases hij : j = i
    · subst hij
      simp only [Function.update_self]
      exact (htracks j).prune
    · simp only [Function.update_of_ne hij]
      exact htracks j
  | restarted hout hroom =>
    refine ⟨hle, fun _ j => ?_, fun j => ?_⟩
    · rw [restartsOf_append rfl]
      by_cases hij : j = i
      · subst hij
        simp only [Function.update_self, if_true]
        exact (htracks j).prune.append now
      · simp only [Function.update_of_ne hij, hij, if_false]
        exact htracks j
    · rw [restartsOf_append rfl]
      split_ifs with hij
      · subst hij
        rw [(htracks j).length_recent] at hroom
        exact (h.bounded j).append hroom
      · exact h.bounded j
  | ended times => exact ⟨le_rfl, fun hrun => absurd rfl hrun, h.bounded⟩

/-- **One step keeps the invariant.** -/
lemma inv_step (s : State) (e : Event) (h : Inv s) : Inv (step s e) := by
  cases e with
  | tick d =>
    have hd : s.clock ≤ s.clock + d := le_add_of_nonneg_right d.2
    have hbase : base s ≤ base (step s (.tick d)) := by
      unfold base step
      cases s.phase with
      | checking => exact le_rfl
      | waiting => exact hd
      | dead => exact hd
    refine ⟨?_, fun hrun i => (h.tracks hrun i).mono hbase, h.bounded⟩
    have hle := h.base_le
    revert hle
    unfold base step
    cases s.phase with
    | checking now i => exact fun hle => hle.trans hd
    | waiting => exact fun _ => le_rfl
    | dead => exact fun _ => le_rfl
  | die i =>
    unfold step
    dsimp only
    split_ifs
    · exact ⟨h.base_le, h.tracks, h.bounded⟩
    · exact h
  | supervise starts =>
    unfold step
    cases hphase : s.phase with
    | waiting =>
      have htracks := h.tracks (by simp [hphase])
      -- the round begins: `now` is read once and used for every worker
      have hbase : base s = s.clock := by rw [base, hphase]
      rw [hbase] at htracks
      exact ⟨le_rfl, fun _ => htracks, h.bounded⟩
    | checking now i =>
      dsimp only
      split_ifs
      · exact inv_checked h hphase (checked_checkWorker s now i starts)
      · have htracks := h.tracks (by simp [hphase])
        exact ⟨le_rfl, fun _ j => (htracks j).mono h.base_le, h.bounded⟩
    | dead => exact h

/-! ### What a step does -/

lemma disablesJustly (s : State) (e : Event) (h : Inv s) : DisablesJustly s e := by
  intro j hout hin
  cases e with
  | tick d => exact absurd hin hout
  | die i =>
    unfold step at hin
    dsimp only at hin
    split_ifs at hin <;> exact absurd hin hout
  | supervise starts =>
    unfold step at hin
    cases hphase : s.phase with
    | waiting =>
      rw [hphase] at hin
      exact absurd hin hout
    | dead =>
      rw [hphase] at hin
      exact absurd hin hout
    | checking now i =>
      rw [hphase] at hin
      dsimp only at hin
      split_ifs at hin
      · have hc := checked_checkWorker s now i starts
        generalize checkWorker s now i starts = s' at hc hin
        cases hc with
        | skipped => exact absurd hin hout
        | restarted => exact absurd hin hout
        | ended => exact absurd hin hout
        | disabled _ hdead hfull =>
          -- the counter of the code counts exactly the restarts of the last minute
          obtain rfl : j = i := by
            rcases List.mem_cons.mp hin with heq | hin
            · exact heq
            · exact absurd hin hout
          have htracks := h.tracks (by simp [hphase]) j
          have hbase : base s = now := by rw [base, hphase]
          rw [hbase] at htracks
          rw [htracks.length_recent] at hfull
          exact ⟨hdead, now, rfl, hfull, fun hd => hfull.trans (length_recent_le hd)⟩
      · exact absurd hin hout

lemma leavesDisabled (s : State) (e : Event) : LeavesDisabled s e := by
  intro j hj
  cases e with
  | tick d => exact ⟨hj, rfl⟩
  | die i =>
    unfold step
    dsimp only
    split_ifs <;> exact ⟨hj, rfl⟩
  | supervise starts =>
    unfold step
    cases s.phase with
    | waiting => exact ⟨hj, rfl⟩
    | dead => exact ⟨hj, rfl⟩
    | checking now i =>
      dsimp only
      split_ifs
      · have hc := checked_checkWorker s now i starts
        generalize checkWorker s now i starts = s' at hc ⊢
        cases hc with
        | skipped => exact ⟨hj, rfl⟩
        | ended => exact ⟨hj, rfl⟩
        | disabled => exact ⟨List.mem_cons_of_mem _ hj, rfl⟩
        | restarted hout =>
          have hne : j ≠ i := fun heq => hout (heq ▸ hj)
          exact ⟨hj, by rw [restartsOf_append rfl, if_neg hne]⟩
      · exact ⟨hj, rfl⟩

/-! ### Runs -/

/-- **Restarts are bounded.** -/
theorem restarts_bounded (numWorkers : ℕ) (l : List Event) :
    Always step Bounded (start numWorkers) l ∧
      Steps step DisablesJustly (start numWorkers) l ∧
      Steps step LeavesDisabled (start numWorkers) l := by
  have hinv : Always step Inv (start numWorkers) l :=
    always_of_step inv_step (inv_start numWorkers) l
  refine ⟨hinv.mono fun _ h => h.bounded, ?_, ?_⟩
  · exact hinv.steps hinv fun s e h _ => disablesJustly s e h
  · exact hinv.steps hinv fun s e _ _ => leavesDisabled s e

end Tdcs.Supervisor
