import Tdcs.Lib.Run
import Mathlib.Data.NNRat.Defs
import Mathlib.Tactic.Linarith

/-!
`CircuitBreaker`: the breaker of one task.

Times are seconds as `time.monotonic` gives them. `allow` reads the clock twice, once for its
test and once for the time it keeps.
-/

namespace Tdcs.WorkerPool

open Tdcs.Lib Tdcs.Lib.Run

/-- `opened` is the source's `OPEN`. -/
inductive CircuitState | closed | opened | halfOpen
  deriving DecidableEq, Repr

structure CircuitBreaker where
  failureThreshold : ℤ := 5
  recoveryTimeout : ℤ := 60
  state : CircuitState := .closed
  failures : ℕ := 0
  openedAt : ℚ := 0
  halfOpenInProgress : Bool := false
  halfOpenAt : ℚ := 0
  deriving DecidableEq, Repr

namespace CircuitBreaker

/-- `allow`, the clock showing first `t` and then `t'`. -/
def allow (b : CircuitBreaker) (t t' : ℚ) : Bool × CircuitBreaker :=
  match b.state with
  | .closed => (true, b)
  | .opened =>
    if t - b.openedAt > b.recoveryTimeout then
      (true, { b with state := .halfOpen, halfOpenAt := t', halfOpenInProgress := true })
    else (false, b)
  | .halfOpen =>
    if b.halfOpenInProgress && !(t - b.halfOpenAt > b.recoveryTimeout) then (false, b)
    else (true, { b with halfOpenInProgress := true, halfOpenAt := t' })

def recordSuccess (b : CircuitBreaker) : CircuitBreaker :=
  { b with failures := 0, halfOpenInProgress := false, state := .closed }

/-- `record_failure` at the time `t`. -/
def recordFailure (b : CircuitBreaker) (t : ℚ) : CircuitBreaker :=
  let b' := { b with halfOpenInProgress := false, failures := b.failures + 1 }
  if b.state = .halfOpen ∨ b.failureThreshold ≤ b.failures + 1 then
    { b' with state := .opened, openedAt := t }
  else b'

/-! ### What the calls do to the state -/

variable {b : CircuitBreaker} {t t' : ℚ}

@[simp] lemma recordSuccess_state : b.recordSuccess.state = .closed := rfl

lemma recordFailure_recoveryTimeout : (b.recordFailure t).recoveryTimeout = b.recoveryTimeout := by
  unfold recordFailure
  dsimp only
  split_ifs <;> rfl

lemma allow_recoveryTimeout : (b.allow t t').2.recoveryTimeout = b.recoveryTimeout := by
  unfold allow
  split
  · rfl
  all_goals split_ifs <;> rfl

lemma allow_failureThreshold : (b.allow t t').2.failureThreshold = b.failureThreshold := by
  unfold allow
  split
  · rfl
  all_goals split_ifs <;> rfl

lemma allow_failures : (b.allow t t').2.failures = b.failures := by
  unfold allow
  split
  · rfl
  all_goals split_ifs <;> rfl

lemma recordFailure_cases :
    ((b.recordFailure t).state = .opened ∧ (b.recordFailure t).openedAt = t) ∨
      (b.state ≠ .halfOpen ∧ (b.recordFailure t).state = b.state ∧
        (b.recordFailure t).openedAt = b.openedAt) := by
  unfold recordFailure
  dsimp only
  split_ifs with h
  · exact .inl ⟨rfl, rfl⟩
  · exact .inr ⟨fun hh => h (.inl hh), rfl, rfl⟩

lemma allow_cases (t t' : ℚ) (h : b.state ≠ .closed) :
    b.allow t t' = (false, b) ∨
      ((b.allow t t').1 = true ∧ (b.allow t t').2.state = .halfOpen ∧
        (b.allow t t').2.halfOpenInProgress = true ∧ (b.allow t t').2.halfOpenAt = t' ∧
        (b.state = .opened → b.openedAt + b.recoveryTimeout < t) ∧
        (b.state = .halfOpen → b.halfOpenInProgress = true →
          b.halfOpenAt + b.recoveryTimeout < t)) := by
  unfold allow
  cases hs : b.state with
  | closed => exact absurd hs h
  | opened =>
    dsimp only
    split_ifs with ht
    · exact .inr ⟨rfl, rfl, rfl, rfl, fun _ => by linarith, nofun⟩
    · exact .inl rfl
  | halfOpen =>
    dsimp only
    split_ifs with ht
    · exact .inl rfl
    · refine .inr ⟨rfl, rfl, rfl, rfl, nofun, fun _ hp => ?_⟩
      simp only [hp, Bool.true_and, Bool.not_eq_true', decide_eq_false_iff_not, not_not] at ht
      linarith

end CircuitBreaker

/-! ### A breaker and its clock -/

structure Timed where
  clock : ℚ
  breaker : CircuitBreaker

/-- The clock never goes back. Between the two readings of `allow` the time `d` passes. -/
inductive Op
  | tick (d : ℚ≥0)
  | allow (d : ℚ≥0)
  | recordSuccess
  | recordFailure

/-- What `allow` answers now. -/
def Timed.allows (s : Timed) (d : ℚ≥0) : Bool := (s.breaker.allow s.clock (s.clock + d)).1

def Timed.step (s : Timed) : Op → Timed
  | .tick d => { s with clock := s.clock + d }
  | .allow d => ⟨s.clock + d, (s.breaker.allow s.clock (s.clock + d)).2⟩
  | .recordSuccess => { s with breaker := s.breaker.recordSuccess }
  | .recordFailure => { s with breaker := s.breaker.recordFailure s.clock }

/-- A new breaker. -/
def Timed.init (failureThreshold recoveryTimeout : ℤ) : Timed where
  clock := 0
  breaker := { failureThreshold, recoveryTimeout }

/-- The last probe was let through at `c`, and what the breaker has gone through since it has
timed from then on. -/
structure ProbedAt (c : ℚ) (s : Timed) : Prop where
  clock : c ≤ s.clock
  opened : s.breaker.state = .opened → c ≤ s.breaker.openedAt
  halfOpen : s.breaker.state = .halfOpen →
    s.breaker.halfOpenInProgress = true ∧ c ≤ s.breaker.halfOpenAt

variable {c : ℚ} {s : Timed}

lemma ProbedAt.recordFailure (h : ProbedAt c s) : ProbedAt c (s.step .recordFailure) := by
  rcases CircuitBreaker.recordFailure_cases (b := s.breaker) (t := s.clock) with
    ⟨hs, ho⟩ | ⟨hne, hs, ho⟩
  · exact ⟨h.clock, fun _ => ho ▸ h.clock, fun hh => absurd (hs.symm.trans hh) nofun⟩
  · refine ⟨h.clock, fun hh => ?_, fun hh => absurd (hs.symm.trans hh) hne⟩
    rw [Timed.step, ho]
    exact h.opened (hs.symm.trans hh)

lemma ProbedAt.allow (h : ProbedAt c s) (d : ℚ≥0) : ProbedAt c (s.step (.allow d)) := by
  have hclock : c ≤ s.clock + d := h.clock.trans (le_add_of_nonneg_right d.2)
  by_cases hs : s.breaker.state = .closed
  · have hsame : s.step (.allow d) = { s with clock := s.clock + d } := by
      simp [Timed.step, CircuitBreaker.allow, hs]
    rw [hsame]
    exact ⟨hclock, h.opened, h.halfOpen⟩
  · rcases CircuitBreaker.allow_cases s.clock (s.clock + d) hs with
      hno | ⟨-, hst, hp, hat, -, -⟩
    · rw [Timed.step, hno]
      exact ⟨hclock, h.opened, h.halfOpen⟩
    · exact ⟨hclock, fun hh => absurd (hst.symm.trans hh) nofun,
        fun _ => ⟨hp, hclock.trans_eq hat.symm⟩⟩

/-- **The step lemma.** -/
lemma ProbedAt.step (h : ProbedAt c s) (op : Op) : ProbedAt c (s.step op) := by
  cases op with
  | tick d => exact ⟨h.clock.trans (le_add_of_nonneg_right d.2), h.opened, h.halfOpen⟩
  | allow d => exact h.allow d
  | recordSuccess => exact ⟨h.clock, nofun, nofun⟩
  | recordFailure => exact h.recordFailure

lemma recoveryTimeout_step (s : Timed) (op : Op) :
    (s.step op).breaker.recoveryTimeout = s.breaker.recoveryTimeout := by
  cases op with
  | tick d => rfl
  | allow d => exact CircuitBreaker.allow_recoveryTimeout
  | recordSuccess => rfl
  | recordFailure => exact CircuitBreaker.recordFailure_recoveryTimeout

lemma recoveryTimeout_run (s : Timed) (l : List Op) :
    (l.foldl Timed.step s).breaker.recoveryTimeout = s.breaker.recoveryTimeout := by
  induction l generalizing s with
  | nil => rfl
  | cons op l ih => rw [List.foldl_cons, ih, recoveryTimeout_step]

lemma probedAt_of_allows {d : ℚ≥0} (hs : s.breaker.state ≠ .closed) (h : s.allows d = true) :
    ProbedAt (s.clock + d) (s.step (.allow d)) := by
  rcases CircuitBreaker.allow_cases s.clock (s.clock + d) hs with
    hno | ⟨-, hst, hp, hat, -, -⟩
  · rw [Timed.allows, hno] at h
    cases h
  · exact ⟨le_rfl, fun hh => absurd (hst.symm.trans hh) nofun, fun _ => ⟨hp, hat.ge⟩⟩

lemma ProbedAt.lt_of_allows (h : ProbedAt c s) {d : ℚ≥0} (hs : s.breaker.state ≠ .closed)
    (ha : s.allows d = true) : c + s.breaker.recoveryTimeout < s.clock := by
  rcases CircuitBreaker.allow_cases s.clock (s.clock + d) hs with
    hno | ⟨-, -, -, -, ho, hh⟩
  · rw [Timed.allows, hno] at ha
    cases ha
  · cases hst : s.breaker.state with
    | closed => exact absurd hst hs
    | opened =>
      have h1 := h.opened hst
      have h2 := ho hst
      linarith
    | halfOpen =>
      obtain ⟨hp, h1⟩ := h.halfOpen hst
      have h2 := hh hst hp
      linarith

/-- **Probes are rate limited.** Two calls of `allow` that let a task through, the breaker never
closed from the state before the first on, are more than `recovery_timeout` apart: from the end
of the first to the beginning of the second. -/
theorem probes_apart (failureThreshold recoveryTimeout : ℤ) (l₁ l₂ : List Op) (d₁ d₂ : ℚ≥0) :
    let s₁ := l₁.foldl Timed.step (Timed.init failureThreshold recoveryTimeout)
    let s₂ := l₂.foldl Timed.step (s₁.step (.allow d₁))
    s₁.allows d₁ = true → s₂.allows d₂ = true →
    Always Timed.step (fun s => s.breaker.state ≠ .closed) s₁ (.allow d₁ :: l₂) →
      (s₁.step (.allow d₁)).clock + recoveryTimeout < s₂.clock := by
  intro s₁ s₂ h₁ h₂ hnot
  have hstates := always_iff_states.mp hnot
  have hs₁ : s₁.breaker.state ≠ .closed := hstates [] List.nil_prefix
  have hs₂ : s₂.breaker.state ≠ .closed := hstates _ (List.prefix_refl _)
  have hinv : Always Timed.step (ProbedAt (s₁.clock + d₁)) (s₁.step (.allow d₁)) l₂ :=
    always_of_always (fun _ op _ h => h.step op) (probedAt_of_allows hs₁ h₁)
      (always_cons.mp hnot).2
  have hlast : ProbedAt (s₁.clock + d₁) s₂ := always_iff_states.mp hinv _ (List.prefix_refl _)
  have hlt := hlast.lt_of_allows hs₂ h₂
  rw [recoveryTimeout_run, recoveryTimeout_step, recoveryTimeout_run] at hlt
  exact hlt

/-- A breaker that trips at the first failure: two probes, a late failure between them. -/
theorem probes_apart_lateFailure :
    let s₁ := [Op.recordFailure, .tick 61].foldl Timed.step (Timed.init 1 60)
    let s₂ := [Op.tick 30, .recordFailure, .tick 61].foldl Timed.step (s₁.step (.allow 1))
    (s₁.step (.allow 1)).clock + ((60 : ℤ) : ℚ) < s₂.clock :=
  probes_apart 1 60 [.recordFailure, .tick 61] [.tick 30, .recordFailure, .tick 61] 1 1
    (by decide +kernel) (by decide +kernel) (by decide +kernel)

/-! ### When it trips -/

/-- The calls of `record_failure` since the last `record_success`, or since the breaker was made. -/
def failuresSince (l : List Op) : ℕ :=
  (l.reverse.takeWhile fun
    | .recordSuccess => false
    | _ => true).countP fun
    | .recordFailure => true
    | _ => false

@[simp] lemma failuresSince_nil : failuresSince [] = 0 := rfl

@[simp] lemma failuresSince_tick (l : List Op) (d : ℚ≥0) :
    failuresSince (l ++ [.tick d]) = failuresSince l := by
  simp [failuresSince]

@[simp] lemma failuresSince_allow (l : List Op) (d : ℚ≥0) :
    failuresSince (l ++ [.allow d]) = failuresSince l := by
  simp [failuresSince]

@[simp] lemma failuresSince_recordSuccess (l : List Op) :
    failuresSince (l ++ [.recordSuccess]) = 0 := by
  simp [failuresSince]

@[simp] lemma failuresSince_recordFailure (l : List Op) :
    failuresSince (l ++ [.recordFailure]) = failuresSince l + 1 := by
  simp [failuresSince]

/-- A breaker of threshold `k` has counted `n` failures and its state fits them. No step takes the
count back to zero but a success, so a breaker that is not closed has reached its threshold and
stays beyond. -/
structure Counted (k : ℤ) (n : ℕ) (b : CircuitBreaker) : Prop where
  threshold : b.failureThreshold = k
  failures : b.failures = n
  closed : b.state = .closed ↔ (n : ℤ) < k
  probe : b.state = .halfOpen → b.halfOpenInProgress = true

section

variable {k : ℤ} {n : ℕ} {b : CircuitBreaker}

lemma Counted.le_of_ne (h : Counted k n b) (hne : b.state ≠ .closed) : k ≤ n := by
  have := mt h.closed.mpr hne
  omega

lemma Counted.recordSuccess (h : Counted k n b) (hk : 1 ≤ k) : Counted k 0 b.recordSuccess where
  threshold := h.threshold
  failures := rfl
  closed := ⟨fun _ => by omega, fun _ => rfl⟩
  probe := nofun

lemma Counted.recordFailure (h : Counted k n b) (t : ℚ) :
    Counted k (n + 1) (b.recordFailure t) := by
  have hcount : b.failures + 1 = n + 1 := by rw [h.failures]
  unfold CircuitBreaker.recordFailure
  dsimp only
  split_ifs with htrip
  all_goals rw [h.threshold, h.failures] at htrip
  · have hreached : k ≤ (n : ℤ) + 1 := by
      rcases htrip with hhalf | hreached
      · have := h.le_of_ne (by simp [hhalf])
        omega
      · exact hreached
    refine ⟨h.threshold, hcount, ⟨nofun, fun hlt => ?_⟩, nofun⟩
    push_cast at hlt
    omega
  · have hbelow : (n : ℤ) + 1 < k := by
      have := not_or.mp htrip
      omega
    have hclosed : b.state = .closed := h.closed.mpr (by omega)
    exact ⟨h.threshold, hcount, ⟨fun _ => by push_cast; omega, fun _ => hclosed⟩,
      fun hhalf => absurd (hclosed.symm.trans hhalf) nofun⟩

lemma Counted.allow (h : Counted k n b) (t t' : ℚ) : Counted k n (b.allow t t').2 := by
  by_cases hs : b.state = .closed
  · simpa [CircuitBreaker.allow, hs] using h
  · have hreached := h.le_of_ne hs
    rcases CircuitBreaker.allow_cases t t' hs with hno | ⟨-, hhalf, hprobe, -⟩
    · rwa [hno]
    · refine ⟨CircuitBreaker.allow_failureThreshold.trans h.threshold,
        CircuitBreaker.allow_failures.trans h.failures, ?_, fun _ => hprobe⟩
      simp only [hhalf, reduceCtorEq, false_iff]
      omega

end

/-- **The run lemma.** Each step counts what `failuresSince` counts. -/
lemma counted_run {k : ℤ} (hk : 1 ≤ k) (recoveryTimeout : ℤ) (l : List Op) :
    Counted k (failuresSince l) (l.foldl Timed.step (Timed.init k recoveryTimeout)).breaker := by
  induction l using List.reverseRecOn with
  | nil => exact ⟨rfl, rfl, ⟨fun _ => by simp only [failuresSince_nil]; omega, fun _ => rfl⟩, nofun⟩
  | append_singleton l op ih =>
    rw [List.foldl_concat]
    cases op with
    | tick d => simpa [Timed.step] using ih
    | allow d => simpa [Timed.step] using ih.allow _ _
    | recordSuccess => simpa [Timed.step] using ih.recordSuccess hk
    | recordFailure => simpa [Timed.step] using ih.recordFailure _

/-- **The breaker trips exactly on consecutive failures**, after every history. -/
theorem closed_iff_failuresSince_lt (failureThreshold recoveryTimeout : ℤ)
    (h : 1 ≤ failureThreshold) (l : List Op) :
    let b := (l.foldl Timed.step (Timed.init failureThreshold recoveryTimeout)).breaker
    (b.state = .closed ↔ (failuresSince l : ℤ) < failureThreshold) ∧
      (b.state = .halfOpen → b.halfOpenInProgress = true) := by
  intro b
  have hb : Counted failureThreshold (failuresSince l) b := counted_run h recoveryTimeout l
  exact ⟨hb.closed, hb.probe⟩

/-- Two failures, a probe, a late failure, a success and one more failure. -/
theorem closed_iff_failuresSince_lt_cycle :
    let l := [Op.recordFailure, .recordFailure, .tick 61, .allow 0, .recordFailure,
      .recordSuccess, .recordFailure]
    let b := (l.foldl Timed.step (Timed.init 2 60)).breaker
    (b.state = .closed ↔ (failuresSince l : ℤ) < 2) ∧
      (b.state = .halfOpen → b.halfOpenInProgress = true) :=
  closed_iff_failuresSince_lt 2 60 (by norm_num) _

end Tdcs.WorkerPool
