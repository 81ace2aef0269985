import Tdcs.ClaimProtocol

/-!
What the claim protocol is safe against, and where it is not.

Runs that keep to the leases in their rows exclude each other. The row has whole seconds, so its
lease may end before the claim timeout does. A run that outlives its lease is not fenced off: its
terminal mark finds the row by the file alone.
-/

namespace Tdcs.ClaimSafety

open Tdcs.Lib.Run Tdcs.ProcessedFileRepo Tdcs.FileProcessor Tdcs.ClaimProtocol

variable (w : ℕ → Worker) (deps : Deps)

/-! ### Mutual exclusion -/

/-- The run has not stopped and stands between `mark_processing` returning `True` and its
terminal mark. -/
def Processing (s : State) (r : ℕ) : Prop :=
  (s.runs r).stopped = false ∧ (s.runs r).pc.phase = .processing

/-- A run that was granted its claim at `t` and has marks left to do is still inside
`t + claim_timeout`, or has stopped. -/
def Timely (s : State) : Prop :=
  ∀ r t, Live s r → (s.runs r).grantedAt = some t → s.clock ≤ t + (w r).repo.lease

/-- A run that was granted its claim and has marks left to do is still inside the lease that was
stored for it, or has stopped. -/
def InLease (s : State) : Prop :=
  ∀ r t, Live s r → (s.runs r).grantedAt = some t → s.clock ≤ (w r).repo.expiresAt t

/-- At most one run processes each key. -/
def Exclusive (s : State) : Prop :=
  ∀ r r', (w r).key = (w r').key → Processing s r → Processing s r' → r = r'

/-- Every terminal mark of an overtaken run leaves the row as it is; a row with status
`SUCCESS` keeps it, and is granted to nobody. -/
def Fenced (s : State) (e : Event) : Prop :=
  (∀ r c, TerminalMark s r c e → Overtaken w s r →
    (step w deps s e).table.row (w r).key = s.table.row (w r).key) ∧
  ∀ k row, s.table.row k = some row → row.status = .success →
    (∃ row', (step w deps s e).table.row k = some row' ∧ row'.status = .success) ∧
    ∀ r m, e = .db r → (w r).key = k → (s.runs r).pc = .tryClaim m →
      isGrant (.tryClaim m) (s.perform w r (.tryClaim m)).1 = false

variable {w deps} {s : State}

lemma not_overtaken_of_inLease (h : Inv w s) (ht : InLease w s) {r : ℕ} (hl : Live s r) :
    ¬ Overtaken w s r := by
  rintro ⟨t, r', t', hg, -, -, hg', hlt⟩
  have h1 := ht r t hl hg
  have h2 := h.granted r' t' hg'
  omega

lemma live_of_terminalMark {r : ℕ} {c : Call} {e : Event} (h : TerminalMark s r c e) :
    Live s r := by
  cases e with
  | db r' =>
    obtain ⟨rfl, hst, hc, ht⟩ := h
    exact ⟨hst, by rw [phase_terminal hc ht]; simp⟩
  | _ => cases h

lemma marksInTime_of_inLease (h : Inv w s) (ht : InLease w s) (e : Event) : MarksInTime w s e :=
  fun _ _ hm ho => absurd ho (not_overtaken_of_inLease h ht (live_of_terminalMark hm))

lemma exclusive_of_inv (h : Inv w s) (ht : InLease w s) : Exclusive w s := by
  intro r r' hk hr hr'
  have hl : Live s r := ⟨hr.1, by simp [hr.2]⟩
  have hl' : Live s r' := ⟨hr'.1, by simp [hr'.2]⟩
  have h1 := ((h.live r hl).resolve_left (not_overtaken_of_inLease h ht hl)).1
  have h2 := ((h.live r' hl').resolve_left (not_overtaken_of_inLease h ht hl')).1
  rw [hk, h2] at h1
  exact (Option.some.inj h1).symm

/-- **Mutual exclusion.** Along a run of the protocol in which every claim is used up or
abandoned within the lease that was stored for it, at most one run processes a file at any time. -/
theorem exclusive_of_inLease (w : ℕ → Worker) (deps : Deps) (l : List Event)
    (h : Always (step w deps) (InLease w) init l) :
    Always (step w deps) (Exclusive w) init l := by
  have hinv : Always (step w deps) (Inv w) init l :=
    always_of_always (fun _ e ht hi => hi.step e (marksInTime_of_inLease hi ht e)) inv_init h
  exact hinv.mono₂ (fun _ hi ht => exclusive_of_inv hi ht) h

/-- Two instances that see one file. -/
def twoInstances (r : ℕ) : Worker where
  repo := { instanceId := if r = 0 then "a" else "b" }
  ref := ⟨⟨"t", "/in/x.csv", 0⟩, 3, "h"⟩

lemma lease_twoInstances (r : ℕ) : (twoInstances r).repo.lease = 600 * 1000000 := rfl

/-- Both look the task up, `a` is granted the file and starts, `b` is refused. -/
def race : List Event :=
  [.call 0 (.task (some 3)), .call 1 (.task (some 3)), .db 0, .tick 5, .db 1, .db 0]

theorem exclusive_of_inLease_race :
    Processing (race.foldl (step twoInstances {}) init) 0 ∧
      Always (step twoInstances {}) (Exclusive twoInstances) init race := by
  have hclock : Always (step twoInstances {}) (fun s => s.clock ≤ 5) init race := by
    decide
  refine ⟨⟨by decide, by decide⟩, exclusive_of_inLease twoInstances {} race ?_⟩
  refine hclock.mono fun s hs r t _ _ => ?_
  have hlease := lease_twoInstances r
  have hstored : (twoInstances r).repo.expiresAt t =
      (t + (twoInstances r).repo.lease + 500000) / 1000000 * 1000000 := rfl
  omega

lemma grantedAt_step {e : Event} {r t : ℕ}
    (h : ((step w deps s e).runs r).grantedAt = some t) :
    (s.runs r).grantedAt = some t ∨ t = s.clock := by
  cases e with
  | tick d => exact .inl h
  | retryFile fileId => exact .inl h
  | call r' a => exact .inl (by rwa [(step_call w deps s r' a).2.2.2 r] at h)
  | stop r' =>
    left
    by_cases hr : r = r'
    · subst hr
      simpa [step, State.setRun] using h
    · simpa [step, State.setRun, Function.update_of_ne hr] using h
  | db r' =>
    unfold step at h
    dsimp only at h
    split_ifs at h with hst
    · exact .inl h
    · rcases hd : (s.runs r').pc.dbCall with _ | c
      · rw [hd] at h
        exact .inl h
      · rw [hd] at h
        by_cases hr : r = r'
        · subst hr
          simp only [State.dbStep, State.setRun, Function.update_self] at h
          -- only a grant sets the time, to the clock of this step
          split_ifs at h
          · exact .inr (Option.some.inj h).symm
          · exact .inl h
        · exact .inl (by simpa [State.dbStep, State.setRun, Function.update_of_ne hr] using h)

lemma always_grantedAt_ge {c : ℕ} (hc : c ≤ s.clock) (hnone : ∀ r, (s.runs r).grantedAt = none)
    (l : List Event) :
    Always (step w deps) (fun s => ∀ r t, (s.runs r).grantedAt = some t → c ≤ t) s l := by
  have hboth : Always (step w deps)
      (fun s => c ≤ s.clock ∧ ∀ r t, (s.runs r).grantedAt = some t → c ≤ t) s l := by
    refine always_of_step (fun s e hs => ⟨?_, fun r t ht => ?_⟩) ⟨hc, fun r t ht => ?_⟩ l
    · exact hs.1.trans (clock_step w deps s e)
    · rcases grantedAt_step ht with hold | rfl
      · exact hs.2 r t hold
      · exact hs.1
    · rw [hnone] at ht
      cases ht
  exact hboth.mono fun _ hs => hs.2

/-- `a` is granted the file at 0.3 s, for which the row says that its lease ends at 600 s; `b` is
granted it at 600.1 s and starts, and `a` marks its success at 600.25 s. -/
def roundedLease : List Event :=
  [.tick 300000, .call 0 (.task (some 3)), .db 0, .db 0, .tick 599800000,
    .call 1 (.task (some 3)), .db 1, .db 1, .tick 150000,
    .call 0 (.result { status := .success }), .db 0,
    .call 1 (.result { status := .success }), .db 1]

lemma timely_roundedLease :
    Always (step twoInstances {}) (Timely twoInstances) init roundedLease := by
  have hclock : Always (step twoInstances {}) (fun s => s.clock ≤ 600250000) init
      roundedLease := by
    decide +kernel
  have hgranted : Always (step twoInstances {})
      (fun s => ∀ r t, (s.runs r).grantedAt = some t → 300000 ≤ t) init roundedLease := by
    have hstart : (step twoInstances {} init (.tick 300000)).clock = 300000 := Nat.zero_add _
    refine always_cons.mpr ⟨?_, always_grantedAt_ge hstart.ge (fun _ => rfl) _⟩
    intro r t ht
    cases ht
  refine hclock.mono₂ (fun s hs hs' r t _ ht => ?_) hgranted
  have hlease := lease_twoInstances r
  have hge := hs' r t ht
  omega

/-- A claim timeout is no bound for the marks of a run: the lease in the row may be shorter. -/
theorem not_exclusive_roundedLease :
    ¬ ∀ (w : ℕ → Worker) (deps : Deps) (l : List Event),
      Always (step w deps) (Timely w) init l → Always (step w deps) (Exclusive w) init l := by
  intro h
  have hall := h twoInstances {} roundedLease timely_roundedLease
  have hboth := always_iff_states.mp hall (roundedLease.take 8) (List.take_prefix _ _)
  have hsame : (0 : ℕ) = 1 :=
    hboth 0 1 rfl ⟨by decide +kernel, by decide +kernel⟩ ⟨by decide +kernel, by decide +kernel⟩
  omega

/-! ### Fencing -/

lemma repeats_of_row_eq {p : Repository} {ref : FileRef} {now : ℕ} {t : Table} {c : Call}
    (ht : terminalMark c = true)
    (h : (p.perform ref now t c).2.row ref.toKey = t.row ref.toKey) {row : Row}
    (hrow : t.row ref.toKey = some row) : Repeats row now c := by
  cases c with
  | markSuccess rc vc ms =>
    rw [perform_markSuccess, row_markSuccess, hrow] at h
    have h' := Option.some.inj h
    exact ⟨by rw [← h'], by rw [← h'], by rw [← h'], by rw [← h'], by rw [← h']⟩
  | markFailed et em =>
    rw [perform_markFailed, row_markFailed, hrow] at h
    have hcount := congrArg Row.retryCount (Option.some.inj h)
    dsimp only at hcount
    omega
  | markSkipped reason =>
    rw [perform_markSkipped, row_markSkipped, hrow] at h
    have h' := Option.some.inj h
    exact ⟨by rw [← h'], by rw [← h']⟩
  | _ => cases ht

lemma table_step_terminal {r : ℕ} {c : Call} {e : Event} (h : TerminalMark s r c e) :
    (step w deps s e).table = (s.perform w r c).2 := by
  cases e with
  | db r' =>
    obtain ⟨rfl, hst, hc, -⟩ := h
    simp [step, hst, hc, State.dbStep]
  | _ => cases h

lemma success_perform (p : Repository) (ref : FileRef) (now : ℕ) {t : Table} {c : Call}
    (hc : terminalMark c = false) {k : Key} {row : Row} (hrow : t.row k = some row)
    (hs : row.status = .success) :
    ∃ row', (p.perform ref now t c).2.row k = some row' ∧ row'.status = .success := by
  by_cases hk : k = ref.toKey
  swap
  · exact ⟨row, (row_perform_of_ne p now c hk).trans hrow, hs⟩
  subst hk
  obtain ⟨row', hrow', rfl | hch⟩ := row_perform_of_some hrow
  · exact ⟨_, hrow', hs⟩
  cases hch with
  | claim hcl => simp [Row.claimable, hs] at hcl
  | start _ hst => simp [hs] at hst
  | archived path _ => exact ⟨_, hrow', hs⟩
  | _ => cases hc

/-- The step keeps a `SUCCESS` row, unless a run that holds the row marks it. -/
lemma success_step (h : Inv w s) {e : Event} (hm : MarksInTime w s e) {k : Key} {row : Row}
    (hrow : s.table.row k = some row) (hs : row.status = .success) :
    ∃ row', (step w deps s e).table.row k = some row' ∧ row'.status = .success := by
  cases e with
  | tick d => exact ⟨row, hrow, hs⟩
  | stop r => exact ⟨row, hrow, hs⟩
  | retryFile fileId =>
    refine ⟨row, ?_, hs⟩
    show (retryFile fileId s.table).2.row k = some row
    rw [row_retryFile, hrow]
    simp [Row.retry, hs]
  | call r a =>
    refine ⟨row, ?_, hs⟩
    unfold step
    dsimp only
    split_ifs <;> exact hrow
  | db r =>
    rcases hst : (s.runs r).stopped with _ | _
    swap
    · exact ⟨row, by simp [step, hst, hrow], hs⟩
    rcases hd : (s.runs r).pc.dbCall with _ | c
    · exact ⟨row, by simp [step, hst, hd, hrow], hs⟩
    have htable : (step w deps s (.db r)).table = (s.perform w r c).2 := by
      simp [step, hst, hd, State.dbStep]
    rw [htable]
    rcases ht : terminalMark c with _ | _
    · exact success_perform (w r).repo (w r).ref s.clock ht hrow hs
    · by_cases hk : k = (w r).key
      · -- a run that marks a row nobody holds is overtaken, so its mark repeats the row
        have hmark : TerminalMark s r c (.db r) := ⟨rfl, hst, hd, ht⟩
        have ho : Overtaken w s r := by
          rcases h.live r (live_of_terminalMark hmark) with ho | ⟨-, t, row', -, hrow', hh, -⟩
          · exact ho
          · rw [← hk, hrow] at hrow'
            obtain rfl := Option.some.inj hrow'
            simp [Row.Held, hs] at hh
        refine ⟨row, ?_, hs⟩
        rw [hk, ← hrow, hk]
        exact row_perform_of_repeats ht (hm r c hmark ho)
      · exact ⟨row, (row_perform_of_ne (w r).repo s.clock c hk).trans hrow, hs⟩

lemma fenced_of_marksInTime (h : Inv w s) {e : Event} (hm : MarksInTime w s e) :
    Fenced w deps s e := by
  refine ⟨fun r c hmark ho => ?_, fun k row hrow hs => ⟨success_step h hm hrow hs, ?_⟩⟩
  · rw [table_step_terminal hmark]
    have ht : terminalMark c = true := by
      cases e with
      | db r' => exact hmark.2.2.2
      | _ => cases hmark
    exact row_perform_of_repeats ht (hm r c hmark ho)
  · rintro r m - rfl -
    have h1 := (tryClaim_of_some hrow (w r).repo m s.clock).1
    have hcl : row.claimable m s.clock = false := by simp [Row.claimable, hs]
    simp [State.perform, isGrant, h1, hcl]

lemma marksInTime_of_fenced {e : Event} (h : Fenced w deps s e) : MarksInTime w s e := by
  intro r c hmark ho row hrow
  have heq := h.1 r c hmark ho
  rw [table_step_terminal hmark] at heq
  have ht : terminalMark c = true := by
    cases e with
    | db r' => exact hmark.2.2.2
    | _ => cases hmark
  exact repeats_of_row_eq ht heq hrow

/-- **Fencing.** A run of the protocol is fenced exactly when no overtaken run makes a
terminal mark that would write anything new. -/
theorem fenced_iff_marksInTime (w : ℕ → Worker) (deps : Deps) (l : List Event) :
    Steps (step w deps) (Fenced w deps) init l ↔ Steps (step w deps) (MarksInTime w) init l := by
  constructor
  · exact Steps.mono fun _ _ h => marksInTime_of_fenced h
  · have hstep : ∀ s e, Inv w s → MarksInTime w s e → Inv w (step w deps s e) :=
      fun _ e hi hm => hi.step e hm
    exact steps_of_inv hstep (fun _ _ hi hm => fenced_of_marksInTime hi hm) inv_init

/-- `a` takes longer than its lease; `b` takes the file over and loads it; then `a` marks
its attempt as failed. -/
def lateMark : List Event :=
  [.call 0 (.task (some 3)), .db 0, .db 0, .tick 601000000, .call 1 (.task (some 3)), .db 1,
    .db 1, .call 1 (.result { status := .success }), .db 1,
    .call 0 (.result { status := .retry, error := some (.retryable "timeout") })]

theorem not_fenced_lateMark :
    ¬ ∀ (w : ℕ → Worker) (deps : Deps) (l : List Event),
      Steps (step w deps) (Fenced w deps) init l := by
  intro h
  have hf := (h twoInstances {} (lateMark ++ [.db 0])).at
  obtain ⟨⟨row', hrow', hs'⟩, -⟩ := hf.2 ⟨"t", "/in/x.csv", 0⟩ _ rfl rfl
  cases hrow'
  cases hs'

end Tdcs.ClaimSafety
