import Tdcs.Lib.Run
import Tdcs.FileProcessor

/-!
The claim protocol: any number of runs of `FileProcessor.__call__`, on any instances,
against one table `processed_files`.

Each repository method is one atomic step at the time the clock shows. Runs interleave in
any order, with each other and with `retry_file`; a call may raise instead of answering,
and a run may stop forever at any point, as it does when its process dies.

The invariant: a run between its claim and its terminal mark holds its row, unless it has
outlived its lease and another run was granted the row. It is kept as long as no run of
the second kind writes its mark into the row.
-/

namespace Tdcs.ClaimProtocol

open Tdcs.Lib Tdcs.Lib.Run Tdcs.ProcessedFileRepo Tdcs.FileProcessor

/-- What a run is started with: the repository of its instance and its file. -/
structure Worker where
  repo : Repository
  ref : FileRef

def Worker.key (w : Worker) : Key := w.ref.toKey

/-- A run: where its body stands, when its claim was granted, whether it has stopped. -/
structure FileRun where
  pc : Pc := .getTask
  grantedAt : Option ℕ := none
  stopped : Bool := false

structure State where
  clock : ℕ
  table : Table
  runs : ℕ → FileRun
  /-- The run that was granted the key last. -/
  holder : Key → Option ℕ

/-- An empty table, and no run has begun. -/
def init : State := ⟨0, Table.empty, fun _ => {}, fun _ => none⟩

inductive Event
  | tick (d : ℕ)
  /-- The pending call of the run, which is no repository method, answers; or the pending
  call raises. -/
  | call (r : ℕ) (a : Answer)
  /-- The run carries out the repository method it stands at. -/
  | db (r : ℕ)
  | stop (r : ℕ)
  | retryFile (fileId : ℕ)

def State.setRun (s : State) (r : ℕ) (x : FileRun) : State :=
  { s with runs := Function.update s.runs r x }

/-- The reply that grants a claim. -/
def isGrant : Call → Reply → Bool
  | .tryClaim _, .granted true => true
  | _, _ => false

variable (w : ℕ → Worker) (deps : Deps)

/-- The reply of the method `c` to run `r`, and the table after it. -/
def State.perform (s : State) (r : ℕ) (c : Call) : Reply × Table :=
  (w r).repo.perform (w r).ref s.clock s.table c

/-- Run `r` carries out the method `c`. -/
def State.dbStep (s : State) (r : ℕ) (c : Call) : State :=
  let (reply, t) := s.perform w r c
  let x := s.runs r
  let grant := isGrant c reply
  { s.setRun r { x with
      pc := resume deps x.pc (.db reply)
      grantedAt := if grant then some s.clock else x.grantedAt } with
    table := t
    holder := if grant then Function.update s.holder (w r).key (some r) else s.holder }

def step (s : State) : Event → State
  | .tick d => { s with clock := s.clock + d }
  | .stop r => s.setRun r { s.runs r with stopped := true }
  | .retryFile fileId => { s with table := (retryFile fileId s.table).2 }
  | .call r a =>
    let x := s.runs r
    if x.stopped || (x.pc.dbCall.isSome && !a.isExc) then s
    else s.setRun r { x with pc := resume deps x.pc a }
  | .db r =>
    if (s.runs r).stopped then s
    else match (s.runs r).pc.dbCall with
      | none => s
      | some c => s.dbStep w deps r c

/-- The run has not stopped and stands between its claim and its terminal mark. -/
def Live (s : State) (r : ℕ) : Prop :=
  (s.runs r).stopped = false ∧ (s.runs r).pc.phase ≠ .idle

/-- The run was granted its key, and after the lease in the row had run out another run was. -/
def Overtaken (s : State) (r : ℕ) : Prop :=
  ∃ t r' t', (s.runs r).grantedAt = some t ∧ s.holder (w r).key = some r' ∧ r' ≠ r ∧
    (s.runs r').grantedAt = some t' ∧ (w r).repo.expiresAt t < t'

/-- The run carries out the terminal mark `c`. -/
def TerminalMark (s : State) (r : ℕ) (c : Call) : Event → Prop
  | .db r' => r' = r ∧ (s.runs r).stopped = false ∧ (s.runs r).pc.dbCall = some c ∧
      terminalMark c = true
  | _ => False

/-- The row shows already what the mark `c` writes. -/
def Repeats (row : Row) (now : ℕ) : Call → Prop
  | .markSuccess rc vc ms => row.status = .success ∧ row.processedAt = some (sqlNow now) ∧
      row.rowCount = rc ∧ row.validRowCount = vc ∧ row.processingTimeMs = some ms
  | .markSkipped reason => row.status = .skipped ∧ row.errorMessage = some reason
  | _ => False

/-- The step is no terminal mark of an overtaken run, unless it writes nothing new. -/
def MarksInTime (s : State) (e : Event) : Prop :=
  ∀ r c, TerminalMark s r c e → Overtaken w s r →
    ∀ row, s.table.row (w r).key = some row → Repeats row s.clock c

/-- The run is the last one granted its key, the row is held, and its lease is the run's
own or missing. -/
def Holds (s : State) (r : ℕ) : Prop :=
  s.holder (w r).key = some r ∧ ∃ t row, (s.runs r).grantedAt = some t ∧
    s.table.row (w r).key = some row ∧ row.Held ∧
    (row.claimExpiresAt = none ∨ row.claimExpiresAt = some ((w r).repo.expiresAt t))

/-- Every live run holds its row or is overtaken. -/
structure Inv (s : State) : Prop where
  live : ∀ r, Live s r → Overtaken w s r ∨ Holds w s r
  granted : ∀ r t, (s.runs r).grantedAt = some t → t ≤ s.clock
  failed : FailedUnleased s.table

variable {w deps} {s s' : State}

lemma inv_init : Inv w init where
  live _ h := absurd rfl h.2
  granted _ _ h := by cases h
  failed := failedUnleased_empty

/-! ### Steps that grant nothing -/

/-- A held row stays held, with its lease. -/
def Kept (t t' : Table) (k : Key) : Prop :=
  ∀ row, t.row k = some row → row.Held →
    ∃ row', t'.row k = some row' ∧ row'.Held ∧ row'.claimExpiresAt = row.claimExpiresAt

lemma kept_of_eq {t t' : Table} {k : Key} (h : t'.row k = t.row k) : Kept t t' k :=
  fun row hrow hh => ⟨row, h.trans hrow, hh, rfl⟩

/-- A step without a grant that keeps the rows of the runs which hold theirs keeps the
invariant. -/
lemma Inv.of_kept (h : Inv w s)
    (hg : ∀ r, (s'.runs r).grantedAt = (s.runs r).grantedAt) (hh : s'.holder = s.holder)
    (hclock : s.clock ≤ s'.clock) (hlive : ∀ r, Live s' r → Live s r)
    (hkept : ∀ r, Live s' r → Holds w s r → Kept s.table s'.table (w r).key)
    (hf : FailedUnleased s'.table) : Inv w s' where
  live r hr := by
    rcases h.live r (hlive r hr) with ⟨t, r', t', h1, h2, hne, h3, hlt⟩ | hholds
    · refine Or.inl ⟨t, r', t', ?_, ?_, hne, ?_, hlt⟩
      · rw [hg, h1]
      · rw [hh, h2]
      · rw [hg, h3]
    · have hk := hkept r hr hholds
      obtain ⟨h1, t, row, h2, hrow, hst, hlease⟩ := hholds
      obtain ⟨row', hrow', hst', he⟩ := hk row hrow hst
      refine Or.inr ⟨?_, t, row', ?_, hrow', hst', ?_⟩
      · rw [hh, h1]
      · rw [hg, h2]
      · rw [he]
        exact hlease
  granted r t hr := by
    have := h.granted r t (by rw [← hg, hr])
    omega
  failed := hf

lemma kept_retryFile (fileId : ℕ) (t : Table) (k : Key) : Kept t (retryFile fileId t).2 k := by
  intro row hrow hh
  have hne : row.status ≠ .failed := by
    rintro hs
    simp [Row.Held, hs] at hh
  refine ⟨row, ?_, hh, rfl⟩
  rw [row_retryFile, hrow]
  simp [Row.retry, hne]

lemma kept_perform (p : Repository) (ref : FileRef) (now : ℕ) (t : Table) {c : Call}
    (hc : terminalMark c = false) (hg : isGrant c (p.perform ref now t c).1 = false) (k : Key) :
    Kept t (p.perform ref now t c).2 k := by
  by_cases hk : k = ref.toKey
  swap
  · exact kept_of_eq (row_perform_of_ne p now c hk)
  subst hk
  intro row hrow hh
  obtain ⟨row', hrow', rfl | hch⟩ := row_perform_of_some hrow
  · exact ⟨_, hrow', hh, rfl⟩
  cases hch with
  | @claim m _ hcl =>
    rw [perform_tryClaim, (tryClaim_of_some hrow p m now).1, hcl] at hg
    cases hg
  | start _ _ => exact ⟨_, hrow', Or.inr rfl, rfl⟩
  | archived path hs => simp [Row.Held, hs] at hh
  | _ => cases hc

/-! ### Repository methods -/

lemma dbStep_eq {r : ℕ} {c : Call} {reply : Reply} {t : Table}
    (h : s.perform w r c = (reply, t)) : s.dbStep w deps r c =
      { s.setRun r { s.runs r with
          pc := resume deps (s.runs r).pc (.db reply)
          grantedAt := if isGrant c reply then some s.clock else (s.runs r).grantedAt } with
        table := t
        holder := if isGrant c reply then Function.update s.holder (w r).key (some r)
          else s.holder } := by
  rw [State.dbStep, h]

lemma isGrant_terminal {c : Call} (ht : terminalMark c = true) (reply : Reply) :
    isGrant c reply = false := by
  cases c <;> first | rfl | cases ht

lemma phase_resume_db {pc : Pc} {c : Call} {reply : Reply} (hc : pc.dbCall = some c)
    (hg : isGrant c reply = false) (hp : (resume deps pc (.db reply)).phase ≠ .idle) :
    pc.phase ≠ .idle := by
  cases pc <;> simp only [Pc.dbCall, Option.some.injEq, reduceCtorEq] at hc <;> subst hc <;>
    first
    | simp [Pc.phase]; done
    | rcases reply with (_ | _) | _ | _ | _ <;> simp [resume, isGrant, Pc.phase] at hg hp

lemma phase_terminal {pc : Pc} {c : Call} (hc : pc.dbCall = some c)
    (ht : terminalMark c = true) : pc.phase = .processing := by
  cases pc <;> simp only [Pc.dbCall, Option.some.injEq, reduceCtorEq] at hc <;> subst hc <;>
    first | rfl | cases ht

lemma pc_of_tryClaim {pc : Pc} {m : ℕ} (h : pc.dbCall = some (.tryClaim m)) :
    pc = .tryClaim m := by
  cases pc <;> simp [Pc.dbCall] at h
  rw [h]

lemma granted_of_isGrant {r m : ℕ}
    (h : isGrant (.tryClaim m) (s.perform w r (.tryClaim m)).1 = true) :
    ((w r).repo.tryClaim (w r).ref m s.clock s.table).1 = true := by
  rcases hb : ((w r).repo.tryClaim (w r).ref m s.clock s.table).1 with _ | _
  · simp [State.perform, isGrant, hb] at h
  · rfl

lemma phase_after_terminal {pc : Pc} {c : Call} (hc : pc.dbCall = some c)
    (ht : terminalMark c = true) (deps : Deps) (p : Repository) (ref : FileRef) (now : ℕ)
    (t : Table) : (resume deps pc (.db (p.perform ref now t c).1)).phase = .idle := by
  cases pc <;> simp only [Pc.dbCall, Option.some.injEq, reduceCtorEq] at hc <;> subst hc <;>
    first | (cases ht; done) | skip
  all_goals simp only [perform_markSuccess, perform_markFailed, perform_markSkipped, resume,
    afterRetry]
  all_goals try rfl
  all_goals split_ifs <;> rfl

lemma live_setRun {r r' : ℕ} {x : FileRun} (hl : Live s' r')
    (hruns : s'.runs = Function.update s.runs r x) (hst : x.stopped = (s.runs r).stopped)
    (hx : x.pc.phase ≠ .idle → (s.runs r).pc.phase ≠ .idle) : Live s r' := by
  by_cases he : r' = r
  · subst he
    rw [Live, hruns, Function.update_self] at hl
    exact ⟨hst ▸ hl.1, hx hl.2⟩
  · rwa [Live, hruns, Function.update_of_ne he] at hl

lemma step_call (w : ℕ → Worker) (deps : Deps) (s : State) (r : ℕ) (a : Answer) :
    (step w deps s (.call r a)).table = s.table ∧
      (step w deps s (.call r a)).holder = s.holder ∧
      (step w deps s (.call r a)).clock = s.clock ∧
      ∀ r', ((step w deps s (.call r a)).runs r').grantedAt = (s.runs r').grantedAt := by
  unfold step
  dsimp only
  split_ifs
  · exact ⟨rfl, rfl, rfl, fun _ => rfl⟩
  · refine ⟨rfl, rfl, rfl, fun r' => ?_⟩
    by_cases he : r' = r
    · subst he
      simp [State.setRun]
    · simp [State.setRun, Function.update_of_ne he]

lemma clock_step (w : ℕ → Worker) (deps : Deps) (s : State) (e : Event) :
    s.clock ≤ (step w deps s e).clock := by
  cases e with
  | tick d => exact Nat.le_add_right _ _
  | stop r => exact le_rfl
  | retryFile fileId => exact le_rfl
  | call r a => exact (step_call w deps s r a).2.2.1.ge
  | db r =>
    unfold step
    dsimp only
    split_ifs
    · exact le_rfl
    · rcases (s.runs r).pc.dbCall with _ | c <;> exact le_rfl

/-- Only a grant makes a run live. -/
lemma live_step {e : Event} {r' : ℕ} (hl : Live (step w deps s e) r') :
    Live s r' ∨ ∃ m, e = .db r' ∧ (s.runs r').stopped = false ∧ (s.runs r').pc = .tryClaim m ∧
      isGrant (.tryClaim m) (s.perform w r' (.tryClaim m)).1 = true := by
  cases e with
  | tick d => exact .inl hl
  | retryFile fileId => exact .inl hl
  | stop r =>
    have hne : r' ≠ r := by
      rintro rfl
      simp [Live, step, State.setRun] at hl
    exact .inl (by simpa [Live, step, State.setRun, Function.update_of_ne hne] using hl)
  | call r a =>
    -- what the collaborators answer leads nowhere behind `try_claim`
    left
    unfold step at hl
    dsimp only at hl
    split_ifs at hl with hc
    · exact hl
    · have hpc : (s.runs r).pc.dbCall = none ∨ a.isExc = true := by
        simp only [Bool.or_eq_true, Bool.and_eq_true, not_or, not_and] at hc
        rcases hd : (s.runs r).pc.dbCall with _ | c
        · exact Or.inl rfl
        · exact Or.inr (by simpa using hc.2 (by simp [hd]))
      refine live_setRun hl rfl rfl fun hp => ?_
      rcases phase_resume deps hpc with hp' | hp'
      · exact absurd hp' hp
      · rwa [← hp']
  | db r =>
    unfold step at hl
    dsimp only at hl
    split_ifs at hl with hst
    · exact .inl hl
    · rcases hd : (s.runs r).pc.dbCall with _ | c
      · rw [hd] at hl
        exact .inl hl
      · rw [hd] at hl
        rcases hg : isGrant c (s.perform w r c).1 with _ | _
        · exact .inl (live_setRun hl rfl rfl fun hp => phase_resume_db hd hg hp)
        · obtain ⟨m, rfl⟩ : ∃ m, c = .tryClaim m := by
            cases c <;> first | exact ⟨_, rfl⟩ | cases hg
          by_cases he : r' = r
          · subst he
            exact .inr ⟨m, rfl, by simpa using hst, pc_of_tryClaim hd, hg⟩
          · exact .inl (by simpa [Live, State.dbStep, State.setRun, Function.update_of_ne he]
              using hl)

lemma table_step_db {r : ℕ} {c : Call} (hst : (s.runs r).stopped = false)
    (hc : (s.runs r).pc.dbCall = some c) :
    (step w deps s (.db r)).table = (s.perform w r c).2 := by
  simp [step, hst, hc, State.dbStep]

/-- What a step does to the row of a key: nothing, the manual retry, or the method a run on the
key carries out. -/
lemma row_step (w : ℕ → Worker) (deps : Deps) (s : State) (e : Event) (k : Key) :
    (step w deps s e).table.row k = s.table.row k ∨
      (∃ fileId, e = .retryFile fileId ∧
        (step w deps s e).table.row k = (s.table.row k).map (Row.retry fileId)) ∨
      ∃ r c, e = .db r ∧ (s.runs r).stopped = false ∧ (s.runs r).pc.dbCall = some c ∧
        (w r).key = k ∧ (step w deps s e).table.row k = (s.perform w r c).2.row k := by
  cases e with
  | tick d => exact .inl rfl
  | stop r => exact .inl rfl
  | call r a => exact .inl (by rw [(step_call w deps s r a).1])
  | retryFile fileId => exact .inr (.inl ⟨fileId, rfl, row_retryFile fileId s.table k⟩)
  | db r =>
    rcases hst : (s.runs r).stopped with _ | _
    swap
    · exact .inl (by simp [step, hst])
    rcases hd : (s.runs r).pc.dbCall with _ | c
    · exact .inl (by simp [step, hst, hd])
    by_cases hk : (w r).key = k
    · exact .inr (.inr ⟨r, c, rfl, hst, hd, hk, by rw [table_step_db hst hd]⟩)
    · left
      rw [table_step_db hst hd]
      exact row_perform_of_ne (w r).repo s.clock c (Ne.symm hk)

lemma row_perform_of_repeats {p : Repository} {ref : FileRef} {now : ℕ} {t : Table} {c : Call}
    (ht : terminalMark c = true)
    (hr : ∀ row, t.row ref.toKey = some row → Repeats row now c) :
    (p.perform ref now t c).2.row ref.toKey = t.row ref.toKey := by
  cases c with
  | markSuccess rc vc ms =>
    rw [perform_markSuccess, row_markSuccess]
    rcases hrow : t.row ref.toKey with _ | row
    · rfl
    · obtain ⟨h1, h2, h3, h4, h5⟩ := hr row hrow
      cases row
      simp_all
  | markSkipped reason =>
    rw [perform_markSkipped, row_markSkipped]
    rcases hrow : t.row ref.toKey with _ | row
    · rfl
    · obtain ⟨h1, h2⟩ := hr row hrow
      cases row
      simp_all
  | markFailed et em =>
    rw [perform_markFailed, row_markFailed]
    rcases hrow : t.row ref.toKey with _ | row
    · rfl
    · cases hr row hrow
  | _ => cases ht

lemma Inv.dbStep_terminal (h : Inv w s) {r : ℕ} {c : Call} (hst : (s.runs r).stopped = false)
    (hc : (s.runs r).pc.dbCall = some c) (ht : terminalMark c = true)
    (hm : Overtaken w s r → ∀ row, s.table.row (w r).key = some row → Repeats row s.clock c) :
    Inv w (s.dbStep w deps r c) := by
  have hg := isGrant_terminal ht (s.perform w r c).1
  have hl : Live s r := ⟨hst, by rw [phase_terminal hc ht]; simp⟩
  refine h.of_kept (fun r' => ?_) ?_ le_rfl (fun r' hl' => ?_) (fun r' hl' hholds => ?_)
    (failedUnleased_perform h.failed _ _ _ _)
  · by_cases he : r' = r
    · subst he
      simp [State.dbStep, State.setRun, hg]
    · simp [State.dbStep, State.setRun, Function.update_of_ne he]
  · simp [State.dbStep, hg]
  · refine live_setRun hl' rfl rfl fun hp => ?_
    rw [phase_terminal hc ht]
    simp
  · by_cases hk : (w r').key = (w r).key
    · rcases h.live r hl with ho | hr
      · -- an overtaken run writes nothing new
        rw [hk]
        exact kept_of_eq (row_perform_of_repeats ht (hm ho))
      · -- the run that marks is the run that holds, and it is idle now
        have hrr : r' = r := by
          have h1 := hholds.1
          rw [hk, hr.1] at h1
          exact (Option.some.inj h1).symm
        subst hrr
        refine absurd ?_ hl'.2
        simp only [State.dbStep, State.setRun, Function.update_self]
        exact phase_after_terminal hc ht deps _ _ _ _
    · exact kept_of_eq (row_perform_of_ne (w r).repo s.clock c hk)

lemma Inv.dbStep_quiet (h : Inv w s) {r : ℕ} {c : Call} (hc : (s.runs r).pc.dbCall = some c)
    (ht : terminalMark c = false) (hg : isGrant c (s.perform w r c).1 = false) :
    Inv w (s.dbStep w deps r c) := by
  refine h.of_kept (fun r' => ?_) ?_ le_rfl (fun r' hl' => ?_) (fun r' _ _ => ?_)
    (failedUnleased_perform h.failed _ _ _ _)
  · by_cases he : r' = r
    · subst he
      simp [State.dbStep, State.setRun, hg]
    · simp [State.dbStep, State.setRun, Function.update_of_ne he]
  · simp [State.dbStep, hg]
  · exact live_setRun hl' rfl rfl fun hp => phase_resume_db hc hg hp
  · exact kept_perform (w r).repo (w r).ref s.clock s.table ht hg _

/-- A grant hands over a row that was absent or claimable, as a claimed row with a fresh
lease or none. -/
lemma tryClaim_granted {p : Repository} {ref : FileRef} {m now : ℕ} {t : Table}
    (hf : FailedUnleased t) (hb : (p.tryClaim ref m now t).1 = true) :
    (∀ row, t.row ref.toKey = some row → row.claimable m now = true) ∧
      ∃ row', (p.tryClaim ref m now t).2.row ref.toKey = some row' ∧ row'.status = .claimed ∧
        (row'.claimExpiresAt = none ∨ row'.claimExpiresAt = some (p.expiresAt now)) := by
  rcases hrow : t.row ref.toKey with _ | row
  · exact ⟨by simp, _, (tryClaim_of_none hrow p m now).2, rfl, Or.inr rfl⟩
  · obtain ⟨h1, h2⟩ := tryClaim_of_some hrow p m now
    have hc : row.claimable m now = true := by rw [← h1, hb]
    refine ⟨fun row' h => by cases h; exact hc, _, h2, onDuplicateKey_status hc _ _, ?_⟩
    rcases claimable_iff.mp hc with ⟨hst, hlt⟩ | ⟨hst, he⟩
    · have hnone := hf _ _ hrow hst
      rw [onDuplicateKey_of_failed hst hlt hnone]
      exact Or.inl hnone
    · rw [onDuplicateKey_of_expired hst he]
      exact Or.inr rfl

lemma Holds.expired {r m : ℕ} (h : Holds w s r)
    (hc : ∀ row, s.table.row (w r).key = some row → row.claimable m s.clock = true) :
    ∃ t, (s.runs r).grantedAt = some t ∧ (w r).repo.expiresAt t < s.clock := by
  obtain ⟨-, t, row, hg, hrow, hh, hlease⟩ := h
  refine ⟨t, hg, ?_⟩
  rcases claimable_iff.mp (hc row hrow) with ⟨hf, -⟩ | ⟨-, he⟩
  · simp [Row.Held, hf] at hh
  · obtain ⟨e, hre, hlt⟩ := expired_iff.mp he
    rcases hlease with hl | hl <;> rw [hre] at hl
    · cases hl
    · obtain rfl := Option.some.inj hl
      exact hlt

lemma Inv.dbStep_grant (h : Inv w s) {r m : ℕ} (hpc : (s.runs r).pc = .tryClaim m)
    (hb : ((w r).repo.tryClaim (w r).ref m s.clock s.table).1 = true) :
    Inv w (s.dbStep w deps r (.tryClaim m)) := by
  obtain ⟨hclaim, row', hrow', hs', hlease⟩ := tryClaim_granted h.failed hb
  have hperf : s.perform w r (.tryClaim m) = (.granted true, _) :=
    Prod.ext (congrArg Reply.granted hb) rfl
  rw [dbStep_eq hperf]
  refine ⟨fun r' hl' => ?_, fun r' t' ht' => ?_,
    failedUnleased_perform h.failed _ _ _ (.tryClaim m)⟩
  · by_cases he : r' = r
    · -- the run that is granted the key holds it
      subst he
      refine Or.inr ⟨by simp [isGrant], s.clock, row', ?_, hrow', Or.inl hs', hlease⟩
      simp [State.setRun, isGrant]
    · have hl₀ : Live s r' := by simpa [Live, State.setRun, Function.update_of_ne he] using hl'
      by_cases hk : (w r').key = (w r).key
      · -- another run on the key is overtaken, now if not before
        have hlate : ∃ t, (s.runs r').grantedAt = some t ∧
            (w r').repo.expiresAt t < s.clock := by
          rcases h.live r' hl₀ with ⟨t, r₁, t₁, h1, -, -, h3, hlt⟩ | hholds
          · have := h.granted r₁ t₁ h3
            exact ⟨t, h1, by omega⟩
          · refine hholds.expired fun row hrow => hclaim row ?_
            rw [hk] at hrow
            exact hrow
        obtain ⟨t, ht, hlt⟩ := hlate
        refine Or.inl ⟨t, r, s.clock, ?_, ?_, Ne.symm he, ?_, hlt⟩
        · simp [State.setRun, Function.update_of_ne he, ht]
        · simp [isGrant, hk]
        · simp [State.setRun, isGrant]
      · -- a run on another key is as it was
        have hrow : ((w r).repo.tryClaim (w r).ref m s.clock s.table).2.row (w r').key =
            s.table.row (w r').key := row_perform_of_ne (w r).repo s.clock (.tryClaim m) hk
        rcases h.live r' hl₀ with ⟨t, r₁, t₁, h1, h2, hne, h3, hlt⟩ | ⟨h1, t, row, h2, h3, h4⟩
        · obtain ⟨t₂, h3', hle⟩ : ∃ t₂, ((Function.update s.runs r { s.runs r with
              pc := resume deps (s.runs r).pc (.db (.granted true))
              grantedAt := some s.clock }) r₁).grantedAt = some t₂ ∧ t₁ ≤ t₂ := by
            by_cases hr : r₁ = r
            · exact ⟨s.clock, by simp [hr], h.granted r₁ t₁ h3⟩
            · exact ⟨t₁, by simp [Function.update_of_ne hr, h3], le_rfl⟩
          refine Or.inl ⟨t, r₁, t₂, ?_, ?_, hne, h3', by omega⟩
          · simp [State.setRun, Function.update_of_ne he, h1]
          · simp [isGrant, Function.update_of_ne hk, h2]
        · refine Or.inr ⟨?_, t, row, ?_, hrow.trans h3, h4⟩
          · simp [isGrant, Function.update_of_ne hk, h1]
          · simp [State.setRun, Function.update_of_ne he, h2]
  · by_cases he : r' = r
    · subst he
      simp only [State.setRun, isGrant, if_true, Function.update_self, Option.some.injEq] at ht'
      exact ht'.symm.le
    · refine h.granted r' t' ?_
      simpa [State.setRun, Function.update_of_ne he] using ht'

/-- **The step lemma.** A step that marks in time keeps the invariant. -/
theorem Inv.step (h : Inv w s) (e : Event) (hm : MarksInTime w s e) :
    Inv w (ClaimProtocol.step w deps s e) := by
  cases e with
  | tick d =>
    exact h.of_kept (fun _ => rfl) rfl (Nat.le_add_right _ _) (fun _ hl => hl)
      (fun _ _ _ => kept_of_eq rfl) h.failed
  | stop r =>
    refine h.of_kept (fun r' => ?_) rfl le_rfl (fun r' hl => ?_) (fun _ _ _ => kept_of_eq rfl)
      h.failed
    · by_cases he : r' = r
      · subst he
        simp [ClaimProtocol.step, State.setRun]
      · simp [ClaimProtocol.step, State.setRun, Function.update_of_ne he]
    · rcases live_step hl with hl | ⟨m, he, -⟩
      · exact hl
      · cases he
  | retryFile fileId =>
    exact h.of_kept (fun _ => rfl) rfl le_rfl (fun _ hl => hl)
      (fun _ _ _ => kept_retryFile fileId s.table _) (failedUnleased_retryFile h.failed fileId)
  | call r a =>
    obtain ⟨htable, hholder, hclock, hgranted⟩ := step_call w deps s r a
    refine h.of_kept hgranted hholder hclock.ge (fun r' hl => ?_)
      (fun _ _ _ => kept_of_eq (by rw [htable])) (by rw [htable]; exact h.failed)
    rcases live_step hl with hl | ⟨m, he, -⟩
    · exact hl
    · cases he
  | db r =>
    unfold ClaimProtocol.step
    dsimp only
    split_ifs with hst
    · exact h
    · rw [Bool.not_eq_true] at hst
      rcases hd : (s.runs r).pc.dbCall with _ | c
      · exact h
      · rcases ht : terminalMark c with _ | _
        · rcases hg : isGrant c (s.perform w r c).1 with _ | _
          · -- neither a terminal mark nor a grant
            exact h.dbStep_quiet hd ht hg
          · -- a grant: whoever held the row before is overtaken
            obtain ⟨m, rfl⟩ : ∃ m, c = .tryClaim m := by
              cases c <;> first | exact ⟨_, rfl⟩ | cases hg
            exact h.dbStep_grant (pc_of_tryClaim hd) (granted_of_isGrant hg)
        · exact h.dbStep_terminal hst hd ht (hm r c ⟨rfl, hst, hd, ht⟩)

end Tdcs.ClaimProtocol
