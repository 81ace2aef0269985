import Tdcs.LoadExact
import Tdcs.Lib.Run
import Tdcs.Lib.Transaction

/-!
The life of the month tables: `monthly_table_registry`, written by the routers of any number of
processes and by `archive_old_tables`, while calls of `ETLPipeline.execute` load rows.

A call of `execute` is cut at its calls. Between them the other workers and the archive take
their steps; each transaction on the registry is one step.
-/

namespace Tdcs.TableLifecycle

open Tdcs.Lib Tdcs.Lib.Run Tdcs.Lib.Transaction Tdcs.Extractor Tdcs.Pipeline

inductive Lifecycle | active | archived | dropped
  deriving DecidableEq, Repr

structure RegistryRow where
  yearMonth : String
  lifecycleStatus : Lifecycle := .active
  deriving DecidableEq, Repr

/-- The unique key `uk_task_table`: the task and the table. -/
abbrev Key := String × String

abbrev Registry := Dict Key RegistryRow

/-- `table_name.rsplit("_", 1)[-1]`, with a hyphen after the year. -/
def yearMonthOf (table : String) : String :=
  let ym := (table.toList.reverse.takeWhile (· ≠ '_')).reverse
  String.ofList (ym.take 4 ++ '-' :: ym.drop 4)

/-- `strftime("%Y-%m")` of the month number `12 * year + month - 1`. -/
def formatYm (n : ℕ) : String :=
  let month := n % 12 + 1
  toString (n / 12) ++ "-" ++ (if month < 10 then "0" else "") ++ toString month

/-- `date.today() - relativedelta(months=retention_months)`, which raises before the year 1. -/
def cutoff (today : ℕ) (retentionMonths : ℤ) : Option String :=
  if 12 ≤ today - retentionMonths then some (formatYm (today - retentionMonths).toNat) else none

/-- `INSERT IGNORE`. -/
def register (taskId table : String) (r : Registry) : Registry :=
  match r.get? (taskId, table) with
  | some _ => r
  | none => r.set (taskId, table) { yearMonth := yearMonthOf table }

/-- The assignment of `archive_old_tables`, behind its `WHERE`. -/
def RegistryRow.archive (row : RegistryRow) (cutoff : String) : RegistryRow :=
  if row.yearMonth ≤ cutoff ∧ row.lifecycleStatus = .active then
    { row with lifecycleStatus := .archived }
  else row

def archiveOldTables (cfg : TaskConfig) (today : ℕ) (r : Registry) : Registry :=
  if cfg.retentionMonths ≤ 0 then r
  else match cutoff today cfg.retentionMonths with
    | none => r
    | some c => r.mapValues fun k row => if k.1 = cfg.taskId then row.archive c else row

variable {V : Type*}

/-- A call of `execute` under way: the rows of the batches to come, the groups of the batch at
hand that are still to be loaded, and whether `ensure_table_exists` has returned for the first
of them. -/
structure Job (V : Type*) where
  cfg : TaskConfig
  batches : List (List (Row V))
  groups : List (String × List (Row V)) := []
  ensured : Bool := false

structure State (V : Type*) where
  registry : Registry
  /-- `_created` of the router of each process. -/
  created : ℕ → List String
  jobs : ℕ → Option (Job V)

def init : State V := ⟨Dict.empty, fun _ => [], fun _ => none⟩

inductive Event (V : Type*)
  /-- The worker is given a file: what the extractor and the transform leave of its batches. -/
  | execute (i : ℕ) (cfg : TaskConfig) (batches : List (List (Row V)))
  /-- The worker groups its next batch; the clock shows the month `now k` at the `k`-th row. -/
  | group (i : ℕ) (now : ℕ → String)
  | ensure (i : ℕ) (outcome : Outcome)
  /-- The worker calls `load_batch`, which returns or raises. -/
  | load (i : ℕ) (returns : Bool)
  | archive (cfg : TaskConfig) (today : ℕ) (outcome : Outcome)

def State.setJob (s : State V) (i : ℕ) (job : Option (Job V)) : State V :=
  { s with jobs := Function.update s.jobs i job }

variable (w : World V) (process : ℕ → ℕ)

/-- `ensure_table_exists` for the first group of the job. -/
def ensureStep (s : State V) (i : ℕ) (job : Job V) (table : String) (outcome : Outcome) :
    State V :=
  let known := s.created (process i)
  if table ∈ known then s.setJob i (some { job with ensured := true })
  else match validateTableName table with
    | some _ => s.setJob i none
    | none =>
      match outcome with
      | .done =>
        { s.setJob i (some { job with ensured := true }) with
          registry := register job.cfg.taskId table s.registry
          created := Function.update s.created (process i) (known ++ [table]) }
      | .raised applied =>
        { s.setJob i none with
          registry := if applied then register job.cfg.taskId table s.registry else s.registry }

def step (s : State V) : Event V → State V
  | .execute i cfg batches =>
    match s.jobs i with
    | some _ => s
    | none => s.setJob i (some { cfg, batches })
  | .group i now =>
    match s.jobs i with
    | some { cfg, batches := batch :: batches, groups := [], ensured } =>
      let groups := (Dict.group (tagged { w with now } cfg 0 batch)).entries
      s.setJob i (some { cfg, batches, groups, ensured })
    | some { batches := [], groups := [], .. } => s.setJob i none
    | _ => s
  | .ensure i outcome =>
    match s.jobs i with
    | some job =>
      match job.groups, job.ensured with
      | (table, _) :: _, false => ensureStep process s i job table outcome
      | _, _ => s
    | none => s
  | .load i returns =>
    match s.jobs i with
    | some job =>
      match job.groups, job.ensured with
      | _ :: groups, true =>
        s.setJob i (if returns then some { job with groups, ensured := false } else none)
      | _, _ => s
    | none => s
  | .archive cfg today outcome =>
    match outcome with
    | .raised false => s
    | _ => { s with registry := archiveOldTables cfg today s.registry }

def run (es : List (Event V)) : State V := es.foldl (step w process) init

/-- The table the worker's next call of `load_batch` goes to, with the task it is for. -/
def State.target (s : State V) (i : ℕ) : Option Key :=
  (s.jobs i).bind fun job =>
    match job.groups, job.ensured with
    | (table, _) :: _, true => some (job.cfg.taskId, table)
    | _, _ => none

def State.status (s : State V) (k : Key) : Option Lifecycle :=
  (s.registry.get? k).map RegistryRow.lifecycleStatus

/-- The call of `load_batch` the worker stands at goes to an archived table. -/
def WritesArchived (s : State V) (i : ℕ) : Prop :=
  ∃ k, s.target i = some k ∧ s.status k = some .archived

/-- The event is a call of `archive_old_tables` for the task that reaches the month of the
table. -/
def Reaches (k : Key) : Event V → Prop
  | .archive cfg today outcome => outcome ≠ .raised false ∧ cfg.taskId = k.1 ∧
      0 < cfg.retentionMonths ∧ ∃ c, cutoff today cfg.retentionMonths = some c ∧ yearMonthOf k.2 ≤ c
  | _ => False

variable {w process} {s : State V} {k : Key}

/-! ### What a step does to a row -/

lemma get?_register (taskId table : String) (r : Registry) (k : Key) :
    (register taskId table r).get? k = r.get? k ∨
      r.get? k = none ∧ (register taskId table r).get? k =
        some { yearMonth := yearMonthOf k.2 } := by
  unfold register
  split
  · exact .inl rfl
  · rename_i hnone
    by_cases hk : k = (taskId, table)
    · subst hk
      exact .inr ⟨hnone, Dict.get?_set_self _ _ _⟩
    · exact .inl (Dict.get?_set_of_ne _ _ hk)

/-- The rows that are there keep their month, which is that of their table, and are `ACTIVE` or
`ARCHIVED`. -/
structure RowOk (k : Key) (row : RegistryRow) : Prop where
  month : row.yearMonth = yearMonthOf k.2
  status : row.lifecycleStatus ≠ .dropped

/-- How the step changes the row of a table: not at all, or it registers the table, or archives
it. -/
inductive Change (k : Key) (e : Event V) : Option RegistryRow → Option RegistryRow → Prop
  | same (r : Option RegistryRow) (h : ¬ Reaches k e) : Change k e r r
  | register (h : ¬ Reaches k e) : Change k e none (some { yearMonth := yearMonthOf k.2 })
  | absent (h : Reaches k e) : Change k e none none
  | archive (row : RegistryRow) (h : Reaches k e) :
      Change k e (some row) (some { row with lifecycleStatus := .archived })

lemma change_of_get?_register {taskId table : String} {e : Event V} (he : ¬ Reaches k e)
    (r : Registry) : Change k e (r.get? k) ((register taskId table r).get? k) := by
  rcases get?_register taskId table r k with h | ⟨hnone, h⟩
  · rw [h]
    exact .same _ he
  · rw [hnone, h]
    exact .register he

lemma change_archive {cfg : TaskConfig} {today : ℕ} {outcome : Outcome}
    (ho : outcome ≠ .raised false) (hok : ∀ row, s.registry.get? k = some row → RowOk k row) :
    Change k (.archive cfg today outcome : Event V) (s.registry.get? k)
      ((archiveOldTables cfg today s.registry).get? k) := by
  unfold archiveOldTables
  by_cases hret : cfg.retentionMonths ≤ 0
  · rw [if_pos hret]
    exact .same _ fun h => by
      have := h.2.2.1
      omega
  · rw [if_neg hret]
    rcases hc : cutoff today cfg.retentionMonths with _ | c
    · -- the cut-off would lie before the first year: `cutoff` raises
      refine .same _ fun h => ?_
      obtain ⟨c, hc', -⟩ := h.2.2.2
      rw [hc] at hc'
      cases hc'
    · dsimp only
      rw [Dict.get?_mapValues]
      by_cases hreach : Reaches k (.archive cfg today outcome : Event V)
      · obtain ⟨-, htask, -, c', hc', hle⟩ := id hreach
        obtain rfl := Option.some.inj (hc.symm.trans hc')
        rcases hrow : s.registry.get? k with _ | row
        · exact .absent hreach
        · have hm := (hok row hrow).month
          have hs := (hok row hrow).status
          have : row.archive c = { row with lifecycleStatus := .archived } := by
            unfold RegistryRow.archive
            rcases row with ⟨ym, _ | _ | _⟩
            · simp_all
            · simp
            · simp at hs
          simp only [Option.map_some, htask, if_true, this]
          exact .archive row hreach
      · have hsame : (s.registry.get? k).map (fun row => if k.1 = cfg.taskId then row.archive c
            else row) = s.registry.get? k := by
          rcases hrow : s.registry.get? k with _ | row
          · rfl
          · rw [Option.map_some]
            split_ifs with htask
            · have hle : ¬ row.yearMonth ≤ c := fun hle =>
                hreach ⟨ho, htask.symm, by omega, c, hc, (hok row hrow).month ▸ hle⟩
              simp [RegistryRow.archive, hle]
            · rfl
        rw [hsame]
        exact .same _ hreach

/-- **The step lemma.** -/
theorem change_step (e : Event V) (hok : ∀ row, s.registry.get? k = some row → RowOk k row) :
    Change k e (s.registry.get? k) ((step w process s e).registry.get? k) := by
  cases e with
  | execute i cfg batches =>
    unfold step
    dsimp only
    split <;> exact .same _ id
  | group i now =>
    unfold step
    dsimp only
    split <;> exact .same _ id
  | ensure i outcome =>
    -- a table is registered if it was created, or if only the answer was lost
    unfold step
    dsimp only
    split
    · split
      · unfold ensureStep
        dsimp only
        split_ifs
        · exact .same _ id
        · split
          · exact .same _ id
          · split
            · exact change_of_get?_register id _
            · split_ifs
              · exact change_of_get?_register id _
              · exact .same _ id
      · exact .same _ id
    · exact .same _ id
  | load i returns =>
    unfold step
    dsimp only
    split
    · split <;> exact .same _ id
    · exact .same _ id
  | archive cfg today outcome =>
    unfold step
    dsimp only
    split
    · exact .same _ fun h => h.1 rfl
    · rename_i ho
      exact change_archive ho hok

/-! ### Runs -/

def Sound (s : State V) : Prop := ∀ k row, s.registry.get? k = some row → RowOk k row

lemma sound_init : Sound (init : State V) := fun _ _ h => by cases h

lemma Sound.step (h : Sound s) (e : Event V) : Sound (step w process s e) := by
  intro k row hrow
  have hch : Change k e (s.registry.get? k)
      ((TableLifecycle.step w process s e).registry.get? k) := change_step e (h k)
  rw [hrow] at hch
  generalize hr : s.registry.get? k = r at hch
  cases hch with
  | same _ _ => exact h k row hr
  | register _ => exact ⟨rfl, by simp⟩
  | archive row₀ _ => exact ⟨(h k row₀ hr).month, by simp⟩

/-- A step archives a table if it reaches the table's month and the table is registered; no step
brings an archived table back. -/
lemma status_step (h : Sound s) (e : Event V) (k : Key) :
    (step w process s e).status k = some .archived ↔
      s.status k = some .archived ∨ Reaches k e ∧ (s.registry.get? k).isSome = true := by
  have hch : Change k e (s.registry.get? k)
      ((TableLifecycle.step w process s e).registry.get? k) := change_step e (h k)
  unfold State.status
  generalize s.registry.get? k = r,
    (TableLifecycle.step w process s e).registry.get? k = r' at hch ⊢
  cases hch with
  | same _ hno => simp [hno]
  | register hno => simp
  | absent hreach => simp
  | archive row hreach => simp [hreach]

/-- A call of `archive_old_tables` for the task reached the month of the table in the run, when
the table was registered. -/
def Late (w : World V) (process : ℕ → ℕ) (es : List (Event V)) (k : Key) : Prop :=
  Once (step w process) (fun s e => Reaches k e ∧ (s.registry.get? k).isSome = true) init es

theorem archived_iff_late (es : List (Event V)) (k : Key) :
    (run w process es).status k = some .archived ↔ Late w process es k := by
  have hstep : ∀ (s : State V) (e : Event V), Sound s → Sound (step w process s e) :=
    fun _ e hs => hs.step e
  have h := final_iff_once (P := fun s : State V => s.status k = some .archived) hstep
    (fun s e hs => status_step hs e k) sound_init (l := es)
  exact h.trans (or_iff_right nofun)

/-- **Archived tables take late data, and only that.** A call of `load_batch` goes to an archived
table exactly if, after the table was registered, a call of `archive_old_tables` for the task has
reached the month of the table. -/
theorem writesArchived_iff (w : World V) (process : ℕ → ℕ) (es : List (Event V)) (i : ℕ) :
    WritesArchived (run w process es) i ↔
      ∃ k, (run w process es).target i = some k ∧ Late w process es k :=
  exists_congr fun k => and_congr_right fun _ => archived_iff_late es k

/-- A task whose tables are archived after a month. -/
def oneMonth : TaskConfig := { smallTask with retentionMonths := 1 }

/-- A row of May 2024. -/
def mayBatch : List (List (Row String)) := [[smallRow [("id", "1"), ("day", "2024-05-01")]]]

/-- A file with a row of May is loaded; in July the table of May is archived; another file with a
row of May comes. -/
def lateRow : List (Event String) :=
  let loadMay (i : ℕ) : List (Event String) :=
    [.execute i oneMonth mayBatch, .group i fun _ => "202407", .ensure i .done]
  loadMay 0 ++ [.load 0 true, .archive oneMonth (12 * 2024 + 6) .done] ++ loadMay 1

theorem writesArchived_lateRow :
    ¬ ∀ (w : World String) (process : ℕ → ℕ) (es : List (Event String)) (i : ℕ),
      ¬ WritesArchived (run w process es) i := by
  intro h
  exact h smallWorld (fun _ => 0) lateRow 1
    ⟨("t", "b_202405"), by decide +kernel, by decide +kernel⟩

end Tdcs.TableLifecycle
