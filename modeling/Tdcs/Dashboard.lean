import Mathlib.Algebra.BigOperators.Group.List.Basic
import Mathlib.Data.List.Dedup
import Tdcs.ProcessedFileRepo

/-!
The file figures of the dashboard.

The query groups the rows of `processed_files` by status, and the loop over its answer assigns
for some statuses and adds for others, both to `pending`. Whether the figure is right depends
on the order of the answer.
-/

namespace Tdcs.Dashboard

open Tdcs.Lib Tdcs.ProcessedFileRepo

def statusText : Status → String
  | .pending => "PENDING"
  | .claimed => "CLAIMED"
  | .processing => "PROCESSING"
  | .success => "SUCCESS"
  | .failed => "FAILED"
  | .skipped => "SKIPPED"

/-- `str.lower` on the texts above. -/
def lower (s : String) : String := String.ofList (s.toList.map Char.toLower)

/-- `file_kpi` before the query. -/
def noFiles : Dict String ℕ :=
  Dict.ofPairs [("total", 0), ("success", 0), ("failed", 0), ("pending", 0)]

/-- One turn of the loop over the groups. -/
def countGroup (fileKpi : Dict String ℕ) (r : Status × ℕ) : Dict String ℕ :=
  let s := lower (statusText r.1)
  let fileKpi := fileKpi.set "total" ((fileKpi.get? "total").getD 0 + r.2)
  if (fileKpi.get? s).isSome then fileKpi.set s r.2
  else if s = "claimed" ∨ s = "processing" then
    fileKpi.set "pending" ((fileKpi.get? "pending").getD 0 + r.2)
  else fileKpi

/-- What the two queries answer, `none` where one fails or there is no database. -/
structure Answers where
  groups : Option (List (Status × ℕ))
  totalRows : Option ℕ

/-- The part `files` of the answer of `get_dashboard`. -/
def getDashboard (a : Answers) : Dict String ℕ :=
  match a.groups with
  | none => noFiles.set "total_rows" 0
  | some groups => (groups.foldl countGroup noFiles).set "total_rows" (a.totalRows.getD 0)

/-- `SELECT status, COUNT(*) … GROUP BY status`, in one of its orders. -/
def groupByStatus (rows : List Row) : List (Status × ℕ) :=
  let statuses := rows.map Row.status
  statuses.dedup.map fun s => (s, statuses.count s)

def sumRowCount (rows : List Row) : ℕ :=
  ((rows.filter (·.status = .success)).map Row.rowCount).sum

/-- The answers to a dashboard with the rows of `t`, the groups coming as `groups`. -/
def answers (t : Table) (groups : List (Status × ℕ)) : Answers :=
  ⟨some groups, some (sumRowCount t.rows.values)⟩

structure FileStats where
  total : ℕ
  success : ℕ
  failed : ℕ
  pending : ℕ
  skipped : ℕ
  avgProcessingMs : ℕ
  totalRows : ℕ
  lastProcessed : Option ℕ
  deriving DecidableEq

/-- `ROUND(AVG(x), 0)`, `0` without values. -/
def roundedAvg (l : List ℕ) : ℕ := (2 * l.sum + l.length) / (2 * l.length)

/-- The figures that `_task_file_stats` has the database compute. -/
def fileStats (rows : List Row) : FileStats where
  total := rows.length
  success := rows.countP (·.status = .success)
  failed := rows.countP (·.status = .failed)
  pending := rows.countP fun r => [.pending, .claimed, .processing].contains r.status
  skipped := rows.countP (·.status = .skipped)
  avgProcessingMs :=
    roundedAvg ((rows.filter (·.status = .success)).filterMap Row.processingTimeMs)
  totalRows := (rows.map Row.rowCount).sum
  lastProcessed := (rows.filterMap Row.processedAt).max?

/-- The rows of a task. -/
def taskRows (t : Table) (taskId : String) : List Row :=
  (t.rows.entries.filter (·.1.taskId = taskId)).map Prod.snd

def taskFileStats (t : Table) (taskId : String) : FileStats := fileStats (taskRows t taskId)

/-- The dashboard reports what `_task_file_stats` would say of the whole table. -/
structure Reports (t : Table) (groups : List (Status × ℕ)) : Prop where
  total : (getDashboard (answers t groups)).get? "total" = some (fileStats t.rows.values).total
  success :
    (getDashboard (answers t groups)).get? "success" = some (fileStats t.rows.values).success
  failed : (getDashboard (answers t groups)).get? "failed" = some (fileStats t.rows.values).failed
  pending :
    (getDashboard (answers t groups)).get? "pending" = some (fileStats t.rows.values).pending

/-- The statuses that are added to `pending`. -/
def isOpen (s : Status) : Bool := s = .claimed || s = .processing

/-- No CLAIMED or PROCESSING group comes before the PENDING one. -/
def PendingFirst (groups : List (Status × ℕ)) : Prop :=
  ∀ before n after, groups = before ++ (.pending, n) :: after →
    ∀ r ∈ before, isOpen r.1 = false

/-! ### The loop on numbers -/

structure Figures where
  total : ℕ
  success : ℕ
  failed : ℕ
  pending : ℕ
  deriving DecidableEq

def Figures.zero : Figures := ⟨0, 0, 0, 0⟩

def Figures.add (F : Figures) : Status × ℕ → Figures
  | (.pending, n) => { F with total := F.total + n, pending := n }
  | (.success, n) => { F with total := F.total + n, success := n }
  | (.failed, n) => { F with total := F.total + n, failed := n }
  | (.claimed, n) | (.processing, n) =>
    { F with total := F.total + n, pending := F.pending + n }
  | (.skipped, n) => { F with total := F.total + n }

def lowerText : Status → String
  | .pending => "pending"
  | .claimed => "claimed"
  | .processing => "processing"
  | .success => "success"
  | .failed => "failed"
  | .skipped => "skipped"

/-- The dictionary has the four figures and no entry for the other statuses. -/
structure Holds (d : Dict String ℕ) (F : Figures) : Prop where
  total : d.get? "total" = some F.total
  success : d.get? "success" = some F.success
  failed : d.get? "failed" = some F.failed
  pending : d.get? "pending" = some F.pending
  claimed : d.get? "claimed" = none
  processing : d.get? "processing" = none
  skipped : d.get? "skipped" = none

variable {d : Dict String ℕ} {F : Figures} {r : Status × ℕ} {g g₁ g₂ : List (Status × ℕ)}
  {t : Table} {rows : List Row} {n : ℕ}

lemma lower_statusText (s : Status) : lower (statusText s) = lowerText s := by
  cases s <;> rfl

lemma holds_noFiles : Holds noFiles Figures.zero := by
  constructor <;> rfl

lemma holds_countGroup (h : Holds d F) (r : Status × ℕ) : Holds (countGroup d r) (F.add r) := by
  obtain ⟨ht, hs, hf, hp, hc, hr, hk⟩ := h
  obtain ⟨s, n⟩ := r
  cases s <;> constructor <;>
    simp [countGroup, lower_statusText, lowerText, Dict.get?_set, Figures.add, ht, hs, hf, hp, hc,
      hr, hk]

lemma holds_foldl (h : Holds d F) (g : List (Status × ℕ)) :
    Holds (g.foldl countGroup d) (g.foldl Figures.add F) := by
  induction g generalizing d F with
  | nil => exact h
  | cons r g ih => exact ih (holds_countGroup h r)

/-! ### What the loop comes to -/

lemma sum_map_ite {α : Type*} [DecidableEq α] {l : List α} (h : l.Nodup) (a : α) (f : α → ℕ) :
    (l.map fun x => if x = a then f x else 0).sum = if a ∈ l then f a else 0 := by
  induction l with
  | nil => rfl
  | cons x l ih =>
    obtain ⟨hx, hl⟩ := List.nodup_cons.mp h
    rw [List.map_cons, List.sum_cons, ih hl]
    by_cases hxa : x = a
    · subst hxa
      simp [hx]
    · simp [hxa, Ne.symm hxa]

/-- The rows the groups of a status stand for. -/
def amount (s : Status) (g : List (Status × ℕ)) : ℕ :=
  (g.map fun r => if r.1 = s then r.2 else 0).sum

@[simp] lemma amount_nil (s : Status) : amount s [] = 0 := rfl
@[simp] lemma amount_cons (s : Status) :
    amount s (r :: g) = (if r.1 = s then r.2 else 0) + amount s g := by
  simp [amount]
lemma amount_append (s : Status) : amount s (g₁ ++ g₂) = amount s g₁ + amount s g₂ := by
  simp [amount]

lemma amount_perm (s : Status) (h : g₁.Perm g₂) : amount s g₁ = amount s g₂ :=
  (h.map _).sum_eq

lemma amount_of_notMem {s : Status} (h : s ∉ g.map Prod.fst) : amount s g = 0 := by
  induction g with
  | nil => rfl
  | cons r g ih =>
    rw [List.map_cons, List.mem_cons, not_or] at h
    rw [amount_cons, if_neg (Ne.symm h.1), ih h.2]

lemma total_foldl (F : Figures) (g : List (Status × ℕ)) :
    (g.foldl Figures.add F).total = F.total + (g.map Prod.snd).sum := by
  induction g generalizing F with
  | nil => rfl
  | cons r g ih =>
    have hstep : (F.add r).total = F.total + r.2 := by
      obtain ⟨s, n⟩ := r
      cases s <;> rfl
    rw [List.foldl_cons, ih, hstep, List.map_cons, List.sum_cons, Nat.add_assoc]

lemma assigned_foldl {figure : Figures → ℕ} {s : Status}
    (hself : ∀ (F : Figures) n, figure (F.add (s, n)) = n)
    (hother : ∀ (F : Figures) s' n, s' ≠ s → figure (F.add (s', n)) = figure F)
    (h : (g.map Prod.fst).Nodup) :
    figure (g.foldl Figures.add F) =
      if s ∈ g.map Prod.fst then amount s g else figure F := by
  induction g generalizing F with
  | nil => rfl
  | cons r g ih =>
    obtain ⟨s', n⟩ := r
    obtain ⟨hnotin, hnodup⟩ := List.nodup_cons.mp h
    rw [List.foldl_cons, ih hnodup]
    by_cases hs : s' = s
    · subst hs
      have hzero : amount s' g = 0 := amount_of_notMem hnotin
      simp only at hnotin
      rw [if_neg hnotin, hself]
      simp [hzero]
    · rw [hother F s' n hs]
      simp only [List.map_cons, List.mem_cons, amount_cons, hs, Ne.symm hs, if_false, false_or,
        Nat.zero_add]

lemma pending_foldl (h : Status.pending ∉ g.map Prod.fst) :
    (g.foldl Figures.add F).pending = F.pending + (amount .claimed g + amount .processing g) := by
  induction g generalizing F with
  | nil => rfl
  | cons r g ih =>
    rw [List.map_cons, List.mem_cons, not_or] at h
    rw [List.foldl_cons, ih h.2]
    obtain ⟨s, n⟩ := r
    cases s <;> simp [Figures.add] at h ⊢ <;> omega

/-- A PENDING group discards what was added before it. -/
lemma pending_foldl_append (h : Status.pending ∉ g₂.map Prod.fst) :
    ((g₁ ++ (.pending, n) :: g₂).foldl Figures.add F).pending =
      n + (amount .claimed g₂ + amount .processing g₂) := by
  rw [List.foldl_append, List.foldl_cons, pending_foldl h]
  rfl

/-! ### The groups of a table -/

lemma map_fst_groupByStatus (rows : List Row) :
    (groupByStatus rows).map Prod.fst = (rows.map Row.status).dedup := by
  simp [groupByStatus, Function.comp_def]

lemma nodup_of_perm (h : g.Perm (groupByStatus rows)) : (g.map Prod.fst).Nodup := by
  refine (h.map Prod.fst).nodup_iff.mpr ?_
  rw [map_fst_groupByStatus]
  exact List.nodup_dedup _

lemma mem_map_fst (h : g.Perm (groupByStatus rows)) {s : Status} :
    s ∈ g.map Prod.fst ↔ s ∈ rows.map Row.status := by
  rw [(h.map Prod.fst).mem_iff, map_fst_groupByStatus, List.mem_dedup]

lemma pos_of_mem (h : g.Perm (groupByStatus rows)) (hr : r ∈ g) : 0 < r.2 := by
  obtain ⟨s, hs, rfl⟩ := List.mem_map.mp (h.mem_iff.mp hr)
  exact List.count_pos_iff.mpr (List.mem_dedup.mp hs)

lemma amount_eq (h : g.Perm (groupByStatus rows)) (s : Status) :
    amount s g = rows.countP (·.status = s) := by
  have hcount : rows.countP (·.status = s) = (rows.map Row.status).count s := by
    rw [List.count, List.countP_map]
    rfl
  have hamount : amount s (groupByStatus rows) =
      ((rows.map Row.status).dedup.map fun x =>
        if x = s then (rows.map Row.status).count x else 0).sum := by
    rw [amount, groupByStatus, List.map_map]
    rfl
  rw [amount_perm s h, hamount, sum_map_ite (List.nodup_dedup _), hcount]
  by_cases hmem : s ∈ rows.map Row.status
  · rw [if_pos (List.mem_dedup.mpr hmem)]
  · rw [if_neg (fun h => hmem (List.mem_dedup.mp h)), List.count_eq_zero_of_not_mem hmem]

lemma sum_map_snd (h : g.Perm (groupByStatus rows)) : (g.map Prod.snd).sum = rows.length := by
  rw [(h.map Prod.snd).sum_eq]
  have := List.sum_map_count_dedup_eq_length (rows.map Row.status)
  simpa [groupByStatus, Function.comp_def] using this

lemma fileStats_pending (rows : List Row) :
    (fileStats rows).pending = rows.countP (·.status = .pending) +
      (rows.countP (·.status = .claimed) + rows.countP (·.status = .processing)) := by
  show rows.countP _ = _
  induction rows with
  | nil => rfl
  | cons r rows ih =>
    rw [List.countP_cons, List.countP_cons, List.countP_cons, List.countP_cons, ih]
    cases r.status <;> simp <;> omega

/-! ### The dashboard -/

/-- The figures the loop ends with. -/
def figures (g : List (Status × ℕ)) : Figures := g.foldl Figures.add Figures.zero

lemma holds_getDashboard (t : Table) (g : List (Status × ℕ)) :
    Holds (getDashboard (answers t g)) (figures g) := by
  obtain ⟨ht, hs, hf, hp, hc, hr, hk⟩ := holds_foldl holds_noFiles g
  constructor <;> simpa [getDashboard, answers, Dict.get?_set]

lemma figures_total (h : g.Perm (groupByStatus rows)) :
    (figures g).total = (fileStats rows).total := by
  rw [figures, total_foldl, sum_map_snd h]
  exact Nat.zero_add _

lemma assigned_figures {figure : Figures → ℕ} {s : Status} (hzero : figure Figures.zero = 0)
    (hself : ∀ (F : Figures) n, figure (F.add (s, n)) = n)
    (hother : ∀ (F : Figures) s' n, s' ≠ s → figure (F.add (s', n)) = figure F)
    (h : g.Perm (groupByStatus rows)) :
    figure (figures g) = rows.countP (·.status = s) := by
  rw [figures, assigned_foldl hself hother (nodup_of_perm h), ← amount_eq h]
  split_ifs with hmem
  · rfl
  · rw [hzero, amount_of_notMem hmem]

lemma figures_success (h : g.Perm (groupByStatus rows)) :
    (figures g).success = (fileStats rows).success := by
  refine assigned_figures (s := .success) rfl (fun _ _ => rfl) (fun F s n hs => ?_) h
  cases s <;> first | rfl | exact absurd rfl hs

lemma figures_failed (h : g.Perm (groupByStatus rows)) :
    (figures g).failed = (fileStats rows).failed := by
  refine assigned_figures (s := .failed) rfl (fun _ _ => rfl) (fun F s n hs => ?_) h
  cases s <;> first | rfl | exact absurd rfl hs

lemma amount_open_eq_zero_iff (hpos : ∀ r ∈ g, 0 < r.2) :
    amount .claimed g + amount .processing g = 0 ↔ ∀ r ∈ g, isOpen r.1 = false := by
  induction g with
  | nil => simp
  | cons r g ih =>
    have ih := ih fun r' hr' => hpos r' (List.mem_cons_of_mem _ hr')
    have hr := hpos r (List.mem_cons_self ..)
    obtain ⟨s, n⟩ := r
    rw [List.forall_mem_cons, ← ih, amount_cons, amount_cons]
    cases s <;> simp [isOpen] at hr ⊢ <;> omega

lemma figures_pending_iff (h : g.Perm (groupByStatus rows)) :
    (figures g).pending = (fileStats rows).pending ↔ PendingFirst g := by
  rw [fileStats_pending, ← amount_eq h, ← amount_eq h, ← amount_eq h]
  by_cases hmem : Status.pending ∈ g.map Prod.fst
  · obtain ⟨⟨s, n⟩, hg, hs⟩ := List.mem_map.mp hmem
    obtain ⟨g₁, g₂, rfl⟩ := List.append_of_mem hg
    simp only at hs
    subst hs
    have hnodup := nodup_of_perm h
    rw [List.map_append, List.map_cons, List.nodup_append, List.nodup_cons] at hnodup
    obtain ⟨-, ⟨h₂, -⟩, hdisj⟩ := hnodup
    have h₂ : Status.pending ∉ g₂.map Prod.fst := h₂
    have h₁ : Status.pending ∉ g₁.map Prod.fst := fun h => hdisj _ h _ (List.mem_cons_self ..) rfl
    have hpos : ∀ r ∈ g₁, 0 < r.2 := fun r hr => pos_of_mem h (List.mem_append_left _ hr)
    have hfirst : PendingFirst (g₁ ++ (.pending, n) :: g₂) ↔ ∀ r ∈ g₁, isOpen r.1 = false := by
      refine ⟨fun hp => hp g₁ n g₂ rfl, fun hp before n' after heq => ?_⟩
      have hn₁ : (Status.pending, n') ∉ g₁ := fun h => h₁ (List.mem_map_of_mem h)
      have hn₂ : (Status.pending, n') ∉ g₂ := fun h => h₂ (List.mem_map_of_mem h)
      obtain ⟨rfl, -⟩ := (List.append_cons_inj_of_notMem hn₁ hn₂).mp heq
      exact hp
    rw [hfirst, ← amount_open_eq_zero_iff hpos, figures, pending_foldl_append h₂]
    have h₁' := amount_of_notMem h₁
    have h₂' := amount_of_notMem h₂
    simp only [amount_append, amount_cons, h₁', h₂', if_true, reduceCtorEq, if_false]
    omega
  · have hfirst : PendingFirst g := by
      rintro before n after rfl
      exact absurd (by simp) hmem
    have hzero := amount_of_notMem hmem
    rw [figures, pending_foldl hmem, hzero]
    simpa [Figures.zero] using hfirst

/-- Whatever the order, only `pending` can be wrong. -/
lemma reports_iff_figures (h : g.Perm (groupByStatus t.rows.values)) :
    Reports t g ↔ (figures g).pending = (fileStats t.rows.values).pending := by
  have hd := holds_getDashboard t g
  refine ⟨fun hr => ?_, fun hp => ⟨?_, ?_, ?_, ?_⟩⟩
  · have hpending := hr.pending
    rw [hd.pending] at hpending
    exact Option.some.inj hpending
  · rw [hd.total, figures_total h]
  · rw [hd.success, figures_success h]
  · rw [hd.failed, figures_failed h]
  · rw [hd.pending, hp]

/-- The dashboard agrees with the figures of the table exactly when no CLAIMED or PROCESSING
group comes before the PENDING one. -/
theorem reports_iff_pendingFirst (t : Table) (g : List (Status × ℕ))
    (h : g.Perm (groupByStatus t.rows.values)) : Reports t g ↔ PendingFirst g := by
  rw [reports_iff_figures h, figures_pending_iff h]

def sampleRow (id : ℕ) (status : Status) : Row where
  id := id
  fileName := "a.csv"
  fileSize := 10
  fileHash := ""
  status := status
  claimedBy := none
  claimedAt := none
  claimExpiresAt := none
  instanceId := none
  retryCount := 0
  errorType := none
  errorMessage := none
  rowCount := 0
  validRowCount := 0
  processingTimeMs := none
  archivePath := none
  processedAt := none

/-- A file waits and another is claimed. -/
def sampleTable : Table :=
  (Table.empty.setRow ⟨"t1", "/in/a.csv", 1⟩ (sampleRow 1 .pending)).setRow
    ⟨"t1", "/in/b.csv", 1⟩ (sampleRow 2 .claimed)

theorem reports_iff_pendingFirst_sampleTable :
    Reports sampleTable [(.pending, 1), (.claimed, 1)] ↔
      PendingFirst [(.pending, 1), (.claimed, 1)] :=
  reports_iff_pendingFirst sampleTable _ (by decide)

/-- With the claimed group first the dashboard reports one pending file of two. -/
theorem not_reports_claimedFirst :
    [(Status.claimed, 1), (.pending, 1)].Perm (groupByStatus sampleTable.rows.values) ∧
      ¬ Reports sampleTable [(.claimed, 1), (.pending, 1)] := by
  refine ⟨by decide, fun h => ?_⟩
  have hpending := h.pending
  exact absurd hpending (by decide)

lemma exists_group {r : Row} (h : r ∈ rows) : ∃ n, (r.status, n) ∈ groupByStatus rows :=
  ⟨_, List.mem_map.mpr ⟨r.status, List.mem_dedup.mpr (List.mem_map_of_mem h), rfl⟩⟩

lemma exists_row (h : g.Perm (groupByStatus rows)) (hr : r ∈ g) : ∃ x ∈ rows, x.status = r.1 :=
  List.mem_map.mp ((mem_map_fst h).mp (List.mem_map_of_mem hr))

/-- The dashboard is right in every order unless PENDING rows stand beside open ones. -/
theorem reports_inEveryOrder_iff (t : Table) :
    (∀ g, g.Perm (groupByStatus t.rows.values) → Reports t g) ↔
      ((∀ x ∈ t.rows.values, x.status ≠ .pending) ∨
        ∀ x ∈ t.rows.values, isOpen x.status = false) := by
  constructor
  · intro hall
    by_contra hboth
    push Not at hboth
    obtain ⟨⟨x, hx, hpending⟩, y, hy, hopen⟩ := hboth
    obtain ⟨m, hm⟩ := exists_group hx
    obtain ⟨n, hn⟩ := exists_group hy
    rw [hpending] at hm
    -- the order that starts with the open group
    have hperm := List.perm_cons_erase hn
    have hne : (Status.pending, m) ≠ (y.status, n) := by
      intro heq
      have hs : y.status = .pending := (Prod.mk.inj heq).1.symm
      rw [hs] at hopen
      exact hopen rfl
    obtain ⟨g₁, g₂, hsplit⟩ := List.append_of_mem ((List.mem_erase_of_ne hne).mpr hm)
    have hreports := hall _ hperm.symm
    rw [reports_iff_figures hperm.symm, figures_pending_iff hperm.symm, hsplit] at hreports
    exact hopen (hreports ((y.status, n) :: g₁) m g₂ rfl _ (List.mem_cons_self ..))
  · intro h g hg
    rw [reports_iff_figures hg, figures_pending_iff hg]
    rintro before n after rfl r hr
    rcases h with hnone | hclosed
    · obtain ⟨x, hx, hs⟩ := exists_row hg (List.mem_append_right before (List.mem_cons_self ..))
      exact absurd hs (hnone x hx)
    · obtain ⟨x, hx, hs⟩ := exists_row hg (List.mem_append_left _ hr)
      rw [← hs]
      exact hclosed x hx

/-! ### The sum over the tasks -/

lemma sum_countP_taskRows (t : Table) (p : Row → Bool) {taskIds : List String}
    (hnodup : taskIds.Nodup) (hall : ∀ k ∈ t.rows.keys, k.taskId ∈ taskIds) :
    (taskIds.map fun taskId => (taskRows t taskId).countP p).sum = t.rows.values.countP p := by
  have hlist : ∀ l : List (Key × Row), (∀ x ∈ l, x.1.taskId ∈ taskIds) →
      (taskIds.map fun taskId =>
        ((l.filter (·.1.taskId = taskId)).map Prod.snd).countP p).sum =
        (l.map Prod.snd).countP p := by
    intro l hl
    induction l with
    | nil => simp
    | cons x l ih =>
      have hx := hl x (List.mem_cons_self ..)
      have ih := ih fun y hy => hl y (List.mem_cons_of_mem _ hy)
      -- a row counts for its own task only
      have hcons : ∀ taskId,
          (((x :: l).filter (·.1.taskId = taskId)).map Prod.snd).countP p =
            (if taskId = x.1.taskId then (if p x.2 then 1 else 0) else 0) +
              ((l.filter (·.1.taskId = taskId)).map Prod.snd).countP p := by
        intro taskId
        by_cases h : x.1.taskId = taskId
        · subst h
          simp [List.countP_cons, Nat.add_comm]
        · simp [h, Ne.symm h]
      have hone := sum_map_ite hnodup x.1.taskId fun _ => if p x.2 then 1 else 0
      rw [if_pos hx] at hone
      simp only [hcons]
      rw [List.sum_map_add, hone, ih, List.map_cons, List.countP_cons, Nat.add_comm]
  exact hlist t.rows.entries fun x hx => hall x.1 (List.mem_map_of_mem hx)

/-- A dashboard that is right is the sum of the tasks' own figures. -/
theorem pending_eq_sum_taskFileStats {taskIds : List String} (hnodup : taskIds.Nodup)
    (hall : ∀ k ∈ t.rows.keys, k.taskId ∈ taskIds) (h : Reports t g) :
    (getDashboard (answers t g)).get? "pending" =
      some (taskIds.map fun taskId => (taskFileStats t taskId).pending).sum := by
  rw [h.pending]
  exact congrArg some (sum_countP_taskRows t _ hnodup hall).symm

end Tdcs.Dashboard
