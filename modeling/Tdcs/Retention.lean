import Tdcs.Lib.Calendar
import Tdcs.TableLifecycle

/-!
How long `archive_old_tables` lets the month tables be: the dates its cutoff month stands for.
-/

namespace Tdcs.Retention

open Tdcs.Lib Tdcs.Lib.Calendar Tdcs.Pipeline Tdcs.TableLifecycle

/-- The month of a date of four digits. -/
def FourDigits (month : ℕ) : Prop := 1000 ≤ month / 12 ∧ month / 12 < 10000

instance (month : ℕ) : Decidable (FourDigits month) := inferInstanceAs (Decidable (_ ∧ _))

/-- The name `_resolve_table` gives the table of a month, by `strftime("%Y%m")`. -/
def monthTable (baseTable : String) (month : ℕ) : String :=
  let m := month % 12 + 1
  baseTable ++ "_" ++ (toString (month / 12) ++ (if m < 10 then "0" else "") ++ toString m)

/-- The table is one of the month's. -/
def IsTableOf (table : String) (month : ℕ) : Prop :=
  FourDigits month ∧ ∃ baseTable, table = monthTable baseTable month

/-- The rows are those `ensure_table_exists` registers for month tables. -/
def MonthTables (r : Registry) : Prop :=
  ∀ k row, r.get? k = some row → row.yearMonth = yearMonthOf k.2 ∧ ∃ month, IsTableOf k.2 month

/-! ### Months as texts -/

section Texts

variable {a b : ℕ}

lemma toList_padded {m : ℕ} (hm : 1 ≤ m ∧ m ≤ 12) :
    ((if m < 10 then "0" else "") ++ toString m).toList = digits 2 m := by
  have h : ∀ m ≤ 12, 1 ≤ m →
      ((if m < 10 then "0" else "") ++ toString m).toList = digits 2 m := by decide
  exact h m hm.2 hm.1

lemma toList_year (ha : FourDigits a) : (toString (a / 12)).toList = digits 4 (a / 12) := by
  have h : Nat.toDigits 10 (a / 12) = digits 4 (a / 12) := by
    apply toDigits_eq_digits
    · exact ha.1
    · exact ha.2
  rw [← h]
  simp

lemma toList_formatYm (ha : FourDigits a) :
    (formatYm a).toList = digits 4 (a / 12) ++ '-' :: digits 2 (a % 12 + 1) := by
  have hm : 1 ≤ a % 12 + 1 ∧ a % 12 + 1 ≤ 12 := by omega
  rw [formatYm, String.append_assoc, String.toList_append, String.toList_append, toList_year ha,
    toList_padded hm, List.append_assoc]
  rfl

lemma toList_monthTable (baseTable : String) (ha : FourDigits a) :
    (monthTable baseTable a).toList =
      baseTable.toList ++ '_' :: (digits 4 (a / 12) ++ digits 2 (a % 12 + 1)) := by
  have hm : 1 ≤ a % 12 + 1 ∧ a % 12 + 1 ≤ 12 := by omega
  rw [monthTable, String.append_assoc, String.append_assoc, String.toList_append,
    String.toList_append, String.toList_append, toList_year ha, toList_padded hm]
  rfl

/-- The registration reads the month back off the name of the table. -/
lemma yearMonthOf_monthTable (baseTable : String) (ha : FourDigits a) :
    yearMonthOf (monthTable baseTable a) = formatYm a := by
  have hno : '_' ∉ (digits 4 (a / 12) ++ digits 2 (a % 12 + 1)).reverse := by
    simp [underscore_notMem_digits]
  have htake : ((monthTable baseTable a).toList.reverse.takeWhile (· ≠ '_')).reverse =
      digits 4 (a / 12) ++ digits 2 (a % 12 + 1) := by
    rw [toList_monthTable baseTable ha, List.reverse_append, List.reverse_cons, List.append_assoc,
      List.singleton_append, List.takeWhile_append_of_pos]
    · simp
    · intro c hc
      have : c ≠ '_' := fun h => hno (h ▸ hc)
      simp [this]
  rw [← String.toList_inj, toList_formatYm ha, yearMonthOf, htake, String.toList_ofList,
    List.take_left' (length_digits _ _), List.drop_left' (length_digits _ _)]

/-- **The text order of months with four-digit years is chronological.** -/
theorem formatYm_lt_iff (ha : FourDigits a) (hb : FourDigits b) :
    formatYm a < formatYm b ↔ a < b := by
  have hya : a / 12 < 10 ^ 4 := ha.2
  have hyb : b / 12 < 10 ^ 4 := hb.2
  have hmonth : '-' :: digits 2 (a % 12 + 1) < '-' :: digits 2 (b % 12 + 1) ↔
      a % 12 + 1 < b % 12 + 1 := by
    rw [List.cons_lt_cons_iff, digits_lt_iff (by omega) (by omega)]
    simp
  rw [String.lt_iff_toList_lt, toList_formatYm ha, toList_formatYm hb,
    append_lt_append_iff (by simp), digits_lt_iff hya hyb, digits_inj hya hyb, hmonth]
  omega

lemma formatYm_le_iff (ha : FourDigits a) (hb : FourDigits b) :
    formatYm a ≤ formatYm b ↔ a ≤ b := by
  rw [← not_lt, formatYm_lt_iff hb ha, not_lt]

lemma IsTableOf.yearMonthOf_eq {table : String} (h : IsTableOf table a) :
    yearMonthOf table = formatYm a := by
  obtain ⟨ha, baseTable, rfl⟩ := h
  exact yearMonthOf_monthTable baseTable ha

lemma IsTableOf.unique {table : String} (h : IsTableOf table a) (h' : IsTableOf table b) :
    a = b := by
  have heq : formatYm a = formatYm b := h.yearMonthOf_eq.symm.trans h'.yearMonthOf_eq
  have hle : a ≤ b := (formatYm_le_iff h.1 h'.1).1 heq.le
  have hge : b ≤ a := (formatYm_le_iff h'.1 h.1).1 heq.ge
  omega

end Texts

/-! ### The registry of month tables -/

section Registry

variable {reg : Registry} {month : ℕ} {table : String}

lemma monthTables_empty : MonthTables Dict.empty := fun _ _ h => by cases h

lemma MonthTables.register (hreg : MonthTables reg) (taskId : String)
    (ht : IsTableOf table month) : MonthTables (register taskId table reg) := by
  intro k row hrow
  rcases get?_register taskId table reg k with h | ⟨hnone, h⟩
  · rw [h] at hrow
    exact hreg k row hrow
  · by_cases hk : k = (taskId, table)
    · rw [h] at hrow
      obtain rfl := Option.some.inj hrow
      subst hk
      exact ⟨rfl, month, ht⟩
    · have hset : (TableLifecycle.register taskId table reg).get? k = reg.get? k := by
        unfold TableLifecycle.register
        split
        · rfl
        · exact Dict.get?_set_of_ne _ _ hk
      rw [hset] at hrow
      exact hreg k row hrow

lemma RegistryRow.archive_yearMonth (row : RegistryRow) (c : String) :
    (row.archive c).yearMonth = row.yearMonth := by
  unfold RegistryRow.archive
  split_ifs <;> rfl

variable {cfg : TaskConfig} {d e : Date} {r : ℕ}

lemma MonthTables.archiveOldTables (hreg : MonthTables reg) (cfg : TaskConfig) (today : ℕ) :
    MonthTables (archiveOldTables cfg today reg) := by
  unfold TableLifecycle.archiveOldTables
  split_ifs
  · exact hreg
  · split
    · exact hreg
    · intro k row hrow
      rw [Dict.get?_mapValues] at hrow
      obtain ⟨row₀, hrow₀, rfl⟩ := Option.map_eq_some_iff.1 hrow
      refine ⟨?_, (hreg k row₀ hrow₀).2⟩
      rw [← (hreg k row₀ hrow₀).1]
      split_ifs
      · exact RegistryRow.archive_yearMonth row₀ _
      · rfl

lemma cutoff_eq (he : d.minusMonths r = some e) : cutoff d.month r = some (formatYm e.month) := by
  obtain ⟨hr, hmonth⟩ := Date.month_of_minusMonths he
  have hnat : ((d.month : ℤ) - r).toNat = e.month := by omega
  rw [cutoff, if_pos (by omega), hnat]

lemma get?_archiveOldTables (hr : 1 ≤ r) (hcfg : cfg.retentionMonths = r)
    (he : d.minusMonths r = some e) (k : Key) :
    (archiveOldTables cfg d.month reg).get? k = (reg.get? k).map fun row =>
      if k.1 = cfg.taskId then row.archive (formatYm e.month) else row := by
  have hpos : ¬ cfg.retentionMonths ≤ 0 := by omega
  rw [archiveOldTables, if_neg hpos, hcfg, cutoff_eq he]
  exact Dict.get?_mapValues _ _ _

lemma yearMonth_le_cutoff_iff (hreg : MonthTables reg) (hfour : FourDigits e.month) {k : Key}
    {row : RegistryRow} (hrow : reg.get? k = some row) (hmonth : IsTableOf k.2 month) :
    row.yearMonth ≤ formatYm e.month ↔ month ≤ e.month := by
  rw [(hreg k row hrow).1, hmonth.yearMonthOf_eq]
  exact formatYm_le_iff hmonth.1 hfour

/-- What a call for the task has to leave of the registry where `e` is the date the retention
reaches back to. -/
structure OnTime (taskId : String) (e : Date) (reg reg' : Registry) : Prop where
  notShort : ∀ k row row' month, reg.get? k = some row → reg'.get? k = some row' →
    IsTableOf k.2 month → row.lifecycleStatus ≠ .archived → row'.lifecycleStatus = .archived →
    Date.MonthOver month e
  complete : ∀ table row month, reg.get? (taskId, table) = some row → IsTableOf table month →
    row.lifecycleStatus = .active → Date.MonthOver month e →
    reg'.get? (taskId, table) = some { row with lifecycleStatus := .archived }
  others : ∀ k, k.1 ≠ taskId → reg'.get? k = reg.get? k
  chronological : ∀ k row month, reg.get? k = some row → IsTableOf k.2 month →
    (row.yearMonth ≤ formatYm e.month ↔ month ≤ e.month)

lemma month_le_of_archived (hreg : MonthTables reg) (hfour : FourDigits e.month) {k : Key}
    {row : RegistryRow} (hrow : reg.get? k = some row) (htable : IsTableOf k.2 month)
    (hbefore : row.lifecycleStatus ≠ .archived)
    (hafter : (row.archive (formatYm e.month)).lifecycleStatus = .archived) :
    month ≤ e.month ∧ row.lifecycleStatus = .active := by
  unfold RegistryRow.archive at hafter
  split_ifs at hafter with hmark
  · exact ⟨(yearMonth_le_cutoff_iff hreg hfour hrow htable).1 hmark.1, hmark.2⟩
  · exact absurd hafter hbefore

/-- A call that is on time archives no `ACTIVE` table of the month it reaches back to, unless that
month has no day after that of the call. -/
lemma OnTime.lastDay_or_inactive (hr : 1 ≤ r) (hcfg : cfg.retentionMonths = r)
    (he : d.minusMonths r = some e)
    (h : OnTime cfg.taskId e reg (archiveOldTables cfg d.month reg)) :
    e = Date.lastDay e.month ∨ ∀ table row, reg.get? (cfg.taskId, table) = some row →
      IsTableOf table e.month → row.lifecycleStatus ≠ .active := by
  by_contra hno
  push Not at hno
  obtain ⟨hlast, table, row, hrow, htable, hactive⟩ := hno
  have hle : row.yearMonth ≤ formatYm e.month :=
    (h.chronological _ row e.month hrow htable).2 le_rfl
  have hmarked : row.archive (formatYm e.month) = { row with lifecycleStatus := .archived } := by
    rw [RegistryRow.archive, if_pos ⟨hle, hactive⟩]
  have hrow' : (archiveOldTables cfg d.month reg).get? (cfg.taskId, table) = _ :=
    get?_archiveOldTables hr hcfg he (cfg.taskId, table)
  rw [hrow, Option.map_some, if_pos rfl, hmarked] at hrow'
  have hover := h.notShort _ row _ e.month hrow hrow' htable (by simp [hactive]) rfl
  rcases Date.lastDay_le_iff.1 (Date.monthOver_iff.1 hover) with hlt | ⟨-, heq⟩
  · omega
  · exact hlast heq

/-- **The month at the cutoff.** A call of `archive_old_tables` archives what the retention lets go
exactly if the month it reaches back to has no day after that of the call, or the task has no
`ACTIVE` table of that month. -/
theorem onTime_iff (hr : 1 ≤ r) (hcfg : cfg.retentionMonths = r) (he : d.minusMonths r = some e)
    (hfour : FourDigits e.month) (hreg : MonthTables reg) :
    OnTime cfg.taskId e reg (archiveOldTables cfg d.month reg) ↔
      daysIn e.month ≤ d.day ∨ ∀ table row, reg.get? (cfg.taskId, table) = some row →
        IsTableOf table e.month → row.lifecycleStatus ≠ .active := by
  have hget : ∀ k, (archiveOldTables cfg d.month reg).get? k = _ :=
    get?_archiveOldTables hr hcfg he
  rw [← Date.minusMonths_eq_lastDay_iff he]
  constructor
  · exact fun h => h.lastDay_or_inactive hr hcfg he
  · intro hcond
    refine ⟨?_, ?_, ?_, ?_⟩
    · intro k row row' month hrow hrow' htable hbefore hafter
      rw [hget, hrow, Option.map_some] at hrow'
      obtain rfl := Option.some.inj hrow'
      split_ifs at hafter with htask
      · obtain ⟨hle, hactive⟩ := month_le_of_archived hreg hfour hrow htable hbefore hafter
        rw [Date.monthOver_iff, Date.lastDay_le_iff]
        rcases Nat.lt_or_ge month e.month with hlt | hge
        · exact .inl hlt
        · obtain rfl : month = e.month := by omega
          rcases hcond with hlast | hnone
          · exact .inr ⟨rfl, hlast⟩
          · refine absurd hactive (hnone k.2 row ?_ htable)
            rw [← htask]
            exact hrow
      · exact absurd hafter hbefore
    · intro table row month hrow htable hactive hover
      have hle : month ≤ e.month := by
        rcases Date.lastDay_le_iff.1 (Date.monthOver_iff.1 hover) with hlt | ⟨heq, -⟩ <;> omega
      have hmark := (yearMonth_le_cutoff_iff hreg hfour hrow htable).2 hle
      rw [hget, hrow, Option.map_some, if_pos rfl, RegistryRow.archive, if_pos ⟨hmark, hactive⟩]
    · intro k hk
      rw [hget]
      simp [hk]
    · intro k row month hrow htable
      exact yearMonth_le_cutoff_iff hreg hfour hrow htable

end Registry

/-- A task whose tables are kept for a year, as the form of the web interface has it. -/
def twelveMonths : TaskConfig := { smallTask with retentionMonths := 12 }

def marchFifteenth : Date := ⟨12 * 2025 + 2, 15, by decide, by decide⟩

def yearBefore : Date := ⟨12 * 2024 + 2, 15, by decide, by decide⟩

/-- The table of March 2024, registered. -/
def marchTable : Registry := register "t" "b_202403" Dict.empty

lemma monthTables_marchTable : MonthTables marchTable :=
  monthTables_empty.register "t" ⟨(by decide : FourDigits (12 * 2024 + 2)), "b", by decide⟩

theorem onTime_iff_marchTable :
    OnTime "t" yearBefore marchTable (archiveOldTables twelveMonths (12 * 2025 + 2) marchTable) ↔
      daysIn (12 * 2024 + 2) ≤ 15 ∨ ∀ table row, marchTable.get? ("t", table) = some row →
        IsTableOf table (12 * 2024 + 2) → row.lifecycleStatus ≠ .active :=
  @onTime_iff marchTable twelveMonths marchFifteenth yearBefore 12 (by decide) (by decide)
    (by decide) (by decide) monthTables_marchTable

/-- On 15 March 2025 the table of March 2024 is archived, and the rows of its second half are less
than a year old. -/
theorem not_onTime_marchTable :
    ¬ ∀ (cfg : TaskConfig) (d e : Date) (r : ℕ) (reg : Registry), 1 ≤ r →
      cfg.retentionMonths = r → d.minusMonths r = some e → FourDigits e.month →
      MonthTables reg → OnTime cfg.taskId e reg (archiveOldTables cfg d.month reg) := by
  intro h
  have hon := h twelveMonths marchFifteenth yearBefore 12 marchTable (by decide) (by decide)
    (by decide) (by decide) monthTables_marchTable
  have hover : Date.MonthOver (12 * 2024 + 2) yearBefore :=
    hon.notShort ("t", "b_202403") { yearMonth := "2024-03" }
      { yearMonth := "2024-03", lifecycleStatus := .archived } (12 * 2024 + 2) (by decide +kernel)
      (by decide +kernel) ⟨by decide, "b", by decide⟩ (by decide) rfl
  have hlast := Date.monthOver_iff.1 hover
  rw [Date.le_iff] at hlast
  revert hlast
  decide

end Tdcs.Retention
