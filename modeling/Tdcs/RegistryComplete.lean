import Tdcs.TableLifecycle

/-!
Sequences of calls of `ensure_table_exists`, and whether the registry has the rows of all that
returned.

A router keeps the tables it has seen to in `_created`, by their names; the registry has its rows
by task and table. Several routers, one in each process, write to one registry.
-/

namespace Tdcs.RegistryComplete

open Tdcs.Lib Tdcs.Lib.Run Tdcs.Lib.Transaction Tdcs.Pipeline Tdcs.TableLifecycle

/-- Where the transaction of a call fails. A template that cannot be read is a `FatalError`; a
commit that raises may have been carried out. -/
inductive Fault
  | connect
  | template
  | createTable
  | insert
  | commit (applied : Bool)
  deriving DecidableEq, Repr

structure Call where
  router : ℕ
  taskId : String
  table : String
  fault : Option Fault
  deriving DecidableEq, Repr

structure Routers where
  registry : Registry
  created : ℕ → List String

inductive Result | returned | raised
  deriving DecidableEq, Repr

/-- The transaction was carried out. -/
def applied : Option Fault → Bool
  | none => true
  | some (.commit applied) => applied
  | some _ => false

/-- The columns `task_id` and `table_name` of the registry have 100 and 150 characters, to which
`INSERT IGNORE` cuts longer values. -/
def column (n : ℕ) (s : String) : String := String.ofList (s.toList.take n)

def key (c : Call) : Key := (column 100 c.taskId, column 150 c.table)

/-- `ensure_table_exists`. -/
def ensureTableExists (s : Routers) (c : Call) : Result × Routers :=
  if c.table ∈ s.created c.router then (.returned, s)
  else match validateTableName c.table with
    | some _ => (.raised, s)
    | none =>
      let registry := if applied c.fault then register (key c).1 (key c).2 s.registry
        else s.registry
      match c.fault with
      | some _ => (.raised, { s with registry })
      | none =>
        (.returned, ⟨registry, Function.update s.created c.router
          (s.created c.router ++ [c.table])⟩)

def step (s : Routers) (c : Call) : Routers := (ensureTableExists s c).2

/-- New routers on a registry. -/
def start (r : Registry) : Routers := ⟨r, fun _ => []⟩

def Has (r : Registry) (k : Key) : Prop := (r.get? k).isSome = true

instance (r : Registry) (k : Key) : Decidable (Has r k) :=
  inferInstanceAs (Decidable ((r.get? k).isSome = true))

/-- A call that returns has its row; one that raises leaves the table to the next call. -/
structure Complete (s : Routers) (c : Call) : Prop where
  registered : (ensureTableExists s c).1 = .returned → Has (step s c).registry (c.taskId, c.table)
  again : (ensureTableExists s c).1 = .raised → c.table ∉ (step s c).created c.router

/-- The call goes past the cache and its transaction writes the row `k`. -/
def Inserts (k : Key) (s : Routers) (c : Call) : Prop :=
  c.table ∉ s.created c.router ∧ validateTableName c.table = none ∧ applied c.fault = true ∧
    key c = k

/-- The row of the call was there from the start, or an earlier call wrote it. -/
def Listed (r : Registry) (p : List Call) (c : Call) : Prop :=
  Has r (c.taskId, c.table) ∨ Once step (Inserts (c.taskId, c.table)) (start r) p

/-- What a call needs, after the calls `p`: its row, where the cache ends it; a task id that fits
the column, where it writes the row itself. -/
structure Needs (r : Registry) (p : List Call) (c : Call) : Prop where
  cached : c.table ∈ (p.foldl step (start r)).created c.router → Listed r p c
  fresh : c.table ∉ (p.foldl step (start r)).created c.router →
    validateTableName c.table = none → c.fault = none → Listed r p c ∨ c.taskId.toList.length ≤ 100

/-! ### One call -/

variable {s : Routers} {c : Call} {k : Key} {r : Registry}

lemma ensure_cases (s : Routers) (c : Call) :
    (c.table ∈ s.created c.router ∧ ensureTableExists s c = (.returned, s)) ∨
    (c.table ∉ s.created c.router ∧ (validateTableName c.table = none → c.fault ≠ none) ∧
      (ensureTableExists s c).1 = .raised ∧ (step s c).created = s.created) ∨
    (c.table ∉ s.created c.router ∧ validateTableName c.table = none ∧ c.fault = none ∧
      (ensureTableExists s c).1 = .returned) := by
  unfold step ensureTableExists
  by_cases hmem : c.table ∈ s.created c.router
  · exact .inl ⟨hmem, by simp [hmem]⟩
  · rcases hv : validateTableName c.table with _ | msg
    · rcases hf : c.fault with _ | fault
      · exact .inr (.inr ⟨hmem, rfl, rfl, by simp [hmem]⟩)
      · exact .inr (.inl ⟨hmem, by simp, by simp [hmem], by simp [hmem]⟩)
    · exact .inr (.inl ⟨hmem, nofun, by simp [hmem], by simp [hmem]⟩)

lemma has_register (taskId table : String) (r : Registry) (k : Key) :
    Has (register taskId table r) k ↔ Has r k ∨ (taskId, table) = k := by
  unfold register Has
  split
  · next row hrow =>
    refine ⟨.inl, ?_⟩
    rintro (h | rfl)
    · exact h
    · rw [hrow, Option.isSome_some]
  · by_cases hk : k = (taskId, table)
    · simp [hk]
    · rw [Dict.get?_set_of_ne _ _ hk]
      simp [Ne.symm hk]

/-- The step lemma of the registry: a row is there that was there or that the call writes. -/
lemma has_step (s : Routers) (c : Call) (k : Key) :
    Has (step s c).registry k ↔ Has s.registry k ∨ Inserts k s c := by
  unfold step ensureTableExists Inserts
  by_cases hmem : c.table ∈ s.created c.router
  · simp [hmem]
  · rcases hv : validateTableName c.table with _ | msg
    · rcases hf : c.fault with _ | fault
      · simp [hmem, applied, has_register]
      · by_cases ha : applied (some fault) = true
        · simp [hmem, ha, has_register]
        · simp [hmem, ha]
    · simp [hmem]

/-! ### The row of the call -/

lemma column_eq_self_iff {n : ℕ} {s : String} : column n s = s ↔ s.toList.length ≤ n := by
  rw [column, ← List.take_eq_self_iff]
  constructor
  · intro h
    simpa using congrArg String.toList h
  · intro h
    rw [h, String.ofList_toList]

lemma length_le_of_validate {table : String} (h : validateTableName table = none) :
    table.toList.length ≤ 64 := by
  unfold validateTableName at h
  dsimp only at h
  split_ifs at h
  omega

lemma key_eq_iff (hvalid : validateTableName c.table = none) :
    key c = (c.taskId, c.table) ↔ c.taskId.toList.length ≤ 100 := by
  have htable : column 150 c.table = c.table := by
    rw [column_eq_self_iff]
    have := length_le_of_validate hvalid
    omega
  rw [key, htable, Prod.mk.injEq, column_eq_self_iff]
  simp

lemma registers_of_fresh (hmem : c.table ∉ s.created c.router)
    (hvalid : validateTableName c.table = none) (hfault : c.fault = none)
    (hfits : c.taskId.toList.length ≤ 100) :
    (ensureTableExists s c).1 = .returned ∧ Has (step s c).registry (c.taskId, c.table) ∧
      c.table ∈ (step s c).created c.router := by
  refine ⟨?_, ?_, ?_⟩
  · simp [ensureTableExists, hmem, hvalid, hfault]
  · rw [has_step]
    exact .inr ⟨hmem, hvalid, by rw [hfault]; rfl, (key_eq_iff hvalid).mpr hfits⟩
  · simp [step, ensureTableExists, hmem, hvalid, hfault]

/-- What `Tdcs.TableLifecycle` says of the end of a transaction. -/
def outcome : Option Fault → Outcome
  | none => .done
  | some fault => .raised (applied (some fault))

/-- The calls here are those of the workers there, where the task id fits its column. -/
lemma ensureStep_eq {V : Type*} (process : ℕ → ℕ) (s : TableLifecycle.State V) (i : ℕ) (job : Job V)
    (table : String) (fault : Option Fault) (hfits : job.cfg.taskId.toList.length ≤ 100) :
    (ensureStep process s i job table (outcome fault)).registry =
        (step ⟨s.registry, s.created⟩ ⟨process i, job.cfg.taskId, table, fault⟩).registry ∧
      (ensureStep process s i job table (outcome fault)).created =
        (step ⟨s.registry, s.created⟩ ⟨process i, job.cfg.taskId, table, fault⟩).created := by
  unfold ensureStep step ensureTableExists
  by_cases hmem : table ∈ s.created (process i)
  · simp [hmem, TableLifecycle.State.setJob]
  · rcases hv : validateTableName table with _ | msg
    · have hkey := (key_eq_iff (c := ⟨process i, job.cfg.taskId, table, fault⟩) hv).mpr hfits
      rcases fault with _ | fault
      · simp [hmem, outcome, applied, hkey, TableLifecycle.State.setJob]
      · simp [hmem, outcome, hkey, TableLifecycle.State.setJob]
    · simp [hmem, TableLifecycle.State.setJob]

/-! ### Sequences of calls -/

lemma has_run (r : Registry) (k : Key) (p : List Call) :
    Has (p.foldl step (start r)).registry k ↔ Has r k ∨ Once step (Inserts k) (start r) p :=
  final_iff_once (I := fun _ => True) (P := fun s => Has s.registry k) (fun _ _ _ => trivial)
    (fun s c _ => has_step s c k) trivial

lemma complete_iff_needs (r : Registry) (p : List Call) (c : Call) :
    Complete (p.foldl step (start r)) c ↔ Needs r p c := by
  have hlisted := has_run r (c.taskId, c.table) p
  generalize hs : p.foldl step (start r) = s at hlisted
  rcases ensure_cases s c with ⟨hmem, heq⟩ | ⟨hmem, hfault, hraised, hsame⟩ |
    ⟨hmem, hvalid, hfault, hreturned⟩
  · -- the cache ends the call
    have hstep : step s c = s := by rw [step, heq]
    constructor
    · intro h
      have hrow := h.registered (by rw [heq])
      rw [hstep, hlisted] at hrow
      exact ⟨fun _ => hrow, fun hno => absurd (hs ▸ hmem) hno⟩
    · intro h
      refine ⟨fun _ => ?_, fun hraised => ?_⟩
      · rw [hstep, hlisted]
        exact h.cached (hs ▸ hmem)
      · rw [heq] at hraised
        cases hraised
  · refine ⟨fun _ => ⟨fun hin => absurd (hs ▸ hin) hmem, fun _ hv hf => absurd hf (hfault hv)⟩,
      fun _ => ⟨fun hret => ?_, fun _ => ?_⟩⟩
    · rw [hraised] at hret
      cases hret
    · rwa [hsame]
  · -- the call writes its row
    have hrow : Has (step s c).registry (c.taskId, c.table) ↔
        Listed r p c ∨ c.taskId.toList.length ≤ 100 := by
      rw [has_step, hlisted, Listed, ← key_eq_iff hvalid]
      simp [Inserts, hmem, hvalid, hfault, applied]
    constructor
    · intro h
      exact ⟨fun hin => absurd (hs ▸ hin) hmem, fun _ _ _ => hrow.mp (h.registered hreturned)⟩
    · intro h
      refine ⟨fun _ => hrow.mpr (h.fresh (hs ▸ hmem) hvalid hfault), fun hraised => ?_⟩
      rw [hreturned] at hraised
      cases hraised

/-- **When the registry is complete.** Every call of the sequence is complete exactly if each has
what it needs. -/
theorem complete_iff (r : Registry) (calls : List Call) :
    Steps step Complete (start r) calls ↔
      ∀ p c q, calls = p ++ c :: q → Needs r p c := by
  rw [steps_iff_at]
  exact forall₄_congr fun p c q _ => complete_iff_needs r p c

/-- Two tasks share a base table: the cache ends the call of the second. -/
theorem not_complete_sharedTable :
    ¬ ∀ (r : Registry) (calls : List Call), Steps step Complete (start r) calls := by
  intro hall
  have h := hall Dict.empty
    [⟨0, "orders", "sales_202405", none⟩, ⟨0, "returns", "sales_202405", none⟩]
  obtain ⟨-, hsecond, -⟩ := h
  exact absurd (hsecond.registered (by decide +kernel)) (by decide +kernel)

end Tdcs.RegistryComplete
