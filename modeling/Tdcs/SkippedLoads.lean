import Tdcs.PipelineCalls
import Tdcs.RowCounts
import Tdcs.TransformSandbox

/-!
Runs that are reported as skipped, and the loads they made.

A `SkipFileError` ends a run as `SKIPPED`. The extractor raises it before the first batch or, where
the text of a JSON file breaks off, after any number of batches.
-/

namespace Tdcs.SkippedLoads

open Tdcs.Lib Tdcs.Extractor Tdcs.Pipeline Tdcs.TransformSandbox

variable {V : Type*}

/-- The run calls `load_batch` for the table and the rows. -/
def CallsLoad (w : World V) (cfg : TaskConfig) (file : FileView V) (s : State V) (table : String)
    (rows : List (Row V)) : Prop :=
  ∃ p s₁ groups s₂ s₃,
    (p, s₁) ∈ Prog.begun (turn w cfg) (stream w.ops file cfg).batches.zipIdx (zeroed s) ∧
    route w cfg p s₁ = (.ok groups, s₂) ∧
    ((table, rows), s₃) ∈ Prog.begun (loadGroup w) groups s₂ ∧
    (ensureTableExists w table s₃).1 = .ok ()

/-- `SkipFileError` is the extractor's: neither the database nor the sandbox raises it. -/
structure NoSkip (w : World V) : Prop where
  db : ∀ n e applied, w.db n = .raise e applied → ∀ msg, e ≠ .skipFile msg
  sandbox : ∀ i batch e, w.sandbox i batch = .error e → ∀ msg, e ≠ .skipFile msg

/-- The stream of the file ends in a `SkipFileError`, behind batches that nothing stops and one of
which leaves a row. -/
def SkipsLate (w : World V) (cfg : TaskConfig) (file : FileView V) (s : State V) : Prop :=
  let st := stream w.ops file cfg
  (∃ msg, st.fail = some (.skipFile msg)) ∧
  Passes w cfg s.created s.clockReads st.batches.zipIdx ∧
  (∀ i < (callPlan w cfg file s).length, ∃ n, w.db (s.dbCalls + i) = .ok n) ∧
  ∃ p ∈ st.batches.zipIdx, rowsOf (returned w cfg p) ≠ []

variable {w : World V} {cfg : TaskConfig} {file : FileView V} {s : State V}

lemma transformBatch_ne_skipFile {F : Type*} (S : Sandbox F) {rows : List (PyVal F)}
    {module func : String} {timeout : ℤ} {e : Exc}
    (h : transformBatch S rows module func timeout = .error e) (msg : String) :
    e ≠ .skipFile msg := by
  rintro rfl
  unfold transformBatch at h
  rcases hdumps : dumps S.fmt (.list rows) with e | payload
  · rw [hdumps] at h
    cases h
    unfold dumps at hdumps
    split at hdumps <;> cases hdumps
  · rw [hdumps] at h
    rcases hstart : S.startError with _ | message
    · simp only [hstart] at h
      split_ifs at h
      · simp at h
      · simp at h
      · rcases hout : TransformSandbox.loads S.fmt (main S module func payload).stdout with _ | v
        · simp [hout] at h
        · rw [hout] at h
          cases v <;> simp at h
    · simp [hstart] at h

/-- The sandbox of the service raises no `SkipFileError`. -/
lemma noSkip_inSandbox {F : Type*} (S : Sandbox F) {w : World (Cell F)} (cfg : TaskConfig)
    (hdb : ∀ n e applied, w.db n = .raise e applied → ∀ msg, e ≠ .skipFile msg) :
    NoSkip (inSandbox S w cfg) := by
  refine ⟨hdb, fun i batch e h => ?_⟩
  simp only [inSandbox] at h
  split at h
  · rename_i e' hbatch
    cases h
    exact transformBatch_ne_skipFile S hbatch
  · split at h <;> cases h
    simp

lemma NoSkip.transform (h : NoSkip w) {i : ℕ} {batch : List (Item V)} {e : Exc}
    (ht : transform w cfg i batch = .error e) (msg : String) : e ≠ .skipFile msg := by
  unfold Pipeline.transform at ht
  split_ifs at ht
  exact h.sandbox i batch e ht msg

lemma NoSkip.ownErrors (h : NoSkip w) : OwnErrors w cfg fun e => ∀ msg, e ≠ .skipFile msg :=
  ⟨fun _ he => he, fun _ _ _ ht => h.transform ht⟩

lemma NoSkip.surface (h : NoSkip w) {n : ℕ} {e : Exc} (he : (database w).raised n = some e)
    (k : Site) (msg : String) : k.surface e ≠ .skipFile msg := by
  cases k with
  | bare =>
    rcases hdb : w.db n with m | ⟨e', applied⟩
    · simp [database, hdb] at he
    · obtain rfl : e' = e := by simpa [database, hdb] using he
      exact h.db n e' applied hdb msg
  | load table =>
    unfold Site.surface
    dsimp only
    split_ifs <;> simp

lemma outcome_skipped {r : Except Exc Unit} :
    (outcome r).1 = .skipped ↔ ∃ msg, r = .error (.skipFile msg) := by
  unfold outcome
  split <;> simp_all

lemma skipped_iff (h : NoSkip w) : (execute w cfg file s).1.status = .skipped ↔
    (Prog.forEach (turn w cfg) (stream w.ops file cfg).batches.zipIdx (zeroed s)).1 = .ok () ∧
      ∃ msg, (stream w.ops file cfg).fail = some (.skipFile msg) := by
  rcases hloop : (Prog.forEach (turn w cfg) (stream w.ops file cfg).batches.zipIdx (zeroed s)).1
    with e | u
  · have hne : ∀ msg, e ≠ .skipFile msg := by
      rcases (calls_loop h.ownErrors).of_error hloop with ⟨k, -, n, e', he', rfl⟩ | he
      · exact h.surface he' k
      · exact he
    rw [(status_of_loop_error hloop).1, outcome_skipped]
    simp [hne]
  · rw [(status_of_loop_ok hloop).1, outcome_skipped]
    cases (stream w.ops file cfg).fail <;> simp

lemma tagged_eq_nil_iff {k : ℕ} {rows : List (Row V)} : tagged w cfg k rows = [] ↔ rows = [] := by
  cases rows <;> simp [tagged]

lemma groupsOf_eq_nil_iff {k : ℕ} {out : List (Item V)} :
    groupsOf w cfg k out = [] ↔ rowsOf out = [] := by
  rw [groupsOf, Dict.group_eq_nil_iff, tagged_eq_nil_iff]

lemma callsLoad_iff
    (hok : (Prog.forEach (turn w cfg) (stream w.ops file cfg).batches.zipIdx (zeroed s)).1 =
      .ok ()) :
    (∃ table rows, CallsLoad w cfg file s table rows ∧ rows ≠ []) ↔
      ∃ p ∈ (stream w.ops file cfg).batches.zipIdx, rowsOf (returned w cfg p) ≠ [] := by
  obtain ⟨hall, hret⟩ := Prog.begun_of_returned hok
  have hturn : ∀ p s₁, (p, s₁) ∈ Prog.begun (turn w cfg) (stream w.ops file cfg).batches.zipIdx
      (zeroed s) → ∃ out, transform w cfg p.2 p.1 = .ok out := by
    intro p s₁ hp
    have := counts_turn s₁ (hret _ hp)
    exact this.1
  constructor
  · rintro ⟨table, rows, ⟨p, s₁, groups, s₂, s₃, hp, hroute, hg, -⟩, -⟩
    obtain ⟨out, hout⟩ := hturn p s₁ hp
    refine ⟨p, Prog.mem_of_mem_begun hp, ?_⟩
    have hgroups : groups = groupsOf w cfg s₁.clockReads out := by
      have h := (route_of_ok hout s₁).1
      rw [hroute] at h
      exact Except.ok.inj h
    have hmem := Prog.mem_of_mem_begun hg
    rw [returned, hout]
    show rowsOf out ≠ []
    intro hnil
    rw [hgroups, groupsOf_eq_nil_iff.2 hnil] at hmem
    cases hmem
  · rintro ⟨p, hp, hrows⟩
    obtain ⟨s₁, hs₁⟩ := hall p hp
    obtain ⟨out, hout⟩ := hturn p s₁ hs₁
    rw [returned, hout] at hrows
    have hroute := (route_of_ok hout s₁).1
    have hgroups : groupsOf w cfg s₁.clockReads out ≠ [] := mt groupsOf_eq_nil_iff.1 hrows
    obtain ⟨⟨table, rows⟩, groups, heq⟩ := List.exists_cons_of_ne_nil hgroups
    -- the first group of the batch
    have hok₁ := hret _ hs₁
    rw [turn_eq, Prog.andThen_of_ok hroute, heq, Prog.forEach] at hok₁
    refine ⟨table, rows, ⟨p, s₁, groupsOf w cfg s₁.clockReads out, (route w cfg p s₁).2,
      (route w cfg p s₁).2, hs₁, Prod.ext hroute rfl, ?_, ?_⟩, ?_⟩
    · rw [heq]
      exact List.mem_cons_self
    · rcases hens : (ensureTableExists w table (route w cfg p s₁).2).1 with e | u
      · rw [Prog.andThen, loadGroup, Prog.andThen_of_error hens] at hok₁
        cases hok₁
      · rfl
    · exact Dict.ne_nil_of_mem_group (heq ▸ List.mem_cons_self)

/-- **Which skipped runs have loaded rows.** A run that is reported as skipped calls `load_batch`
with rows exactly if its file skips late. -/
theorem skippedLoadsNothing_iff (hno : NoSkip w) :
    ((execute w cfg file s).1.status = .skipped →
      ∀ table rows, CallsLoad w cfg file s table rows → rows = []) ↔
      ¬ SkipsLate w cfg file s := by
  have hcalls : DbCalls w (fun e => ∀ msg, e ≠ .skipFile msg) _ (zeroed s)
      (callPlan w cfg file s) _ _ :=
    calls_loop hno.ownErrors
  have hans : ∀ i, (database w).raised ((database w).count (zeroed s) + i) = none ↔
      ∃ n, w.db (s.dbCalls + i) = .ok n := by
    intro i
    have hcount : (database w).count (zeroed s) = s.dbCalls := rfl
    rw [hcount]
    unfold database
    rcases hdb : w.db (s.dbCalls + i) with n | ⟨e, applied⟩ <;> simp [hdb]
  constructor
  · rintro h ⟨hfail, hpass, hdb, hrows⟩
    obtain ⟨⟨⟩, hok, -⟩ := hcalls.returns (fun i hi => (hans i).2 (hdb i hi)) hpass
    obtain ⟨table, rows, hload, hne⟩ := (callsLoad_iff hok).2 hrows
    exact hne (h ((skipped_iff hno).2 ⟨hok, hfail⟩) table rows hload)
  · intro h hskip table rows hload
    obtain ⟨hok, hfail⟩ := (skipped_iff hno).1 hskip
    obtain ⟨hpass, hdb⟩ := hcalls.of_returned hok
    by_contra hne
    exact h ⟨hfail, hpass, fun i hi => (hans i).1 (hdb i hi),
      (callsLoad_iff hok).1 ⟨table, rows, hload, hne⟩⟩

/-- A JSON file that breaks off behind three rows. -/
def brokenFile : FileView String where
  path := "/in/x.json"
  size := 80
  ext := ".json"
  json _ := ⟨[some (smallRow [("id", "1"), ("day", "2024-05-01")]),
    some (smallRow [("id", "2"), ("day", "2024-04-30")]),
    some (smallRow [("id", "3"), ("day", "2024-05-02")])],
    some (.other "IncompleteJSONError" "parse error: premature EOF")⟩

lemma noSkip_smallWorld : NoSkip smallWorld where
  db _ _ _ h := by cases h
  sandbox _ _ _ h := by cases h

theorem skippedLoadsNothing_iff_brokenFile :
    ((execute smallWorld smallTask brokenFile {}).1.status = .skipped →
      ∀ table rows, CallsLoad smallWorld smallTask brokenFile {} table rows → rows = []) ↔
      ¬ SkipsLate smallWorld smallTask brokenFile {} :=
  skippedLoadsNothing_iff noSkip_smallWorld

/-- The file is reported as skipped, and its first two rows have been loaded. -/
theorem not_skippedLoadsNothing_brokenFile :
    ¬ ∀ (w : World String) (cfg : TaskConfig) (file : FileView String) (s : State String),
      NoSkip w → (execute w cfg file s).1.status = .skipped →
        ∀ table rows, CallsLoad w cfg file s table rows → rows = [] := by
  intro h
  have hskip : (execute smallWorld smallTask brokenFile {}).1.status = .skipped := by
    decide +kernel
  have hok := ((skipped_iff noSkip_smallWorld).1 hskip).1
  have hrow : ∃ p ∈ (stream smallWorld.ops brokenFile smallTask).batches.zipIdx,
      rowsOf (returned smallWorld smallTask p) ≠ [] := by
    decide +kernel
  obtain ⟨table, rows, hload, hne⟩ := (callsLoad_iff hok).2 hrow
  exact hne (h smallWorld smallTask brokenFile {} noSkip_smallWorld hskip table rows hload)

end Tdcs.SkippedLoads
