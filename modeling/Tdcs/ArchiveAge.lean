import Tdcs.Lib.Run
import Tdcs.FileArchiver

/-!
How old the files of an archive are when they are compressed and removed.

The jobs compare the modification time of a file with theirs. A file that is archived keeps the
modification time of its source, however long ago that was, and a `.zip` has the time of its
compression. Only a file that is still as it was archived can go too early.
-/

namespace Tdcs.ArchiveAge

open Tdcs.Lib Tdcs.Lib.Run Tdcs.FileArchiver

/-- When a file was archived, and when its source had last been modified; `packed` once it has
become a `.zip`. -/
structure Entry where
  time : ℤ
  mtime : ℤ
  packed : Bool

/-- What a job did to an archived file. -/
inductive Deed
  | compressed
  | removed
  deriving DecidableEq

/-- The files, the time, what is known of the archived ones, and what the jobs have done to them:
with the time of the archiving and that of the job. -/
structure State where
  fs : FS
  clock : ℤ
  entry : FPath → Option Entry
  log : List (Deed × ℤ × ℤ)

/-- `compress` and `cleanup` are one turn of a job; all turns of a job have one time. -/
inductive Act
  /-- A file appears or changes outside the archive. -/
  | arrive (p : FPath) (f : File Data)
  | archive (src : FPath) (uidDst uidTmp : String)
  | compress (uid : String → String) (name : String)
  | cleanup (name : String)

/-- An act, so many seconds after the one before. -/
structure Event where
  elapsed : ℕ
  act : Act

variable (cfg : TaskConfig)

/-- The task moves its files to an archive. -/
def Moves : Prop := cfg.archiveMode = .move ∧ cfg.archiveDir ≠ ""

instance : Decidable (Moves cfg) := by unfold Moves; infer_instance

/-- The archived file is entered under the path that was returned. -/
def noteArchived (s : State) (now : ℤ) (src : FPath) (dst : Option FPath) :
    FPath → Option Entry :=
  match dst, s.fs.get? src with
  | some dst, some f =>
    if Moves cfg then Function.update s.entry dst (some ⟨now, f.mtime, false⟩) else s.entry
  | _, _ => s.entry

def noteDeed (s : State) (now : ℤ) (deed : Deed) (p : FPath) : List (Deed × ℤ × ℤ) :=
  match s.entry p with
  | some r => s.log ++ [(deed, r.time, now)]
  | none => s.log

/-- What happens at `now`. -/
def act (s : State) (now : ℤ) : Act → State
  | .arrive p f =>
    ⟨if p.dir = cfg.archiveDir then s.fs else s.fs.write p f, now, s.entry, s.log⟩
  | .archive src uidDst uidTmp =>
    match archiveAfterSuccess cfg s.fs src uidDst uidTmp with
    | .ok (dst, fs) => ⟨fs, now, noteArchived cfg s now src dst, s.log⟩
    | .error _ => ⟨s.fs, now, s.entry, s.log⟩
  | .compress uid name =>
    if ¬ (cfg.compressAfterDays ≤ 0 ∨ cfg.archiveDir = "") ∧ compressible cfg now s.fs name then
      let p : FPath := ⟨cfg.archiveDir, name⟩
      ⟨compressTurn cfg now uid s.fs name, now,
        Function.update s.entry (zipPath p) ((s.entry p).map fun r => { r with packed := true }),
        noteDeed s now .compressed p⟩
    else ⟨s.fs, now, s.entry, s.log⟩
  | .cleanup name =>
    if ¬ (cfg.cleanupAfterDays ≤ 0 ∨ cfg.archiveDir = "") ∧ expired cfg now s.fs name then
      ⟨cleanupTurn cfg now s.fs name, now, s.entry,
        noteDeed s now .removed ⟨cfg.archiveDir, name⟩⟩
    else ⟨s.fs, now, s.entry, s.log⟩

def step (s : State) (e : Event) : State := act cfg s (s.clock + e.elapsed) e.act

/-- Nothing in the archive is known to have been archived. -/
def start (fs : FS) (clock : ℤ) : State := ⟨fs, clock, fun _ => none, []⟩

def daysOf : Deed → ℤ
  | .compressed => cfg.compressAfterDays
  | .removed => cfg.cleanupAfterDays

/-- Every archived file that was compressed or removed had been archived for the days of the
configuration. -/
def Due (s : State) : Prop :=
  ∀ deed archived now, (deed, archived, now) ∈ s.log → archived + daysOf cfg deed * 86400 ≤ now

/-- The source had not been modified for so many days at `now`, but was archived later than that. -/
def Untimely (days now : ℤ) (r : Entry) : Prop :=
  r.mtime + days * 86400 < now ∧ now < r.time + days * 86400

/-- No file that is still as it was archived is met by a job of that kind. -/
def Spares (s : State) (now days : ℤ) (p : FPath) : Prop :=
  0 < days → cfg.archiveDir ≠ "" → (s.fs.get? p).isSome → ∀ r, s.entry p = some r →
    r.packed = false → ¬ Untimely days now r

/-- **No job runs between the days after the last modification of a source and the days after its
archiving.** -/
def Timely (s : State) (e : Event) : Prop :=
  match e.act with
  | .compress _ name => endsWithZip name = false →
    Spares cfg s (s.clock + e.elapsed) cfg.compressAfterDays ⟨cfg.archiveDir, name⟩
  | .cleanup name =>
    Spares cfg s (s.clock + e.elapsed) cfg.cleanupAfterDays ⟨cfg.archiveDir, name⟩
  | _ => True

/-! ### The jobs are their turns -/

variable {cfg} {s : State} {e : Event} {p : FPath} {now : ℤ} {r : Entry} {f : File Data}

/-- Turns at one time that change the files as `turn` does, unless the job is off. -/
lemma run_turns {turn : FS → String → FS} {off : Prop} [Decidable off] (act : String → Act)
    (hclock : ∀ s name, (step cfg s ⟨0, act name⟩).clock = s.clock)
    (hfs : ∀ s' name, s'.clock = s.clock →
      (step cfg s' ⟨0, act name⟩).fs = if off then s'.fs else turn s'.fs name)
    (names : List String) :
    ((names.map fun name => (⟨0, act name⟩ : Event)).foldl (step cfg) s).fs =
      if off then s.fs else names.foldl turn s.fs := by
  induction names generalizing s with
  | nil => simp
  | cons name names ih =>
    have hstep := hclock s name
    have ih := ih (s := step cfg s ⟨0, act name⟩) fun s' name' h => hfs s' name' (h.trans hstep)
    rw [List.map_cons, List.foldl_cons, ih, hfs s name rfl]
    split_ifs <;> rfl

lemma run_compress (uid : String → String) (names : List String) (s : State) :
    ((names.map fun name => (⟨0, .compress uid name⟩ : Event)).foldl (step cfg) s).fs =
      runCompressJob cfg s.clock uid names s.fs := by
  refine run_turns (.compress uid) (fun s name => ?_) (fun s' name hclock => ?_) names
  · unfold step act
    dsimp only
    split_ifs <;> simp
  · unfold step act compressTurn
    dsimp only
    rw [hclock, Nat.cast_zero, add_zero]
    split_ifs <;> simp_all

lemma run_cleanup (names : List String) (s : State) :
    ((names.map fun name => (⟨0, .cleanup name⟩ : Event)).foldl (step cfg) s).fs =
      runCleanupJob cfg s.clock names s.fs := by
  refine run_turns .cleanup (fun s name => ?_) (fun s' name hclock => ?_) names
  · unfold step act
    dsimp only
    split_ifs <;> simp
  · unfold step act cleanupTurn
    dsimp only
    rw [hclock, Nat.cast_zero, add_zero]
    split_ifs <;> simp_all

/-! ### What the modification times say -/

/-- A file that is as it was archived has the time of its source; a `.zip` that of its
compression. -/
def Dated (r : Entry) (f : File Data) : Prop :=
  (r.packed = true → r.time ≤ f.mtime) ∧ (r.packed = false → f.mtime = r.mtime)

structure Inv (cfg : TaskConfig) (s : State) : Prop where
  dir : ∀ p r, s.entry p = some r → p.dir = cfg.archiveDir
  past : ∀ p r, s.entry p = some r → r.time ≤ s.clock
  dated : ∀ p r f, s.entry p = some r → s.fs.get? p = some f → Dated r f

lemma inv_keep {fs : FS} {log : List (Deed × ℤ × ℤ)} (h : Inv cfg s) (hnow : s.clock ≤ now)
    (hfs : ∀ p f, p.dir = cfg.archiveDir → fs.get? p = some f → s.fs.get? p = some f) :
    Inv cfg ⟨fs, now, s.entry, log⟩ where
  dir := h.dir
  past p r hp := (h.past p r hp).trans hnow
  dated p r f hp hf := h.dated p r f hp (hfs p f (h.dir p r hp) hf)

lemma inv_update {fs : FS} {log : List (Deed × ℤ × ℤ)} {o : Option Entry} (h : Inv cfg s)
    (hnow : s.clock ≤ now) (hdir : p.dir = cfg.archiveDir)
    (hfs : ∀ q f, q ≠ p → fs.get? q = some f → s.fs.get? q = some f)
    (hnew : ∀ r, o = some r → r.time ≤ now ∧ ∀ f, fs.get? p = some f → Dated r f) :
    Inv cfg ⟨fs, now, Function.update s.entry p o, log⟩ := by
  have hentry : ∀ q r, Function.update s.entry p o q = some r →
      (q = p ∧ o = some r) ∨ (q ≠ p ∧ s.entry q = some r) := by
    intro q r hq
    by_cases hqp : q = p
    · subst hqp
      exact .inl ⟨rfl, by rwa [Function.update_self] at hq⟩
    · exact .inr ⟨hqp, by rwa [Function.update_of_ne hqp] at hq⟩
  refine ⟨fun q r hq => ?_, fun q r hq => ?_, fun q r f hq hf => ?_⟩
  · rcases hentry q r hq with ⟨rfl, -⟩ | ⟨-, hq⟩
    · exact hdir
    · exact h.dir q r hq
  · rcases hentry q r hq with ⟨rfl, ho⟩ | ⟨-, hq⟩
    · exact (hnew r ho).1
    · exact (h.past q r hq).trans hnow
  · rcases hentry q r hq with ⟨rfl, ho⟩ | ⟨hqp, hq⟩
    · exact (hnew r ho).2 f hf
    · exact h.dated q r f hq (hfs q f hqp hf)

lemma compressible_eq_true {name : String} (h : compressible cfg now s.fs name = true) :
    ∃ f, s.fs.get? ⟨cfg.archiveDir, name⟩ = some f ∧ endsWithZip name = false ∧
      f.mtime < now - cfg.compressAfterDays * 86400 := by
  unfold compressible at h
  split at h
  · cases h
  · next f hf =>
    simp only [Bool.and_eq_true, Bool.not_eq_true', decide_eq_true_eq] at h
    exact ⟨f, hf, h.1, h.2⟩

lemma expired_eq_true {name : String} (h : expired cfg now s.fs name = true) :
    ∃ f, s.fs.get? ⟨cfg.archiveDir, name⟩ = some f ∧
      f.mtime < now - cfg.cleanupAfterDays * 86400 := by
  unfold expired at h
  split at h
  · cases h
  · next f hf => exact ⟨f, hf, by simpa using h⟩

lemma inv_archive (h : Inv cfg s) (hnow : s.clock ≤ now) {src : FPath} {uidDst uidTmp : String}
    {dst : Option FPath} {fs : FS}
    (hok : archiveAfterSuccess cfg s.fs src uidDst uidTmp = .ok (dst, fs)) :
    Inv cfg ⟨fs, now, noteArchived cfg s now src dst, s.log⟩ := by
  unfold archiveAfterSuccess at hok
  unfold noteArchived
  split at hok
  · next hmode =>
    have hnot : ¬ Moves cfg := fun hm => by simp [hm.1] at hmode
    cases hok
    simp only [if_neg hnot]
    have hkeep : Inv cfg ⟨s.fs, now, s.entry, s.log⟩ := inv_keep h hnow fun _ _ _ hf => hf
    split <;> exact hkeep
  · next hmode =>
    cases hok
    refine inv_keep h hnow fun p f _ hf => ?_
    by_cases hp : p = src
    · subst hp
      rw [Files.get?_unlink_self] at hf
      cases hf
    · rwa [Files.get?_unlink_of_ne hp] at hf
  · next hmode =>
    split_ifs at hok with hdir
    · have hnot : ¬ Moves cfg := fun hm => hm.2 hdir
      cases hok
      simp only [if_neg hnot]
      have hkeep : Inv cfg ⟨s.fs, now, s.entry, s.log⟩ := inv_keep h hnow fun _ _ _ hf => hf
      split <;> exact hkeep
    · -- the file is moved, with its modification time
      dsimp only at hok
      cases hmove : safeMove s.fs src (resolveDst s.fs cfg.archiveDir src uidDst) uidTmp with
      | error text =>
        rw [hmove] at hok
        cases hok
      | ok fs' =>
        rw [hmove] at hok
        cases hok
        cases hsrc : s.fs.get? src with
        | none => simp [safeMove, hsrc] at hmove
        | some f =>
          simp only [if_pos (show Moves cfg from ⟨hmode, hdir⟩)]
          refine inv_update h hnow (resolveDst_dir _ _ _ _) (fun q g hq hg => ?_) fun r hr => ?_
          · have hold := get?_of_safeMove hmove hg
            rwa [if_neg hq] at hold
          · cases hr
            refine ⟨le_refl _, fun g hg => ⟨fun hpacked => by simp at hpacked, fun _ => ?_⟩⟩
            have hold := get?_of_safeMove hmove hg
            rw [if_pos rfl, hsrc] at hold
            rw [Option.some.inj hold]

/-- **One event keeps the invariant.** -/
lemma inv_step (s : State) (e : Event) (h : Inv cfg s) : Inv cfg (step cfg s e) := by
  obtain ⟨elapsed, a⟩ := e
  have hnow : s.clock ≤ s.clock + elapsed := by omega
  unfold step act
  cases a with
  | arrive p f =>
    -- a file arrives outside the archive, whose files stay
    dsimp only
    refine inv_keep h hnow fun q g hq hg => ?_
    split_ifs at hg with hp
    · exact hg
    · have hne : q ≠ p := by
        rintro rfl
        exact hp hq
      rwa [Files.get?_write_of_ne hne] at hg
  | archive src uidDst uidTmp =>
    dsimp only
    split
    · next dst fs hok => exact inv_archive h hnow hok
    · exact inv_keep h hnow fun _ _ _ hf => hf
  | compress uid name =>
    dsimp only
    split_ifs with hc
    · obtain ⟨f, hf, -, -⟩ := compressible_eq_true hc.2
      rw [compressTurn, if_pos hc.2]
      refine inv_update h hnow rfl (fun q g hq hg => get?_of_compress hq hg) fun r hr => ?_
      obtain ⟨r₀, hr₀, rfl⟩ := Option.map_eq_some_iff.mp hr
      -- the zip is a new file, of the time of the job: no earlier than the archiving
      have hpast := h.past _ _ hr₀
      refine ⟨hpast.trans hnow, fun g hg => ⟨fun _ => ?_, fun hpacked => by simp at hpacked⟩⟩
      rw [get?_compress_zipPath hf] at hg
      rw [← Option.some.inj hg]
      exact hpast.trans hnow
    · exact inv_keep h hnow fun _ _ _ hf => hf
  | cleanup name =>
    dsimp only
    split_ifs with hc
    · refine inv_keep h hnow fun q g _ hg => ?_
      rw [cleanupTurn, if_pos hc.2] at hg
      by_cases hq : q = ⟨cfg.archiveDir, name⟩
      · subst hq
        rw [Files.get?_unlink_self] at hg
        cases hg
      · rwa [Files.get?_unlink_of_ne hq] at hg
    · exact inv_keep h hnow fun _ _ _ hf => hf

/-! ### What the jobs do too early -/

lemma due_noteDeed {deed : Deed} {fs : FS} {entry : FPath → Option Entry} (h : Due cfg s) :
    Due cfg ⟨fs, now, entry, noteDeed s now deed p⟩ ↔
      ∀ r, s.entry p = some r → r.time + daysOf cfg deed * 86400 ≤ now := by
  unfold noteDeed
  cases hp : s.entry p with
  | none =>
    simp only [reduceCtorEq, false_implies, implies_true, iff_true]
    exact h
  | some r =>
    constructor
    · intro hdue r' hr'
      cases hr'
      exact hdue deed r.time now (by simp)
    · intro hr deed' archived now' hmem
      rcases List.mem_append.mp hmem with hmem | hmem
      · exact h deed' archived now' hmem
      · cases List.mem_singleton.mp hmem
        exact hr r rfl

/-- Of a file that a job takes for old enough, the entry says so exactly unless it is the age of its
source only. -/
lemma due_iff_spares (h : Inv cfg s) {days : ℤ} (hdays : 0 < days) (hdir : cfg.archiveDir ≠ "")
    (hf : s.fs.get? p = some f) (hold : f.mtime < now - days * 86400) :
    (∀ r, s.entry p = some r → r.time + days * 86400 ≤ now) ↔ Spares cfg s now days p := by
  constructor
  · rintro hdue - - - r hr - ⟨-, huntimely⟩
    have := hdue r hr
    omega
  · intro hspares r hr
    have hdated := h.dated p r f hr hf
    by_cases hpacked : r.packed = true
    · have := hdated.1 hpacked
      omega
    · have hpacked : r.packed = false := by simpa using hpacked
      have hmtime := hdated.2 hpacked
      have hnot := hspares hdays hdir (by simp [hf]) r hr hpacked
      unfold Untimely at hnot
      omega

lemma spares_of_not_old (h : Inv cfg s) {days : ℤ}
    (hyoung : ∀ f, s.fs.get? p = some f → ¬ f.mtime < now - days * 86400) :
    Spares cfg s now days p := by
  intro _ _ hex r hr hpacked huntimely
  obtain ⟨f, hf⟩ := Option.isSome_iff_exists.mp hex
  have hmtime := (h.dated p r f hr hf).2 hpacked
  have := hyoung f hf
  unfold Untimely at huntimely
  omega

lemma due_step_iff (s : State) (e : Event) (h : Inv cfg s) (hdue : Due cfg s) :
    Due cfg (step cfg s e) ↔ Timely cfg s e := by
  obtain ⟨elapsed, a⟩ := e
  have hnow : s.clock ≤ s.clock + elapsed := by omega
  unfold step act Timely
  cases a with
  | arrive p f =>
    simp only [iff_true]
    exact hdue
  | archive src uidDst uidTmp =>
    simp only [iff_true]
    split <;> exact hdue
  | compress uid name =>
    dsimp only
    split_ifs with hc
    · obtain ⟨f, hf, hzip, hold⟩ := compressible_eq_true hc.2
      obtain ⟨hdays, hdir⟩ := not_or.mp hc.1
      rw [due_noteDeed hdue]
      simp only [hzip, forall_const]
      exact due_iff_spares h (not_le.mp hdays) hdir hf hold
    · -- nothing is compressed: no source is old enough
      refine iff_of_true hdue fun hzip hdays hdir => ?_
      refine spares_of_not_old h (fun f hf hold => hc ⟨?_, ?_⟩) hdays hdir
      · rintro (h0 | h0)
        · omega
        · exact hdir h0
      · simp [compressible, hf, hzip, hold]
  | cleanup name =>
    dsimp only
    split_ifs with hc
    · obtain ⟨f, hf, hold⟩ := expired_eq_true hc.2
      obtain ⟨hdays, hdir⟩ := not_or.mp hc.1
      rw [due_noteDeed hdue]
      exact due_iff_spares h (not_le.mp hdays) hdir hf hold
    · -- nothing is removed, and nothing was due
      refine iff_of_true hdue fun hdays hdir => ?_
      refine spares_of_not_old h (fun f hf hold => hc ⟨?_, ?_⟩) hdays hdir
      · rintro (h0 | h0)
        · omega
        · exact hdir h0
      · simp [expired, hf, hold]

/-- **No archived file goes too early exactly if no job runs while the source of one is old enough
and its archiving is not.** -/
theorem due_iff_timely (cfg : TaskConfig) (fs : FS) (clock : ℤ) (l : List Event) :
    Always (step cfg) (Due cfg) (start fs clock) l ↔
      Steps (step cfg) (Timely cfg) (start fs clock) l := by
  have h0 : Inv cfg (start fs clock) := by
    refine ⟨fun _ _ h => ?_, fun _ _ h => ?_, fun _ _ _ h => ?_⟩ <;> cases h
  exact always_iff_steps inv_step due_step_iff h0 (fun _ _ _ hmem => by cases hmem)

/-- A task that moves to `/arc`, with the days of the defaults. -/
def movesToArchive : TaskConfig where
  taskId := "t"
  name := "t"
  monitorFolder := "/in"
  fileExtensions := [".csv"]
  transformerModule := ""
  transformerFunction := ""
  baseTable := "b"
  partitionField := ""
  archiveDir := "/arc"

/-- A file that is a hundred days old arrives and is archived; an hour later the archive is
cleaned. -/
def oldFile : List Event := [
  ⟨0, .arrive ⟨"/in", "x.csv"⟩ ⟨.bytes [1], 0⟩⟩,
  ⟨0, .archive ⟨"/in", "x.csv"⟩ "0a1b2c3d" "4e5f6071"⟩,
  ⟨3600, .cleanup "x.csv"⟩]

theorem not_due_oldFile : ¬ ∀ (cfg : TaskConfig) (fs : FS) (clock : ℤ) (l : List Event),
    Always (step cfg) (Due cfg) (start fs clock) l := by
  intro h
  have hall := h movesToArchive ⟨Dict.empty⟩ (100 * 86400) oldFile
  have hlast := always_iff_states.mp hall oldFile (List.prefix_refl _)
  have hlog : (oldFile.foldl (step movesToArchive) (start ⟨Dict.empty⟩ (100 * 86400))).log =
      [(.removed, 100 * 86400, 100 * 86400 + 3600)] := by decide +kernel
  have hdue := hlast .removed (100 * 86400) (100 * 86400 + 3600)
    (by rw [hlog]; exact List.mem_singleton_self _)
  change (100 * 86400 : ℤ) + 90 * 86400 ≤ 100 * 86400 + 3600 at hdue
  omega

end Tdcs.ArchiveAge
