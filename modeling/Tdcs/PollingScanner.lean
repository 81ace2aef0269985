import Tdcs.ClaimSafety
import Tdcs.WorkerPool

/-!
`PollingScanner`: the scans of one task's folder, beside the claim protocol.

Files come, change and go at any time, each write setting the modification time to the clock.
A scan walks the folder in steps, one for each call it makes; `_scan_lock` lets only one scan
run at a time. What the calls of other components do to `processed_files` are the steps of the
claim protocol.
-/

namespace Tdcs.PollingScanner

open Tdcs.Lib Tdcs.Lib.Run Tdcs.ProcessedFileRepo Tdcs.FileProcessor
open Tdcs.WorkerPool (SubmitResult)

/-- The fields of `TaskConfig` the scanner reads. -/
structure ScanConfig where
  taskId : String
  monitorFolder : String
  fileExtensions : List String
  recursive : Bool := true
  pollIncremental : Bool := true

/-- A file below the folder: the directories on the way, and its name. -/
structure Path where
  dir : List String
  name : String
  deriving DecidableEq, Repr

/-- A path with a modification time. -/
abbrev Version := Path × ℕ

def ScanConfig.fpath (cfg : ScanConfig) (p : Path) : String :=
  "/".intercalate (cfg.monitorFolder :: p.dir ++ [p.name])

/-- `int(stat.st_mtime * 1000)`. -/
def fileMtime (mtime : ℕ) : ℤ := (mtime / 1000 : ℕ)

def ScanConfig.key (cfg : ScanConfig) (v : Version) : Key :=
  ⟨cfg.taskId, cfg.fpath v.1, fileMtime v.2⟩

/-- `any(fname.endswith(e) for e in exts)`. -/
def ScanConfig.matches (cfg : ScanConfig) (fname : String) : Bool :=
  cfg.fileExtensions.any fun e => e.toList.isSuffixOf fname.toList

/-- The file lies where the scanner is to look, and has one of the extensions. -/
def ScanConfig.Monitors (cfg : ScanConfig) (p : Path) : Prop :=
  cfg.matches p.name = true ∧ (cfg.recursive = true ∨ p.dir = [])

/-- The files with their modification times. -/
abbrev Folder := Dict Path ℕ

/-- The entries of a directory that are no directories. -/
def names (fs : Folder) (d : List String) : List String :=
  ((fs.keys.filter fun p => p.dir = d).map Path.name).insertionSort (· ≤ ·)

/-- The directories in a directory that lead to files. -/
def children (fs : Folder) (d : List String) : List String :=
  fs.keys.filterMap fun p => if d <+: p.dir then (p.dir.drop d.length).head? else none

/-- The directories `os.walk` goes on to: none after `dirs.clear()`. -/
def ScanConfig.below (cfg : ScanConfig) (d : List String) (subs : List String) :
    List (List String) :=
  if cfg.recursive then subs.map (d ++ [·]) else []

/-- The call a scan makes next: on the walk `os.stat` of the next name, or the listing of the
next directory where no name is left; and then the calls for the name at hand. -/
inductive Pc
  | walk
  | getStatus (mtime : ℕ)
  | fromStat (mtime : ℕ)
  | submit (mtime : ℕ)
  deriving DecidableEq, Repr

/-- `st_mtime` of the file at hand. -/
def Pc.mtime : Pc → Option ℕ
  | .walk => none
  | .getStatus m | .fromStat m | .submit m => some m

/-- A scan under way. `steady`, `due` and `submitted` are for the record: the files that have
been there unchanged since the scan began, those among them that were due for a retry, and the
versions the scan has handed to `submit`. -/
structure Scan where
  start : ℕ
  last : ℕ
  todo : List (List String)
  root : List String := []
  names : List String := []
  pc : Pc := .walk
  steady : Path → Bool
  due : Path → Bool
  submitted : List Version := []

/-- `mark` is `_last_scan_mtime`. `accepted` and `due` are for the record: the versions that a
`submit` of the scanner has answered with `QUEUED`, and the files that wait for a retry. -/
structure State where
  protocol : ClaimProtocol.State
  files : Folder
  mark : ℕ
  scan : Option Scan
  accepted : List Version
  due : Path → Bool

def init : State := ⟨ClaimProtocol.init, Dict.empty, 0, none, [], fun _ => false⟩

def State.clock (s : State) : ℕ := s.protocol.clock

inductive Event
  | protocol (e : ClaimProtocol.Event)
  /-- The file arrives or is modified. -/
  | write (p : Path)
  | remove (p : Path)
  | start
  /-- The scan lists the next directory and finds the directories `subs` in it. -/
  | list (subs : List String)
  | stat
  | getStatus
  | fromStat
  | submit (r : SubmitResult)
  /-- The pending call raises and the exception ends the scan. -/
  | raise
  | finish

/-- The file at hand. -/
def Scan.current (c : Scan) : Option Path := c.names.head?.map (⟨c.root, ·⟩)

/-- `continue`. -/
def Scan.next (c : Scan) : Scan := { c with names := c.names.tail, pc := .walk }

/-- `get_status` answers `SUCCESS`. -/
def State.succeeded (cfg : ScanConfig) (s : State) (v : Version) : Bool :=
  (s.protocol.table.row (cfg.key v)).any (·.status = .success)

/-- The version is done, or the worker pool has taken it. -/
def Covered (cfg : ScanConfig) (s : State) (v : Version) : Prop :=
  s.succeeded cfg v = true ∨ v ∈ s.accepted

variable (cfg : ScanConfig) (w : ℕ → ClaimProtocol.Worker) (deps : Deps)

/-- A run of `FileProcessor.__call__` on the file as it is now learns from `mark_failed` that
the attempt that ended `RETRY` was not the last. -/
def State.retries (s : State) (e : ClaimProtocol.Event) (p : Path) : Bool :=
  match e with
  | .db r =>
    match (s.protocol.runs r).pc, s.files.get? p with
    | .markRetry maxRetries result, some m =>
      !(s.protocol.runs r).stopped && (w r).key = cfg.key (p, m) &&
        match (s.protocol.perform w r (.markFailed result.errorType result.errorStr)).1 with
        | .retryCount n => n < maxRetries
        | _ => false
    | _, _ => false
  | _ => false

/-- The file changes or goes: it is not the file it was. -/
def State.touch (s : State) (p : Path) : State :=
  { s with
    due := Function.update s.due p false
    scan := s.scan.map fun c => { c with
      steady := Function.update c.steady p false
      due := Function.update c.due p false } }

/-- A step of the scan `c`. -/
def scanStep (s : State) (c : Scan) : Event → State
  | .list subs =>
    match c.pc, c.names, c.todo with
    | .walk, [], d :: todo =>
      if ∀ x ∈ children s.files d, x ∈ subs then
        { s with scan := some { c with
            root := d
            names := PollingScanner.names s.files d
            todo := cfg.below d subs ++ todo } }
      else s
    | _, _, _ => s
  | .stat =>
    match c.pc, c.names with
    | .walk, fname :: _ =>
      if !cfg.matches fname then { s with scan := some c.next }
      else
        match s.files.get? ⟨c.root, fname⟩ with
        | none => { s with scan := some c.next }
        | some mtime =>
          if cfg.pollIncremental && mtime ≤ c.last then { s with scan := some c.next }
          else { s with scan := some { c with pc := .getStatus mtime } }
    | _, _ => s
  | .getStatus =>
    match c.pc, c.current with
    | .getStatus mtime, some p =>
      if s.succeeded cfg (p, mtime) then { s with scan := some c.next }
      else { s with scan := some { c with pc := .fromStat mtime } }
    | _, _ => s
  | .fromStat =>
    match c.pc, c.current with
    | .fromStat mtime, some p =>
      if (s.files.get? p).isSome then { s with scan := some { c with pc := .submit mtime } }
      else { s with scan := none, due := fun p => s.due p || c.due p }
    | _, _ => s
  | .submit r =>
    match c.pc, c.current with
    | .submit mtime, some p =>
      { s with
        scan := some { c.next with submitted := (p, mtime) :: c.submitted }
        accepted := if r = .queued then (p, mtime) :: s.accepted else s.accepted }
    | _, _ => s
  | .raise => { s with scan := none, due := fun p => s.due p || c.due p }
  | .finish =>
    match c.pc, c.names, c.todo with
    | .walk, [], [] => { s with scan := none, mark := max s.mark c.start }
    | _, _, _ => s
  | _ => s

def step (s : State) : Event → State
  | .protocol e =>
    { s with
      protocol := ClaimProtocol.step w deps s.protocol e
      due := fun p => s.due p || s.retries cfg w e p }
  | .write p => { s.touch p with files := s.files.set p s.clock }
  | .remove p => { s.touch p with files := s.files.erase p }
  | .start =>
    match s.scan with
    | some _ => s
    | none =>
      { s with
        scan := some {
          start := s.clock
          last := s.mark
          todo := [[]]
          steady := fun p => (s.files.get? p).isSome
          due := s.due }
        due := fun _ => false }
  | e =>
    match s.scan with
    | none => s
    | some c => scanStep cfg s c e

/-- The walk of the scan is over. -/
def Scan.Over (c : Scan) : Prop := c.pc = .walk ∧ c.names = [] ∧ c.todo = []

instance (c : Scan) : Decidable c.Over := inferInstanceAs (Decidable (_ ∧ _ ∧ _))

/-! ### The kinds of steps a scan takes -/

/-- Why the scan leaves the file at hand, a version of which it has seen if at all. -/
inductive Leaves (s : State) (c : Scan) (e : Event) (p : Path) : Prop
  | extension (h : cfg.matches p.name = false)
  | gone (h : s.files.get? p = none)
  | old (m : ℕ) (h : s.files.get? p = some m) (hinc : cfg.pollIncremental = true)
      (hle : m ≤ c.last)
  | done (m : ℕ) (he : e = .getStatus) (h : c.pc = .getStatus m)
    (hs : s.succeeded cfg (p, m) = true)

/-- The scan `c`, in the state `s`, takes a step and leaves the state as the third argument has
it. -/
inductive Turn (s : State) (c : Scan) : Event → State → Prop
  | list (subs : List String) (d : List String) (todo : List (List String)) (hpc : c.pc = .walk)
      (hn : c.names = []) (ht : c.todo = d :: todo) (hsub : ∀ x ∈ children s.files d, x ∈ subs) :
      Turn s c (.list subs) { s with scan := some { c with
        root := d
        names := names s.files d
        todo := cfg.below d subs ++ todo } }
  | leave (e : Event) (p : Path) (hp : c.current = some p) (h : Leaves cfg s c e p) :
      Turn s c e { s with scan := some c.next }
  | look (p : Path) (m : ℕ) (hpc : c.pc = .walk) (hp : c.current = some p)
      (h : s.files.get? p = some m) (hnew : cfg.pollIncremental = true → c.last < m) :
      Turn s c .stat { s with scan := some { c with pc := .getStatus m } }
  | call (e : Event) (pc : Pc) (m : ℕ) (h : c.pc.mtime = some m) (hpc : pc.mtime = some m) :
      Turn s c e { s with scan := some { c with pc := pc } }
  | submit (r : SubmitResult) (p : Path) (m : ℕ) (hpc : c.pc = .submit m)
      (hp : c.current = some p) :
      Turn s c (.submit r) { s with
        scan := some { c.next with submitted := (p, m) :: c.submitted }
        accepted := if r = .queued then (p, m) :: s.accepted else s.accepted }
  | abort (e : Event) : Turn s c e { s with scan := none, due := fun p => s.due p || c.due p }
  | finish (h : c.Over) : Turn s c .finish { s with scan := none, mark := max s.mark c.start }
  | idle (e : Event) : Turn s c e s

variable {cfg w deps} {s s' : State} {c : Scan} {e : Event}

lemma turn_scanStep (s : State) (c : Scan) (e : Event) : Turn cfg s c e (scanStep cfg s c e) := by
  have hcur : ∀ {fname rest}, c.names = fname :: rest → c.current = some ⟨c.root, fname⟩ := by
    intro fname rest h
    simp [Scan.current, h]
  cases e with
  | list subs =>
    unfold scanStep
    dsimp only
    split
    · rename_i d todo hpc hn ht
      split_ifs with h
      · exact .list subs d todo hpc hn ht h
      · exact .idle _
    · exact .idle _
  | stat =>
    unfold scanStep
    dsimp only
    split
    · rename_i fname rest hpc hn
      split_ifs with h
      · -- no monitored extension
        exact .leave _ _ (hcur hn) (.extension (by simpa using h))
      · split
        · -- removed since it was listed
          rename_i hf
          exact .leave _ _ (hcur hn) (.gone hf)
        · rename_i m hf
          split_ifs with hold
          · -- not newer than the last scan: left without a look at its row
            simp only [Bool.and_eq_true, decide_eq_true_eq] at hold
            exact .leave _ _ (hcur hn) (.old m hf hold.1 hold.2)
          · simp only [Bool.and_eq_true, decide_eq_true_eq, not_and, Nat.not_le] at hold
            exact .look _ m hpc (hcur hn) hf hold
    · exact .idle _
  | getStatus =>
    unfold scanStep
    dsimp only
    split
    · rename_i m p hpc hp
      split_ifs with h
      · -- the row says that the file is done
        exact .leave _ p hp (.done m rfl hpc h)
      · exact .call _ _ m (by rw [hpc]; rfl) rfl
    · exact .idle _
  | fromStat =>
    unfold scanStep
    dsimp only
    split
    · rename_i m p hpc hp
      split_ifs with h
      · exact .call _ _ m (by rw [hpc]; rfl) rfl
      · exact .abort _
    · exact .idle _
  | submit r =>
    unfold scanStep
    dsimp only
    split
    · rename_i m p hpc hp
      exact .submit r p m hpc hp
    · exact .idle _
  | raise => exact .abort _
  | finish =>
    unfold scanStep
    dsimp only
    split
    · rename_i hpc hn ht
      exact .finish ⟨hpc, hn, ht⟩
    · exact .idle _
  | _ => exact .idle _

/-- What a step is that neither the folder nor the protocol takes. -/
inductive Event.OfScan : Event → Prop
  | list (subs : List String) : OfScan (.list subs)
  | stat : OfScan .stat
  | getStatus : OfScan .getStatus
  | fromStat : OfScan .fromStat
  | submit (r : SubmitResult) : OfScan (.submit r)
  | raise : OfScan .raise
  | finish : OfScan .finish

lemma step_ofScan_none (he : e.OfScan) (h : s.scan = none) : step cfg w deps s e = s := by
  cases he <;> simp [step, h]

lemma turn_step (he : e.OfScan) (h : s.scan = some c) :
    Turn cfg s c e (step cfg w deps s e) := by
  have heq : step cfg w deps s e = scanStep cfg s c e := by
    cases he <;> simp [step, h]
  rw [heq]
  exact turn_scanStep s c e

lemma Turn.frame (h : Turn cfg s c e s') : s'.files = s.files ∧ s'.protocol = s.protocol := by
  cases h <;> exact ⟨rfl, rfl⟩

/-- What a scan notes when it begins stays. -/
lemma Turn.kept (h : Turn cfg s c e s') (hs : s.scan = some c) {c' : Scan}
    (hc' : s'.scan = some c') :
    c'.steady = c.steady ∧ c'.due = c.due ∧ c'.start = c.start ∧ c'.last = c.last := by
  cases h with
  | abort | finish => cases hc'
  | idle =>
    obtain rfl := Option.some.inj (hs.symm.trans hc')
    exact ⟨rfl, rfl, rfl, rfl⟩
  | _ =>
    obtain rfl := Option.some.inj hc'
    exact ⟨rfl, rfl, rfl, rfl⟩

/-! ### What a walk has still to visit -/

/-- The file is among the names left, or in or below a directory still to be listed. -/
def Pending (cfg : ScanConfig) (c : Scan) (p : Path) : Prop :=
  (p.dir = c.root ∧ p.name ∈ c.names) ∨
    ∃ d ∈ c.todo, d <+: p.dir ∧ (cfg.recursive = true ∨ d = p.dir)

lemma mem_keys {fs : Folder} {p : Path} {m : ℕ} (h : fs.get? p = some m) : p ∈ fs.keys :=
  List.mem_map.mpr ⟨(p, m), Dict.get?_eq_some_iff.mp h, rfl⟩

lemma mem_names {fs : Folder} {p : Path} {m : ℕ} (h : fs.get? p = some m) :
    p.name ∈ names fs p.dir := by
  refine (List.mem_insertionSort _).mpr (List.mem_map.mpr ⟨p, ?_, rfl⟩)
  simpa using mem_keys h

lemma mem_children {fs : Folder} {p : Path} {m : ℕ} (h : fs.get? p = some m) {d : List String}
    (hd : d <+: p.dir) (hne : d ≠ p.dir) : ∃ x ∈ children fs d, d ++ [x] <+: p.dir := by
  obtain ⟨rest, hrest⟩ := hd
  cases rest with
  | nil => exact absurd (by simpa using hrest) hne
  | cons x rest =>
    refine ⟨x, List.mem_filterMap.mpr ⟨p, mem_keys h, ?_⟩, rest, by simp [← hrest]⟩
    simp [← hrest]

lemma Pending.next {p q : Path} (h : Pending cfg c p) (hq : c.current = some q) :
    Pending cfg c.next p ∨ p = q := by
  unfold Scan.current at hq
  rcases hn : c.names with _ | ⟨fname, rest⟩
  · simp [hn] at hq
  · simp only [hn, List.head?_cons, Option.map_some, Option.some.injEq] at hq
    subst hq
    rcases h with ⟨hd, hmem⟩ | h
    · rw [hn] at hmem
      rcases List.mem_cons.mp hmem with heq | hmem
      · exact .inr (by rw [← hd, ← heq])
      · exact .inl (.inl ⟨hd, by simpa [Scan.next, hn] using hmem⟩)
    · exact .inl (.inr h)

/-- **A walk misses nothing.** A file that is there is still to be visited after a turn, or it
was at hand, and the scan has handed it over or had a reason to leave it. -/
theorem Turn.pending (h : Turn cfg s c e s') (hs : s.scan = some c) {c' : Scan}
    (hc' : s'.scan = some c') {p : Path} {m : ℕ} (hf : s.files.get? p = some m)
    (hp : Pending cfg c p) :
    Pending cfg c' p ∨ c.current = some p ∧ (Leaves cfg s c e p ∨
      ∃ r m', e = .submit r ∧ c.pc = .submit m' ∧ (p, m') ∈ c'.submitted ∧
        (r = .queued → (p, m') ∈ s'.accepted)) := by
  cases h with
  | list subs d todo hpc hn ht hsub =>
    obtain rfl := Option.some.inj hc'
    refine .inl ?_
    rcases hp with ⟨-, hmem⟩ | ⟨d', hd', hpre, hrec⟩
    · rw [hn] at hmem
      cases hmem
    · rw [ht] at hd'
      rcases List.mem_cons.mp hd' with rfl | hd'
      · -- the directory just listed: its own names, and its children if the scan goes below
        by_cases heq : d' = p.dir
        · exact .inl ⟨heq.symm, heq ▸ mem_names hf⟩
        · have hrec := hrec.resolve_right heq
          obtain ⟨x, hx, hpre'⟩ := mem_children hf hpre heq
          refine .inr ⟨d' ++ [x], List.mem_append_left _ ?_, hpre', .inl hrec⟩
          rw [ScanConfig.below, if_pos hrec]
          exact List.mem_map_of_mem (hsub x hx)
      · exact .inr ⟨d', List.mem_append_right _ hd', hpre, hrec⟩
  | leave e q hq hl =>
    obtain rfl := Option.some.inj hc'
    rcases hp.next hq with hp | rfl
    · exact .inl hp
    · exact .inr ⟨hq, .inl hl⟩
  | look | call =>
    obtain rfl := Option.some.inj hc'
    exact .inl hp
  | submit r q m' hpc hq =>
    obtain rfl := Option.some.inj hc'
    rcases hp.next hq with hp | rfl
    · exact .inl hp
    · refine .inr ⟨hq, .inr ⟨r, m', rfl, hpc, List.mem_cons_self, fun hr => ?_⟩⟩
      simp [hr]
  | abort | finish => cases hc'
  | idle =>
    obtain rfl := Option.some.inj (hs.symm.trans hc')
    exact .inl hp

lemma not_pending_of_over (h : c.Over) (p : Path) : ¬ Pending cfg c p := by
  obtain ⟨-, hn, ht⟩ := h
  rintro (⟨-, hmem⟩ | ⟨d, hd, -⟩)
  · rw [hn] at hmem
    cases hmem
  · rw [ht] at hd
    cases hd

/-! ### What a scan knows of the files -/

/-- A file a scan takes for steady is there, and is the version the scan has at hand if it is
the file at hand. -/
structure Tracks (fs : Folder) (c : Scan) : Prop where
  there : ∀ p, c.steady p = true → ∃ m, fs.get? p = some m
  due : ∀ p, c.due p = true → c.steady p = true
  current : ∀ p m, c.pc.mtime = some m → c.current = some p → c.steady p = true →
    fs.get? p = some m

/-- Times in the past, and a scan that tracks its files. -/
structure Sound (s : State) : Prop where
  due : ∀ p, s.due p = true → ∃ m, s.files.get? p = some m
  written : ∀ p m, s.files.get? p = some m → m ≤ s.clock
  mark : s.mark ≤ s.clock
  scan : ∀ c, s.scan = some c → Tracks s.files c ∧ c.start ≤ s.clock ∧ c.last ≤ s.mark

lemma sound_init : Sound init where
  due _ h := by cases h
  written _ _ h := by cases h
  mark := le_rfl
  scan _ h := by cases h

lemma clock_step_protocol (s : ClaimProtocol.State) (e : ClaimProtocol.Event) :
    s.clock ≤ (ClaimProtocol.step w deps s e).clock := by
  cases e with
  | tick d => exact Nat.le_add_right _ _
  | stop | retryFile => exact le_rfl
  | call r a =>
    unfold ClaimProtocol.step
    dsimp only
    split_ifs <;> exact le_rfl
  | db r =>
    unfold ClaimProtocol.step
    dsimp only
    split_ifs
    · exact le_rfl
    · split <;> exact le_rfl

lemma Turn.tracks (h : Turn cfg s c e s') (hs : s.scan = some c) (ht : Tracks s.files c)
    {c' : Scan} (hc' : s'.scan = some c') : Tracks s'.files c' := by
  obtain ⟨hst, hdue, -, -⟩ := h.kept hs hc'
  rw [h.frame.1]
  refine ⟨fun p hp => ht.there p (by rwa [hst] at hp), fun p hp => ?_, fun p m hm hp hsteady => ?_⟩
  · rw [hst]
    exact ht.due p (by rwa [hdue] at hp)
  · rw [hst] at hsteady
    cases h with
    | list subs d todo hpc =>
      obtain rfl := Option.some.inj hc'
      rw [hpc] at hm
      cases hm
    | leave | submit =>
      obtain rfl := Option.some.inj hc'
      cases hm
    | look q m' hpc hq hf =>
      -- only here the scan takes a modification time from the folder
      obtain rfl := Option.some.inj hc'
      obtain rfl := Option.some.inj (hq.symm.trans hp)
      cases hm
      exact hf
    | call e pc m' h1 h2 =>
      obtain rfl := Option.some.inj hc'
      obtain rfl := Option.some.inj (h2.symm.trans hm)
      exact ht.current p _ h1 hp hsteady
    | abort | finish => cases hc'
    | idle =>
      obtain rfl := Option.some.inj (hs.symm.trans hc')
      exact ht.current p m hm hp hsteady

lemma of_unmarked {f : Path → Bool} {p q : Path} (h : Function.update f q false p = true) :
    p ≠ q ∧ f p = true := by
  by_cases hpq : p = q
  · subst hpq
    simp at h
  · exact ⟨hpq, by rwa [Function.update_of_ne hpq] at h⟩

lemma Tracks.touch {fs fs' : Folder} {q : Path} (h : Tracks fs c)
    (hfs : ∀ p, p ≠ q → fs'.get? p = fs.get? p) :
    Tracks fs' { c with
      steady := Function.update c.steady q false
      due := Function.update c.due q false } := by
  refine ⟨fun p hp => ?_, fun p hp => ?_, fun p m hm hcur hp => ?_⟩
  · obtain ⟨hpq, hst⟩ := of_unmarked hp
    rw [hfs p hpq]
    exact h.there p hst
  · by_cases hpq : p = q
    · subst hpq
      simp at hp
    · simp only [Function.update_of_ne hpq] at hp ⊢
      exact h.due p hp
  · obtain ⟨hpq, hst⟩ := of_unmarked hp
    rw [hfs p hpq]
    exact h.current p m hm hcur hst

lemma Sound.touch (h : Sound s) {q : Path} {fs' : Folder}
    (hfs : ∀ p, p ≠ q → fs'.get? p = s.files.get? p)
    (hq : ∀ m, fs'.get? q = some m → m = s.clock) : Sound { s.touch q with files := fs' } where
  due p hp := by
    by_cases hpq : p = q
    · subst hpq
      simp [State.touch] at hp
    · simp only [State.touch, Function.update_of_ne hpq] at hp
      rw [hfs p hpq]
      exact h.due p hp
  written p m hm := by
    by_cases hpq : p = q
    · subst hpq
      exact (hq m hm).le
    · exact h.written p m (by rwa [hfs p hpq] at hm)
  mark := h.mark
  scan c' hc' := by
    obtain ⟨c, hc, rfl⟩ := Option.map_eq_some_iff.mp hc'
    obtain ⟨ht, hstart, hlast⟩ := h.scan c hc
    exact ⟨ht.touch hfs, hstart, hlast⟩

lemma Sound.turn (h : Sound s) (hs : s.scan = some c) (ht : Turn cfg s c e s') : Sound s' := by
  obtain ⟨htr, hstart, hlast⟩ := h.scan c hs
  obtain ⟨hfiles, hprot⟩ := ht.frame
  have hclock : s'.clock = s.clock := by simp [State.clock, hprot]
  have hmark : s.mark ≤ s'.mark ∧ s'.mark ≤ s.clock := by
    cases ht with
    | finish => exact ⟨le_max_left _ _, max_le h.mark hstart⟩
    | _ => exact ⟨le_rfl, h.mark⟩
  refine ⟨fun p hp => ?_, fun p m hm => ?_, hclock ▸ hmark.2,
    fun c' hc' => ⟨ht.tracks hs htr hc', ?_⟩⟩
  · rw [hfiles]
    have hdue : s.due p = true ∨ c.due p = true := by
      cases ht with
      | abort => exact Bool.or_eq_true_iff.mp hp
      | _ => exact .inl hp
    rcases hdue with hp | hp
    · exact h.due p hp
    · exact htr.there p (htr.due p hp)
  · rw [hclock]
    exact h.written p m (hfiles ▸ hm)
  · obtain ⟨-, -, h1, h2⟩ := ht.kept hs hc'
    rw [h1, h2, hclock]
    exact ⟨hstart, hlast.trans hmark.1⟩

lemma files_of_retries {e : ClaimProtocol.Event} {p : Path} (h : s.retries cfg w e p = true) :
    ∃ m, s.files.get? p = some m := by
  unfold State.retries at h
  split at h
  · split at h
    · exact ⟨_, ‹_›⟩
    · cases h
  · cases h

/-- **The step lemma** of what holds in every run. -/
theorem Sound.step (h : Sound s) (e : Event) : Sound (step cfg w deps s e) := by
  have hscan : e.OfScan → Sound (PollingScanner.step cfg w deps s e) := fun he => by
    rcases hs : s.scan with _ | c
    · rwa [step_ofScan_none he hs]
    · exact h.turn hs (turn_step he hs)
  cases e with
  | protocol e =>
    have hclock : s.protocol.clock ≤ (ClaimProtocol.step w deps s.protocol e).clock :=
      clock_step_protocol s.protocol e
    refine ⟨fun p hp => ?_, fun p m hm => (h.written p m hm).trans hclock, h.mark.trans hclock,
      fun c hc => ?_⟩
    · rcases Bool.or_eq_true_iff.mp hp with hp | hp
      · exact h.due p hp
      · exact files_of_retries (s := s) hp
    · obtain ⟨ht, hstart, hlast⟩ := h.scan c hc
      exact ⟨ht, hstart.trans hclock, hlast⟩
  | write p =>
    refine h.touch (fun q hq => Dict.get?_set_of_ne _ _ hq) fun m hm => ?_
    rw [Dict.get?_set_self] at hm
    exact (Option.some.inj hm).symm
  | remove p =>
    refine h.touch (fun q hq => Dict.get?_erase_of_ne _ hq) fun m hm => ?_
    rw [Dict.get?_erase_self] at hm
    cases hm
  | start =>
    unfold PollingScanner.step
    dsimp only
    rcases hs : s.scan with _ | c
    · -- a new scan: what is there now is what it will have to look at
      refine ⟨nofun, h.written, h.mark, fun c hc => ?_⟩
      obtain rfl := Option.some.inj hc
      refine ⟨⟨fun p hp => Option.isSome_iff_exists.mp hp, fun p hp => ?_, nofun⟩, le_rfl, le_rfl⟩
      exact Option.isSome_iff_exists.mpr (h.due p hp)
    · exact h
  | list subs => exact hscan (.list subs)
  | stat => exact hscan .stat
  | getStatus => exact hscan .getStatus
  | fromStat => exact hscan .fromStat
  | submit r => exact hscan (.submit r)
  | raise => exact hscan .raise
  | finish => exact hscan .finish

end Tdcs.PollingScanner
