import Tdcs.PollingScanner

/-!
Whether the scans of a folder miss a file.

At the end of a scan the mark moves to its start, and an incremental scan leaves every file that
is not newer than the mark. The scan does not look at the answer of `submit`, so a file the
worker pool has turned away is behind the mark like one it has taken.
-/

namespace Tdcs.ScanCoverage

open Tdcs.Lib Tdcs.Lib.Run Tdcs.ProcessedFileRepo Tdcs.PollingScanner
open Tdcs.ClaimProtocol (Worker)
open Tdcs.FileProcessor (Deps)

variable (cfg : ScanConfig) (w : ℕ → Worker) (deps : Deps)

/-- When a scan ends, every file it was to look at that has been there unchanged since before it
began is done or has been accepted. -/
def LosesNone (s : State) : Event → Prop
  | .finish => ∀ c, s.scan = some c → c.Over → ∀ p m, c.steady p = true →
      s.files.get? p = some m → cfg.Monitors p → Covered cfg s (p, m)
  | _ => True

/-- The answer to `submit` is `QUEUED`, or the version has gone or is covered already; no file
the incremental scans look for is written at the very moment the mark or the scan under way
has; and the terminal marks of `processed_files` are made in time. -/
def Accepts (s : State) : Event → Prop
  | .submit r => r = .queued ∨ ∀ c p m, s.scan = some c → c.pc = .submit m →
      c.current = some p → c.steady p = true → Covered cfg s (p, m)
  | .write p => cfg.pollIncremental = true → cfg.Monitors p →
      s.clock ≠ s.mark ∧ ∀ c ∈ s.scan, s.clock ≠ c.start
  | .protocol e => ClaimProtocol.MarksInTime w s.protocol e
  | _ => True

/-- What the scan under way has seen to: the steady files it is not still to visit, and those
written since are newer than its start. -/
structure Covering (s : State) (c : Scan) : Prop where
  fresh : cfg.pollIncremental = true → ∀ p m, s.files.get? p = some m → cfg.Monitors p →
    c.steady p = false → c.start < m
  visit : ∀ p m, c.steady p = true → s.files.get? p = some m → cfg.Monitors p →
    Pending cfg c p ∨ Covered cfg s (p, m)

structure Inv (s : State) : Prop where
  sound : Sound s
  protocol : ClaimProtocol.Inv w s.protocol
  /-- What an incremental scan would leave is covered. -/
  old : cfg.pollIncremental = true → ∀ p m, s.files.get? p = some m → cfg.Monitors p →
    m ≤ s.mark → Covered cfg s (p, m)
  scan : ∀ c, s.scan = some c → Covering cfg s c

variable {cfg w deps} {s s' : State} {c : Scan} {e : Event}

lemma inv_init : Inv cfg w init where
  sound := sound_init
  protocol := ClaimProtocol.inv_init
  old _ _ _ h := by cases h
  scan _ h := by cases h

/-! ### Covered versions stay covered -/

lemma succeeded_iff {v : Version} : s.succeeded cfg v = true ↔
    ∃ row, s.protocol.table.row (cfg.key v) = some row ∧ row.status = .success := by
  simp [State.succeeded, Option.any_eq_true]

lemma covered_protocol (h : ClaimProtocol.Inv w s.protocol) {e : ClaimProtocol.Event}
    (hm : ClaimProtocol.MarksInTime w s.protocol e) {v : Version} (hv : Covered cfg s v) :
    Covered cfg (step cfg w deps s (.protocol e)) v := by
  refine Or.imp (fun hs => ?_) id hv
  obtain ⟨row, hrow, hst⟩ := succeeded_iff.mp hs
  exact succeeded_iff.mpr (ClaimSafety.success_step h hm hrow hst)

lemma covered_turn (ht : Turn cfg s c e s') {v : Version} (hv : Covered cfg s v) :
    Covered cfg s' v := by
  refine Or.imp (fun hs => ?_) (fun hv => ?_) hv
  · rw [State.succeeded, ht.frame.2]
    exact hs
  · cases ht with
    | submit r p m hpc hp =>
      dsimp only
      split_ifs
      · exact List.mem_cons_of_mem _ hv
      · exact hv
    | _ => exact hv

/-! ### The steps -/

lemma Inv.covered_of_leaves (h : Inv cfg w s) (hs : s.scan = some c) {p : Path} {m : ℕ}
    (hl : Leaves cfg s c e p) (hp : c.current = some p) (hst : c.steady p = true)
    (hf : s.files.get? p = some m) (hmon : cfg.Monitors p) : Covered cfg s (p, m) := by
  obtain ⟨htr, -, hlast⟩ := h.sound.scan c hs
  cases hl with
  | extension hext =>
    rw [hmon.1] at hext
    cases hext
  | gone hgone =>
    rw [hf] at hgone
    cases hgone
  | old m' hm' hinc hle =>
    obtain rfl := Option.some.inj (hf.symm.trans hm')
    exact h.old hinc p m hf hmon (hle.trans hlast)
  | done m' _ hpc hdone =>
    have hm' := htr.current p m' (by rw [hpc]; rfl) hp hst
    obtain rfl := Option.some.inj (hf.symm.trans hm')
    exact .inl hdone

lemma Inv.turn (h : Inv cfg w s) (hs : s.scan = some c) (ht : Turn cfg s c e s')
    (ha : Accepts cfg w s e) : Inv cfg w s' := by
  obtain ⟨htr, hstart, hlast⟩ := h.sound.scan c hs
  obtain ⟨hfiles, hprot⟩ := ht.frame
  obtain ⟨hfresh, hvisit⟩ := h.scan c hs
  have hcov : ∀ {v}, Covered cfg s v → Covered cfg s' v := covered_turn ht
  refine ⟨h.sound.turn hs ht, hprot ▸ h.protocol, fun hinc p m hf hmon hle => ?_,
    fun c' hc' => ⟨?_, ?_⟩⟩
  · -- at the end of the scan the mark moves past what the scan has visited
    rw [hfiles] at hf
    by_cases hold : m ≤ s.mark
    · exact hcov (h.old hinc p m hf hmon hold)
    · cases ht with
      | finish hover =>
        have hm : m ≤ c.start := (le_max_iff.mp hle).resolve_left hold
        have hst : c.steady p = true := by
          by_contra hno
          have := hfresh hinc p m hf hmon (by simpa using hno)
          omega
        exact hcov ((hvisit p m hst hf hmon).resolve_left (not_pending_of_over hover p))
      | _ => exact absurd hle hold
  · obtain ⟨hst, -, hs', -⟩ := ht.kept hs hc'
    rw [hfiles, hst, hs']
    exact hfresh
  · intro p m hst hf hmon
    obtain ⟨hst', -, -, -⟩ := ht.kept hs hc'
    rw [hst'] at hst
    rw [hfiles] at hf
    rcases hvisit p m hst hf hmon with hp | hc
    · rcases ht.pending hs hc' hf hp with hp | ⟨hcur, hl | ⟨r, m', rfl, hpc, -, hacc⟩⟩
      · exact .inl hp
      · exact .inr (hcov (h.covered_of_leaves hs hl hcur hst hf hmon))
      · have hm' := htr.current p m' (by rw [hpc]; rfl) hcur hst
        obtain rfl := Option.some.inj (hf.symm.trans hm')
        rcases ha with hr | hr
        · exact .inr (.inr (hacc hr))
        · exact .inr (hcov (hr c p m hs hpc hcur hst))
    · exact .inr (hcov hc)

lemma Inv.touch (h : Inv cfg w s) {q : Path} {fs' : Folder}
    (hfs : ∀ p, p ≠ q → fs'.get? p = s.files.get? p)
    (hq : ∀ m, fs'.get? q = some m → m = s.clock ∧ (cfg.pollIncremental = true →
      cfg.Monitors q → s.clock ≠ s.mark ∧ ∀ c ∈ s.scan, s.clock ≠ c.start)) :
    Inv cfg w { s.touch q with files := fs' } := by
  refine ⟨h.sound.touch hfs fun m hm => (hq m hm).1, h.protocol, fun hinc p m hf hmon hle => ?_,
    fun c' hc' => ?_⟩
  · by_cases hpq : p = q
    · subst hpq
      obtain ⟨rfl, hne⟩ := hq m hf
      exact absurd (le_antisymm hle h.sound.mark) (hne hinc hmon).1
    · exact h.old hinc p m (by rwa [hfs p hpq] at hf) hmon hle
  · obtain ⟨c, hc, rfl⟩ := Option.map_eq_some_iff.mp hc'
    obtain ⟨hfresh, hvisit⟩ := h.scan c hc
    refine ⟨fun hinc p m hf hmon hst => ?_, fun p m hst hf hmon => ?_⟩
    · by_cases hpq : p = q
      · subst hpq
        obtain ⟨rfl, hne⟩ := hq m hf
        exact lt_of_le_of_ne (h.sound.scan c hc).2.1 ((hne hinc hmon).2 c hc).symm
      · simp only [Function.update_of_ne hpq] at hst
        exact hfresh hinc p m (by rwa [hfs p hpq] at hf) hmon hst
    · by_cases hpq : p = q
      · subst hpq
        simp at hst
      · simp only [Function.update_of_ne hpq] at hst
        exact hvisit p m hst (by rwa [hfs p hpq] at hf) hmon

/-- **The step lemma.** -/
theorem Inv.step (h : Inv cfg w s) (e : Event) (ha : Accepts cfg w s e) :
    Inv cfg w (step cfg w deps s e) := by
  have hscan : e.OfScan → Inv cfg w (PollingScanner.step cfg w deps s e) := fun he => by
    rcases hs : s.scan with _ | c
    · rwa [step_ofScan_none he hs]
    · exact h.turn hs (turn_step he hs) ha
  cases e with
  | protocol e =>
    have hcov : ∀ {v}, Covered cfg s v →
        Covered cfg (PollingScanner.step cfg w deps s (.protocol e)) v :=
      covered_protocol h.protocol ha
    refine ⟨h.sound.step _, h.protocol.step e ha, fun hinc p m hf hmon hle =>
      hcov (h.old hinc p m hf hmon hle), fun c hc => ?_⟩
    obtain ⟨hfresh, hvisit⟩ := h.scan c hc
    exact ⟨hfresh, fun p m hst hf hmon => (hvisit p m hst hf hmon).imp_right hcov⟩
  | write p =>
    -- by `ha` the new modification time is past the mark of the last scan
    refine h.touch (fun q hq => Dict.get?_set_of_ne _ _ hq) fun m hm => ?_
    rw [Dict.get?_set_self] at hm
    exact ⟨(Option.some.inj hm).symm, ha⟩
  | remove p =>
    refine h.touch (fun q hq => Dict.get?_erase_of_ne _ hq) fun m hm => ?_
    rw [Dict.get?_erase_self] at hm
    cases hm
  | start =>
    have hsound : Sound (PollingScanner.step cfg w deps s .start) := h.sound.step .start
    unfold PollingScanner.step at hsound ⊢
    dsimp only at hsound ⊢
    rcases hs : s.scan with _ | c
    · rw [hs] at hsound
      refine ⟨hsound, h.protocol, h.old, fun c hc => ?_⟩
      obtain rfl := Option.some.inj hc
      refine ⟨fun _ p m hf _ hst => ?_, fun p m _ hf hmon => .inl (.inr ⟨[], ?_, ?_, ?_⟩)⟩
      · simp [hf] at hst
      · exact List.mem_singleton_self _
      · exact List.nil_prefix
      · exact hmon.2.imp_right Eq.symm
    · exact h
  | list subs => exact hscan (.list subs)
  | stat => exact hscan .stat
  | getStatus => exact hscan .getStatus
  | fromStat => exact hscan .fromStat
  | submit r => exact hscan (.submit r)
  | raise => exact hscan .raise
  | finish => exact hscan .finish

lemma Inv.losesNone (h : Inv cfg w s) (e : Event) : LosesNone cfg s e := by
  cases e with
  | finish =>
    intro c hs hover p m hst hf hmon
    exact ((h.scan c hs).visit p m hst hf hmon).resolve_left (not_pending_of_over hover p)
  | _ => trivial

/-- **The scans lose no file** in a run in which the worker pool turns away nothing that is not
covered, no write falls on the start of a scan, and the terminal marks are made in time. -/
theorem losesNone_of_accepts (cfg : ScanConfig) (w : ℕ → Worker) (deps : Deps) (es : List Event)
    (h : Steps (step cfg w deps) (Accepts cfg w) init es) :
    Steps (step cfg w deps) (LosesNone cfg) init es :=
  steps_of_inv (fun _ e hi ha => hi.step e ha) (fun _ e hi _ => hi.losesNone e) inv_init h

/-! ### Two scans of one file -/

/-- A folder of CSV files, scanned incrementally. -/
def csvFolder : ScanConfig := ⟨"t", "/in", [".csv"], true, true⟩

def orders : Path := ⟨[], "x.csv"⟩

def oneInstance (_ : ℕ) : Worker := ⟨{ instanceId := "a" }, ⟨⟨"t", "/in/x.csv", 0⟩, 3, "h"⟩⟩

/-- A file arrives, and a scan finds it and submits it. -/
def firstScan (r : WorkerPool.SubmitResult) : List Event :=
  [.protocol (.tick 5), .write orders, .protocol (.tick 1), .start, .list [], .stat, .getStatus,
    .fromStat, .submit r]

/-- The next scan finds the file older than the mark. -/
def secondScan : List Event := [.finish, .protocol (.tick 1), .start, .list [], .stat]

theorem losesNone_of_accepts_queued :
    Steps (step csvFolder oneInstance {}) (LosesNone csvFolder) init
      (firstScan .queued ++ secondScan ++ [.finish]) := by
  refine losesNone_of_accepts csvFolder oneInstance {} _ ⟨fun _ _ h => h.elim, fun _ _ => ?_,
    fun _ _ h => h.elim, trivial, trivial, trivial, trivial, trivial, .inl rfl, trivial,
    fun _ _ h => h.elim, trivial, trivial, trivial, trivial, trivial⟩
  exact ⟨by decide, nofun⟩

/-- The queue is full when the first scan submits the file; the second one leaves it. -/
theorem not_losesNone_queueFull :
    ¬ ∀ (cfg : ScanConfig) (w : ℕ → Worker) (deps : Deps) (es : List Event),
      Steps (step cfg w deps) (LosesNone cfg) init es := by
  intro h
  have hend := (h csvFolder oneInstance {}
    (firstScan .queueFull ++ secondScan ++ [.finish])).at
  rcases hend _ rfl (by decide) orders 5 rfl rfl ⟨rfl, .inl rfl⟩ with hs | hs
  · cases hs
  · cases hs

end Tdcs.ScanCoverage
