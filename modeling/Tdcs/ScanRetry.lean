import Tdcs.PollingScanner

/-!
Whether the scans bring a failed file back.

After a retryable failure nothing in the service submits the file again but the next scan, and an
incremental scan leaves a file that is not newer than the mark, whatever its row says.
-/

namespace Tdcs.ScanRetry

open Tdcs.Lib Tdcs.Lib.Run Tdcs.ProcessedFileRepo Tdcs.PollingScanner
open Tdcs.ClaimProtocol (Worker)
open Tdcs.FileProcessor (Deps)

variable (cfg : ScanConfig) (w : ℕ → Worker) (deps : Deps)

/-- When a scan ends, every file it was to look at that was due for a retry when it began, and
has not changed since, has been submitted by it. -/
def Resubmits (s : State) : Event → Prop
  | .finish => ∀ c, s.scan = some c → c.Over → ∀ p m, c.due p = true →
      s.files.get? p = some m → cfg.Monitors p → (p, m) ∈ c.submitted
  | _ => True

/-- An incremental scan begins only when the files due for a retry are newer than the mark, and
none of them has come to be `SUCCESS` by the time the scan asks. -/
def InReach (s : State) : Event → Prop
  | .start => s.scan = none → cfg.pollIncremental = true → ∀ p m, s.due p = true →
      s.files.get? p = some m → cfg.Monitors p → s.mark < m
  | .getStatus => ∀ c p m, s.scan = some c → c.pc = .getStatus m → c.current = some p →
      c.due p = true → s.succeeded cfg (p, m) = false
  | _ => True

/-- The files due for a retry are new to the scan, and it has submitted those it is not still to
visit. -/
structure Bringing (s : State) (c : Scan) : Prop where
  young : cfg.pollIncremental = true → ∀ p m, c.due p = true → s.files.get? p = some m →
    cfg.Monitors p → c.last < m
  visit : ∀ p m, c.due p = true → s.files.get? p = some m → cfg.Monitors p →
    Pending cfg c p ∨ (p, m) ∈ c.submitted

structure Inv (s : State) : Prop where
  sound : Sound s
  scan : ∀ c, s.scan = some c → Bringing cfg s c

variable {cfg w deps} {s s' : State} {c : Scan} {e : Event}

lemma inv_init : Inv cfg init where
  sound := sound_init
  scan _ h := by cases h

lemma submitted_turn (ht : Turn cfg s c e s') (hs : s.scan = some c) {c' : Scan}
    (hc' : s'.scan = some c') {v : Version} (hv : v ∈ c.submitted) : v ∈ c'.submitted := by
  cases ht with
  | abort | finish => cases hc'
  | idle =>
    obtain rfl := Option.some.inj (hs.symm.trans hc')
    exact hv
  | submit =>
    obtain rfl := Option.some.inj hc'
    exact List.mem_cons_of_mem _ hv
  | _ =>
    obtain rfl := Option.some.inj hc'
    exact hv

lemma Inv.not_leaves (h : Inv cfg s) (hs : s.scan = some c) (hr : InReach cfg s e) {p : Path}
    {m : ℕ} (hp : c.current = some p) (hdue : c.due p = true) (hf : s.files.get? p = some m)
    (hmon : cfg.Monitors p) : ¬ Leaves cfg s c e p := by
  intro hl
  cases hl with
  | extension hext =>
    rw [hmon.1] at hext
    cases hext
  | gone hgone =>
    rw [hf] at hgone
    cases hgone
  | old m' hm' hinc hle =>
    have := (h.scan c hs).young hinc p m' hdue hm' hmon
    omega
  | done m' he hpc hdone =>
    subst he
    rw [hr c p m' hs hpc hp hdue] at hdone
    cases hdone

lemma Inv.turn (h : Inv cfg s) (hs : s.scan = some c) (ht : Turn cfg s c e s')
    (hr : InReach cfg s e) : Inv cfg s' := by
  obtain ⟨htr, -, -⟩ := h.sound.scan c hs
  obtain ⟨hyoung, hvisit⟩ := h.scan c hs
  have hfiles := ht.frame.1
  refine ⟨h.sound.turn hs ht, fun c' hc' => ?_⟩
  obtain ⟨-, hdue', -, hlast'⟩ := ht.kept hs hc'
  refine ⟨?_, fun p m hdue hf hmon => ?_⟩
  · rw [hfiles, hdue', hlast']
    exact hyoung
  · rw [hdue'] at hdue
    rw [hfiles] at hf
    rcases hvisit p m hdue hf hmon with hp | hsub
    · rcases ht.pending hs hc' hf hp with hp | ⟨hcur, hl | ⟨-, m', -, hpc, hsub, -⟩⟩
      · exact .inl hp
      · exact absurd hl (h.not_leaves hs hr hcur hdue hf hmon)
      · have hm' := htr.current p m' (by rw [hpc]; rfl) hcur (htr.due p hdue)
        obtain rfl := Option.some.inj (hf.symm.trans hm')
        exact .inr hsub
    · exact .inr (submitted_turn ht hs hc' hsub)

lemma Inv.touch (h : Inv cfg s) {q : Path} {fs' : Folder}
    (hsound : Sound { s.touch q with files := fs' })
    (hfs : ∀ p, p ≠ q → fs'.get? p = s.files.get? p) : Inv cfg { s.touch q with files := fs' } := by
  refine ⟨hsound, fun c' hc' => ?_⟩
  obtain ⟨c, hc, rfl⟩ := Option.map_eq_some_iff.mp hc'
  obtain ⟨hyoung, hvisit⟩ := h.scan c hc
  refine ⟨fun hinc p m hdue hf => ?_, fun p m hdue hf => ?_⟩
  · obtain ⟨hpq, hdue⟩ := of_unmarked hdue
    exact hyoung hinc p m hdue (by rwa [hfs p hpq] at hf)
  · obtain ⟨hpq, hdue⟩ := of_unmarked hdue
    exact hvisit p m hdue (by rwa [hfs p hpq] at hf)

/-- **The step lemma.** -/
theorem Inv.step (h : Inv cfg s) (e : Event) (hr : InReach cfg s e) :
    Inv cfg (step cfg w deps s e) := by
  have hsound : Sound (PollingScanner.step cfg w deps s e) := h.sound.step e
  have hscan : e.OfScan → Inv cfg (PollingScanner.step cfg w deps s e) := fun he => by
    rcases hs : s.scan with _ | c
    · rwa [step_ofScan_none he hs]
    · exact h.turn hs (turn_step he hs) hr
  cases e with
  | protocol e => exact ⟨hsound, fun c hc => ⟨(h.scan c hc).young, (h.scan c hc).visit⟩⟩
  | write p => exact h.touch hsound fun q hq => Dict.get?_set_of_ne _ _ hq
  | remove p => exact h.touch hsound fun q hq => Dict.get?_erase_of_ne _ hq
  | start =>
    unfold PollingScanner.step at hsound ⊢
    dsimp only at hsound ⊢
    rcases hs : s.scan with _ | c
    · rw [hs] at hsound
      refine ⟨hsound, fun c hc => ?_⟩
      obtain rfl := Option.some.inj hc
      -- the scan starts at the root, below which all files still lie
      refine ⟨hr hs, fun p m _ _ hmon => .inl (.inr ⟨[], ?_, ?_, ?_⟩)⟩
      · exact List.mem_singleton_self _
      · exact List.nil_prefix
      · exact hmon.2.imp_right Eq.symm
    · exact h
  | list subs => exact hscan (.list subs)
  | stat => exact hscan .stat
  | getStatus => exact hscan .getStatus
  | fromStat => exact hscan .fromStat
  | submit r => exact hscan (.submit r)
  | raise => exact hscan .raise
  | finish => exact hscan .finish

lemma Inv.resubmits (h : Inv cfg s) (e : Event) : Resubmits cfg s e := by
  cases e with
  | finish =>
    intro c hs hover p m hdue hf hmon
    exact ((h.scan c hs).visit p m hdue hf hmon).resolve_left (not_pending_of_over hover p)
  | _ => trivial

/-- **The next scan submits a file that is to be tried again** in a run in which incremental
scans begin only when such files are newer than the mark, and no such file is done before the
scan asks for it. -/
theorem resubmits_of_inReach (cfg : ScanConfig) (w : ℕ → Worker) (deps : Deps) (es : List Event)
    (h : Steps (step cfg w deps) (InReach cfg) init es) :
    Steps (step cfg w deps) (Resubmits cfg) init es :=
  steps_of_inv (fun _ e hi hr => hi.step e hr) (fun _ e hi _ => hi.resubmits e) inv_init h

/-! ### A file that fails once -/

/-- A folder of CSV files, scanned incrementally or not. -/
def csvFolder (pollIncremental : Bool) : ScanConfig := ⟨"t", "/in", [".csv"], true, pollIncremental⟩

def orders : Path := ⟨[], "x.csv"⟩

def oneInstance (_ : ℕ) : Worker := ⟨{ instanceId := "a" }, ⟨⟨"t", "/in/x.csv", 2⟩, 3, "h"⟩⟩

/-- A file arrives, a scan submits it, and the attempt ends `RETRY`. -/
def firstAttempt : List Event :=
  [.protocol (.tick 2000), .write orders, .protocol (.tick 1), .start, .list [], .stat,
    .getStatus, .fromStat, .submit .queued, .finish] ++
  ([.call 0 (.task (some 3)), .db 0, .db 0,
    .call 0 (.result { status := .retry, error := some (.retryable "timeout") }), .db 0,
    .tick 1] : List ClaimProtocol.Event).map .protocol

/-- The next scan of the folder. -/
def fullScan : List Event :=
  [.start, .list [], .stat, .getStatus, .fromStat, .submit .queued, .finish]

theorem resubmits_of_inReach_full :
    ((firstAttempt ++ fullScan).foldl (step (csvFolder false) oneInstance {}) init).accepted =
        [(orders, 2000), (orders, 2000)] ∧
      Steps (step (csvFolder false) oneInstance {}) (Resubmits (csvFolder false)) init
        (firstAttempt ++ fullScan) := by
  refine ⟨by decide, resubmits_of_inReach (csvFolder false) oneInstance {} _ ⟨trivial, trivial,
    trivial, fun _ h => (nomatch h), trivial, trivial, ?_, trivial, trivial, trivial, trivial,
    trivial, trivial, trivial, trivial, trivial, fun _ h => (nomatch h), trivial, trivial, ?_,
    trivial, trivial, trivial, trivial⟩⟩
  all_goals
    rintro c p m hc hpc hp -
    cases hc
    cases hpc
    cases hp
    rfl

/-- An incremental scan leaves the file where it is. -/
theorem not_resubmits_incremental :
    ¬ ∀ (cfg : ScanConfig) (w : ℕ → Worker) (deps : Deps) (es : List Event),
      Steps (step cfg w deps) (Resubmits cfg) init es := by
  intro h
  have hend := (h (csvFolder true) oneInstance {}
    (firstAttempt ++ [.start, .list [], .stat] ++ [.finish])).at
  cases hend _ rfl (by decide) orders 2000 rfl rfl ⟨rfl, .inl rfl⟩

end Tdcs.ScanRetry
