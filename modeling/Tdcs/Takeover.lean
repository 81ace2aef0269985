import Tdcs.Lib.Run
import Tdcs.ProcessedFileRepo

/-!
Taking over the file of a crashed instance.

Here the repository methods come in any order, from any instance, at the time the clock
shows. A row in somebody's hands can be taken over once its lease has run out, if it has
one; the only step that hands out a row without a lease is the claim of a failed row.
-/

namespace Tdcs.Takeover

open Tdcs.Lib Tdcs.Lib.Run Tdcs.ProcessedFileRepo

structure State where
  clock : ℕ
  table : Table

def init : State := ⟨0, Table.empty⟩

inductive Event
  | tick (d : ℕ)
  | call (p : Repository) (ref : FileRef) (c : Call)
  | retryFile (fileId : ℕ)

def step (s : State) : Event → State
  | .tick d => { s with clock := s.clock + d }
  | .call p ref c => { s with table := (p.perform ref s.clock s.table c).2 }
  | .retryFile fileId => { s with table := (retryFile fileId s.table).2 }

/-- Every held row has a lease, after which any instance that claims the row is granted
it and may start processing. -/
def Recoverable (s : State) : Prop :=
  ∀ k row, s.table.row k = some row → row.Held → ∃ e, row.claimExpiresAt = some e ∧
    ∀ (p : Repository) (ref : FileRef) (maxRetries now : ℕ), ref.toKey = k → e < now →
      (p.tryClaim ref maxRetries now s.table).1 = true ∧
        (p.markProcessing k (p.tryClaim ref maxRetries now s.table).2).1 = true

/-- The step is no claim of a failed row that has retries left. -/
def NoFailedReclaim (s : State) : Event → Prop
  | .call _ ref (.tryClaim maxRetries) => ∀ row, s.table.row ref.toKey = some row →
      row.status = .failed → maxRetries ≤ row.retryCount
  | _ => True

variable {s : State}

/-- Every held row has a lease. -/
def Leased (t : Table) : Prop :=
  ∀ k row, t.row k = some row → row.Held → row.claimExpiresAt ≠ none

lemma takeover {t : Table} {ref : FileRef} {row : Row} {e now : ℕ} (p : Repository)
    (maxRetries : ℕ) (hrow : t.row ref.toKey = some row) (hh : row.Held)
    (he : row.claimExpiresAt = some e) (hlt : e < now) :
    (p.tryClaim ref maxRetries now t).1 = true ∧
      (p.markProcessing ref.toKey (p.tryClaim ref maxRetries now t).2).1 = true := by
  have hexp : row.expired now = true := expired_iff.mpr ⟨e, he, hlt⟩
  obtain ⟨h1, h2⟩ := tryClaim_of_some hrow p maxRetries now
  rw [onDuplicateKey_of_expired hh hexp] at h2
  refine ⟨h1.trans (claimable_iff.mpr (Or.inr ⟨hh, hexp⟩)), ?_⟩
  simp [Repository.markProcessing, h2]

lemma recoverable_iff_leased : Recoverable s ↔ Leased s.table := by
  constructor
  · intro h k row hrow hh
    obtain ⟨e, he, -⟩ := h k row hrow hh
    simp [he]
  · intro h k row hrow hh
    obtain ⟨e, he⟩ := Option.ne_none_iff_exists'.mp (h k row hrow hh)
    refine ⟨e, he, ?_⟩
    rintro p ref maxRetries now rfl hlt
    exact takeover p maxRetries hrow hh he hlt

lemma leased_perform {t : Table} (h : Leased t) (p : Repository) (ref : FileRef) (now : ℕ)
    {c : Call} (hc : ∀ m, c ≠ .tryClaim m) : Leased (p.perform ref now t c).2 := by
  intro k row hrow hh
  rcases row_perform_cases hrow with hrow | ⟨-, ⟨⟨m, hm⟩, -⟩ | ⟨r, ht, hch⟩⟩
  · exact h k row hrow hh
  · exact absurd hm (hc m)
  cases hch with
  | claim => exact absurd rfl (hc _)
  | start _ hs =>
    have hlease : r.claimExpiresAt ≠ none := h k r ht (Or.inl hs)
    exact hlease
  | archived path hs => simp [Row.Held, hs] at hh
  | _ => simp [Row.Held] at hh

/-- `try_claim` writes a lease with every row it hands out, except for a failed one. -/
lemma leased_tryClaim_iff {t : Table} (h : Leased t) (hf : FailedUnleased t)
    (p : Repository) (ref : FileRef) (m now : ℕ) :
    Leased (p.tryClaim ref m now t).2 ↔
      ∀ row, t.row ref.toKey = some row → row.status = .failed → m ≤ row.retryCount := by
  constructor
  · intro hl row hrow hs
    by_contra hlt
    obtain ⟨-, h2⟩ := tryClaim_of_some hrow p m now
    have hnone := hf _ _ hrow hs
    rw [onDuplicateKey_of_failed hs (by omega) hnone] at h2
    exact hl _ _ h2 (Or.inl rfl) hnone
  · intro hc k row hrow hh
    rcases row_perform_cases (c := .tryClaim m) hrow with hrow | ⟨rfl, ⟨-, rfl⟩ | ⟨r, ht, hch⟩⟩
    · exact h k row hrow hh
    · simp [newRow]
    cases hch with
    | claim hcl =>
      rcases claimable_iff.mp hcl with ⟨hs, hlt⟩ | ⟨hs, he⟩
      · have := hc r ht hs
        omega
      · simp [onDuplicateKey_of_expired hs he]

lemma leased_retryFile {t : Table} (h : Leased t) (fileId : ℕ) :
    Leased (retryFile fileId t).2 := by
  intro k row hrow hh
  rw [row_retryFile] at hrow
  obtain ⟨r, ht, rfl⟩ := Option.map_eq_some_iff.mp hrow
  unfold Row.retry at hh ⊢
  split_ifs at hh ⊢ with hc
  · simp [Row.Held] at hh
  · exact h k r ht hh

/-- **The step lemma.** Under `FailedUnleased` a step keeps the leases exactly when it is
no claim of a failed row with retries left. -/
lemma leased_step_iff (hf : FailedUnleased s.table) (h : Leased s.table) (e : Event) :
    Leased (step s e).table ↔ NoFailedReclaim s e := by
  cases e with
  | tick d => exact iff_of_true h trivial
  | retryFile fileId => exact iff_of_true (leased_retryFile h fileId) trivial
  | call p ref c =>
    cases c with
    | tryClaim m => exact leased_tryClaim_iff h hf p ref m s.clock
    | _ => exact iff_of_true (leased_perform h p ref s.clock (by simp)) trivial

lemma failedUnleased_step (h : FailedUnleased s.table) (e : Event) :
    FailedUnleased (step s e).table := by
  cases e with
  | tick d => exact h
  | call p ref c => exact failedUnleased_perform h p ref s.clock c
  | retryFile fileId => exact failedUnleased_retryFile h fileId

/-- **Crash takeover.** Every held row stays recoverable along a run exactly when the run
never claims a failed row that has retries left. -/
theorem recoverable_iff (l : List Event) :
    Always step Recoverable init l ↔ Steps step NoFailedReclaim init l := by
  refine always_iff_steps (I := fun s => FailedUnleased s.table)
    (fun s e h => failedUnleased_step h e) (fun s e hf h => ?_) failedUnleased_empty ?_
  · rw [recoverable_iff_leased] at h ⊢
    exact leased_step_iff hf h e
  · rw [recoverable_iff_leased]
    intro k row hrow
    simp [init] at hrow

/-- The file fails once, is claimed again, and the instance crashes. -/
def failThenCrash : List Event :=
  let a : Repository := { instanceId := "a" }
  let ref : FileRef := ⟨⟨"t", "/in/x.csv", 0⟩, 3, "h"⟩
  [.call a ref (.tryClaim 3), .call a ref .markProcessing,
    .call a ref (.markFailed "RetryableError" "timeout"), .tick 1, .call a ref (.tryClaim 3)]

theorem not_recoverable_failThenCrash :
    ¬ ∀ l : List Event, Always step Recoverable init l := by
  intro h
  have hrec := (always_iff_states.mp (h failThenCrash)) _ (List.prefix_refl _)
  rw [recoverable_iff_leased] at hrec
  refine hrec ⟨"t", "/in/x.csv", 0⟩ _ rfl (Or.inl rfl) rfl

end Tdcs.Takeover
