import Tdcs.EventHandler

/-!
A file is handed on only after as many equal observations in a row as the task asks for.

Several threads may observe one file, and one of them may empty the dictionary between two
steps of another; the stored count is still never more than the length of the run of equal
observations at the end.
-/

namespace Tdcs.StableFiles

open Tdcs.Lib Tdcs.Lib.Run Tdcs.EventHandler

/-- Paths that do not end in `:prev` or `:count`. -/
def plainPaths : Set String :=
  {p | ¬ ":prev".toList <:+ p.toList ∧ ¬ ":count".toList <:+ p.toList}

/-- Each file that was handed on had been observed `n` times in a row as it was handed on, the last
time by the thread that did. -/
def EmitsStable (n : ℕ) (s : State) : Prop :=
  ∀ e ∈ s.emitted, e.observed <+: s.observed e.path ∧ List.replicate n e.stat <:+ e.observed

/-- What a thread knows that has found its file stable. -/
def Justified (n : ℕ) (observed : List Stamp) : Phase → Prop
  | .stable cur o | .emitting cur o => o <+: observed ∧ List.replicate n cur <:+ o
  | _ => True

structure AllJustified (n : ℕ) (s : State) : Prop where
  thread : ∀ i p phase, s.life i = .live p phase → Justified n (s.observed p) phase
  emitted : EmitsStable n s

variable {n : ℕ} {paths : Set String} {s : State} {p q : String} {i : ℕ} {cur : Stamp}

lemma separate_plainPaths : Separate plainPaths := by
  intro p hp q _
  constructor
  · rintro rfl
    exact hp.1 (by simp [prevKey])
  · rintro rfl
    exact hp.2 (by simp [countKey])

lemma Justified.mono {o o' : List Stamp} {phase : Phase} (h : Justified n o phase)
    (ho : o <+: o') : Justified n o' phase := by
  cases phase with
  | stable | emitting => exact ⟨h.1.trans ho, h.2⟩
  | _ => trivial

lemma AllJustified.put {l : Life} (h : AllJustified n s)
    (hl : ∀ q phase, l = .live q phase → Justified n (s.observed q) phase) :
    AllJustified n (s.put i l) where
  thread j q phase hj := by
    by_cases hji : j = i
    · subst hji
      simp only [State.put, Function.update_self] at hj
      exact hl q phase hj
    · simp only [State.put, Function.update_of_ne hji] at hj
      exact h.thread j q phase hj
  emitted := h.emitted

lemma AllJustified.newTimer (h : AllJustified n s) (p : String) :
    AllJustified n (newTimer s p) where
  thread j q phase hj := by
    by_cases hj' : j = s.next
    · subst hj'
      simp only [EventHandler.newTimer, Function.update_self] at hj
      cases hj
      trivial
    · simp only [EventHandler.newTimer, Function.update_of_ne hj'] at hj
      exact h.thread j q phase hj
  emitted := h.emitted

lemma AllJustified.schedule (h : AllJustified n s) (p : String) :
    AllJustified n (schedule s p) := by
  unfold EventHandler.schedule
  split
  · refine AllJustified.newTimer ?_ p
    unfold cancel
    split
    · exact h.put fun _ _ hl => by cases hl
    · exact h
  · exact h.newTimer p
  · exact h

/-- An observation that makes the file stable is the last of `n` equal ones. -/
lemma AllJustified.observe (h : AllJustified n s) (hinv : Inv paths s) (hp : p ∈ paths) :
    AllJustified n (observe n s i p cur) := by
  obtain ⟨k, hk, hsuffix⟩ : ∃ k, nextCount s.pending p cur = some (k + 1) ∧
      List.replicate (k + 1) cur <:+ s.observed p ++ [cur] := nextCount_eq_some (hinv.stored p hp)
  unfold EventHandler.observe
  rw [hk]
  have hgrow : ∀ q, s.observed q <+:
      Function.update s.observed p (s.observed p ++ [cur]) q := by
    intro q
    by_cases hqp : q = p
    · subst hqp
      rw [Function.update_self]
      exact List.prefix_append _ _
    · rw [Function.update_of_ne hqp]
  constructor
  · intro j q phase hj
    by_cases hji : j = i
    · subst hji
      simp only [Function.update_self] at hj
      split_ifs at hj with hn
      · cases hj
        simp only [Function.update_self]
        refine ⟨List.prefix_rfl, List.IsSuffix.trans ?_ hsuffix⟩
        exact List.suffix_replicate_iff.mpr ⟨by simpa using hn, by simp⟩
      · cases hj
        trivial
    · simp only [Function.update_of_ne hji] at hj
      exact (h.thread j q phase hj).mono (hgrow q)
  · intro e he
    obtain ⟨hpre, hlast⟩ := h.emitted e he
    exact ⟨hpre.trans (hgrow e.path), hlast⟩

lemma allJustified_step (s : State) (e : Event) (hinv : Inv paths s)
    (h : AllJustified n s) : AllJustified n (step n s e) := by
  cases e with
  | change p o => exact ⟨h.thread, h.emitted⟩
  | notify p => exact h.schedule p
  | run i =>
    unfold step
    dsimp only
    split
    · next p phase hi =>
      have hphase := h.thread i p phase hi
      unfold check
      cases phase with
      | waiting => exact h.put fun _ _ hl => by cases hl; trivial
      | fired =>
        dsimp only
        split <;> exact h.put fun _ _ hl => by cases hl; trivial
      | gone =>
        have h' : AllJustified n { s with pending := popAll s.pending p } := ⟨h.thread, h.emitted⟩
        exact h'.put fun _ _ hl => by cases hl
      | seen cur => exact h.observe hinv (hinv.path_mem i p _ hi)
      | unstable => exact (h.newTimer p).put fun _ _ hl => by cases hl
      | stable cur observed =>
        have h' : AllJustified n { s with pending := popAll s.pending p } := ⟨h.thread, h.emitted⟩
        exact h'.put fun _ _ hl => by cases hl; exact hphase
      | emitting cur observed =>
        have h' : AllJustified n
            { s with emitted := s.emitted ++ [Emission.mk p cur observed] } := by
          refine ⟨h.thread, fun e he => ?_⟩
          rcases List.mem_append.mp he with he | he
          · exact h.emitted e he
          · cases List.mem_singleton.mp he
            exact hphase
        exact h'.put fun _ _ hl => by cases hl
    · exact h

/-- **Only stable files are handed on.** -/
theorem emitsStable (n : ℕ) (files : String → Option Stamp) (l : List Event)
    (hl : ∀ p, .notify p ∈ l → p ∈ plainPaths) :
    Always (step n) (EmitsStable n) (start files) l := by
  have hsteps : Steps (step n) (fun _ e => ∀ p, e = .notify p → p ∈ plainPaths) (start files) l :=
    steps_of_forall fun e he p hp => hl p (hp ▸ he)
  have hstep : ∀ s e, Inv plainPaths s ∧ AllJustified n s → (∀ p, e = .notify p → p ∈ plainPaths) →
      Inv plainPaths (step n s e) ∧ AllJustified n (step n s e) := fun s e h he =>
    ⟨inv_step separate_plainPaths s e h.1 he, allJustified_step s e h.1 h.2⟩
  have h0 : AllJustified n (start files) := by
    refine ⟨fun _ _ _ h => ?_, fun _ h => ?_⟩ <;> cases h
  exact (always_of_inv hstep ⟨inv_start _ files, h0⟩ hsteps).mono fun _ h => h.2.emitted

/-- A file is observed twice and handed on. -/
theorem emitsStable_twice :
    let l : List Event :=
      .notify "/in/a.csv" :: List.replicate 4 (.run 0) ++ List.replicate 5 (.run 1)
    (l.foldl (step 2) (start fun _ => some (1, 10))).emitted.map Emission.observed =
      [[(1, 10), (1, 10)]] ∧
      Always (step 2) (EmitsStable 2) (start fun _ => some (1, 10)) l := by
  refine ⟨by decide +kernel, emitsStable 2 _ _ fun p hp => ?_⟩
  have hp : p = "/in/a.csv" := by simpa [List.replicate] using hp
  subst hp
  constructor <;> decide

end Tdcs.StableFiles
