import Mathlib.Data.List.Basic
import Tdcs.EventHandler

/-!
One chain of timers for each file, and one emission.

An event cancels the timer of its path; a check that already runs goes on, and enters a timer of
its own where the new one stands. As long as no event comes during a check, each path has one
chain, and the chain that follows the last event hands the file on once.
-/

namespace Tdcs.TimerChains

open Tdcs.Lib Tdcs.Lib.Run Tdcs.EventHandler

/-- The timer waits, or its check is in progress. -/
def Alive (s : State) (p : String) (i : ℕ) : Prop := ∃ phase, s.life i = .live p phase

def AtMostOne (s : State) : Prop := ∀ p i j, Alive s p i → Alive s p j → i = j

/-- The check of the timer is in progress. -/
def Checking (s : State) (p : String) (i : ℕ) : Prop :=
  ∃ phase, s.life i = .live p phase ∧ phase ≠ .waiting

/-- No event comes while a check of its path is in progress. -/
def Quiet (s : State) : Event → Prop
  | .notify p => ∀ i, ¬ Checking s p i
  | _ => True

def emissions (p : String) (s : State) : ℕ := s.emitted.countP fun e => e.path = p

/-- The event is a step of a thread of the path. -/
def acts (s : State) (p : String) : Event → Bool
  | .run i =>
    match s.life i with
    | .live q _ => q = p
    | _ => false
  | _ => false

/-- The steps of threads of the path. -/
def chainSteps (n : ℕ) (p : String) : State → List Event → ℕ
  | _, [] => 0
  | s, e :: l => (if acts s p e then 1 else 0) + chainSteps n p (step n s e) l

/-- An event for the path, or a change of its file. -/
def Touches (p : String) : Event → Prop
  | .change q _ | .notify q => q = p
  | .run _ => False

/-- Where an event for a path comes before any emission of it, and nothing touches the path or its
file afterwards, the file is handed on exactly once: after so many steps of its chain at most, and
the chain ends with it. -/
def EmittedOnce (n : ℕ) (files : String → Option Stamp) (l : List Event) : Prop :=
  ∀ p c l₁ l₂, l = l₁ ++ .notify p :: l₂ → (∀ e ∈ l₂, ¬ Touches p e) →
    let s := step n (l₁.foldl (step n) (start files)) (.notify p)
    let s' := l₂.foldl (step n) s
    emissions p s = 0 → s.files p = some c →
      chainSteps n p s l₂ ≤ 4 * (n - 1) + 5 ∧
      ((∃ i, Alive s' p i) ∧ emissions p s' = 0 ∨ (∀ i, ¬ Alive s' p i) ∧ emissions p s' = 1)

/-- The paths for which events come. -/
def eventPaths (l : List Event) : Set String := {p | .notify p ∈ l}

def OneChain (n : ℕ) (files : String → Option Stamp) (l : List Event) : Prop :=
  Always (step n) AtMostOne (start files) l ∧ EmittedOnce n files l

variable {n : ℕ} {paths : Set String} {s s' : State} {p q : String} {i : ℕ} {c cur : Stamp}

/-! ### One chain -/

/-- There is one chain for a path at most, and a timer that waits stands under its path. -/
structure One (s : State) : Prop where
  atMostOne : AtMostOne s
  registered : ∀ i p, s.life i = .live p .waiting → s.pending.get? p = some (.timer i)

lemma alive_put {l : Life} {j : ℕ} (h : Alive (s.put i l) q j) :
    (j = i ∧ ∃ phase, l = .live q phase) ∨ (j ≠ i ∧ Alive s q j) := by
  obtain ⟨phase, hj⟩ := h
  by_cases hji : j = i
  · subst hji
    simp only [State.put, Function.update_self] at hj
    exact .inl ⟨rfl, phase, hj⟩
  · simp only [State.put, Function.update_of_ne hji] at hj
    exact .inr ⟨hji, phase, hj⟩

lemma One.put {l : Life} {phase : Phase} (h : One s) (hi : s.life i = .live p phase)
    (hl : ∀ q ph, l = .live q ph → q = p ∧ ph ≠ .waiting) : One (s.put i l) where
  atMostOne q j k hj hk := by
    have halive : ∀ j, Alive (s.put i l) q j → Alive s q j := by
      intro j hj
      rcases alive_put hj with ⟨rfl, ph, hph⟩ | ⟨-, hj⟩
      · rw [(hl q ph hph).1]
        exact ⟨phase, hi⟩
      · exact hj
    exact h.atMostOne q j k (halive j hj) (halive k hk)
  registered j q hj := by
    by_cases hji : j = i
    · subst hji
      simp only [State.put, Function.update_self] at hj
      exact absurd rfl (hl q _ hj).2
    · simp only [State.put, Function.update_of_ne hji] at hj
      exact h.registered j q hj

lemma One.pending {d : Dict String Value} {o : String → List Stamp} {phase : Phase} (h : One s)
    (hinv : Inv paths s) (hi : s.life i = .live p phase) (hphase : phase ≠ .waiting)
    (hother : ∀ q ∈ paths, q ≠ p → SameAt q s.pending d) :
    One { s with pending := d, observed := o } where
  atMostOne := h.atMostOne
  registered j q hj := by
    have hj : s.life j = .live q .waiting := hj
    by_cases hqp : q = p
    · subst hqp
      obtain rfl := h.atMostOne q i j ⟨phase, hi⟩ ⟨.waiting, hj⟩
      rw [hi] at hj
      cases hj
      exact absurd rfl hphase
    · exact (hother q (hinv.path_mem j q _ hj) hqp).1.trans (h.registered j q hj)

lemma One.newTimer (hsep : Separate paths) (h : One s) (hinv : Inv paths s) (hp : p ∈ paths)
    (hnone : ∀ i, ¬ Alive s p i) : One (newTimer s p) := by
  have halive : ∀ q j, Alive (EventHandler.newTimer s p) q j →
      (j = s.next ∧ q = p) ∨ (q ≠ p ∧ Alive s q j) := by
    rintro q j ⟨phase, hj⟩
    by_cases hj' : j = s.next
    · subst hj'
      simp only [EventHandler.newTimer, Function.update_self] at hj
      cases hj
      exact .inl ⟨rfl, rfl⟩
    · simp only [EventHandler.newTimer, Function.update_of_ne hj'] at hj
      refine .inr ⟨?_, phase, hj⟩
      rintro rfl
      exact hnone j ⟨phase, hj⟩
  constructor
  · intro q j k hj hk
    rcases halive q j hj with ⟨rfl, rfl⟩ | ⟨hqp, hj⟩
    · rcases halive _ k hk with ⟨rfl, -⟩ | ⟨hqp, -⟩
      · rfl
      · exact absurd rfl hqp
    · rcases halive q k hk with ⟨-, hq⟩ | ⟨-, hk⟩
      · exact absurd hq hqp
      · exact h.atMostOne q j k hj hk
  · intro j q hj
    rcases halive q j ⟨_, hj⟩ with ⟨rfl, rfl⟩ | ⟨hqp, ⟨phase, hj'⟩⟩
    · exact (get?_set_keys hsep hp).1
    · have hne : j ≠ s.next := (hinv.lt_next hj').ne
      simp only [EventHandler.newTimer, Function.update_of_ne hne] at hj ⊢
      rw [Dict.get?_set_of_ne _ _ hqp]
      exact h.registered j q hj

lemma schedule_eq (hinv : Inv paths s) (h : One s) (hp : p ∈ paths)
    (hquiet : ∀ i, ¬ Checking s p i) :
    ∃ s₀, schedule s p = newTimer s₀ p ∧ Inv paths s₀ ∧ One s₀ ∧ ∀ i, ¬ Alive s₀ p i := by
  have hwaiting : ∀ i, Alive s p i → s.life i = .live p .waiting := by
    rintro i ⟨phase, hi⟩
    by_cases hphase : phase = .waiting
    · rw [hi, hphase]
    · exact absurd ⟨phase, hi, hphase⟩ (hquiet i)
  unfold schedule
  cases hv : s.pending.get? p with
  | none =>
    refine ⟨s, rfl, hinv, h, fun i hi => ?_⟩
    have := h.registered i p (hwaiting i hi)
    rw [hv] at this
    cases this
  | some v =>
    obtain ⟨k, -, rfl, hpath⟩ := hinv.own p hp v hv
    refine ⟨cancel s k, rfl, hinv.cancel k, ?_, fun i hi => ?_⟩
    · unfold cancel
      split
      · next q hk => exact h.put hk fun _ _ hl => by cases hl
      · exact h
    · -- a thread that is left would be the timer that was cancelled
      unfold cancel at hi
      split at hi
      · rcases alive_put hi with ⟨-, ph, hph⟩ | ⟨hik, hi⟩
        · cases hph
        · have hreg := h.registered i p (hwaiting i hi)
          rw [hv] at hreg
          exact hik (Value.timer.inj (Option.some.inj hreg)).symm
      · next hk =>
        have hreg := h.registered i p (hwaiting i hi)
        rw [hv] at hreg
        obtain rfl := Value.timer.inj (Option.some.inj hreg)
        exact hk p (hwaiting k hi)

lemma newTimer_put (hinv : Inv paths s) {phase : Phase} (hi : s.life i = .live p phase) :
    (newTimer s p).put i .over = newTimer (s.put i .over) p := by
  have hne : i ≠ s.next := (hinv.lt_next hi).ne
  simp only [newTimer, State.put]
  rw [Function.update_comm hne]

lemma not_alive_put_over (h : One s) {phase : Phase} (hi : s.life i = .live p phase) (j : ℕ) :
    ¬ Alive (s.put i .over) p j := by
  intro hj
  rcases alive_put hj with ⟨-, ph, hph⟩ | ⟨hji, hj⟩
  · cases hph
  · exact hji (h.atMostOne p j i hj ⟨phase, hi⟩)

/-- **One event keeps one chain for each path**, if it does not come during a check. -/
lemma one_step (hsep : Separate paths) (s : State) (e : Event) (hinv : Inv paths s) (h : One s)
    (he : ∀ p, e = .notify p → p ∈ paths) (hquiet : Quiet s e) : One (step n s e) := by
  cases e with
  | change p o => exact ⟨h.atMostOne, h.registered⟩
  | notify p =>
    obtain ⟨s₀, hs₀, hinv₀, hone₀, hnone⟩ := schedule_eq hinv h (he p rfl) hquiet
    rw [step, hs₀]
    exact hone₀.newTimer hsep hinv₀ (he p rfl) hnone
  | run i =>
    unfold step
    dsimp only
    split
    · next p phase hi =>
      have hp := hinv.path_mem i p phase hi
      unfold check
      cases phase with
      | waiting => exact h.put hi fun _ _ hl => by cases hl; simp
      | fired =>
        dsimp only
        split <;> exact h.put hi fun _ _ hl => by cases hl; simp
      | gone =>
        have h' : One { s with pending := popAll s.pending p } :=
          h.pending hinv hi (by simp) fun q hq hne => sameAt_popAll hsep hp hq hne
        exact h'.put hi fun _ _ hl => by cases hl
      | seen cur =>
        dsimp only
        unfold observe
        split
        · exact h.put hi fun _ _ hl => by cases hl
        · next k _ =>
          have h' : One { s with
              pending := store s.pending p cur k
              observed := Function.update s.observed p (s.observed p ++ [cur]) } :=
            h.pending hinv hi (by simp) fun q hq hne => sameAt_store hsep hp hq hne
          refine h'.put hi fun _ _ hl => ?_
          cases hl
          split_ifs <;> simp
      | unstable =>
        dsimp only
        -- the firing timer ends and makes the next: there is one all along
        rw [newTimer_put hinv hi]
        exact (h.put hi fun _ _ hl => by cases hl).newTimer hsep
          (hinv.put hi fun _ _ hl => by cases hl) hp (not_alive_put_over h hi)
      | stable cur observed =>
        have h' : One { s with pending := popAll s.pending p } :=
          h.pending hinv hi (by simp) fun q hq hne => sameAt_popAll hsep hp hq hne
        exact h'.put hi fun _ _ hl => by cases hl; simp
      | emitting cur observed =>
        have h' : One { s with emitted := s.emitted ++ [Emission.mk p cur observed] } :=
          ⟨h.atMostOne, h.registered⟩
        exact h'.put hi fun _ _ hl => by cases hl
    · exact h

lemma quiet_of_atMostOne (s : State) (e : Event) (hinv : Inv paths s)
    (he : ∀ p, e = .notify p → p ∈ paths) (h : AtMostOne (step n s e)) : Quiet s e := by
  cases e with
  | change | run => trivial
  | notify p =>
    rintro i ⟨phase, hi, hphase⟩
    have hne : i ≠ s.next := (hinv.lt_next hi).ne
    have hcancel : ∀ k, (cancel s k).life i = .live p phase := by
      intro k
      unfold cancel
      split
      · next q hk =>
        have hik : i ≠ k := by
          rintro rfl
          rw [hi] at hk
          cases hk
          exact hphase rfl
        simp only [State.put, Function.update_of_ne hik, hi]
      · exact hi
    have hnext : ∀ k, (cancel s k).next = s.next := by
      intro k
      unfold cancel
      split <;> rfl
    -- the running check and the new timer would be two
    have htwo : ∀ s₀ : State, s₀.life i = .live p phase → s₀.next = s.next →
        ¬ AtMostOne (newTimer s₀ p) := by
      intro s₀ hi₀ hnext₀ hone
      refine hne (hone p i s.next ⟨phase, ?_⟩ ⟨.waiting, ?_⟩)
      · simp only [newTimer, hnext₀, Function.update_of_ne hne, hi₀]
      · simp only [newTimer, hnext₀, Function.update_self]
    unfold step schedule at h
    dsimp only at h
    cases hv : s.pending.get? p with
    | none =>
      rw [hv] at h
      exact htwo s hi rfl h
    | some v =>
      obtain ⟨k, -, rfl, -⟩ := hinv.own p (he p rfl) v hv
      rw [hv] at h
      exact htwo _ (hcancel k) (hnext k) h

/-! ### What the others do -/

/-- Nothing of the path differs between the states. -/
structure SameFor (p : String) (s s' : State) : Prop where
  life : ∀ i phase, s'.life i = .live p phase ↔ s.life i = .live p phase
  at_keys : SameAt p s.pending s'.pending
  files : s'.files p = s.files p
  emissions : emissions p s' = emissions p s

lemma SameFor.refl (p : String) (s : State) : SameFor p s s :=
  ⟨fun _ _ => Iff.rfl, ⟨rfl, rfl, rfl⟩, rfl, rfl⟩

lemma SameFor.trans {s'' : State} (h : SameFor p s s') (h' : SameFor p s' s'') :
    SameFor p s s'' where
  life i phase := (h'.life i phase).trans (h.life i phase)
  at_keys := ⟨h'.at_keys.1.trans h.at_keys.1, h'.at_keys.2.1.trans h.at_keys.2.1,
    h'.at_keys.2.2.trans h.at_keys.2.2⟩
  files := h'.files.trans h.files
  emissions := h'.emissions.trans h.emissions

lemma sameFor_put {l : Life} (hi : ∀ phase, s.life i ≠ .live p phase)
    (hl : ∀ phase, l ≠ .live p phase) : SameFor p s (s.put i l) := by
  refine ⟨fun j phase => ?_, ⟨rfl, rfl, rfl⟩, rfl, rfl⟩
  by_cases hji : j = i
  · subst hji
    simp only [State.put, Function.update_self]
    exact iff_of_false (hl phase) (hi phase)
  · simp only [State.put, Function.update_of_ne hji]

lemma sameFor_newTimer (hsep : Separate paths) (hinv : Inv paths s) (hp : p ∈ paths)
    (hq : q ∈ paths) (hne : p ≠ q) : SameFor p s (newTimer s q) := by
  refine ⟨fun j phase => ?_, sameAt_set hsep hq hp hne, rfl, rfl⟩
  by_cases hj : j = s.next
  · subst hj
    have hunused : s.life s.next = .unused := hinv.unused _ (le_refl _)
    simp only [newTimer, Function.update_self, hunused]
    refine iff_of_false (fun h => ?_) fun h => ?_
    · cases h
      exact hne rfl
    · cases h
  · simp only [newTimer, Function.update_of_ne hj]

/-- An event that does not touch the path and is no step of its threads leaves everything of the
path as it is. -/
lemma sameFor_step (hsep : Separate paths) (hinv : Inv paths s) (hp : p ∈ paths) (e : Event)
    (he : ∀ q, e = .notify q → q ∈ paths) (htouch : ¬ Touches p e) (hacts : acts s p e = false) :
    SameFor p s (step n s e) := by
  cases e with
  | change q o =>
    have hne : p ≠ q := fun h => htouch h.symm
    exact ⟨fun _ _ => Iff.rfl, ⟨rfl, rfl, rfl⟩, Function.update_of_ne hne _ _, rfl⟩
  | notify q =>
    have hne : p ≠ q := fun h => htouch h.symm
    have hq := he q rfl
    unfold step schedule
    dsimp only
    cases hv : s.pending.get? q with
    | none => exact sameFor_newTimer hsep hinv hp hq hne
    | some v =>
      obtain ⟨k, -, rfl, hpath⟩ := hinv.own q hq v hv
      refine SameFor.trans ?_ (sameFor_newTimer hsep (hinv.cancel k) hp hq hne)
      unfold cancel
      split
      · next r hk =>
        have hr := hpath r _ hk
        refine sameFor_put (fun phase hlive => hne ?_) fun phase => by simp
        exact hpath p phase hlive
      · exact SameFor.refl p s
  | run i =>
    -- a timer of another path: what it does to `_pending` is under its own keys
    unfold step
    unfold acts at hacts
    dsimp only at hacts ⊢
    split
    · next q phase hi =>
      rw [hi] at hacts
      have hne : p ≠ q := fun h => by simp [h] at hacts
      have hq := hinv.path_mem i q phase hi
      have hlive : ∀ ph, s.life i ≠ .live p ph := by
        intro ph hph
        rw [hi] at hph
        cases hph
        exact hne rfl
      have hgo : ∀ ph ph', Life.live q ph ≠ .live p ph' := by
        intro ph ph' hph
        cases hph
        exact hne rfl
      have hpop : SameFor p s { s with pending := popAll s.pending q } :=
        ⟨fun _ _ => Iff.rfl, sameAt_popAll hsep hq hp hne, rfl, rfl⟩
      unfold check
      cases phase with
      | waiting => exact sameFor_put hlive (hgo _)
      | fired =>
        dsimp only
        split <;> exact sameFor_put hlive (hgo _)
      | gone => exact hpop.trans (sameFor_put hlive fun _ => by simp)
      | seen cur =>
        dsimp only
        unfold observe
        split
        · exact sameFor_put hlive fun _ => by simp
        · next k _ =>
          have hstore : SameFor p s { s with
              pending := store s.pending q cur k
              observed := Function.update s.observed q (s.observed q ++ [cur]) } :=
            ⟨fun _ _ => Iff.rfl, sameAt_store hsep hq hp hne, rfl, rfl⟩
          exact hstore.trans (sameFor_put hlive (hgo _))
      | unstable =>
        dsimp only
        rw [newTimer_put hinv hi]
        exact (sameFor_put hlive fun _ => by simp).trans
          (sameFor_newTimer hsep (hinv.put hi fun _ _ hl => by cases hl) hp hq hne)
      | stable cur observed => exact hpop.trans (sameFor_put hlive (hgo _))
      | emitting cur observed =>
        have hemit : SameFor p s
            { s with emitted := s.emitted ++ [Emission.mk q cur observed] } := by
          refine ⟨fun _ _ => Iff.rfl, ⟨rfl, rfl, rfl⟩, rfl, ?_⟩
          simp [emissions, List.countP_append, hne.symm]
        exact hemit.trans (sameFor_put hlive fun _ => by simp)
    · exact SameFor.refl p s

/-! ### The last chain -/

/-- How many equal observations of the stamp the dictionary counts. -/
def runLength (d : Dict String Value) (p : String) (c : Stamp) : ℕ :=
  if d.get? (prevKey p) = some (.stamp c) then
    match d.get? (countKey p) with
    | some (.count k) => k
    | _ => 0
  else 0

/-- The steps that are left to a chain, if the file stays as it is; `k` observations count. -/
def stepsLeft (n k : ℕ) : Phase → ℕ
  | .waiting => 4 * (n - 1 - k) + 5
  | .fired => 4 * (n - 1 - k) + 4
  | .seen _ => 4 * (n - 1 - k) + 3
  | .unstable => 4 * (n - 1 - k) + 6
  | .stable _ _ => 2
  | .emitting _ _ => 1
  | .gone => 0

/-- The thread has not seen the file otherwise than it is. -/
def OnCourse (c : Stamp) : Phase → Prop
  | .seen cur => cur = c
  | .gone => False
  | _ => True

/-- The chain of the path has `m` steps left to its emission, or has ended with it. -/
inductive Left (n : ℕ) (p : String) (c : Stamp) (s : State) : ℕ → Prop
  | running (i : ℕ) (phase : Phase) (hi : s.life i = .live p phase)
      (hunique : ∀ j, Alive s p j → j = i) (hcourse : OnCourse c phase)
      (hnone : emissions p s = 0) : Left n p c s (stepsLeft n (runLength s.pending p c) phase)
  | done (hover : ∀ i, ¬ Alive s p i) (honce : emissions p s = 1) : Left n p c s 0

lemma runLength_of_sameAt {d d' : Dict String Value} (h : SameAt p d d') :
    runLength d' p c = runLength d p c := by
  rw [runLength, runLength, h.2.1, h.2.2]

lemma nextCount_eq {o : List Stamp} {d : Dict String Value} (h : Stored d p o) :
    nextCount d p c = some (runLength d p c + 1) := by
  unfold nextCount runLength
  split_ifs with hprev
  · rcases h with ⟨hnone, -⟩ | ⟨c', k, -, hk, -⟩
    · rw [hnone] at hprev
      cases hprev
    · rw [hk]
  · rfl

lemma runLength_store (hsep : Separate paths) (hp : p ∈ paths) {d : Dict String Value} {k : ℕ} :
    runLength (store d p c k) p c = k := by
  obtain ⟨-, hprev, hcount⟩ : (store d p c k).get? p = d.get? p ∧
      (store d p c k).get? (prevKey p) = some (.stamp c) ∧
      (store d p c k).get? (countKey p) = some (.count k) := get?_store_keys hsep hp
  rw [runLength, if_pos hprev, hcount]

lemma Left.sameFor {m : ℕ} (h : Left n p c s m) (hsame : SameFor p s s') : Left n p c s' m := by
  have halive : ∀ j, Alive s' p j → Alive s p j := by
    rintro j ⟨phase, hj⟩
    exact ⟨phase, (hsame.life j phase).mp hj⟩
  cases h with
  | running i phase hi hunique hcourse hnone =>
    rw [← runLength_of_sameAt hsame.at_keys]
    exact .running i phase ((hsame.life i phase).mpr hi) (fun j hj => hunique j (halive j hj))
      hcourse (hsame.emissions.trans hnone)
  | done hover honce =>
    exact .done (fun i hi => hover i (halive i hi)) (hsame.emissions.trans honce)

lemma left_put {phase phase' : Phase} {d : Dict String Value} {o : String → List Stamp} {m : ℕ}
    (hone : One s) (hi : s.life i = .live p phase) (hcourse : OnCourse c phase')
    (hnone : emissions p s = 0) (hm : m = stepsLeft n (runLength d p c) phase') :
    Left n p c (State.put { s with pending := d, observed := o } i (.live p phase')) m := by
  rw [hm]
  refine .running i phase' ?_ (fun j hj => ?_) hcourse hnone
  · simp only [State.put, Function.update_self]
  · rcases alive_put hj with ⟨hji, -⟩ | ⟨-, hj⟩
    · exact hji
    · exact hone.atMostOne p j i hj ⟨phase, hi⟩

/-- **A step of the chain brings the emission one step nearer.** -/
lemma left_run (hsep : Separate paths) (hinv : Inv paths s) (hone : One s) (hp : p ∈ paths)
    (hfile : s.files p = some c) {phase : Phase} (hi : s.life i = .live p phase)
    (hcourse : OnCourse c phase) (hnone : emissions p s = 0) :
    ∃ m, stepsLeft n (runLength s.pending p c) phase = m + 1 ∧
      Left n p c (check n s i p phase) m := by
  unfold check
  cases phase with
  | waiting =>
    exact ⟨_, rfl, left_put hone hi trivial hnone rfl⟩
  | fired =>
    dsimp only
    rw [hfile]
    exact ⟨_, rfl, left_put hone hi rfl hnone rfl⟩
  | gone => exact absurd hcourse id
  | seen cur =>
    obtain rfl : cur = c := hcourse
    dsimp only
    unfold observe
    rw [nextCount_eq (hinv.stored p hp)]
    refine ⟨_, rfl, ?_⟩
    have hlength : runLength (store s.pending p cur (runLength s.pending p cur + 1)) p cur =
        runLength s.pending p cur + 1 := runLength_store hsep hp
    change Left n p cur (State.put { s with
      pending := store s.pending p cur (runLength s.pending p cur + 1)
      observed := Function.update s.observed p (s.observed p ++ [cur]) } i
      (.live p (if n ≤ runLength s.pending p cur + 1 then .stable cur (s.observed p ++ [cur])
        else .unstable))) _
    refine left_put hone hi ?_ hnone ?_
    · split_ifs <;> trivial
    · rw [hlength]
      split_ifs with hn
      · simp only [stepsLeft]
        omega
      · simp only [stepsLeft]
        omega
  | unstable =>
    -- the count is in `_pending` and outlives the timer
    dsimp only
    rw [newTimer_put hinv hi]
    refine ⟨_, rfl, ?_⟩
    have hkeys := (get?_set_keys (d := s.pending) (v := .timer s.next) hsep hp).2
    have hlength : runLength (s.pending.set p (.timer s.next)) p c = runLength s.pending p c := by
      rw [runLength, runLength, hkeys.1, hkeys.2]
    have hleft := Left.running (n := n) (c := c) (s := newTimer (s.put i .over) p) s.next .waiting
      (by simp only [newTimer, State.put, Function.update_self]) (fun j hj => ?_) trivial hnone
    · have hpending : (newTimer (s.put i .over) p).pending = s.pending.set p (.timer s.next) := rfl
      rw [hpending, hlength] at hleft
      exact hleft
    · obtain ⟨phase, hj⟩ := hj
      by_contra hne
      simp only [newTimer, State.put, Function.update_of_ne hne] at hj
      exact not_alive_put_over hone hi j ⟨phase, hj⟩
  | stable cur observed =>
    exact ⟨1, rfl, left_put hone hi trivial hnone rfl⟩
  | emitting cur observed =>
    refine ⟨0, rfl, .done (fun j hj => ?_) ?_⟩
    · have hone' : One { s with emitted := s.emitted ++ [Emission.mk p cur observed] } :=
        ⟨hone.atMostOne, hone.registered⟩
      exact not_alive_put_over hone' hi j hj
    · have hnone : s.emitted.countP (fun e => decide (e.path = p)) = 0 := hnone
      simp [emissions, State.put, List.countP_append, hnone]

lemma step_run {i : ℕ} {phase : Phase} (hi : s.life i = .live p phase) :
    step n s (.run i) = check n s i p phase := by
  simp only [step, hi]

lemma acts_run_iff {i : ℕ} : acts s p (.run i) = true ↔ Alive s p i := by
  cases hi : s.life i with
  | live q phase => simp [acts, Alive, hi]
  | _ => simp [acts, Alive, hi]

lemma left_step (hsep : Separate paths) (hinv : Inv paths s) (hone : One s) (hp : p ∈ paths)
    (hfile : s.files p = some c) (e : Event) (he : ∀ q, e = .notify q → q ∈ paths)
    (htouch : ¬ Touches p e) {m : ℕ} (h : Left n p c s m) :
    ∃ m', m = (if acts s p e then 1 else 0) + m' ∧ Left n p c (step n s e) m' := by
  by_cases hacts : acts s p e = true
  · rw [if_pos hacts]
    cases e with
    | change | notify => cases hacts
    | run i =>
      obtain ⟨phase, hi⟩ := acts_run_iff.mp hacts
      rw [step_run hi]
      cases h with
      | running j phase' hj hunique hcourse hnone =>
        obtain rfl := hunique i ⟨phase, hi⟩
        rw [hi] at hj
        cases hj
        obtain ⟨m', hm', hleft⟩ := left_run hsep hinv hone hp hfile hi hcourse hnone
        exact ⟨m', by omega, hleft⟩
      | done hover honce => exact absurd ⟨phase, hi⟩ (hover i)
  · have hacts : acts s p e = false := by simpa using hacts
    rw [hacts]
    exact ⟨m, by simp, h.sameFor (sameFor_step hsep hinv hp e he htouch hacts)⟩

lemma files_step (e : Event) (htouch : ¬ Touches p e) : (step n s e).files p = s.files p := by
  cases e with
  | change q o => exact Function.update_of_ne (fun h => htouch h.symm) _ _
  | notify q =>
    have hcancel : ∀ k, (cancel s k).files = s.files := by
      intro k
      unfold cancel
      split <;> rfl
    unfold step schedule
    dsimp only
    split
    · exact congrFun (hcancel _) p
    · rfl
    · rfl
  | run i =>
    unfold step
    dsimp only
    split
    · next q phase hi =>
      unfold check
      cases phase with
      | fired =>
        dsimp only
        split <;> rfl
      | seen cur =>
        dsimp only
        unfold observe
        split <;> rfl
      | _ => rfl
    · rfl

lemma always_inv (hsep : Separate paths) {l : List Event}
    (hpaths : ∀ p, .notify p ∈ l → p ∈ paths) (hinv : Inv paths s) (hone : One s)
    (hquiet : Steps (step n) Quiet s l) :
    Always (step n) (fun s => Inv paths s ∧ One s) s l := by
  have hevents : Steps (step n) (fun _ e => ∀ p, e = .notify p → p ∈ paths) s l :=
    steps_of_forall fun e he p hp => hpaths p (hp ▸ he)
  refine always_of_inv (fun s e h he => ?_) ⟨hinv, hone⟩ (hevents.and hquiet)
  exact ⟨inv_step hsep s e h.1 he.1, one_step hsep s e h.1 h.2 he.1 he.2⟩

lemma left_run_steps (hsep : Separate paths) (hp : p ∈ paths) {l : List Event}
    (hpaths : ∀ p, .notify p ∈ l → p ∈ paths) (htouch : ∀ e ∈ l, ¬ Touches p e)
    (hfile : s.files p = some c)
    (hall : Always (step n) (fun s => Inv paths s ∧ One s) s l) {m : ℕ} (h : Left n p c s m) :
    ∃ m', m = chainSteps n p s l + m' ∧ Left n p c (l.foldl (step n) s) m' := by
  induction l generalizing s m with
  | nil => exact ⟨m, by simp [chainSteps], h⟩
  | cons e l ih =>
    obtain ⟨hinv, hone⟩ := hall.head
    have he : ∀ q, e = .notify q → q ∈ paths := by
      rintro q rfl
      exact hpaths q List.mem_cons_self
    have hte := htouch e List.mem_cons_self
    obtain ⟨m', hm', hleft⟩ := left_step hsep hinv hone hp hfile e he hte h
    obtain ⟨m'', hm'', hleft'⟩ := ih (fun q hq => hpaths q (List.mem_cons_of_mem _ hq))
      (fun a ha => htouch a (List.mem_cons_of_mem _ ha)) ((files_step e hte).trans hfile)
      hall.2 hleft
    refine ⟨m'', ?_, hleft'⟩
    rw [chainSteps]
    omega

lemma one_start (files : String → Option Stamp) : One (start files) where
  atMostOne _ _ _ h _ := by
    obtain ⟨phase, h⟩ := h
    cases h
  registered _ _ h := by cases h

lemma left_notify (hsep : Separate paths) (hinv : Inv paths s) (hone : One s) (hp : p ∈ paths)
    (hquiet : Quiet s (.notify p)) (hnone : emissions p (step n s (.notify p)) = 0) :
    ∃ m ≤ 4 * (n - 1) + 5, Left n p c (step n s (.notify p)) m := by
  obtain ⟨s₀, hs₀, hinv₀, hone₀, hover⟩ := schedule_eq hinv hone hp hquiet
  rw [step, hs₀] at hnone ⊢
  have hnew := hone₀.newTimer hsep hinv₀ hp hover
  have hi : (newTimer s₀ p).life s₀.next = .live p .waiting := by
    simp only [newTimer, Function.update_self]
  refine ⟨_, ?_, .running s₀.next .waiting hi (fun j hj => ?_) trivial hnone⟩
  · simp only [stepsLeft]
    omega
  · exact hnew.atMostOne p j s₀.next hj ⟨.waiting, hi⟩

lemma emittedOnce_of_quiet {l : List Event} {files : String → Option Stamp}
    (hsep : Separate (eventPaths l)) (hquiet : Steps (step n) Quiet (start files) l) :
    EmittedOnce n files l := by
  rintro p c l₁ l₂ rfl htouch s s' hnone hfile
  have hall := always_inv hsep (fun p hp => hp) (inv_start _ files) (one_start files) hquiet
  have hp : p ∈ eventPaths (l₁ ++ .notify p :: l₂) := by simp [eventPaths]
  have hpaths₂ : ∀ q, .notify q ∈ l₂ → q ∈ eventPaths (l₁ ++ .notify p :: l₂) :=
    fun q hq => by simp [eventPaths, hq]
  obtain ⟨hinv, hone⟩ := always_iff_states.mp hall l₁ (List.prefix_append _ _)
  obtain ⟨-, hq, hquiet₂⟩ := steps_append.mp hquiet
  obtain ⟨m, hm, hleft⟩ : ∃ m ≤ 4 * (n - 1) + 5, Left n p c s m :=
    left_notify hsep hinv hone hp hq hnone
  have hevent : ∀ q, Event.notify p = .notify q → q ∈ eventPaths (l₁ ++ .notify p :: l₂) := by
    intro q h
    cases h
    exact hp
  have hall₂ := always_inv hsep hpaths₂ (inv_step hsep _ _ hinv hevent)
    (one_step hsep _ _ hinv hone hevent hq) hquiet₂
  obtain ⟨m', hm', hend⟩ := left_run_steps hsep hp hpaths₂ htouch hfile hall₂ hleft
  refine ⟨by omega, ?_⟩
  cases hend with
  | running i phase hi _ _ hnone => exact .inl ⟨⟨i, phase, hi⟩, hnone⟩
  | done hover honce => exact .inr ⟨hover, honce⟩

/-- **One chain for each path and one emission, exactly if no event comes during a check of its
path.** -/
theorem oneChain_iff_quiet (n : ℕ) (files : String → Option Stamp) (l : List Event)
    (hsep : Separate (eventPaths l)) :
    OneChain n files l ↔ Steps (step n) Quiet (start files) l := by
  constructor
  · rintro ⟨hone, -⟩
    have hevents : Steps (step n) (fun _ e => ∀ p, e = .notify p → p ∈ eventPaths l)
        (start files) l := steps_of_forall fun e he p hp => by subst hp; exact he
    have hinv : ∀ s e, Inv (eventPaths l) s → (∀ p, e = .notify p → p ∈ eventPaths l) →
        Inv (eventPaths l) (step n s e) := fun s e h he => inv_step hsep s e h he
    exact steps_of_next hinv (fun s e h he hnext => quiet_of_atMostOne s e h he hnext)
      (inv_start _ files) hevents hone
  · intro hquiet
    have hall := always_inv hsep (fun p hp => hp) (inv_start _ files) (one_start files) hquiet
    exact ⟨hall.mono fun _ h => h.2.atMostOne, emittedOnce_of_quiet hsep hquiet⟩

/-- A file appears and is looked at once. -/
def oneEvent : List Event := .notify "/in/a.csv" :: List.replicate 5 (.run 0)

theorem oneChain_iff_quiet_oneEvent :
    Separate (eventPaths oneEvent) ∧ (OneChain 1 (fun _ => some (1, 10)) oneEvent ↔
      Steps (step 1) Quiet (start fun _ => some (1, 10)) oneEvent) := by
  have hsep : Separate (eventPaths oneEvent) := by
    have hone : ∀ p ∈ eventPaths oneEvent, p = "/in/a.csv" := by
      intro p hp
      simpa [eventPaths, oneEvent, List.replicate] using hp
    intro p hp q hq
    rw [hone p hp, hone q hq]
    constructor <;> decide
  exact ⟨hsep, oneChain_iff_quiet 1 _ _ hsep⟩

/-- A second event comes while the check of the first runs; both threads then run to their ends. -/
def eventDuringCheck : List Event :=
  [.notify "/in/a.csv", .run 0] ++ .notify "/in/a.csv" ::
    (List.replicate 4 (.run 0) ++ List.replicate 5 (.run 1))

/-- The file is handed on twice. -/
theorem not_oneChain_eventDuringCheck : ¬ ∀ (n : ℕ) (files : String → Option Stamp)
    (l : List Event), OneChain n files l := by
  intro h
  obtain ⟨-, hold⟩ := h 1 (fun _ => some (1, 10)) eventDuringCheck
  have htouch : ∀ e ∈ (List.replicate 4 (.run 0) ++ List.replicate 5 (.run 1) : List Event),
      ¬ Touches "/in/a.csv" e := by
    intro e he
    rcases List.mem_append.mp he with he | he <;>
    · rw [List.eq_of_mem_replicate he]
      exact id
  obtain ⟨-, hend⟩ := hold "/in/a.csv" (1, 10) _ _ rfl htouch (by decide +kernel) rfl
  have htwo : emissions "/in/a.csv" (eventDuringCheck.foldl (step 1)
      (start fun _ => some (1, 10))) = 2 := by decide +kernel
  rcases hend with ⟨-, hzero⟩ | ⟨-, hone⟩
  · exact absurd (htwo.symm.trans hzero) (by decide)
  · exact absurd (htwo.symm.trans hone) (by decide)

end Tdcs.TimerChains
