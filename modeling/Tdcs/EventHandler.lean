import Mathlib.Data.Int.Notation
import Mathlib.Data.Rat.Init
import Mathlib.Data.Set.Basic
import Mathlib.Logic.Function.Basic
import Tdcs.Lib.Dict
import Tdcs.Lib.Run

/-!
`EventHandler`: timers, and the checks they run, over one dictionary.

`_pending` holds the timer of a path under the path itself, and what was observed of the file
under the path with `:prev` and `:count` behind it. Each timer runs in a thread of its own;
what stands between two of its accesses to the dictionary, to the file or to the callback is
one step, and the steps of all threads interleave.
-/

namespace Tdcs.EventHandler

open Tdcs.Lib

/-- `(st_mtime, st_size)`. -/
abbrev Stamp := ℚ × ℕ

/-- What stands in `_pending`. -/
inductive Value
  | timer (id : ℕ)
  | stamp (cur : Stamp)
  | count (k : ℕ)
  deriving DecidableEq

def prevKey (p : String) : String := p ++ ":prev"
def countKey (p : String) : String := p ++ ":count"

/-- Where the thread of a timer stands in `_check_stability`. What was observed up to the last
observation comes along, once it has made the file stable. -/
inductive Phase
  /-- The timer may still be cancelled. -/
  | waiting
  | fired
  /-- `os.stat` has raised. -/
  | gone
  | seen (cur : Stamp)
  | unstable
  | stable (cur : Stamp) (observed : List Stamp)
  | emitting (cur : Stamp) (observed : List Stamp)

/-- A timer and its thread. -/
inductive Life
  | unused
  | live (path : String) (phase : Phase)
  | over

/-- A call of `_emit`. -/
structure Emission where
  path : String
  stat : Stamp
  observed : List Stamp

/-- `next` is the first timer not yet made; `observed` lists the observations of each path in the
order in which they took the lock. -/
structure State where
  pending : Dict String Value
  life : ℕ → Life
  next : ℕ
  files : String → Option Stamp
  observed : String → List Stamp
  emitted : List Emission

inductive Event
  /-- A file changes, appears or vanishes. -/
  | change (p : String) (o : Option Stamp)
  /-- `_schedule` is called, for a path with a suffix of the task. -/
  | notify (p : String)
  /-- The thread of a timer does its next step. -/
  | run (i : ℕ)

def State.put (s : State) (i : ℕ) (l : Life) : State :=
  { s with life := Function.update s.life i l }

/-- `cancel()`: a check that runs goes on. -/
def cancel (s : State) (k : ℕ) : State :=
  match s.life k with
  | .live _ .waiting => s.put k .over
  | _ => s

/-- A new timer is made, entered under the path and started. -/
def newTimer (s : State) (p : String) : State :=
  { s with
    pending := s.pending.set p (.timer s.next)
    life := Function.update s.life s.next (.live p .waiting)
    next := s.next + 1 }

/-- `_schedule`; what is no timer has no `cancel`. -/
def schedule (s : State) (p : String) : State :=
  match s.pending.get? p with
  | some (.timer k) => newTimer (cancel s k) p
  | none => newTimer s p
  | some _ => s

def popAll (d : Dict String Value) (p : String) : Dict String Value :=
  ((d.erase p).erase (prevKey p)).erase (countKey p)

/-- `count` after an observation; to what is no number nothing can be added. -/
def nextCount (d : Dict String Value) (p : String) (cur : Stamp) : Option ℕ :=
  if d.get? (prevKey p) = some (.stamp cur) then
    match d.get? (countKey p) with
    | none => some 1
    | some (.count k) => some (k + 1)
    | some _ => none
  else some 1

/-- The two values an observation leaves. -/
def store (d : Dict String Value) (p : String) (cur : Stamp) (k : ℕ) : Dict String Value :=
  (d.set (prevKey p) (.stamp cur)).set (countKey p) (.count k)

/-- The observation of the thread `i`; `n` is `stability_check_count`. -/
def observe (n : ℕ) (s : State) (i : ℕ) (p : String) (cur : Stamp) : State :=
  match nextCount s.pending p cur with
  | none => s.put i .over
  | some k =>
    let observed := s.observed p ++ [cur]
    { s with
      pending := store s.pending p cur k
      observed := Function.update s.observed p observed
      life := Function.update s.life i
        (.live p (if n ≤ k then .stable cur observed else .unstable)) }

/-- The next step of the thread `i`. -/
def check (n : ℕ) (s : State) (i : ℕ) (p : String) : Phase → State
  | .waiting => s.put i (.live p .fired)
  | .fired =>
    match s.files p with
    | some cur => s.put i (.live p (.seen cur))
    | none => s.put i (.live p .gone)
  | .gone => { s with pending := popAll s.pending p }.put i .over
  | .seen cur => observe n s i p cur
  | .unstable => (newTimer s p).put i .over
  | .stable cur observed =>
    { s with pending := popAll s.pending p }.put i (.live p (.emitting cur observed))
  | .emitting cur observed =>
    { s with emitted := s.emitted ++ [Emission.mk p cur observed] }.put i .over

def step (n : ℕ) (s : State) : Event → State
  | .change p o => { s with files := Function.update s.files p o }
  | .notify p => schedule s p
  | .run i =>
    match s.life i with
    | .live p phase => check n s i p phase
    | _ => s

def start (files : String → Option Stamp) : State :=
  ⟨Dict.empty, fun _ => .unused, 0, files, fun _ => [], []⟩

/-! ### Keys -/

/-- No path is one of the derived keys of another. -/
def Separate (paths : Set String) : Prop :=
  ∀ p ∈ paths, ∀ q ∈ paths, p ≠ prevKey q ∧ p ≠ countKey q

section

variable {n : ℕ} {paths : Set String} {s : State} {p q : String} {i : ℕ} {cur : Stamp}

lemma prevKey_inj (h : prevKey p = prevKey q) : p = q := by
  have := congrArg String.toList h
  simp only [prevKey, String.toList_append] at this
  exact String.toList_inj.mp (List.append_cancel_right this)

lemma countKey_inj (h : countKey p = countKey q) : p = q := by
  have := congrArg String.toList h
  simp only [countKey, String.toList_append] at this
  exact String.toList_inj.mp (List.append_cancel_right this)

lemma prevKey_ne_countKey : prevKey p ≠ countKey q := by
  intro h
  have hlast := congrArg (fun t : String => t.toList.getLast?) h
  simp only [prevKey, countKey, String.toList_append] at hlast
  have hv : ":prev".toList.getLast? = some 'v' := by decide
  have ht : ":count".toList.getLast? = some 't' := by decide
  rw [List.getLast?_append, List.getLast?_append, hv, ht] at hlast
  simp at hlast

/-- The dictionaries hold the same under the three keys of the path. -/
def SameAt (q : String) (d d' : Dict String Value) : Prop :=
  d'.get? q = d.get? q ∧ d'.get? (prevKey q) = d.get? (prevKey q) ∧
    d'.get? (countKey q) = d.get? (countKey q)

variable {d : Dict String Value} {v : Value} {k : ℕ}

lemma sameAt_set (hsep : Separate paths) (hp : p ∈ paths) (hq : q ∈ paths) (hne : q ≠ p) :
    SameAt q d (d.set p v) :=
  ⟨Dict.get?_set_of_ne _ _ hne, Dict.get?_set_of_ne _ _ (hsep p hp q hq).1.symm,
    Dict.get?_set_of_ne _ _ (hsep p hp q hq).2.symm⟩

lemma sameAt_store (hsep : Separate paths) (hp : p ∈ paths) (hq : q ∈ paths) (hne : q ≠ p) :
    SameAt q d (store d p cur k) := by
  unfold store
  refine ⟨?_, ?_, ?_⟩
  · rw [Dict.get?_set_of_ne _ _ (hsep q hq p hp).2, Dict.get?_set_of_ne _ _ (hsep q hq p hp).1]
  · rw [Dict.get?_set_of_ne _ _ prevKey_ne_countKey,
      Dict.get?_set_of_ne _ _ fun h => hne (prevKey_inj h)]
  · rw [Dict.get?_set_of_ne _ _ fun h => hne (countKey_inj h),
      Dict.get?_set_of_ne _ _ prevKey_ne_countKey.symm]

lemma sameAt_popAll (hsep : Separate paths) (hp : p ∈ paths) (hq : q ∈ paths) (hne : q ≠ p) :
    SameAt q d (popAll d p) := by
  unfold popAll
  refine ⟨?_, ?_, ?_⟩
  · rw [Dict.get?_erase_of_ne _ (hsep q hq p hp).2, Dict.get?_erase_of_ne _ (hsep q hq p hp).1,
      Dict.get?_erase_of_ne _ hne]
  · rw [Dict.get?_erase_of_ne _ prevKey_ne_countKey,
      Dict.get?_erase_of_ne _ fun h => hne (prevKey_inj h),
      Dict.get?_erase_of_ne _ (hsep p hp q hq).1.symm]
  · rw [Dict.get?_erase_of_ne _ fun h => hne (countKey_inj h),
      Dict.get?_erase_of_ne _ prevKey_ne_countKey.symm,
      Dict.get?_erase_of_ne _ (hsep p hp q hq).2.symm]

lemma get?_set_keys (hsep : Separate paths) (hp : p ∈ paths) :
    (d.set p v).get? p = some v ∧ (d.set p v).get? (prevKey p) = d.get? (prevKey p) ∧
      (d.set p v).get? (countKey p) = d.get? (countKey p) :=
  ⟨Dict.get?_set_self _ _ _, Dict.get?_set_of_ne _ _ (hsep p hp p hp).1.symm,
    Dict.get?_set_of_ne _ _ (hsep p hp p hp).2.symm⟩

lemma get?_store_keys (hsep : Separate paths) (hp : p ∈ paths) :
    (store d p cur k).get? p = d.get? p ∧
      (store d p cur k).get? (prevKey p) = some (.stamp cur) ∧
      (store d p cur k).get? (countKey p) = some (.count k) := by
  unfold store
  refine ⟨?_, ?_, Dict.get?_set_self _ _ _⟩
  · rw [Dict.get?_set_of_ne _ _ (hsep p hp p hp).2, Dict.get?_set_of_ne _ _ (hsep p hp p hp).1]
  · rw [Dict.get?_set_of_ne _ _ prevKey_ne_countKey, Dict.get?_set_self]

lemma get?_popAll_keys (hsep : Separate paths) (hp : p ∈ paths) :
    (popAll d p).get? p = none ∧ (popAll d p).get? (prevKey p) = none ∧
      (popAll d p).get? (countKey p) = none := by
  unfold popAll
  refine ⟨?_, ?_, Dict.get?_erase_self _ _⟩
  · rw [Dict.get?_erase_of_ne _ (hsep p hp p hp).2, Dict.get?_erase_of_ne _ (hsep p hp p hp).1,
      Dict.get?_erase_self]
  · rw [Dict.get?_erase_of_ne _ prevKey_ne_countKey, Dict.get?_erase_self]

/-! ### What the dictionary holds -/

/-- Nothing is stored of the path, or its last observation and the length of a run of equal ones
at the end. -/
def Stored (d : Dict String Value) (p : String) (observed : List Stamp) : Prop :=
  (d.get? (prevKey p) = none ∧ d.get? (countKey p) = none) ∨
    ∃ c k, d.get? (prevKey p) = some (.stamp c) ∧ d.get? (countKey p) = some (.count k) ∧
      List.replicate k c <:+ observed

structure Inv (paths : Set String) (s : State) : Prop where
  unused : ∀ i, s.next ≤ i → s.life i = .unused
  path_mem : ∀ i p phase, s.life i = .live p phase → p ∈ paths
  own : ∀ p ∈ paths, ∀ v, s.pending.get? p = some v →
    ∃ i < s.next, v = .timer i ∧ ∀ q phase, s.life i = .live q phase → q = p
  stored : ∀ p ∈ paths, Stored s.pending p (s.observed p)

lemma inv_start (paths : Set String) (files : String → Option Stamp) :
    Inv paths (start files) where
  unused _ _ := rfl
  path_mem _ _ _ h := by cases h
  own _ _ _ h := by cases h
  stored _ _ := .inl ⟨rfl, rfl⟩

lemma Inv.lt_next {phase : Phase} (h : Inv paths s) (hi : s.life i = .live p phase) :
    i < s.next := by
  by_contra hge
  rw [h.unused i (not_lt.mp hge)] at hi
  cases hi

lemma Inv.put {l : Life} {phase : Phase} (h : Inv paths s) (hi : s.life i = .live p phase)
    (hl : ∀ q ph, l = .live q ph → q = p) : Inv paths (s.put i l) where
  unused j hj := by
    have hlt := h.lt_next hi
    have hji : j ≠ i := by
      rintro rfl
      exact absurd hlt (not_lt.mpr hj)
    simp only [State.put, Function.update_of_ne hji]
    exact h.unused j hj
  path_mem j q ph hj := by
    by_cases hji : j = i
    · subst hji
      simp only [State.put, Function.update_self] at hj
      rw [hl q ph hj]
      exact h.path_mem j p phase hi
    · simp only [State.put, Function.update_of_ne hji] at hj
      exact h.path_mem j q ph hj
  own q hq v hv := by
    obtain ⟨j, hj, rfl, hpath⟩ := h.own q hq v hv
    refine ⟨j, hj, rfl, fun r ph hr => ?_⟩
    by_cases hji : j = i
    · subst hji
      simp only [State.put, Function.update_self] at hr
      rw [hl r ph hr]
      exact hpath p phase hi
    · simp only [State.put, Function.update_of_ne hji] at hr
      exact hpath r ph hr
  stored := h.stored

lemma Inv.cancel (h : Inv paths s) (k : ℕ) : Inv paths (cancel s k) := by
  unfold EventHandler.cancel
  split
  · next path hk => exact h.put hk fun _ _ hl => by cases hl
  · exact h

lemma Inv.pending {d : Dict String Value} {o : List Stamp} (h : Inv paths s)
    (hother : ∀ q ∈ paths, q ≠ p → SameAt q s.pending d)
    (hown : d.get? p = s.pending.get? p ∨ d.get? p = none) (hstored : Stored d p o) :
    Inv paths { s with pending := d, observed := Function.update s.observed p o } where
  unused := h.unused
  path_mem := h.path_mem
  own q hq v hv := by
    by_cases hqp : q = p
    · subst hqp
      rcases hown with hown | hown
      · exact h.own q hq v (hown ▸ hv)
      · change d.get? q = some v at hv
        rw [hown] at hv
        cases hv
    · exact h.own q hq v ((hother q hq hqp).1 ▸ hv)
  stored q hq := by
    by_cases hqp : q = p
    · subst hqp
      simp only [Function.update_self]
      exact hstored
    · obtain ⟨-, hprev, hcount⟩ := hother q hq hqp
      simp only [Function.update_of_ne hqp, Stored, hprev, hcount]
      exact h.stored q hq

lemma Inv.popAll (hsep : Separate paths) (h : Inv paths s) (hp : p ∈ paths) :
    Inv paths { s with pending := popAll s.pending p } := by
  obtain ⟨hown, hprev, hcount⟩ := get?_popAll_keys (d := s.pending) hsep hp
  have := h.pending (o := s.observed p) (fun q hq hne => sameAt_popAll hsep hp hq hne)
    (.inr hown) (.inl ⟨hprev, hcount⟩)
  rwa [Function.update_eq_self] at this

lemma Inv.newTimer (hsep : Separate paths) (h : Inv paths s) (hp : p ∈ paths) :
    Inv paths (newTimer s p) where
  unused j hj := by
    have hj : s.next + 1 ≤ j := hj
    have hne : j ≠ s.next := by omega
    simp only [EventHandler.newTimer, Function.update_of_ne hne]
    exact h.unused j (by omega)
  path_mem j q ph hj := by
    by_cases hj' : j = s.next
    · subst hj'
      simp only [EventHandler.newTimer, Function.update_self] at hj
      cases hj
      exact hp
    · simp only [EventHandler.newTimer, Function.update_of_ne hj'] at hj
      exact h.path_mem j q ph hj
  own q hq v hv := by
    simp only [EventHandler.newTimer] at hv ⊢
    by_cases hqp : q = p
    · subst hqp
      rw [Dict.get?_set_self] at hv
      cases hv
      refine ⟨s.next, by omega, rfl, fun r ph hr => ?_⟩
      rw [Function.update_self] at hr
      cases hr
      rfl
    · rw [Dict.get?_set_of_ne _ _ hqp] at hv
      obtain ⟨j, hj, rfl, hpath⟩ := h.own q hq v hv
      refine ⟨j, by omega, rfl, fun r ph hr => ?_⟩
      rw [Function.update_of_ne (by omega)] at hr
      exact hpath r ph hr
  stored q hq := by
    simp only [EventHandler.newTimer, Stored]
    rw [Dict.get?_set_of_ne _ _ (hsep p hp q hq).1.symm,
      Dict.get?_set_of_ne _ _ (hsep p hp q hq).2.symm]
    exact h.stored q hq

lemma Inv.schedule (hsep : Separate paths) (h : Inv paths s) (hp : p ∈ paths) :
    Inv paths (schedule s p) := by
  unfold EventHandler.schedule
  split
  · exact (h.cancel _).newTimer hsep hp
  · exact h.newTimer hsep hp
  · exact h

lemma nextCount_eq_some (h : Stored s.pending p (s.observed p)) :
    ∃ k, nextCount s.pending p cur = some (k + 1) ∧
      List.replicate (k + 1) cur <:+ s.observed p ++ [cur] := by
  have hone : List.replicate 1 cur <:+ s.observed p ++ [cur] := List.suffix_append _ _
  unfold nextCount
  split_ifs with hprev
  · rcases h with ⟨hnone, -⟩ | ⟨c, k, hc, hk, hsuffix⟩
    · rw [hnone] at hprev
      cases hprev
    · rw [hc] at hprev
      cases hprev
      rw [hk]
      refine ⟨k, rfl, ?_⟩
      rw [List.replicate_succ']
      exact List.suffix_append_inj_of_length_eq (by simp) |>.mpr ⟨hsuffix, rfl⟩
  · exact ⟨0, rfl, hone⟩

lemma Inv.observe (hsep : Separate paths) (h : Inv paths s)
    (hi : s.life i = .live p (.seen cur)) : Inv paths (observe n s i p cur) := by
  have hp := h.path_mem i p _ hi
  obtain ⟨k, hk, hsuffix⟩ : ∃ k, nextCount s.pending p cur = some (k + 1) ∧
      List.replicate (k + 1) cur <:+ s.observed p ++ [cur] := nextCount_eq_some (h.stored p hp)
  unfold EventHandler.observe
  rw [hk]
  obtain ⟨hown, hprev, hcount⟩ : (store s.pending p cur (k + 1)).get? p = s.pending.get? p ∧
      (store s.pending p cur (k + 1)).get? (prevKey p) = some (.stamp cur) ∧
      (store s.pending p cur (k + 1)).get? (countKey p) = some (.count (k + 1)) :=
    get?_store_keys hsep hp
  have hpending := h.pending (fun q hq hne => sameAt_store hsep hp hq hne) (.inl hown)
    (.inr ⟨cur, k + 1, hprev, hcount, hsuffix⟩)
  exact hpending.put hi fun q ph hq => by cases hq; rfl

/-- **One event keeps the invariant.** -/
lemma inv_step (hsep : Separate paths) (s : State) (e : Event) (h : Inv paths s)
    (he : ∀ p, e = .notify p → p ∈ paths) : Inv paths (step n s e) := by
  cases e with
  | change p o => exact ⟨h.unused, h.path_mem, h.own, h.stored⟩
  | notify p => exact h.schedule hsep (he p rfl)
  | run i =>
    unfold step
    dsimp only
    split
    · next p phase hi =>
      have hp := h.path_mem i p phase hi
      unfold check
      cases phase with
      | waiting => exact h.put hi fun q ph hq => by cases hq; rfl
      | fired =>
        dsimp only
        split <;> exact h.put hi fun q ph hq => by cases hq; rfl
      | gone => exact (h.popAll hsep hp).put hi fun q ph hq => by cases hq
      | seen cur => exact h.observe hsep hi
      | unstable =>
        -- the next timer is made before the running one goes
        have hne : i ≠ s.next := (h.lt_next hi).ne
        have hi' : (newTimer s p).life i = .live p .unstable := by
          simp only [EventHandler.newTimer, Function.update_of_ne hne, hi]
        exact (h.newTimer hsep hp).put hi' fun q ph hq => by cases hq
      | stable cur observed =>
        exact (h.popAll hsep hp).put hi fun q ph hq => by cases hq; rfl
      | emitting cur observed =>
        have h' : Inv paths { s with emitted := s.emitted ++ [Emission.mk p cur observed] } :=
          ⟨h.unused, h.path_mem, h.own, h.stored⟩
        exact h'.put hi fun q ph hq => by cases hq
    · exact h

end

end Tdcs.EventHandler
