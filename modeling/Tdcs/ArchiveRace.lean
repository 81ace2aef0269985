import Tdcs.SafeMove
import Mathlib.Logic.Function.Basic

/-!
Calls of `archive_after_success` side by side, in move mode.

A call looks for a free destination first and fills it much later. Two calls for files of one
name that both look before either renames choose the same destination; without that, every
source ends up in a place of its own.
-/

namespace Tdcs.ArchiveRace

open Tdcs.Lib Tdcs.Lib.Run Tdcs.FileArchiver Tdcs.SafeMove

/-- A call, with the suffixes it draws. -/
structure Call where
  src : FPath
  dir : String
  uidDst : String
  uidTmp : String

/-- The destination, where it is free. -/
def Call.plain (c : Call) : FPath := ⟨c.dir, c.src.name⟩

/-- The destination otherwise. -/
def Call.suffixed (c : Call) : FPath :=
  ⟨c.dir, (splitext c.src.name).1 ++ "_" ++ c.uidDst ++ (splitext c.src.name).2⟩

def Call.move (c : Call) (dst : FPath) : Move := ⟨c.src, dst, c.uidTmp⟩

/-- The paths with a suffix of the call. -/
def Call.own (c : Call) : List FPath :=
  [c.suffixed, tmpPath c.plain c.uidTmp, tmpPath c.suffixed c.uidTmp]

/-- Calls on different files that exist. What their suffixes lead to is no source, no plain
destination, and nobody else's. -/
structure Workload (ι : Type*) where
  call : ι → Call
  fs : FS
  file : ι → File Data
  exists_src : ∀ i, fs.get? (call i).src = some (file i)
  src_inj : ∀ i j, (call i).src = (call j).src → i = j
  own_fresh : ∀ i j, ∀ p ∈ (call i).own, p ≠ (call j).src ∧ p ≠ (call j).plain
  own_disjoint : ∀ i j, i ≠ j → ∀ p ∈ (call i).own, p ∉ (call j).own

inductive Progress
  | called
  | moving (dst : FPath) (phase : Phase)
  deriving DecidableEq

structure State (ι : Type*) where
  fs : FS
  progress : ι → Progress

/-- The next operation of a call is done, or fails. -/
inductive Event (ι : Type*)
  | go (i : ι)
  | fail (i : ι) (left : Option (File Data))

section

variable {ι : Type*}

def Event.call : Event ι → ι
  | go i => i
  | fail i _ => i

def Event.outcome : Event ι → Outcome Data
  | go _ => .ok
  | fail _ left => .fails left

variable (D : Digest Data) (W : Workload ι)

def start : State ι := ⟨W.fs, fun _ => .called⟩

/-- `os.path.exists`, which does not raise, and then the operations of `_safe_move`. -/
def step [DecidableEq ι] (s : State ι) (e : Event ι) : State ι :=
  let c := W.call e.call
  match s.progress e.call with
  | .called =>
    let dst := resolveDst s.fs c.dir c.src c.uidDst
    ⟨s.fs, Function.update s.progress e.call (.moving dst .called)⟩
  | .moving dst phase =>
    let t := SafeMove.step D (c.move dst) ⟨s.fs, phase⟩ e.outcome
    ⟨t.fs, Function.update s.progress e.call (.moving dst t.phase)⟩

def AllReturned (s : State ι) : Prop := ∀ i, ∃ dst, s.progress i = .moving dst .returned

/-- Each source is under the path its call returned, in its archive, and no two calls returned
one path. -/
def Archived (s : State ι) : Prop :=
  (∀ i dst, s.progress i = .moving dst .returned →
    dst.dir = (W.call i).dir ∧ s.fs.get? dst = some (W.file i)) ∧
  ∀ i j dst, s.progress i = .moving dst .returned → s.progress j = .moving dst .returned → i = j

/-- The call has chosen the destination, and is still to rename its copy to it. -/
def Underway (s : State ι) (i : ι) (dst : FPath) : Prop :=
  ∃ phase, s.progress i = .moving dst phase ∧ phase ≠ .moved ∧ ¬ phase.Over

/-- A call that finds its destination free does so while no other is on the way there. -/
def Alone (s : State ι) (e : Event ι) : Prop :=
  s.progress e.call = .called → s.fs.get? (W.call e.call).plain = none →
    ∀ j, ¬ Underway s j (W.call e.call).plain

/-! ### Who uses which path -/

/-- The call has chosen the destination, and has not raised. -/
def Chosen (s : State ι) (i : ι) (dst : FPath) : Prop :=
  ∃ phase, s.progress i = .moving dst phase ∧ phase ≠ .raised

/-- The call still needs its source. -/
def Live (s : State ι) (i : ι) : Prop :=
  ∀ dst phase, s.progress i = .moving dst phase → ¬ phase.Over

/-- What is known of one call. -/
def CallInv (fs : FS) (i : ι) : Progress → Prop
  | .called => fs.get? (W.call i).src = some (W.file i)
  | .moving dst phase => (dst = (W.call i).plain ∨ dst = (W.call i).suffixed) ∧
      Exact ((W.call i).move dst) (W.file i) ⟨fs, phase⟩

structure Inv (s : State ι) : Prop where
  call : ∀ i, CallInv W s.fs i (s.progress i)
  dst_ne_dst : ∀ i j dst dst', i ≠ j → Chosen s i dst → Chosen s j dst' → dst ≠ dst'
  dst_ne_src : ∀ i j dst, Chosen s i dst → Live s j → dst ≠ (W.call j).src

variable {D W} {s : State ι} {i j : ι} {dst dst' : FPath} {phase : Phase}

lemma resolveDst_eq (c : Call) (fs : FS) :
    resolveDst fs c.dir c.src c.uidDst =
      if (fs.get? c.plain).isSome then c.suffixed else c.plain := rfl

lemma tmp_mem_own {c : Call} (h : dst = c.plain ∨ dst = c.suffixed) :
    (c.move dst).tmp ∈ c.own := by
  rcases h with rfl | rfl <;> simp [Call.own, Call.move, Move.tmp]

lemma suffixed_mem_own (c : Call) : c.suffixed ∈ c.own := List.mem_cons_self

lemma tmp_ne_dst (hi : dst = (W.call i).plain ∨ dst = (W.call i).suffixed)
    (hj : dst' = (W.call j).plain ∨ dst' = (W.call j).suffixed) (hij : i ≠ j) :
    ((W.call i).move dst).tmp ≠ dst' := by
  have hmem := tmp_mem_own hi
  rcases hj with rfl | rfl
  · exact (W.own_fresh i j _ hmem).2
  · intro h
    exact W.own_disjoint i j hij _ hmem (h ▸ suffixed_mem_own (W.call j))

lemma tmp_ne_src (hi : dst = (W.call i).plain ∨ dst = (W.call i).suffixed) (j : ι) :
    ((W.call i).move dst).tmp ≠ (W.call j).src :=
  (W.own_fresh i j _ (tmp_mem_own hi)).1

lemma tmp_ne_tmp (hi : dst = (W.call i).plain ∨ dst = (W.call i).suffixed)
    (hj : dst' = (W.call j).plain ∨ dst' = (W.call j).suffixed) (hij : i ≠ j) :
    ((W.call i).move dst).tmp ≠ ((W.call j).move dst').tmp := by
  intro h
  exact W.own_disjoint i j hij _ (tmp_mem_own hi) (h ▸ tmp_mem_own hj)

lemma Inv.src (h : Inv W s) (hlive : Live s i) : s.fs.get? (W.call i).src = some (W.file i) := by
  have hi := h.call i
  cases hp : s.progress i with
  | called =>
    rw [hp] at hi
    exact hi
  | moving dst phase =>
    rw [hp] at hi
    exact hi.2.src (hlive dst phase hp)

lemma Inv.dst_eq (h : Inv W s) (hchosen : Chosen s i dst) :
    dst = (W.call i).plain ∨ dst = (W.call i).suffixed := by
  obtain ⟨phase, hp, -⟩ := hchosen
  have hi := h.call i
  rw [hp] at hi
  exact hi.1

lemma Inv.filled (h : Inv W s) (hchosen : Chosen s i dst) (hunder : ¬ Underway s i dst) :
    s.fs.get? dst = some (W.file i) := by
  obtain ⟨phase, hp, hr⟩ := hchosen
  have hi := h.call i
  rw [hp] at hi
  by_cases hmoved : phase = .moved
  · subst hmoved
    exact hi.2.2
  · by_cases hret : phase = .returned
    · subst hret
      exact hi.2
    · refine absurd ⟨phase, hp, hmoved, ?_⟩ hunder
      rintro (hover | hover)
      · exact hret hover
      · exact hr hover

lemma live_of_called (h : s.progress i = .called) : Live s i := by
  intro dst phase hp
  rw [h] at hp
  cases hp

lemma live_of_moving (h : s.progress i = .moving dst phase) (hphase : ¬ phase.Over) :
    Live s i := by
  intro dst' phase' hp
  rw [h] at hp
  cases hp
  exact hphase

lemma inv_start : Inv W (start W) := by
  refine ⟨W.exists_src, fun i j dst dst' _ hi => ?_, fun i j dst hi => ?_⟩ <;>
  · obtain ⟨phase, hp, -⟩ := hi
    cases hp

/-! ### Two calls with one destination -/

/-- Two calls have chosen one destination. -/
def Clash (s : State ι) : Prop :=
  ∃ i j dst, i ≠ j ∧ (∃ ph, s.progress i = .moving dst ph) ∧ ∃ ph, s.progress j = .moving dst ph

lemma not_archived_of_clash (hall : AllReturned s) (h : Clash s) : ¬ Archived W s := by
  rintro ⟨-, hinj⟩
  obtain ⟨i, j, dst, hij, ⟨ph, hi⟩, ⟨ph', hj⟩⟩ := h
  obtain ⟨d, hri⟩ := hall i
  obtain ⟨d', hrj⟩ := hall j
  rw [hi] at hri
  rw [hj] at hrj
  cases hri
  cases hrj
  exact hij (hinj i j dst hi hj)

lemma archived_of_inv (h : Inv W s) : Archived W s := by
  constructor
  · intro i dst hp
    have hi := h.call i
    rw [hp] at hi
    refine ⟨?_, hi.2⟩
    rcases hi.1 with rfl | rfl <;> rfl
  · intro i j dst hi hj
    by_contra hij
    have hret : Phase.returned ≠ .raised := by simp
    exact h.dst_ne_dst i j dst dst hij ⟨_, hi, hret⟩ ⟨_, hj, hret⟩ rfl

/-! ### The choice of a destination -/

/-- What the check may give a call: its plain path while that is free, or its own suffixed one. -/
def Offered (W : Workload ι) (s : State ι) (i : ι) (dst : FPath) : Prop :=
  dst = (W.call i).plain ∧ s.fs.get? (W.call i).plain = none ∨ dst = (W.call i).suffixed

lemma offered_resolveDst (s : State ι) (i : ι) :
    Offered W s i (resolveDst s.fs (W.call i).dir (W.call i).src (W.call i).uidDst) := by
  rw [Offered, resolveDst_eq]
  split_ifs with hex
  · exact .inr rfl
  · exact .inl ⟨rfl, by simpa using hex⟩

lemma Offered.ne_of_chosen (hdst : Offered W s i dst) (h : Inv W s)
    (halone : s.fs.get? (W.call i).plain = none → ∀ j, ¬ Underway s j (W.call i).plain)
    (hij : i ≠ j) (hchosen : Chosen s j dst') : dst ≠ dst' := by
  rintro rfl
  rcases hdst with ⟨rfl, hfree⟩ | rfl
  · have hfilled := h.filled hchosen (halone hfree j)
    rw [hfree] at hfilled
    cases hfilled
  · have hmem := suffixed_mem_own (W.call i)
    rcases h.dst_eq hchosen with hj | hj
    · exact (W.own_fresh i j _ hmem).2 hj
    · refine W.own_disjoint i j hij _ hmem ?_
      rw [hj]
      exact suffixed_mem_own _

lemma Offered.ne_src (hdst : Offered W s i dst) (h : Inv W s) (hlive : Live s j) :
    dst ≠ (W.call j).src := by
  intro heq
  have hj := h.src hlive
  rcases hdst with ⟨rfl, hfree⟩ | rfl
  · rw [← heq, hfree] at hj
    cases hj
  · exact (W.own_fresh i j _ (suffixed_mem_own _)).1 heq

/-! ### One step -/

variable [DecidableEq ι]

lemma chosen_update {fs : FS} {d : FPath}
    (h : Chosen ⟨fs, Function.update s.progress i (.moving dst phase)⟩ j d) :
    (j = i ∧ d = dst) ∨ (j ≠ i ∧ Chosen s j d) := by
  obtain ⟨ph, hp, hr⟩ := h
  by_cases hji : j = i
  · subst hji
    simp only [Function.update_self] at hp
    cases hp
    exact .inl ⟨rfl, rfl⟩
  · simp only [Function.update_of_ne hji] at hp
    exact .inr ⟨hji, ph, hp, hr⟩

lemma live_of_update {fs : FS} (hlive : Live s i)
    (h : Live ⟨fs, Function.update s.progress i (.moving dst phase)⟩ j) : Live s j := by
  by_cases hji : j = i
  · subst hji
    exact hlive
  · intro d ph hp
    exact h d ph (by simp only [Function.update_of_ne hji, hp])

lemma step_called {e : Event ι} (h : s.progress e.call = .called) :
    step D W s e = ⟨s.fs, Function.update s.progress e.call
      (.moving (resolveDst s.fs (W.call e.call).dir (W.call e.call).src (W.call e.call).uidDst)
        .called)⟩ := by
  rw [step, h]

lemma step_moving {e : Event ι} (h : s.progress e.call = .moving dst phase) :
    step D W s e =
      ⟨(SafeMove.step D ((W.call e.call).move dst) ⟨s.fs, phase⟩ e.outcome).fs,
        Function.update s.progress e.call (.moving dst
          (SafeMove.step D ((W.call e.call).move dst) ⟨s.fs, phase⟩ e.outcome).phase)⟩ := by
  rw [step, h]

lemma inv_resolve {e : Event ι} (h : Inv W s) (hcalled : s.progress e.call = .called)
    (halone : Alone W s e) : Inv W (step D W s e) := by
  have hdst := offered_resolveDst (W := W) s e.call
  have halone := halone hcalled
  rw [step_called hcalled]
  generalize resolveDst s.fs _ _ _ = dst at hdst ⊢
  generalize e.call = i at hcalled hdst halone ⊢
  have hlive : ∀ j, Live ⟨s.fs, Function.update s.progress i (.moving dst .called)⟩ j → Live s j :=
    fun j => live_of_update (live_of_called hcalled)
  refine ⟨fun j => ?_, fun j k d d' hjk hj hk => ?_, fun j k d hj hk => ?_⟩
  · by_cases hji : j = i
    · subst hji
      simp only [Function.update_self]
      exact ⟨hdst.imp And.left id, h.src (live_of_called hcalled)⟩
    · simp only [Function.update_of_ne hji]
      exact h.call j
  · rcases chosen_update hj with ⟨rfl, rfl⟩ | ⟨-, hj'⟩
    · rcases chosen_update hk with ⟨rfl, -⟩ | ⟨-, hk'⟩
      · exact absurd rfl hjk
      · exact hdst.ne_of_chosen h halone hjk hk'
    · rcases chosen_update hk with ⟨rfl, rfl⟩ | ⟨-, hk'⟩
      · exact (hdst.ne_of_chosen h halone hjk.symm hj').symm
      · exact h.dst_ne_dst j k d d' hjk hj' hk'
  · rcases chosen_update hj with ⟨rfl, rfl⟩ | ⟨-, hj'⟩
    · exact hdst.ne_src h (hlive k hk)
    · exact h.dst_ne_src j k d hj' (hlive k hk)

lemma inv_move {e : Event ι} (h : Inv W s) (hmoving : s.progress e.call = .moving dst phase) :
    Inv W (step D W s e) := by
  by_cases hover : phase.Over
  · -- nothing of the call follows
    have hself : step D W s e = s := by
      rw [step_moving hmoving, step_of_over hover]
      dsimp only
      rw [← hmoving, Function.update_eq_self]
    rw [hself]
    exact h
  set i := e.call with hi
  set t := SafeMove.step D ((W.call i).move dst) ⟨s.fs, phase⟩ e.outcome with ht
  have hstep : step D W s e = ⟨t.fs, Function.update s.progress i (.moving dst t.phase)⟩ :=
    step_moving hmoving
  have hi' := h.call i
  rw [hmoving] at hi'
  obtain ⟨hdst, hexact⟩ := hi'
  have hchosen : Chosen s i dst := ⟨phase, hmoving, fun hr => hover (.inr hr)⟩
  have hlive : Live s i := live_of_moving hmoving hover
  have hout : ∀ g, e.outcome ≠ .corrupts g := by
    intro g
    cases e <;> simp [Event.outcome]
  -- what the others hold is at other paths
  have hframe : ∀ p, p ≠ ((W.call i).move dst).tmp → p ≠ dst → p ≠ (W.call i).src →
      t.fs.get? p = s.fs.get? p :=
    fun p h1 h2 h3 => get?_step_of_ne h1 (fun _ => h2) fun _ => h3
  have hchosen' : ∀ j d, Chosen ⟨t.fs, Function.update s.progress i (.moving dst t.phase)⟩ j d →
      Chosen s j d := by
    intro j d hj
    rcases chosen_update hj with ⟨rfl, rfl⟩ | ⟨-, hj⟩
    · exact hchosen
    · exact hj
  have hlive' : ∀ j, Live ⟨t.fs, Function.update s.progress i (.moving dst t.phase)⟩ j →
      Live s j := fun j => live_of_update hlive
  rw [hstep]
  refine ⟨fun j => ?_, fun j k d d' hjk hj hk => ?_, fun j k d hj hk => ?_⟩
  · by_cases hji : j = i
    · subst hji
      simp only [Function.update_self]
      have hne : dst ≠ (W.call i).src := h.dst_ne_src i i dst hchosen hlive
      exact ⟨hdst, exact_step hne (tmp_ne_src hdst i) hout hexact⟩
    · simp only [Function.update_of_ne hji]
      have hsrc : (W.call j).src ≠ (W.call i).src := fun he => hji (W.src_inj j i he)
      have hj := h.call j
      cases hp : s.progress j with
      | called =>
        rw [hp] at hj
        have hne := h.dst_ne_src i j dst hchosen (live_of_called hp)
        exact (hframe _ (tmp_ne_src hdst j).symm hne.symm hsrc).trans hj
      | moving d ph =>
        rw [hp] at hj
        obtain ⟨hd, hex⟩ := hj
        refine ⟨hd, hex.frame ?_ ?_ ?_⟩
        · intro hph
          have hne := h.dst_ne_src i j dst hchosen (live_of_moving hp hph)
          exact hframe _ (tmp_ne_src hdst j).symm hne.symm hsrc
        · exact hframe _ (tmp_ne_tmp hd hdst hji) (tmp_ne_dst hd hdst hji) (tmp_ne_src hd i)
        · intro hr
          have hj : Chosen s j d := ⟨ph, hp, hr⟩
          exact hframe _ (tmp_ne_dst hdst hd (Ne.symm hji)).symm
            (h.dst_ne_dst j i d dst hji hj hchosen) (h.dst_ne_src j i d hj hlive)
  · exact h.dst_ne_dst j k d d' hjk (hchosen' j d hj) (hchosen' k d' hk)
  · exact h.dst_ne_src j k d (hchosen' j d hj) (hlive' k hk)

lemma inv_step (s : State ι) (e : Event ι) (h : Inv W s) (halone : Alone W s e) :
    Inv W (step D W s e) := by
  cases hp : s.progress e.call with
  | called => exact inv_resolve h hp halone
  | moving dst phase => exact inv_move h hp

/-! ### A clash stays -/

lemma moving_step {e : Event ι} (h : ∃ ph, s.progress i = .moving dst ph) :
    ∃ ph, (step D W s e).progress i = .moving dst ph := by
  obtain ⟨ph, h⟩ := h
  by_cases hi : i = e.call
  · subst hi
    rw [step_moving h]
    exact ⟨_, Function.update_self ..⟩
  · cases hp : s.progress e.call with
    | called => exact ⟨ph, by rw [step_called hp]; simp only [Function.update_of_ne hi, h]⟩
    | moving d ph' => exact ⟨ph, by rw [step_moving hp]; simp only [Function.update_of_ne hi, h]⟩

lemma clash_run {l : List (Event ι)} (h : Clash s) : Clash (l.foldl (step D W) s) := by
  induction l generalizing s with
  | nil => exact h
  | cons e l ih =>
    obtain ⟨i, j, dst, hij, hi, hj⟩ := h
    exact ih ⟨i, j, dst, hij, moving_step hi, moving_step hj⟩

/-- A call that finds the place of another free, before that one has filled it, chooses it too. -/
lemma clash_of_not_alone {e : Event ι} (h : ¬ Alone W s e) : Clash (step D W s e) := by
  unfold Alone at h
  push Not at h
  obtain ⟨hcalled, hfree, j, phase, hp, -, -⟩ := h
  have hne : e.call ≠ j := by
    rintro rfl
    rw [hcalled] at hp
    cases hp
  refine ⟨e.call, j, (W.call e.call).plain, hne, ?_, moving_step ⟨phase, hp⟩⟩
  refine ⟨.called, ?_⟩
  rw [step_called hcalled, resolveDst_eq, hfree]
  simp

/-- **When all calls have returned, every source is archived under a path of its own exactly if
no call found free what another was on the way to.** -/
theorem archived_iff_alone (D : Digest Data) (W : Workload ι) (l : List (Event ι))
    (hall : AllReturned (l.foldl (step D W) (start W))) :
    Archived W (l.foldl (step D W) (start W)) ↔ Steps (step D W) (Alone W) (start W) l := by
  constructor
  · intro harch
    rw [steps_iff_at]
    rintro p e q rfl
    by_contra halone
    rw [List.foldl_append, List.foldl_cons] at hall harch
    exact not_archived_of_clash hall (clash_run (clash_of_not_alone halone)) harch
  · intro hsteps
    have hinv := always_of_inv inv_step inv_start hsteps
    exact archived_of_inv (always_iff_states.mp hinv l (List.prefix_refl l))

end

/-! ### Two files of one name -/

/-- Two folders deliver a file of the same name for one archive. -/
def twoDays : Workload Bool where
  call i := ⟨⟨if i then "in/mon" else "in/tue", "a.csv"⟩, "archive",
    if i then "5d41402a" else "7d793037", if i then "0cc175b9" else "92eb5ffe"⟩
  fs := ((⟨Dict.empty⟩ : FS).write ⟨"in/mon", "a.csv"⟩ ⟨.bytes [97, 98, 99], 0⟩).write
    ⟨"in/tue", "a.csv"⟩ ⟨.bytes [97, 98, 100], 0⟩
  file i := ⟨.bytes (if i then [97, 98, 99] else [97, 98, 100]), 0⟩
  exists_src := by decide +kernel
  src_inj := by decide +kernel
  own_fresh := by decide +kernel
  own_disjoint := by decide +kernel

/-- Length and MD5 of the two files. -/
def digest : Digest Data where
  size
    | .bytes b => b.length
    | .zip _ _ => 0
  md5
    | .bytes [97, 98, 99] => "900150983cd24fb0d6963f7d28e17f72"
    | .bytes [97, 98, 100] => "4911e516e5aa21d327512e0c8b197616"
    | _ => ""

/-- All operations of a call. -/
def whole (i : Bool) : List (Event Bool) := List.replicate 8 (.go i)

/-- Both look, and then each moves its file. -/
def bothLook : List (Event Bool) :=
  [.go true, .go false] ++ List.replicate 7 (.go true) ++ List.replicate 7 (.go false)

/-- One call after the other. -/
theorem archived_iff_alone_sequential :
    let s := (whole true ++ whole false).foldl (step digest twoDays) (start twoDays)
    AllReturned s ∧ (Archived twoDays s ↔
      Steps (step digest twoDays) (Alone twoDays) (start twoDays) (whole true ++ whole false)) := by
  have hall : AllReturned ((whole true ++ whole false).foldl (step digest twoDays)
      (start twoDays)) := by
    intro i
    cases i
    · exact ⟨⟨"archive", "a_7d793037.csv"⟩, by decide +kernel⟩
    · exact ⟨⟨"archive", "a.csv"⟩, by decide +kernel⟩
  exact ⟨hall, archived_iff_alone digest twoDays _ hall⟩

/-- Both calls return `archive/a.csv`. -/
theorem not_archived_bothLook : ¬ ∀ (W : Workload Bool) (l : List (Event Bool)),
    AllReturned (l.foldl (step digest W) (start W)) →
      Archived W (l.foldl (step digest W) (start W)) := by
  intro h
  have hret : ∀ i, (bothLook.foldl (step digest twoDays) (start twoDays)).progress i =
      .moving ⟨"archive", "a.csv"⟩ .returned := by
    intro i
    cases i <;> decide +kernel
  obtain ⟨-, hinj⟩ := h twoDays bothLook fun i => ⟨_, hret i⟩
  cases hinj true false _ (hret true) (hret false)

end Tdcs.ArchiveRace
