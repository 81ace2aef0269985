import Tdcs.ConfigAtomic
import Tdcs.Lib.Run
import Mathlib.Logic.Function.Basic

/-!
Any number of requests at once, against one file and one running configuration.

Reading the file, replacing it, swapping the configuration and calling the listener are
separate steps. The task requests hold `_config_lock` from their first step to their last;
`PUT /config/reload` does not take it. The invariant says what the holder of the lock may
rely on; it is kept as long as no reload outside the lock is overtaken between its steps, and
no rollback fails.
-/

namespace Tdcs.ConfigReloads

open Tdcs.Lib Tdcs.Lib.Run Tdcs.ConfigValidator Tdcs.Config Tdcs.ConfigManager Tdcs.ConfigApi

inductive Job
  /-- `PUT /config/reload`. -/
  | reload
  | task (req : Request)

/-- Who called `ConfigManager.reload`. -/
inductive Caller
  | put
  /-- `_save_and_reload`, the old document kept. -/
  | save (old : Val)
  | rollback

/-- Where `ConfigManager.reload` stands. -/
inductive Stage
  | read
  | swap (config : AppConfig)
  | deliver (config : AppConfig)

inductive Phase
  | ready
  /-- The lock is taken, the file not read yet. -/
  | locked
  | replacing (new old : Val)
  | reloading (caller : Caller) (stage : Stage)
  | restoring (old : Val)
  | done

/-- `delivered` is the `new_config` of the last call of the listener; before the first, the
configuration the service has started with. -/
structure State where
  file : Text
  config : AppConfig
  delivered : AppConfig
  lock : Option ℕ
  phase : ℕ → Phase

/-- The service has loaded the file and started. -/
def init (file : Text) (config : AppConfig) : State :=
  ⟨file, config, config, none, fun _ => .ready⟩

def State.goto (s : State) (r : ℕ) (p : Phase) : State :=
  { s with phase := Function.update s.phase r p }

/-- The request has answered, and gives back the lock. -/
def State.release (s : State) (r : ℕ) : State := { s.goto r .done with lock := none }

inductive Event
  /-- The request takes its next step. -/
  | run (r : ℕ)
  /-- The same, but the file cannot be written. -/
  | writeFails (r : ℕ)

variable (O : Outside) (jobs : ℕ → Job)

/-- A request begins: the lock is waited for, unless the request is refused. -/
def State.begin (s : State) (r : ℕ) : Job → State
  | .reload => s.goto r (.reloading .put .read)
  | .task req =>
    match req.change with
    | .error _ => s.goto r .done
    | .ok _ => if s.lock = none then { s.goto r .locked with lock := some r } else s

/-- The document is read and changed, and the change validated. -/
def State.edit (s : State) (r : ℕ) : Job → State
  | .reload => s
  | .task req =>
    match req.edit O s.file with
    | .error _ => s.release r
    | .ok (new, old) =>
      match validateConfig O.pydantic O.py new with
      | some [] => s.goto r (.replacing new old)
      | _ => s.release r

/-- `reload` raises, or has nothing left to do. -/
def State.leave (s : State) (r : ℕ) : Caller → State
  | .put => s.goto r .done
  | .save _ | .rollback => s.release r

/-- One step of `ConfigManager.reload`. -/
def State.reload (s : State) (r : ℕ) (caller : Caller) : Stage → State
  | .read =>
    match loadConfig O s.file, caller with
    | some config, _ => s.goto r (.reloading caller (.swap config))
    | none, .save old => s.goto r (.restoring old)
    | none, _ => s.leave r caller
  | .swap config => { s.goto r (.reloading caller (.deliver config)) with config := config }
  | .deliver config => { s.leave r caller with delivered := config }

def step (s : State) : Event → State
  | .run r =>
    match s.phase r with
    | .ready => s.begin r (jobs r)
    | .locked => s.edit O r (jobs r)
    | .replacing new old =>
      { s.goto r (.reloading (.save old) .read) with file := O.safeDump new }
    | .reloading caller stage => s.reload O r caller stage
    | .restoring old => { s.goto r (.reloading .rollback .read) with file := O.safeDump old }
    | .done => s
  | .writeFails r =>
    match s.phase r with
    | .replacing _ _ | .restoring _ => s.release r
    | _ => s

/-! ### What is to hold, and when -/

/-- No request is in progress. -/
def Quiescent (s : State) : Prop := ∀ r, s.phase r = .ready ∨ s.phase r = .done

/-- The running configuration is the one the file gives, and the listener has it. -/
def Converged (s : State) : Prop :=
  loadConfig O s.file = some s.config ∧ s.delivered = s.config

/-- A reload outside the lock swaps in what the file gives at this moment, and delivers what is
running at this moment; a rollback writes the file, and the file it wrote loads. -/
def InTime (s : State) : Event → Prop
  | .run r =>
    match s.phase r with
    | .reloading .put (.swap config) => loadConfig O s.file = some config
    | .reloading .put (.deliver config) => s.config = config
    | .reloading .rollback .read => loadConfig O s.file ≠ none
    | _ => True
  | .writeFails r =>
    match s.phase r with
    | .restoring _ => False
    | _ => True

/-! ### The invariant -/

/-- The phases in which a request has the lock. -/
def Phase.holds : Phase → Bool
  | .ready | .done | .reloading .put _ => false
  | _ => true

/-- The phases between a replacement of the file and the swap that follows it. -/
def Phase.unsettled : Phase → Bool
  | .restoring _ | .reloading (.save _) .read | .reloading (.save _) (.swap _)
  | .reloading .rollback .read | .reloading .rollback (.swap _) => true
  | _ => false

def Phase.delivering : Phase → Bool
  | .reloading _ (.deliver _) => true
  | _ => false

/-- What a holder of the lock has read is what the file still gives, and what it has swapped in
still runs. -/
def Fresh (s : State) : Phase → Prop
  | .reloading .put _ => True
  | .reloading _ (.swap config) => loadConfig O s.file = some config
  | .reloading _ (.deliver config) => loadConfig O s.file = some config ∧ s.config = config
  | _ => True

structure Inv (s : State) : Prop where
  holder : ∀ r, (s.phase r).holds = true → s.lock = some r
  fresh : ∀ r, Fresh O s (s.phase r)
  current : loadConfig O s.file = some s.config ∨ ∃ r, (s.phase r).unsettled = true
  delivered : s.delivered = s.config ∨ ∃ r caller, s.phase r = .reloading caller (.deliver s.config)

variable {O jobs} {s s' : State} {r : ℕ}

lemma inv_init {file : Text} {config : AppConfig} (h : loadConfig O file = some config) :
    Inv O (init file config) where
  holder r hr := by cases hr
  fresh r := trivial
  current := .inl h
  delivered := .inl rfl

/-- Where every request is at rest, the invariant is convergence. -/
lemma Inv.converged (h : Inv O s) (hq : Quiescent s) : Converged O s := by
  constructor
  · rcases h.current with hc | ⟨r, hr⟩
    · exact hc
    · rcases hq r with hp | hp <;> simp [hp, Phase.unsettled] at hr
  · rcases h.delivered with hd | ⟨r, caller, hr⟩
    · exact hd
    · rcases hq r with hp | hp <;> simp [hp] at hr

lemma Inv.unique (h : Inv O s) {r r' : ℕ} (hr : (s.phase r).holds = true)
    (hr' : (s.phase r').holds = true) : r' = r :=
  Option.some.inj ((h.holder r' hr').symm.trans (h.holder r hr))

lemma fresh_of_not_holds {p : Phase} (h : p.holds = false) : Fresh O s p := by
  cases p with
  | reloading caller stage =>
    cases caller with
    | put => trivial
    | _ => cases h
  | _ => trivial

lemma Fresh.congr {p : Phase} (hfile : s'.file = s.file) (hconfig : s'.config = s.config)
    (h : Fresh O s p) : Fresh O s' p := by
  unfold Fresh at h ⊢
  rw [hfile, hconfig]
  exact h

@[simp] lemma goto_file (p : Phase) : (s.goto r p).file = s.file := rfl
@[simp] lemma goto_config (p : Phase) : (s.goto r p).config = s.config := rfl
@[simp] lemma goto_delivered (p : Phase) : (s.goto r p).delivered = s.delivered := rfl
@[simp] lemma goto_lock (p : Phase) : (s.goto r p).lock = s.lock := rfl
@[simp] lemma goto_phase_self (p : Phase) : (s.goto r p).phase r = p := Function.update_self ..
lemma goto_phase_of_ne {r' : ℕ} (hne : r' ≠ r) (p : Phase) :
    (s.goto r p).phase r' = s.phase r' := Function.update_of_ne hne ..

lemma Inv.delivered_goto (h : Inv O s) (hnot : (s.phase r).delivering = false) (p : Phase) :
    s.delivered = s.config ∨
      ∃ r' caller, (s.goto r p).phase r' = .reloading caller (.deliver s.config) := by
  rcases h.delivered with hd | ⟨r', caller, hr'⟩
  · exact .inl hd
  · have hne : r' ≠ r := by
      rintro rfl
      rw [hr'] at hnot
      cases hnot
    exact .inr ⟨r', caller, by rw [goto_phase_of_ne hne, hr']⟩

/-! ### The four kinds of steps -/

lemma Inv.silent (h : Inv O s) {p : Phase} {lock : Option ℕ}
    (hnot : (s.phase r).delivering = false)
    (hfresh : Fresh O s p) (hself : p.holds = true → lock = some r)
    (hother : ∀ r', r' ≠ r → (s.phase r').holds = true → lock = some r')
    (hun : (s.phase r).unsettled = true →
      p.unsettled = true ∨ loadConfig O s.file = some s.config) :
    Inv O { s.goto r p with lock := lock } where
  holder r' hr' := by
    by_cases hne : r' = r
    · subst hne
      exact hself (by simpa using hr')
    · exact hother r' hne (by simpa [goto_phase_of_ne hne] using hr')
  fresh r' := by
    by_cases hne : r' = r
    · subst hne
      have : Fresh O s ((s.goto r' p).phase r') := by rwa [goto_phase_self]
      exact this.congr rfl rfl
    · have : Fresh O s ((s.goto r p).phase r') := by
        rw [goto_phase_of_ne hne]
        exact h.fresh r'
      exact this.congr rfl rfl
  current := by
    rcases h.current with hc | ⟨r', hr'⟩
    · exact .inl hc
    · by_cases hne : r' = r
      · subst hne
        rcases hun hr' with hp | hc
        · exact .inr ⟨r', by simpa using hp⟩
        · exact .inl hc
      · exact .inr ⟨r', by simpa [goto_phase_of_ne hne] using hr'⟩
  delivered := h.delivered_goto hnot p

lemma Inv.replace (h : Inv O s) (hr : (s.phase r).holds = true)
    (hnot : (s.phase r).delivering = false)
    {caller : Caller} (hcaller : caller ≠ .put) (file : Text) :
    Inv O { s.goto r (.reloading caller .read) with file := file } where
  holder r' hr' := by
    by_cases hne : r' = r
    · subst hne
      exact h.holder r' hr
    · exact h.holder r' (by simpa [goto_phase_of_ne hne] using hr')
  fresh r' := by
    by_cases hne : r' = r
    · subst hne
      simp only [goto_phase_self]
      cases caller <;> trivial
    · simp only [goto_phase_of_ne hne]
      refine fresh_of_not_holds ?_
      by_contra hh
      exact hne (h.unique hr (by simpa using hh))
  current := by
    refine .inr ⟨r, ?_⟩
    simp only [goto_phase_self]
    cases caller with
    | put => exact absurd rfl hcaller
    | _ => rfl
  delivered := h.delivered_goto hnot _

lemma Inv.swap (h : Inv O s) {caller : Caller} {config : AppConfig}
    (hr : s.phase r = .reloading caller (.swap config))
    (hload : loadConfig O s.file = some config) :
    Inv O { s.goto r (.reloading caller (.deliver config)) with config := config } where
  holder r' hr' := by
    by_cases hne : r' = r
    · subst hne
      refine h.holder r' ?_
      rw [hr]
      simp only [goto_phase_self] at hr'
      cases caller <;> simp_all [Phase.holds]
    · exact h.holder r' (by simpa [goto_phase_of_ne hne] using hr')
  fresh r' := by
    by_cases hne : r' = r
    · subst hne
      simp only [goto_phase_self]
      cases caller with
      | put => trivial
      | _ => exact ⟨hload, rfl⟩
    · simp only [goto_phase_of_ne hne]
      have hf := h.fresh r'
      -- what another request has swapped in came from the same file
      unfold Fresh at hf ⊢
      split at hf
      · trivial
      · exact hf
      · exact ⟨hf.1, Option.some.inj (hload.symm.trans hf.1)⟩
      · trivial
  current := .inl hload
  delivered := .inr ⟨r, caller, by simp⟩

lemma Inv.deliver (h : Inv O s) {caller : Caller} {config : AppConfig}
    (hr : s.phase r = .reloading caller (.deliver config)) (hrun : s.config = config)
    {lock : Option ℕ} (hlock : ∀ r', r' ≠ r → (s.phase r').holds = true → lock = some r') :
    Inv O { s.goto r .done with lock := lock, delivered := config } where
  holder r' hr' := by
    by_cases hne : r' = r
    · subst hne
      simp [Phase.holds] at hr'
    · exact hlock r' hne (by simpa [goto_phase_of_ne hne] using hr')
  fresh r' := by
    by_cases hne : r' = r
    · subst hne
      simp only [goto_phase_self]
      trivial
    · have : Fresh O s ((s.goto r .done).phase r') := by
        rw [goto_phase_of_ne hne]
        exact h.fresh r'
      exact this.congr rfl rfl
  current := by
    rcases h.current with hc | ⟨r', hr'⟩
    · exact .inl hc
    · have hne : r' ≠ r := by
        rintro rfl
        rw [hr] at hr'
        cases caller <;> cases hr'
      exact .inr ⟨r', by simpa [goto_phase_of_ne hne] using hr'⟩
  delivered := .inl hrun.symm

lemma Inv.goto (h : Inv O s) {p : Phase}
    (hnot : (s.phase r).delivering = false)
    (hfresh : Fresh O s p) (hself : p.holds = true → (s.phase r).holds = true)
    (hun : (s.phase r).unsettled = true →
      p.unsettled = true ∨ loadConfig O s.file = some s.config) : Inv O (s.goto r p) :=
  h.silent hnot hfresh (fun hp => h.holder r (hself hp)) (fun r' _ hr' => h.holder r' hr') hun

lemma Inv.no_other (h : Inv O s) (hr : (s.phase r).holds = true) :
    ∀ r', r' ≠ r → (s.phase r').holds = true → none = some r' :=
  fun _ hne hr' => absurd (h.unique hr hr') hne

lemma Inv.release (h : Inv O s) (hr : (s.phase r).holds = true)
    (hnot : (s.phase r).delivering = false)
    (hun : (s.phase r).unsettled = true → loadConfig O s.file = some s.config) :
    Inv O (s.release r) :=
  h.silent hnot trivial (fun hp => by cases hp) (h.no_other hr) fun hu => .inr (hun hu)

/-! ### The steps -/

lemma Inv.begin (h : Inv O s) (hr : s.phase r = .ready) (job : Job) :
    Inv O (s.begin r job) := by
  have hnot : (s.phase r).delivering = false := by
    rw [hr]
    rfl
  have hun : (s.phase r).unsettled = true → False := by
    rw [hr]
    intro hu
    cases hu
  unfold State.begin
  cases job with
  | reload => exact h.goto hnot trivial (fun hp => by cases hp) fun hu => (hun hu).elim
  | task req =>
    dsimp only
    split
    · exact h.goto hnot trivial (fun hp => by cases hp) fun hu => (hun hu).elim
    · split_ifs with hlock
      · -- nobody else has the lock
        refine h.silent hnot trivial (fun _ => rfl) (fun r' _ hr' => ?_) fun hu => (hun hu).elim
        have := h.holder r' hr'
        rw [hlock] at this
        cases this
      · exact h

lemma Inv.edit (h : Inv O s) (hr : s.phase r = .locked) (job : Job) : Inv O (s.edit O r job) := by
  have hnot : (s.phase r).delivering = false := by
    rw [hr]
    rfl
  have hholds : (s.phase r).holds = true := by
    rw [hr]
    rfl
  have hun : (s.phase r).unsettled = true → False := by
    rw [hr]
    intro hu
    cases hu
  have hrelease : Inv O (s.release r) := h.release hholds hnot fun hu => (hun hu).elim
  unfold State.edit
  cases job with
  | reload => exact h
  | task req =>
    dsimp only
    split
    · exact hrelease
    · split
      · exact h.goto hnot trivial (fun _ => hholds) fun hu => (hun hu).elim
      · exact hrelease

lemma Inv.reload (h : Inv O s) {caller : Caller} {stage : Stage}
    (hr : s.phase r = .reloading caller stage) (hC : InTime O s (.run r)) :
    Inv O (s.reload O r caller stage) := by
  unfold InTime at hC
  simp only [hr] at hC
  cases stage with
  | read =>
    have hnot : (s.phase r).delivering = false := by
      rw [hr]
      rfl
    unfold State.reload
    dsimp only
    cases hload : loadConfig O s.file with
    | some config =>
      -- the file is read
      refine h.goto hnot ?_ ?_ ?_
      · cases caller with
        | put => trivial
        | _ => exact hload
      · rw [hr]
        cases caller <;> exact id
      · rw [hr]
        cases caller <;> exact .inl
    | none =>
      cases caller with
      | put =>
        refine h.goto hnot trivial (fun hp => by cases hp) fun hu => ?_
        rw [hr] at hu
        cases hu
      | save old =>
        -- the old document is to be written back
        refine h.goto hnot trivial (fun _ => ?_) fun _ => .inl rfl
        rw [hr]
        rfl
      | rollback => exact absurd hload hC
  | swap config =>
    have hload : loadConfig O s.file = some config := by
      cases caller with
      | put => exact hC
      | _ =>
        have := h.fresh r
        rw [hr] at this
        exact this
    exact h.swap hr hload
  | deliver config =>
    cases caller with
    | put => exact h.deliver hr hC fun r' _ hr' => h.holder r' hr'
    | _ =>
      have hf := h.fresh r
      rw [hr] at hf
      refine h.deliver hr hf.2 (h.no_other ?_)
      rw [hr]
      rfl

/-- **A step in time keeps the invariant.** -/
theorem Inv.step (h : Inv O s) (e : Event) (hC : InTime O s e) : Inv O (step O jobs s e) := by
  cases e with
  | run r =>
    unfold ConfigReloads.step
    dsimp only
    cases hr : s.phase r with
    | ready => exact h.begin hr (jobs r)
    | locked => exact h.edit hr (jobs r)
    | replacing new old =>
      refine h.replace ?_ ?_ (by simp) _
      · rw [hr]
        rfl
      · rw [hr]
        rfl
    | reloading caller stage => exact h.reload hr hC
    | restoring old =>
      refine h.replace ?_ ?_ (by simp) _
      · rw [hr]
        rfl
      · rw [hr]
        rfl
    | done => exact h
  | writeFails r =>
    unfold InTime at hC
    unfold ConfigReloads.step
    dsimp only at hC ⊢
    cases hr : s.phase r with
    | replacing new old =>
      -- the file is left as it was: the request ends with nothing to undo
      refine h.release ?_ ?_ ?_
      · rw [hr]
        rfl
      · rw [hr]
        rfl
      · rw [hr]
        intro hu
        cases hu
    | restoring old =>
      -- the restoring write fails: excluded, as file and memory would differ
      rw [hr] at hC
      exact hC.elim
    | _ => exact h

/-- **Concurrent reloads converge in every run whose steps are in time**: whenever no request is
in progress, the running configuration is the one the file gives, and the listener has it. -/
theorem converges_of_inTime (file : Text) (config : AppConfig)
    (hload : loadConfig O file = some config) (l : List Event)
    (hl : Steps (step O jobs) (InTime O) (init file config) l) :
    Always (step O jobs) (fun s => Quiescent s → Converged O s) (init file config) l := by
  have hinv : Always (step O jobs) (Inv O) (init file config) l :=
    always_of_inv (I := Inv O) (fun _ e h hC => Inv.step h e hC) (inv_init hload) hl
  exact hinv.mono fun _ h => h.converged

/-! ### A reload that is overtaken -/

/-- A password YAML reads the same with and without quotes. -/
def plainPassword : Outside := ConfigAtomic.withPassword "s3cret" (.str "s3cret")

lemma loads_plainPassword :
    (loadConfig plainPassword ConfigAtomic.quotedFile).map (fun c => c.tasks.length) = some 2 ∧
    (loadConfig plainPassword ConfigAtomic.deletedFile).map (fun c => c.tasks.length) =
      some 1 := by
  decide +kernel

/-- Request 0 reloads, request 1 deletes a task. -/
def reloadAndDelete : ℕ → Job
  | 0 => .reload
  | _ => .task (.delete "a")

/-- The reload has read the file before the deletion, and swaps after it. -/
def overtaken : List Event :=
  [.run 0, .run 0, .run 1, .run 1, .run 1, .run 1, .run 1, .run 1, .run 0, .run 0]

/-- A state in which requests 0 and 1 alone have begun. -/
def pair (file : Text) (config delivered : AppConfig) (lock : Option ℕ) (p q : Phase) : State :=
  ⟨file, config, delivered, lock, fun
    | 0 => p
    | 1 => q
    | _ => .ready⟩

section

variable {file : Text} {config delivered : AppConfig} {lock : Option ℕ} {p q p' : Phase}

lemma init_eq_pair : init file config = pair file config config none .ready .ready := by
  unfold init pair
  congr
  funext r
  split <;> rfl

lemma pair_goto_zero : (pair file config delivered lock p q).goto 0 p' =
    pair file config delivered lock p' q := by
  unfold pair State.goto
  congr
  funext r
  rcases r with _ | _ | r <;> simp [Function.update]

lemma pair_goto_one : (pair file config delivered lock p q).goto 1 p' =
    pair file config delivered lock p p' := by
  unfold pair State.goto
  congr
  funext r
  rcases r with _ | _ | r <;> simp [Function.update]

end

section

variable {O : Outside} {jobs : ℕ → Job} {s : State} {r : ℕ}

lemma step_read {caller : Caller} {config : AppConfig}
    (hr : s.phase r = .reloading caller .read) (h : loadConfig O s.file = some config) :
    step O jobs s (.run r) = s.goto r (.reloading caller (.swap config)) := by
  simp [step, hr, State.reload, h]

lemma step_swap {caller : Caller} {config : AppConfig}
    (hr : s.phase r = .reloading caller (.swap config)) :
    step O jobs s (.run r) =
      { s.goto r (.reloading caller (.deliver config)) with config := config } := by
  simp [step, hr, State.reload]

lemma step_deliver {caller : Caller} {config : AppConfig}
    (hr : s.phase r = .reloading caller (.deliver config)) :
    step O jobs s (.run r) = { s.leave r caller with delivered := config } := by
  simp [step, hr, State.reload]

end

/-- The deletion replaces the file between the read and the swap of the reload, which then puts
the old configuration back. -/
lemma overtaken_ends {old new : AppConfig}
    (hold : loadConfig plainPassword ConfigAtomic.quotedFile = some old)
    (hnew : loadConfig plainPassword ConfigAtomic.deletedFile = some new) :
    overtaken.foldl (step plainPassword reloadAndDelete) (init ConfigAtomic.quotedFile old) =
      pair ConfigAtomic.deletedFile old old none .done .done := by
  obtain ⟨newDoc, oldDoc, hedit, hvalid, hdump⟩ : ∃ newDoc oldDoc,
      (Request.delete "a").edit plainPassword ConfigAtomic.quotedFile = .ok (newDoc, oldDoc) ∧
      validateConfig plainPassword.pydantic plainPassword.py newDoc = some [] ∧
      plainPassword.safeDump newDoc = ConfigAtomic.deletedFile :=
    ⟨_, _, ConfigAtomic.edit_quotedFile, ConfigAtomic.valid_deleted, ConfigAtomic.safeDump_one⟩
  generalize plainPassword = O at *
  generalize ConfigAtomic.quotedFile = file at *
  generalize ConfigAtomic.deletedFile = file' at *
  rw [init_eq_pair, overtaken]
  simp only [List.foldl_cons, List.foldl_nil]
  -- the reload reads the old file
  have h1 : step O reloadAndDelete (pair file old old none .ready .ready) (.run 0) =
      pair file old old none (.reloading .put .read) .ready := pair_goto_zero
  have h2 : step O reloadAndDelete (pair file old old none (.reloading .put .read) .ready)
      (.run 0) = pair file old old none (.reloading .put (.swap old)) .ready := by
    rw [step_read rfl hold, pair_goto_zero]
  -- the deletion takes the lock, changes the document and replaces the file
  have h3 : step O reloadAndDelete
      (pair file old old none (.reloading .put (.swap old)) .ready) (.run 1) =
      pair file old old (some 1) (.reloading .put (.swap old)) .locked := by
    have hstep : step O reloadAndDelete
        (pair file old old none (.reloading .put (.swap old)) .ready) (.run 1) =
        { (pair file old old none (.reloading .put (.swap old)) .ready).goto 1 .locked with
          lock := some 1 } := rfl
    rw [hstep, pair_goto_one]
    rfl
  have h4 : step O reloadAndDelete
      (pair file old old (some 1) (.reloading .put (.swap old)) .locked) (.run 1) =
      pair file old old (some 1) (.reloading .put (.swap old)) (.replacing newDoc oldDoc) := by
    have hstep : step O reloadAndDelete
        (pair file old old (some 1) (.reloading .put (.swap old)) .locked) (.run 1) =
        (pair file old old (some 1) (.reloading .put (.swap old)) .locked).edit O 1
          (.task (.delete "a")) := rfl
    have hfile : (pair file old old (some 1) (.reloading .put (.swap old)) .locked).file = file :=
      rfl
    rw [hstep]
    simp only [State.edit, hfile, hedit, hvalid]
    exact pair_goto_one
  have h5 : step O reloadAndDelete
      (pair file old old (some 1) (.reloading .put (.swap old)) (.replacing newDoc oldDoc))
      (.run 1) = pair file' old old (some 1) (.reloading .put (.swap old))
        (.reloading (.save oldDoc) .read) := by
    have hstep : step O reloadAndDelete
        (pair file old old (some 1) (.reloading .put (.swap old)) (.replacing newDoc oldDoc))
        (.run 1) = { (pair file old old (some 1) (.reloading .put (.swap old))
          (.replacing newDoc oldDoc)).goto 1 (.reloading (.save oldDoc) .read) with
          file := O.safeDump newDoc } := rfl
    rw [hstep, pair_goto_one, hdump]
    rfl
  -- it reloads and delivers the new configuration
  have h6 : step O reloadAndDelete (pair file' old old (some 1) (.reloading .put (.swap old))
        (.reloading (.save oldDoc) .read)) (.run 1) =
      pair file' old old (some 1) (.reloading .put (.swap old))
        (.reloading (.save oldDoc) (.swap new)) := by
    rw [step_read rfl hnew, pair_goto_one]
  have h7 : step O reloadAndDelete (pair file' old old (some 1) (.reloading .put (.swap old))
        (.reloading (.save oldDoc) (.swap new))) (.run 1) =
      pair file' new old (some 1) (.reloading .put (.swap old))
        (.reloading (.save oldDoc) (.deliver new)) := by
    rw [step_swap rfl, pair_goto_one]
    rfl
  have h8 : step O reloadAndDelete (pair file' new old (some 1) (.reloading .put (.swap old))
        (.reloading (.save oldDoc) (.deliver new))) (.run 1) =
      pair file' new new none (.reloading .put (.swap old)) .done := by
    rw [step_deliver rfl, State.leave, State.release, pair_goto_one]
    rfl
  -- the reload puts the old configuration back
  have h9 : step O reloadAndDelete (pair file' new new none (.reloading .put (.swap old)) .done)
      (.run 0) = pair file' old new none (.reloading .put (.deliver old)) .done := by
    rw [step_swap rfl, pair_goto_zero]
    rfl
  have h10 : step O reloadAndDelete (pair file' old new none (.reloading .put (.deliver old))
      .done) (.run 0) = pair file' old old none .done .done := by
    rw [step_deliver rfl, State.leave, pair_goto_zero]
    rfl
  rw [h1, h2, h3, h4, h5, h6, h7, h8, h9, h10]

/-- A reload on its own. -/
def alone : List Event := [.run 0, .run 0, .run 0, .run 0]

lemma alone_inTime {O : Outside} {file : Text} {config : AppConfig}
    (h : loadConfig O file = some config) :
    Steps (step O reloadAndDelete) (InTime O) (init file config) alone := by
  have h1 : step O reloadAndDelete (pair file config config none .ready .ready) (.run 0) =
      pair file config config none (.reloading .put .read) .ready := pair_goto_zero
  have h2 : step O reloadAndDelete
      (pair file config config none (.reloading .put .read) .ready) (.run 0) =
      pair file config config none (.reloading .put (.swap config)) .ready := by
    rw [step_read rfl h, pair_goto_zero]
  have h3 : step O reloadAndDelete
      (pair file config config none (.reloading .put (.swap config)) .ready) (.run 0) =
      pair file config config none (.reloading .put (.deliver config)) .ready := by
    rw [step_swap rfl, pair_goto_zero]
    rfl
  rw [init_eq_pair, alone]
  simp only [steps_cons, h1, h2, h3]
  exact ⟨trivial, trivial, h, rfl, trivial⟩

theorem converges_of_inTime_alone : ∃ config,
    loadConfig plainPassword ConfigAtomic.quotedFile = some config ∧
    Steps (step plainPassword reloadAndDelete) (InTime plainPassword)
      (init ConfigAtomic.quotedFile config) alone ∧
    Always (step plainPassword reloadAndDelete) (fun s => Quiescent s → Converged plainPassword s)
      (init ConfigAtomic.quotedFile config) alone := by
  obtain ⟨config, hconfig, -⟩ := Option.map_eq_some_iff.mp loads_plainPassword.1
  have hsteps := alone_inTime hconfig
  exact ⟨config, hconfig, hsteps, converges_of_inTime _ config hconfig alone hsteps⟩

/-- A reload that is overtaken by a deletion leaves the configuration of the old file running. -/
theorem not_converges_overtaken : ¬ ∀ (O : Outside) (jobs : ℕ → Job) (file : Text)
    (config : AppConfig) (l : List Event), loadConfig O file = some config →
    Always (step O jobs) (fun s => Quiescent s → Converged O s) (init file config) l := by
  intro hall
  obtain ⟨old, hold, hlen⟩ := Option.map_eq_some_iff.mp loads_plainPassword.1
  obtain ⟨new, hnew, hlen'⟩ := Option.map_eq_some_iff.mp loads_plainPassword.2
  have hrun := hall plainPassword reloadAndDelete ConfigAtomic.quotedFile old overtaken hold
  have hend := always_iff_states.mp hrun overtaken (List.prefix_refl _)
  rw [overtaken_ends hold hnew] at hend
  have hq : Quiescent (pair ConfigAtomic.deletedFile old old none .done .done) := by
    intro r
    rcases r with _ | _ | r
    · exact .inr rfl
    · exact .inr rfl
    · exact .inl rfl
  have hload : loadConfig plainPassword ConfigAtomic.deletedFile = some old := (hend hq).1
  rw [hnew] at hload
  cases hload
  rw [hlen] at hlen'
  cases hlen'

end Tdcs.ConfigReloads
