import Tdcs.TaskSync
import Tdcs.Lib.Run
import Mathlib.Data.List.Dedup

/-!
The tasks under the requests of the web API: pausing, resuming, enabling, disabling, and reloading
the configuration.

A watcher keeps the configuration it was made with. `_on_config_changed` compares the new
configuration with the old one, not with that of the watchers, and its loops break off where a
start raises; `reload` only logs that. A watcher that the loop has not come to therefore works on
with the old configuration, and no later reload sees it.
-/

namespace Tdcs.TaskControl

open Tdcs.Lib Tdcs.Lib.Run Tdcs.TaskManager

structure State where
  tm : TaskManager.State
  /-- `ConfigManager._config`. -/
  current : Tasks

inductive Event
  | startAll (os : Os)
  | pause (taskId : String)
  | resume (taskId : String)
  | enable (os : Os) (taskId : String)
  | disable (taskId : String)
  /-- `reload` with a configuration that is valid. Two sets of ids are gone through in the orders
  given, where these are orders of theirs. -/
  | reload (os : Os) (new : Tasks) (removed changed : List String)

/-- `set(self._watchers) | set(self._scanners)`. What runs has been started. -/
def runningIds (s : TaskManager.State) : List String := s.started.dedup.filter s.running

/-- `removed_or_disabled`. -/
def removedIds (new : Tasks) (s : TaskManager.State) : List String :=
  (runningIds s).filter fun id => (new.get? id).all fun t => !t.enabled

/-- `changed_ids - removed_or_disabled`. -/
def changedIds (old new : Tasks) (s : TaskManager.State) : List String :=
  (runningIds s).filter fun id =>
    (new.get? id).any fun t => t.enabled && decide (old.get? id ≠ some t)

/-- The list in the given order. -/
def arrange (order l : List String) : List String := if order.Perm l then order else l

def step (s : State) : Event → State
  | .startAll os => { s with tm := (startAll os s.current s.tm).2 }
  | .pause taskId =>
    if (s.current.get? taskId).isNone then s
    else { s with tm := { s.tm with paused := Function.update s.tm.paused taskId true } }
  | .resume taskId =>
    if (s.current.get? taskId).isNone then s
    else { s with tm := { s.tm with paused := Function.update s.tm.paused taskId false } }
  | .enable os taskId =>
    if (s.current.get? taskId).isNone then s
    else { s with tm := (startTask os s.current taskId s.tm).2 }
  | .disable taskId =>
    if (s.current.get? taskId).isNone then s
    else { s with tm := s.tm.stop taskId }
  | .reload os new removed changed =>
    { tm := (onConfigChanged os new (arrange removed (removedIds new s.tm))
        (arrange changed (changedIds s.current new s.tm)) s.tm).2
      current := new }

/-- Nothing runs, nothing is paused. -/
def init (c : Tasks) : State := ⟨⟨fun _ => none, fun _ => none, fun _ => false, []⟩, c⟩

/-- What runs for the task was made with its configuration. -/
def FreshAt (c : Tasks) (s : TaskManager.State) (id : String) : Prop :=
  ∀ t, s.watchers id = some t ∨ s.scanners id = some t → c.get? id = some t

/-- Every watcher and every scanner works with the current configuration. -/
def Fresh (s : State) : Prop := ∀ id, FreshAt s.current s.tm id

/-- In a reload, a task to be started again comes after one whose start raises. -/
def Strands (s : State) : Event → Prop
  | .reload os new _ changed =>
    ¬ (arrange changed (changedIds s.current new s.tm)).Pairwise
      fun a _ => TaskManager.raises os new a = false
  | _ => False

/-- Only tasks that there are, are paused. -/
def PausedKnown (s : State) : Prop := ∀ id, s.tm.paused id = true → s.current.get? id ≠ none

/-- A reload drops a task that is paused and does not run. -/
def Forgets (s : State) : Event → Prop
  | .reload _ new _ _ =>
    ∃ id, s.tm.paused id = true ∧ s.tm.running id = false ∧ new.get? id = none
  | _ => False

/-! ### What has been started -/

variable {os : Os} {new : Tasks} {s : TaskManager.State}

/-- What runs has been started. -/
def Listed (s : TaskManager.State) : Prop := ∀ id, s.running id = true → id ∈ s.started

lemma listed_stop (h : Listed s) (id : String) : Listed (s.stop id) := by
  intro id' hrun
  by_cases he : id' = id
  · subst he
    simp [TaskManager.State.running, TaskManager.State.stop] at hrun
  · refine h id' ?_
    simpa [TaskManager.State.running, TaskManager.State.stop, Function.update_of_ne he] using hrun

lemma listed_start (h : Listed s) (id : String) (t : TaskConfig) : Listed (s.start id t) := by
  intro id' hrun
  by_cases he : id' = id
  · subst he
    simp [TaskManager.State.start]
  · refine List.mem_append_left _ (h id' ?_)
    simpa [TaskManager.State.running, TaskManager.State.start, Function.update_of_ne he] using hrun

lemma startTask_cases (os : Os) (new : Tasks) (id : String) (s : TaskManager.State) :
    (startTask os new id s).2 = s ∨ (startTask os new id s).2 = s.stop id ∨
      ∃ t, new.get? id = some t ∧ (startTask os new id s).2 = s.start id t := by
  unfold startTask
  rcases new.get? id with _ | t
  · exact .inl rfl
  · dsimp only
    split_ifs
    · exact .inl rfl
    · rcases os.startError t with _ | e
      · exact .inr (.inr ⟨t, rfl, rfl⟩)
      · exact .inr (.inl rfl)

lemma restartTask_cases (os : Os) (new : Tasks) (id : String) (s : TaskManager.State) :
    (restartTask os new id s).2 = s.stop id ∨
      ∃ t, new.get? id = some t ∧ (restartTask os new id s).2 = s.start id t := by
  rw [restartTask_apply]
  have hstop : (s.stop id).stop id = s.stop id := by simp [TaskManager.State.stop]
  rcases startTask_cases os new id (s.stop id) with h | h | ⟨t, ht, h⟩
  · exact .inl h
  · exact .inl (h.trans hstop)
  · exact .inr ⟨t, ht, h.trans (stop_start id t)⟩

lemma onConfigChanged_loops (os : Os) (new : Tasks) (removed changed : List String)
    (s : TaskManager.State) : ∃ s₁,
    Prog.forEach (fun id => (stopTask id).andThen fun _ => resumeTask id) removed s =
      (.ok (), s₁) ∧
    (∀ id, (id ∈ removed → s₁.watchers id = none ∧ s₁.scanners id = none) ∧
      (id ∉ removed → s₁.watchers id = s.watchers id ∧ s₁.scanners id = s.scanners id)) ∧
    onConfigChanged os new removed changed s =
      ((Prog.forEach (restartTask os new) changed).andThen fun _ =>
        Prog.forEach (startTask os new) (newlyEnabled new s.running removed)) s₁ := by
  obtain ⟨s₁, hrun, -, hs₁⟩ := forEach_stop removed s
  refine ⟨s₁, hrun, hs₁, ?_⟩
  simp only [onConfigChanged, Prog.andThen, Prog.read, hrun]
  rfl

lemma onConfigChanged_inv {I : TaskManager.State → Prop} (hstop : ∀ s id, I s → I (s.stop id))
    (hstart : ∀ s id t, new.get? id = some t → I s → I (s.start id t))
    (hresume : ∀ s id, I s → I { s with paused := Function.update s.paused id false })
    (os : Os) (removed changed : List String) (h : I s) :
    I (onConfigChanged os new removed changed s).2 := by
  have hone : ∀ id s, I s → I (startTask os new id s).2 := by
    intro id s hs
    rcases startTask_cases os new id s with h | h | ⟨t, ht, h⟩ <;> rw [h]
    · exact hs
    · exact hstop s id hs
    · exact hstart s id t ht hs
  obtain ⟨s₁, hrun, -, hall⟩ := onConfigChanged_loops os new removed changed s
  have hturn : ∀ id ∈ removed, ∀ s, I s →
      I (((stopTask id).andThen fun _ => resumeTask id) s).2 := fun id _ s hs =>
    hresume (s.stop id) id (hstop s id hs)
  have h₁ := Prog.forEach_inv hturn h
  rw [hrun] at h₁
  have h₂ : I (Prog.forEach (restartTask os new) changed s₁).2 := by
    refine Prog.forEach_inv (fun id _ s hs => ?_) h₁
    rcases restartTask_cases os new id s with h | ⟨t, ht, h⟩ <;> rw [h]
    · exact hstop s id hs
    · exact hstart s id t ht hs
  rw [hall, Prog.andThen]
  rcases hloop : Prog.forEach (restartTask os new) changed s₁ with ⟨e | u, s₂⟩ <;> rw [hloop] at h₂
  · -- a restart raised: the loop over the newly enabled is not reached
    exact h₂
  · exact Prog.forEach_inv (fun id _ s hs => hone id s hs) h₂

lemma listed_step {s : State} (h : Listed s.tm) (e : Event) : Listed (step s e).tm := by
  have hstart : ∀ os id, ∀ s₀, Listed s₀ → Listed (startTask os s.current id s₀).2 := by
    intro os id s₀ hs
    rcases startTask_cases os s.current id s₀ with h | h | ⟨t, -, h⟩ <;> rw [h]
    · exact hs
    · exact listed_stop hs id
    · exact listed_start hs id t
  cases e with
  | startAll os => exact Prog.forEach_inv (fun id _ => hstart os id) h
  | pause id =>
    -- `pause` and `resume` touch neither watchers nor schedules
    unfold step
    dsimp only
    split_ifs <;> exact h
  | resume id =>
    unfold step
    dsimp only
    split_ifs <;> exact h
  | enable os id =>
    unfold step
    dsimp only
    split_ifs
    · exact h
    · exact hstart os id _ h
  | disable id =>
    unfold step
    dsimp only
    split_ifs
    · exact h
    · exact listed_stop h id
  | reload os new removed changed =>
    exact onConfigChanged_inv (I := Listed) (fun s id hs => listed_stop hs id)
      (fun s id t _ hs => listed_start hs id t) (fun s id hs => hs) os _ _ h

lemma mem_runningIds (h : Listed s) {id : String} : id ∈ runningIds s ↔ s.running id = true := by
  rw [runningIds, List.mem_filter, List.mem_dedup]
  exact ⟨fun hid => hid.2, fun hrun => ⟨h id hrun, hrun⟩⟩

lemma mem_arrange {order l : List String} {id : String} : id ∈ arrange order l ↔ id ∈ l := by
  unfold arrange
  split_ifs with h
  · exact h.mem_iff
  · exact Iff.rfl

lemma nodup_arrange {l : List String} (hl : l.Nodup) (order : List String) :
    (arrange order l).Nodup := by
  unfold arrange
  split_ifs with h
  · exact h.nodup_iff.mpr hl
  · exact hl

lemma mem_removedIds (h : Listed s) {id : String} :
    id ∈ removedIds new s ↔ s.running id = true ∧ ¬ Enabled new id := by
  rw [removedIds, List.mem_filter, mem_runningIds h]
  refine and_congr_right fun _ => ?_
  rcases hget : new.get? id with _ | t <;> simp [Enabled, hget]

lemma mem_changedIds (h : Listed s) {old : Tasks} {id : String} :
    id ∈ changedIds old new s ↔
      s.running id = true ∧ Enabled new id ∧ old.get? id ≠ new.get? id := by
  rw [changedIds, List.mem_filter, mem_runningIds h]
  refine and_congr_right fun _ => ?_
  rcases hget : new.get? id with _ | t <;> simp [Enabled, hget]

/-! ### Watchers with an old configuration -/

lemma freshAt_stop (c : Tasks) (s : TaskManager.State) (id : String) :
    FreshAt c (s.stop id) id := by
  intro t ht
  simp [TaskManager.State.stop] at ht

lemma freshAt_start {c : Tasks} {id : String} {t : TaskConfig} (ht : c.get? id = some t)
    (s : TaskManager.State) : FreshAt c (s.start id t) id := by
  intro t' ht'
  simp [TaskManager.State.start] at ht'
  rw [ht, ht']

lemma freshAt_stop_of_ne {c : Tasks} {id id' : String} (h : id' ≠ id) :
    FreshAt c (s.stop id) id' ↔ FreshAt c s id' := by
  simp [FreshAt, TaskManager.State.stop, Function.update_of_ne h]

lemma freshAt_start_of_ne {c : Tasks} {id id' : String} (h : id' ≠ id) (t : TaskConfig) :
    FreshAt c (s.start id t) id' ↔ FreshAt c s id' := by
  simp [FreshAt, TaskManager.State.start, Function.update_of_ne h]

lemma freshAt_stop_all {c : Tasks} (h : ∀ id, FreshAt c s id) (id : String) :
    ∀ id', FreshAt c (s.stop id) id' := by
  intro id'
  by_cases he : id' = id
  · subst he
    exact freshAt_stop c s id'
  · exact (freshAt_stop_of_ne he).mpr (h id')

lemma freshAt_start_all {c : Tasks} (h : ∀ id, FreshAt c s id) {id : String} {t : TaskConfig}
    (ht : c.get? id = some t) : ∀ id', FreshAt c (s.start id t) id' := by
  intro id'
  by_cases he : id' = id
  · subst he
    exact freshAt_start ht s
  · exact (freshAt_start_of_ne he t).mpr (h id')

lemma freshAt_startTask {c : Tasks} (h : ∀ id, FreshAt c s id) (os : Os) (id : String) :
    ∀ id', FreshAt c (startTask os c id s).2 id' := by
  rcases startTask_cases os c id s with h' | h' | ⟨t, ht, h'⟩ <;> rw [h']
  · exact h
  · exact freshAt_stop_all h id
  · exact freshAt_start_all h ht

lemma freshAt_restartTask (os : Os) (new : Tasks) (id : String) (s : TaskManager.State) :
    FreshAt new (restartTask os new id s).2 id ∧
      ∀ id', id' ≠ id → (FreshAt new (restartTask os new id s).2 id' ↔ FreshAt new s id') := by
  rcases restartTask_cases os new id s with h | ⟨t, ht, h⟩ <;> rw [h]
  · exact ⟨freshAt_stop new s id, fun id' he => freshAt_stop_of_ne he⟩
  · exact ⟨freshAt_start ht s, fun id' he => freshAt_start_of_ne he t⟩

/-- The loop of the restarts over tasks that all are old: none stays so exactly if none comes after
one whose start raises. If the loop raises, it raises at the last one. -/
lemma fresh_restarts (os : Os) {l : List String} (hl : l.Nodup) (hen : ∀ id ∈ l, Enabled new id)
    (hold : ∀ id ∈ l, ¬ FreshAt new s id) (hrest : ∀ id, id ∉ l → FreshAt new s id) :
    (∀ id, FreshAt new (Prog.forEach (restartTask os new) l s).2 id) ↔
      l.Pairwise fun a _ => TaskManager.raises os new a = false := by
  induction l generalizing s with
  | nil => simpa [Prog.forEach, Prog.ret] using hrest
  | cons a l ih =>
    rw [List.nodup_cons] at hl
    obtain ⟨ha, hne⟩ := freshAt_restartTask os new a s
    have hl' : ∀ id ∈ l, ¬ FreshAt new (restartTask os new a s).2 id := by
      intro id hid
      have he : id ≠ a := fun he => hl.1 (he ▸ hid)
      rw [hne id he]
      exact hold id (List.mem_cons_of_mem _ hid)
    rw [List.pairwise_cons]
    cases hr : TaskManager.raises os new a with
    | false =>
      obtain ⟨t, ht, -⟩ := hen a List.mem_cons_self
      have hok : (restartTask os new a s).1 = .ok () := by
        rw [restartTask_apply, startTask_of_not_raises ht hr]
      rw [Prog.forEach, Prog.andThen_of_ok hok,
        ih hl.2 (fun id hid => hen id (List.mem_cons_of_mem _ hid)) hl' fun id hid => ?_]
      · simp
      · by_cases he : id = a
        · subst he
          exact ha
        · rw [hne id he]
          exact hrest id (by simp [he, hid])
    | true =>
      -- the restart of `a` raises: those behind it keep their old watchers
      obtain ⟨⟨e, he⟩, -⟩ := startTask_of_raises hr (s.stop a)
      rw [Prog.forEach, Prog.andThen_of_error (e := e) (by rw [restartTask_apply, he])]
      constructor
      · intro hall
        have hnil : l = [] := by
          refine List.eq_nil_iff_forall_not_mem.mpr fun id hid => ?_
          exact hl' id hid (hall id)
        subst hnil
        simp
      · rintro ⟨hnone, -⟩ id
        by_cases hid : id = a
        · subst hid
          exact ha
        · rw [hne id hid]
          refine hrest id ?_
          rw [List.mem_cons, not_or]
          refine ⟨hid, fun hmem => ?_⟩
          cases hnone id hmem

lemma nodup_changedIds (old new : Tasks) (s : TaskManager.State) : (changedIds old new s).Nodup :=
  ((List.nodup_dedup _).filter _).filter _

/-- A reload leaves nothing old exactly if its second loop comes to all the tasks it is to start
again. -/
lemma fresh_reload {s : State} (hlisted : Listed s.tm) (h : Fresh s) (os : Os) (new : Tasks)
    (removed changed : List String) :
    Fresh (step s (.reload os new removed changed)) ↔
      (arrange changed (changedIds s.current new s.tm)).Pairwise
        fun a _ => TaskManager.raises os new a = false := by
  obtain ⟨s₁, -, hs₁, hall⟩ := onConfigChanged_loops os new
    (arrange removed (removedIds new s.tm)) (arrange changed (changedIds s.current new s.tm)) s.tm
  have hremoved : ∀ id, id ∈ arrange removed (removedIds new s.tm) ↔
      s.tm.running id = true ∧ ¬ Enabled new id := fun id =>
    mem_arrange.trans (mem_removedIds hlisted)
  have hchanged : ∀ id, id ∈ arrange changed (changedIds s.current new s.tm) ↔
      s.tm.running id = true ∧ Enabled new id ∧ s.current.get? id ≠ new.get? id := fun id =>
    mem_arrange.trans (mem_changedIds hlisted)
  -- before the second loop it is the tasks it is about that are old
  have hold : ∀ id ∈ arrange changed (changedIds s.current new s.tm), ¬ FreshAt new s₁ id := by
    intro id hid hfresh
    obtain ⟨hrun, hen, hne⟩ := (hchanged id).mp hid
    obtain ⟨hw, hsc⟩ := (hs₁ id).2 fun hmem => ((hremoved id).mp hmem).2 hen
    obtain ⟨t, ht⟩ : ∃ t, s.tm.watchers id = some t ∨ s.tm.scanners id = some t := by
      simpa [TaskManager.State.running, Option.isSome_iff_exists, exists_or] using hrun
    refine hne ((h id t ht).trans (hfresh t ?_).symm)
    rwa [hw, hsc]
  have hrest : ∀ id, id ∉ arrange changed (changedIds s.current new s.tm) →
      FreshAt new s₁ id := by
    intro id hid t ht
    by_cases hmem : id ∈ arrange removed (removedIds new s.tm)
    · obtain ⟨hw, hsc⟩ := (hs₁ id).1 hmem
      simp [hw, hsc] at ht
    · obtain ⟨hw, hsc⟩ := (hs₁ id).2 hmem
      rw [hw, hsc] at ht
      have hrun : s.tm.running id = true := by
        rcases ht with ht | ht <;> simp [TaskManager.State.running, ht]
      have hen : Enabled new id := by
        by_contra hen
        exact hmem ((hremoved id).mpr ⟨hrun, hen⟩)
      have hsame : s.current.get? id = new.get? id := by
        by_contra hne
        exact hid ((hchanged id).mpr ⟨hrun, hen, hne⟩)
      rw [← hsame]
      exact h id t ht
  have hloop := fresh_restarts os
    (nodup_arrange (nodup_changedIds s.current new s.tm) changed)
    (fun id hid => ((hchanged id).mp hid).2.1) hold hrest
  rw [← hloop]
  unfold Fresh step
  dsimp only
  rw [hall, Prog.andThen]
  rcases hres : Prog.forEach (restartTask os new)
    (arrange changed (changedIds s.current new s.tm)) s₁ with ⟨e | u, s₂⟩
  · exact Iff.rfl
  · -- the loop has not raised, so that nothing is old, and the third one makes nothing old
    have hraise : ∀ a ∈ arrange changed (changedIds s.current new s.tm), ∀ s',
        TaskManager.raises os new a = true → ∃ e, (restartTask os new a s').1 = .error e :=
      fun a _ s' hr => (startTask_of_raises hr (s'.stop a)).1
    have hok : (Prog.forEach (restartTask os new)
        (arrange changed (changedIds s.current new s.tm)) s₁).1 = .ok () := by
      rw [hres]
    have hnone := Prog.bad_of_forEach_ok hraise hok
    rw [hres] at hloop
    have hfresh := hloop.mpr (List.pairwise_of_forall_mem_list fun a ha _ _ => hnone a ha)
    refine iff_of_true ?_ hfresh
    exact Prog.forEach_inv (I := fun s => ∀ id, FreshAt new s id)
      (fun id _ s hs => freshAt_startTask hs os id) hfresh

lemma fresh_step {s : State} (hlisted : Listed s.tm) (h : Fresh s) (e : Event) :
    Fresh (step s e) ↔ ¬ Strands s e := by
  have hone : ∀ os id, ∀ id', FreshAt s.current (startTask os s.current id s.tm).2 id' :=
    fun os id => freshAt_startTask h os id
  cases e with
  | reload os new removed changed =>
    -- only a reload changes what a watcher is compared with
    rw [fresh_reload hlisted h, Strands, not_not]
  | startAll os =>
    refine iff_of_true ?_ (fun h => h)
    exact Prog.forEach_inv (I := fun s' => ∀ id, FreshAt s.current s' id)
      (fun id _ s' hs => freshAt_startTask hs os id) h
  | pause id =>
    refine iff_of_true ?_ (fun h => h)
    unfold step
    dsimp only
    split_ifs <;> exact h
  | resume id =>
    refine iff_of_true ?_ (fun h => h)
    unfold step
    dsimp only
    split_ifs <;> exact h
  | enable os id =>
    refine iff_of_true ?_ (fun h => h)
    unfold step
    dsimp only
    split_ifs
    · exact h
    · exact hone os id
  | disable id =>
    refine iff_of_true ?_ (fun h => h)
    unfold step
    dsimp only
    split_ifs
    · exact h
    · exact freshAt_stop_all h id

lemma listed_init (c : Tasks) : Listed (init c).tm := by
  intro id h
  simp [init, TaskManager.State.running] at h

/-- **No watcher works with an old configuration**, at any time, exactly if in no reload a task that
is to be started again comes after one whose start raises. The task it comes after is stopped, and
it works on as before. -/
theorem always_fresh_iff (c : Tasks) (l : List Event) :
    Always step Fresh (init c) l ↔ Steps step (fun s e => ¬ Strands s e) (init c) l := by
  have hstart : Fresh (init c) := fun id t ht => by simp [init] at ht
  exact always_iff_steps (I := fun s : State => Listed s.tm) (fun s e h => listed_step h e)
    (fun s e hlisted h => fresh_step hlisted h e) (listed_init c) hstart

/-! ### Tasks that are paused -/

lemma paused_startTask (os : Os) (new : Tasks) (id : String) (s : TaskManager.State) :
    (startTask os new id s).2.paused = s.paused := by
  rcases startTask_cases os new id s with h | h | ⟨t, -, h⟩ <;> rw [h] <;> rfl

lemma paused_forEach_stop (removed : List String) (s : TaskManager.State) (id : String) :
    (Prog.forEach (fun id => (stopTask id).andThen fun _ => resumeTask id) removed s).2.paused id =
      (s.paused id && !removed.contains id) := by
  induction removed generalizing s with
  | nil => simp [Prog.forEach, Prog.ret]
  | cons a l ih =>
    have hstep : Prog.forEach (fun id => (stopTask id).andThen fun _ => resumeTask id) (a :: l) s =
        Prog.forEach (fun id => (stopTask id).andThen fun _ => resumeTask id) l
          { s.stop a with paused := Function.update s.paused a false } := rfl
    rw [hstep, ih]
    by_cases he : id = a
    · subst he
      simp
    · simp [he]

lemma paused_onConfigChanged (os : Os) (new : Tasks) (removed changed : List String)
    (s : TaskManager.State) (id : String) :
    (onConfigChanged os new removed changed s).2.paused id =
      (s.paused id && !removed.contains id) := by
  obtain ⟨s₁, hrun, -, hall⟩ := onConfigChanged_loops os new removed changed s
  have hfirst := paused_forEach_stop removed s id
  rw [hrun] at hfirst
  rw [← hfirst, hall, Prog.andThen]
  have hturn : ∀ a ∈ changed, ∀ s', s'.paused = s₁.paused →
      (restartTask os new a s').2.paused = s₁.paused := fun a _ s' hs => by
    rw [restartTask_apply, paused_startTask]
    exact hs
  have hnew : ∀ a ∈ newlyEnabled new s.running removed, ∀ s', s'.paused = s₁.paused →
      (startTask os new a s').2.paused = s₁.paused := fun a _ s' hs =>
    (paused_startTask os new a s').trans hs
  have hrestart := Prog.forEach_inv hturn rfl
  rcases hres : Prog.forEach (restartTask os new) changed s₁ with ⟨e | u, s₂⟩ <;>
    rw [hres] at hrestart
  · exact congrFun hrestart id
  · exact congrFun (Prog.forEach_inv hnew hrestart) id

lemma pausedKnown_reload {s : State} (hlisted : Listed s.tm) (os : Os) (new : Tasks)
    (removed changed : List String) :
    PausedKnown (step s (.reload os new removed changed)) ↔
      ¬ Forgets s (.reload os new removed changed) := by
  have hpaused : ∀ id, (step s (.reload os new removed changed)).tm.paused id = true ↔
      s.tm.paused id = true ∧ ¬ (s.tm.running id = true ∧ ¬ Enabled new id) := by
    intro id
    rw [step]
    dsimp only
    have hmem : id ∈ arrange removed (removedIds new s.tm) ↔
        s.tm.running id = true ∧ ¬ Enabled new id := mem_arrange.trans (mem_removedIds hlisted)
    rw [paused_onConfigChanged, ← hmem]
    simp
  constructor
  · rintro hknown ⟨id, hp, hrun, hnone⟩
    refine hknown id ((hpaused id).mpr ⟨hp, fun hrem => ?_⟩) hnone
    rw [hrun] at hrem
    cases hrem.1
  · -- a paused task that still runs is among the removed and is resumed
    intro hkept id hid hnone
    obtain ⟨hp, hrem⟩ := (hpaused id).mp hid
    refine hkept ⟨id, hp, ?_, hnone⟩
    by_contra hrun
    refine hrem ⟨by simpa using hrun, ?_⟩
    rintro ⟨t, ht, -⟩
    have hnone' : new.get? id = none := hnone
    rw [hnone'] at ht
    cases ht

lemma pausedKnown_step {s : State} (hlisted : Listed s.tm) (h : PausedKnown s) (e : Event) :
    PausedKnown (step s e) ↔ ¬ Forgets s e := by
  have hsame : ∀ s' : State, s'.current = s.current → s'.tm.paused = s.tm.paused →
      PausedKnown s' := by
    intro s' hc hp id hid
    rw [hc]
    rw [hp] at hid
    exact h id hid
  cases e with
  | reload os new removed changed =>
    exact pausedKnown_reload hlisted os new removed changed
  | startAll os =>
    refine iff_of_true (hsame _ rfl ?_) (fun h => h)
    have hturn : ∀ a ∈ (s.current.tasks.filter TaskConfig.enabled).map TaskConfig.taskId,
        ∀ s', s'.paused = s.tm.paused →
        (startTask os s.current a s').2.paused = s.tm.paused := fun a _ s' hs =>
      (paused_startTask os s.current a s').trans hs
    exact Prog.forEach_inv hturn rfl
  | pause id =>
    refine iff_of_true ?_ (fun h => h)
    unfold step
    dsimp only
    split_ifs with hnone
    · exact h
    · -- only a task that there is gets paused
      intro id' hid'
      dsimp only at hid' ⊢
      by_cases he : id' = id
      · subst he
        intro hnone'
        rw [hnone'] at hnone
        exact hnone rfl
      · rw [Function.update_of_ne he] at hid'
        exact h id' hid'
  | resume id =>
    refine iff_of_true ?_ (fun h => h)
    unfold step
    dsimp only
    split_ifs
    · exact h
    · intro id' hid'
      dsimp only at hid' ⊢
      by_cases he : id' = id
      · subst he
        simp at hid'
      · rw [Function.update_of_ne he] at hid'
        exact h id' hid'
  | enable os id =>
    refine iff_of_true ?_ (fun h => h)
    unfold step
    dsimp only
    split_ifs
    · exact h
    · exact hsame _ rfl (paused_startTask os s.current id s.tm)
  | disable id =>
    refine iff_of_true ?_ (fun h => h)
    unfold step
    dsimp only
    split_ifs
    · exact h
    · exact hsame _ rfl rfl

/-- **Only tasks that there are, are paused**, at any time, exactly if no reload drops a task that
is paused and does not run: a task that is made under its name afterwards is paused from the
start. -/
theorem always_pausedKnown_iff (c : Tasks) (l : List Event) :
    Always step PausedKnown (init c) l ↔ Steps step (fun s e => ¬ Forgets s e) (init c) l := by
  have hstart : PausedKnown (init c) := fun id h => by simp [init] at h
  exact always_iff_steps (I := fun s : State => Listed s.tm) (fun s e h => listed_step h e)
    (fun s e hlisted h => pausedKnown_step hlisted h e) (listed_init c) hstart

end Tdcs.TaskControl
