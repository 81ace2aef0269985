import Tdcs.TaskManager
import Tdcs.Lib.Loop
import Mathlib.Data.List.TakeWhile

/-!
Which tasks run after `_on_config_changed` and after `start_all`.

Both are one loop of starts, after the tasks that are removed or disabled have been stopped. A
start that raises breaks the loop off; the tasks before it run with their new configuration,
the ones after it are as they were.
-/

namespace Tdcs.TaskManager

open Tdcs.Lib

variable (os : Os)

/-! ### The sets of ids -/

/-- Present and enabled. -/
def Enabled (new : Tasks) (id : String) : Prop := ∃ t, new.get? id = some t ∧ t.enabled = true

/-- In `removed_or_disabled`. -/
def RemovedOrDisabled (new : Tasks) (s : State) (id : String) : Prop :=
  s.running id = true ∧ ¬ Enabled new id

/-- In `changed_ids`. -/
def Changed (old : Option Tasks) (new : Tasks) (s : State) (id : String) : Prop :=
  s.running id = true ∧ ∃ t, new.get? id = some t ∧ (old.bind fun c => c.get? id) ≠ some t

/-- `removed_or_disabled` and `changed_ids - removed_or_disabled`, in some order. -/
structure Orders (old : Option Tasks) (new : Tasks) (s : State) where
  removed : List String
  changed : List String
  mem_removed : ∀ id, id ∈ removed ↔ RemovedOrDisabled new s id
  changed_nodup : changed.Nodup
  mem_changed : ∀ id, id ∈ changed ↔ Changed old new s id ∧ ¬ RemovedOrDisabled new s id

/-! ### What is to hold, and when -/

/-- The start of the task raises. -/
def raises (new : Tasks) (id : String) : Bool :=
  match new.get? id with
  | some t => !os.isDir t.monitorFolder || (os.startError t).isSome
  | none => false

/-- Apart from the tasks whose start raises, a task runs exactly when it is enabled, and one that
ran and has changed was started again, with its new configuration. -/
def Synced (old : Option Tasks) (new : Tasks) (s s' : State) : Prop :=
  ∀ id, raises os new id = false →
    (s'.running id = true ↔ Enabled new id) ∧
    ∀ t, s.running id = true → new.get? id = some t → t.enabled = true →
      (old.bind fun c => c.get? id) ≠ some t →
      s'.watchers id = some t ∧ s'.scanners id = some t ∧ id ∈ s'.started

/-- Runs already, and with nothing changed. -/
def Settled (old : Option Tasks) (new : Tasks) (s : State) (id : String) : Prop :=
  s.running id = true ∧ (old.bind fun c => c.get? id) = new.get? id

/-- No task whose start does not raise comes after one whose start does, one that is settled
apart. -/
def FailuresLast (old : Option Tasks) (new : Tasks) (s : State) (starts : List String) : Prop :=
  starts.Pairwise fun a b => raises os new a = true → raises os new b = true ∨ Settled old new s b

/-- The ids `_on_config_changed` starts, in order. -/
def Orders.starts {old : Option Tasks} {new : Tasks} {s : State} (o : Orders old new s) :
    List String :=
  o.changed ++ newlyEnabled new s.running o.removed

variable {os} {new : Tasks} {s s' : State}

/-! ### The tasks of a configuration -/

lemma get?_eq_some {c : Tasks} {id : String} {t : TaskConfig} :
    c.get? id = some t ↔ t ∈ c.tasks ∧ t.taskId = id := by
  constructor
  · intro h
    exact ⟨List.mem_of_find?_eq_some h, by simpa using List.find?_some h⟩
  · rintro ⟨ht, rfl⟩
    have hsome : (c.get? t.taskId).isSome = true := by
      rw [Tasks.get?, List.find?_isSome]
      exact ⟨t, ht, by simp⟩
    obtain ⟨t', ht'⟩ := Option.isSome_iff_exists.mp hsome
    have hmem : t' ∈ c.tasks := List.mem_of_find?_eq_some ht'
    have hid : t'.taskId = t.taskId := by simpa using List.find?_some ht'
    rw [ht', List.inj_on_of_nodup_map c.nodup hmem ht hid]

lemma mem_ids {q : TaskConfig → Bool} {id : String} :
    id ∈ (new.tasks.filter q).map TaskConfig.taskId ↔
      ∃ t, new.get? id = some t ∧ q t = true := by
  simp only [List.mem_map, List.mem_filter, get?_eq_some]
  constructor
  · rintro ⟨t, ⟨ht, hq⟩, hid⟩
    exact ⟨t, ⟨ht, hid⟩, hq⟩
  · rintro ⟨t, ⟨ht, hid⟩, hq⟩
    exact ⟨t, ⟨ht, hq⟩, hid⟩

lemma nodup_ids (q : TaskConfig → Bool) :
    ((new.tasks.filter q).map TaskConfig.taskId).Nodup :=
  new.nodup.sublist (List.filter_sublist.map _)

lemma mem_newlyEnabled {runningIds : String → Bool} {removed : List String} {id : String} :
    id ∈ newlyEnabled new runningIds removed ↔
      Enabled new id ∧ runningIds id = false ∧ id ∉ removed := by
  rw [newlyEnabled, mem_ids]
  constructor
  · rintro ⟨t, ht, hq⟩
    obtain ⟨-, rfl⟩ := get?_eq_some.mp ht
    simp only [Bool.and_eq_true, Bool.not_eq_true', List.contains_eq_mem,
      decide_eq_false_iff_not] at hq
    exact ⟨⟨t, ht, hq.1.1⟩, hq.1.2, hq.2⟩
  · rintro ⟨⟨t, ht, hen⟩, hrun, hrem⟩
    obtain ⟨-, rfl⟩ := get?_eq_some.mp ht
    exact ⟨t, ht, by simp [hen, hrun, hrem]⟩

/-! ### One start -/

/-- A stop and a start, as for a changed task. -/
def restartTask (os : Os) (new : Tasks) (id : String) : Prog State Exc Unit :=
  (stopTask id).andThen fun _ => startTask os new id

lemma restartTask_apply (id : String) :
    restartTask os new id s = startTask os new id (s.stop id) := rfl

lemma startTask_of_not_raises {id : String} {t : TaskConfig} (ht : new.get? id = some t)
    (h : raises os new id = false) : startTask os new id s = (.ok (), s.start id t) := by
  simp only [raises, ht, Bool.or_eq_false_iff, Bool.not_eq_false'] at h
  have he : os.startError t = none := by simpa using h.2
  simp [startTask, ht, h.1, he, Prog.update]

lemma stop_start (id : String) (t : TaskConfig) : (s.stop id).start id t = s.start id t := by
  simp [State.stop, State.start]

/-- Nothing but task `id` differs. -/
structure OnlyAt (id : String) (s s' : State) : Prop where
  watchers : ∀ id', id' ≠ id → s'.watchers id' = s.watchers id'
  scanners : ∀ id', id' ≠ id → s'.scanners id' = s.scanners id'
  started : s'.started = s.started

lemma onlyAt_refl (id : String) : OnlyAt id s s := ⟨fun _ _ => rfl, fun _ _ => rfl, rfl⟩

lemma onlyAt_stop (id : String) : OnlyAt id s (s.stop id) :=
  ⟨fun _ h => Function.update_of_ne h .., fun _ h => Function.update_of_ne h .., rfl⟩

lemma OnlyAt.trans {id : String} {s'' : State} (h : OnlyAt id s s') (h' : OnlyAt id s' s'') :
    OnlyAt id s s'' :=
  ⟨fun id' hne => (h'.watchers id' hne).trans (h.watchers id' hne),
    fun id' hne => (h'.scanners id' hne).trans (h.scanners id' hne),
    h'.started.trans h.started⟩

lemma startTask_of_raises {id : String} (h : raises os new id = true) (s : State) :
    (∃ e, (startTask os new id s).1 = .error e) ∧ OnlyAt id s (startTask os new id s).2 := by
  unfold raises at h
  cases ht : new.get? id with
  | none => simp [ht] at h
  | some t =>
    cases hdir : os.isDir t.monitorFolder with
    | false =>
      have hrun : startTask os new id s = (.error (.other "ValueError"
          ("监控目录不存在或不可访问: " ++ t.monitorFolder)), s) := by
        simp [startTask, ht, hdir, Prog.raise]
      rw [hrun]
      exact ⟨⟨_, rfl⟩, onlyAt_refl id⟩
    | true =>
      simp only [ht, hdir, Bool.not_true, Bool.false_or] at h
      obtain ⟨e, he⟩ := Option.isSome_iff_exists.mp h
      have hrun : startTask os new id s = (.error e, s.stop id) := by
        simp [startTask, ht, hdir, he, Prog.raise, Prog.andThen, stopTask, Prog.update]
      rw [hrun]
      exact ⟨⟨_, rfl⟩, onlyAt_stop id⟩

/-! ### A loop of starts -/

/-- What a start that does not raise does. -/
def startEffect (new : Tasks) (id : String) (s : State) : State :=
  match new.get? id with
  | some t => s.start id t
  | none => s

lemma foldl_startEffect_of_not_mem {l : List String} {id : String} (hid : id ∉ l) (s : State) :
    let s' := l.foldl (fun s a => startEffect new a s) s
    s'.watchers id = s.watchers id ∧ s'.scanners id = s.scanners id ∧
      (id ∈ s'.started ↔ id ∈ s.started) := by
  induction l generalizing s with
  | nil => exact ⟨rfl, rfl, Iff.rfl⟩
  | cons x l ih =>
    rw [List.mem_cons, not_or] at hid
    obtain ⟨hw, hsc, hst⟩ := ih hid.2 (startEffect new x s)
    have hx : (startEffect new x s).watchers id = s.watchers id ∧
        (startEffect new x s).scanners id = s.scanners id ∧
        (id ∈ (startEffect new x s).started ↔ id ∈ s.started) := by
      unfold startEffect
      split
      · exact ⟨Function.update_of_ne hid.1 .., Function.update_of_ne hid.1 ..,
          by simp [State.start, hid.1]⟩
      · exact ⟨rfl, rfl, Iff.rfl⟩
    exact ⟨hw.trans hx.1, hsc.trans hx.2.1, hst.trans hx.2.2⟩

lemma foldl_startEffect_of_mem {l : List String} {id : String} {t : TaskConfig} (hid : id ∈ l)
    (ht : new.get? id = some t) (s : State) :
    let s' := l.foldl (fun s a => startEffect new a s) s
    s'.watchers id = some t ∧ s'.scanners id = some t ∧ id ∈ s'.started := by
  induction l generalizing s with
  | nil => cases hid
  | cons x l ih =>
    by_cases hl : id ∈ l
    · exact ih hl (startEffect new x s)
    · -- it is started at the head, and not touched afterwards
      have hx : id = x := (List.mem_cons.mp hid).resolve_right hl
      subst hx
      obtain ⟨hw, hsc, hst⟩ := foldl_startEffect_of_not_mem hl (startEffect new id s)
      have he : startEffect new id s = s.start id t := by simp [startEffect, ht]
      rw [he] at hw hsc hst
      refine ⟨?_, ?_, ?_⟩
      · rw [List.foldl_cons, he, hw]
        exact Function.update_self ..
      · rw [List.foldl_cons, he, hsc]
        exact Function.update_self ..
      · rw [List.foldl_cons, he, hst]
        simp [State.start]

/-- The ids before the first one whose start raises. -/
def reached (os : Os) (new : Tasks) (starts : List String) : List String :=
  starts.takeWhile fun a => !raises os new a

/-- The ids that are reached run with their configuration; the others are as they were, those
whose start raises apart. -/
structure Attempted (os : Os) (new : Tasks) (starts : List String) (s s' : State) : Prop where
  done : ∀ id ∈ reached os new starts, ∀ t, new.get? id = some t →
    s'.watchers id = some t ∧ s'.scanners id = some t ∧ id ∈ s'.started
  rest : ∀ id, raises os new id = false → id ∉ reached os new starts →
    s'.watchers id = s.watchers id ∧ s'.scanners id = s.scanners id ∧
      (id ∈ s'.started ↔ id ∈ s.started)

/-- **A loop of starts and restarts.** -/
theorem attempted_forEach {act : String → Prog State Exc Unit} {l : List String}
    (hact : ∀ id ∈ l, act id = startTask os new id ∨ act id = restartTask os new id)
    (hl : ∀ id ∈ l, ∃ t, new.get? id = some t) (s : State) :
    Attempted os new l s (Prog.forEach act l s).2 := by
  have hgood : ∀ id ∈ l, ∀ s, raises os new id = false →
      act id s = (.ok (), startEffect new id s) := by
    intro id hid s h
    obtain ⟨t, ht⟩ := hl id hid
    have he : startEffect new id s = s.start id t := by simp [startEffect, ht]
    rcases hact id hid with ha | ha
    · rw [ha, startTask_of_not_raises ht h, he]
    · rw [ha, restartTask_apply, startTask_of_not_raises ht h, stop_start, he]
  have hbad : ∀ id ∈ l, ∀ s, raises os new id = true →
      (∃ e, (act id s).1 = .error e) ∧ OnlyAt id s (act id s).2 := by
    intro id hid s h
    rcases hact id hid with ha | ha
    · rw [ha]
      exact startTask_of_raises h s
    · rw [ha, restartTask_apply]
      obtain ⟨he, hs⟩ := startTask_of_raises h (s.stop id)
      exact ⟨he, (onlyAt_stop id).trans hs⟩
  have hup : Attempted os new l s (Prog.upTo (startEffect new) (raises os new) l s) := by
    constructor
    · intro id hid t ht
      exact foldl_startEffect_of_mem hid ht s
    · intro id _ hid
      exact foldl_startEffect_of_not_mem hid s
  rcases Prog.forEach_state hgood (fun id hid s h => (hbad id hid s h).1) s with
    ⟨-, hs⟩ | ⟨b, hb, hbb, hs⟩
  · rw [hs]
    exact hup
  · -- the start that raises touches its own task only
    rw [hs]
    have honly := (hbad b hb (Prog.upTo (startEffect new) (raises os new) l s) hbb).2
    constructor
    · intro id hid t ht
      have hne : id ≠ b := by
        rintro rfl
        have := List.mem_takeWhile_imp hid
        simp [hbb] at this
      rw [honly.watchers id hne, honly.scanners id hne, honly.started]
      exact hup.done id hid t ht
    · intro id hr hid
      have hne : id ≠ b := by
        rintro rfl
        rw [hbb] at hr
        cases hr
      rw [honly.watchers id hne, honly.scanners id hne, honly.started]
      exact hup.rest id hr hid

/-! ### Following a new configuration -/

lemma forEach_stop (removed : List String) (s : State) : ∃ s',
    Prog.forEach (fun id => (stopTask id).andThen fun _ => resumeTask id) removed s =
      (.ok (), s') ∧ s'.started = s.started ∧
    ∀ id, (id ∈ removed → s'.watchers id = none ∧ s'.scanners id = none) ∧
      (id ∉ removed → s'.watchers id = s.watchers id ∧ s'.scanners id = s.scanners id) := by
  induction removed generalizing s with
  | nil => exact ⟨s, rfl, rfl, fun id => ⟨fun h => (by cases h), fun _ => ⟨rfl, rfl⟩⟩⟩
  | cons x l ih =>
    let s₁ : State := { s.stop x with paused := Function.update s.paused x false }
    obtain ⟨s', hrun, hst, hs'⟩ := ih s₁
    have hx : s₁.watchers x = none ∧ s₁.scanners x = none :=
      ⟨Function.update_self .., Function.update_self ..⟩
    have hne : ∀ id, id ≠ x → s₁.watchers id = s.watchers id ∧ s₁.scanners id = s.scanners id :=
      fun id h => ⟨Function.update_of_ne h .., Function.update_of_ne h ..⟩
    refine ⟨s', hrun, hst, fun id => ⟨fun h => ?_, fun h => ?_⟩⟩
    · by_cases hl : id ∈ l
      · exact (hs' id).1 hl
      · have : id = x := (List.mem_cons.mp h).resolve_right hl
        subst this
        obtain ⟨hw, hsc⟩ := (hs' id).2 hl
        exact ⟨hw.trans hx.1, hsc.trans hx.2⟩
    · rw [List.mem_cons, not_or] at h
      obtain ⟨hw, hsc⟩ := (hs' id).2 h.2
      exact ⟨hw.trans (hne id h.1).1, hsc.trans (hne id h.1).2⟩

variable {old : Option Tasks}

lemma Orders.mem_starts (o : Orders old new s) {id : String} :
    id ∈ o.starts ↔ Enabled new id ∧ ¬ Settled old new s id := by
  rw [Orders.starts, List.mem_append, o.mem_changed, mem_newlyEnabled]
  constructor
  · rintro (⟨⟨hrun, t, ht, hne⟩, hnot⟩ | ⟨hen, hrun, -⟩)
    · -- it has changed
      have hen : Enabled new id := by
        by_contra hen
        exact hnot ⟨hrun, hen⟩
      exact ⟨hen, fun hset => hne (hset.2.trans ht)⟩
    · -- it is new
      refine ⟨hen, fun hset => ?_⟩
      rw [hset.1] at hrun
      cases hrun
  · rintro ⟨⟨t, ht, hen⟩, hset⟩
    cases hrun : s.running id with
    | true =>
      refine .inl ⟨⟨hrun, t, ht, fun he => hset ⟨hrun, he.trans ht.symm⟩⟩, fun hrem => ?_⟩
      exact hrem.2 ⟨t, ht, hen⟩
    | false =>
      refine .inr ⟨⟨t, ht, hen⟩, rfl, fun hrem => ?_⟩
      rw [((o.mem_removed id).mp hrem).1] at hrun
      cases hrun

lemma Orders.starts_nodup (o : Orders old new s) : o.starts.Nodup := by
  rw [Orders.starts, List.nodup_append]
  refine ⟨o.changed_nodup, nodup_ids _, ?_⟩
  rintro id hc _ hn rfl
  have hrun := ((o.mem_changed id).mp hc).1.1
  rw [(mem_newlyEnabled.mp hn).2.1] at hrun
  cases hrun

lemma onConfigChanged_attempts (os : Os) (o : Orders old new s) : ∃ s₁,
    s₁.started = s.started ∧
    (∀ id, (RemovedOrDisabled new s id → s₁.running id = false) ∧
      (¬ RemovedOrDisabled new s id → s₁.running id = s.running id)) ∧
    Attempted os new o.starts s₁ (onConfigChanged os new o.removed o.changed s).2 := by
  obtain ⟨s₁, hrun, hst, hs₁⟩ := forEach_stop o.removed s
  let act : String → Prog State Exc Unit := fun id =>
    if id ∈ o.changed then restartTask os new id else startTask os new id
  have hloop : onConfigChanged os new o.removed o.changed s =
      Prog.forEach act o.starts s₁ := by
    have h1 : Prog.forEach (fun id => (stopTask id).andThen fun _ => startTask os new id)
        o.changed = Prog.forEach act o.changed :=
      Prog.forEach_congr fun id hid => by simp [act, hid, restartTask]
    have h2 : Prog.forEach (startTask os new) (newlyEnabled new s.running o.removed) =
        Prog.forEach act (newlyEnabled new s.running o.removed) := by
      refine Prog.forEach_congr fun id hid => ?_
      -- a newly enabled task does not run, a changed one does
      have hnot : id ∉ o.changed := fun hc => by
        have hr := ((o.mem_changed id).mp hc).1.1
        rw [(mem_newlyEnabled.mp hid).2.1] at hr
        cases hr
      simp [act, hnot]
    rw [Orders.starts, Prog.forEach_append, ← h1, ← h2]
    simp only [onConfigChanged, Prog.andThen, Prog.read, hrun]
  refine ⟨s₁, hst, fun id => ⟨fun h => ?_, fun h => ?_⟩, ?_⟩
  · obtain ⟨hw, hsc⟩ := (hs₁ id).1 ((o.mem_removed id).mpr h)
    simp [State.running, hw, hsc]
  · obtain ⟨hw, hsc⟩ := (hs₁ id).2 fun hm => h ((o.mem_removed id).mp hm)
    simp [State.running, hw, hsc]
  · rw [hloop]
    refine attempted_forEach (fun id _ => ?_) (fun id hid => ?_) s₁
    · by_cases hc : id ∈ o.changed
      · exact .inr (by simp [act, hc])
      · exact .inl (by simp [act, hc])
    · obtain ⟨⟨t, ht, -⟩, -⟩ := o.mem_starts.mp hid
      exact ⟨t, ht⟩

/-- Where the starts are enabled, and every enabled task that is not settled is among them, the
tasks are in sync exactly when the loop reaches these, and nothing runs that is not enabled. -/
lemma synced_iff_reached {starts : List String} {s₁ : State}
    (h : Attempted os new starts s₁ s') (hstarted : s₁.started = [])
    (hrun : ∀ id, Enabled new id → s₁.running id = s.running id)
    (henabled : ∀ id ∈ starts, Enabled new id)
    (hstarts : ∀ id, Enabled new id → ¬ Settled old new s id → id ∈ starts) :
    Synced os old new s s' ↔
      (∀ id ∈ starts, raises os new id = false ∧ ¬ Settled old new s id →
        id ∈ reached os new starts) ∧
      ∀ id, raises os new id = false → s₁.running id = true → Enabled new id := by
  have hsame : ∀ id, raises os new id = false → id ∉ reached os new starts →
      s'.running id = s₁.running id := by
    intro id hr hid
    obtain ⟨hw, hsc, -⟩ := h.rest id hr hid
    rw [State.running, State.running, hw, hsc]
  constructor
  · intro hsync
    constructor
    · intro id hid ⟨hr, hset⟩
      by_contra hnot
      obtain ⟨t, ht, hen⟩ := henabled id hid
      -- it runs, so it ran before, and must have been started again
      have hran : s.running id = true := by
        rw [← hrun id ⟨t, ht, hen⟩, ← hsame id hr hnot]
        exact (hsync id hr).1.mpr ⟨t, ht, hen⟩
      have hne : (old.bind fun c => c.get? id) ≠ some t :=
        fun he => hset ⟨hran, he.trans ht.symm⟩
      obtain ⟨-, -, hin⟩ := (hsync id hr).2 t hran ht hen hne
      rw [(h.rest id hr hnot).2.2, hstarted] at hin
      cases hin
    · intro id hr hran
      by_contra hen
      have hnot : id ∉ reached os new starts :=
        fun hm => hen (henabled id ((List.takeWhile_sublist _).subset hm))
      rw [← hsame id hr hnot] at hran
      exact hen ((hsync id hr).1.mp hran)
  · rintro ⟨hreached, hstopped⟩ id hr
    by_cases hm : id ∈ reached os new starts
    · -- it has been started
      obtain ⟨t, ht, hen⟩ := henabled id ((List.takeWhile_sublist _).subset hm)
      have hd := h.done id hm t ht
      refine ⟨iff_of_true (by simp [State.running, hd.1]) ⟨t, ht, hen⟩, ?_⟩
      intro t' _ ht' _ _
      cases ht.symm.trans ht'
      exact hd
    · -- it is as before
      have hset : Enabled new id → Settled old new s id := by
        intro hen
        by_contra hset
        exact hm (hreached id (hstarts id hen hset) ⟨hr, hset⟩)
      rw [hsame id hr hm]
      refine ⟨⟨hstopped id hr, fun hen => ?_⟩, fun t hran ht hen hne => ?_⟩
      · rw [hrun id hen]
        exact (hset hen).1
      · exact absurd ((hset ⟨t, ht, hen⟩).2.trans ht) hne

lemma failuresLast_iff {starts : List String} (h : starts.Nodup) :
    FailuresLast os old new s starts ↔ ∀ id ∈ starts,
      raises os new id = false ∧ ¬ Settled old new s id → id ∈ reached os new starts := by
  rw [reached, mem_takeWhile_iff_pairwise h fun _ ha => ha.1, FailuresLast]
  refine List.Pairwise.iff fun a b => imp_congr_right fun _ => ?_
  rw [not_and, not_not, ← Bool.not_eq_true]
  tauto

/-- **One task's failure leaves the others in sync exactly when no other start comes after it.**
This holds of a new configuration, and of `start_all` where, besides, no task runs that the
configuration does not enable. -/
theorem synced_iff (os : Os) (old : Option Tasks) (new : Tasks) (s : State)
    (hstarted : s.started = []) :
    (∀ o : Orders old new s,
      Synced os old new s (onConfigChanged os new o.removed o.changed s).2 ↔
        FailuresLast os old new s o.starts) ∧
    (Synced os old new s (startAll os new s).2 ↔
      FailuresLast os old new s ((new.tasks.filter TaskConfig.enabled).map TaskConfig.taskId) ∧
      ∀ id, raises os new id = false → s.running id = true → Enabled new id) := by
  constructor
  · intro o
    obtain ⟨s₁, hst, hrun, hatt⟩ := onConfigChanged_attempts os o
    have hstopped : ∀ id, raises os new id = false → s₁.running id = true → Enabled new id := by
      intro id _ hran
      by_contra hen
      by_cases hrem : RemovedOrDisabled new s id
      · rw [(hrun id).1 hrem] at hran
        cases hran
      · rw [(hrun id).2 hrem] at hran
        exact hrem ⟨hran, hen⟩
    rw [failuresLast_iff o.starts_nodup, synced_iff_reached hatt (hst.trans hstarted)
      (fun id hen => (hrun id).2 fun hrem => hrem.2 hen)
      (fun id hid => (o.mem_starts.mp hid).1)
      (fun id hen hset => o.mem_starts.mpr ⟨hen, hset⟩)]
    exact and_iff_left hstopped
  · have henabled : ∀ id ∈ (new.tasks.filter TaskConfig.enabled).map TaskConfig.taskId,
        Enabled new id := fun id hid => mem_ids.mp hid
    have hatt : Attempted os new ((new.tasks.filter TaskConfig.enabled).map TaskConfig.taskId) s
        (startAll os new s).2 :=
      attempted_forEach (fun _ _ => .inl rfl) (fun id hid => by
        obtain ⟨t, ht, -⟩ := henabled id hid
        exact ⟨t, ht⟩) s
    rw [failuresLast_iff (nodup_ids _)]
    exact synced_iff_reached hatt hstarted (fun _ _ => rfl) henabled
      fun id hen _ => mem_ids.mpr hen

/-! ### A missing folder -/

def folderTask (id folder : String) : TaskConfig :=
  { taskId := id, name := id, monitorFolder := folder, fileExtensions := [".csv"],
    transformerModule := "m", transformerFunction := "f", baseTable := id,
    partitionField := "day" }

/-- Two tasks, the folder of the first of them missing. -/
def missingFolder : Tasks := ⟨[folderTask "a" "/missing", folderTask "b" "/in"], by decide⟩

def oneFolder : Os := ⟨fun path => path == "/in", fun _ => none⟩

def nothingRuns : State := ⟨fun _ => none, fun _ => none, fun _ => false, []⟩

/-- Nothing is to be stopped or restarted. -/
def noOrders (old : Option Tasks) (new : Tasks) : Orders old new nothingRuns where
  removed := []
  changed := []
  mem_removed id := ⟨fun h => (by cases h), fun h => (by cases h.1)⟩
  changed_nodup := List.nodup_nil
  mem_changed id := ⟨fun h => (by cases h), fun h => (by cases h.1.1)⟩

theorem synced_iff_missingFolder :
    (∀ o : Orders none missingFolder nothingRuns,
      Synced oneFolder none missingFolder nothingRuns
        (onConfigChanged oneFolder missingFolder o.removed o.changed nothingRuns).2 ↔
      FailuresLast oneFolder none missingFolder nothingRuns o.starts) ∧
    (Synced oneFolder none missingFolder nothingRuns
        (startAll oneFolder missingFolder nothingRuns).2 ↔
      FailuresLast oneFolder none missingFolder nothingRuns ["a", "b"] ∧
      ∀ id, raises oneFolder missingFolder id = false → nothingRuns.running id = true →
        Enabled missingFolder id) :=
  synced_iff oneFolder none missingFolder nothingRuns rfl

/-- The task after the one whose folder is missing is not started. -/
theorem not_synced_missingFolder : ¬ ∀ (os : Os) (old : Option Tasks) (new : Tasks) (s : State),
    s.started = [] →
    (∀ o : Orders old new s,
      Synced os old new s (onConfigChanged os new o.removed o.changed s).2) ∧
    Synced os old new s (startAll os new s).2 := by
  intro hall
  obtain ⟨hsync, -⟩ := hall oneFolder none missingFolder nothingRuns rfl
  have hb := (hsync (noOrders none missingFolder) "b" (by decide)).1
  have hrun : (onConfigChanged oneFolder missingFolder [] [] nothingRuns).2.running "b" = true :=
    hb.mpr ⟨folderTask "b" "/in", by decide, rfl⟩
  have hnot :
      (onConfigChanged oneFolder missingFolder [] [] nothingRuns).2.running "b" = false := by
    decide
  rw [hnot] at hrun
  cases hrun

end Tdcs.TaskManager
