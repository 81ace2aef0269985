import Tdcs.RegistryComplete
import Tdcs.Lib.Linear

/-!
`ensure_table_exists` under any number of threads.

The test of `_created` is made twice, before and under the lock of the table, and the lock is one
of a dictionary that has a lock of its own. A call is cut where another thread can run in between:
at each test, at the locks, and at each step of the transaction. `Tdcs.RegistryComplete` takes a
call as a whole.
-/

namespace Tdcs.TableLocks

open Tdcs.Lib.Run Tdcs.Lib.Linear Tdcs.RegistryComplete
open Tdcs.Pipeline (validateTableName)
open Tdcs.TableLifecycle (Registry register)

/-- Where a call stands. -/
inductive Pc
  | check
  | getLock
  | acquire
  | recheck
  | connect
  | createTable
  | insert
  | commit
  | add
  | release (result : Result)
  | done (result : Result)
  deriving DecidableEq, Repr

structure State where
  registry : Registry
  /-- `_created` of each router. -/
  created : ℕ → List String
  /-- `_table_locks` of each router. -/
  tableLocks : ℕ → String → Option ℕ
  /-- The next lock to be made. -/
  nextLock : ℕ
  owner : ℕ → Option ℕ
  pc : ℕ → Pc
  /-- The lock a call has been given. -/
  lock : ℕ → ℕ
  /-- The calls that have taken effect, in their order. -/
  order : List ℕ

def init (r : Registry) : State :=
  ⟨r, fun _ => [], fun _ _ => none, 0, fun _ => none, fun _ => .check, fun _ => 0, []⟩

def State.goto (s : State) (i : ℕ) (pc : Pc) : State := { s with pc := Function.update s.pc i pc }

/-- The call takes effect. -/
def State.effect (s : State) (i : ℕ) (pc : Pc) : State :=
  { s.goto i pc with order := s.order ++ [i] }

/-- `_get_table_lock`, under the lock of the dictionary. -/
def State.getTableLock (s : State) (i : ℕ) (c : Call) : State :=
  match s.tableLocks c.router c.table with
  | some l => { s.goto i .acquire with lock := Function.update s.lock i l }
  | none => { s.goto i .acquire with
      tableLocks := Function.update s.tableLocks c.router
        (Function.update (s.tableLocks c.router) c.table (some s.nextLock))
      nextLock := s.nextLock + 1
      lock := Function.update s.lock i s.nextLock }

/-- `conn.commit()`. -/
def State.commit (s : State) (i : ℕ) (c : Call) : State :=
  { s.effect i (if c.fault = none then .add else .release .raised) with
    registry := if applied c.fault then register (key c).1 (key c).2 s.registry else s.registry }

variable (calls : ℕ → Call)

/-- One step of the call `i`; a step that has to wait does nothing. -/
def step (s : State) (i : ℕ) : State :=
  let c := calls i
  match s.pc i with
  | .check =>
    if c.table ∈ s.created c.router then s.effect i (.done .returned)
    else if (validateTableName c.table).isSome then s.effect i (.done .raised)
    else s.goto i .getLock
  | .getLock => s.getTableLock i c
  | .acquire =>
    if (s.owner (s.lock i)).isSome then s
    else { s.goto i .recheck with owner := Function.update s.owner (s.lock i) (some i) }
  | .recheck =>
    if c.table ∈ s.created c.router then s.effect i (.release .returned) else s.goto i .connect
  | .connect =>
    if c.fault = some .connect then s.effect i (.release .raised) else s.goto i .createTable
  | .createTable =>
    if c.fault = some .template ∨ c.fault = some .createTable then s.effect i (.release .raised)
    else s.goto i .insert
  | .insert =>
    if c.fault = some .insert then s.effect i (.release .raised) else s.goto i .commit
  | .commit => s.commit i c
  | .add =>
    { s.goto i (.release .returned) with
      created := Function.update s.created c.router (s.created c.router ++ [c.table]) }
  | .release result =>
    { s.goto i (.done result) with owner := Function.update s.owner (s.lock i) none }
  | .done _ => s

/-- What the call answers, once it has taken effect. -/
def Pc.answer : Pc → Option Result
  | .add => some .returned
  | .release result | .done result => some result
  | _ => none

/-- Inside `with lock`. -/
def Pc.inLock : Pc → Bool
  | .recheck | .connect | .createTable | .insert | .commit | .add | .release _ => true
  | _ => false

/-- The calls in the order in which they have taken effect, each made as a whole, give the same
answers and the same registry. -/
structure Linearized (r : Registry) (s : State) : Prop where
  serial : ∃ a, Serial RegistryComplete.step (fun s c => (ensureTableExists s c).1) calls (start r)
    s.order (fun i => (s.pc i).answer) a ∧ a.registry = s.registry
  mem : ∀ i, i ∈ s.order ↔ (s.pc i).answer.isSome = true

/-- No two calls are inside `with lock` for one table of one router. -/
def Exclusive (s : State) : Prop :=
  ∀ i j, (calls i).router = (calls j).router → (calls i).table = (calls j).table →
    (s.pc i).inLock = true → (s.pc j).inLock = true → i = j

/-- Where no call that has begun can go on, all of these are done. -/
def Progress (s : State) : Prop :=
  (∀ i, s.pc i ≠ .check → step calls s i = s) →
    ∀ i, s.pc i ≠ .check → ∃ result, s.pc i = .done result

/-! ### The locks -/

variable {calls} {s : State} {i j : ℕ} {pc : Pc}

/-- Has been given a lock. -/
def Pc.hasLock (pc : Pc) : Bool := pc.inLock || pc == .acquire

/-- Knows that the name of the table is valid. -/
def Pc.checked : Pc → Bool
  | .check | .done _ => false
  | _ => true

/-- Knows that the table is not in `_created`. -/
def Pc.fresh : Pc → Bool
  | .connect | .createTable | .insert | .commit | .add => true
  | _ => false

/-- A lock belongs to the call inside it, and to its table; what calls know is so. -/
structure Inv (calls : ℕ → Call) (s : State) : Prop where
  lock : ∀ i, (s.pc i).hasLock = true →
    s.tableLocks (calls i).router (calls i).table = some (s.lock i)
  owner : ∀ i l, s.owner l = some i ↔ (s.pc i).inLock = true ∧ s.lock i = l
  checked : ∀ i, (s.pc i).checked = true → validateTableName (calls i).table = none
  fresh : ∀ i, (s.pc i).fresh = true → (calls i).table ∉ s.created (calls i).router
  created : ∀ ρ, ∀ t ∈ s.created ρ, validateTableName t = none

lemma inv_init (calls : ℕ → Call) (r : Registry) : Inv calls (init r) where
  lock i h := by cases h
  owner i l := by simp [init, Pc.inLock]
  checked i h := by cases h
  fresh i h := by cases h
  created ρ t ht := by cases ht

lemma hasLock_of_inLock (h : pc.inLock = true) : pc.hasLock = true := by
  simp [Pc.hasLock, h]

lemma inLock_of_fresh (h : pc.fresh = true) : pc.inLock = true := by
  cases pc <;> first | rfl | cases h

/-- **Mutual exclusion.** -/
lemma Inv.exclusive (h : Inv calls s) : Exclusive calls s := by
  intro i j hrouter htable hi hj
  have hlock := h.lock i (hasLock_of_inLock hi)
  rw [hrouter, htable, h.lock j (hasLock_of_inLock hj)] at hlock
  have howner := (h.owner i (s.lock i)).mpr ⟨hi, rfl⟩
  rw [← Option.some.inj hlock, (h.owner j (s.lock j)).mpr ⟨hj, rfl⟩] at howner
  exact (Option.some.inj howner).symm

@[simp] lemma pc_goto_self (s : State) (i : ℕ) (pc : Pc) : (s.goto i pc).pc i = pc := by
  simp [State.goto]

lemma pc_goto_of_ne (s : State) (pc : Pc) (h : j ≠ i) : (s.goto i pc).pc j = s.pc j :=
  Function.update_of_ne h ..

lemma Inv.goto (h : Inv calls s) (hin : pc.inLock = (s.pc i).inLock)
    (hhas : pc.hasLock = true → (s.pc i).hasLock = true)
    (hchecked : pc.checked = true → validateTableName (calls i).table = none)
    (hfresh : pc.fresh = true → (calls i).table ∉ s.created (calls i).router) :
    Inv calls (s.goto i pc) where
  lock j hj := by
    by_cases he : j = i
    · subst he
      rw [pc_goto_self] at hj
      exact h.lock j (hhas hj)
    · rw [pc_goto_of_ne s pc he] at hj
      exact h.lock j hj
  owner j l := by
    by_cases he : j = i
    · subst he
      rw [pc_goto_self, hin]
      exact h.owner j l
    · rw [pc_goto_of_ne s pc he]
      exact h.owner j l
  checked j hj := by
    by_cases he : j = i
    · subst he
      rw [pc_goto_self] at hj
      exact hchecked hj
    · rw [pc_goto_of_ne s pc he] at hj
      exact h.checked j hj
  fresh j hj := by
    by_cases he : j = i
    · subst he
      rw [pc_goto_self] at hj
      exact hfresh hj
    · rw [pc_goto_of_ne s pc he] at hj
      exact h.fresh j hj
  created := h.created

lemma Inv.of_order (h : Inv calls s) (order : List ℕ) : Inv calls { s with order := order } :=
  ⟨h.lock, h.owner, h.checked, h.fresh, h.created⟩

lemma Inv.registry (h : Inv calls s) (r : Registry) : Inv calls { s with registry := r } :=
  ⟨h.lock, h.owner, h.checked, h.fresh, h.created⟩

lemma update_tableLocks (tl : ℕ → String → Option ℕ) (c : Call) (l : Option ℕ) (ρ : ℕ)
    (t : String) :
    Function.update tl c.router (Function.update (tl c.router) c.table l) ρ t =
      if ρ = c.router ∧ t = c.table then l else tl ρ t := by
  by_cases hρ : ρ = c.router
  · subst hρ
    by_cases ht : t = c.table <;> simp [ht]
  · simp [hρ]

lemma Inv.getTableLock (h : Inv calls s) (hpc : s.pc i = .getLock) :
    Inv calls (s.getTableLock i (calls i)) := by
  have howner : s.owner = (s.getTableLock i (calls i)).owner := by
    unfold State.getTableLock
    split <;> rfl
  have hcreated : s.created = (s.getTableLock i (calls i)).created := by
    unfold State.getTableLock
    split <;> rfl
  have hpc' : (s.getTableLock i (calls i)).pc = Function.update s.pc i .acquire := by
    unfold State.getTableLock
    split <;> rfl
  have hlock : ∀ j, j ≠ i → (s.getTableLock i (calls i)).lock j = s.lock j := by
    intro j he
    unfold State.getTableLock
    split <;> exact Function.update_of_ne he ..
  refine ⟨fun j hj => ?_, fun j l => ?_, fun j hj => ?_, fun j hj => ?_, hcreated ▸ h.created⟩
  · by_cases he : j = i
    · subst he
      unfold State.getTableLock
      split
      · next l hl =>
        -- the table has its lock already
        show s.tableLocks (calls j).router (calls j).table = some (Function.update s.lock j l j)
        rw [Function.update_self, hl]
      · simp
    · rw [hpc', Function.update_of_ne he] at hj
      rw [hlock j he, ← h.lock j hj]
      unfold State.getTableLock
      split
      · rfl
      · next hnone =>
        -- a new lock: no other call can hold one for this table, as `_table_locks` had none
        dsimp only
        rw [update_tableLocks, if_neg]
        rintro ⟨hrouter, htable⟩
        have hsome := h.lock j hj
        rw [hrouter, htable, hnone] at hsome
        cases hsome
  · rw [← howner, hpc']
    by_cases he : j = i
    · subst he
      rw [h.owner j l, hpc, Function.update_self]
      simp [Pc.inLock]
    · rw [Function.update_of_ne he, hlock j he]
      exact h.owner j l
  · rw [hpc'] at hj
    by_cases he : j = i
    · subst he
      exact h.checked j (by rw [hpc]; rfl)
    · rw [Function.update_of_ne he] at hj
      exact h.checked j hj
  · rw [hpc'] at hj
    by_cases he : j = i
    · subst he
      rw [Function.update_self] at hj
      cases hj
    · rw [Function.update_of_ne he] at hj
      rw [← hcreated]
      exact h.fresh j hj

lemma Inv.setOwner (h : Inv calls s) {o : Option ℕ}
    (hhas : pc.hasLock = true → (s.pc i).hasLock = true)
    (hchecked : pc.checked = true → (s.pc i).checked = true) (hfresh : pc.fresh = false)
    (howner : ∀ j l, Function.update s.owner (s.lock i) o l = some j ↔
      ((s.goto i pc).pc j).inLock = true ∧ s.lock j = l) :
    Inv calls { s.goto i pc with owner := Function.update s.owner (s.lock i) o } where
  lock j hj := by
    by_cases he : j = i
    · subst he
      rw [pc_goto_self] at hj
      exact h.lock j (hhas hj)
    · rw [pc_goto_of_ne s pc he] at hj
      exact h.lock j hj
  owner := howner
  checked j hj := by
    by_cases he : j = i
    · subst he
      rw [pc_goto_self] at hj
      exact h.checked j (hchecked hj)
    · rw [pc_goto_of_ne s pc he] at hj
      exact h.checked j hj
  fresh j hj := by
    by_cases he : j = i
    · subst he
      rw [pc_goto_self, hfresh] at hj
      cases hj
    · rw [pc_goto_of_ne s pc he] at hj
      exact h.fresh j hj
  created := h.created

lemma Inv.acquire (h : Inv calls s) (hpc : s.pc i = .acquire)
    (hfree : s.owner (s.lock i) = none) :
    Inv calls { s.goto i .recheck with
      owner := Function.update s.owner (s.lock i) (some i) } := by
  refine h.setOwner (fun _ => by rw [hpc]; rfl) (fun _ => by rw [hpc]; rfl) rfl fun j l => ?_
  have hout : ∀ l, s.owner l ≠ some i := fun l hl => by
    rw [h.owner, hpc] at hl
    cases hl.1
  by_cases he : j = i
  · subst he
    rw [pc_goto_self]
    by_cases hl : l = s.lock j
    · simp [hl, Pc.inLock]
    · simp [Function.update_of_ne hl, hout l, Ne.symm hl]
  · rw [pc_goto_of_ne s _ he, ← h.owner j l]
    by_cases hl : l = s.lock i
    · subst hl
      simp [hfree, Ne.symm he]
    · rw [Function.update_of_ne hl]

lemma Inv.release (h : Inv calls s) {result : Result} (hpc : s.pc i = .release result) :
    Inv calls { s.goto i (.done result) with
      owner := Function.update s.owner (s.lock i) none } := by
  refine h.setOwner (fun h => by cases h) (fun h => by cases h) rfl fun j l => ?_
  have hin : s.owner (s.lock i) = some i := (h.owner i _).mpr ⟨by rw [hpc]; rfl, rfl⟩
  by_cases he : j = i
  · subst he
    rw [pc_goto_self]
    by_cases hl : l = s.lock j
    · simp [hl, Pc.inLock]
    · have hout : s.owner l ≠ some j := fun hown => hl ((h.owner j l).mp hown).2.symm
      simp [Function.update_of_ne hl, hout, Pc.inLock]
  · rw [pc_goto_of_ne s _ he, ← h.owner j l]
    by_cases hl : l = s.lock i
    · subst hl
      simp [hin, Ne.symm he]
    · rw [Function.update_of_ne hl]

lemma Inv.add (h : Inv calls s) (hpc : s.pc i = .add) :
    Inv calls { s.goto i (.release .returned) with
      created := Function.update s.created (calls i).router
        (s.created (calls i).router ++ [(calls i).table]) } := by
  have hgoto : Inv calls (s.goto i (.release .returned)) :=
    h.goto (by rw [hpc]; rfl) (fun _ => by rw [hpc]; rfl)
      (fun _ => h.checked i (by rw [hpc]; rfl)) (fun h => by cases h)
  refine ⟨hgoto.lock, hgoto.owner, hgoto.checked, fun j hj => ?_, fun ρ t ht => ?_⟩
  · by_cases he : j = i
    · subst he
      rw [pc_goto_self] at hj
      cases hj
    · have hj' := hj
      rw [pc_goto_of_ne s _ he] at hj'
      have hnot := h.fresh j hj'
      dsimp only
      by_cases hrouter : (calls j).router = (calls i).router
      · rw [hrouter, Function.update_self, List.mem_append, List.mem_singleton, ← hrouter]
        -- another call on this table would be in the lock too
        rintro (hmem | htable)
        · exact hnot hmem
        · exact he (h.exclusive j i hrouter htable (inLock_of_fresh hj') (by rw [hpc]; rfl))
      · rwa [Function.update_of_ne hrouter]
  · dsimp only at ht
    by_cases hρ : ρ = (calls i).router
    · subst hρ
      rw [Function.update_self, List.mem_append, List.mem_singleton] at ht
      rcases ht with ht | rfl
      · exact h.created _ t ht
      · exact h.checked i (by rw [hpc]; rfl)
    · rw [Function.update_of_ne hρ] at ht
      exact h.created ρ t ht

/-! ### The step lemma -/

lemma Inv.effect (h : Inv calls s) (hin : pc.inLock = (s.pc i).inLock)
    (hhas : pc.hasLock = true → (s.pc i).hasLock = true)
    (hchecked : pc.checked = true → validateTableName (calls i).table = none)
    (hfresh : pc.fresh = true → (calls i).table ∉ s.created (calls i).router) :
    Inv calls (s.effect i pc) :=
  (h.goto hin hhas hchecked hfresh).of_order _

lemma Inv.step (h : Inv calls s) (i : ℕ) : Inv calls (TableLocks.step calls s i) := by
  -- a call inside its lock goes on inside it
  have hnext : ∀ pc : Pc, (s.pc i).inLock = true → (s.pc i).checked = true → pc.inLock = true →
      (pc.fresh = true → (calls i).table ∉ s.created (calls i).router) → Inv calls (s.goto i pc) :=
    fun pc hin hch hpc hfresh =>
      h.goto (by rw [hin, hpc]) (fun _ => hasLock_of_inLock hin) (fun _ => h.checked i hch) hfresh
  unfold TableLocks.step
  dsimp only
  rcases hpc : s.pc i with _ | _ | _ | _ | _ | _ | _ | _ | _ | result | result <;> dsimp only
  case check =>
    split_ifs with hmem hvalid
    · exact h.effect (by rw [hpc]; rfl) (fun h => by cases h) (fun h => by cases h)
        (fun h => by cases h)
    · exact h.effect (by rw [hpc]; rfl) (fun h => by cases h) (fun h => by cases h)
        (fun h => by cases h)
    · exact h.goto (by rw [hpc]; rfl) (fun h => by cases h) (fun _ => by simpa using hvalid)
        (fun h => by cases h)
  case getLock => exact h.getTableLock hpc
  case acquire =>
    split_ifs with hfree
    · exact h
    · exact h.acquire hpc (by simpa using hfree)
  case recheck =>
    split_ifs with hmem
    · exact (hnext _ (by rw [hpc]; rfl) (by rw [hpc]; rfl) rfl (fun h => by cases h)).of_order _
    · exact hnext _ (by rw [hpc]; rfl) (by rw [hpc]; rfl) rfl fun _ => hmem
  case add => exact h.add hpc
  case release => exact h.release hpc
  case done => exact h
  case commit =>
    have hfresh := h.fresh i (by rw [hpc]; rfl)
    unfold State.commit
    refine Inv.registry (Inv.of_order ?_ _) _
    refine hnext _ (by rw [hpc]; rfl) (by rw [hpc]; rfl) ?_ fun _ => hfresh
    split_ifs <;> rfl
  all_goals
    have hfresh := h.fresh i (by rw [hpc]; rfl)
    split_ifs
    · exact (hnext _ (by rw [hpc]; rfl) (by rw [hpc]; rfl) rfl (fun h => by cases h)).of_order _
    · exact hnext _ (by rw [hpc]; rfl) (by rw [hpc]; rfl) rfl fun _ => hfresh

/-! ### The order of the effects -/

/-- The routers after the calls that have taken effect: what a call has committed is in `_created`
there, before the call puts it in. -/
structure Abs (calls : ℕ → Call) (s : State) (a : Routers) : Prop where
  registry : a.registry = s.registry
  created : ∀ ρ t, t ∈ a.created ρ ↔
    t ∈ s.created ρ ∨ ∃ i, s.pc i = .add ∧ (calls i).router = ρ ∧ (calls i).table = t

structure Lin (calls : ℕ → Call) (r : Registry) (s : State) : Prop where
  serial : ∃ a, Serial RegistryComplete.step (fun s c => (ensureTableExists s c).1) calls (start r)
    s.order (fun i => (s.pc i).answer) a ∧ Abs calls s a
  mem : ∀ i, i ∈ s.order ↔ (s.pc i).answer.isSome = true

variable {r : Registry} {s' : State} {a : Routers}

lemma lin_init (calls : ℕ → Call) (r : Registry) : Lin calls r (init r) where
  serial := ⟨start r, serial_nil _, rfl, fun ρ t => by simp [init, start]⟩
  mem i := by simp [init, Pc.answer]

lemma Lin.silent (h : Lin calls r s) (horder : s'.order = s.order)
    (hanswer : ∀ j, (s'.pc j).answer = (s.pc j).answer)
    (habs : ∀ a, Abs calls s a → Abs calls s' a) :
    Lin calls r s' := by
  obtain ⟨a, hserial, ha⟩ := h.serial
  refine ⟨⟨a, ?_, habs a ha⟩, fun j => ?_⟩
  · rw [horder]
    exact hserial.congr fun j _ => hanswer j
  · rw [horder, hanswer, h.mem]

/-- A step with which a call takes effect. -/
lemma Lin.effect (h : Lin calls r s) (horder : s'.order = s.order ++ [i])
    (hpc : s'.pc = Function.update s.pc i pc) (hnone : (s.pc i).answer = none)
    (habs : ∀ a, Abs calls s a → pc.answer = some (ensureTableExists a (calls i)).1 ∧
      Abs calls s' (RegistryComplete.step a (calls i))) : Lin calls r s' := by
  obtain ⟨a, hserial, ha⟩ := h.serial
  obtain ⟨hanswer, ha'⟩ := habs a ha
  have hnot : i ∉ s.order := by
    rw [h.mem, hnone]
    simp
  have hsame : ∀ j, j ≠ i → (s'.pc j).answer = (s.pc j).answer := fun j hj => by
    rw [hpc, Function.update_of_ne hj]
  have hself : (s'.pc i).answer = pc.answer := by
    rw [hpc, Function.update_self]
  refine ⟨⟨_, ?_, ha'⟩, fun j => ?_⟩
  · rw [horder]
    refine hserial.snoc hnot (fun j hj => hsame j ?_) (hself.trans hanswer)
    rintro rfl
    exact hnot hj
  · rw [horder, List.mem_append, List.mem_singleton]
    by_cases hj : j = i
    · subst hj
      rw [hself, hanswer]
      simp
    · rw [hsame j hj, ← h.mem]
      simp [hj]

lemma Abs.of_same (h : Abs calls s a) (hregistry : s'.registry = s.registry)
    (hcreated : s'.created = s.created) (hadd : ∀ j, s'.pc j = .add ↔ s.pc j = .add) :
    Abs calls s' a := by
  refine ⟨h.registry.trans hregistry.symm, fun ρ t => ?_⟩
  rw [h.created, hcreated]
  simp only [hadd]

lemma add_iff_of_update (hpc : s'.pc = Function.update s.pc i pc) (h : pc ≠ .add)
    (h' : s.pc i ≠ .add) (j : ℕ) : s'.pc j = .add ↔ s.pc j = .add := by
  rw [hpc]
  by_cases hj : j = i
  · subst hj
    rw [Function.update_self]
    exact iff_of_false h h'
  · rw [Function.update_of_ne hj]

lemma ensure_of_mem {c : Call} (h : c.table ∈ a.created c.router) :
    (ensureTableExists a c).1 = .returned ∧ RegistryComplete.step a c = a := by
  simp [RegistryComplete.step, ensureTableExists, h]

lemma ensure_of_raise {c : Call} (hmem : c.table ∉ a.created c.router)
    (h : (validateTableName c.table).isSome = true ∨
      c.fault.isSome = true ∧ applied c.fault = false) :
    (ensureTableExists a c).1 = .raised ∧ RegistryComplete.step a c = a := by
  unfold RegistryComplete.step ensureTableExists
  rw [if_neg hmem]
  rcases hvalid : validateTableName c.table with _ | msg
  · rw [hvalid] at h
    obtain ⟨hfault, happlied⟩ := h.resolve_left (by simp)
    obtain ⟨f, hf⟩ := Option.isSome_iff_exists.mp hfault
    rw [hf] at happlied
    simp [hf, happlied]
  · exact ⟨rfl, rfl⟩

lemma Abs.notMem (ha : Abs calls s a) (h : Inv calls s) (hfresh : (s.pc i).fresh = true)
    (hne : s.pc i ≠ .add) : (calls i).table ∉ a.created (calls i).router := by
  rw [ha.created]
  rintro (hmem | ⟨j, hj, hrouter, htable⟩)
  · exact h.fresh i hfresh hmem
  · have hij := h.exclusive j i hrouter htable (by rw [hj]; rfl) (inLock_of_fresh hfresh)
    rw [← hij] at hne
    exact hne hj

lemma Abs.valid (ha : Abs calls s a) (h : Inv calls s) {ρ : ℕ} {t : String}
    (ht : t ∈ a.created ρ) : validateTableName t = none := by
  rcases (ha.created ρ t).mp ht with hmem | ⟨j, hj, -, rfl⟩
  · exact h.created ρ t hmem
  · exact h.checked j (by rw [hj]; rfl)

lemma Abs.commit (ha : Abs calls s a) (h : Inv calls s) (hpc : s.pc i = .commit) :
    ((if (calls i).fault = none then Pc.add else .release .raised).answer =
        some (ensureTableExists a (calls i)).1) ∧
      Abs calls (s.commit i (calls i)) (RegistryComplete.step a (calls i)) := by
  have hnot := ha.notMem h (i := i) (by rw [hpc]; rfl) (by rw [hpc]; simp)
  have hvalid := h.checked i (by rw [hpc]; rfl)
  unfold RegistryComplete.step ensureTableExists
  rw [if_neg hnot, hvalid]
  rcases hf : (calls i).fault with _ | f
  · -- no fault: the table counts as created from here, the set gets it at `add`
    refine ⟨rfl, ?_, fun ρ t => ?_⟩
    · simp [State.commit, hf, ha.registry]
    · have hadd : ∀ j, (s.commit i (calls i)).pc j = .add ↔ j = i ∨ s.pc j = .add := by
        intro j
        by_cases hj : j = i
        · subst hj
          simp [State.commit, State.effect, hf]
        · simp [State.commit, State.effect, hf, pc_goto_of_ne s _ hj, hj]
      have hcreated : (s.commit i (calls i)).created = s.created := rfl
      simp only [hadd, hcreated, or_and_right, exists_or, exists_eq_left]
      by_cases hρ : ρ = (calls i).router
      · subst hρ
        rw [Function.update_self, List.mem_append, List.mem_singleton, ha.created]
        rw [or_assoc, eq_comm (a := t)]
        exact or_congr_right (by simpa using or_comm)
      · rw [Function.update_of_ne hρ, ha.created]
        simp [Ne.symm hρ]
  · refine ⟨rfl, ?_, fun ρ t => ?_⟩
    · simp [State.commit, hf, ha.registry]
    · have hpc' : (s.commit i (calls i)).pc = Function.update s.pc i (.release .raised) := by
        simp [State.commit, State.effect, State.goto, hf]
      have hadd := add_iff_of_update hpc' (by simp) (by rw [hpc]; simp)
      have hcreated : (s.commit i (calls i)).created = s.created := rfl
      simp only [hadd, hcreated]
      exact ha.created ρ t

lemma Abs.add (ha : Abs calls s a) (hpc : s.pc i = .add) :
    Abs calls { s.goto i (.release .returned) with
      created := Function.update s.created (calls i).router
        (s.created (calls i).router ++ [(calls i).table]) } a := by
  refine ⟨ha.registry, fun ρ t => ?_⟩
  rw [ha.created]
  dsimp only
  constructor
  · rintro (hmem | ⟨j, hj, rfl, rfl⟩)
    · left
      by_cases hρ : ρ = (calls i).router
      · subst hρ
        rw [Function.update_self]
        exact List.mem_append_left _ hmem
      · rwa [Function.update_of_ne hρ]
    · -- `i` moves its table from the calls at `add` into the set
      by_cases he : j = i
      · left
        rw [he, Function.update_self]
        exact List.mem_append_right _ (List.mem_singleton_self _)
      · exact .inr ⟨j, (pc_goto_of_ne s _ he).trans hj, rfl, rfl⟩
  · rintro (hmem | ⟨j, hj, hrest⟩)
    · by_cases hρ : ρ = (calls i).router
      · subst hρ
        rw [Function.update_self, List.mem_append, List.mem_singleton] at hmem
        rcases hmem with hmem | rfl
        · exact .inl hmem
        · exact .inr ⟨i, hpc, rfl, rfl⟩
      · rw [Function.update_of_ne hρ] at hmem
        exact .inl hmem
    · have he : j ≠ i := by
        rintro rfl
        rw [pc_goto_self] at hj
        cases hj
      exact .inr ⟨j, (pc_goto_of_ne s _ he).symm.trans hj, hrest⟩

lemma Lin.step (h : Lin calls r s) (hi : Inv calls s) (i : ℕ) :
    Lin calls r (TableLocks.step calls s i) := by
  -- a call that finds its table takes effect without a change
  have hfound : ∀ pc : Pc, (calls i).table ∈ s.created (calls i).router →
      (s.pc i).answer = none → s.pc i ≠ .add → pc.answer = some .returned → pc ≠ .add →
      Lin calls r (s.effect i pc) := by
    intro pc hmem hnone hne hanswer hpc
    refine h.effect rfl rfl hnone fun a ha => ?_
    obtain ⟨hout, hstep⟩ := ensure_of_mem ((ha.created _ _).mpr (.inl hmem))
    rw [hout, hstep]
    exact ⟨hanswer, ha.of_same rfl rfl (add_iff_of_update rfl hpc hne)⟩
  -- and so does one that raises before it commits
  have hraised : ∀ pc : Pc, (s.pc i).answer = none → s.pc i ≠ .add → pc.answer = some .raised →
      pc ≠ .add → (∀ a, Abs calls s a → (calls i).table ∉ a.created (calls i).router) →
      ((validateTableName (calls i).table).isSome = true ∨
        (calls i).fault.isSome = true ∧ applied (calls i).fault = false) →
      Lin calls r (s.effect i pc) := by
    intro pc hnone hne hanswer hpc hnot hwhy
    refine h.effect rfl rfl hnone fun a ha => ?_
    obtain ⟨hout, hstep⟩ := ensure_of_raise (hnot a ha) hwhy
    rw [hout, hstep]
    exact ⟨hanswer, ha.of_same rfl rfl (add_iff_of_update rfl hpc hne)⟩
  -- going on is not seen
  have hgoto : ∀ s' : State, s'.order = s.order → s'.registry = s.registry →
      s'.created = s.created → (∀ pc, s'.pc = Function.update s.pc i pc →
        (s.pc i).answer = pc.answer → (pc = .add ↔ s.pc i = .add) → Lin calls r s') := by
    intro s' horder hregistry hcreated pc hpc hanswer hadd
    refine h.silent horder (fun j => ?_) fun a ha => ha.of_same hregistry hcreated fun j => ?_
    all_goals
      rw [hpc]
      by_cases hj : j = i
    · rw [hj, Function.update_self, hanswer]
    · rw [Function.update_of_ne hj]
    · rw [hj, Function.update_self, hadd]
    · rw [Function.update_of_ne hj]
  unfold TableLocks.step
  dsimp only
  rcases hpc : s.pc i with _ | _ | _ | _ | _ | _ | _ | _ | _ | result | result <;> dsimp only
  case check =>
    split_ifs with hmem hvalid
    · exact hfound _ hmem (by rw [hpc]; rfl) (by rw [hpc]; simp) rfl (by simp)
    · refine hraised _ (by rw [hpc]; rfl) (by rw [hpc]; simp) rfl (by simp) (fun a ha hmem => ?_)
        (.inl hvalid)
      rw [ha.valid hi hmem] at hvalid
      cases hvalid
    · exact hgoto _ rfl rfl rfl _ rfl (by rw [hpc]; rfl) (by simp [hpc])
  case getLock =>
    unfold State.getTableLock
    split <;> exact hgoto _ rfl rfl rfl _ rfl (by rw [hpc]; rfl) (by simp [hpc])
  case acquire =>
    split_ifs
    · exact h
    · exact hgoto _ rfl rfl rfl _ rfl (by rw [hpc]; rfl) (by simp [hpc])
  case recheck =>
    split_ifs with hmem
    · exact hfound _ hmem (by rw [hpc]; rfl) (by rw [hpc]; simp) rfl (by simp)
    · exact hgoto _ rfl rfl rfl _ rfl (by rw [hpc]; rfl) (by simp [hpc])
  case add =>
    refine h.silent rfl (fun j => ?_) fun a ha => ha.add hpc
    by_cases hj : j = i
    · rw [hj, pc_goto_self, hpc]
      rfl
    · rw [pc_goto_of_ne s _ hj]
  case release => exact hgoto _ rfl rfl rfl _ rfl (by rw [hpc]; rfl) (by simp [hpc])
  case done => exact h
  case commit =>
    exact h.effect rfl rfl (by rw [hpc]; rfl) fun a ha => ha.commit hi hpc
  all_goals
    have hnot : ∀ a, Abs calls s a → (calls i).table ∉ a.created (calls i).router :=
      fun a ha => ha.notMem hi (by rw [hpc]; rfl) (by rw [hpc]; simp)
    split_ifs with hfault
    · refine hraised _ (by rw [hpc]; rfl) (by rw [hpc]; simp) rfl (by simp) hnot (.inr ?_)
      first
        | (rw [hfault]; exact ⟨rfl, rfl⟩)
        | (rcases hfault with hfault | hfault <;> rw [hfault] <;> exact ⟨rfl, rfl⟩)
    · exact hgoto _ rfl rfl rfl _ rfl (by rw [hpc]; rfl) (by simp [hpc])

/-- A step appends to the order, and no more than the call that takes it. -/
lemma order_step (calls : ℕ → Call) (s : State) (i : ℕ) :
    (step calls s i).order = s.order ∨ (step calls s i).order = s.order ++ [i] := by
  unfold step
  dsimp only
  rcases s.pc i with _ | _ | _ | _ | _ | _ | _ | _ | _ | result | result <;> dsimp only
  case getLock =>
    unfold State.getTableLock
    split <;> exact .inl rfl
  case commit => exact .inr rfl
  case add => exact .inl rfl
  case release => exact .inl rfl
  case done => exact .inl rfl
  all_goals
    split_ifs <;> first | exact .inl rfl | exact .inr rfl

/-- **Concurrent calls are as good as calls one after the other.** However the calls of any number
of threads and routers interleave, and wherever their transactions fail, each of them takes effect
at one moment, between its first step and its last: made in that order, each as a whole, they give
the same answers and the same registry. -/
theorem always_linearized (calls : ℕ → Call) (r : Registry) (l : List ℕ) :
    Always (step calls) (Linearized calls r) (init r) l ∧
      Steps (step calls) (fun s i => (step calls s i).order = s.order ∨
        (step calls s i).order = s.order ++ [i]) (init r) l := by
  constructor
  · have hinv : Always (step calls) (fun s => Inv calls s ∧ Lin calls r s) (init r) l :=
      always_of_step (fun s i h => ⟨h.1.step i, h.2.step h.1 i⟩)
        ⟨inv_init calls r, lin_init calls r⟩ l
    refine hinv.mono fun s h => ⟨?_, h.2.mem⟩
    obtain ⟨a, hserial, ha⟩ := h.2.serial
    exact ⟨a, hserial, ha.registry⟩
  · have hany : Steps (step calls) (fun _ _ => True) (init r) l :=
      steps_of_forall fun _ _ => trivial
    exact hany.mono fun s i _ => order_step calls s i

/-! ### Waiting -/

/-- How far a call has come. -/
def Pc.rank : Pc → ℕ
  | .check => 0
  | .getLock => 1
  | .acquire => 2
  | .recheck => 3
  | .connect => 4
  | .createTable => 5
  | .insert => 6
  | .commit => 7
  | .add => 8
  | .release _ => 9
  | .done _ => 10

/-- A call waits for the owner of its lock, or is done, or comes further. -/
lemma rank_step (calls : ℕ → Call) (s : State) (i : ℕ) :
    (step calls s i = s ∧ (s.pc i = .acquire ∧ (s.owner (s.lock i)).isSome = true ∨
        ∃ result, s.pc i = .done result)) ∨
      (s.pc i).rank < ((step calls s i).pc i).rank ∧
        ∀ j, j ≠ i → (step calls s i).pc j = s.pc j := by
  unfold step
  dsimp only
  rcases hpc : s.pc i with _ | _ | _ | _ | _ | _ | _ | _ | _ | result | result <;> dsimp only
  case done => exact .inl ⟨rfl, .inr ⟨result, rfl⟩⟩
  case getLock =>
    right
    unfold State.getTableLock
    split <;> exact ⟨by simp [State.goto, Pc.rank], fun j hj => pc_goto_of_ne s _ hj⟩
  case acquire =>
    split_ifs with hown
    · -- the one place where a call waits
      exact .inl ⟨rfl, .inl ⟨rfl, hown⟩⟩
    · exact .inr ⟨by simp [Pc.rank], fun j hj => pc_goto_of_ne s _ hj⟩
  case commit =>
    right
    refine ⟨?_, fun j hj => pc_goto_of_ne s _ hj⟩
    unfold State.commit State.effect
    dsimp only
    rw [pc_goto_self]
    split_ifs <;> simp [Pc.rank]
  all_goals
    right
    try split_ifs
  all_goals
    exact ⟨by simp [State.effect, State.goto, Pc.rank], fun j hj => Function.update_of_ne hj ..⟩

lemma Inv.progress (h : Inv calls s) : Progress calls s := by
  intro hstuck i hi
  rcases rank_step calls s i with ⟨-, ⟨hpc, hown⟩ | hdone⟩ | ⟨hlt, -⟩
  · -- the owner of the lock can go on
    obtain ⟨j, hj⟩ := Option.isSome_iff_exists.mp hown
    have hin := ((h.owner j _).mp hj).1
    have hj' : s.pc j ≠ .check := by
      intro he
      rw [he] at hin
      cases hin
    rcases rank_step calls s j with ⟨-, ⟨hpc', -⟩ | ⟨result, hpc'⟩⟩ | ⟨hlt, -⟩
    · rw [hpc'] at hin
      cases hin
    · rw [hpc'] at hin
      cases hin
    · rw [hstuck j hj'] at hlt
      exact absurd hlt (lt_irrefl _)
  · exact hdone
  · rw [hstuck i hi] at hlt
    exact absurd hlt (lt_irrefl _)

lemma rank_le (pc : Pc) : pc.rank ≤ 10 := by
  cases pc <;> simp [Pc.rank]

/-- A call that comes further with each step comes to its end within ten. -/
lemma count_le_of_effective {l : List ℕ}
    (hl : Steps (step calls) (fun s i => step calls s i ≠ s) s l) (i : ℕ) :
    (s.pc i).rank + l.count i ≤ 10 := by
  induction l generalizing s with
  | nil => simpa using rank_le _
  | cons j l ih =>
    have hrest := ih hl.2
    rcases rank_step calls s j with ⟨hsame, -⟩ | ⟨hlt, hother⟩
    · exact absurd hsame hl.1
    · by_cases hij : j = i
      · subst hij
        rw [List.count_cons_self]
        omega
      · rw [List.count_cons_of_ne hij]
        rw [hother i (Ne.symm hij)] at hrest
        exact hrest

/-- **The locks exclude, and nobody waits for ever.** No two calls are inside `with lock` for one
table of one router; while a call that has begun is not done, one of them can go on; and no call
goes on more than ten times. -/
theorem always_exclusive_progress (calls : ℕ → Call) (r : Registry) (l : List ℕ) :
    Always (step calls) (fun s => Exclusive calls s ∧ Progress calls s) (init r) l ∧
      (Steps (step calls) (fun s i => step calls s i ≠ s) (init r) l → ∀ i, l.count i ≤ 10) := by
  constructor
  · have hinv : Always (step calls) (Inv calls) (init r) l :=
      always_of_step (fun s i h => h.step i) (inv_init calls r) l
    exact hinv.mono fun s h => ⟨h.exclusive, h.progress⟩
  · intro hl i
    have hcount := count_le_of_effective hl i
    omega

end Tdcs.TableLocks
