import Tdcs.ClaimSafety
import Tdcs.Replay

/-!
The claim protocol with the pipelines inside: any number of calls of `FileProcessor.__call__`,
whose loads reach the target tables one by one while others run.

Between `mark_processing` and its answer a call of `execute` commits its loads, each in a
transaction of its own. It may stop or raise after any of them; what the table `processed_files`
says of the file is written later, in another transaction.
-/

namespace Tdcs.Delivery

open Tdcs.Lib Tdcs.Lib.Run Tdcs.ProcessedFileRepo Tdcs.FileProcessor Tdcs.Pipeline Tdcs.Extractor

variable {V R K : Type*} [DecidableEq K]

/-- What a call of `execute` meets: the outside, the task, the file as it is then, and what
earlier calls have left in the process. -/
structure Job (V : Type*) where
  world : World V
  cfg : TaskConfig
  file : FileView V
  start : Pipeline.State V

def Job.batches (j : Job V) : List (List (Item V) × ℕ) :=
  (stream j.world.ops j.file j.cfg).batches.zipIdx

/-- The loads the call commits, if it comes to its end. -/
def Job.loads (j : Job V) : List (Load V) := attempt j.world j.cfg j.file j.start

def Job.result (j : Job V) : PipelineResult := (execute j.world j.cfg j.file j.start).1

/-- The rows the transform returned, each with its table. -/
def Job.rows (j : Job V) : List (String × Row V) :=
  tagged j.world j.cfg j.start.clockReads (rowsOf (transformed j.world j.cfg j.batches))

/-- The target tables. Their unique index lets no two rows of a table have one key. -/
@[ext]
structure Store (sc : Schema V R K) where
  rows : Contents R
  unique : ∀ table, ((rows table).map (sc.key table)).Nodup

variable {sc : Schema V R K}

lemma conflict_iff (table : String) (a b : R) :
    sc.conflict table a b = true ↔ sc.key table a = sc.key table b := by
  simp [Schema.conflict]

/-- One committed load. -/
def Store.apply (st : Store sc) (load : Load V) : Store sc where
  rows := sc.apply st.rows load
  unique table := by
    by_cases h : table = load.table
    · subst h
      rw [Schema.apply, Function.update_self]
      exact FirstWins.nodup_insertAll (conflict_iff _) (st.unique _) _
    · rw [Schema.apply, Function.update_of_ne h]
      exact st.unique table

structure State (sc : Schema V R K) where
  proto : ClaimProtocol.State
  store : Store sc
  /-- How many of its loads each call has committed. -/
  done : ℕ → ℕ

def init (store : Store sc) : State sc := ⟨ClaimProtocol.init, store, fun _ => 0⟩

inductive Event
  /-- Anything but an answer of `execute`. -/
  | other (e : ClaimProtocol.Event)
  /-- The next load of the call is committed. -/
  | commit (r : ℕ)
  /-- `execute` returns to the call. -/
  | returns (r : ℕ)

def isResult : ClaimProtocol.Event → Bool
  | .call _ (.result _) => true
  | _ => false

def isExecute : Pc → Bool
  | .execute _ => true
  | _ => false

variable (w : ℕ → ClaimProtocol.Worker) (deps : Deps) (job : ℕ → Job V)

def step (s : State sc) : Event → State sc
  | .other e => if isResult e then s else { s with proto := ClaimProtocol.step w deps s.proto e }
  | .commit r =>
    if (s.proto.runs r).stopped || !isExecute (s.proto.runs r).pc then s
    else match (job r).loads[s.done r]? with
      | none => s
      | some load => { s with
          store := s.store.apply load
          done := Function.update s.done r (s.done r + 1) }
  | .returns r =>
    if s.done r = (job r).loads.length then
      { s with proto := ClaimProtocol.step w deps s.proto (.call r (.result (job r).result)) }
    else s

/-- The call has read its file to the end, and the tables have what the transform made of it:
every row it returned has a tuple that says what the row says, and the row's table has one row with
the key of that tuple. -/
structure Delivered (st : Store sc) (j : Job V) : Prop where
  read : (stream j.world.ops j.file j.cfg).batches.flatten =
    (records j.world.ops j.file j.cfg "item").items
  transformed : ∀ p ∈ j.batches, ∃ out, transform j.world j.cfg p.2 p.1 = .ok out
  stored : ∀ p ∈ j.rows, ∃ columns tuple, Encodes columns tuple p.2 ∧
    (st.rows p.1).countP (fun r => sc.key p.1 r = sc.key p.1 (sc.store p.1 columns tuple)) = 1

/-- What a row with the status `SUCCESS` says of its file is so: some call on the file has
delivered it, and the counts in the row are those of that call. -/
def SuccessDelivered (s : State sc) : Prop :=
  ∀ k row, s.proto.table.row k = some row → row.status = .success →
    ∃ r, (w r).key = k ∧ Delivered s.store (job r) ∧
      row.rowCount = (job r).result.rawCount ∧ row.validRowCount = (job r).result.validCount

/-- A step that takes the file of the call out of its folder, or removes it there, because it has
been loaded. -/
def Archives (s : State sc) (r : ℕ) : Event → Prop
  | .other (.call r' (.path _)) => r' = r ∧ (s.proto.runs r).stopped = false ∧
      (s.proto.runs r).pc = .archiveAfterSuccess
  | _ => False

/-- What was tried has its key in the table. -/
def Store.Has (st : Store sc) (load : Load V) : Prop :=
  ∀ a ∈ sc.stored load, (st.rows load.table).any (sc.conflict load.table · a) = true

/-- The tables are what they were at the start, and behind it what calls with a grant on their files
have committed: nothing is missing, and there is nothing else. -/
structure Accounted (store : Store sc) (s : State sc) : Prop where
  kept : ∀ table, store.rows table <+: s.store.rows table
  has : ∀ r, ∀ load ∈ (job r).loads.take (s.done r), s.store.Has load
  origin : ∀ table, ∀ a ∈ s.store.rows table, a ∈ store.rows table ∨
    ∃ r load, (s.proto.runs r).grantedAt.isSome = true ∧ load ∈ (job r).loads.take (s.done r) ∧
      load.table = table ∧ a ∈ sc.stored load

/-! ### The loads of a call -/

lemma exists_load_of_batch {w : World V} {cfg : TaskConfig} {k : ℕ} {out : List (Item V)}
    {p : String × Row V} (h : p ∈ tagged w cfg k (rowsOf out)) :
    ∃ load ∈ batchEmission w cfg Pipeline.loads k out, load.table = p.1 ∧ p.2 ∈ load.rows := by
  have hmem := Dict.exists_mem_group (k := p.1) (v := p.2) h
  have hrow : p.2 ∈ Dict.under p.1 (tagged w cfg k (rowsOf out)) := Dict.mem_under.mpr h
  have hne : (Dict.under p.1 (tagged w cfg k (rowsOf out))).isEmpty = false := by
    rw [List.isEmpty_eq_false_iff]
    exact List.ne_nil_of_mem hrow
  refine ⟨⟨p.1, _⟩, List.mem_flatMap.mpr ⟨_, hmem, ?_⟩, rfl, hrow⟩
  rw [Pipeline.loads, hne]
  exact List.mem_singleton_self _

lemma exists_load_of_row {w : World V} {cfg : TaskConfig} {ps : List (List (Item V) × ℕ)}
    (hall : ∀ p ∈ ps, ∃ out, transform w cfg p.2 p.1 = .ok out) {k : ℕ} {p : String × Row V}
    (h : p ∈ tagged w cfg k (rowsOf (transformed w cfg ps))) :
    ∃ load ∈ emission w cfg Pipeline.loads k ps, load.table = p.1 ∧ p.2 ∈ load.rows := by
  induction ps generalizing k with
  | nil => simp [transformed, rowsOf, tagged] at h
  | cons q ps ih =>
    obtain ⟨out, hout⟩ := hall q List.mem_cons_self
    have hrows : rowsOf (transformed w cfg (q :: ps)) =
        rowsOf out ++ rowsOf (transformed w cfg ps) := by
      simp [transformed, rowsOf, hout, Except.toOption]
    rw [hrows, tagged_append, List.mem_append] at h
    rw [emission, hout]
    dsimp only
    rcases h with h | h
    · obtain ⟨load, hload, hp⟩ := exists_load_of_batch h
      exact ⟨load, List.mem_append_left _ hload, hp⟩
    · obtain ⟨load, hload, hp⟩ := ih (fun q' hq' => hall q' (List.mem_cons_of_mem _ hq')) h
      exact ⟨load, List.mem_append_right _ hload, hp⟩

lemma exists_tuple {rows : List (Row V)} {row : Row V} (h : row ∈ rows) :
    ∃ p ∈ loadTuples rows, Encodes p.1 p.2 row := by
  obtain ⟨i, hi, rfl⟩ := List.getElem_of_mem h
  have hforall := encodes_loadTuples rows
  have hlen := hforall.length_eq
  have hi' : i < (loadTuples rows).length := by omega
  exact ⟨(loadTuples rows)[i], List.getElem_mem hi', hforall.get hi' hi⟩

/-! ### The tables -/

variable {st : Store sc} {load : Load V} {table : String} {a : R}

lemma Store.rows_apply_self (st : Store sc) (load : Load V) : (st.apply load).rows load.table =
    FirstWins.insertAll (sc.conflict load.table) (st.rows load.table) (sc.stored load) :=
  Function.update_self ..

lemma Store.rows_apply_of_ne (st : Store sc) (h : table ≠ load.table) :
    (st.apply load).rows table = st.rows table :=
  Function.update_of_ne h ..

lemma Store.has_apply (st : Store sc) (load : Load V) : (st.apply load).Has load := by
  intro a ha
  rw [st.rows_apply_self]
  exact FirstWins.any_of_mem (fun r => (conflict_iff _ r r).mpr rfl) ha

lemma Store.Has.apply (h : st.Has load) (load' : Load V) : (st.apply load').Has load := by
  intro a ha
  by_cases ht : load.table = load'.table
  · rw [ht, st.rows_apply_self, ← ht]
    exact FirstWins.any_insertAll (h a ha)
  · rw [st.rows_apply_of_ne ht]
    exact h a ha

lemma Store.Has.apply_eq (h : st.Has load) : st.apply load = st := by
  ext1
  funext table
  by_cases ht : table = load.table
  · subst ht
    rw [st.rows_apply_self, FirstWins.insertAll_of_refused h]
  · exact st.rows_apply_of_ne ht

lemma Store.le_apply (st : Store sc) (load : Load V) (table : String) :
    st.rows table <+: (st.apply load).rows table := by
  by_cases ht : table = load.table
  · subst ht
    rw [st.rows_apply_self]
    exact FirstWins.le_insertAll _ _
  · rw [st.rows_apply_of_ne ht]

lemma Store.mem_apply (h : a ∈ (st.apply load).rows table) :
    a ∈ st.rows table ∨ load.table = table ∧ a ∈ sc.stored load := by
  by_cases ht : table = load.table
  · subst ht
    rw [st.rows_apply_self] at h
    exact (FirstWins.mem_insertAll h).imp_right fun h => ⟨rfl, h⟩
  · rw [st.rows_apply_of_ne ht] at h
    exact .inl h

lemma Store.countP_eq_one (st : Store sc)
    (h : (st.rows table).any (sc.conflict table · a) = true) :
    (st.rows table).countP (fun r => sc.key table r = sc.key table a) = 1 := by
  obtain ⟨b, hb, hkey⟩ := List.any_eq_true.mp h
  have hmem : sc.key table a ∈ (st.rows table).map (sc.key table) :=
    List.mem_map.mpr ⟨b, hb, (conflict_iff table b a).mp hkey⟩
  have hcount := List.count_eq_one_of_mem (st.unique table) hmem
  rw [List.count, List.countP_map] at hcount
  rw [← hcount]
  exact List.countP_congr fun r _ => by simp

lemma delivered_of_has {j : Job V} (hs : j.result.status = .success)
    (h : ∀ load ∈ j.loads, st.Has load) : Delivered st j := by
  obtain ⟨P, -, -, hok⟩ := (committedLog j.world).execute j.cfg j.file j.start
  obtain ⟨-, hfail, hall⟩ := hok hs
  obtain ⟨hloads, -⟩ := (attempt_execute j.world j.cfg j.file j.start).2 hs
  refine ⟨batches_flatten _ _ hfail, hall, fun p hp => ?_⟩
  obtain ⟨load, hload, htable, hrow⟩ := exists_load_of_row hall hp
  rw [← hloads] at hload
  obtain ⟨q, hq, henc⟩ := exists_tuple hrow
  refine ⟨q.1, q.2, henc, st.countP_eq_one ?_⟩
  rw [← htable]
  exact h load hload _ (List.mem_map.mpr ⟨q, hq, rfl⟩)

/-! ### What a call knows -/

section knows

variable {j : Job V} {n : ℕ} {deps : Deps}

/-- The call has committed `n` loads, and these are all, and it returns a success. -/
def Complete (j : Job V) (n : ℕ) : Prop := n = j.loads.length ∧ j.result.status = .success

/-- What the control points behind a success know. -/
def Knows (j : Job V) (n : ℕ) : Pc → Prop
  | .markSuccess result => Complete j n ∧ result = j.result
  | .saveQuality _ _ | .checkQualityAlert _ | .archiveAfterSuccess | .markArchived _
  | .recordSuccess => Complete j n
  | _ => True

lemma knows_dispatch (h : n = j.loads.length) (m : ℕ) :
    Knows j n (FileProcessor.dispatch m j.result) := by
  unfold FileProcessor.dispatch
  rcases hs : j.result.status
  · exact ⟨⟨h, hs⟩, rfl⟩
  all_goals trivial

lemma knows_afterRetry : Knows j n (afterRetry deps) := by
  unfold afterRetry
  split_ifs <;> trivial

lemma knows_afterFailure (result : PipelineResult) : Knows j n (afterFailure deps result) := by
  unfold afterFailure
  split_ifs <;> trivial

lemma knows_onRaise (e : Exc) {pc : Pc} (h : Knows j n pc) : Knows j n (onRaise e pc) := by
  cases pc <;> first | exact h | trivial

lemma knows_resume_result (hn : n = j.loads.length) {pc : Pc} (h : Knows j n pc) :
    Knows j n (resume deps pc (.result j.result)) := by
  cases pc with
  | execute m => exact knows_dispatch hn m
  | _ => exact h

lemma knows_resume {pc : Pc} {a : Answer} (ha : ∀ result, a ≠ .result result)
    (h : Knows j n pc) : Knows j n (resume deps pc a) := by
  fun_cases resume deps pc a
  all_goals first
    | exact knows_onRaise _ h
    | exact knows_afterRetry
    | exact knows_afterFailure _
    | exact absurd rfl (ha _)
    | exact h
    | exact h.1
    | trivial

end knows

/-! ### What a step of the protocol does -/

section protocol

open ClaimProtocol (Live isGrant)

variable {w : ℕ → ClaimProtocol.Worker} {deps : Deps} {s : ClaimProtocol.State}

lemma runs_dbStep (w : ℕ → ClaimProtocol.Worker) (deps : Deps) (s : ClaimProtocol.State) (r : ℕ)
    (c : Call) : (s.dbStep w deps r c).runs =
      Function.update s.runs r { s.runs r with
        pc := resume deps (s.runs r).pc (.db (s.perform w r c).1)
        grantedAt := if isGrant c (s.perform w r c).1 then some s.clock
          else (s.runs r).grantedAt } := rfl

lemma step_db_cases (w : ℕ → ClaimProtocol.Worker) (deps : Deps) (s : ClaimProtocol.State)
    (r : ℕ) : ClaimProtocol.step w deps s (.db r) = s ∨
      ∃ c, ClaimProtocol.step w deps s (.db r) = s.dbStep w deps r c := by
  rcases hst : (s.runs r).stopped with _ | _
  swap
  · exact .inl (by simp [ClaimProtocol.step, hst])
  rcases hc : (s.runs r).pc.dbCall with _ | c
  · exact .inl (by simp [ClaimProtocol.step, hst, hc])
  · exact .inr ⟨c, by simp [ClaimProtocol.step, hst, hc]⟩

lemma pc_step (w : ℕ → ClaimProtocol.Worker) (deps : Deps) (s : ClaimProtocol.State)
    (e : ClaimProtocol.Event) (r : ℕ) :
    ((ClaimProtocol.step w deps s e).runs r).pc = (s.runs r).pc ∨
      ∃ a, ((ClaimProtocol.step w deps s e).runs r).pc = resume deps (s.runs r).pc a ∧
        (e = .call r a ∨ ∃ reply, a = .db reply) := by
  cases e with
  | tick d => exact .inl rfl
  | retryFile fileId => exact .inl rfl
  | stop r' =>
    left
    by_cases h : r = r'
    · subst h
      simp [ClaimProtocol.step, ClaimProtocol.State.setRun]
    · simp [ClaimProtocol.step, ClaimProtocol.State.setRun, Function.update_of_ne h]
  | call r' a =>
    unfold ClaimProtocol.step
    dsimp only
    split_ifs
    · -- a database call is answered by the table, not from outside
      exact .inl rfl
    · by_cases h : r = r'
      · subst h
        exact .inr ⟨a, by simp [ClaimProtocol.State.setRun], .inl rfl⟩
      · exact .inl (by simp [ClaimProtocol.State.setRun, Function.update_of_ne h])
  | db r' =>
    rcases step_db_cases w deps s r' with h | ⟨c, h⟩
    · exact .inl (by rw [h])
    · rw [h, runs_dbStep]
      by_cases he : r = r'
      · subst he
        exact .inr ⟨_, by rw [Function.update_self], .inr ⟨_, rfl⟩⟩
      · exact .inl (by rw [Function.update_of_ne he])

lemma isSome_grantedAt_step {r : ℕ} (h : (s.runs r).grantedAt.isSome = true)
    (e : ClaimProtocol.Event) :
    ((ClaimProtocol.step w deps s e).runs r).grantedAt.isSome = true := by
  cases e with
  | tick d => exact h
  | retryFile fileId => exact h
  | stop r' =>
    by_cases he : r = r'
    · subst he
      simpa [ClaimProtocol.step, ClaimProtocol.State.setRun] using h
    · simpa [ClaimProtocol.step, ClaimProtocol.State.setRun, Function.update_of_ne he] using h
  | call r' a =>
    rw [(ClaimProtocol.step_call w deps s r' a).2.2.2]
    exact h
  | db r' =>
    rcases step_db_cases w deps s r' with h' | ⟨c, h'⟩
    · rw [h']
      exact h
    · rw [h', runs_dbStep]
      by_cases he : r = r'
      · subst he
        rw [Function.update_self]
        dsimp only
        split_ifs
        · rfl
        · exact h
      · rw [Function.update_of_ne he]
        exact h

lemma isSome_grantedAt_of_live (h : ∀ r, Live s r → (s.runs r).grantedAt.isSome = true)
    {e : ClaimProtocol.Event} {r : ℕ} (hl : Live (ClaimProtocol.step w deps s e) r) :
    ((ClaimProtocol.step w deps s e).runs r).grantedAt.isSome = true := by
  rcases ClaimProtocol.live_step hl with hl | ⟨m, rfl, hst, hpc, hg⟩
  · exact isSome_grantedAt_step (h r hl) e
  · have hcall : (s.runs r).pc.dbCall = some (.tryClaim m) := by
      rw [hpc]
      rfl
    have hstep : ClaimProtocol.step w deps s (.db r) = s.dbStep w deps r (.tryClaim m) := by
      simp [ClaimProtocol.step, hst, hcall]
    rw [hstep, runs_dbStep, Function.update_self]
    dsimp only
    rw [if_pos hg]
    rfl

lemma pc_of_markSuccess {pc : Pc} {rc vc ms : ℕ} (h : pc.dbCall = some (.markSuccess rc vc ms)) :
    ∃ result, pc = .markSuccess result ∧ rc = result.rawCount ∧ vc = result.validCount := by
  cases pc <;> simp only [Pc.dbCall, Option.some.injEq, reduceCtorEq] at h
  next result =>
    cases h
    exact ⟨result, rfl, rfl, rfl⟩

/-- A row with the status `SUCCESS` had it, with the same counts, or a call on its file has just
marked it so, with the counts of the result it has. -/
lemma success_row_step {e : ClaimProtocol.Event} {k : Key} {row : Row}
    (h : (ClaimProtocol.step w deps s e).table.row k = some row) (hs : row.status = .success) :
    (∃ row₀, s.table.row k = some row₀ ∧ row₀.status = .success ∧
        row.rowCount = row₀.rowCount ∧ row.validRowCount = row₀.validRowCount) ∨
      ∃ r result, (w r).key = k ∧ (s.runs r).pc = .markSuccess result ∧
        row.rowCount = result.rawCount ∧ row.validRowCount = result.validCount := by
  rcases ClaimProtocol.row_step w deps s e k with heq | ⟨fileId, rfl, heq⟩ |
    ⟨r, c, rfl, hst, hcall, hk, heq⟩
  · exact .inl ⟨row, heq.symm.trans h, hs, rfl, rfl⟩
  · rw [h] at heq
    rcases hrow : s.table.row k with _ | row₀
    · rw [hrow] at heq
      cases heq
    · rw [hrow] at heq
      obtain rfl := Option.some.inj heq
      -- only a FAILED row is reset
      unfold Row.retry at hs ⊢
      split_ifs at hs ⊢
      exact .inl ⟨row₀, rfl, hs, rfl, rfl⟩
  · rw [h] at heq
    rcases row_perform_cases heq.symm with hrow | ⟨-, ⟨-, rfl⟩ | ⟨row₀, hrow, hch⟩⟩
    · exact .inl ⟨row, hrow, hs, rfl, rfl⟩
    · cases hs
    · cases hch with
      | claim hcl =>
        -- a claim sets the status to CLAIMED
        rw [onDuplicateKey_status hcl] at hs
        cases hs
      | success rc vc ms =>
        obtain ⟨result, hpc, hcounts⟩ := pc_of_markSuccess hcall
        exact .inr ⟨r, result, hk, hpc, hcounts⟩
      | archived path hs₀ =>
        -- `mark_archived` writes the path alone: the counts are those of before
        exact .inl ⟨row₀, hrow, hs₀, rfl, rfl⟩
      | start _ _ => cases hs
      | failed _ _ => cases hs
      | skipped _ => cases hs

end protocol

/-! ### The invariant -/

variable {w : ℕ → ClaimProtocol.Worker} {deps : Deps} {job : ℕ → Job V} {store : Store sc}
  {s : State sc}

/-- The tables are accounted for, a call behind its success has committed all its loads, a row with
the status `SUCCESS` names such a call, and no call is at work without a grant. -/
structure Inv (w : ℕ → ClaimProtocol.Worker) (job : ℕ → Job V) (store : Store sc) (s : State sc) :
    Prop where
  accounted : Accounted job store s
  knows : ∀ r, Knows (job r) (s.done r) (s.proto.runs r).pc
  success : ∀ k row, s.proto.table.row k = some row → row.status = .success →
    ∃ r, (w r).key = k ∧ Complete (job r) (s.done r) ∧
      row.rowCount = (job r).result.rawCount ∧ row.validRowCount = (job r).result.validCount
  granted : ∀ r, ClaimProtocol.Live s.proto r → (s.proto.runs r).grantedAt.isSome = true

lemma inv_init (w : ℕ → ClaimProtocol.Worker) (job : ℕ → Job V) (store : Store sc) :
    Inv w job store (init store) where
  accounted :=
    { kept := fun _ => List.prefix_refl _
      has := fun r load h => by simp [init] at h
      origin := fun _ _ ha => .inl ha }
  knows _ := trivial
  success _ _ h := by cases h
  granted _ h := absurd rfl h.2

lemma Inv.proto (h : Inv w job store s) (e : ClaimProtocol.Event)
    (hknows : ∀ r, Knows (job r) (s.done r) ((ClaimProtocol.step w deps s.proto e).runs r).pc) :
    Inv w job store { s with proto := ClaimProtocol.step w deps s.proto e } where
  accounted :=
    { kept := h.accounted.kept
      has := h.accounted.has
      origin := fun table a ha => by
        rcases h.accounted.origin table a ha with h0 | ⟨r, load, hg, hload⟩
        · exact .inl h0
        · exact .inr ⟨r, load, isSome_grantedAt_step hg e, hload⟩ }
  knows := hknows
  success k row hrow hs := by
    rcases success_row_step hrow hs with ⟨row₀, hrow₀, hs₀, h1, h2⟩ | ⟨r, result, hk, hpc, h1, h2⟩
    · rw [h1, h2]
      exact h.success k row₀ hrow₀ hs₀
    · have hr := h.knows r
      rw [hpc] at hr
      obtain ⟨hcomplete, rfl⟩ := hr
      exact ⟨r, hk, hcomplete, h1, h2⟩
  granted _ hl := isSome_grantedAt_of_live h.granted hl

lemma live_of_execute {p : ClaimProtocol.State} {r : ℕ} (hst : (p.runs r).stopped = false)
    (hpc : isExecute (p.runs r).pc = true) : ClaimProtocol.Live p r := by
  refine ⟨hst, ?_⟩
  revert hpc
  cases (p.runs r).pc <;> simp [isExecute, Pc.phase]

lemma knows_execute {j : Job V} {pc : Pc} (hpc : isExecute pc = true) (n : ℕ) : Knows j n pc := by
  cases pc <;> trivial

/-- The tables stay accounted for when a call with a grant commits its next load. -/
lemma Accounted.commit (h : Accounted job store s) {r : ℕ}
    (hg : (s.proto.runs r).grantedAt.isSome = true) {load : Load V}
    (hload : (job r).loads[s.done r]? = some load) :
    Accounted job store { s with
      store := s.store.apply load
      done := Function.update s.done r (s.done r + 1) } := by
  have htake : (job r).loads.take (s.done r + 1) = (job r).loads.take (s.done r) ++ [load] := by
    rw [List.take_add_one, hload]
    rfl
  refine ⟨fun table => (h.kept table).trans (s.store.le_apply load table), ?_, ?_⟩
  · -- what was loaded is still there: no load takes a row away
    intro r' load' hmem
    dsimp only at hmem ⊢
    by_cases he : r' = r
    · subst he
      rw [Function.update_self, htake, List.mem_append, List.mem_singleton] at hmem
      rcases hmem with hmem | rfl
      · exact (h.has r' load' hmem).apply load
      · exact s.store.has_apply load'
    · rw [Function.update_of_ne he] at hmem
      exact (h.has r' load' hmem).apply load
  · -- a row is either from before or of this load
    intro table a ha
    rcases Store.mem_apply ha with ha | ⟨htable, ha⟩
    · rcases h.origin table a ha with h0 | ⟨r', load', hg', hmem, hrest⟩
      · exact .inl h0
      · refine .inr ⟨r', load', hg', ?_, hrest⟩
        dsimp only
        by_cases he : r' = r
        · subst he
          rw [Function.update_self, htake]
          exact List.mem_append_left _ hmem
        · rwa [Function.update_of_ne he]
    · refine .inr ⟨r, load, hg, ?_, htable, ha⟩
      dsimp only
      rw [Function.update_self, htake]
      exact List.mem_append_right _ (List.mem_singleton_self _)

lemma Inv.commit (h : Inv w job store s) {r : ℕ} (hst : (s.proto.runs r).stopped = false)
    (hpc : isExecute (s.proto.runs r).pc = true) {load : Load V}
    (hload : (job r).loads[s.done r]? = some load) :
    Inv w job store { s with
      store := s.store.apply load
      done := Function.update s.done r (s.done r + 1) } where
  accounted := h.accounted.commit (h.granted r (live_of_execute hst hpc)) hload
  knows r' := by
    by_cases he : r' = r
    · subst he
      exact knows_execute hpc _
    · dsimp only
      rw [Function.update_of_ne he]
      exact h.knows r'
  success k row hrow hs := by
    obtain ⟨r', hk, hcomplete, hcounts⟩ := h.success k row hrow hs
    have hlt : s.done r < (job r).loads.length := (List.getElem?_eq_some_iff.mp hload).1
    -- a run that has loads left has marked no success
    have he : r' ≠ r := by
      rintro rfl
      have := hcomplete.1
      omega
    refine ⟨r', hk, ?_, hcounts⟩
    dsimp only
    rw [Function.update_of_ne he]
    exact hcomplete
  granted := h.granted

/-- **The step lemma.** -/
lemma Inv.step (h : Inv w job store s) (e : Event) :
    Inv w job store (Delivery.step w deps job s e) := by
  cases e with
  | other e =>
    unfold Delivery.step
    dsimp only
    split_ifs with he
    · exact h
    · -- no step but `returns` brings a result to `execute`
      refine h.proto e fun r => ?_
      rcases pc_step w deps s.proto e r with hpc | ⟨a, hpc, ha⟩
      · rw [hpc]
        exact h.knows r
      · rw [hpc]
        refine knows_resume ?_ (h.knows r)
        rintro result rfl
        rcases ha with rfl | ⟨reply, ha⟩
        · exact he rfl
        · cases ha
  | commit r =>
    unfold Delivery.step
    dsimp only
    split_ifs with hc
    · exact h
    · rw [Bool.or_eq_true, not_or, Bool.not_eq_true, Bool.not_eq_true, Bool.not_eq_false'] at hc
      rcases hload : (job r).loads[s.done r]? with _ | load
      · exact h
      · exact h.commit hc.1 hc.2 hload
  | returns r =>
    unfold Delivery.step
    dsimp only
    split_ifs with hdone
    · refine h.proto _ fun r' => ?_
      rcases pc_step w deps s.proto (.call r (.result (job r).result)) r' with hpc | ⟨a, hpc, ha⟩
      · rw [hpc]
        exact h.knows r'
      · rw [hpc]
        rcases ha with ha | ⟨reply, rfl⟩
        · cases ha
          exact knows_resume_result hdone (h.knows _)
        · exact knows_resume (fun _ ha => by cases ha) (h.knows r')
    · exact h

lemma Inv.delivered (h : Inv w job store s) {r : ℕ} (hr : Complete (job r) (s.done r)) :
    Delivered s.store (job r) := by
  refine delivered_of_has hr.2 fun load hload => h.accounted.has r load ?_
  rwa [hr.1, List.take_length]

/-- **What is marked is there.** In every run, however the calls and their loads interleave, and
whichever of them raise, are overtaken or stop, a row with the status `SUCCESS` tells the truth:
some call on the file has read it to its end, all that the transform returned is in the tables,
under each of its keys exactly one row, and the counts are those of the call. -/
theorem always_successDelivered (w : ℕ → ClaimProtocol.Worker) (deps : Deps) (job : ℕ → Job V)
    (store : Store sc) (l : List Event) :
    Always (step w deps job) (SuccessDelivered w job) (init store) l := by
  have hinv : Always (step w deps job) (Inv w job store) (init store) l :=
    always_of_step (fun _ e h => h.step e) (inv_init w job store) l
  refine hinv.mono fun s h k row hrow hs => ?_
  obtain ⟨r, hk, hcomplete, hcounts⟩ := h.success k row hrow hs
  exact ⟨r, hk, h.delivered hcomplete, hcounts⟩

/-- **Nothing is archived that is not loaded.** In every run a file is moved to its archive, or
deleted there, only by a call that has delivered it. -/
theorem steps_archived_delivered (w : ℕ → ClaimProtocol.Worker) (deps : Deps) (job : ℕ → Job V)
    (store : Store sc) (l : List Event) :
    Steps (step w deps job) (fun s e => ∀ r, Archives s r e → Delivered s.store (job r))
      (init store) l := by
  have hany : Steps (step w deps job) (fun _ _ => True) (init store) l :=
    steps_of_forall fun _ _ => trivial
  refine steps_of_inv (I := Inv w job store) (fun _ e h _ => h.step e) ?_ (inv_init w job store)
    hany
  intro s e h _ r hr
  have hpc : (s.proto.runs r).pc = .archiveAfterSuccess := by
    unfold Archives at hr
    split at hr
    · exact hr.2.2
    · exact hr.elim
  have hknows := h.knows r
  rw [hpc] at hknows
  exact h.delivered hknows

/-- **Nothing is lost and nothing is made up.** In every run the tables are what they were and what
calls that were granted their files have committed. -/
theorem always_accounted (w : ℕ → ClaimProtocol.Worker) (deps : Deps) (job : ℕ → Job V)
    (store : Store sc) (l : List Event) :
    Always (step w deps job) (Accounted job store) (init store) l := by
  have hinv : Always (step w deps job) (Inv w job store) (init store) l :=
    always_of_step (fun _ e h => h.step e) (inv_init w job store) l
  exact hinv.mono fun _ h => h.accounted

/-! ### A file that is loaded again -/

/-- Calls on one file read the same, and make the same of it: the transform, where it returns, is a
function of its batch, and every row it returns names its month. -/
structure Repeatable (w : ℕ → ClaimProtocol.Worker) (job : ℕ → Job V)
    (f : List (Item V) → List (Item V)) : Prop where
  ops : ∀ r r', (w r).key = (w r').key → (job r).world.ops = (job r').world.ops
  strptimeYm : ∀ r r', (w r).key = (w r').key →
    (job r).world.strptimeYm = (job r').world.strptimeYm
  cfg : ∀ r r', (w r).key = (w r').key → (job r).cfg = (job r').cfg
  file : ∀ r r', (w r).key = (w r').key → (job r).file = (job r').file
  transform : ∀ r, Deterministic (job r).world f
  named : ∀ r, ∀ p ∈ (job r).batches, ∀ row ∈ outputOf (job r).cfg f p.1,
    (rowSuffix (job r).world (job r).cfg row).isSome = true

lemma Repeatable.subset {f : List (Item V) → List (Item V)} (h : Repeatable w job f) {r r' : ℕ}
    (hkey : (w r).key = (w r').key) (hs : (job r').result.status = .success) :
    (job r).loads ⊆ (job r').loads := by
  have hops := h.ops r r' hkey
  have hcfg := h.cfg r r' hkey
  have hfile := h.file r r' hkey
  have hbatches : (job r).batches = (job r').batches := by
    rw [Job.batches, Job.batches, hops, hcfg, hfile]
  obtain ⟨hpre, -⟩ := attempt_execute (job r).world (job r).cfg (job r).file (job r).start
  obtain ⟨heq, hok⟩ :=
    (attempt_execute (job r').world (job r').cfg (job r').file (job r').start).2 hs
  have hok' : ∀ p ∈ (job r).batches,
      ∃ out, Pipeline.transform (job r').world (job r).cfg p.2 p.1 = .ok out := by
    rw [hbatches, hcfg]
    exact hok
  have hle := emission_le Pipeline.loads hops (h.strptimeYm r r' hkey) (h.transform r)
    (h.transform r') (job r).batches hok' (h.named r) (job r).start.clockReads
    (job r').start.clockReads
  intro load hload
  have hmem := hle.subset (hpre.subset hload)
  rw [hbatches, hcfg] at hmem
  rw [Job.loads, heq]
  exact hmem

/-- **A late load does no harm.** Once a file is marked `SUCCESS`, a call that goes on loading it,
because it was overtaken or has been let in again, leaves the tables as they are. -/
theorem steps_store_of_success (w : ℕ → ClaimProtocol.Worker) (deps : Deps) (job : ℕ → Job V)
    (f : List (Item V) → List (Item V)) (h : Repeatable w job f) (store : Store sc)
    (l : List Event) :
    Steps (step w deps job) (fun s e => ∀ r row, e = .commit r →
      s.proto.table.row (w r).key = some row → row.status = .success →
      (step w deps job s e).store = s.store) (init store) l := by
  have hany : Steps (step w deps job) (fun _ _ => True) (init store) l :=
    steps_of_forall fun _ _ => trivial
  refine steps_of_inv (I := Inv w job store) (fun _ e h _ => h.step e) ?_ (inv_init w job store)
    hany
  rintro s e hinv - r row rfl hrow hs
  obtain ⟨r', hkey, hcomplete, -⟩ := hinv.success _ row hrow hs
  unfold step
  dsimp only
  split_ifs
  · rfl
  · rcases hload : (job r).loads[s.done r]? with _ | load
    · rfl
    · have hmem := h.subset hkey.symm hcomplete.2 (List.mem_of_getElem? hload)
      refine (hinv.accounted.has r' load ?_).apply_eq
      rwa [hcomplete.1, List.take_length]

/-- Both calls meet the small file in the small world. -/
def smallJob (_ : ℕ) : Job String := ⟨smallWorld, smallTask, smallFile, {}⟩

def emptyStore : Store keyedById := ⟨fun _ => [], fun _ => List.nodup_nil⟩

/-- The first call loads two tables and is overtaken; the second loads the file and marks it; the
first goes on. -/
def overtaken : List Event :=
  [.other (.call 0 (.task (some 3))), .other (.db 0), .other (.db 0), .commit 0, .commit 0,
    .other (.tick 601000000), .other (.call 1 (.task (some 3))), .other (.db 1), .other (.db 1),
    .commit 1, .commit 1, .commit 1, .returns 1, .other (.db 1), .commit 0]

theorem steps_store_of_success_overtaken :
    let s := overtaken.foldl (step ClaimSafety.twoInstances {} smallJob)
      (init emptyStore)
    s.done 0 = 3 ∧ s.done 1 = 3 ∧
    (s.proto.table.row ⟨"t", "/in/x.csv", 0⟩).map Row.status = some .success ∧
    Steps (step ClaimSafety.twoInstances {} smallJob) (fun s e => ∀ r row, e = .commit r →
      s.proto.table.row (ClaimSafety.twoInstances r).key = some row → row.status = .success →
      (step ClaimSafety.twoInstances {} smallJob s e).store = s.store)
      (init emptyStore) overtaken := by
  have hnamed : ∀ p ∈ (smallJob 0).batches, ∀ row ∈ outputOf (smallJob 0).cfg id p.1,
      (rowSuffix (smallJob 0).world (smallJob 0).cfg row).isSome = true := by
    decide +kernel
  have hrep : Repeatable ClaimSafety.twoInstances smallJob id :=
    { ops := fun _ _ _ => rfl
      strptimeYm := fun _ _ _ => rfl
      cfg := fun _ _ _ => rfl
      file := fun _ _ _ => rfl
      transform := fun _ _ _ _ h => by cases h; rfl
      named := fun _ => hnamed }
  refine ⟨by decide +kernel, by decide +kernel, by decide +kernel, ?_⟩
  exact steps_store_of_success _ _ _ _ hrep _ _

end Tdcs.Delivery
