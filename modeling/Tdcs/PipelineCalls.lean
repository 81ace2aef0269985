import Tdcs.Lib.Calls
import Tdcs.LoadExact

/-!
The calls a run makes to the database: in which order, for which groups, and what becomes of an
exception each of them raises.
-/

namespace Tdcs.Pipeline

open Tdcs.Lib Tdcs.Extractor

variable {V : Type*} (w : World V) (cfg : TaskConfig)

/-- Where a call to the database stands: not below `_load_with_retry`, or below it. -/
inductive Site
  | bare
  | load (table : String)
  deriving DecidableEq, Repr

/-- What an exception of the call becomes on its way out of `execute`'s `try`. -/
def Site.surface : Site → Exc → Exc
  | .bare, e => e
  | .load table, e =>
    if isTransient e then .retryable ("DB transient error on " ++ table ++ ": " ++ e.str)
    else .fatal ("Load failed on " ++ table ++ ": " ++ e.str)

/-- The database as the outside of the pipeline. -/
def database : Prog.Outside (State V) Exc Site where
  count := State.dbCalls
  raised n := match w.db n with
    | .ok _ => none
    | .raise e _ => some e
  surface := Site.surface

/-- The transaction that creates the table and registers it, once for each router. -/
def ensurePlan (created : List String) (table : String) : List Site :=
  if table ∈ created then [] else List.replicate 3 .bare

/-- The connection, the statements and the commit of `load_batch`. -/
def loadPlan (table : String) (rows : List (Row V)) : List Site :=
  if rows.isEmpty then [] else List.replicate ((statements table rows).length + 2) (.load table)

/-- `_created` once the table has been seen to. -/
def seen (created : List String) (table : String) : List String :=
  if table ∈ created then created else created ++ [table]

def groupsPlan (created : List String) : List (String × List (Row V)) → List Site
  | [] => []
  | (table, rows) :: groups =>
    ensurePlan created table ++ loadPlan table rows ++ groupsPlan (seen created table) groups

/-- The groups of a batch whose transform returns `out`, when the clock has been read `k` times. -/
def groupsOf (k : ℕ) (out : List (Item V)) : List (String × List (Row V)) :=
  (Dict.group (tagged w cfg k (rowsOf out))).entries

/-- The calls the batches make if none of them raises, as far as the transforms return. -/
def runPlan : List String → ℕ → List (List (Item V) × ℕ) → List Site
  | _, _, [] => []
  | created, k, p :: ps =>
    match transform w cfg p.2 p.1 with
    | .error _ => []
    | .ok out =>
      let groups := groupsOf w cfg k out
      groupsPlan created groups ++
        runPlan (groups.foldl (fun created g => seen created g.1) created)
          (k + (rowsOf out).length) ps

/-- A turn up to the loop over the groups. -/
def route (p : List (Item V) × ℕ) : Prog (State V) Exc (List (String × List (Row V))) :=
  Prog.andThen (Prog.update fun s => { s with rawCount := s.rawCount + p.1.length }) fun _ =>
  Prog.andThen (Prog.ofExcept (transform w cfg p.2 p.1)) fun transformed =>
  let split := splitRows p.1 transformed
  Prog.andThen (Prog.update fun s => { s with
    validCount := s.validCount + split.1.length
    errorCount := s.errorCount + (p.1.length - split.1.length)
    errorRows := s.errorRows ++ split.2 }) fun _ =>
  if split.1.isEmpty then Prog.ret []
  else Prog.andThen (groupByTable w cfg split.1) fun grouped => Prog.ret grouped.entries

/-- The router has seen to the table or does not refuse its name, and no row has the key `None`. -/
def GroupOk (created : List String) (g : String × List (Row V)) : Prop :=
  (g.1 ∈ created ∨ validateTableName g.1 = none) ∧ none ∉ (prepareRows g.2).1

/-- Transforms and loads raise nothing of their own in these batches. -/
def Passes (created : List String) : ℕ → List (List (Item V) × ℕ) → Prop
  | _, [] => True
  | k, p :: ps =>
    match transform w cfg p.2 p.1 with
    | .error _ => False
    | .ok out => (∀ g ∈ groupsOf w cfg k out, GroupOk created g) ∧
        Passes created (k + (rowsOf out).length) ps

/-- What the pipeline raises of its own. -/
structure OwnErrors (E : Exc → Prop) : Prop where
  ofCode : ∀ e, (∀ msg, e ≠ .skipFile msg) → E e
  transform : ∀ i batch e, transform w cfg i batch = .error e → E e

variable {w cfg} in
lemma ownErrors_true : OwnErrors w cfg fun _ => True := ⟨fun _ _ => trivial, fun _ _ _ _ => trivial⟩

/-! ### Each function's calls -/

section calls

variable {w cfg} {E : Exc → Prop} (hE : OwnErrors w cfg E)

/-- `Calls` of the database. -/
abbrev DbCalls {α : Type*} (w : World V) (E : Exc → Prop) (m : Prog (State V) Exc α) (s : State V)
    (L : List Site) (P : Prop) (Q : α → State V → Prop) : Prop :=
  Prog.Calls (database w) E m s L P Q

/-- The clock and the created tables of two states are the same. -/
def SameRouter (s s' : State V) : Prop := s'.clockReads = s.clockReads ∧ s'.created = s.created

lemma calls_ask {α : Type*} {m : Prog (State V) Exc α} {s : State V}
    (hcount : (m s).2.dbCalls = s.dbCalls + 1) (hsame : SameRouter s (m s).2)
    (hret : ∀ n, w.db s.dbCalls = .ok n → ∃ a, (m s).1 = .ok a)
    (herr : ∀ e applied, w.db s.dbCalls = .raise e applied → (m s).1 = .error e) :
    DbCalls w E m s [.bare] True fun _ s' => SameRouter s s' := by
  refine Prog.calls_one hcount ?_ ?_
  · intro h
    rcases hdb : w.db s.dbCalls with n | ⟨e, applied⟩
    · obtain ⟨a, ha⟩ := hret n hdb
      exact ⟨a, ha, hsame⟩
    · simp [database, hdb] at h
  · intro e h
    rcases hdb : w.db s.dbCalls with n | ⟨e', applied⟩
    · simp [database, hdb] at h
    · obtain rfl : e' = e := by simpa [database, hdb] using h
      exact herr e' applied hdb

lemma calls_dbCall (s : State V) :
    DbCalls w E (dbCall w) s [.bare] True fun _ s' => SameRouter s s' := by
  apply calls_ask
  · simp
  · simp [SameRouter]
  · intro n h
    exact ⟨n, by simp [dbCall, h]⟩
  · intro e applied h
    simp [dbCall, h]

lemma calls_executemany (stmt : Statement V) (s : State V) :
    DbCalls w E (executemany w stmt) s [.bare] True fun _ s' => SameRouter s s' := by
  apply calls_ask
  · simp
  · simp [SameRouter]
  · intro n h
    exact ⟨n, by simp [executemany, h]⟩
  · intro e applied h
    simp [executemany, h]

lemma calls_commit (load : Load V) (s : State V) :
    DbCalls w E (commit w load) s [.bare] True fun _ s' => SameRouter s s' := by
  have hstate : (commit w load s).2.dbCalls = s.dbCalls + 1 ∧
      (commit w load s).2.created = s.created := by
    unfold commit
    rcases w.db s.dbCalls with n | ⟨e, _ | _⟩ <;> exact ⟨rfl, rfl⟩
  apply calls_ask
  · exact hstate.1
  · exact ⟨commit_clockReads w load s, hstate.2⟩
  · intro n h
    exact ⟨(), by simp [commit, h]⟩
  · intro e applied h
    simp [commit, h]

lemma SameRouter.trans {s s' s'' : State V} (h : SameRouter s s') (h' : SameRouter s' s'') :
    SameRouter s s'' :=
  ⟨h'.1.trans h.1, h'.2.trans h.2⟩

lemma calls_executeChunks (stmts : List (Statement V)) (s : State V) :
    DbCalls w E (executeChunks w stmts) s (List.replicate stmts.length .bare) True
      fun _ s' => SameRouter s s' := by
  induction stmts generalizing s with
  | nil => exact Prog.calls_ret ⟨rfl, rfl⟩
  | cons stmt stmts ih =>
    have h : DbCalls w E (executeChunks w (stmt :: stmts)) s
        ([.bare] ++ (List.replicate stmts.length .bare ++ [])) True fun _ s' => SameRouter s s' :=
      (calls_executemany stmt s).andThen_free fun n s₁ h₁ => (ih s₁).andThen_free
        fun m s₂ h₂ => Prog.calls_ret (h₁.trans h₂)
    exact h.of_eq (by simp [List.replicate_succ]) Iff.rfl

lemma calls_send (table : String) (rows : List (Row V)) (s : State V) :
    DbCalls w E (Prog.andThen (dbCall w) fun _ =>
        Prog.andThen (executeChunks w (statements table rows)) fun written =>
        Prog.andThen (commit w ⟨table, rows⟩) fun _ => Prog.ret written) s
      (List.replicate ((statements table rows).length + 2) .bare) True
      fun _ s' => SameRouter s s' := by
  have hlen : List.replicate ((statements table rows).length + 2) Site.bare =
      [.bare] ++ (List.replicate (statements table rows).length .bare ++ ([.bare] ++ [])) := by
    rw [List.append_nil, ← List.replicate_succ', List.singleton_append, ← List.replicate_succ]
  rw [hlen]
  exact (calls_dbCall s).andThen_free fun _ s₁ h₁ => (calls_executeChunks _ s₁).andThen_free
    fun n s₂ h₂ => (calls_commit _ s₂).andThen_free fun _ s₃ h₃ =>
      Prog.calls_ret ((h₁.trans h₂).trans h₃)

include hE in
lemma calls_loadBatch (table : String) (rows : List (Row V)) (s : State V) :
    DbCalls w E (loadBatch w table rows) s
      (if rows.isEmpty then [] else List.replicate ((statements table rows).length + 2) .bare)
      (none ∉ (prepareRows rows).1) fun _ s' => SameRouter s s' := by
  unfold loadBatch
  split_ifs with hempty hnone
  · rw [List.isEmpty_iff.1 hempty]
    exact (Prog.calls_ret ⟨rfl, rfl⟩).of_eq rfl (by simp [prepareRows, unionKeys])
  · exact (Prog.calls_raise (hE.ofCode _ (by simp))).of_eq rfl (by simp [hnone])
  · exact (calls_send table rows s).of_eq rfl (by simp [hnone])

include hE in
lemma calls_loadWithRetry (table : String) (rows : List (Row V)) (s : State V) :
    DbCalls w E (loadWithRetry w table rows) s (loadPlan table rows)
      (none ∉ (prepareRows rows).1) fun _ s' => SameRouter s s' := by
  have hload := (calls_loadBatch hE table rows s).handle (t := fun _ => .load table)
    (g := (Site.load table).surface) (h := fun e => if isTransient e then
      Prog.raise (.retryable ("DB transient error on " ++ table ++ ": " ++ e.str))
      else Prog.raise (.fatal ("Load failed on " ++ table ++ ": " ++ e.str)))
    (fun e s' => by
      unfold Site.surface
      dsimp only
      split_ifs <;> rfl)
    (fun k hk e => by
      obtain rfl : k = .bare := by
        split_ifs at hk
        · cases hk
        · exact List.eq_of_mem_replicate hk
      rfl)
    (fun e _ => hE.ofCode _ fun msg => by
      unfold Site.surface
      dsimp only
      split_ifs <;> simp)
  refine hload.of_eq ?_ Iff.rfl
  unfold loadPlan
  split_ifs
  · rfl
  · exact List.map_replicate

include hE in
lemma calls_ensureTableExists (table : String) (s : State V) :
    DbCalls w E (ensureTableExists w table) s (ensurePlan s.created table)
      (table ∈ s.created ∨ validateTableName table = none)
      fun _ s' => s'.clockReads = s.clockReads ∧ s'.created = seen s.created table := by
  have hread : ensureTableExists w table s =
      (if table ∈ s.created then Prog.ret ()
      else (validateTableName table).elim
        (Prog.andThen (dbCall w) fun _ => Prog.andThen (dbCall w) fun _ =>
          Prog.andThen (dbCall w) fun _ =>
            Prog.update fun s => { s with created := s.created ++ [table] })
        fun msg => Prog.raise (.other "ValueError" msg)) s := by
    unfold ensureTableExists
    rw [Prog.andThen_of_ok (a := s.created) rfl]
    cases validateTableName table <;> rfl
  refine Prog.Calls.congr ?_ hread
  unfold ensurePlan seen
  split_ifs with hmem
  · exact (Prog.calls_ret ⟨rfl, rfl⟩).of_eq rfl (by simp [hmem])
  · rcases validateTableName table with _ | msg
    · have h : DbCalls w E (Prog.andThen (dbCall w) fun _ => Prog.andThen (dbCall w) fun _ =>
            Prog.andThen (dbCall w) fun _ => (Prog.update fun s =>
              { s with created := s.created ++ [table] } : Prog (State V) Exc Unit)) s
          ([.bare] ++ ([.bare] ++ ([.bare] ++ []))) True
          fun _ s' => s'.clockReads = s.clockReads ∧ s'.created = s.created ++ [table] :=
        (calls_dbCall s).andThen_free fun _ s₁ h₁ => (calls_dbCall s₁).andThen_free
          fun _ s₂ h₂ => (calls_dbCall s₂).andThen_free fun _ s₃ h₃ => by
            have h₁₃ := (h₁.trans h₂).trans h₃
            exact Prog.calls_silent rfl rfl ⟨h₁₃.1, by rw [← h₁₃.2]; rfl⟩
      exact h.of_eq rfl (by simp)
    · exact (Prog.calls_raise (hE.ofCode _ (by simp))).of_eq rfl (by simp [hmem])

include hE in
lemma calls_loadGroup (g : String × List (Row V)) (s : State V) :
    DbCalls w E (loadGroup w g) s (ensurePlan s.created g.1 ++ loadPlan g.1 g.2)
      (GroupOk s.created g)
      fun _ s' => s'.clockReads = s.clockReads ∧ s'.created = seen s.created g.1 := by
  have h := (calls_ensureTableExists hE g.1 s).andThen fun _ s₁ h₁ =>
    (calls_loadWithRetry hE g.1 g.2 s₁).andThen_free (f := fun _ => Prog.ret ())
      (R := fun _ s' => s'.clockReads = s.clockReads ∧ s'.created = seen s.created g.1)
      fun _ s₂ h₂ => Prog.calls_ret ⟨h₂.1.trans h₁.1, h₂.2.trans h₁.2⟩
  exact h.of_eq (by rw [List.append_nil]) Iff.rfl

lemma groupOk_seen {created : List String} {g g' : String × List (Row V)}
    (hg : GroupOk created g) : GroupOk (seen created g.1) g' ↔ GroupOk created g' := by
  unfold GroupOk seen
  split_ifs with hmem
  · exact Iff.rfl
  · have hname : validateTableName g.1 = none := hg.1.resolve_left hmem
    refine and_congr_left fun _ => ?_
    rw [List.mem_append, List.mem_singleton]
    constructor
    · rintro ((h | h) | h)
      · exact .inl h
      · exact .inr (h ▸ hname)
      · exact .inr h
    · rintro (h | h)
      · exact .inl (.inl h)
      · exact .inr h

include hE in
lemma calls_groups (groups : List (String × List (Row V))) (s : State V) :
    DbCalls w E (Prog.forEach (loadGroup w) groups) s (groupsPlan s.created groups)
      (∀ g ∈ groups, GroupOk s.created g) fun _ s' => s'.clockReads = s.clockReads ∧
        s'.created = groups.foldl (fun created g => seen created g.1) s.created := by
  induction groups generalizing s with
  | nil => exact (Prog.calls_ret ⟨rfl, rfl⟩).of_eq rfl (by simp)
  | cons g groups ih =>
    have h := (calls_loadGroup hE g s).andThen (f := fun _ => Prog.forEach (loadGroup w) groups)
      (M := groupsPlan (seen s.created g.1) groups)
      (R := fun _ s' => s'.clockReads = s.clockReads ∧
        s'.created = groups.foldl (fun created g => seen created g.1) (seen s.created g.1))
      fun _ s₁ h₁ => by
        have hrest := ih s₁
        rw [h₁.1, h₁.2] at hrest
        exact hrest
    refine h.of_eq rfl ?_
    rw [List.forall_mem_cons]
    exact and_congr_right fun hg => forall₂_congr fun _ _ => groupOk_seen hg

lemma turn_eq (p : List (Item V) × ℕ) :
    turn w cfg p = (route w cfg p).andThen fun groups => Prog.forEach (loadGroup w) groups := by
  funext s
  rcases h : transform w cfg p.2 p.1 with e | out
  · simp [turn, route, Prog.andThen, Prog.update, Prog.ofExcept, h]
  · simp only [turn, route, Prog.andThen, Prog.update, Prog.ofExcept, h]
    split_ifs with hempty
    · rfl
    · rfl

lemma route_of_ok {p : List (Item V) × ℕ} {out : List (Item V)}
    (h : transform w cfg p.2 p.1 = .ok out) (s : State V) :
    (route w cfg p s).1 = .ok (groupsOf w cfg s.clockReads out) ∧
      (route w cfg p s).2.dbCalls = s.dbCalls ∧ (route w cfg p s).2.created = s.created ∧
      (route w cfg p s).2.clockReads = s.clockReads + (rowsOf out).length := by
  simp only [route, Prog.andThen, Prog.update, Prog.ofExcept, h, splitRows_fst]
  split_ifs with hempty
  · have hrows := List.isEmpty_iff.1 hempty
    simp [Prog.ret, groupsOf, hrows, tagged, Dict.group]
    rfl
  · exact ⟨rfl, rfl, rfl, rfl⟩

lemma route_of_error {p : List (Item V) × ℕ} {e : Exc} (h : transform w cfg p.2 p.1 = .error e)
    (s : State V) :
    (route w cfg p s).1 = .error e ∧ (route w cfg p s).2.dbCalls = s.dbCalls := by
  simp [route, Prog.andThen, Prog.update, Prog.ofExcept, h]

include hE in
lemma calls_turn {p : List (Item V) × ℕ} {out : List (Item V)}
    (h : transform w cfg p.2 p.1 = .ok out) (s : State V) :
    DbCalls w E (turn w cfg p) s (groupsPlan s.created (groupsOf w cfg s.clockReads out))
      (∀ g ∈ groupsOf w cfg s.clockReads out, GroupOk s.created g) fun _ s' =>
        s'.clockReads = s.clockReads + (rowsOf out).length ∧ s'.created =
          (groupsOf w cfg s.clockReads out).foldl
            (fun created g => seen created g.1) s.created := by
  obtain ⟨hret, hcalls, hcreated, hclock⟩ := route_of_ok h s
  rw [turn_eq]
  have hroute : DbCalls w E (route w cfg p) s [] True fun groups s' =>
      groups = groupsOf w cfg s.clockReads out ∧ s'.created = s.created ∧
        s'.clockReads = s.clockReads + (rowsOf out).length :=
    Prog.calls_silent hret hcalls ⟨rfl, hcreated, hclock⟩
  refine (hroute.andThen fun groups s₁ h₁ => ?_).of_eq (List.nil_append _) (by rw [true_and])
  obtain ⟨rfl, hcreated₁, hclock₁⟩ := h₁
  rw [← hcreated₁, ← hclock₁]
  exact calls_groups hE _ s₁

lemma groupOk_foldl {created : List String} {groups : List (String × List (Row V))}
    (h : ∀ g ∈ groups, GroupOk created g) (g' : String × List (Row V)) :
    GroupOk (groups.foldl (fun created g => seen created g.1) created) g' ↔ GroupOk created g' := by
  induction groups generalizing created with
  | nil => exact Iff.rfl
  | cons g groups ih =>
    have hg := h g List.mem_cons_self
    rw [List.foldl_cons, ih, groupOk_seen hg]
    intro g'' hg''
    exact (groupOk_seen hg).2 (h g'' (List.mem_cons_of_mem _ hg''))

lemma passes_congr {created created' : List String}
    (h : ∀ g : String × List (Row V), GroupOk created g ↔ GroupOk created' g) (k : ℕ)
    (ps : List (List (Item V) × ℕ)) : Passes w cfg created k ps ↔ Passes w cfg created' k ps := by
  induction ps generalizing k with
  | nil => exact Iff.rfl
  | cons p ps ih =>
    rcases ht : transform w cfg p.2 p.1 with e | out
    · simp only [Passes, ht]
    · simp only [Passes, ht, h, ih]

include hE in
/-- **The calls of a run.** -/
theorem calls_turns (ps : List (List (Item V) × ℕ)) (s : State V) :
    DbCalls w E (Prog.forEach (turn w cfg) ps) s (runPlan w cfg s.created s.clockReads ps)
      (Passes w cfg s.created s.clockReads ps) fun _ _ => True := by
  induction ps generalizing s with
  | nil => exact Prog.calls_ret trivial
  | cons p ps ih =>
    rcases ht : transform w cfg p.2 p.1 with e | out
    · -- the transform raises, and no call is made
      obtain ⟨herr, hcount⟩ := route_of_error ht s
      have hturn : DbCalls w E (turn w cfg p) s [] False fun _ _ => False := by
        rw [turn_eq]
        have hrun := Prog.andThen_of_error
          (f := fun groups => Prog.forEach (loadGroup w) groups) herr
        refine .own 0 e (Nat.zero_le _) (by simp) ?_ id (hE.transform _ _ _ ht) ?_
        · rw [hrun]
          exact hcount
        · rw [hrun]
      refine (hturn.andThen_free (f := fun _ => Prog.forEach (turn w cfg) ps) (M := [])
        fun _ _ hf => hf.elim).of_eq ?_ ?_
      · simp [runPlan, ht]
      · simp [Passes, ht]
    · have hrest := (calls_turn hE ht s).andThen (f := fun _ => Prog.forEach (turn w cfg) ps)
        (R := fun _ _ => True) fun _ s₁ h₁ => by
          have h := ih s₁
          rw [h₁.1, h₁.2] at h
          exact h
      refine hrest.of_eq ?_ ?_
      · simp only [runPlan, ht]
      · simp only [Passes, ht]
        exact and_congr_right fun hg => passes_congr (groupOk_foldl hg) _ _

end calls

/-! ### Runs of `execute` -/

/-- The calls a run makes if none of them raises. -/
def callPlan (file : FileView V) (s : State V) : List Site :=
  runPlan w cfg s.created s.clockReads (stream w.ops file cfg).batches.zipIdx

/-- The state the loop of `execute` starts in. -/
def zeroed (s : State V) : State V :=
  { s with rawCount := 0, validCount := 0, errorCount := 0, errorRows := [] }

variable {w cfg} {E : Exc → Prop} {file : FileView V} {s : State V}

lemma calls_loop (hE : OwnErrors w cfg E) :
    DbCalls w E (Prog.forEach (turn w cfg) (stream w.ops file cfg).batches.zipIdx) (zeroed s)
      (callPlan w cfg file s)
      (Passes w cfg s.created s.clockReads (stream w.ops file cfg).batches.zipIdx)
      fun _ _ => True :=
  calls_turns hE _ (zeroed s)

lemma status_of_loop_error {e : Exc}
    (h : (Prog.forEach (turn w cfg) (stream w.ops file cfg).batches.zipIdx (zeroed s)).1 =
      .error e) :
    (execute w cfg file s).1.status = (outcome (.error e)).1 ∧ (execute w cfg file s).2 =
      (Prog.forEach (turn w cfg) (stream w.ops file cfg).batches.zipIdx (zeroed s)).2 := by
  have hbody : body w cfg (stream w.ops file cfg) (zeroed s) = _ := Prog.andThen_of_error h
  unfold zeroed at hbody
  unfold execute
  dsimp only
  rw [hbody]
  exact ⟨rfl, rfl⟩

lemma status_of_loop_ok
    (h : (Prog.forEach (turn w cfg) (stream w.ops file cfg).batches.zipIdx (zeroed s)).1 =
      .ok ()) :
    (execute w cfg file s).1.status =
      (outcome (match (stream w.ops file cfg).fail with
        | none => .ok ()
        | some e => .error e)).1 ∧ (execute w cfg file s).2 =
      (Prog.forEach (turn w cfg) (stream w.ops file cfg).batches.zipIdx (zeroed s)).2 := by
  have hbody : body w cfg (stream w.ops file cfg) (zeroed s) = _ := Prog.andThen_of_ok h
  unfold zeroed at hbody
  unfold execute
  dsimp only
  rw [hbody]
  cases (stream w.ops file cfg).fail <;> exact ⟨rfl, rfl⟩

end Tdcs.Pipeline
