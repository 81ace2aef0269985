import Tdcs.TableRouter
import Tdcs.Loader

/-!
`ETLPipeline.execute`: batches through the transform, the router and the loader.

The pipeline is wired as `main.py` does it, without encryption and with a quality reporter.
-/

namespace Tdcs.Pipeline

open Tdcs.Lib Tdcs.Extractor

variable {V : Type*} (w : World V) (cfg : TaskConfig)

/-- `_MYSQL_RETRYABLE_ERRCODE`. -/
def retryableErrcodes : List ℕ := [1040, 1213, 2006, 2013, 2055]

/-- `str.lower`, as far as the three texts below can tell: besides the ASCII capitals only
the Kelvin sign has one of their letters as its lower case. -/
def lower (s : String) : List Char :=
  s.toList.map fun c => if c = '\u212a' then 'k' else c.toLower

def isTransient (e : Exc) : Bool :=
  let text := lower e.str
  (e.errno.any fun n => n ∈ retryableErrcodes) || "gone away".toList <:+: text ||
    "deadlock".toList <:+: text || "lost connection".toList <:+: text

/-- `_load_with_retry`. -/
def loadWithRetry (table : String) (rows : List (Row V)) : Prog (State V) Exc ℕ :=
  Prog.handle (loadBatch w table rows) fun e =>
    if isTransient e then
      Prog.raise (.retryable ("DB transient error on " ++ table ++ ": " ++ e.str))
    else Prog.raise (.fatal ("Load failed on " ++ table ++ ": " ++ e.str))

/-- The rows among the items, those that are not `None`. -/
def rowsOf (items : List (Item V)) : List (Row V) := items.flatMap Option.toList

/-- The loop over `zip_longest(batch, transformed)`: the rows to load and the error rows.
Beyond the end of the batch there is no original to record. -/
def splitRows : List (Item V) → List (Item V) → List (Row V) × List (Row V)
  | [], transformed => (rowsOf transformed, [])
  | orig :: batch, [] =>
    let (valid, errors) := splitRows batch []
    (valid, orig.toList ++ errors)
  | orig :: batch, out :: transformed =>
    let (valid, errors) := splitRows batch transformed
    match out with
    | some row => (row :: valid, errors)
    | none => (valid, orig.toList ++ errors)

/-- The transform of batch number `i`; without a transformer the batch passes through. -/
def transform (i : ℕ) (batch : List (Item V)) : Except Exc (List (Item V)) :=
  if cfg.transformerModule = "" then .ok batch else w.sandbox i batch

/-- One group of a batch. -/
def loadGroup (p : String × List (Row V)) : Prog (State V) Exc Unit :=
  Prog.andThen (ensureTableExists w p.1) fun _ =>
  Prog.andThen (loadWithRetry w p.1 p.2) fun _ => Prog.ret ()

/-- One turn of the loop of `execute`. -/
def turn (p : List (Item V) × ℕ) : Prog (State V) Exc Unit :=
  Prog.andThen (Prog.update fun s => { s with rawCount := s.rawCount + p.1.length }) fun _ =>
  Prog.andThen (Prog.ofExcept (transform w cfg p.2 p.1)) fun transformed =>
  let split := splitRows p.1 transformed
  Prog.andThen (Prog.update fun s => { s with
    validCount := s.validCount + split.1.length
    errorCount := s.errorCount + (p.1.length - split.1.length)
    errorRows := s.errorRows ++ split.2 }) fun _ =>
  if split.1.isEmpty then Prog.ret ()
  else
    Prog.andThen (groupByTable w cfg split.1) fun grouped =>
    Prog.forEach (loadGroup w) grouped.entries

/-- The `try` of `execute`. -/
def body (stream : Stream V) : Prog (State V) Exc Unit :=
  Prog.andThen (Prog.forEach (turn w cfg) stream.batches.zipIdx) fun _ =>
  match stream.fail with
  | none => Prog.ret ()
  | some e => Prog.raise e

/-- The `except` clauses. -/
def outcome : Except Exc Unit → PipelineStatus × Option Exc
  | .ok _ => (.success, none)
  | .error (.skipFile msg) => (.skipped, some (.skipFile msg))
  | .error (.retryable msg) => (.retry, some (.retryable msg))
  | .error e => (.failed, some (if e.isFatal then e else .fatal e.str))

/-- `QualityReporter.calculate` without rows and required fields, its counts. -/
def calculate (errorRows : List (Row V)) (total : ℕ) : QualityReport where
  totalRows := total
  validRows := total - errorRows.length
  errorRows := errorRows.length

/-- `execute`, from a state another run of the process may have left. -/
def execute (file : FileView V) (s : State V) : PipelineResult × State V :=
  let s₀ := { s with rawCount := 0, validCount := 0, errorCount := 0, errorRows := [] }
  let (r, s') := body w cfg (stream w.ops file cfg) s₀
  ({ status := (outcome r).1
     rawCount := s'.rawCount
     validCount := s'.validCount
     errorCount := s'.errorCount
     elapsedMs := w.elapsedMs
     error := (outcome r).2
     qualityReport :=
       if 0 < s'.rawCount then some (calculate s'.errorRows s'.rawCount) else none }, s')

/-! ### What the parts emit -/

lemma splitRows_fst (batch transformed : List (Item V)) :
    (splitRows batch transformed).1 = rowsOf transformed := by
  fun_induction splitRows batch transformed with
  | case1 transformed => rfl
  | case2 orig batch valid errors h ih =>
    rw [h] at ih
    exact ih
  | case3 orig batch transformed valid errors h row ih =>
    rw [h] at ih
    show row :: valid = rowsOf (some row :: transformed)
    rw [rowsOf, List.flatMap_cons, ← rowsOf, ← ih]
    rfl
  | case4 orig batch transformed valid errors h ih =>
    rw [h] at ih
    show valid = rowsOf (none :: transformed)
    rw [rowsOf, List.flatMap_cons, ← rowsOf, ← ih]
    rfl

lemma success_iff {r : Except Exc Unit} : (outcome r).1 = .success ↔ r = .ok () := by
  unfold outcome
  split <;> simp_all

section emits

variable {w}

lemma emits_executeChunks_sent (stmts : List (Statement V)) (s : State V) :
    Prog.Emits State.sent (executeChunks w stmts) s stmts
      fun _ s' => s'.clockReads = s.clockReads := by
  induction stmts generalizing s with
  | nil => exact Prog.emits_ret rfl
  | cons stmt stmts ih =>
    have hone : Prog.Emits State.sent (executemany w stmt) s [stmt]
        fun _ s' => s'.clockReads = s.clockReads :=
      Prog.Emits.one (fun _ _ => by simp) fun _ _ => Or.inr (by simp)
    refine (hone.andThen fun n s₁ h₁ => (ih s₁).andThen fun m s₂ h₂ =>
      Prog.emits_ret (h₂.trans h₁)).of_eq ?_
    rw [List.append_nil, List.singleton_append]

lemma emits_loadBatch_sent (table : String) (rows : List (Row V)) (s : State V) :
    Prog.Emits State.sent (loadBatch w table rows) s (statements table rows)
      fun _ s' => s'.clockReads = s.clockReads := by
  unfold loadBatch
  split_ifs with hempty hnone
  · rw [List.isEmpty_iff.mp hempty, statements_nil]
    exact Prog.emits_ret rfl
  · exact Prog.emits_raise
  · have hconn : Prog.Emits State.sent (dbCall w) s [] fun _ s' => s'.clockReads = s.clockReads :=
      emits_dbCall (fun _ _ => rfl) s fun _ => rfl
    have hcommit : ∀ s₂ : State V, s₂.clockReads = s.clockReads →
        Prog.Emits State.sent (commit w ⟨table, rows⟩) s₂ []
          fun _ s' => s'.clockReads = s.clockReads := fun s₂ h₂ =>
      Prog.Emits.silent (by simp) fun _ _ => by simp [h₂]
    refine (hconn.andThen fun _ s₁ h₁ => (emits_executeChunks_sent _ s₁).andThen fun n s₂ h₂ =>
      (hcommit s₂ (h₂.trans h₁)).andThen fun _ s₃ h₃ => Prog.emits_ret h₃).of_eq ?_
    rw [List.nil_append, List.append_nil, List.append_nil]

/-- What a load commits. -/
def loads (table : String) (rows : List (Row V)) : List (Load V) :=
  if rows.isEmpty then [] else [⟨table, rows⟩]

lemma emits_executeChunks_committed (stmts : List (Statement V)) (s : State V) :
    Prog.Emits State.committed (executeChunks w stmts) s []
      fun _ s' => s'.clockReads = s.clockReads := by
  induction stmts generalizing s with
  | nil => exact Prog.emits_ret rfl
  | cons stmt stmts ih =>
    have hone : Prog.Emits State.committed (executemany w stmt) s []
        fun _ s' => s'.clockReads = s.clockReads :=
      Prog.Emits.silent (by simp) fun _ _ => by simp
    exact hone.andThen (M := []) fun n s₁ h₁ =>
      (ih s₁).andThen (M := []) fun m s₂ h₂ => Prog.emits_ret (h₂.trans h₁)

lemma emits_loadBatch_committed (table : String) (rows : List (Row V)) (s : State V) :
    Prog.Emits State.committed (loadBatch w table rows) s (loads table rows)
      fun _ s' => s'.clockReads = s.clockReads := by
  unfold loadBatch loads
  split_ifs with hempty hnone
  · exact Prog.emits_ret rfl
  · exact Prog.emits_raise
  · have hconn : Prog.Emits State.committed (dbCall w) s []
        fun _ s' => s'.clockReads = s.clockReads := emits_dbCall (fun _ _ => rfl) s fun _ => rfl
    have hcommit : ∀ s₂ : State V, s₂.clockReads = s.clockReads →
        Prog.Emits State.committed (commit w ⟨table, rows⟩) s₂ [⟨table, rows⟩]
          fun _ s' => s'.clockReads = s.clockReads := fun s₂ h₂ =>
      Prog.Emits.one (fun _ hok => ⟨commit_committed_of_ok w _ s₂ hok, by simp [h₂]⟩)
        fun _ _ => commit_committed w _ s₂
    refine (hconn.andThen fun _ s₁ h₁ => (emits_executeChunks_committed _ s₁).andThen
      fun n s₂ h₂ => (hcommit s₂ (h₂.trans h₁)).andThen fun _ s₃ h₃ => Prog.emits_ret h₃).of_eq ?_
    rw [List.nil_append, List.nil_append, List.append_nil]

lemma emits_loadWithRetry {δ : Type*} {log : State V → List δ} {table : String}
    {rows : List (Row V)} {s : State V} {L : List δ} {Q : ℕ → State V → Prop}
    (h : Prog.Emits log (loadBatch w table rows) s L Q) :
    Prog.Emits log (loadWithRetry w table rows) s L Q := by
  refine h.handle fun e s' => ?_
  split_ifs
  · exact ⟨_, rfl⟩
  · exact ⟨_, rfl⟩

/-! ### What a run of the loop emits -/

variable {cfg} {δ : Type*} {log : State V → List δ} {E : String → List (Row V) → List δ}

/-- The log of a run: the counters, the clock and the created tables do not show in it, and
each load emits what `E` says. -/
structure LoadLog (w : World V) (log : State V → List δ) (E : String → List (Row V) → List δ) :
    Prop where
  dbCalls : ∀ s n, log { s with dbCalls := n } = log s
  created : ∀ s c, log { s with created := c } = log s
  clockReads : ∀ s n, log { s with clockReads := n } = log s
  counts : ∀ s r v e l, log { s with
    rawCount := r, validCount := v, errorCount := e, errorRows := l } = log s
  load : ∀ table rows s, Prog.Emits log (loadBatch w table rows) s (E table rows)
    fun _ s' => s'.clockReads = s.clockReads

lemma sentLog (w : World V) : LoadLog w State.sent statements where
  dbCalls _ _ := rfl
  created _ _ := rfl
  clockReads _ _ := rfl
  counts _ _ _ _ _ := rfl
  load := emits_loadBatch_sent

lemma committedLog (w : World V) : LoadLog w State.committed loads where
  dbCalls _ _ := rfl
  created _ _ := rfl
  clockReads _ _ := rfl
  counts _ _ _ _ _ := rfl
  load := emits_loadBatch_committed

lemma LoadLog.loadGroup (hE : LoadLog w log E) (p : String × List (Row V)) (s : State V) :
    Prog.Emits log (loadGroup w p) s (E p.1 p.2) fun _ s' => s'.clockReads = s.clockReads := by
  refine ((emits_ensureTableExists hE.dbCalls hE.created p.1 s).andThen fun _ s₁ h₁ =>
    (emits_loadWithRetry (hE.load p.1 p.2 s₁)).andThen fun _ s₂ h₂ =>
      Prog.emits_ret (h₂.trans h₁)).of_eq ?_
  rw [List.nil_append, List.append_nil]

/-- What a batch emits whose transform returns `out`, when the clock has been read `k`
times. -/
def batchEmission (w : World V) (cfg : TaskConfig) (E : String → List (Row V) → List δ) (k : ℕ)
    (out : List (Item V)) : List δ :=
  (Dict.group (tagged w cfg k (rowsOf out))).entries.flatMap fun p => E p.1 p.2

lemma LoadLog.turn_ok (hE : LoadLog w log E) {p : List (Item V) × ℕ} {out : List (Item V)}
    (h : transform w cfg p.2 p.1 = .ok out) (s : State V) :
    Prog.Emits log (turn w cfg p) s (batchEmission w cfg E s.clockReads out)
      fun _ s' => s'.clockReads = s.clockReads + (rowsOf out).length := by
  have hcount : ∀ (f : State V → State V) (s₀ : State V), log (f s₀) = log s₀ →
      (f s₀).clockReads = s₀.clockReads → Prog.Emits log (Prog.update f : Prog _ Exc Unit) s₀ []
        fun _ s' => s'.clockReads = s₀.clockReads :=
    fun f s₀ hlog hclock => Prog.emits_update hlog hclock
  have hout : ∀ s₀ : State V, Prog.Emits log (Prog.ofExcept (transform w cfg p.2 p.1)) s₀ []
      fun a s' => a = out ∧ s' = s₀ := fun s₀ =>
    Prog.emits_ofExcept fun a ha => by rw [h] at ha; cases ha; exact ⟨rfl, rfl⟩
  refine (Prog.Emits.andThen (L := []) (hcount _ s (hE.counts s _ _ _ _) rfl) fun _ s₁ h₁ =>
    (hout s₁).andThen fun a s₂ h₂ => (hcount _ s₂ (hE.counts s₂ _ _ _ _) rfl).andThen
      (M := batchEmission w cfg E s.clockReads out) fun _ s₃ h₃ => ?_).of_eq (List.nil_append _)
  obtain ⟨rfl, rfl⟩ := h₂
  have hclock : s₃.clockReads = s.clockReads := h₃.trans h₁
  rw [splitRows_fst]
  split_ifs with hempty
  · -- no row is left: the turn ends here
    have hrows := List.isEmpty_iff.mp hempty
    rw [batchEmission, hrows]
    exact Prog.emits_ret (by simpa using hclock)
  · have hgroup : Prog.Emits log (groupByTable w cfg (rowsOf a)) s₃ []
        fun d s' => d = Dict.group (tagged w cfg s.clockReads (rowsOf a)) ∧
          s'.clockReads = s.clockReads + (rowsOf a).length :=
      Prog.Emits.silent (hE.clockReads s₃ _) fun d hd => by
        cases hd
        rw [← hclock]
        exact ⟨rfl, rfl⟩
    refine (hgroup.andThen fun d s₄ h₄ => ?_).of_eq (List.nil_append _)
    obtain ⟨rfl, hclock₄⟩ := h₄
    exact Prog.emits_forEach (I := fun s' => s'.clockReads = s.clockReads + (rowsOf a).length)
      (fun p s₅ h₅ => (hE.loadGroup p s₅).mono fun _ s₆ h₆ => h₆.trans h₅) _ hclock₄

lemma LoadLog.turn_error (hE : LoadLog w log E) {p : List (Item V) × ℕ} {e : Exc}
    (h : transform w cfg p.2 p.1 = .error e) (s : State V) {Q : Unit → State V → Prop} :
    Prog.Emits log (turn w cfg p) s [] Q := by
  refine Prog.Emits.andThen (L := []) (M := []) (Q := fun _ _ => True)
    (Prog.emits_update (hE.counts s _ _ _ _) trivial) fun _ s₁ _ =>
      Prog.Emits.andThen (L := []) (M := []) (Q := fun _ _ => False)
        (Prog.emits_ofExcept fun a ha => ?_) fun _ _ hf => hf.elim
  rw [h] at ha
  cases ha

/-- What the batches emit one after the other, as far as their transforms return. -/
def emission (w : World V) (cfg : TaskConfig) (E : String → List (Row V) → List δ) :
    ℕ → List (List (Item V) × ℕ) → List δ
  | _, [] => []
  | k, p :: ps =>
    match transform w cfg p.2 p.1 with
    | .error _ => []
    | .ok out => batchEmission w cfg E k out ++ emission w cfg E (k + (rowsOf out).length) ps

/-- The loop of `execute` emits what its batches emit, one after the other. -/
theorem LoadLog.turns (hE : LoadLog w log E) (ps : List (List (Item V) × ℕ)) (s : State V) :
    Prog.Emits log (Prog.forEach (turn w cfg) ps) s (emission w cfg E s.clockReads ps)
      fun _ _ => ∀ p ∈ ps, ∃ out, transform w cfg p.2 p.1 = .ok out := by
  induction ps generalizing s with
  | nil => exact Prog.emits_ret (by simp)
  | cons p ps ih =>
    rcases h : transform w cfg p.2 p.1 with e | out
    · have hturn := hE.turn_error h s (Q := fun _ _ => False)
      refine (hturn.andThen fun _ _ hf => hf.elim).of_eq (L := [] ++ []) ?_
      simp [emission, h]
    · refine ((hE.turn_ok h s).andThen fun _ s₁ h₁ => ?_).of_eq
        (L := _ ++ emission w cfg E (s.clockReads + (rowsOf out).length) ps) ?_
      · rw [← h₁]
        refine (ih s₁).mono fun _ _ hall q hq => ?_
        rcases List.mem_cons.mp hq with rfl | hq
        · exact ⟨out, h⟩
        · exact hall q hq
      · simp [emission, h]

/-- **What a run emits.** Whatever happens, `execute` appends to the log a prefix of what
the batches of the file emit; if it reports success, all of it, the file was read to its
end, and no transform raised. -/
theorem LoadLog.execute (hE : LoadLog w log E) (cfg : TaskConfig) (file : FileView V)
    (s : State V) :
    ∃ P, log (execute w cfg file s).2 = log s ++ P ∧
      P <+: emission w cfg E s.clockReads (stream w.ops file cfg).batches.zipIdx ∧
      ((execute w cfg file s).1.status = .success →
        P = emission w cfg E s.clockReads (stream w.ops file cfg).batches.zipIdx ∧
        (stream w.ops file cfg).fail = none ∧
        ∀ p ∈ (stream w.ops file cfg).batches.zipIdx,
          ∃ out, transform w cfg p.2 p.1 = .ok out) := by
  have hbody : ∀ (st : Stream V) (s₀ : State V), Prog.Emits log (body w cfg st) s₀
      (emission w cfg E s₀.clockReads st.batches.zipIdx) fun _ _ => st.fail = none ∧
        ∀ p ∈ st.batches.zipIdx, ∃ out, transform w cfg p.2 p.1 = .ok out := by
    intro st s₀
    refine ((hE.turns st.batches.zipIdx s₀).andThen (M := []) fun _ s₁ hall => ?_).of_eq
      (List.append_nil _)
    rcases hfail : st.fail with _ | e
    · exact Prog.emits_ret ⟨rfl, hall⟩
    · exact Prog.emits_raise
  obtain ⟨P, hP, hpre, hok⟩ := hbody (stream w.ops file cfg)
    { s with rawCount := 0, validCount := 0, errorCount := 0, errorRows := [] }
  rw [hE.counts s 0 0 0 []] at hP
  exact ⟨P, hP, hpre, fun hs => hok () (success_iff.mp hs)⟩

end emits

end Tdcs.Pipeline
