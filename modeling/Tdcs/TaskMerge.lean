import Tdcs.ConfigAtomic

/-!
What an update of a task changes in its runtime configuration.

The update is merged over the task, through the flat names of the form and back: a key that is
missing is written with the default of the form, where the builder of the runtime configuration
has its own. A field that was not submitted keeps its value exactly when its key is there or
the two defaults agree.
-/

namespace Tdcs.TaskMerge

open Tdcs.Lib Tdcs.ConfigValidator Tdcs.Config Tdcs.ConfigApi Tdcs.ConfigAgreement

/-- A field that is not in the update has the same value in both. -/
def Frame (u : Doc) (r r' : Record) : Prop :=
  ∀ field, u.lookup field = none → r'.lookup field = r.lookup field

/-- Every field of the runtime configuration that is not in the update has its old value. The
fields of the form have the names of the fields of `TaskConfig`. -/
structure ChangesOnly (u : Doc) (r r' : TaskRecord) : Prop where
  task : Frame u r.task r'.task
  monitor : Frame u r.monitor r'.monitor
  etl : Frame u r.etl r'.etl
  table : Frame u r.table r'.table
  errorHandling : Frame u r.errorHandling r'.errorHandling
  archive : Frame u r.archive r'.archive
  schedule : Frame u r.schedule r'.schedule

/-- The update has the field, or the section its key. -/
def Given (t u : Doc) (sec key form : String) : Prop :=
  (u.lookup form).isSome = true ∨ ((sub t sec).lookup key).isSome = true

/-- The fields on whose defaults the form and the builder differ are given. Where the form looks
at an old key at the top of the task, the value there may be the builder's default. -/
structure Covered (t u : Doc) : Prop where
  recursive : Given t u "monitor" "recursive" "recursive" ∨
    get t "recursive" (.bool false) = .bool false
  batchSize : Given t u "etl" "batch_size" "batch_size" ∨
    get t "batch_size" (.int 1000) = .int 1000
  retentionMonths : Given t u "table" "retention_months" "retention_months"
  maxRetries : Given t u "error_handling" "max_retries" "max_retries" ∨
    get t "max_retries" (.int 3) = .int 3
  archiveMode : Given t u "archive" "mode" "archive_mode"
  compressAfterDays : Given t u "archive" "compress_after_days" "compress_after_days"
  cleanupAfterDays : Given t u "archive" "cleanup_after_days" "cleanup_after_days"
  pollInterval : Given t u "schedule" "poll_interval" "poll_interval" ∨
    get t "poll_interval" (.int 60) = .int 0

/-- Lax mode takes no dictionary for a number or a truth value. -/
structure RefusesDicts (P : Pydantic) : Prop where
  int : ∀ m, P.int (.map m) = none
  float : ∀ m, P.float (.map m) = none
  bool : ∀ m, P.bool (.map m) = none

/-! ### The form as a table -/

/-- A field of the form, the key of the section it fills, and its default; `legacy` where an
old key at the top of the task is looked at first. -/
structure FormField where
  key : String
  form : String
  default : Val
  legacy : Bool := false

/-- What the form takes where the section has no value. -/
def FormField.fallback (t : Doc) (g : FormField) : Val :=
  if g.legacy then get t g.form g.default else g.default

def monitorForm : List FormField := [
  { key := "folder_path", form := "monitor_folder", default := .str ".", legacy := true },
  { key := "file_extensions", form := "file_extensions", default := .list [.str ".csv"],
    legacy := true },
  { key := "recursive", form := "recursive", default := .bool false, legacy := true },
  { key := "debounce_seconds", form := "debounce_seconds", default := .int 3 },
  { key := "stability_check_interval", form := "stability_check_interval", default := .int 1 },
  { key := "stability_check_count", form := "stability_check_count", default := .int 3 }]

def etlForm : List FormField := [
  { key := "extractor", form := "extractor", default := .str "csv", legacy := true },
  { key := "encoding", form := "encoding", default := .str "auto" },
  { key := "batch_size", form := "batch_size", default := .int 1000, legacy := true },
  { key := "transformer_module", form := "transformer_module", default := .str "" },
  { key := "transformer_function", form := "transformer_function", default := .str "" },
  { key := "sandbox_timeout", form := "sandbox_timeout", default := .int 30 }]

def tableForm : List FormField := [
  { key := "base_table", form := "base_table", default := .str "data", legacy := true },
  { key := "partition_field", form := "partition_field", default := .str "" },
  { key := "partition_field_format", form := "partition_field_format",
    default := .str "%Y-%m-%d" },
  { key := "create_table_template", form := "create_table_template", default := .str "" },
  { key := "retention_months", form := "retention_months", default := .int 12 },
  { key := "archive_old_tables", form := "archive_old_tables", default := .bool true }]

def errorHandlingForm : List FormField := [
  { key := "max_retries", form := "max_retries", default := .int 3, legacy := true },
  { key := "dead_letter_dir", form := "dead_letter_dir", default := .str "" }]

def archiveForm : List FormField := [
  { key := "mode", form := "archive_mode", default := .str "keep" },
  { key := "archive_dir", form := "archive_dir", default := .str "" },
  { key := "compress_after_days", form := "compress_after_days", default := .int 0 },
  { key := "cleanup_after_days", form := "cleanup_after_days", default := .int 0 }]

def scheduleForm : List FormField := [
  { key := "poll_interval", form := "poll_interval", default := .int 60, legacy := true },
  { key := "poll_incremental", form := "poll_incremental", default := .bool true }]

def formSections : List (String × List FormField) := [
  ("monitor", monitorForm), ("etl", etlForm), ("table", tableForm),
  ("error_handling", errorHandlingForm), ("archive", archiveForm), ("schedule", scheduleForm)]

def formValues (t : Doc) : Doc :=
  formSections.flatMap fun p => p.2.map fun g => (g.form, get (sub t p.1) g.key (g.fallback t))

/-- The flat task with the update over it. -/
def flatWith (t u : Doc) : Doc := setAll (setAll t (formValues t)) u

/-- A section after the merge. -/
def mergedSection (t u : Doc) (sec : String) (F : List FormField) : Doc :=
  deepMerge (sub t sec) (F.map fun g => (g.key, get (flatWith t u) g.form g.default))

variable {P : Pydantic} {py : PyText} {t u : Doc}

/-! ### Merging dictionaries -/

lemma lookup_put_of_ne {k key : String} (h : key ≠ k) (v : Val) (d : Doc) :
    (Dict.put k v d).lookup key = d.lookup key := by
  induction d with
  | nil => simp [Dict.put, List.lookup_cons, beq_false_of_ne h]
  | cons p d ih =>
    obtain ⟨k', v'⟩ := p
    by_cases hk : k' = k
    · subst hk
      rw [Dict.put, if_pos rfl, List.lookup_cons, List.lookup_cons, beq_false_of_ne h]
    · rw [Dict.put, if_neg hk, List.lookup_cons, List.lookup_cons, ih]

lemma ne_of_lookup_none {key k : String} {v : Val} {l : Doc}
    (h : List.lookup key ((k, v) :: l) = none) : key ≠ k ∧ l.lookup key = none := by
  rw [List.lookup_cons] at h
  split at h
  · cases h
  · next hne => exact ⟨by simpa using hne, h⟩

lemma lookup_setAll_of_none {key : String} {l d : Doc} (h : l.lookup key = none) :
    (setAll d l).lookup key = d.lookup key := by
  induction l generalizing d with
  | nil => rfl
  | cons p l ih =>
    obtain ⟨k, v⟩ := p
    obtain ⟨hne, hl⟩ := ne_of_lookup_none h
    have := ih (d := Dict.put k v d) hl
    rw [lookup_put_of_ne hne] at this
    exact this

lemma lookup_setAll_of_mem {key : String} {v : Val} {l d : Doc} (hl : (l.map Prod.fst).Nodup)
    (h : (key, v) ∈ l) : (setAll d l).lookup key = some v := by
  induction l generalizing d with
  | nil => cases h
  | cons p l ih =>
    rw [List.map_cons, List.nodup_cons] at hl
    rcases List.mem_cons.mp h with rfl | h
    · have hrest : l.lookup key = none := lookup_none_of_notMem hl.1
      have := lookup_setAll_of_none (d := Dict.put key v d) hrest
      rw [ConfigAtomic.lookup_put] at this
      exact this
    · exact ih hl.2 h

lemma lookup_deepMerge_of_none {key : String} {l d : Doc} (h : l.lookup key = none) :
    (deepMerge d l).lookup key = d.lookup key := by
  induction l generalizing d with
  | nil => rw [deepMerge]
  | cons p l ih =>
    obtain ⟨k, v⟩ := p
    obtain ⟨hne, hl⟩ := ne_of_lookup_none h
    rw [deepMerge, ih hl, lookup_put_of_ne hne]

lemma lookup_deepMerge_of_mem {key : String} {v : Val} {l d : Doc} (hl : (l.map Prod.fst).Nodup)
    (h : (key, v) ∈ l) : (deepMerge d l).lookup key = some (mergeValue (d.lookup key) v) := by
  induction l generalizing d with
  | nil => cases h
  | cons p l ih =>
    obtain ⟨k, w⟩ := p
    rw [List.map_cons, List.nodup_cons] at hl
    rw [deepMerge]
    rcases List.mem_cons.mp h with heq | h
    · cases heq
      rw [lookup_deepMerge_of_none (lookup_none_of_notMem hl.1), ConfigAtomic.lookup_put]
    · have hmem : key ∈ l.map Prod.fst := List.mem_map_of_mem (f := Prod.fst) h
      have hne : key ≠ k := by
        rintro rfl
        exact hl.1 hmem
      rw [ih hl.2 h, lookup_put_of_ne hne]

lemma mergeValue_of_asMap_none {v : Val} (h : v.asMap = none) (old : Option Val) :
    mergeValue old v = v := by
  cases v with
  | map m => simp at h
  | _ => simp [mergeValue]

lemma mergeValue_none (v : Val) : mergeValue none v = v := by
  cases v <;> simp [mergeValue]

/-! ### The merge as a table -/

/-- Each section of the form is a dictionary, or is read as an empty one. -/
def ReadsSections (t : Doc) : Prop :=
  ∀ p ∈ formSections, sectionOf t p.1 = some (sub t p.1) ∧
    dictOf (get t p.1 (.map [])) = some (sub t p.1)

lemma readsSection {key : String} (h : section? t key = some (sub t key)) :
    sectionOf t key = some (sub t key) ∧ dictOf (get t key (.map [])) = some (sub t key) := by
  rw [section?] at h
  cases hl : t.lookup key with
  | none => simp [sectionOf, ConfigApi.get, sub, hl, dict, dictOf, Val.truthy]
  | some v =>
    rw [hl, Option.getD_some] at h
    have hv := Val.asMap_eq_some.mp h
    refine ⟨?_, ?_⟩
    · rw [sectionOf, ConfigApi.get, hl, Option.getD_some, hv, Val.asMap_map]
      cases hs : sub t key with
      | nil => rfl
      | cons p d => rfl
    · rw [ConfigApi.get, hl, Option.getD_some, hv]
      rfl

lemma sections_of_accepted {out : Doc} (h : taskConfigSchema P py (.map t) = some out) :
    ReadsSections t := by
  simp only [taskConfigSchema, Option.bind_eq_bind, Option.bind_eq_some_iff] at h
  obtain ⟨m, hm, fields, -, mo, hmo, e, he, tb, htb, eh, heh, ar, har, sc, hsc, -⟩ := h
  cases hm
  simp only [ReadsSections, formSections, List.forall_mem_cons]
  exact ⟨readsSection (section?_of_required hmo), readsSection (section?_of_required he),
    readsSection (section?_of_required htb), readsSection (section?_of_required heh),
    readsSection (optional_eq_some har).1, readsSection (optional_eq_some hsc).1, by simp⟩

lemma flatten_eq (h : ∀ p ∈ formSections, sectionOf t p.1 = some (sub t p.1)) :
    flattenTaskForBuilder t = some (setAll t (formValues t)) := by
  simp only [formSections, List.forall_mem_cons] at h
  obtain ⟨h1, h2, h3, h4, h5, h6, -⟩ := h
  rw [flattenTaskForBuilder, h1, h2, h3, h4, h5, h6]
  rfl

lemma section_buildTaskDict (data : Doc) : ∀ p ∈ formSections,
    (get (buildTaskDict data) p.1 (.map [])).asMap.getD [] =
      p.2.map fun g => (g.key, get data g.form g.default) := by
  simp only [formSections, List.forall_mem_cons]
  exact ⟨rfl, rfl, rfl, rfl, rfl, rfl, by simp⟩

lemma foldlM_mergeSection {rebuilt : Doc} {keys : List String}
    (h : ∀ key ∈ keys, dictOf (get t key (.map [])) = some (sub t key)) (result : Doc) :
    keys.foldlM (mergeSection t rebuilt) result = some (setAll result (keys.map fun key =>
      (key, .map (deepMerge (sub t key) ((get rebuilt key (.map [])).asMap.getD []))))) := by
  induction keys generalizing result with
  | nil => rfl
  | cons key keys ih =>
    rw [List.forall_mem_cons] at h
    rw [List.foldlM_cons, mergeSection, h.1]
    exact ih h.2 _

/-- The last loop of the merge: it sets a key if the update has it. -/
def setSubmitted (u : Doc) (keys : List String) (result : Doc) : Doc :=
  keys.foldl (fun result key =>
    match u.lookup key with
    | some v => Dict.put key v result
    | none => result) result

lemma lookup_setSubmitted {key : String} {keys : List String}
    (h : key ∈ keys → u.lookup key = none) (result : Doc) :
    (setSubmitted u keys result).lookup key = result.lookup key := by
  induction keys generalizing result with
  | nil => rfl
  | cons k keys ih =>
    have hrest : key ∈ keys → u.lookup key = none := fun hk => h (List.mem_cons_of_mem _ hk)
    rw [setSubmitted, List.foldl_cons, ← setSubmitted, ih hrest]
    cases hk : u.lookup k with
    | none => rfl
    | some v =>
      have hne : key ≠ k := by
        rintro rfl
        rw [h List.mem_cons_self] at hk
        cases hk
      exact lookup_put_of_ne hne v result

lemma lookup_setSubmitted_of_some {key : String} {v : Val} {keys : List String}
    (hu : u.lookup key = some v) (hkey : key ∈ keys) (result : Doc) :
    (setSubmitted u keys result).lookup key = some v := by
  induction keys generalizing result with
  | nil => cases hkey
  | cons k keys ih =>
    rw [setSubmitted, List.foldl_cons, ← setSubmitted]
    by_cases hk : key ∈ keys
    · exact ih hk _
    · have hne : key ∈ keys → u.lookup key = none := fun h => absurd h hk
      obtain rfl := (List.mem_cons.mp hkey).resolve_right hk
      rw [lookup_setSubmitted hne, hu]
      exact ConfigAtomic.lookup_put _ _ _

/-- What stands in the merged task: the sections, merged through the form, the old id, and
what the update has no key for. -/
structure Merged (t u merged : Doc) : Prop where
  taskId : merged.lookup "task_id" = some (get t "task_id" .null)
  submits : ∀ key ∈ ["name", "enabled", "priority"], ∀ v, u.lookup key = some v →
    merged.lookup key = some v
  keeps : ∀ key ∈ ["name", "enabled", "priority"], u.lookup key = none →
    merged.lookup key = t.lookup key
  sections : ∀ p ∈ formSections, merged.lookup p.1 = some (.map (mergedSection t u p.1 p.2))

/-- The six sections the loop over `groups` sets. -/
def sectionMerges (t u : Doc) : Doc :=
  formSections.map fun p => (p.1, .map (mergedSection t u p.1 p.2))

/-- The four steps of the merge: the deep merge, the sections over it, the submitted fields at the
top, and the old id. -/
lemma mergeTaskUpdate_eq (hsec : ReadsSections t) (u : Doc) :
    mergeTaskUpdate t u = some (Dict.put "task_id" (get t "task_id" .null)
      (setSubmitted u ["task_id", "name", "enabled", "priority"]
        (setAll (deepMerge t u) (sectionMerges t u)))) := by
  let rebuilt := buildTaskDict (flatWith t u)
  have hloop := @foldlM_mergeSection t rebuilt (formSections.map Prod.fst)
    (fun key hkey => by
      obtain ⟨p, hp, rfl⟩ := List.mem_map.mp hkey
      exact (hsec p hp).2) (deepMerge t u)
  have hmerges : ((formSections.map Prod.fst).map fun key =>
      (key, Val.map (deepMerge (sub t key) ((get rebuilt key (.map [])).asMap.getD [])))) =
        sectionMerges t u := by
    rw [List.map_map]
    refine List.map_congr_left fun p hp => ?_
    show (p.1, Val.map (deepMerge (sub t p.1) ((get rebuilt p.1 (.map [])).asMap.getD []))) = _
    rw [section_buildTaskDict _ p hp]
    rfl
  rw [hmerges] at hloop
  rw [mergeTaskUpdate, flatten_eq fun p hp => (hsec p hp).1]
  exact (congrArg (fun r => Option.bind r _) hloop).trans rfl

lemma keys_sectionMerges : (sectionMerges t u).map Prod.fst = formSections.map Prod.fst := by
  simp [sectionMerges, Function.comp_def]

/-- **What the merge makes of a task with its sections.** -/
theorem exists_merged (hsec : ReadsSections t) (u : Doc) :
    ∃ merged, mergeTaskUpdate t u = some merged ∧ Merged t u merged := by
  refine ⟨_, mergeTaskUpdate_eq hsec u, ?_, ?_, ?_, ?_⟩
  · exact ConfigAtomic.lookup_put _ _ _
  · intro key hkey v hu
    have hne : key ≠ "task_id" := by
      rintro rfl
      simp at hkey
    exact (lookup_put_of_ne hne _ _).trans
      (lookup_setSubmitted_of_some hu (List.mem_cons_of_mem _ hkey) _)
  · intro key hkey hu
    have hne : key ≠ "task_id" := by
      rintro rfl
      simp at hkey
    have hno : key ∉ (sectionMerges t u).map Prod.fst := by
      have hall : ∀ key ∈ ["name", "enabled", "priority"], key ∉ formSections.map Prod.fst := by
        decide
      rw [keys_sectionMerges]
      exact hall key hkey
    refine (lookup_put_of_ne hne _ _).trans ((lookup_setSubmitted (fun _ => hu) _).trans ?_)
    rw [lookup_setAll_of_none (lookup_none_of_notMem hno), lookup_deepMerge_of_none hu]
  · intro p hp
    have hno : p.1 ∉ ["task_id", "name", "enabled", "priority"] := by
      have hall : ∀ key ∈ formSections.map Prod.fst,
          key ∉ ["task_id", "name", "enabled", "priority"] := by decide
      exact hall _ (List.mem_map_of_mem hp)
    have hne : p.1 ≠ "task_id" := fun he => hno (by simp [he])
    refine (lookup_put_of_ne hne _ _).trans
      ((lookup_setSubmitted (fun h => absurd h hno) _).trans ?_)
    refine lookup_setAll_of_mem ?_ ?_
    · rw [keys_sectionMerges]
      decide
    · exact List.mem_map_of_mem (f := fun p : String × List FormField =>
        (p.1, Val.map (mergedSection t u p.1 p.2))) hp

/-! ### One section -/

/-- The two defaults of a field that is neither submitted nor in its section are one. -/
def Kept (t u : Doc) (sec : String) (s : Slot) (g : FormField) : Prop :=
  u.lookup g.form = none → (sub t sec).lookup g.key = none →
    s.convert (g.fallback t) = s.default.bind s.convert

/-- Each key of the form is in the schema, and the slot that reads it has the name of the field
of the form. -/
def matched (S : List Field) (B : List Slot) (F : List FormField) : Bool :=
  decide (S.map Field.key).Nodup && decide (B.map Slot.field).Nodup &&
    decide (F.map FormField.key).Nodup &&
    F.all (fun g => S.any fun f => f.key == g.key) &&
    B.all fun s => F.all fun g => (s.key == g.key) == (s.field == g.form)

lemma asMap_none_of_run (hP : RefusesDicts P) {f : Field} {v c : Val}
    (h : f.run P py (some v) = some c) : v.asMap = none := by
  cases v with
  | map m =>
    obtain ⟨c₀, hread, -⟩ := Option.bind_eq_some_iff.mp h
    cases hl : f.leaf <;> simp [hl, Leaf.read, hP.int, hP.float, hP.bool] at hread
  | _ => rfl

lemma asMap_none_of_validated (hP : RefusesDicts P) {S : List Field} {F : List FormField}
    {d out : Doc} (hS : (S.map Field.key).Nodup) (hschema : ∀ g ∈ F, ∃ f ∈ S, f.key = g.key)
    (hout : validateFields P py S d = some out) :
    ∀ g ∈ F, ∀ v, d.lookup g.key = some v → v.asMap = none := by
  intro g hg v hv
  obtain ⟨f, hf, hkey⟩ := hschema g hg
  obtain ⟨c, hrun, -⟩ := lookup_of_validateFields hS hout hf
  rw [hkey, hv] at hrun
  exact asMap_none_of_run hP hrun

lemma lookup_flatWith {sec : String} {F : List FormField} (hp : (sec, F) ∈ formSections)
    {g : FormField} (hg : g ∈ F) (hu : u.lookup g.form = none) :
    (flatWith t u).lookup g.form = some (get (sub t sec) g.key (g.fallback t)) := by
  have hnodup : ((formValues t).map Prod.fst).Nodup := by
    have hforms : (formValues t).map Prod.fst =
        formSections.flatMap fun p => p.2.map FormField.form := rfl
    rw [hforms]
    decide
  rw [flatWith, lookup_setAll_of_none hu]
  refine lookup_setAll_of_mem hnodup (List.mem_flatMap.mpr ⟨_, hp, ?_⟩)
  exact List.mem_map_of_mem (f := fun g : FormField =>
    (g.form, get (sub t sec) g.key (g.fallback t))) hg

lemma lookup_mergedSection_of_mem {sec : String} {F : List FormField}
    (hF : (F.map FormField.key).Nodup) {g : FormField} (hg : g ∈ F) :
    (mergedSection t u sec F).lookup g.key =
      some (mergeValue ((sub t sec).lookup g.key) (get (flatWith t u) g.form g.default)) := by
  have hkeys : ((F.map fun g => (g.key, get (flatWith t u) g.form g.default)).map
      Prod.fst).Nodup := by
    rw [List.map_map]
    exact hF
  exact lookup_deepMerge_of_mem hkeys (List.mem_map_of_mem (f := fun g : FormField =>
    (g.key, get (flatWith t u) g.form g.default)) hg)

lemma lookup_mergedSection {sec : String} {F : List FormField} (hp : (sec, F) ∈ formSections)
    (hF : (F.map FormField.key).Nodup) {g : FormField} (hg : g ∈ F)
    (hu : u.lookup g.form = none)
    (hd : ∀ v, (sub t sec).lookup g.key = some v → v.asMap = none) :
    (mergedSection t u sec F).lookup g.key = some (get (sub t sec) g.key (g.fallback t)) := by
  have hval : get (flatWith t u) g.form g.default = get (sub t sec) g.key (g.fallback t) := by
    rw [ConfigApi.get, lookup_flatWith hp hg hu, Option.getD_some]
  rw [lookup_mergedSection_of_mem hF hg, hval]
  cases hl : (sub t sec).lookup g.key with
  | none => rw [mergeValue_none]
  | some v =>
    have hv : get (sub t sec) g.key (g.fallback t) = v := by
      rw [ConfigApi.get, hl, Option.getD_some]
    rw [hv, mergeValue_of_asMap_none (hd v hl)]

lemma lookup_mergedSection_of_ne {sec key : String} {F : List FormField}
    (h : ∀ g ∈ F, key ≠ g.key) :
    (mergedSection t u sec F).lookup key = (sub t sec).lookup key := by
  refine lookup_deepMerge_of_none (lookup_none_of_notMem ?_)
  rw [List.map_map]
  intro hmem
  obtain ⟨g, hg, rfl⟩ := List.mem_map.mp hmem
  exact h g hg rfl

/-- Two records of one list of slots agree on what was not submitted exactly when its slots read
the same. -/
lemma frame_iff_read {B : List Slot} {d d' : Doc} {r r' : Record}
    (hB : (B.map Slot.field).Nodup) (hr : readSlots B d = some r)
    (hr' : readSlots B d' = some r') :
    Frame u r r' ↔ ∀ s ∈ B, u.lookup s.field = none → s.read d' = s.read d := by
  have hread : ∀ s ∈ B, r.lookup s.field = s.read d ∧ r'.lookup s.field = s.read d' := by
    intro s hs
    obtain ⟨b, hb, hl⟩ := lookup_of_mapAll hB hr hs
    obtain ⟨b', hb', hl'⟩ := lookup_of_mapAll hB hr' hs
    exact ⟨hl.trans hb.symm, hl'.trans hb'.symm⟩
  constructor
  · intro h s hs hu
    rw [← (hread s hs).1, ← (hread s hs).2]
    exact h s.field hu
  · intro h field hu
    by_cases hf : field ∈ B.map Slot.field
    · obtain ⟨s, hs, rfl⟩ := List.mem_map.mp hf
      rw [(hread s hs).1, (hread s hs).2]
      exact h s hs hu
    · rw [lookup_none_of_notMem (by rw [keys_of_mapAll hr']; exact hf),
        lookup_none_of_notMem (by rw [keys_of_mapAll hr]; exact hf)]

/-- **A section keeps what was not submitted exactly when its defaults agree** on the fields
that are missing. -/
theorem frame_iff (hP : RefusesDicts P) {sec : String} {S : List Field} {B : List Slot}
    {F : List FormField} {out : Doc} {r r' : Record} (hp : (sec, F) ∈ formSections)
    (hm : matched S B F = true)
    (hout : validateFields P py S (sub t sec) = some out)
    (hr : readSlots B (sub t sec) = some r)
    (hr' : readSlots B (mergedSection t u sec F) = some r') :
    Frame u r r' ↔ ∀ s ∈ B, ∀ g ∈ F, s.key = g.key → Kept t u sec s g := by
  simp only [matched, Bool.and_eq_true, decide_eq_true_eq, List.all_eq_true, List.any_eq_true,
    beq_iff_eq] at hm
  obtain ⟨⟨⟨⟨hS, hB⟩, hF⟩, hschema⟩, hname⟩ := hm
  have hnomap := asMap_none_of_validated hP hS hschema hout
  have hfield : ∀ s ∈ B, ∀ g ∈ F, s.key = g.key → s.field = g.form := by
    intro s hs g hg hkey
    have := hname s hs g hg
    simpa [hkey] using this
  have hread : ∀ s ∈ B, ∀ g ∈ F, s.key = g.key → u.lookup s.field = none →
      (s.read (mergedSection t u sec F) = s.read (sub t sec) ↔ Kept t u sec s g) := by
    intro s hs g hg hkey hu
    rw [hfield s hs g hg hkey] at hu
    have hl := lookup_mergedSection hp hF hg hu (hnomap g hg)
    rw [Slot.read, Slot.read, hkey, hl, Kept]
    cases hd : (sub t sec).lookup g.key with
    | some v => simp [ConfigApi.get, hd]
    | none => simp [ConfigApi.get, hd, hu]
  rw [frame_iff_read hB hr hr']
  constructor
  · intro h s hs g hg hkey hu
    have hu' : u.lookup s.field = none := by rw [hfield s hs g hg hkey, hu]
    exact (hread s hs g hg hkey hu').mp (h s hs hu') hu
  · intro h s hs hu
    by_cases hg : ∃ g ∈ F, s.key = g.key
    · obtain ⟨g, hg, hkey⟩ := hg
      exact (hread s hs g hg hkey hu).mpr (h s hs g hg hkey)
    · have hne : ∀ g ∈ F, s.key ≠ g.key := fun g hgF hkey => hg ⟨g, hgF, hkey⟩
      rw [Slot.read, Slot.read, lookup_mergedSection_of_ne hne]

lemma required_keys {S : List Field} {d : Doc} {keys : List String}
    (hout : ∃ out, validateFields P py S d = some out)
    (hkeys : (decide (S.map Field.key).Nodup &&
      keys.all fun key => S.any fun f => f.key == key && f.default.isNone) = true) :
    ∀ key ∈ keys, (d.lookup key).isSome = true := by
  simp only [Bool.and_eq_true, decide_eq_true_eq, List.all_eq_true, List.any_eq_true,
    beq_iff_eq, Option.isNone_iff_eq_none] at hkeys
  obtain ⟨hS, hkeys⟩ := hkeys
  obtain ⟨out, hout⟩ := hout
  intro key hkey
  obtain ⟨f, hf, rfl, hdef⟩ := hkeys key hkey
  obtain ⟨c, hrun, -⟩ := lookup_of_validateFields hS hout hf
  cases hd : d.lookup f.key with
  | some v => rfl
  | none =>
    rw [hd] at hrun
    change f.default = some c at hrun
    rw [hdef] at hrun
    cases hrun

lemma not_given_iff {sec key form : String} : ¬ Given t u sec key form ↔
    u.lookup form = none ∧ (sub t sec).lookup key = none := by
  simp only [Given, not_or, Bool.not_eq_true, Option.isSome_eq_false_iff,
    Option.isNone_iff_eq_none]

lemma kept_iff {sec : String} {s : Slot} {g : FormField} {v : Val} (ht : s.tuple = false)
    (hv : s.default = some v) :
    Kept t u sec s g ↔ Given t u sec g.key g.form ∨ g.fallback t = v := by
  have hconv : ∀ w, s.convert w = some w := fun w => by simp [Slot.convert, ht]
  have hdef : s.convert (g.fallback t) = s.default.bind s.convert ↔ g.fallback t = v := by
    rw [hv, Option.bind_some, hconv, hconv, Option.some.injEq]
  rw [Kept, hdef, ← and_imp, ← not_given_iff]
  tauto

lemma kept_of_lookup {sec : String} {s : Slot} {g : FormField}
    (h : ((sub t sec).lookup g.key).isSome = true) : Kept t u sec s g := by
  intro _ hd
  rw [hd] at h
  cases h

/-! ### The six sections -/

/-- The fields of a section for which the defaults have to agree. -/
def SectionKept (t u : Doc) (sec : String) (B : List Slot) (F : List FormField) : Prop :=
  ∀ s ∈ B, ∀ g ∈ F, s.key = g.key → Kept t u sec s g

lemma monitor_kept (h : ∀ key ∈ ["folder_path", "file_extensions"],
    ((sub t "monitor").lookup key).isSome = true) :
    SectionKept t u "monitor" monitorSlots monitorForm ↔
      Given t u "monitor" "recursive" "recursive" ∨
        get t "recursive" (.bool false) = .bool false := by
  simp [SectionKept, monitorSlots, monitorForm, kept_iff, kept_of_lookup, h, FormField.fallback]

lemma etl_kept (h : ∀ key ∈ ["extractor", "transformer_module", "transformer_function"],
    ((sub t "etl").lookup key).isSome = true) :
    SectionKept t u "etl" etlSlots etlForm ↔ Given t u "etl" "batch_size" "batch_size" ∨
      get t "batch_size" (.int 1000) = .int 1000 := by
  simp [SectionKept, etlSlots, etlForm, kept_iff, kept_of_lookup, h, FormField.fallback]

lemma table_kept (h : ∀ key ∈ ["base_table", "partition_field", "create_table_template"],
    ((sub t "table").lookup key).isSome = true) :
    SectionKept t u "table" tableSlots tableForm ↔
      Given t u "table" "retention_months" "retention_months" := by
  simp [SectionKept, tableSlots, tableForm, kept_iff, kept_of_lookup, h, FormField.fallback]

lemma errorHandling_kept (h : ∀ key ∈ ["dead_letter_dir"],
    ((sub t "error_handling").lookup key).isSome = true) :
    SectionKept t u "error_handling" errorHandlingSlots errorHandlingForm ↔
      Given t u "error_handling" "max_retries" "max_retries" ∨
        get t "max_retries" (.int 3) = .int 3 := by
  simp [SectionKept, errorHandlingSlots, errorHandlingForm, kept_iff, kept_of_lookup, h,
    FormField.fallback]

lemma archive_kept : SectionKept t u "archive" archiveSlots archiveForm ↔
    Given t u "archive" "mode" "archive_mode" ∧
      Given t u "archive" "compress_after_days" "compress_after_days" ∧
      Given t u "archive" "cleanup_after_days" "cleanup_after_days" := by
  simp [SectionKept, archiveSlots, archiveForm, kept_iff, FormField.fallback]

lemma schedule_kept : SectionKept t u "schedule" scheduleSlots scheduleForm ↔
    Given t u "schedule" "poll_interval" "poll_interval" ∨
      get t "poll_interval" (.int 60) = .int 0 := by
  simp [SectionKept, scheduleSlots, scheduleForm, kept_iff, FormField.fallback]

lemma task_frame {merged : Doc} {r r' : Record} (hm : Merged t u merged)
    (hr : readSlots taskSlots t = some r) (hr' : readSlots taskSlots merged = some r') :
    Frame u r r' := by
  rw [frame_iff_read (by decide) hr hr']
  obtain ⟨id, hid, -⟩ := lookup_of_mapAll (by decide) hr
    (a := { field := "task_id", key := "task_id" }) (by simp [taskSlots])
  have htask : t.lookup "task_id" = some id := by
    obtain ⟨v, hv, hconv⟩ := Option.bind_eq_some_iff.mp hid
    rw [Option.or_none] at hv
    rw [hv, ← hconv]
    rfl
  simp only [taskSlots, List.forall_mem_cons, Slot.read]
  refine ⟨fun _ => ?_, fun hu => ?_, fun hu => ?_, fun hu => ?_, by simp⟩
  · rw [hm.taskId, ConfigApi.get, htask, Option.getD_some]
  · rw [hm.keeps "name" (by simp) hu]
  · rw [hm.keeps "enabled" (by simp) hu]
  · rw [hm.keeps "priority" (by simp) hu]

/-! ### The whole task -/

/-- The builder finds a dictionary in every section. -/
structure HasSections (t : Doc) : Prop where
  monitor : section! t "monitor" = some (sub t "monitor")
  etl : section! t "etl" = some (sub t "etl")
  table : section! t "table" = some (sub t "table")
  errorHandling : section! t "error_handling" = some (sub t "error_handling")
  archive : section? t "archive" = some (sub t "archive")
  schedule : section? t "schedule" = some (sub t "schedule")

/-- Each part of the record is read in its section. -/
structure Built (t : Doc) (r : TaskRecord) : Prop where
  task : readSlots taskSlots t = some r.task
  monitor : readSlots monitorSlots (sub t "monitor") = some r.monitor
  etl : readSlots etlSlots (sub t "etl") = some r.etl
  table : readSlots tableSlots (sub t "table") = some r.table
  errorHandling : readSlots errorHandlingSlots (sub t "error_handling") = some r.errorHandling
  archive : readSlots archiveSlots (sub t "archive") = some r.archive
  schedule : readSlots scheduleSlots (sub t "schedule") = some r.schedule

lemma buildTask_iff (hs : HasSections t) {r : TaskRecord} : buildTask t = some r ↔ Built t r := by
  simp only [buildTask, hs.monitor, hs.etl, hs.table, hs.errorHandling, hs.archive, hs.schedule,
    Option.bind_eq_bind, Option.bind_some, Option.bind_eq_some_iff, Option.some.injEq]
  constructor
  · rintro ⟨a1, h1, a2, h2, a3, h3, a4, h4, a5, h5, a6, h6, a7, h7, rfl⟩
    exact ⟨h1, h2, h3, h4, h5, h6, h7⟩
  · rintro ⟨h1, h2, h3, h4, h5, h6, h7⟩
    exact ⟨_, h1, _, h2, _, h3, _, h4, _, h5, _, h6, _, h7, rfl⟩

lemma section!_of_lookup {key : String} {d : Doc} (h : t.lookup key = some (.map d)) :
    (section! t key) = some (sub t key) ∧ section? t key = some (sub t key) ∧ sub t key = d := by
  simp [section!, section?, sub, dict, h]

lemma Merged.sub_eq {merged : Doc} (hm : Merged t u merged) {p : String × List FormField}
    (hp : p ∈ formSections) : sub merged p.1 = mergedSection t u p.1 p.2 :=
  (section!_of_lookup (hm.sections p hp)).2.2

lemma Merged.hasSections {merged : Doc} (hm : Merged t u merged) : HasSections merged := by
  have hsec := hm.sections
  simp only [formSections, List.forall_mem_cons] at hsec
  obtain ⟨hmo, he, htb, heh, har, hsc, -⟩ := hsec
  exact ⟨(section!_of_lookup hmo).1, (section!_of_lookup he).1, (section!_of_lookup htb).1,
    (section!_of_lookup heh).1, (section!_of_lookup har).2.1, (section!_of_lookup hsc).2.1⟩

/-- What the schemas made of the parts of a task. -/
structure Validated (P : Pydantic) (py : PyText) (t : Doc) : Prop where
  sections : HasSections t
  task : ∃ out, validateFields P py taskFields t = some out
  monitor : ∃ out, validateFields P py monitorConfigSchema (sub t "monitor") = some out
  etl : ∃ out, validateFields P py etlConfigSchema (sub t "etl") = some out
  table : ∃ out, validateFields P py tableConfigSchema (sub t "table") = some out
  errorHandling : ∃ out,
    validateFields P py errorHandlingConfigSchema (sub t "error_handling") = some out
  archive : ∃ out, validateFields P py archiveConfigSchema (sub t "archive") = some out
  schedule : ∃ out, validateFields P py scheduleConfigSchema (sub t "schedule") = some out

lemma validated_of_accepted {out : Doc} (h : taskConfigSchema P py (.map t) = some out) :
    Validated P py t := by
  simp only [taskConfigSchema, Option.bind_eq_bind, Option.bind_eq_some_iff] at h
  obtain ⟨m, hm, fields, hfields, mo, hmo, e, he, tb, htb, eh, heh, ar, har, sc, hsc, -⟩ := h
  cases hm
  obtain ⟨smo, hmo⟩ := required_eq_some hmo
  obtain ⟨se, he⟩ := required_eq_some he
  obtain ⟨stb, htb⟩ := required_eq_some htb
  obtain ⟨seh, heh⟩ := required_eq_some heh
  obtain ⟨sar, har⟩ := optional_eq_some har
  obtain ⟨ssc, hsc⟩ := optional_eq_some hsc
  exact ⟨⟨smo, se, stb, seh, sar, ssc⟩, ⟨_, hfields⟩, ⟨_, hmo⟩, ⟨_, he⟩, ⟨_, htb⟩, ⟨_, heh⟩,
    ⟨_, har⟩, ⟨_, hsc⟩⟩

lemma Validated.builds (hv : Validated P py t) : ∃ r, buildTask t = some r := by
  obtain ⟨a1, h1⟩ := exists_readSlots (B := taskSlots) (by decide +kernel) hv.task
  obtain ⟨a2, h2⟩ := exists_readSlots (B := monitorSlots) (by decide +kernel) hv.monitor
  obtain ⟨a3, h3⟩ := exists_readSlots (B := etlSlots) (by decide +kernel) hv.etl
  obtain ⟨a4, h4⟩ := exists_readSlots (B := tableSlots) (by decide +kernel) hv.table
  obtain ⟨a5, h5⟩ :=
    exists_readSlots (B := errorHandlingSlots) (by decide +kernel) hv.errorHandling
  obtain ⟨a6, h6⟩ := exists_readSlots (B := archiveSlots) (by decide +kernel) hv.archive
  obtain ⟨a7, h7⟩ := exists_readSlots (B := scheduleSlots) (by decide +kernel) hv.schedule
  exact ⟨⟨a1, a2, a3, a4, a5, a6, a7⟩,
    (buildTask_iff hv.sections).mpr ⟨h1, h2, h3, h4, h5, h6, h7⟩⟩

lemma section_changes (hP : RefusesDicts P) {merged : Doc} (hm : Merged t u merged)
    {sec : String} {S : List Field} {B : List Slot} {F : List FormField} {r r' : Record}
    (hp : (sec, F) ∈ formSections) (hmatch : matched S B F = true)
    (hout : ∃ out, validateFields P py S (sub t sec) = some out)
    (hr : readSlots B (sub t sec) = some r) (hr' : readSlots B (sub merged sec) = some r') :
    Frame u r r' ↔ SectionKept t u sec B F := by
  obtain ⟨out, hout⟩ := hout
  rw [hm.sub_eq hp] at hr'
  exact frame_iff hP hp hmatch hout hr hr'

/-- **An update of a task changes only what was submitted exactly when the defaults agree** on
the fields that are missing, in the task and in the update. -/
theorem changesOnly_iff (hP : RefusesDicts P) (t u : Doc)
    (h : (taskConfigSchema P py (.map t)).isSome = true) :
    ∃ r merged, buildTask t = some r ∧ mergeTaskUpdate t u = some merged ∧
      ∀ r', buildTask merged = some r' → (ChangesOnly u r r' ↔ Covered t u) := by
  obtain ⟨out, hout⟩ := Option.isSome_iff_exists.mp h
  obtain ⟨merged, hmerge, hm⟩ := exists_merged (sections_of_accepted hout) u
  have hv := validated_of_accepted hout
  obtain ⟨r, hr⟩ := hv.builds
  refine ⟨r, merged, hr, hmerge, fun r' hr' => ?_⟩
  have hb := (buildTask_iff hv.sections).mp hr
  have hb' := (buildTask_iff hm.hasSections).mp hr'
  have fmo := (section_changes hP hm (by simp [formSections]) (by decide +kernel) hv.monitor
    hb.monitor hb'.monitor).trans (monitor_kept (required_keys hv.monitor (by decide +kernel)))
  have fe := (section_changes hP hm (by simp [formSections]) (by decide +kernel) hv.etl
    hb.etl hb'.etl).trans (etl_kept (required_keys hv.etl (by decide +kernel)))
  have ftb := (section_changes hP hm (by simp [formSections]) (by decide +kernel) hv.table
    hb.table hb'.table).trans (table_kept (required_keys hv.table (by decide +kernel)))
  have feh := (section_changes hP hm (by simp [formSections]) (by decide +kernel)
    hv.errorHandling hb.errorHandling hb'.errorHandling).trans
      (errorHandling_kept (required_keys hv.errorHandling (by decide +kernel)))
  have far := (section_changes hP hm (by simp [formSections]) (by decide +kernel) hv.archive
    hb.archive hb'.archive).trans archive_kept
  have fsc := (section_changes hP hm (by simp [formSections]) (by decide +kernel) hv.schedule
    hb.schedule hb'.schedule).trans schedule_kept
  constructor
  · intro hc
    obtain ⟨hmode, hcompress, hcleanup⟩ := far.mp hc.archive
    exact ⟨fmo.mp hc.monitor, fe.mp hc.etl, ftb.mp hc.table, feh.mp hc.errorHandling, hmode,
      hcompress, hcleanup, fsc.mp hc.schedule⟩
  · intro hc
    exact ⟨task_frame hm hb.task hb'.task, fmo.mpr hc.recursive, fe.mpr hc.batchSize,
      ftb.mpr hc.retentionMonths, feh.mpr hc.maxRetries,
      far.mpr ⟨hc.archiveMode, hc.compressAfterDays, hc.cleanupAfterDays⟩,
      fsc.mpr hc.pollInterval⟩

/-! ### The merged task can be built -/

lemma isSome_convert {s : Slot} {v : Val} (h : s.tuple = true → v.iter.isSome = true) :
    (s.convert v).isSome = true := by
  unfold Slot.convert
  split_ifs with ht
  · rw [Option.isSome_map]
    exact h ht
  · rfl

lemma lookup_setAll_mem {key : String} {l d : Doc} (h : l.lookup key ≠ none) :
    ∃ v, (setAll d l).lookup key = some v ∧ (key, v) ∈ l := by
  induction l generalizing d with
  | nil => exact absurd rfl h
  | cons p l ih =>
    obtain ⟨k, w⟩ := p
    by_cases hl : l.lookup key = none
    · have hk : key = k := by
        by_contra hne
        rw [List.lookup_cons, beq_false_of_ne hne] at h
        exact h hl
      subst hk
      refine ⟨w, ?_, List.mem_cons_self⟩
      have := lookup_setAll_of_none (d := Dict.put key w d) hl
      rw [ConfigAtomic.lookup_put] at this
      exact this
    · obtain ⟨v, hv, hmem⟩ := ih (d := Dict.put k w d) hl
      exact ⟨v, hv, List.mem_cons_of_mem _ hmem⟩

lemma iter_mergeValue {v : Val} (h : v.iter.isSome = true) (old : Option Val) :
    (mergeValue old v).iter.isSome = true := by
  cases v with
  | map m =>
    cases old with
    | none => simp [mergeValue, Val.iter]
    | some w => cases w <;> simp [mergeValue, Val.iter]
  | _ => simpa [mergeValue] using h

lemma exists_readSlots_merged {sec : String} {B : List Slot} {F : List FormField} {r : Record}
    (hp : (sec, F) ∈ formSections) (hF : (F.map FormField.key).Nodup)
    (hB : (B.map Slot.field).Nodup) (hr : readSlots B (sub t sec) = some r)
    (hlist : ∀ s ∈ B, s.tuple = true → ∀ g ∈ F, s.key = g.key →
      ((sub t sec).lookup g.key).isSome = true ∧ ∀ v, (g.form, v) ∈ u → v.iter.isSome = true) :
    ∃ r', readSlots B (mergedSection t u sec F) = some r' := by
  refine mapAll_isSome fun s hs => ?_
  rw [Option.isSome_map]
  obtain ⟨b, hb, -⟩ := lookup_of_mapAll hB hr hs
  by_cases hg : ∃ g ∈ F, s.key = g.key
  · obtain ⟨g, hg, hkey⟩ := hg
    rw [Slot.read, hkey, lookup_mergedSection_of_mem hF hg, Option.some_or, Option.bind_some]
    refine isSome_convert fun ht => iter_mergeValue ?_ _
    obtain ⟨hthere, hsub⟩ := hlist s hs ht g hg hkey
    by_cases hu : u.lookup g.form = none
    · -- the old value, which the builder has read
      obtain ⟨v, hv⟩ := Option.isSome_iff_exists.mp hthere
      rw [ConfigApi.get, lookup_flatWith hp hg hu, Option.getD_some, ConfigApi.get, hv,
        Option.getD_some]
      rw [Slot.read, hkey, hv, Option.some_or, Option.bind_some, Slot.convert, if_pos ht] at hb
      obtain ⟨l, hl, -⟩ := Option.map_eq_some_iff.mp hb
      rw [hl]
      rfl
    · obtain ⟨v, hv, hmem⟩ := lookup_setAll_mem (d := setAll t (formValues t)) hu
      rw [ConfigApi.get, flatWith, hv, Option.getD_some]
      exact hsub v hmem
  · have hne : ∀ g ∈ F, s.key ≠ g.key := fun g hgF hkey => hg ⟨g, hgF, hkey⟩
    rw [Slot.read, lookup_mergedSection_of_ne hne, ← Slot.read, hb]
    rfl

/-- The merged task can be built, if what is submitted for `file_extensions` is a list, or
something else that `tuple` takes. -/
theorem exists_buildTask_merged {merged : Doc}
    (h : (taskConfigSchema P py (.map t)).isSome = true)
    (hmerge : mergeTaskUpdate t u = some merged)
    (hu : ∀ v, ("file_extensions", v) ∈ u → v.iter.isSome = true) :
    ∃ r', buildTask merged = some r' := by
  obtain ⟨out, hout⟩ := Option.isSome_iff_exists.mp h
  obtain ⟨merged', hmerge', hm⟩ := exists_merged (sections_of_accepted hout) u
  cases hmerge.symm.trans hmerge'
  have hv := validated_of_accepted hout
  obtain ⟨r, hr⟩ := hv.builds
  have hb := (buildTask_iff hv.sections).mp hr
  have hext : ∀ key ∈ ["file_extensions"], ((sub t "monitor").lookup key).isSome = true :=
    required_keys hv.monitor (by decide +kernel)
  have hname : ∀ key ∈ ["name"], (t.lookup key).isSome = true :=
    required_keys hv.task (by decide +kernel)
  obtain ⟨a1, h1⟩ : ∃ a, readSlots taskSlots merged = some a := by
    refine mapAll_isSome fun s hs => ?_
    rw [Option.isSome_map]
    revert s
    -- `name` is read without a default: it comes from the update or stays
    have hmname : (merged.lookup "name").isSome = true := by
      cases hu : u.lookup "name" with
      | none =>
        rw [hm.keeps "name" (by simp) hu]
        exact hname _ (by simp)
      | some v =>
        rw [hm.submits "name" (by simp) v hu]
        rfl
    obtain ⟨v, hname⟩ := Option.isSome_iff_exists.mp hmname
    simp [taskSlots, Slot.read, Slot.convert, hm.taskId, hname]
  obtain ⟨a2, h2⟩ := exists_readSlots_merged (F := monitorForm) (u := u) (by simp [formSections])
    (by decide) (by decide) hb.monitor
    (by simpa [monitorSlots, monitorForm] using And.intro (hext "file_extensions" (by simp)) hu)
  obtain ⟨a3, h3⟩ := exists_readSlots_merged (F := etlForm) (u := u) (by simp [formSections])
    (by decide) (by decide) hb.etl (by simp [etlSlots])
  obtain ⟨a4, h4⟩ := exists_readSlots_merged (F := tableForm) (u := u) (by simp [formSections])
    (by decide) (by decide) hb.table (by simp [tableSlots])
  obtain ⟨a5, h5⟩ := exists_readSlots_merged (F := errorHandlingForm) (u := u)
    (by simp [formSections]) (by decide) (by decide) hb.errorHandling
    (by simp [errorHandlingSlots, errorHandlingForm])
  obtain ⟨a6, h6⟩ := exists_readSlots_merged (F := archiveForm) (u := u) (by simp [formSections])
    (by decide) (by decide) hb.archive (by simp [archiveSlots])
  obtain ⟨a7, h7⟩ := exists_readSlots_merged (F := scheduleForm) (u := u) (by simp [formSections])
    (by decide) (by decide) hb.schedule (by simp [scheduleSlots])
  have hsub : ∀ p ∈ formSections, mergedSection t u p.1 p.2 = sub merged p.1 :=
    fun p hp => (hm.sub_eq hp).symm
  simp only [formSections, List.forall_mem_cons] at hsub
  obtain ⟨e2, e3, e4, e5, e6, e7, -⟩ := hsub
  rw [e2] at h2
  rw [e3] at h3
  rw [e4] at h4
  rw [e5] at h5
  rw [e6] at h6
  rw [e7] at h7
  exact ⟨⟨a1, a2, a3, a4, a5, a6, a7⟩,
    (buildTask_iff hm.hasSections).mpr ⟨h1, h2, h3, h4, h5, h6, h7⟩⟩

/-! ### A task that says nothing of archiving -/

/-- The names of the form's fields. -/
def formNames : List String :=
  ["task_id", "name", "enabled", "priority"] ++
    formSections.flatMap fun p => p.2.map FormField.form

def orders : Doc := [
  ("task_id", .str "orders"), ("name", .str "Orders"),
  ("monitor", .map [("folder_path", .str "/in"), ("file_extensions", .list [.str ".csv"])]),
  ("etl", .map [("extractor", .str "csv"), ("transformer_module", .str "m"),
    ("transformer_function", .str "f")]),
  ("table", .map [("base_table", .str "orders"), ("partition_field", .str "day"),
    ("create_table_template", .str "")]),
  ("error_handling", .map [("dead_letter_dir", .str "/dead")])]

def renamed : Doc := [("name", .str "Orders, renamed")]

lemma lax_refusesDicts : RefusesDicts lax := ⟨fun _ => rfl, fun _ => rfl, fun _ => rfl⟩

lemma accepted_orders : (taskConfigSchema lax ascii (.map orders)).isSome = true := by
  decide +kernel

theorem changesOnly_iff_orders : (taskConfigSchema lax ascii (.map orders)).isSome = true ∧
    ∃ r merged, buildTask orders = some r ∧ mergeTaskUpdate orders renamed = some merged ∧
      ∀ r', buildTask merged = some r' → (ChangesOnly renamed r r' ↔ Covered orders renamed) :=
  ⟨accepted_orders, changesOnly_iff lax_refusesDicts orders renamed accepted_orders⟩

/-- The archive mode of a task, where it is a string. -/
def modeOf (r : TaskRecord) : Option String :=
  match r.archive.lookup "archive_mode" with
  | some (.str s) => some s
  | _ => none

/-- A new name turns off the archiving of a task that left its mode to the default. -/
theorem not_changesOnly_renamed : ¬ ∀ (P : Pydantic) (py : PyText) (t u : Doc),
    P.Lawful → RefusesDicts P → (taskConfigSchema P py (.map t)).isSome = true →
      (∀ p ∈ u, p.1 ∈ formNames) → ∀ r merged r', buildTask t = some r →
        mergeTaskUpdate t u = some merged → buildTask merged = some r' → ChangesOnly u r r' := by
  intro hall
  have hold : (buildTask orders).bind modeOf = some "move" := by decide +kernel
  have hnew : ((mergeTaskUpdate orders renamed).bind buildTask).bind modeOf = some "keep" := by
    decide +kernel
  obtain ⟨r, hr, hmode⟩ := Option.bind_eq_some_iff.mp hold
  obtain ⟨r', hr', hmode'⟩ := Option.bind_eq_some_iff.mp hnew
  obtain ⟨merged, hmerge, hr'⟩ := Option.bind_eq_some_iff.mp hr'
  have hc := hall lax ascii orders renamed lax_lawful lax_refusesDicts accepted_orders
    (by decide) r merged r' hr hmerge hr'
  have hsame : modeOf r' = modeOf r := by
    unfold modeOf
    rw [hc.archive "archive_mode" (by decide)]
  rw [hmode, hmode'] at hsame
  exact absurd hsame (by decide)

end Tdcs.TaskMerge
