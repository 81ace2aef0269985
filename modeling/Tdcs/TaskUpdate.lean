import Tdcs.TaskMerge

/-!
Which settings of an update reach the merged task.

An update may name a setting by the flat field of the form or at its place in a section. The six
sections of the merged task are rebuilt from the old task and the flat fields alone.
-/

namespace Tdcs.TaskMerge

open Tdcs.Lib Tdcs.ConfigValidator Tdcs.Config Tdcs.ConfigApi Tdcs.ConfigAgreement

/-- The value at a path through dictionaries. -/
def valueAt : Val → List String → Option Val
  | v, [] => some v
  | .map m, key :: path => (m.lookup key).bind fun v => valueAt v path
  | _, _ :: _ => none

/-- The document sets the path to a value that is no dictionary. -/
def IsLeaf (u : Doc) (path : List String) (v : Val) : Prop :=
  valueAt (.map u) path = some v ∧ v.asMap = none

/-- A dictionary has each key once, and so have those in it. -/
def DistinctKeys (v : Val) : Prop :=
  ∀ path m, valueAt v path = some (.map m) → (m.map Prod.fst).Nodup

/-- The section and the key a field of the form stands for. -/
def formOf (key : String) : Option (String × String) :=
  (formSections.flatMap fun p => p.2.map fun g => (g.form, (p.1, g.key))).lookup key

/-- Where a path of an update lies in the nested task. -/
def nestedPath : List String → List String
  | [] => []
  | key :: path =>
    match formOf key with
    | some (sec, key') => sec :: key' :: path
    | none => key :: path

/-- Every leaf of the update but the id is in the merged task. -/
def TakesEffect (u merged : Doc) : Prop :=
  ∀ key path v, IsLeaf u (key :: path) v → key ≠ "task_id" →
    valueAt (.map merged) (nestedPath (key :: path)) = some v

/-- What a section has at a key once the flat fields of the update are in it. -/
def sectionValue (t u : Doc) (sec : String) (F : List FormField) (key : String) : Option Val :=
  match F.find? fun g => g.key = key with
  | some g => some ((u.lookup g.form).getD (get (sub t sec) g.key (g.fallback t)))
  | none => (sub t sec).lookup key

/-- What the update sets inside the section, the section has anyway. -/
def NestedRepeats (t u : Doc) (sec : String) (F : List FormField) : Prop :=
  ∀ path v, IsLeaf u (sec :: path) v →
    ∃ key rest, path = key :: rest ∧ (sectionValue t u sec F key).bind (valueAt · rest) = some v

variable {P : Pydantic} {py : PyText} {t u : Doc}

/-! ### Leaves under a merge -/

lemma mem_of_lookup {α : Type*} {key : String} {a : α} {l : List (String × α)}
    (h : l.lookup key = some a) : (key, a) ∈ l := by
  obtain ⟨l₁, l₂, rfl, -⟩ := List.lookup_eq_some_iff.1 h
  simp

lemma DistinctKeys.lookup {m : Doc} (h : DistinctKeys (.map m)) {key : String} {v : Val}
    (hv : m.lookup key = some v) : DistinctKeys v := by
  intro path m' hm'
  refine h (key :: path) m' ?_
  rw [valueAt, hv]
  exact hm'

lemma DistinctKeys.nodup {m : Doc} (h : DistinctKeys (.map m)) : (m.map Prod.fst).Nodup :=
  h [] m rfl

lemma valueAt_mergeValue {v leaf : Val} {path : List String} (old : Option Val)
    (hv : DistinctKeys v) (hleaf : valueAt v path = some leaf) (hmap : leaf.asMap = none) :
    valueAt (mergeValue old v) path = some leaf := by
  induction path generalizing v old with
  | nil =>
    cases hleaf
    rw [mergeValue_of_asMap_none hmap]
    rfl
  | cons key path ih =>
    cases v with
    | map m =>
      rw [valueAt] at hleaf
      obtain ⟨w, hw, hrest⟩ := Option.bind_eq_some_iff.1 hleaf
      have hplain : valueAt (.map m) (key :: path) = some leaf := by rw [valueAt, hw]; exact hrest
      cases old with
      | none => rwa [mergeValue_none]
      | some base =>
        cases base with
        | map d =>
          rw [mergeValue, valueAt, lookup_deepMerge_of_mem hv.nodup (mem_of_lookup hw)]
          exact ih (d.lookup key) (hv.lookup hw) hrest
        | _ => simpa only [mergeValue] using hplain
    | _ => cases hleaf

lemma mergeValue_of_old {old : Option Val} (h : ∀ v, old = some v → v.asMap = none) (v : Val) :
    mergeValue old v = v := by
  cases old with
  | none => exact mergeValue_none v
  | some w =>
    have hw := h w rfl
    cases v with
    | map m =>
      cases w with
      | map d => cases hw
      | _ => simp only [mergeValue]
    | _ => simp only [mergeValue]

/-! ### The keys of the merged task -/

lemma Validated.asMap_none (hv : Validated P py t) (hP : RefusesDicts P) :
    ∀ p ∈ formSections, ∀ g ∈ p.2, ∀ v, (sub t p.1).lookup g.key = some v → v.asMap = none := by
  have hsection : ∀ (S : List Field) (F : List FormField) (d : Doc),
      (decide (S.map Field.key).Nodup && F.all fun g => S.any fun f => f.key == g.key) = true →
      (∃ out, validateFields P py S d = some out) →
      ∀ g ∈ F, ∀ v, d.lookup g.key = some v → v.asMap = none := by
    intro S F d hm hout
    simp only [Bool.and_eq_true, decide_eq_true_eq, List.all_eq_true, List.any_eq_true,
      beq_iff_eq] at hm
    obtain ⟨out, hout⟩ := hout
    exact asMap_none_of_validated hP hm.1 hm.2 hout
  simp only [formSections, List.forall_mem_cons]
  exact ⟨hsection _ _ _ (by decide +kernel) hv.monitor, hsection _ _ _ (by decide +kernel) hv.etl,
    hsection _ _ _ (by decide +kernel) hv.table,
    hsection _ _ _ (by decide +kernel) hv.errorHandling,
    hsection _ _ _ (by decide +kernel) hv.archive, hsection _ _ _ (by decide +kernel) hv.schedule,
    by simp⟩

lemma nodup_keys_section {sec : String} {F : List FormField} (hp : (sec, F) ∈ formSections) :
    (F.map FormField.key).Nodup := by
  have hall : ∀ p ∈ formSections, (p.2.map FormField.key).Nodup := by decide
  exact hall _ hp

lemma lookup_mergedSection_eq {sec : String} {F : List FormField} (hp : (sec, F) ∈ formSections)
    (hmap : ∀ g ∈ F, ∀ v, (sub t sec).lookup g.key = some v → v.asMap = none)
    (hu : (u.map Prod.fst).Nodup) (key : String) :
    (mergedSection t u sec F).lookup key = sectionValue t u sec F key := by
  have hF := nodup_keys_section hp
  unfold sectionValue
  cases hfind : F.find? fun g => g.key = key with
  | none =>
    have hne : ∀ g ∈ F, key ≠ g.key := by
      intro g hg hkey
      have := List.find?_eq_none.1 hfind g hg
      simp [hkey] at this
    exact lookup_mergedSection_of_ne hne
  | some g =>
    have hg : g ∈ F := List.mem_of_find?_eq_some hfind
    obtain rfl : g.key = key := by simpa using List.find?_some hfind
    dsimp only
    rw [lookup_mergedSection_of_mem hF hg, mergeValue_of_old (hmap g hg), ConfigApi.get]
    cases hform : u.lookup g.form with
    | none =>
      rw [lookup_flatWith hp hg hform]
      rfl
    | some v =>
      rw [flatWith, lookup_setAll_of_mem hu (mem_of_lookup hform)]
      rfl

lemma lookup_merged_of_other {merged : Doc} (hsections : ReadsSections t)
    (hm : mergeTaskUpdate t u = some merged) (hu : (u.map Prod.fst).Nodup) {key : String} {v : Val}
    (hsec : key ∉ formSections.map Prod.fst)
    (htop : key ∉ ["task_id", "name", "enabled", "priority"]) (hv : u.lookup key = some v) :
    merged.lookup key = some (mergeValue (t.lookup key) v) := by
  rw [mergeTaskUpdate_eq hsections] at hm
  obtain rfl := Option.some.inj hm
  have hid : key ≠ "task_id" := fun he => htop (by simp [he])
  rw [lookup_put_of_ne hid, lookup_setSubmitted fun hk => absurd hk htop,
    lookup_setAll_of_none (lookup_none_of_notMem (by rw [keys_sectionMerges]; exact hsec)),
    lookup_deepMerge_of_mem hu (mem_of_lookup hv)]

/-! ### The leaves of an update -/

lemma isLeaf_cons {key : String} {path : List String} {v : Val} (h : IsLeaf u (key :: path) v) :
    ∃ w, u.lookup key = some w ∧ valueAt w path = some v := by
  obtain ⟨w, hw, hrest⟩ := Option.bind_eq_some_iff.1 h.1
  exact ⟨w, hw, hrest⟩

lemma flat_takesEffect {merged : Doc} (hm : Merged t u merged) (hu : (u.map Prod.fst).Nodup)
    (hmap : ∀ p ∈ formSections, ∀ g ∈ p.2, ∀ v, (sub t p.1).lookup g.key = some v → v.asMap = none)
    {form sec key : String} {path : List String} {v : Val} (hform : formOf form = some (sec, key))
    (hleaf : IsLeaf u (form :: path) v) :
    valueAt (.map merged) (sec :: key :: path) = some v := by
  obtain ⟨p, hp, hmem⟩ := List.mem_flatMap.1 (mem_of_lookup hform)
  obtain ⟨g, hg, heq⟩ := List.mem_map.1 hmem
  cases heq
  obtain ⟨w, hw, hrest⟩ := isLeaf_cons hleaf
  have hF := nodup_keys_section hp
  have hval : (mergedSection t u p.1 p.2).lookup g.key = some w := by
    rw [lookup_mergedSection_of_mem hF hg, mergeValue_of_old (hmap p hp g hg), ConfigApi.get,
      flatWith, lookup_setAll_of_mem hu (mem_of_lookup hw), Option.getD_some]
  rw [valueAt, hm.sections p hp, Option.bind_some, valueAt, hval]
  exact hrest

lemma plain_section {sec : String} {F : List FormField} (hp : (sec, F) ∈ formSections)
    (path : List String) : nestedPath (sec :: path) = sec :: path ∧ sec ≠ "task_id" := by
  have hall : ∀ p ∈ formSections, formOf p.1 = none ∧ p.1 ≠ "task_id" := by decide
  obtain ⟨hform, hid⟩ := hall _ hp
  rw [nestedPath, hform]
  exact ⟨rfl, hid⟩

lemma nested_takesEffect_iff {merged : Doc} (hm : Merged t u merged) (hu : (u.map Prod.fst).Nodup)
    {sec : String} {F : List FormField} (hp : (sec, F) ∈ formSections)
    (hmap : ∀ g ∈ F, ∀ v, (sub t sec).lookup g.key = some v → v.asMap = none)
    {path : List String} {v : Val} (hleaf : IsLeaf u (sec :: path) v) :
    valueAt (.map merged) (sec :: path) = some v ↔ ∃ key rest, path = key :: rest ∧
      (sectionValue t u sec F key).bind (valueAt · rest) = some v := by
  rw [valueAt, hm.sections _ hp, Option.bind_some]
  cases path with
  | nil =>
    -- the update puts something that is no dictionary in the place of the section
    constructor
    · intro heq
      cases heq
      cases hleaf.2
    · rintro ⟨key, rest, hnil, -⟩
      cases hnil
  | cons key rest =>
    rw [valueAt, lookup_mergedSection_eq hp hmap hu]
    simp

lemma other_takesEffect {out merged : Doc} (hout : taskConfigSchema P py (.map t) = some out)
    (hmerge : mergeTaskUpdate t u = some merged) (hm : Merged t u merged)
    (hu : DistinctKeys (.map u)) {key : String} {path : List String} {v : Val}
    (hsec : key ∉ formSections.map Prod.fst) (hne : key ≠ "task_id")
    (hleaf : IsLeaf u (key :: path) v) : valueAt (.map merged) (key :: path) = some v := by
  obtain ⟨w, hw, hrest⟩ := isLeaf_cons hleaf
  rw [valueAt]
  by_cases htop : key ∈ ["name", "enabled", "priority"]
  · rw [hm.submits key htop w hw]
    exact hrest
  · have htop' : key ∉ ["task_id", "name", "enabled", "priority"] := by
      simp only [List.mem_cons, not_or] at htop ⊢
      exact ⟨hne, htop⟩
    rw [lookup_merged_of_other (sections_of_accepted hout) hmerge hu.nodup hsec htop' hw]
    exact valueAt_mergeValue _ (hu.lookup hw) hrest hleaf.2

/-- **When submitted settings take effect.** All leaves of an update but the id are in the merged
task exactly if what the update sets inside the sections repeats what the sections have anyway. -/
theorem takesEffect_iff (hP : RefusesDicts P) (t u : Doc)
    (h : (taskConfigSchema P py (.map t)).isSome = true) (hu : DistinctKeys (.map u)) :
    ∃ merged, mergeTaskUpdate t u = some merged ∧
      (TakesEffect u merged ↔ ∀ p ∈ formSections, NestedRepeats t u p.1 p.2) := by
  obtain ⟨out, hout⟩ := Option.isSome_iff_exists.1 h
  obtain ⟨merged, hmerge, hm⟩ := exists_merged (sections_of_accepted hout) u
  have hmap := (validated_of_accepted hout).asMap_none hP
  refine ⟨merged, hmerge, ?_⟩
  constructor
  · intro heff p hp path v hleaf
    obtain ⟨hplain, hne⟩ := plain_section hp path
    have hval := heff p.1 path v hleaf hne
    rw [hplain] at hval
    exact (nested_takesEffect_iff hm hu.nodup hp (hmap p hp) hleaf).1 hval
  · intro hrep key path v hleaf hne
    by_cases hsec : key ∈ formSections.map Prod.fst
    · obtain ⟨p, hp, rfl⟩ := List.mem_map.1 hsec
      rw [(plain_section hp path).1]
      exact (nested_takesEffect_iff hm hu.nodup hp (hmap p hp) hleaf).2 (hrep p hp path v hleaf)
    · rw [nestedPath]
      cases hform : formOf key with
      | some place => exact flat_takesEffect hm hu.nodup hmap hform hleaf
      | none => exact other_takesEffect hout hmerge hm hu hsec hne hleaf

/-- The nested update that a test of the repository sends. -/
def recursiveNested : Doc := [("monitor", .map [("recursive", .bool true)])]

lemma distinctKeys_recursiveNested : DistinctKeys (.map recursiveNested) := by
  intro path m h
  rcases path with _ | ⟨key, path⟩
  · cases h
    decide
  · obtain ⟨v, hv, h⟩ := Option.bind_eq_some_iff.1 h
    have hmem := mem_of_lookup hv
    simp only [recursiveNested, List.mem_singleton] at hmem
    cases hmem
    rcases path with _ | ⟨key, path⟩
    · cases h
      decide
    · obtain ⟨v, hv, h⟩ := Option.bind_eq_some_iff.1 h
      have hmem := mem_of_lookup hv
      rw [List.mem_singleton] at hmem
      cases hmem
      cases path <;> cases h

theorem takesEffect_iff_recursiveNested :
    ∃ merged, mergeTaskUpdate orders recursiveNested = some merged ∧
      (TakesEffect recursiveNested merged ↔
        ∀ p ∈ formSections, NestedRepeats orders recursiveNested p.1 p.2) :=
  takesEffect_iff lax_refusesDicts orders recursiveNested accepted_orders
    distinctKeys_recursiveNested

/-- The truth value at a path of a merged task, where there is one. -/
def boolAt (merged : Doc) (path : List String) : Option Bool :=
  match valueAt (.map merged) path with
  | some (.bool b) => some b
  | _ => none

/-- The update is accepted, and the merged task is not recursive. -/
theorem not_takesEffect_recursiveNested : ¬ ∀ (P : Pydantic) (py : PyText) (t u : Doc)
    (taskId : String), P.Lawful → RefusesDicts P →
      (taskConfigSchema P py (.map t)).isSome = true →
      validateTaskRequest (.map u) (some taskId) = .ok u → DistinctKeys (.map u) →
      ∀ merged, mergeTaskUpdate t u = some merged → TakesEffect u merged := by
  intro hall
  have hfalse : (mergeTaskUpdate orders recursiveNested).bind
      (boolAt · ["monitor", "recursive"]) = some false := by decide +kernel
  obtain ⟨merged, hmerge, hval⟩ := Option.bind_eq_some_iff.1 hfalse
  have heff := hall lax ascii orders recursiveNested "orders" lax_lawful lax_refusesDicts
    accepted_orders rfl distinctKeys_recursiveNested merged hmerge
  have htrue := heff "monitor" ["recursive"] (.bool true) ⟨rfl, rfl⟩ (by decide)
  have hpath : nestedPath ["monitor", "recursive"] = ["monitor", "recursive"] := by decide
  rw [hpath] at htrue
  rw [boolAt, htrue] at hval
  cases hval

end Tdcs.TaskMerge
