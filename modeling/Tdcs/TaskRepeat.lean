import Tdcs.TaskUpdate

/-!
Sending an update of a task twice.

The first merge leaves the flat fields at the top of the task, where a second one reads them
again. It sets no new key then, and what it sets is there: a dictionary of the update that is
merged into its own result changes nothing.
-/

namespace Tdcs.TaskMerge

open Tdcs.Lib Tdcs.ConfigValidator Tdcs.Config Tdcs.ConfigApi Tdcs.ConfigAgreement

variable {P : Pydantic} {py : PyText} {t u : Doc}

/-! ### Distinct keys -/

lemma lookup_of_mem_nodup {key : String} {v : Val} {m : Doc} (hm : (m.map Prod.fst).Nodup)
    (h : (key, v) ∈ m) : m.lookup key = some v := by
  induction m with
  | nil => cases h
  | cons p m ih =>
    rw [List.map_cons, List.nodup_cons] at hm
    rcases List.mem_cons.1 h with rfl | h
    · rw [List.lookup_cons_self]
    · have hmem : key ∈ m.map Prod.fst := List.mem_map_of_mem (f := Prod.fst) h
      have hne : key ≠ p.1 := by
        rintro rfl
        exact hm.1 hmem
      rw [List.lookup_cons, beq_false_of_ne hne]
      exact ih hm.2 h

lemma distinctKeys_of_asMap_none {v : Val} (h : v.asMap = none) : DistinctKeys v := by
  intro path m hm
  cases path with
  | nil =>
    cases hm
    cases h
  | cons key path =>
    cases v with
    | map m' => cases h
    | _ => cases hm

lemma distinctKeys_map_iff {m : Doc} :
    DistinctKeys (.map m) ↔ (m.map Prod.fst).Nodup ∧ ∀ p ∈ m, DistinctKeys p.2 := by
  constructor
  · intro h
    exact ⟨h.nodup, fun p hp => h.lookup (lookup_of_mem_nodup h.nodup hp)⟩
  · rintro ⟨hm, hvals⟩ path m' hpath
    cases path with
    | nil =>
      cases hpath
      exact hm
    | cons key path =>
      obtain ⟨v, hv, hrest⟩ := Option.bind_eq_some_iff.1 hpath
      exact hvals _ (mem_of_lookup hv) path m' hrest

/-! ### Merging twice -/

lemma put_of_lookup {key : String} {v : Val} {d : Doc} (h : d.lookup key = some v) :
    Dict.put key v d = d := by
  induction d with
  | nil => cases h
  | cons p d ih =>
    obtain ⟨key', v'⟩ := p
    by_cases hk : key' = key
    · subst hk
      rw [List.lookup_cons_self] at h
      cases h
      rw [Dict.put, if_pos rfl]
    · rw [List.lookup_cons, beq_false_of_ne (Ne.symm hk)] at h
      rw [Dict.put, if_neg hk, ih h]

/-- Each key of the update is there, and merging the value in changes nothing. -/
def Absorbs (d updates : Doc) : Prop :=
  ∀ p ∈ updates, ∃ v, d.lookup p.1 = some v ∧ mergeValue (some v) p.2 = v

lemma deepMerge_of_absorbs {d updates : Doc} (h : Absorbs d updates) : deepMerge d updates = d := by
  induction updates with
  | nil => rw [deepMerge]
  | cons p updates ih =>
    obtain ⟨v, hv, hmerge⟩ := h p List.mem_cons_self
    rw [deepMerge, hv, hmerge, put_of_lookup hv]
    exact ih fun q hq => h q (List.mem_cons_of_mem _ hq)

lemma mergeValue_mergeValue (v : Val) (hv : DistinctKeys v) (old : Option Val) :
    mergeValue (some (mergeValue old v)) v = mergeValue old v := by
  match v, hv with
  | .map m, hv =>
    have ih : ∀ p ∈ m, ∀ old, mergeValue (some (mergeValue old p.2)) p.2 = mergeValue old p.2 := by
      intro p hp old
      have hlt := List.sizeOf_lt_of_mem hp
      exact mergeValue_mergeValue p.2 ((distinctKeys_map_iff.1 hv).2 p hp) old
    have hover : ∀ base, deepMerge (deepMerge base m) m = deepMerge base m := fun base =>
      deepMerge_of_absorbs fun p hp =>
        ⟨_, lookup_deepMerge_of_mem hv.nodup hp, ih p hp (base.lookup p.1)⟩
    have hself : deepMerge m m = m := deepMerge_of_absorbs fun p hp => by
      have hp' := ih p hp none
      rw [mergeValue_none] at hp'
      exact ⟨p.2, lookup_of_mem_nodup hv.nodup hp, hp'⟩
    rcases old with _ | w
    · rw [mergeValue_none, mergeValue, hself]
    · cases w with
      | map base => rw [mergeValue, mergeValue, hover]
      | _ => simp only [mergeValue, hself]
  | .null, _ | .bool _, _ | .int _, _ | .float _, _ | .str _, _ | .list _, _ | .other _, _ =>
    simp only [mergeValue]
termination_by sizeOf v
decreasing_by
  obtain ⟨key, w⟩ := p
  simp only [Prod.mk.sizeOf_spec, Val.map.sizeOf_spec] at hlt ⊢
  omega

lemma mergeValue_self {v : Val} (hv : DistinctKeys v) : mergeValue (some v) v = v := by
  have h := mergeValue_mergeValue v hv none
  rwa [mergeValue_none] at h

/-! ### The order of the keys -/

lemma keys_setAll (d l : Doc) :
    (setAll d l).map Prod.fst = Dict.addKeys (d.map Prod.fst) (l.map Prod.fst) := by
  induction l generalizing d with
  | nil => rfl
  | cons p l ih =>
    rw [setAll, List.foldl_cons, ← setAll, ih, Dict.keys_put, List.map_cons, ← Dict.addKeys_cons]

lemma keys_deepMerge (d l : Doc) :
    (deepMerge d l).map Prod.fst = Dict.addKeys (d.map Prod.fst) (l.map Prod.fst) := by
  induction l generalizing d with
  | nil => rw [deepMerge]; rfl
  | cons p l ih =>
    obtain ⟨key, v⟩ := p
    rw [deepMerge, ih, Dict.keys_put, List.map_cons, ← Dict.addKeys_cons]

lemma keys_setSubmitted (keys : List String) (result : Doc) :
    (setSubmitted u keys result).map Prod.fst =
      Dict.addKeys (result.map Prod.fst) (keys.filter fun key => (u.lookup key).isSome) := by
  induction keys generalizing result with
  | nil => rfl
  | cons key keys ih =>
    rw [setSubmitted, List.foldl_cons, ← setSubmitted, ih, List.filter_cons]
    cases hu : u.lookup key with
    | none => rfl
    | some v => exact congrArg (Dict.addKeys · _) (Dict.keys_put key v result)

/-- The keys that a merge sets; they depend on the update alone. -/
def setKeys (u : Doc) : List String :=
  u.map Prod.fst ++ formSections.map Prod.fst ++
    ["task_id", "name", "enabled", "priority"].filter (fun key => (u.lookup key).isSome) ++
    ["task_id"]

lemma keys_mergeTaskUpdate {merged : Doc} (hsec : ReadsSections t)
    (h : mergeTaskUpdate t u = some merged) :
    merged.map Prod.fst = Dict.addKeys (t.map Prod.fst) (setKeys u) := by
  rw [mergeTaskUpdate_eq hsec] at h
  obtain rfl := Option.some.inj h
  rw [Dict.keys_put, keys_setSubmitted, keys_setAll, keys_deepMerge, keys_sectionMerges]
  rw [setKeys, Dict.addKeys_append, Dict.addKeys_append, Dict.addKeys_append]

lemma eq_of_lookup {d d' : Doc} (hkeys : d'.map Prod.fst = d.map Prod.fst)
    (hd : (d.map Prod.fst).Nodup) (h : ∀ key, d'.lookup key = d.lookup key) : d' = d := by
  induction d generalizing d' with
  | nil => exact List.map_eq_nil_iff.1 hkeys
  | cons p d ih =>
    obtain ⟨key, v⟩ := p
    obtain ⟨⟨key', v'⟩, d', rfl, hkey, hrest⟩ := List.map_eq_cons_iff.1 hkeys
    obtain rfl : key' = key := hkey
    rw [List.map_cons, List.nodup_cons] at hd
    have hv := h key'
    rw [List.lookup_cons_self, List.lookup_cons_self] at hv
    cases hv
    congr 1
    refine ih hrest hd.2 fun k => ?_
    by_cases hk : k = key'
    · subst hk
      rw [lookup_none_of_notMem hd.1, lookup_none_of_notMem (by rw [hrest]; exact hd.1)]
    · have hk' := h k
      rwa [List.lookup_cons, List.lookup_cons, beq_false_of_ne hk] at hk'

/-! ### The sections -/

variable {merged : Doc}

lemma Merged.readsSections (hm : Merged t u merged) : ReadsSections merged := by
  intro p hp
  exact readsSection (section!_of_lookup (hm.sections p hp)).2.1

lemma distinctKeys_get {d : Doc} (hd : DistinctKeys (.map d)) (key : String) {default : Val}
    (hdefault : DistinctKeys default) : DistinctKeys (get d key default) := by
  rw [ConfigApi.get]
  cases hl : d.lookup key with
  | none => exact hdefault
  | some v => exact hd.lookup hl

lemma distinctKeys_sub (ht : DistinctKeys (.map t)) (sec : String) :
    DistinctKeys (.map (sub t sec)) := by
  have hnil : DistinctKeys (.map []) := distinctKeys_map_iff.2 ⟨List.nodup_nil, by simp⟩
  have hget := distinctKeys_get ht sec hnil
  rw [ConfigApi.get] at hget
  rw [sub, dict]
  cases hm : ((t.lookup sec).getD (.map [])).asMap with
  | none => exact hnil
  | some m =>
    rw [Val.asMap_eq_some.1 hm] at hget
    exact hget

lemma distinctKeys_fallback (ht : DistinctKeys (.map t)) {p : String × List FormField}
    (hp : p ∈ formSections) {g : FormField} (hg : g ∈ p.2) : DistinctKeys (g.fallback t) := by
  have hall : ∀ p ∈ formSections, ∀ g ∈ p.2, g.default.asMap.isNone = true := by decide
  have hdefault := distinctKeys_of_asMap_none (Option.isNone_iff_eq_none.1 (hall p hp g hg))
  rw [FormField.fallback]
  split_ifs with hl
  · exact distinctKeys_get ht _ hdefault
  · exact hdefault

lemma mergedSection_merged (ht : DistinctKeys (.map t)) (hu : DistinctKeys (.map u))
    (hm : Merged t u merged) {p : String × List FormField} (hp : p ∈ formSections) :
    mergedSection merged u p.1 p.2 = mergedSection t u p.1 p.2 := by
  have hF : (p.2.map FormField.key).Nodup := nodup_keys_section hp
  rw [mergedSection, hm.sub_eq hp]
  refine deepMerge_of_absorbs fun q hq => ?_
  obtain ⟨g, hg, rfl⟩ := List.mem_map.1 hq
  have hold : (mergedSection t u p.1 p.2).lookup g.key = some (mergeValue
      ((sub t p.1).lookup g.key) (get (flatWith t u) g.form g.default)) :=
    lookup_mergedSection_of_mem hF hg
  refine ⟨_, hold, ?_⟩
  dsimp only
  cases hform : u.lookup g.form with
  | some v =>
    -- the flat field, which is set over both tasks
    have hval : ∀ t, get (flatWith t u) g.form g.default = v := fun t => by
      rw [ConfigApi.get, flatWith, lookup_setAll_of_mem hu.nodup (mem_of_lookup hform),
        Option.getD_some]
    rw [hval, hval]
    exact mergeValue_mergeValue v (hu.lookup hform) _
  | none =>
    have hval : ∀ t, get (flatWith t u) g.form g.default =
        get (sub t p.1) g.key (g.fallback t) := fun t => by
      rw [ConfigApi.get, lookup_flatWith hp hg hform, Option.getD_some]
    have hnew : get (sub merged p.1) g.key (g.fallback merged) =
        mergeValue ((sub t p.1).lookup g.key) (get (sub t p.1) g.key (g.fallback t)) := by
      rw [ConfigApi.get, hm.sub_eq hp, hold, Option.getD_some, hval]
    have hdistinct := distinctKeys_get (distinctKeys_sub ht p.1) g.key
      (distinctKeys_fallback ht hp hg)
    have hkeep : mergeValue ((sub t p.1).lookup g.key) (get (sub t p.1) g.key (g.fallback t)) =
        get (sub t p.1) g.key (g.fallback t) := by
      cases hl : (sub t p.1).lookup g.key with
      | none => rw [mergeValue_none]
      | some v =>
        have hv : get (sub t p.1) g.key (g.fallback t) = v := by
          rw [ConfigApi.get, hl, Option.getD_some]
        rw [hv] at hdistinct ⊢
        exact mergeValue_self hdistinct
    rw [hval, hval, hnew, hkeep]
    exact mergeValue_self hdistinct

/-! ### Two merges -/

lemma lookup_merged_of_none (hsec : ReadsSections t) (h : mergeTaskUpdate t u = some merged)
    {key : String} (hform : key ∉ formSections.map Prod.fst) (hid : key ≠ "task_id")
    (hu : u.lookup key = none) : merged.lookup key = t.lookup key := by
  rw [mergeTaskUpdate_eq hsec] at h
  obtain rfl := Option.some.inj h
  rw [lookup_put_of_ne hid, lookup_setSubmitted fun _ => hu,
    lookup_setAll_of_none (lookup_none_of_notMem (by rw [keys_sectionMerges]; exact hform)),
    lookup_deepMerge_of_none hu]

lemma lookup_merged_merged {merged' : Doc} (hsec : ReadsSections t) (ht : DistinctKeys (.map t))
    (hu : DistinctKeys (.map u)) (h : mergeTaskUpdate t u = some merged) (hm : Merged t u merged)
    (h' : mergeTaskUpdate merged u = some merged') (hm' : Merged merged u merged')
    (key : String) : merged'.lookup key = merged.lookup key := by
  by_cases hform : key ∈ formSections.map Prod.fst
  · obtain ⟨p, hp, rfl⟩ := List.mem_map.1 hform
    rw [hm'.sections p hp, hm.sections p hp, mergedSection_merged ht hu hm hp]
  by_cases hid : key = "task_id"
  · subst hid
    rw [hm'.taskId, ConfigApi.get, hm.taskId, Option.getD_some]
  cases hval : u.lookup key with
  | none => exact lookup_merged_of_none hm.readsSections h' hform hid hval
  | some v =>
    by_cases htop : key ∈ ["name", "enabled", "priority"]
    · rw [hm'.submits key htop v hval, hm.submits key htop v hval]
    · have htop' : key ∉ ["task_id", "name", "enabled", "priority"] := by
        rw [List.mem_cons, not_or]
        exact ⟨hid, htop⟩
      have hfirst := lookup_merged_of_other hsec h hu.nodup hform htop' hval
      rw [lookup_merged_of_other hm.readsSections h' hu.nodup hform htop' hval, hfirst,
        mergeValue_mergeValue v (hu.lookup hval)]

/-- **An update of a task is idempotent**: sent again, it leaves the task as it is, the order of
its keys included. -/
theorem mergeTaskUpdate_repeat (t u : Doc) (h : (taskConfigSchema P py (.map t)).isSome = true)
    (ht : DistinctKeys (.map t)) (hu : DistinctKeys (.map u)) :
    ∃ merged, mergeTaskUpdate t u = some merged ∧ mergeTaskUpdate merged u = some merged := by
  obtain ⟨out, hout⟩ := Option.isSome_iff_exists.1 h
  have hsec := sections_of_accepted hout
  obtain ⟨merged, hmerge, hm⟩ := exists_merged hsec u
  obtain ⟨merged', hmerge', hm'⟩ := exists_merged hm.readsSections u
  have hkeys := keys_mergeTaskUpdate hsec hmerge
  have hsame : merged' = merged := by
    apply eq_of_lookup
    · rw [keys_mergeTaskUpdate hm.readsSections hmerge', hkeys, Dict.addKeys_addKeys]
    · rw [hkeys]
      exact Dict.nodup_addKeys ht.nodup
    · exact lookup_merged_merged hsec ht hu hmerge hm hmerge' hm'
  rw [hsame] at hmerge'
  exact ⟨merged, hmerge, hmerge'⟩

/-- A flat field, a section and a key of no section, all in one update. -/
def mixed : Doc := [
  ("recursive", .bool true), ("monitor", .map [("folder_path", .str "/new")]),
  ("note", .map [("by", .str "web")])]

lemma distinctKeys_orders : DistinctKeys (.map orders) := by
  have hstr : ∀ s, DistinctKeys (.str s) := fun s => distinctKeys_of_asMap_none rfl
  have hlist : ∀ l, DistinctKeys (.list l) := fun l => distinctKeys_of_asMap_none rfl
  simp [orders, distinctKeys_map_iff, hstr, hlist]

lemma distinctKeys_mixed : DistinctKeys (.map mixed) := by
  have hstr : ∀ s, DistinctKeys (.str s) := fun s => distinctKeys_of_asMap_none rfl
  have hbool : ∀ b, DistinctKeys (.bool b) := fun b => distinctKeys_of_asMap_none rfl
  simp [mixed, distinctKeys_map_iff, hstr, hbool]

theorem mergeTaskUpdate_repeat_mixed :
    ∃ merged, mergeTaskUpdate orders mixed = some merged ∧
      mergeTaskUpdate merged mixed = some merged :=
  mergeTaskUpdate_repeat orders mixed accepted_orders distinctKeys_orders distinctKeys_mixed

end Tdcs.TaskMerge
