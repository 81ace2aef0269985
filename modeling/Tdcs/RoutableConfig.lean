import Tdcs.ConfigAgreement
import Tdcs.LoadExact

/-!
Whether the tables an accepted configuration routes rows to have valid names.

The schema checks `base_table` when the configuration is loaded, the router checks the name of
the month's table when it creates it. The names differ by a suffix of seven characters.
-/

namespace Tdcs.RoutableConfig

open Tdcs.Lib Tdcs.Extractor Tdcs.Pipeline Tdcs.ConfigValidator Tdcs.Config Tdcs.ConfigAgreement

variable {V : Type*}

def isDigitAscii (c : Char) : Bool := '0' ≤ c && c ≤ '9'

def SixDigits (s : String) : Prop := s.toList.length = 6 ∧ s.toList.all isDigitAscii = true

/-- `strftime("%Y%m")` yields six digits. -/
structure Strftime (w : World V) : Prop where
  now : ∀ k, SixDigits (w.now k)
  row : ∀ fmt v ym, w.strptimeYm fmt v = some ym → SixDigits ym

/-- The fields of `TaskConfig` that the router reads, from the record; `rest` has the others. -/
def withTable (rest : TaskConfig) (table : Record) : Option TaskConfig := do
  let baseTable ← (table.lookup "base_table").bind text
  let partitionField ← (table.lookup "partition_field").bind text
  let partitionFieldFormat ← (table.lookup "partition_field_format").bind text
  some { rest with baseTable, partitionField, partitionFieldFormat }

/-- Every row of the task goes to a table that `_validate_table_name` lets pass. -/
def Routable (w : World V) (t : TaskRecord) : Prop :=
  ∀ rest, ∃ cfg, withTable rest t.table = some cfg ∧
    ∀ (row : Row V) (k : ℕ), validateTableName (resolveTable w cfg (w.now k) row) = none

/-- The suffix still fits behind `base_table`. -/
def BaseFits (t : TaskRecord) : Prop :=
  ∃ base, t.table.lookup "base_table" = some (.str base) ∧ base.toList.length ≤ 57

/-! ### The two checks -/

def isNameChar (c : Char) : Bool := isLowerAscii c || ('0' ≤ c && c ≤ '9') || c = '_'

lemma isNameChar_of_isLowerAscii {c : Char} (h : isLowerAscii c = true) :
    isNameChar c = true := by
  simp [isNameChar, h]

lemma isNameChar_of_isDigitAscii {c : Char} (h : isDigitAscii c = true) :
    isNameChar c = true := by
  rw [isDigitAscii] at h
  simp [isNameChar, h]

lemma matchesNameRe_iff {cs : List Char} :
    matchesNameRe cs = true ↔ cs.head?.any isLowerAscii = true ∧ cs.all isNameChar = true := by
  cases cs with
  | nil => simp [matchesNameRe]
  | cons c cs =>
    simp only [matchesNameRe, Bool.and_eq_true, List.head?_cons, Option.any_some, List.all_cons]
    constructor
    · rintro ⟨hc, hcs⟩
      exact ⟨hc, isNameChar_of_isLowerAscii hc, hcs⟩
    · rintro ⟨hc, -, hcs⟩
      exact ⟨hc, hcs⟩

lemma not_isSpace_of_isNameChar {c : Char} (h : isNameChar c = true) : isSpace c = false := by
  have hval : c.toNat = c.val.toNat := rfl
  have hbounds : (97 ≤ c.toNat ∧ c.toNat ≤ 122) ∨ (48 ≤ c.toNat ∧ c.toNat ≤ 57) ∨
      c.toNat = 95 := by
    simp only [isNameChar, isLowerAscii, Bool.or_eq_true, Bool.and_eq_true, decide_eq_true_eq,
      Char.le_def, UInt32.le_iff_toNat_le] at h
    rcases h with (h | h) | rfl
    · exact .inl h
    · exact .inr (.inl h)
    · exact .inr (.inr rfl)
  simp only [isSpace, Bool.or_eq_false_iff, Bool.and_eq_false_iff, decide_eq_false_iff_not]
  omega

lemma validateTableName_eq_none_iff {name : String} (h : matchesNameRe name.toList = true) :
    validateTableName name = none ↔ name.toList.length ≤ 64 := by
  obtain ⟨hhead, hall⟩ := matchesNameRe_iff.mp h
  have hspace : ∀ c ∈ name.toList, isSpace c = false := fun c hc =>
    not_isSpace_of_isNameChar (List.all_eq_true.mp hall c hc)
  have hfirst : name.toList.head?.any isSpace = false := by
    rcases hc : name.toList.head? with _ | c
    · rfl
    · exact hspace c (List.mem_of_head? hc)
  have hlast : name.toList.getLast?.any isSpace = false := by
    rcases hc : name.toList.getLast? with _ | c
    · rfl
    · exact hspace c (List.mem_of_getLast? hc)
  simp only [validateTableName, hfirst, hlast, h, Bool.or_self, Bool.not_true]
  simp only [Bool.false_eq_true, if_false]
  split_ifs with hlen
  · simp only [false_iff]
    omega
  · simp only [true_iff]
    omega

lemma validate_monthName {base ym : String} (hbase : matchesNameRe base.toList = true)
    (hym : SixDigits ym) :
    validateTableName (base ++ "_" ++ ym) = none ↔ base.toList.length ≤ 57 := by
  obtain ⟨hhead, hall⟩ := matchesNameRe_iff.mp hbase
  have hlist : (base ++ "_" ++ ym).toList = base.toList ++ '_' :: ym.toList := by simp
  have hdigits : ym.toList.all isNameChar = true := by
    rw [List.all_eq_true]
    exact fun c hc => isNameChar_of_isDigitAscii (List.all_eq_true.mp hym.2 c hc)
  have hname : matchesNameRe (base ++ "_" ++ ym).toList = true := by
    rw [matchesNameRe_iff, hlist]
    refine ⟨?_, ?_⟩
    · rcases hb : base.toList with _ | ⟨c, cs⟩
      · simp [hb] at hhead
      · simpa [hb] using hhead
    · simp [hall, hdigits, isNameChar]
  rw [validateTableName_eq_none_iff hname, hlist, List.length_append, List.length_cons, hym.1]
  omega

/-! ### The names of one task -/

lemma sixDigits_suffix {w : World V} (hw : Strftime w) (cfg : TaskConfig) (row : Row V) (k : ℕ) :
    SixDigits ((rowSuffix w cfg row).getD (w.now k)) := by
  rcases hs : rowSuffix w cfg row with _ | ym
  · exact hw.now k
  · rw [Option.getD_some]
    unfold rowSuffix at hs
    split_ifs at hs
    rcases hcell : getCell row (some cfg.partitionField) with _ | v
    · simp [hcell] at hs
    · simp only [hcell] at hs
      split_ifs at hs
      exact hw.row _ _ _ hs

/-- What the schema of a table promises of the record. -/
structure TableRecord (table : Record) (base field format : String) : Prop where
  baseTable : table.lookup "base_table" = some (.str base)
  partitionField : table.lookup "partition_field" = some (.str field)
  partitionFieldFormat : table.lookup "partition_field_format" = some (.str format)
  name : matchesNameRe base.toList = true

lemma routable_iff_baseFits {w : World V} (hw : Strftime w) {t : TaskRecord}
    {base field format : String} (h : TableRecord t.table base field format) :
    Routable w t ↔ BaseFits t := by
  have hcfg : ∀ rest, withTable rest t.table = some { rest with
      baseTable := base, partitionField := field, partitionFieldFormat := format } := by
    intro rest
    simp [withTable, h.baseTable, h.partitionField, h.partitionFieldFormat, text]
  have hnames : ∀ (cfg : TaskConfig), cfg.baseTable = base → ∀ (row : Row V) (k : ℕ),
      (validateTableName (resolveTable w cfg (w.now k) row) = none ↔
        base.toList.length ≤ 57) := by
    rintro cfg rfl row k
    exact validate_monthName h.name (sixDigits_suffix hw cfg row k)
  have hfits : BaseFits t ↔ base.toList.length ≤ 57 := by
    simp [BaseFits, h.baseTable]
  rw [hfits]
  constructor
  · intro hall
    obtain ⟨cfg, hsome, hroute⟩ := hall smallTask
    rw [hcfg, Option.some.injEq] at hsome
    subst hsome
    exact (hnames _ rfl Dict.empty 0).mp (hroute Dict.empty 0)
  · intro hlen rest
    exact ⟨_, hcfg rest, fun row k => (hnames _ rfl row k).mpr hlen⟩

/-! ### Accepted configurations -/

variable {P : Pydantic} {py : PyText} {host : Host}

lemma lookup_of_readSlots {B : List Slot} (hB : (B.map Slot.field).Nodup)
    {d : List (String × Val)} {r : Record} (h : readSlots B d = some r) {s : Slot} (hs : s ∈ B)
    (htuple : s.tuple = false) {v : Val} (hv : (d.lookup s.key).or s.default = some v) :
    r.lookup s.field = some v := by
  obtain ⟨b, hread, hlook⟩ := lookup_of_mapAll hB h hs
  rw [Slot.read, hv, Option.bind_some, Slot.convert, htuple] at hread
  rw [hlook, ← hread]
  rfl

lemma baseTable_of_schema {d out : List (String × Val)}
    (h : validateFields P py tableConfigSchema d = some out) :
    ∃ base, d.lookup "base_table" = some (.str base) ∧ matchesNameRe base.toList = true := by
  obtain ⟨c, hrun, -⟩ := lookup_of_validateFields (by decide) h
    (f := { key := "base_table", leaf := .str, validator := .name }) (by simp [tableConfigSchema])
  dsimp only at hrun
  rcases hd : d.lookup "base_table" with _ | v
  · simp [hd, Field.run] at hrun
  · rw [hd] at hrun
    cases v <;> simp [Field.run, Leaf.read, Validator.run] at hrun
    exact ⟨_, rfl, hrun.1⟩

lemma string_default {S : List Field} {d out : List (String × Val)}
    (hS : (S.map Field.key).Nodup) (h : validateFields P py S d = some out) {f : Field}
    (hf : f ∈ S) (hleaf : f.leaf = .str) (s₀ : String) :
    ∃ s, (d.lookup f.key).or (some (.str s₀)) = some (.str s) := by
  obtain ⟨c, hrun, -⟩ := lookup_of_validateFields hS h hf
  rcases hd : d.lookup f.key with _ | v
  · exact ⟨s₀, rfl⟩
  · rw [hd] at hrun
    cases v <;> simp [Field.run, hleaf, Leaf.read] at hrun
    exact ⟨_, rfl⟩

lemma tableRecord_of_readSlots {d out : List (String × Val)} {table : Record}
    (h : validateFields P py tableConfigSchema d = some out)
    (hr : readSlots tableSlots d = some table) :
    ∃ base field format, TableRecord table base field format := by
  obtain ⟨base, hbase, hname⟩ := baseTable_of_schema h
  obtain ⟨field, hfield, -⟩ := string_field (by decide) h "partition_field"
    (by simp [tableConfigSchema])
  obtain ⟨format, hformat⟩ := string_default (by decide) h
    (f := { key := "partition_field_format", leaf := .str, default := some (.str "%Y-%m-%d") })
    (by simp [tableConfigSchema]) rfl "%Y-%m-%d"
  refine ⟨base, field, format, ?_, ?_, ?_, hname⟩
  · exact lookup_of_readSlots (by decide) hr
      (s := { field := "base_table", key := "base_table" }) (by simp [tableSlots]) rfl
      (by simp [hbase])
  · exact lookup_of_readSlots (by decide) hr
      (s := { field := "partition_field", key := "partition_field" }) (by simp [tableSlots]) rfl
      (by simp [hfield])
  · exact lookup_of_readSlots (by decide) hr
      (s := { field := "partition_field_format", key := "partition_field_format",
              default := some (.str "%Y-%m-%d") }) (by simp [tableSlots]) rfl hformat

lemma tableRecord_of_task {v : Val} {out : List (String × Val)} {t : TaskRecord}
    (h : taskConfigSchema P py v = some out) (ht : v.asMap.bind buildTask = some t) :
    ∃ base field format, TableRecord t.table base field format := by
  simp only [taskConfigSchema, Option.bind_eq_bind, Option.bind_eq_some_iff] at h
  obtain ⟨m, hm, -, -, -, -, -, -, tb, htb, -⟩ := h
  rw [hm, Option.bind_some] at ht
  -- six sections, of which the table's is the third, and their records in the same order
  unfold buildTask at ht
  iterate 2 obtain ⟨_, -, ht⟩ := Option.bind_eq_some_iff.1 ht
  obtain ⟨d, hd, ht⟩ := Option.bind_eq_some_iff.1 ht
  iterate 6 obtain ⟨_, -, ht⟩ := Option.bind_eq_some_iff.1 ht
  obtain ⟨table, htable, ht⟩ := Option.bind_eq_some_iff.1 ht
  iterate 3 obtain ⟨_, -, ht⟩ := Option.bind_eq_some_iff.1 ht
  obtain rfl := Option.some.inj ht
  obtain ⟨hsection, hfields⟩ := required_eq_some htb
  rw [hsection, Option.some.injEq] at hd
  subst hd
  exact tableRecord_of_readSlots hfields htable

lemma task_of_build {raw : Val} {app : AppConfig} (h : validateConfig P py raw = some [])
    (hbuild : build py host raw = some app) {t : TaskRecord} (ht : t ∈ app.tasks) :
    ∃ v out, taskConfigSchema P py v = some out ∧ v.asMap.bind buildTask = some t := by
  obtain ⟨m, model, -, -, -, rfl, hmodel, -⟩ := accepted h
  simp only [appConfigSchema, Option.bind_eq_bind, Option.bind_eq_some_iff] at hmodel
  obtain ⟨m', hm', -, -, -, -, -, -, -, -, -, -, -, -, ts, hts, -⟩ := hmodel
  cases hm'
  obtain ⟨l, hl, hvalid⟩ := taskList_eq_some hts
  unfold build at hbuild
  obtain ⟨raw, hraw, hbuild⟩ := Option.bind_eq_some_iff.1 hbuild
  obtain rfl := Option.some.inj hraw
  iterate 17 obtain ⟨_, -, hbuild⟩ := Option.bind_eq_some_iff.1 hbuild
  obtain ⟨tasks, htasks, hbuild⟩ := Option.bind_eq_some_iff.1 hbuild
  obtain ⟨built, hbuilt, hbuild⟩ := Option.bind_eq_some_iff.1 hbuild
  obtain rfl := Option.some.inj hbuild
  rw [hl, Option.getD_some, Val.iter, Option.some.injEq] at htasks
  subst htasks
  obtain ⟨v, hv, hvt⟩ := exists_of_mem_mapAll hbuilt ht
  obtain ⟨out, hout⟩ := isSome_of_mapAll hvalid hv
  exact ⟨v, out, hout, hvt⟩

lemma exists_build (hP : P.Lawful) (host : Host) {raw : Val}
    (h : validateConfig P py raw = some []) : ∃ app, build py host raw = some app := by
  obtain ⟨app, -, hbuild, -, -⟩ := build_same hP h
  exact ⟨app, hbuild⟩

/-- **Which tasks of an accepted configuration can always route.** The configuration is built, and
a task's tables have valid names exactly where its `base_table` leaves room for the suffix. -/
theorem routable_iff (hP : P.Lawful) {w : World V} (hw : Strftime w) (raw : Val)
    (h : validateConfig P py raw = some []) :
    ∃ app, build py host raw = some app ∧ ∀ t ∈ app.tasks, (Routable w t ↔ BaseFits t) := by
  obtain ⟨app, hbuild⟩ := exists_build hP host h
  refine ⟨app, hbuild, fun t ht => ?_⟩
  obtain ⟨v, out, hout, hvt⟩ := task_of_build h hbuild ht
  obtain ⟨base, field, format, hrec⟩ := tableRecord_of_task hout hvt
  exact routable_iff_baseFits hw hrec

/-! ### A base table one character too long -/

def configOn (base : String) : Val := .map [
  ("service", .map [("instance_id", .str "tdcs-1"), ("log_level", .str "INFO")]),
  ("database", .map [("master", .map [("host", .str "db"), ("user", .str "tdcs"),
    ("password", .str "s3cret"), ("database", .str "tdcs")])]),
  ("web", .map [("secret_key", .str "0123456789abcdef")]),
  ("tasks", .list [.map [
    ("task_id", .str "orders"), ("name", .str "Orders"),
    ("monitor", .map [("folder_path", .str "/in"), ("file_extensions", .list [.str ".csv"])]),
    ("etl", .map [("extractor", .str "csv"), ("transformer_module", .str "m"),
      ("transformer_function", .str "f")]),
    ("table", .map [("base_table", .str base), ("partition_field", .str "day"),
      ("create_table_template", .str "")]),
    ("error_handling", .map [("dead_letter_dir", .str "/dead")])]])]

/-- Always June. -/
def june : World String := { smallWorld with strptimeYm := fun _ _ => none }

lemma strftime_june : Strftime june where
  now _ := have hjune : SixDigits "202406" := ⟨by decide, by decide⟩
    hjune
  row _ _ _ h := by cases h

/-- `n` times the letter `a`. -/
def longName (n : ℕ) : String := String.ofList (List.replicate n 'a')

lemma valid_longName : validateConfig lax ascii (configOn (longName 57)) = some [] ∧
    validateConfig lax ascii (configOn (longName 58)) = some [] :=
  ⟨valid_of_isEmpty (by decide +kernel), valid_of_isEmpty (by decide +kernel)⟩

theorem routable_iff_longName : ∃ app, build ascii ⟨"host", 1⟩ (configOn (longName 57)) = some app ∧
    ∀ t ∈ app.tasks, (Routable june t ↔ BaseFits t) :=
  routable_iff lax_lawful strftime_june _ valid_longName.1

/-- The tables of the only task. -/
def tablesOf (app : AppConfig) (rest : TaskConfig) : List (Option String) :=
  app.tasks.map fun t => (withTable rest t.table).bind fun cfg =>
    validateTableName (resolveTable june cfg (june.now 0) Dict.empty)

/-- 58 characters are accepted; the table of the month is refused. -/
theorem not_routable_longName : ¬ ∀ (P : Pydantic) (py : PyText) (host : Host) (w : World String)
    (raw : Val) (app : AppConfig), P.Lawful → Strftime w → validateConfig P py raw = some [] →
    build py host raw = some app → ∀ t ∈ app.tasks, Routable w t := by
  intro hall
  obtain ⟨app, hbuild⟩ := exists_build lax_lawful ⟨"host", 1⟩ valid_longName.2
  have htask : ((build ascii ⟨"host", 1⟩ (configOn (longName 58))).map fun app =>
      (tablesOf app smallTask).map Option.isSome) = some [true] := by
    decide +kernel
  rw [hbuild, Option.map_some, Option.some.injEq] at htask
  have hnone : ∀ b ∈ (tablesOf app smallTask).map Option.isSome, b = false := by
    intro b hb
    simp only [tablesOf, List.map_map, List.mem_map, Function.comp_apply] at hb
    obtain ⟨t, ht, rfl⟩ := hb
    obtain ⟨cfg, hcfg, hroute⟩ := hall lax ascii ⟨"host", 1⟩ june _ app lax_lawful strftime_june
      valid_longName.2 hbuild t ht smallTask
    rw [hcfg, Option.bind_some, hroute]
    rfl
  rw [htask] at hnone
  exact absurd (hnone true (by simp)) (by decide)

end Tdcs.RoutableConfig
