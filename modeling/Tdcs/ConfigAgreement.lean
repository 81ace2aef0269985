import Tdcs.ConfigValidator
import Tdcs.Config

/-!
The validator and the builder, side by side.

`validate_config` judges the values Pydantic reads in the raw dictionary, and throws them
away; `_build` reads the raw dictionary again, with defaults of its own. The two agree on a
configuration exactly when reading changes nothing in it, and no field is left out on whose
default they differ.
-/

namespace Tdcs.ConfigAgreement

open Tdcs.ConfigValidator Tdcs.Config

variable (P : Pydantic) (py : PyText) (host : Host)

/-- The configuration with the values the schemas produced for its keys. -/
def schemaOutput (raw : Val) : Option Val := do
  let app ← appConfigSchema P py raw
  let master ← required P py databaseNodeSchema app.database "master"
  let slaves ← ((app.database.lookup "slaves").getD (.list [])).iter
  let slaves ← mapAll (validateModel P py databaseNodeSchema) slaves
  some (.map [
    ("service", .map app.service),
    ("database", .map [("master", .map master), ("slaves", .list (slaves.map .map))]),
    ("concurrency", .map app.concurrency),
    ("high_availability", .map app.highAvailability),
    ("web", .map app.web),
    ("monitoring", .map app.monitoring),
    ("tasks", .list (app.tasks.map .map))])

/-- `_build` succeeds, and every field of its result holds what the schemas produced. -/
def Agrees (raw : Val) : Prop :=
  ∃ cfg, build py host raw = some cfg ∧ (schemaOutput P py raw).bind (build py host) = some cfg

/-! ### The condition -/

/-- The value has the type already. -/
def Has : Leaf → Val → Prop
  | .str, v => ∃ s, v = .str s
  | .int _ _, v => ∃ n, v = .int n
  | .float _ _, v => ∃ x, v = .float x
  | .bool, v => ∃ b, v = .bool b
  | .strings, v => ∃ l, v = .list l ∧ ∀ x ∈ l, ∃ s, x = .str s
  | .ints, v => ∃ l, v = .list l ∧ ∀ x ∈ l, ∃ n, x = .int n

/-- What a validator makes of a value it accepts. -/
def norm : Validator → Val → Val
  | .upperIn _, .str s => .str (py.upper s)
  | _, v => v

/-- A value that has the type of the field and is not normalised. -/
def Keeps (f : Field) (v : Val) : Prop := Has f.leaf v ∧ norm py f.validator v = v

/-- The key of the slot has such a value, or is missing and the defaults are the same. -/
def SlotKeeps (S : List Field) (d : List (String × Val)) (slot : Slot) : Prop :=
  ∀ f ∈ S, f.key = slot.key →
    match d.lookup slot.key with
    | some v => Keeps py f v
    | none => slot.default = f.default

def SectionKeeps (S : List Field) (B : List Slot) (d : List (String × Val)) : Prop :=
  ∀ slot ∈ B, SlotKeeps py S d slot

/-- The text of the port is that of the number read in it. -/
def PortKeeps (d : List (String × Val)) : Prop :=
  ∀ v n, d.lookup "port" = some v → P.int v = some n → py.str v = toString n

/-- A value used as a dictionary; empty, where it is none. -/
def dict (v : Val) : List (String × Val) := v.asMap.getD []

/-- A section; empty, where it is missing. -/
def sub (d : List (String × Val)) (key : String) : List (String × Val) :=
  dict ((d.lookup key).getD (.map []))

/-- The elements of a list; none, where it is missing. -/
def elems (d : List (String × Val)) (key : String) : List Val :=
  ((d.lookup key).getD (.list [])).iter.getD []

def MonitoringKeeps (d : List (String × Val)) : Prop :=
  SectionKeeps py prometheusConfigSchema prometheusSlots (sub d "prometheus") ∧
  SectionKeeps py alertingFields alertingSlots (sub d "alerting") ∧
  (∀ c ∈ elems (sub d "alerting") "channels",
    SectionKeeps py alertingChannelSchema channelSlots (dict c)) ∧
  SectionKeeps py alertingRuleSchema ruleSlots (sub (sub d "alerting") "rules")

def TaskKeeps (t : List (String × Val)) : Prop :=
  SectionKeeps py taskFields taskSlots t ∧
  SectionKeeps py monitorConfigSchema monitorSlots (sub t "monitor") ∧
  SectionKeeps py etlConfigSchema etlSlots (sub t "etl") ∧
  SectionKeeps py tableConfigSchema tableSlots (sub t "table") ∧
  SectionKeeps py errorHandlingConfigSchema errorHandlingSlots (sub t "error_handling") ∧
  SectionKeeps py archiveConfigSchema archiveSlots (sub t "archive") ∧
  SectionKeeps py scheduleConfigSchema scheduleSlots (sub t "schedule")

/-- Every value of the configuration has its type already and is written as the validators
write it, the texts of the ports included; a field that is missing has one default. -/
def ConfigKeeps (raw : Val) : Prop :=
  let m := dict raw
  let db := sub m "database"
  SectionKeeps py serviceConfigSchema serviceSlots (sub m "service") ∧
  PortKeeps P py (sub db "master") ∧
  SectionKeeps py databaseNodeSchema databaseSlots (sub db "master") ∧
  (∀ s ∈ elems db "slaves", PortKeeps P py (dict s)) ∧
  SectionKeeps py concurrencyConfigSchema concurrencySlots (sub m "concurrency") ∧
  SectionKeeps py haConfigSchema haSlots (sub m "high_availability") ∧
  SectionKeeps py webConfigSchema webSlots (sub m "web") ∧
  MonitoringKeeps py (sub m "monitoring") ∧
  ∀ t ∈ elems m "tasks", TaskKeeps py (dict t)

/-! ### One field -/

variable {P py host}

lemma some_bind {α β : Type} (a : α) (f : α → Option β) : (some a >>= f) = f a := rfl

lemma mapAll_eq_self {f : Val → Option Val} {l r : List Val} (h : mapAll f l = some r)
    (hf : ∀ x ∈ l, ∀ y, f x = some y → y = x) : r = l := by
  induction l generalizing r with
  | nil => cases h; rfl
  | cons x l ih =>
    obtain ⟨y, ys, hy, hys, rfl⟩ := mapAll_cons_eq_some.mp h
    rw [hf x List.mem_cons_self y hy, ih hys fun x' hx' => hf x' (List.mem_cons_of_mem _ hx')]

lemma mapAll_forall {α β : Type*} {f : α → Option β} {Q : β → Prop} {l : List α} {r : List β}
    (h : mapAll f l = some r) (hf : ∀ x y, f x = some y → Q y) : ∀ y ∈ r, Q y := by
  induction l generalizing r with
  | nil => cases h; simp
  | cons x l ih =>
    obtain ⟨y, ys, hy, hys, rfl⟩ := mapAll_cons_eq_some.mp h
    exact List.forall_mem_cons.mpr ⟨hf x y hy, ih hys⟩

lemma has_of_read {leaf : Leaf} {v c : Val} (h : leaf.read P v = some c) : Has leaf c := by
  cases leaf with
  | str =>
    cases v <;> simp [Leaf.read] at h
    exact ⟨_, h.symm⟩
  | int ge le =>
    simp only [Leaf.read, Option.bind_eq_some_iff] at h
    obtain ⟨n, -, h⟩ := h
    split_ifs at h
    cases h
    exact ⟨n, rfl⟩
  | float ge le =>
    simp only [Leaf.read, Option.bind_eq_some_iff] at h
    obtain ⟨x, -, h⟩ := h
    split_ifs at h
    cases h
    exact ⟨x, rfl⟩
  | bool =>
    simp only [Leaf.read, Option.map_eq_some_iff] at h
    obtain ⟨b, -, rfl⟩ := h
    exact ⟨b, rfl⟩
  | strings =>
    cases v with
    | list l =>
      simp only [Leaf.read, Option.map_eq_some_iff] at h
      obtain ⟨r, hr, rfl⟩ := h
      refine ⟨r, rfl, mapAll_forall hr fun x y hxy => ?_⟩
      cases x <;> simp at hxy
      exact ⟨_, hxy.symm⟩
    | _ => simp [Leaf.read] at h
  | ints =>
    cases v with
    | list l =>
      simp only [Leaf.read, Option.map_eq_some_iff] at h
      obtain ⟨r, hr, rfl⟩ := h
      refine ⟨r, rfl, mapAll_forall hr fun x y hxy => ?_⟩
      obtain ⟨n, -, rfl⟩ := Option.map_eq_some_iff.mp hxy
      exact ⟨n, rfl⟩
    | _ => simp [Leaf.read] at h

lemma read_of_has (hP : P.Lawful) {leaf : Leaf} {v c : Val} (hv : Has leaf v)
    (h : leaf.read P v = some c) : c = v := by
  cases leaf with
  | str =>
    obtain ⟨s, rfl⟩ := hv
    simpa [Leaf.read] using h.symm
  | int ge le =>
    obtain ⟨n, rfl⟩ := hv
    simp only [Leaf.read, hP.int, Option.bind_some] at h
    split_ifs at h
    exact (Option.some.inj h).symm
  | float ge le =>
    obtain ⟨x, rfl⟩ := hv
    simp only [Leaf.read, hP.float, Option.bind_some] at h
    split_ifs at h
    exact (Option.some.inj h).symm
  | bool =>
    obtain ⟨b, rfl⟩ := hv
    simpa [Leaf.read, hP.bool] using h.symm
  | strings =>
    obtain ⟨l, rfl, hl⟩ := hv
    simp only [Leaf.read, Option.map_eq_some_iff] at h
    obtain ⟨r, hr, rfl⟩ := h
    rw [mapAll_eq_self hr fun x hx y hxy => ?_]
    obtain ⟨s, rfl⟩ := hl x hx
    simpa using hxy.symm
  | ints =>
    obtain ⟨l, rfl, hl⟩ := hv
    simp only [Leaf.read, Option.map_eq_some_iff] at h
    obtain ⟨r, hr, rfl⟩ := h
    rw [mapAll_eq_self hr fun x hx y hxy => ?_]
    obtain ⟨n, rfl⟩ := hl x hx
    simpa [hP.int] using hxy.symm

lemma run_eq_norm {w : Validator} {v c : Val} (h : w.run py v = some c) : c = norm py w v := by
  unfold Validator.run at h
  split at h
  all_goals first
    | (cases h; rfl)
    | cases h
    | (split_ifs at h; cases h; rfl)

lemma has_norm {leaf : Leaf} {w : Validator} {v : Val} (h : Has leaf v) :
    Has leaf (norm py w v) := by
  unfold norm
  split
  · cases leaf <;> simp_all [Has]
  · exact h

lemma eq_run_iff (hP : P.Lawful) {f : Field} {v c : Val} (h : f.run P py (some v) = some c) :
    v = c ↔ Keeps py f v := by
  obtain ⟨c₀, hread, hrun⟩ := Option.bind_eq_some_iff.mp h
  have hc := run_eq_norm hrun
  constructor
  · rintro rfl
    have hv : Has f.leaf v := by
      rw [hc]
      exact has_norm (has_of_read hread)
    have h0 := read_of_has hP hv hread
    rw [h0] at hc
    exact ⟨hv, hc.symm⟩
  · rintro ⟨hv, hn⟩
    rw [hc, read_of_has hP hv hread, hn]

/-! ### One section -/

/-- Both values are there, and they are equal exactly when `p` holds. -/
def Same {α : Type*} (x y : Option α) (p : Prop) : Prop :=
  ∃ a b, x = some a ∧ y = some b ∧ (a = b ↔ p)

def isList : Val → Bool
  | .list _ => true
  | _ => false

def ofList : Leaf → Bool
  | .strings | .ints => true
  | _ => false

/-- The slot reads the key of the field; it does not require what the field leaves out, and
makes a tuple of a list only. -/
def fits (s : Slot) (f : Field) : Bool :=
  s.key == f.key && (s.default.isSome || f.default.isNone) &&
    (!s.tuple || (ofList f.leaf && s.default.all isList && f.default.all isList))

def covers (S : List Field) (B : List Slot) : Bool :=
  decide (S.map Field.key).Nodup && B.all fun s => S.any (fits s)

lemma lookup_of_validateFields {S : List Field} {d out : List (String × Val)}
    (hS : (S.map Field.key).Nodup) (h : validateFields P py S d = some out) {f : Field}
    (hf : f ∈ S) : ∃ c, f.run P py (d.lookup f.key) = some c ∧ out.lookup f.key = some c :=
  lookup_of_mapAll hS h hf

lemma convert_list {s : Slot} {v : Val} (h : s.tuple = true → isList v = true) :
    s.convert v = some v := by
  unfold Slot.convert
  split_ifs with ht
  · cases v <;> simp_all [isList, Val.iter]
  · rfl

lemma isList_of_read {leaf : Leaf} {v c : Val} (h : leaf.read P v = some c)
    (hl : ofList leaf = true) : isList v = true := by
  cases leaf <;> simp [ofList] at hl
  all_goals cases v <;> simp [Leaf.read, isList] at h ⊢

lemma isList_of_has {leaf : Leaf} {c : Val} (h : Has leaf c) (hl : ofList leaf = true) :
    isList c = true := by
  cases leaf <;> simp [ofList] at hl
  all_goals
    obtain ⟨l, rfl, -⟩ := h
    rfl

lemma run_isList {f : Field} {o : Option Val} {c : Val} (h : f.run P py o = some c)
    (hl : ofList f.leaf = true) (hdef : f.default.all isList = true) : isList c = true := by
  cases o with
  | some v =>
    obtain ⟨c₀, hread, hval⟩ := Option.bind_eq_some_iff.mp h
    have hc : Has f.leaf c := by
      rw [run_eq_norm hval]
      exact has_norm (has_of_read hread)
    exact isList_of_has hc hl
  | none =>
    change f.default = some c at h
    rwa [h, Option.all_some] at hdef

lemma slot_read {S : List Field} {d out : List (String × Val)} (hS : (S.map Field.key).Nodup)
    (h : validateFields P py S d = some out) {s : Slot} {f : Field} (hf : f ∈ S)
    (hfit : fits s f = true) : ∃ a, (d.lookup s.key).or s.default = some a ∧ s.read d = some a := by
  obtain ⟨c, hrun, -⟩ := lookup_of_validateFields hS h hf
  simp only [fits, Bool.and_eq_true, Bool.or_eq_true, Bool.not_eq_true', beq_iff_eq] at hfit
  obtain ⟨⟨hkey, hdef⟩, htup⟩ := hfit
  rw [Slot.read, hkey]
  cases hd : d.lookup f.key with
  | some v =>
    rw [hd] at hrun
    obtain ⟨c₀, hread, -⟩ := Option.bind_eq_some_iff.mp hrun
    have hlist : s.tuple = true → isList v = true := fun ht => isList_of_read hread (by simp_all)
    exact ⟨v, rfl, convert_list hlist⟩
  | none =>
    rw [hd] at hrun
    change f.default = some c at hrun
    rw [hrun] at hdef
    obtain ⟨a, ha⟩ := Option.isSome_iff_exists.mp (hdef.resolve_right (by simp))
    have hlist : s.tuple = true → isList a = true := fun ht => by simp_all
    rw [Option.none_or, ha]
    exact ⟨a, rfl, convert_list hlist⟩

lemma exists_readSlots {S : List Field} {B : List Slot} {d : List (String × Val)}
    (hc : covers S B = true) (h : ∃ out, validateFields P py S d = some out) :
    ∃ r, readSlots B d = some r := by
  obtain ⟨out, h⟩ := h
  simp only [covers, Bool.and_eq_true, decide_eq_true_eq, List.all_eq_true, List.any_eq_true]
    at hc
  refine mapAll_isSome fun s hs => ?_
  obtain ⟨f, hf, hfit⟩ := hc.2 s hs
  obtain ⟨a, -, hread⟩ := slot_read hc.1 h hf hfit
  simp [hread]

lemma slot_same (hP : P.Lawful) {S : List Field} {d out rest : List (String × Val)}
    (hS : (S.map Field.key).Nodup) (h : validateFields P py S d = some out) {s : Slot}
    {f : Field} (hf : f ∈ S) (hfit : fits s f = true) :
    Same (s.read d) (s.read (out ++ rest)) (SlotKeeps py S d s) := by
  obtain ⟨c, hrun, hout⟩ := lookup_of_validateFields hS h hf
  have hout : (out ++ rest).lookup f.key = some c := by
    rw [List.lookup_append, hout, Option.some_or]
  obtain ⟨a, ha, hread⟩ := slot_read hS h hf hfit
  simp only [fits, Bool.and_eq_true, Bool.or_eq_true, Bool.not_eq_true', beq_iff_eq] at hfit
  obtain ⟨⟨hkey, hdef⟩, htup⟩ := hfit
  have hone : ∀ g ∈ S, g.key = s.key → g = f := fun g hg hk =>
    List.inj_on_of_nodup_map hS hg hf (hk.trans hkey)
  have hsk : SlotKeeps py S d s ↔ (match d.lookup s.key with
      | some v => Keeps py f v
      | none => s.default = f.default) := by
    constructor
    · exact fun hk => hk f hf hkey.symm
    · intro hk g hg hgk
      rw [hone g hg hgk]
      exact hk
  refine ⟨a, c, hread, ?_, ?_⟩
  · rw [Slot.read, hkey, hout]
    exact convert_list fun ht => run_isList hrun (by simp_all) (by simp_all)
  · rw [hsk]
    rw [hkey] at ha ⊢
    cases hd : d.lookup f.key with
    | some v =>
      rw [hd] at hrun ha
      obtain rfl := Option.some.inj ha
      exact eq_run_iff hP hrun
    | none =>
      rw [hd, Option.none_or] at ha
      rw [hd] at hrun
      change f.default = some c at hrun
      rw [ha, hrun, Option.some.injEq]

lemma section_same_append (hP : P.Lawful) {S : List Field} {B : List Slot}
    (hc : covers S B = true) {d out : List (String × Val)}
    (h : validateFields P py S d = some out) (rest : List (String × Val)) :
    Same (readSlots B d) (readSlots B (out ++ rest)) (SectionKeeps py S B d) := by
  have hcov := hc
  simp only [covers, Bool.and_eq_true, decide_eq_true_eq, List.all_eq_true, List.any_eq_true]
    at hc
  have hslot : ∀ s ∈ B, Same (s.read d) (s.read (out ++ rest)) (SlotKeeps py S d s) := by
    intro s hs
    obtain ⟨f, hf, hfit⟩ := hc.2 s hs
    exact slot_same hP hc.1 h hf hfit
  obtain ⟨r, hr⟩ : ∃ r, readSlots B d = some r := exists_readSlots hcov ⟨out, h⟩
  obtain ⟨r', hr'⟩ : ∃ r', readSlots B (out ++ rest) = some r' := mapAll_isSome fun s hs => by
    obtain ⟨a, b, ha, hb, -⟩ := hslot s hs
    simp [hb]
  refine ⟨r, r', hr, hr', (mapAll_eq_iff hr hr').trans (forall₂_congr fun s hs => ?_)⟩
  obtain ⟨a, b, ha, hb, hab⟩ := hslot s hs
  simp [ha, hb, hab]

lemma section_same (hP : P.Lawful) {S : List Field} {B : List Slot} (hc : covers S B = true)
    {d out : List (String × Val)} (h : validateFields P py S d = some out) :
    Same (readSlots B d) (readSlots B out) (SectionKeeps py S B d) := by
  have := section_same_append hP hc h []
  rwa [List.append_nil] at this

lemma keys_of_validateFields {S : List Field} {d out : List (String × Val)}
    (h : validateFields P py S d = some out) : out.map Prod.fst = S.map Field.key :=
  keys_of_mapAll h

lemma lookup_append_of_not_key {S : List Field} {d out : List (String × Val)}
    (h : validateFields P py S d = some out) {key : String} (hk : key ∉ S.map Field.key)
    (rest : List (String × Val)) : (out ++ rest).lookup key = rest.lookup key := by
  rw [← keys_of_validateFields h] at hk
  rw [List.lookup_append, lookup_none_of_notMem hk, Option.none_or]

/-! ### Models and lists of models -/

lemma same_mapAll {α β γ : Type*} {validate : α → Option β} {g : α → Option γ}
    {k : β → Option γ} {Q : α → Prop} {l : List α} {r : List β}
    (h : mapAll validate l = some r)
    (hg : ∀ x y, validate x = some y → Same (g x) (k y) (Q x)) :
    Same (mapAll g l) (mapAll k r) (∀ x ∈ l, Q x) := by
  induction l generalizing r with
  | nil =>
    cases h
    exact ⟨[], [], rfl, rfl, by simp⟩
  | cons x l ih =>
    obtain ⟨y, ys, hy, hys, rfl⟩ := mapAll_cons_eq_some.mp h
    obtain ⟨a, b, ha, hb, hab⟩ := hg x y hy
    obtain ⟨as, bs, has, hbs, habs⟩ := ih hys
    refine ⟨a :: as, b :: bs, ?_, ?_, ?_⟩
    · simp [mapAll, ha, has]
    · simp [mapAll, hb, hbs]
    · rw [List.cons.injEq, hab, habs, List.forall_mem_cons]

lemma mapAll_map {α β γ : Type*} (g : β → Option γ) (k : α → β) (l : List α) :
    mapAll g (l.map k) = mapAll (fun a => g (k a)) l := by
  induction l with
  | nil => rfl
  | cons a l ih => simp [mapAll, ih]

lemma validateModel_eq_some {S : List Field} {v : Val} {out : List (String × Val)}
    (h : validateModel P py S v = some out) :
    ∃ d, v = .map d ∧ validateFields P py S d = some out := by
  obtain ⟨d, hd, hout⟩ := Option.bind_eq_some_iff.mp h
  exact ⟨d, Val.asMap_eq_some.mp hd, hout⟩

lemma required_eq_some {S : List Field} {m : List (String × Val)} {key : String}
    {out : List (String × Val)} (h : required P py S m key = some out) :
    (section! m key) = some (sub m key) ∧ validateFields P py S (sub m key) = some out := by
  obtain ⟨v, hv, hout⟩ := Option.bind_eq_some_iff.mp h
  obtain ⟨d, rfl, hd⟩ := validateModel_eq_some hout
  have hsub : sub m key = d := by simp [sub, hv, dict]
  rw [hsub]
  exact ⟨by simp [section!, hv], hd⟩

lemma section?_of_required {S : List Field} {m : List (String × Val)} {key : String}
    {out : List (String × Val)} (h : required P py S m key = some out) :
    (section? m key) = some (sub m key) := by
  obtain ⟨v, hv, hout⟩ := Option.bind_eq_some_iff.mp h
  obtain ⟨d, rfl, -⟩ := validateModel_eq_some hout
  simp [section?, sub, hv, dict]

lemma optional_eq_some {S : List Field} {m : List (String × Val)} {key : String}
    {out : List (String × Val)} (h : optional P py S m key = some out) :
    (section? m key) = some (sub m key) ∧ validateFields P py S (sub m key) = some out := by
  obtain ⟨d, hd, hout⟩ := validateModel_eq_some h
  have hsub : sub m key = d := by simp [sub, hd, dict]
  rw [hsub]
  exact ⟨by simp [section?, hd], hout⟩

/-! ### The parts of the configuration -/

lemma string_field {S : List Field} {d out : List (String × Val)}
    (hS : (S.map Field.key).Nodup) (h : validateFields P py S d = some out) (key : String)
    (hf : { key := key, leaf := .str } ∈ S) :
    ∃ s, d.lookup key = some (.str s) ∧ out.lookup key = some (.str s) := by
  obtain ⟨c, hrun, hout⟩ := lookup_of_validateFields hS h hf
  cases hd : d.lookup key with
  | none => simp [hd, Field.run] at hrun
  | some v =>
    rw [hd] at hrun
    cases v <;> simp [Field.run, Leaf.read, Validator.run] at hrun
    exact ⟨_, rfl, hrun ▸ hout⟩

lemma dsnText_inj {user password dbHost port port' database : String} :
    dsnText user password dbHost port database = dsnText user password dbHost port' database ↔
      port = port' := by
  constructor
  · intro h
    unfold dsnText at h
    simp only [String.append_left_inj, String.append_right_inj] at h
    exact h
  · rintro rfl
    rfl

lemma dsn_same {d out : List (String × Val)}
    (h : validateFields P py databaseNodeSchema d = some out) :
    Same (buildDsn py d) (buildDsn py out) (PortKeeps P py d) := by
  have hS : (databaseNodeSchema.map Field.key).Nodup := by decide
  obtain ⟨user, hu, hu'⟩ := string_field hS h "user" (by simp [databaseNodeSchema])
  obtain ⟨password, hpw, hpw'⟩ := string_field hS h "password" (by simp [databaseNodeSchema])
  obtain ⟨dbHost, hh, hh'⟩ := string_field hS h "host" (by simp [databaseNodeSchema])
  obtain ⟨database, hdb, hdb'⟩ := string_field hS h "database" (by simp [databaseNodeSchema])
  have hport : { key := "port", leaf := port, default := some (.int 3306) } ∈
      databaseNodeSchema := by simp [databaseNodeSchema]
  obtain ⟨c, hrun, hout⟩ := lookup_of_validateFields hS h hport
  have hiff : py.str ((d.lookup "port").getD (.int 3306)) = py.str c ↔ PortKeeps P py d := by
    cases hd : d.lookup "port" with
    | none =>
      simp only [hd, Field.run, Option.some.injEq] at hrun
      subst hrun
      simp [PortKeeps, hd]
    | some v =>
      simp only [hd, Field.run, Leaf.read, port, Validator.run,
        Option.bind_eq_some_iff] at hrun
      obtain ⟨c', ⟨n, hn, hb⟩, hc⟩ := hrun
      split_ifs at hb
      cases hb
      cases hc
      constructor
      · rintro he w k hw hk
        cases hd.symm.trans hw
        cases hn.symm.trans hk
        exact he
      · exact fun hk => hk v n hd hn
  obtain ⟨qu, hqu⟩ : ∃ q, quote (.str user) = some q := ⟨_, rfl⟩
  obtain ⟨qp, hqp⟩ : ∃ q, quote (.str password) = some q := ⟨_, rfl⟩
  have hx : buildDsn py d = some (dsnText qu qp dbHost
      (py.str ((d.lookup "port").getD (.int 3306))) database) := by
    simp [buildDsn, hu, hpw, hh, hdb, hqu, hqp, text]
  have hy : buildDsn py out = some (dsnText qu qp dbHost (py.str c) database) := by
    have ho : out.lookup "port" = some c := hout
    simp [buildDsn, hu', hpw', hh', hdb', hqu, hqp, text, ho]
  exact ⟨_, _, hx, hy, dsnText_inj.trans hiff⟩

lemma channels_same (hP : P.Lawful) {d : List (String × Val)} {chs : List (List (String × Val))}
    (h : channelList P py d = some chs) :
    ((d.lookup "channels").getD (.list [])).iter = some (elems d "channels") ∧
    Same (mapAll (fun c => c.asMap.bind (readSlots channelSlots)) (elems d "channels"))
      (mapAll (readSlots channelSlots) chs)
      (∀ c ∈ elems d "channels", SectionKeeps py alertingChannelSchema channelSlots (dict c)) := by
  obtain ⟨l, hl, hv⟩ : ∃ l, ((d.lookup "channels").getD (.list [])) = .list l ∧
      mapAll (validateModel P py alertingChannelSchema) l = some chs := by
    unfold channelList at h
    split at h
    · next hd =>
      cases h
      exact ⟨[], by rw [hd]; rfl, rfl⟩
    · next l hd => exact ⟨l, by rw [hd]; rfl, h⟩
    · cases h
  have he : elems d "channels" = l := by
    unfold elems
    rw [hl]
    rfl
  rw [he]
  refine ⟨by rw [hl]; rfl, same_mapAll hv fun x y hxy => ?_⟩
  obtain ⟨c, rfl, hc⟩ := validateModel_eq_some hxy
  exact section_same hP (by decide +kernel) hc

lemma monitoring_same (hP : P.Lawful) {v : Val} {out : List (String × Val)}
    (h : monitoringConfigSchema P py v = some out) :
    v.asMap = some (dict v) ∧
    Same (buildMonitoring (dict v)) (buildMonitoring out) (MonitoringKeeps py (dict v)) := by
  simp only [monitoringConfigSchema, alertingConfigSchema, Option.bind_eq_bind,
    Option.bind_eq_some_iff] at h
  obtain ⟨m, hm, prom, hprom, alert, ⟨am, ham, fields, hfields, chs, hchs, rules, hrules, halert⟩,
    hout⟩ := h
  cases Val.asMap_eq_some.mp hm
  cases hout
  cases halert
  obtain ⟨hps, hp⟩ := optional_eq_some hprom
  obtain ⟨hrs, hr⟩ := optional_eq_some hrules
  obtain ⟨hci, cs, cs', hcs, hcs', hciff⟩ := channels_same hP hchs
  have hsub : sub m "alerting" = am := by
    rw [sub, Val.asMap_eq_some.mp ham]
    rfl
  have has : section? m "alerting" = some am := ham
  obtain ⟨p, p', hp, hp', hpiff⟩ :=
    section_same hP (B := prometheusSlots) (by decide +kernel) hp
  obtain ⟨r, r', hr, hr', hriff⟩ := section_same hP (B := ruleSlots) (by decide +kernel) hr
  let rest := [("channels", Val.list (chs.map Val.map)), ("rules", Val.map rules)]
  obtain ⟨a, a', ha, ha', haiff⟩ :=
    section_same_append hP (B := alertingSlots) (by decide +kernel) hfields rest
  have hch : (fields ++ rest).lookup "channels" = some (.list (chs.map .map)) :=
    lookup_append_of_not_key hfields (by decide) rest
  have hru : (fields ++ rest).lookup "rules" = some (.map rules) :=
    lookup_append_of_not_key hfields (by decide) rest
  refine ⟨rfl, ⟨p, a, cs, r⟩, ⟨p', a', cs', r'⟩, ?_, ?_, ?_⟩
  · have hd : dict (.map m) = m := rfl
    simp [buildMonitoring, hd, hps, has, hrs, hci, hcs, hp, ha, hr]
  · have hps' : section? [("prometheus", .map prom), ("alerting", .map (fields ++ rest))]
        "prometheus" = some prom := rfl
    have has' : section? [("prometheus", .map prom), ("alerting", .map (fields ++ rest))]
        "alerting" = some (fields ++ rest) := rfl
    have hrs' : section? (fields ++ rest) "rules" = some rules := by simp [section?, hru]
    have hcs'' : mapAll (fun c : Val => c.asMap.bind (readSlots channelSlots))
        (chs.map Val.map) = some cs' := by
      rw [mapAll_map]
      exact hcs'
    simp [buildMonitoring, hps', has', hrs', hch, Val.iter, hcs'', hp', ha', hr', rest]
  · rw [Monitoring.mk.injEq, hpiff, haiff, hciff, hriff, MonitoringKeeps]
    have hd : dict (.map m) = m := rfl
    rw [hd, hsub]

lemma task_same (hP : P.Lawful) {v : Val} {out : List (String × Val)}
    (h : taskConfigSchema P py v = some out) :
    v.asMap = some (dict v) ∧
    Same (buildTask (dict v)) (buildTask out) (TaskKeeps py (dict v)) := by
  simp only [taskConfigSchema, Option.bind_eq_bind, Option.bind_eq_some_iff] at h
  obtain ⟨t, ht, fields, hfields, mo, hmo, e, he, tb, htb, eh, heh, ar, har, sc, hsc, hout⟩ := h
  cases Val.asMap_eq_some.mp ht
  cases hout
  obtain ⟨smo, hmo⟩ := required_eq_some hmo
  obtain ⟨se, he⟩ := required_eq_some he
  obtain ⟨stb, htb⟩ := required_eq_some htb
  obtain ⟨seh, heh⟩ := required_eq_some heh
  obtain ⟨sar, har⟩ := optional_eq_some har
  obtain ⟨ssc, hsc⟩ := optional_eq_some hsc
  let rest := [("monitor", Val.map mo), ("etl", .map e), ("table", .map tb),
    ("error_handling", .map eh), ("archive", .map ar), ("schedule", .map sc)]
  obtain ⟨a1, b1, ha1, hb1, h1⟩ :=
    section_same_append hP (B := taskSlots) (by decide +kernel) hfields rest
  obtain ⟨a2, b2, ha2, hb2, h2⟩ := section_same hP (B := monitorSlots) (by decide +kernel) hmo
  obtain ⟨a3, b3, ha3, hb3, h3⟩ := section_same hP (B := etlSlots) (by decide +kernel) he
  obtain ⟨a4, b4, ha4, hb4, h4⟩ := section_same hP (B := tableSlots) (by decide +kernel) htb
  obtain ⟨a5, b5, ha5, hb5, h5⟩ :=
    section_same hP (B := errorHandlingSlots) (by decide +kernel) heh
  obtain ⟨a6, b6, ha6, hb6, h6⟩ := section_same hP (B := archiveSlots) (by decide +kernel) har
  obtain ⟨a7, b7, ha7, hb7, h7⟩ := section_same hP (B := scheduleSlots) (by decide +kernel) hsc
  -- the sections stand behind the fields of the task, under keys of their own
  have hlook : ∀ key, key ∉ taskFields.map Field.key →
      (fields ++ rest).lookup key = rest.lookup key :=
    fun key hk => lookup_append_of_not_key hfields hk rest
  refine ⟨rfl, ⟨a1, a2, a3, a4, a5, a6, a7⟩, ⟨b1, b2, b3, b4, b5, b6, b7⟩, ?_, ?_, ?_⟩
  · have hd : dict (.map t) = t := rfl
    simp only [buildTask, hd, smo, se, stb, seh, sar, ssc, ha1, ha2, ha3, ha4, ha5, ha6, ha7,
      Option.bind_eq_bind, Option.bind_some]
  · have smo' : section! (fields ++ rest) "monitor" = some mo := by
      rw [section!, hlook "monitor" (by decide)]
      rfl
    have se' : section! (fields ++ rest) "etl" = some e := by
      rw [section!, hlook "etl" (by decide)]
      rfl
    have stb' : section! (fields ++ rest) "table" = some tb := by
      rw [section!, hlook "table" (by decide)]
      rfl
    have seh' : section! (fields ++ rest) "error_handling" = some eh := by
      rw [section!, hlook "error_handling" (by decide)]
      rfl
    have sar' : section? (fields ++ rest) "archive" = some ar := by
      rw [section?, hlook "archive" (by decide)]
      rfl
    have ssc' : section? (fields ++ rest) "schedule" = some sc := by
      rw [section?, hlook "schedule" (by decide)]
      rfl
    change buildTask (fields ++ rest) = _
    simp only [buildTask, smo', se', stb', seh', sar', ssc', hb1, hb2, hb3, hb4, hb5, hb6, hb7,
      Option.bind_eq_bind, Option.bind_some]
  · rw [TaskRecord.mk.injEq, h1, h2, h3, h4, h5, h6, h7]
    rfl

lemma taskList_eq_some {d : List (String × Val)} {ts : List (List (String × Val))}
    (h : taskList P py d = some ts) : ∃ l, d.lookup "tasks" = some (.list l) ∧
      mapAll (taskConfigSchema P py) l = some ts := by
  unfold taskList at h
  split at h
  · next l hd =>
    split_ifs at h
    exact ⟨l, hd, h⟩
  · cases h

lemma tasks_same (hP : P.Lawful) {d : List (String × Val)} {ts : List (List (String × Val))}
    (h : taskList P py d = some ts) :
    ((d.lookup "tasks").getD (.list [])).iter = some (elems d "tasks") ∧
    Same (mapAll (fun t => t.asMap.bind buildTask) (elems d "tasks")) (mapAll buildTask ts)
      (∀ t ∈ elems d "tasks", TaskKeeps py (dict t)) := by
  obtain ⟨l, hl, hv⟩ := taskList_eq_some h
  have he : elems d "tasks" = l := by simp [elems, hl, Val.iter]
  rw [he]
  refine ⟨by simp [hl, Val.iter], same_mapAll hv fun x y hxy => ?_⟩
  obtain ⟨hx, hsame⟩ := task_same hP hxy
  rw [hx]
  exact hsame

/-! ### The whole configuration -/

lemma append_eq_nil_iff_all {α : Type*} {a b c d : List α} :
    a ++ b ++ c ++ d = [] ↔ a = [] ∧ b = [] ∧ c = [] ∧ d = [] := by
  simp

lemma nodes_of_no_errors {db : List (String × Val)} (h : databaseErrors P py db = some []) :
    ∃ master slaves outs,
      required P py databaseNodeSchema db "master" = some master ∧
      ((db.lookup "slaves").getD (.list [])).iter = some slaves ∧
      mapAll (validateModel P py databaseNodeSchema) slaves = some outs := by
  simp only [databaseErrors, Option.bind_eq_bind, Option.bind_eq_some_iff, Option.some.injEq,
    List.append_eq_nil_iff] at h
  obtain ⟨slaves, hslaves, hmaster, hall⟩ := h
  split_ifs at hmaster with htruthy hvalid
  have hm : ∃ master, required P py databaseNodeSchema db "master" = some master := by
    cases hd : db.lookup "master" with
    | none => simp [hd, Val.truthy] at htruthy
    | some v =>
      rw [hd] at hvalid
      obtain ⟨master, hv⟩ := Option.ne_none_iff_exists'.mp (by simpa using hvalid)
      exact ⟨master, by simpa [required, hd] using hv⟩
  have hs : ∀ v ∈ slaves, (validateModel P py databaseNodeSchema v).isSome = true := by
    intro v hv
    by_contra hne
    obtain ⟨i, hi, rfl⟩ := List.mem_iff_getElem.mp hv
    rw [List.filterMap_eq_nil_iff] at hall
    have := hall (slaves[i], i) (by simp [List.mk_mem_zipIdx_iff_getElem?, hi])
    simp_all
  obtain ⟨master, hm⟩ := hm
  obtain ⟨outs, houts⟩ := mapAll_isSome hs
  exact ⟨master, slaves, outs, hm, hslaves, houts⟩

lemma accepted {raw : Val} (h : validateConfig P py raw = some []) :
    ∃ m app master slaves outs, raw = .map m ∧ appConfigSchema P py raw = some app ∧
      required P py databaseNodeSchema app.database "master" = some master ∧
      ((app.database.lookup "slaves").getD (.list [])).iter = some slaves ∧
      mapAll (validateModel P py databaseNodeSchema) slaves = some outs := by
  simp only [validateConfig, Option.bind_eq_bind, Option.bind_eq_some_iff, Option.some.injEq,
    append_eq_nil_iff_all] at h
  obtain ⟨m, hm, db, hdb, dbErrors, hdbe, ha, hha, tasks, htasks, ids, hids, happ, hnil, -, -⟩ := h
  subst hnil
  cases Val.asMap_eq_some.mp hm
  split_ifs at happ with hnone
  obtain ⟨app, happ⟩ := Option.ne_none_iff_exists'.mp (by simpa using hnone)
  have happ0 := happ
  simp only [appConfigSchema, Option.bind_eq_bind, Option.bind_eq_some_iff] at happ
  obtain ⟨m', hm', svc, -, db', hdb', cc, -, h', -, web, -, mon, -, ts, -, hout⟩ := happ
  cases hm'
  cases hout
  obtain ⟨v, hv, hdb'⟩ := hdb'
  have : db = db' := by
    rw [hv] at hdb
    exact Option.some.inj (hdb.symm.trans hdb')
  subst this
  obtain ⟨master, slaves, outs, hmaster, hslaves, houts⟩ := nodes_of_no_errors hdbe
  exact ⟨m, _, master, slaves, outs, rfl, happ0, hmaster, hslaves, houts⟩

lemma slaves_same {slaves : List Val} {outs : List (List (String × Val))}
    (h : mapAll (validateModel P py databaseNodeSchema) slaves = some outs) :
    Same (mapAll (fun s => s.asMap.bind (buildDsn py)) slaves) (mapAll (buildDsn py) outs)
      (∀ s ∈ slaves, PortKeeps P py (dict s)) := by
  refine same_mapAll h fun x y hxy => ?_
  obtain ⟨d, rfl, hd⟩ := validateModel_eq_some hxy
  exact dsn_same hd

lemma build_schemaOutput {svc master cc ha web mon : List (String × Val)}
    {slaves tasks : List (List (String × Val))} {id : String}
    (hid : svc.lookup "instance_id" = some (.str id)) :
    build py host (.map [
      ("service", .map svc),
      ("database", .map [("master", .map master), ("slaves", .list (slaves.map .map))]),
      ("concurrency", .map cc), ("high_availability", .map ha), ("web", .map web),
      ("monitoring", .map mon), ("tasks", .list (tasks.map .map))]) = (do
        let instanceId ← resolveInstanceId host (.str id)
        let logLevel ← readSlots serviceSlots svc
        let dbMasterDsn ← buildDsn py master
        let dbMaster ← readSlots databaseSlots master
        let dbSlaveDsns ← mapAll (buildDsn py) slaves
        let concurrency ← readSlots concurrencySlots cc
        let ha ← readSlots haSlots ha
        let web ← readSlots webSlots web
        let monitoring ← buildMonitoring mon
        let tasks ← mapAll buildTask tasks
        some { instanceId, logLevel, dbMasterDsn, dbMaster, dbSlaveDsns, concurrency, ha, web,
               monitoring, tasks }) := by
  have h1 : mapAll (fun s : Val => s.asMap.bind (buildDsn py)) (slaves.map Val.map) =
      mapAll (buildDsn py) slaves := mapAll_map _ _ _
  have h2 : mapAll (fun t : Val => t.asMap.bind buildTask) (tasks.map Val.map) =
      mapAll buildTask tasks := mapAll_map _ _ _
  rw [← h1, ← h2]
  have hid' : (svc.lookup "instance_id").bind (resolveInstanceId host) =
      resolveInstanceId host (.str id) := by rw [hid, Option.bind_some]
  rw [← hid']
  rfl

/-- An accepted configuration is built, and so is what the schemas produced; the results are
equal exactly when the configuration keeps its values. -/
lemma build_same (hP : P.Lawful) {raw : Val} (h : validateConfig P py raw = some []) :
    Same (build py host raw) ((schemaOutput P py raw).bind (build py host))
      (ConfigKeeps P py raw) := by
  obtain ⟨m, app, master, slaves, outs, rfl, happ, hmaster, hslaves, houts⟩ := accepted h
  have hout : schemaOutput P py (.map m) = some (.map [
      ("service", .map app.service),
      ("database", .map [("master", .map master), ("slaves", .list (outs.map .map))]),
      ("concurrency", .map app.concurrency), ("high_availability", .map app.highAvailability),
      ("web", .map app.web), ("monitoring", .map app.monitoring),
      ("tasks", .list (app.tasks.map .map))]) := by
    simp [schemaOutput, happ, hmaster, hslaves, houts]
  rw [hout, Option.bind_some]
  simp only [appConfigSchema, Option.bind_eq_bind, Option.bind_eq_some_iff] at happ
  obtain ⟨m', hm', svc, hsvc, db, hdb, cc, hcc, ha, hha, web, hweb, mon, hmon, ts, hts, happ⟩ :=
    happ
  cases hm'
  cases happ
  clear hout
  dsimp only at hmaster hslaves ⊢
  obtain ⟨ssvc, hsvc⟩ := required_eq_some hsvc
  obtain ⟨scc, hcc⟩ := optional_eq_some hcc
  obtain ⟨sha, hha⟩ := optional_eq_some hha
  have sweb := section?_of_required hweb
  obtain ⟨-, hweb⟩ := required_eq_some hweb
  obtain ⟨smaster, hmaster⟩ := required_eq_some hmaster
  obtain ⟨vdb, hvdb, hdb⟩ := hdb
  cases Val.asMap_eq_some.mp hdb
  have sdb : section! m "database" = some db := by simp [section!, hvdb]
  have hsub : sub m "database" = db := by simp [sub, hvdb, dict]
  have helems : elems db "slaves" = slaves := by rw [elems, hslaves, Option.getD_some]
  obtain ⟨stasks, tasks, tasks', htasks, htasks', htiff⟩ := tasks_same hP hts
  obtain ⟨smon, mo, mo', hmo, hmo', hmoiff⟩ := monitoring_same hP hmon
  have smon : section? m "monitoring" = some (sub m "monitoring") := smon
  have hmo : buildMonitoring (sub m "monitoring") = some mo := hmo
  have hmoiff : mo = mo' ↔ MonitoringKeeps py (sub m "monitoring") := hmoiff
  obtain ⟨id, hid, hid'⟩ := string_field (by decide) hsvc "instance_id"
    (by simp [serviceConfigSchema])
  obtain ⟨ll, ll', hll, hll', hlliff⟩ :=
    section_same hP (B := serviceSlots) (by decide +kernel) hsvc
  obtain ⟨dsn, dsn', hdsn, hdsn', hdsniff⟩ := dsn_same hmaster
  obtain ⟨dm, dm', hdm, hdm', hdmiff⟩ :=
    section_same hP (B := databaseSlots) (by decide +kernel) hmaster
  obtain ⟨sd, sd', hsd, hsd', hsdiff⟩ := slaves_same houts
  obtain ⟨c, c', hc, hc', hciff⟩ :=
    section_same hP (B := concurrencySlots) (by decide +kernel) hcc
  obtain ⟨ha, ha', hha, hha', hhaiff⟩ := section_same hP (B := haSlots) (by decide +kernel) hha
  obtain ⟨w, w', hw, hw', hwiff⟩ := section_same hP (B := webSlots) (by decide +kernel) hweb
  obtain ⟨inst, hinst⟩ : ∃ inst, resolveInstanceId host (.str id) = some inst := ⟨_, rfl⟩
  refine ⟨⟨inst, ll, dsn, dm, sd, c, ha, w, mo, tasks⟩,
    ⟨inst, ll', dsn', dm', sd', c', ha', w', mo', tasks'⟩, ?_, ?_, ?_⟩
  · -- the sections first, then what is built from them
    rw [build, Val.asMap_map, some_bind, ssvc, some_bind, sdb, some_bind, scc, some_bind, sha,
      some_bind, sweb, some_bind, smon, some_bind]
    rw [hid, Option.bind_some, hinst, some_bind, hll, some_bind, smaster, some_bind, hdsn,
      some_bind, hdm, some_bind, hslaves, some_bind, hsd, some_bind, hc, some_bind, hha,
      some_bind, hw, some_bind, hmo, some_bind, stasks, some_bind, htasks, some_bind]
  · rw [build_schemaOutput hid', hinst, some_bind, hll', some_bind, hdsn', some_bind, hdm',
      some_bind, hsd', some_bind, hc', some_bind, hha', some_bind, hw', some_bind, hmo',
      some_bind, htasks', some_bind]
  · rw [AppConfig.mk.injEq, hlliff, hdsniff, hdmiff, hsdiff, hciff, hhaiff, hwiff, hmoiff, htiff]
    simp [ConfigKeeps, dict, hsub, helems]

/-- **The builder and the validator agree on an accepted configuration exactly when it keeps its
values**: each is written in its field's type and as the validators write it, and no field is
left out on whose default they differ. -/
theorem agrees_iff (hP : P.Lawful) (raw : Val) (h : validateConfig P py raw = some []) :
    Agrees P py host raw ↔ ConfigKeeps P py raw := by
  obtain ⟨x, y, hx, hy, hxy⟩ := build_same hP h
  rw [← hxy, Agrees, hx, hy]
  constructor
  · rintro ⟨cfg, hxc, hyc⟩
    exact Option.some.inj (hxc.trans hyc.symm)
  · rintro rfl
    exact ⟨x, rfl, rfl⟩

/-! ### A configuration with one task -/

/-- Lax mode, on the values used here: whole numbers, and the strings for truth values. -/
def lax : Pydantic where
  int
    | .int n => some n
    | _ => none
  float
    | .float x => some x
    | .int n => some n
    | _ => none
  bool
    | .bool b => some b
    | .str s =>
      if s ∈ ["false", "no", "off"] then some false
      else if s ∈ ["true", "yes", "on"] then some true else none
    | _ => none
  errorText := fun schema _ => schema

lemma lax_lawful : lax.Lawful := ⟨fun _ => rfl, fun _ => rfl, fun _ => rfl⟩

def ascii : PyText where
  ofOther := fun _ => ""
  upper := String.toUpper

def oneTask (enabled : Val) : Val := .map [
  ("service", .map [("instance_id", .str "tdcs-${PID}"), ("log_level", .str "INFO")]),
  ("database", .map [("master", .map [("host", .str "db"), ("user", .str "tdcs"),
    ("password", .str "s3cret"), ("database", .str "tdcs")])]),
  ("web", .map [("secret_key", .str "0123456789abcdef")]),
  ("tasks", .list [.map [
    ("task_id", .str "orders"), ("name", .str "Orders"), ("enabled", enabled),
    ("monitor", .map [("folder_path", .str "/in"), ("file_extensions", .list [.str ".csv"]),
      ("debounce_seconds", .float 3), ("stability_check_interval", .float 1)]),
    ("etl", .map [("extractor", .str "csv"), ("transformer_module", .str "m"),
      ("transformer_function", .str "f")]),
    ("table", .map [("base_table", .str "orders"), ("partition_field", .str "day"),
      ("create_table_template", .str "")]),
    ("error_handling", .map [("dead_letter_dir", .str "/dead")])]])]

/-- The first task is switched off by a truth value. -/
def switchedOff (cfg : AppConfig) : Bool :=
  match cfg.tasks.head?.bind fun t => t.task.lookup "enabled" with
  | some (.bool b) => !b
  | _ => false

lemma valid_of_isEmpty {raw : Val}
    (h : (validateConfig P py raw).all List.isEmpty = true ∧
      (validateConfig P py raw).isSome = true) : validateConfig P py raw = some [] := by
  obtain ⟨errors, herr⟩ := Option.isSome_iff_exists.mp h.2
  rw [herr] at h ⊢
  simpa using h.1

lemma valid_oneTask : validateConfig lax ascii (oneTask (.bool true)) = some [] ∧
    validateConfig lax ascii (oneTask (.str "false")) = some [] :=
  ⟨valid_of_isEmpty (by decide +kernel), valid_of_isEmpty (by decide +kernel)⟩

theorem agrees_iff_oneTask : validateConfig lax ascii (oneTask (.bool true)) = some [] ∧
    (Agrees lax ascii ⟨"host", 1⟩ (oneTask (.bool true)) ↔
      ConfigKeeps lax ascii (oneTask (.bool true))) :=
  ⟨valid_oneTask.1, agrees_iff lax_lawful _ valid_oneTask.1⟩

/-- `enabled: "false"` is accepted as false, and built as a string, which is true. -/
theorem not_agrees_enabledText : ¬ ∀ (P : Pydantic) (py : PyText) (host : Host) (raw : Val),
    P.Lawful → validateConfig P py raw = some [] → Agrees P py host raw := by
  intro hall
  obtain ⟨cfg, hb, hs⟩ := hall lax ascii ⟨"host", 1⟩ (oneTask (.str "false")) lax_lawful
    valid_oneTask.2
  have h1 : (build ascii ⟨"host", 1⟩ (oneTask (.str "false"))).map switchedOff = some false := by
    decide +kernel
  have h2 : ((schemaOutput lax ascii (oneTask (.str "false"))).bind
      (build ascii ⟨"host", 1⟩)).map switchedOff = some true := by
    decide +kernel
  rw [hb] at h1
  rw [hs] at h2
  exact absurd (Option.some.inj (h1.symm.trans h2)) (by decide)

end Tdcs.ConfigAgreement
