import Mathlib.Data.Int.Notation
import Mathlib.Data.Nat.Notation
import Mathlib.Data.Rat.Init
import Mathlib.Data.List.Basic

/-!
The values a YAML document denotes, as `yaml.safe_load` gives them, and what Python's
operators make of them.
-/

namespace Tdcs

/-- `other` stands for timestamps and the like, which no field of the configuration
takes. Floats are finite. -/
inductive Val
  | null
  | bool (b : Bool)
  | int (n : ℤ)
  | float (x : ℚ)
  | str (s : String)
  | list (l : List Val)
  | map (m : List (String × Val))
  | other (text : String)
  deriving Inhabited

namespace Val

def asMap : Val → Option (List (String × Val))
  | map m => some m
  | _ => none

/-- `bool(v)`. -/
def truthy : Val → Bool
  | null => false
  | bool b => b
  | int n => n ≠ 0
  | float x => x ≠ 0
  | str s => s ≠ ""
  | list l => !l.isEmpty
  | map m => !m.isEmpty
  | other _ => true

/-- The elements `for x in v` goes through, if `v` is iterable. -/
def iter : Val → Option (List Val)
  | list l => some l
  | map m => some (m.map fun p => str p.1)
  | str s => some (s.toList.map fun c => str (String.singleton c))
  | _ => none

/-- What two hashable values are equal by: `1`, `1.0` and `True` are one key. -/
inductive HashKey
  | null
  | num (x : ℚ)
  | str (s : String)
  | other (text : String)
  deriving DecidableEq

def hashKey : Val → Option HashKey
  | null => some .null
  | bool b => some (.num (if b then 1 else 0))
  | int n => some (.num n)
  | float x => some (.num x)
  | str s => some (.str s)
  | list _ | map _ => none
  | other t => some (.other t)

@[simp] lemma asMap_map (m : List (String × Val)) : (map m).asMap = some m := rfl

lemma asMap_eq_some {v : Val} {m : List (String × Val)} : v.asMap = some m ↔ v = map m := by
  cases v <;> simp [asMap]

end Val

/-- `str` of a value; the text of floats and of containers comes from outside. -/
structure PyText where
  ofOther : Val → String
  upper : String → String

/-- `str(v)`. -/
def PyText.str (py : PyText) : Val → String
  | .null => "None"
  | .bool b => if b then "True" else "False"
  | .int n => toString n
  | .str s => s
  | v => py.ofOther v

/-! ### Lists of partial results -/

section

variable {α β : Type*}

/-- `[f(x) for x in l]`, which raises if one call does. -/
def mapAll (f : α → Option β) : List α → Option (List β)
  | [] => some []
  | a :: l => (f a).bind fun b => (mapAll f l).map fun bs => b :: bs

@[simp] lemma mapAll_nil (f : α → Option β) : mapAll f [] = some [] := rfl

lemma mapAll_cons_eq_some {f : α → Option β} {a : α} {l : List α} {r : List β} :
    mapAll f (a :: l) = some r ↔ ∃ b bs, f a = some b ∧ mapAll f l = some bs ∧ r = b :: bs := by
  simp only [mapAll, Option.bind_eq_some_iff, Option.map_eq_some_iff]
  constructor
  · rintro ⟨b, hb, bs, hbs, rfl⟩
    exact ⟨b, bs, hb, hbs, rfl⟩
  · rintro ⟨b, bs, hb, hbs, rfl⟩
    exact ⟨b, hb, bs, hbs, rfl⟩

lemma mapAll_eq_iff {f g : α → Option β} {l : List α} {r r' : List β} (hr : mapAll f l = some r)
    (hr' : mapAll g l = some r') : r = r' ↔ ∀ a ∈ l, f a = g a := by
  induction l generalizing r r' with
  | nil =>
    cases hr
    cases hr'
    simp
  | cons a l ih =>
    obtain ⟨b, bs, hb, hbs, rfl⟩ := mapAll_cons_eq_some.mp hr
    obtain ⟨b', bs', hb', hbs', rfl⟩ := mapAll_cons_eq_some.mp hr'
    rw [List.cons.injEq, ih hbs hbs', List.forall_mem_cons, hb, hb', Option.some.injEq]

lemma mapAll_isSome {f : α → Option β} {l : List α} (h : ∀ a ∈ l, (f a).isSome = true) :
    ∃ r, mapAll f l = some r := by
  induction l with
  | nil => exact ⟨[], rfl⟩
  | cons a l ih =>
    obtain ⟨b, hb⟩ := Option.isSome_iff_exists.mp (h a List.mem_cons_self)
    obtain ⟨bs, hbs⟩ := ih fun a' ha' => h a' (List.mem_cons_of_mem _ ha')
    exact ⟨b :: bs, mapAll_cons_eq_some.mpr ⟨b, bs, hb, hbs, rfl⟩⟩

lemma isSome_of_mapAll {f : α → Option β} {l : List α} {r : List β} (h : mapAll f l = some r)
    {a : α} (ha : a ∈ l) : ∃ b, f a = some b := by
  induction l generalizing r with
  | nil => cases ha
  | cons c l ih =>
    obtain ⟨b, bs, hb, hbs, rfl⟩ := mapAll_cons_eq_some.mp h
    rcases List.mem_cons.mp ha with rfl | ha
    · exact ⟨b, hb⟩
    · exact ih hbs ha

lemma exists_of_mem_mapAll {f : α → Option β} {l : List α} {r : List β}
    (h : mapAll f l = some r) {b : β} (hb : b ∈ r) : ∃ a ∈ l, f a = some b := by
  induction l generalizing r with
  | nil =>
    cases h
    cases hb
  | cons c l ih =>
    obtain ⟨b', bs, hb', hbs, rfl⟩ := mapAll_cons_eq_some.mp h
    rcases List.mem_cons.mp hb with rfl | hb
    · exact ⟨c, List.mem_cons_self, hb'⟩
    · obtain ⟨a, ha, hab⟩ := ih hbs hb
      exact ⟨a, List.mem_cons_of_mem _ ha, hab⟩

lemma keys_of_mapAll {κ : Type*} {key : α → κ} {f : α → Option β} {l : List α}
    {r : List (κ × β)} (h : mapAll (fun a => (f a).map fun b => (key a, b)) l = some r) :
    r.map Prod.fst = l.map key := by
  induction l generalizing r with
  | nil =>
    cases h
    rfl
  | cons a l ih =>
    obtain ⟨p, r, hp, hr, rfl⟩ := mapAll_cons_eq_some.mp h
    obtain ⟨b, -, rfl⟩ := Option.map_eq_some_iff.mp hp
    rw [List.map_cons, List.map_cons, ih hr]

lemma lookup_none_of_notMem {κ : Type*} [BEq κ] [LawfulBEq κ] {key : κ} {l : List (κ × β)}
    (h : key ∉ l.map Prod.fst) : l.lookup key = none := by
  rw [List.lookup_eq_none_iff]
  intro p hp
  have hne : key ≠ p.1 := fun he => h (he ▸ List.mem_map_of_mem hp)
  simpa using hne

lemma lookup_of_mapAll {κ : Type*} [BEq κ] [LawfulBEq κ] {key : α → κ} {f : α → Option β}
    {l : List α} {r : List (κ × β)} (hl : (l.map key).Nodup)
    (h : mapAll (fun a => (f a).map fun b => (key a, b)) l = some r) {a : α} (ha : a ∈ l) :
    ∃ b, f a = some b ∧ r.lookup (key a) = some b := by
  induction l generalizing r with
  | nil => cases ha
  | cons c l ih =>
    obtain ⟨p, r, hp, hr, rfl⟩ := mapAll_cons_eq_some.mp h
    obtain ⟨b, hb, rfl⟩ := Option.map_eq_some_iff.mp hp
    rw [List.map_cons, List.nodup_cons] at hl
    rcases List.mem_cons.mp ha with rfl | ha
    · exact ⟨b, hb, by simp⟩
    · have hne : key a ≠ key c := fun he => hl.1 (he ▸ List.mem_map_of_mem ha)
      rw [List.lookup_cons, beq_false_of_ne hne]
      exact ih hl.2 hr ha

end

end Tdcs
