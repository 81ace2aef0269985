import Mathlib.Data.List.Nodup
import Mathlib.Data.List.Basic

/-!
Dictionaries that keep insertion order.

A dictionary is a list of pairs with pairwise distinct keys. Setting a key that is
present replaces its value in place; setting a new key appends it. This is the dictionary
of Python, and, read as a relation with a unique key, a table of a database.
-/

namespace Tdcs.Lib

variable {κ ν μ : Type*}

structure Dict (κ ν : Type*) where
  entries : List (κ × ν)
  nodup : (entries.map Prod.fst).Nodup
  deriving DecidableEq

namespace Dict

/-- The dictionary without entries. -/
def empty : Dict κ ν := ⟨[], List.nodup_nil⟩

def keys (d : Dict κ ν) : List κ := d.entries.map Prod.fst
def values (d : Dict κ ν) : List ν := d.entries.map Prod.snd

@[ext] lemma ext {d e : Dict κ ν} (h : d.entries = e.entries) : d = e := by
  cases d; cases e; cases h; rfl

/-- The dictionary with every value `v` at `k` replaced by `f k v`. -/
def mapValues (f : κ → ν → μ) (d : Dict κ ν) : Dict κ μ where
  entries := d.entries.map fun p => (p.1, f p.1 p.2)
  nodup := by simpa [List.map_map, Function.comp_def] using d.nodup

lemma map_fst_zip_sublist {l : List κ} {l' : List ν} : ((l.zip l').map Prod.fst).Sublist l := by
  induction l generalizing l' with
  | nil => simp
  | cons k l ih =>
    cases l' with
    | nil => simp
    | cons v l' => simpa using ih

variable [DecidableEq κ]

/-- The value at `k` in a list of pairs, the first one counting. -/
def lookup (k : κ) : List (κ × ν) → Option ν
  | [] => none
  | (k', v) :: l => if k' = k then some v else lookup k l

def get? (d : Dict κ ν) (k : κ) : Option ν := lookup k d.entries

/-- Replace the value at `k`, or append the pair. -/
def put (k : κ) (v : ν) : List (κ × ν) → List (κ × ν)
  | [] => [(k, v)]
  | (k', v') :: l => if k' = k then (k, v) :: l else (k', v') :: put k v l

lemma mem_keys_put {k k' : κ} {v : ν} {l : List (κ × ν)} :
    k' ∈ (put k v l).map Prod.fst ↔ k' = k ∨ k' ∈ l.map Prod.fst := by
  induction l with
  | nil => simp [put]
  | cons p l ih =>
    obtain ⟨k₀, v₀⟩ := p
    by_cases h : k₀ = k
    · subst h; simp [put]
    · simp only [put, h, if_false, List.map_cons, List.mem_cons, ih]
      tauto

lemma nodup_put {k : κ} {v : ν} {l : List (κ × ν)} (hl : (l.map Prod.fst).Nodup) :
    ((put k v l).map Prod.fst).Nodup := by
  induction l with
  | nil => simp [put]
  | cons p l ih =>
    obtain ⟨k₀, v₀⟩ := p
    rw [List.map_cons, List.nodup_cons] at hl
    by_cases h : k₀ = k
    · subst h; simpa [put] using hl
    · simp only [put, h, if_false, List.map_cons, List.nodup_cons]
      refine ⟨fun hm => ?_, ih hl.2⟩
      rcases mem_keys_put.mp hm with h' | h'
      · exact h h'
      · exact hl.1 h'

/-- `d[k] = v`. -/
def set (d : Dict κ ν) (k : κ) (v : ν) : Dict κ ν := ⟨put k v d.entries, nodup_put d.nodup⟩

/-- `dict(pairs)`: later pairs overwrite earlier ones in place. -/
def ofPairs (l : List (κ × ν)) : Dict κ ν := l.foldl (fun d p => d.set p.1 p.2) empty

lemma put_of_notMem {k : κ} {v : ν} {l : List (κ × ν)} (h : k ∉ l.map Prod.fst) :
    put k v l = l ++ [(k, v)] := by
  induction l with
  | nil => rfl
  | cons p l ih =>
    rw [List.map_cons, List.mem_cons, not_or] at h
    rw [put, if_neg (Ne.symm h.1), ih h.2, List.cons_append]

lemma entries_ofPairs {l : List (κ × ν)} (hl : (l.map Prod.fst).Nodup) :
    (ofPairs l).entries = l := by
  have hfold : ∀ (l : List (κ × ν)) (d : Dict κ ν), ((d.entries ++ l).map Prod.fst).Nodup →
      (l.foldl (fun d p => d.set p.1 p.2) d).entries = d.entries ++ l := by
    intro l
    induction l with
    | nil => simp
    | cons p l ih =>
      intro d hd
      have hp : p.1 ∉ d.entries.map Prod.fst := by
        rw [List.map_append, List.map_cons] at hd
        have := (List.nodup_middle.mp hd)
        rw [List.nodup_cons, List.mem_append, not_or] at this
        exact this.1.1
      have hset : (d.set p.1 p.2).entries = d.entries ++ [p] := put_of_notMem hp
      rw [List.foldl_cons, ih, hset, List.append_assoc, List.singleton_append]
      rw [hset, List.append_assoc, List.singleton_append]
      exact hd
  exact hfold l empty hl

@[simp] lemma get?_empty (k : κ) : (empty : Dict κ ν).get? k = none := rfl

@[simp] lemma get?_set_self (d : Dict κ ν) (k : κ) (v : ν) : (d.set k v).get? k = some v := by
  obtain ⟨l, hl⟩ := d
  show lookup k (put k v l) = some v
  clear hl
  induction l with
  | nil => simp [put, lookup]
  | cons p l ih =>
    obtain ⟨k₀, v₀⟩ := p
    by_cases h : k₀ = k
    · simp [put, lookup, h]
    · simp [put, lookup, h, ih]

lemma get?_set_of_ne (d : Dict κ ν) {k k' : κ} (v : ν) (h : k' ≠ k) :
    (d.set k v).get? k' = d.get? k' := by
  obtain ⟨l, hl⟩ := d
  show lookup k' (put k v l) = lookup k' l
  clear hl
  induction l with
  | nil => simp [put, lookup, Ne.symm h]
  | cons p l ih =>
    obtain ⟨k₀, v₀⟩ := p
    by_cases h₀ : k₀ = k
    · subst h₀; simp [put, lookup, Ne.symm h]
    · simp [put, lookup, h₀, ih]

/-- `del d[k]`, nothing where `k` is missing. -/
def erase (d : Dict κ ν) (k : κ) : Dict κ ν where
  entries := d.entries.filter fun p => p.1 ≠ k
  nodup := d.nodup.sublist ((List.filter_sublist).map Prod.fst)

@[simp] lemma get?_erase_self (d : Dict κ ν) (k : κ) : (d.erase k).get? k = none := by
  obtain ⟨l, hl⟩ := d
  show lookup k (l.filter fun p => p.1 ≠ k) = none
  clear hl
  induction l with
  | nil => rfl
  | cons p l ih => by_cases h : p.1 = k <;> simp [lookup, h] <;> simpa using ih

lemma get?_erase_of_ne (d : Dict κ ν) {k k' : κ} (h : k' ≠ k) :
    (d.erase k).get? k' = d.get? k' := by
  obtain ⟨l, hl⟩ := d
  show lookup k' (l.filter fun p => p.1 ≠ k) = lookup k' l
  clear hl
  induction l with
  | nil => rfl
  | cons p l ih =>
    by_cases hp : p.1 = k
    · have hne : p.1 ≠ k' := fun h' => h (h'.symm.trans hp)
      simpa [lookup, hp, hne, Ne.symm h] using ih
    · by_cases hp' : p.1 = k'
      · simp [lookup, hp', h]
      · simpa [lookup, hp, hp'] using ih

lemma get?_eq_some_iff {d : Dict κ ν} {k : κ} {v : ν} :
    d.get? k = some v ↔ (k, v) ∈ d.entries := by
  obtain ⟨l, hl⟩ := d
  show lookup k l = some v ↔ (k, v) ∈ l
  induction l with
  | nil => simp [lookup]
  | cons p l ih =>
    obtain ⟨k₀, v₀⟩ := p
    rw [List.map_cons, List.nodup_cons] at hl
    by_cases h : k₀ = k
    · subst h
      have hno : (k₀, v) ∉ l := fun hm => hl.1 (List.mem_map.mpr ⟨_, hm, rfl⟩)
      simp [lookup, hno, eq_comm]
    · simp [lookup, h, Ne.symm h, ih hl.2]

/-- `dict(zip(keys, values))` has under each of its keys the value at the same place. -/
lemma get?_ofPairs_zip {ks : List κ} {vs : List ν} (hks : ks.Nodup) {i : ℕ} {k : κ} {v : ν}
    (hk : ks[i]? = some k) (hv : vs[i]? = some v) : (ofPairs (ks.zip vs)).get? k = some v := by
  have hnodup : ((ks.zip vs).map Prod.fst).Nodup := hks.sublist map_fst_zip_sublist
  have hpair : (ks.zip vs)[i]? = some (k, v) := by
    rw [List.zip, List.getElem?_zipWith_eq_some]
    exact ⟨k, v, hk, hv, rfl⟩
  rw [get?_eq_some_iff, entries_ofPairs hnodup]
  exact List.mem_of_getElem? hpair

@[simp] lemma get?_mapValues (f : κ → ν → μ) (d : Dict κ ν) (k : κ) :
    (d.mapValues f).get? k = (d.get? k).map (f k) := by
  obtain ⟨l, hl⟩ := d
  show lookup k (l.map fun p => (p.1, f p.1 p.2)) = (lookup k l).map (f k)
  clear hl
  induction l with
  | nil => rfl
  | cons p l ih =>
    obtain ⟨k₀, v₀⟩ := p
    by_cases h : k₀ = k
    · subst h; simp [lookup]
    · simp [lookup, h, ih]

lemma mapValues_set (f : κ → ν → μ) (d : Dict κ ν) (k : κ) (v : ν) :
    (d.set k v).mapValues f = (d.mapValues f).set k (f k v) := by
  obtain ⟨l, hl⟩ := d
  apply ext
  show (put k v l).map (fun p => (p.1, f p.1 p.2)) = put k (f k v) (l.map fun p => (p.1, f p.1 p.2))
  clear hl
  induction l with
  | nil => rfl
  | cons p l ih =>
    obtain ⟨k₀, v₀⟩ := p
    by_cases h : k₀ = k
    · simp [put, h]
    · simp [put, h, ih]

lemma set_eq_self {d : Dict κ ν} {k : κ} {v : ν} (h : d.get? k = some v) : d.set k v = d := by
  obtain ⟨l, hl⟩ := d
  apply ext
  show put k v l = l
  replace h : lookup k l = some v := h
  clear hl
  induction l with
  | nil => cases h
  | cons p l ih =>
    obtain ⟨k₀, v₀⟩ := p
    by_cases hk : k₀ = k
    · subst hk
      obtain rfl : v₀ = v := by simpa [lookup] using h
      simp [put]
    · rw [put, if_neg hk, ih (by simpa [lookup, hk] using h)]

/-! ### Other keys -/

lemma get?_set (d : Dict κ ν) (k k' : κ) (v : ν) :
    (d.set k v).get? k' = if k' = k then some v else d.get? k' := by
  split_ifs with h
  · rw [h, get?_set_self]
  · rw [get?_set_of_ne _ _ h]

lemma get?_erase (d : Dict κ ν) (k k' : κ) :
    (d.erase k).get? k' = if k' = k then none else d.get? k' := by
  split_ifs with h
  · rw [h, get?_erase_self]
  · rw [get?_erase_of_ne _ h]

lemma get?_eq_none_iff {d : Dict κ ν} {k : κ} : d.get? k = none ↔ ∀ p ∈ d.entries, p.1 ≠ k := by
  constructor
  · rintro h p hp rfl
    rw [get?_eq_some_iff.2 hp] at h
    cases h
  · intro h
    by_contra hne
    obtain ⟨v, hv⟩ := Option.ne_none_iff_exists'.1 hne
    exact h _ (get?_eq_some_iff.1 hv) rfl

lemma entries_foldl_erase (keys : List κ) (d : Dict κ ν) :
    (keys.foldl erase d).entries = d.entries.filter fun p => p.1 ∉ keys := by
  induction keys generalizing d with
  | nil => simp
  | cons key keys ih =>
    rw [List.foldl_cons, ih, erase, List.filter_filter]
    refine List.filter_congr fun p _ => ?_
    simp [Bool.and_comm]

/-- Erasing the keys of the entries that a condition selects erases these entries. -/
lemma entries_foldl_erase_filter (p : κ × ν → Prop) [DecidablePred p] (d : Dict κ ν) :
    (((d.entries.filter fun x => p x).map Prod.fst).foldl erase d).entries =
      d.entries.filter fun x => ¬ p x := by
  rw [entries_foldl_erase]
  refine List.filter_congr fun x hx => ?_
  rw [decide_eq_decide, List.mem_map]
  refine not_congr ⟨?_, fun h => ⟨x, by simpa using ⟨hx, h⟩, rfl⟩⟩
  rintro ⟨y, hy, hkey⟩
  rw [List.mem_filter, decide_eq_true_eq] at hy
  -- a key has one entry
  have hvalue : y.2 = x.2 := by
    have hget := get?_eq_some_iff.2 hy.1
    rw [hkey, get?_eq_some_iff.2 hx] at hget
    exact (Option.some.inj hget).symm
  have hsame : y = x := Prod.ext hkey hvalue
  exact hsame ▸ hy.2

lemma get?_of_entries_filter {p : κ → Bool} {d d' : Dict κ ν}
    (h : d'.entries = d.entries.filter fun x => p x.1) (k : κ) :
    d'.get? k = if p k then d.get? k else none := by
  ext v
  rw [get?_eq_some_iff, h, List.mem_filter]
  split_ifs with hp
  · rw [get?_eq_some_iff]
    simp [hp]
  · simp [hp]

lemma entries_set_erase (d : Dict κ ν) (k : κ) (v : ν) :
    ((d.erase k).set k v).entries = d.entries.filter (·.1 ≠ k) ++ [(k, v)] := by
  refine put_of_notMem fun h => ?_
  obtain ⟨p, hp, hkey⟩ := List.mem_map.1 h
  have hne := List.of_mem_filter hp
  simp [hkey] at hne

/-! ### Values as a collection -/

lemma values_set_of_none {d : Dict κ ν} {k : κ} (h : d.get? k = none) (v : ν) :
    (d.set k v).values = d.values ++ [v] := by
  have hk : k ∉ d.entries.map Prod.fst := by
    intro hmem
    obtain ⟨p, hp, rfl⟩ := List.mem_map.1 hmem
    exact get?_eq_none_iff.1 h p hp rfl
  unfold values set
  dsimp only
  rw [put_of_notMem hk, List.map_append]
  rfl

lemma values_erase {d : Dict κ ν} {k : κ} {v : ν} (h : d.get? k = some v) :
    (v :: (d.erase k).values).Perm d.values := by
  obtain ⟨before, behind, hsplit⟩ := List.append_of_mem (get?_eq_some_iff.1 h)
  have hnodup := d.nodup
  rw [hsplit, List.map_append, List.map_cons] at hnodup
  have hnot := (List.nodup_cons.1 (List.nodup_middle.1 hnodup)).1
  have hother : ∀ p ∈ before ++ behind, p.1 ≠ k := by
    rintro p hp rfl
    exact hnot (by rw [← List.map_append]; exact List.mem_map.2 ⟨p, hp, rfl⟩)
  have herase : (d.erase k).entries = before ++ behind := by
    unfold erase
    dsimp only
    rw [hsplit, List.filter_append, List.filter_cons_of_neg (by simp), ← List.filter_append,
      List.filter_eq_self.2 fun p hp => by simpa using hother p hp]
  unfold values
  rw [herase, hsplit, List.map_append, List.map_append, List.map_cons]
  exact List.perm_middle.symm

lemma erase_of_none {d : Dict κ ν} {k : κ} (h : d.get? k = none) : d.erase k = d := by
  apply ext
  unfold erase
  dsimp only
  exact List.filter_eq_self.2 fun p hp => by simpa using get?_eq_none_iff.1 h p hp

lemma length_values_set {d : Dict κ ν} {k : κ} {v : ν} (h : d.get? k = some v) (v' : ν) :
    (d.set k v').values.length = d.values.length := by
  obtain ⟨l, hl⟩ := d
  show ((put k v' l).map Prod.snd).length = (l.map Prod.snd).length
  replace h : lookup k l = some v := h
  clear hl
  rw [List.length_map, List.length_map]
  induction l with
  | nil => cases h
  | cons p l ih =>
    obtain ⟨k₀, v₀⟩ := p
    by_cases hk : k₀ = k
    · rw [put, if_pos hk, List.length_cons, List.length_cons]
    · rw [put, if_neg hk, List.length_cons, List.length_cons,
        ih (by simpa [lookup, hk] using h)]

/-! ### Grouping -/

/-- `d.setdefault(k, []).append(v)`. -/
def push (d : Dict κ (List ν)) (k : κ) (v : ν) : Dict κ (List ν) :=
  d.set k ((d.get? k).getD [] ++ [v])

/-- The values of a list of pairs, collected under their keys in the order of the list. -/
def group (l : List (κ × ν)) : Dict κ (List ν) := l.foldl (fun d p => d.push p.1 p.2) empty

/-- What a list of pairs has under a key. -/
def under (k : κ) (l : List (κ × ν)) : List ν := (l.filter fun p => p.1 = k).map Prod.snd

@[simp] lemma under_nil (k : κ) : under k ([] : List (κ × ν)) = [] := rfl

lemma under_append (k : κ) (l l' : List (κ × ν)) : under k (l ++ l') = under k l ++ under k l' := by
  simp [under]

lemma under_map_pair (k k' : κ) (l : List ν) :
    under k (l.map fun x => (k', x)) = if k' = k then l else [] := by
  induction l with
  | nil => simp
  | cons x l ih =>
    by_cases h : k' = k
    · simpa [under, h] using ih
    · simp [under, h]

lemma getD_foldl_push (l : List (κ × ν)) (d : Dict κ (List ν)) (k : κ) :
    ((l.foldl (fun d p => d.push p.1 p.2) d).get? k).getD [] =
      (d.get? k).getD [] ++ under k l := by
  induction l generalizing d with
  | nil => simp
  | cons p l ih =>
    rw [List.foldl_cons, ih]
    by_cases h : p.1 = k
    · simp [push, under, h]
    · rw [push, get?_set_of_ne _ _ (Ne.symm h)]
      simp [under, h]

/-- **Grouping loses nothing**: under each key stand the values of that key, in order. -/
theorem getD_group (l : List (κ × ν)) (k : κ) : ((group l).get? k).getD [] = under k l := by
  simpa [group] using getD_foldl_push l empty k

lemma mem_under {l : List (κ × ν)} {k : κ} {v : ν} : v ∈ under k l ↔ (k, v) ∈ l := by
  simp [under]

lemma under_of_mem_group {l : List (κ × ν)} {p : κ × List ν} (h : p ∈ (group l).entries) :
    under p.1 l = p.2 := by
  have hget : (group l).get? p.1 = some p.2 := get?_eq_some_iff.2 h
  rw [← getD_group, hget, Option.getD_some]

lemma exists_mem_group {l : List (κ × ν)} {k : κ} {v : ν} (h : (k, v) ∈ l) :
    (k, under k l) ∈ (group l).entries := by
  have hmem := mem_under.2 h
  have hgroup := getD_group l k
  rcases hget : (group l).get? k with _ | vs
  · rw [hget, Option.getD_none] at hgroup
    rw [← hgroup] at hmem
    cases hmem
  · rw [hget, Option.getD_some] at hgroup
    rw [← hgroup]
    exact get?_eq_some_iff.1 hget

lemma ne_nil_of_mem_group {l : List (κ × ν)} {p : κ × List ν} (h : p ∈ (group l).entries) :
    p.2 ≠ [] := by
  have hinv : ∀ (l : List (κ × ν)) (d : Dict κ (List ν)),
      (∀ k vs, d.get? k = some vs → vs ≠ []) →
      ∀ k vs, (l.foldl (fun d p => d.push p.1 p.2) d).get? k = some vs → vs ≠ [] := by
    intro l
    induction l with
    | nil => exact fun d hd => hd
    | cons q l ih =>
      intro d hd
      refine ih (d.push q.1 q.2) fun k vs hk => ?_
      by_cases hkq : k = q.1
      · subst hkq
        rw [push, get?_set_self] at hk
        obtain rfl := Option.some.inj hk
        simp
      · rw [push, get?_set_of_ne _ _ hkq] at hk
        exact hd k vs hk
  exact hinv l empty (fun _ _ hk => by cases hk) p.1 p.2 (get?_eq_some_iff.2 h)

lemma group_eq_nil_iff {l : List (κ × ν)} : (group l).entries = [] ↔ l = [] := by
  constructor
  · intro h
    rcases l with _ | ⟨p, l⟩
    · rfl
    · have hnone : (group (p :: l)).get? p.1 = none := by
        rcases hget : (group (p :: l)).get? p.1 with _ | vs
        · rfl
        · have hmem := get?_eq_some_iff.1 hget
          rw [h] at hmem
          cases hmem
      have hunder := getD_group (p :: l) p.1
      rw [hnone] at hunder
      simp [under] at hunder
  · rintro rfl
    rfl

/-- A dictionary of lists, read as a list of pairs key by key, has under each key the list
of that key. -/
lemma under_flatMap {E : κ → List ν → List μ} (hE : ∀ k, E k [] = []) (d : Dict κ (List ν))
    (k : κ) : under k (d.entries.flatMap fun p => (E p.1 p.2).map fun x => (p.1, x)) =
      E k ((d.get? k).getD []) := by
  obtain ⟨l, hl⟩ := d
  show under k (l.flatMap _) = E k ((lookup k l).getD [])
  induction l with
  | nil => simp [lookup, hE]
  | cons p l ih =>
    obtain ⟨k₀, v₀⟩ := p
    rw [List.map_cons, List.nodup_cons] at hl
    rw [List.flatMap_cons, under_append, ih hl.2]
    by_cases h : k₀ = k
    · subst h
      have hno : lookup k₀ l = none := by
        by_contra hsome
        obtain ⟨v, hv⟩ := Option.ne_none_iff_exists'.mp hsome
        have hmem := (get?_eq_some_iff (d := ⟨l, hl.2⟩)).mp hv
        exact hl.1 (List.mem_map.mpr ⟨_, hmem, rfl⟩)
      simp [lookup, hno, hE, under_map_pair]
    · simp [lookup, h, under_map_pair]

/-! ### The order of the keys -/

/-- The keys after some are set: each that is missing goes to the end. -/
def addKeys (keys new : List κ) : List κ :=
  new.foldl (fun keys key => if key ∈ keys then keys else keys ++ [key]) keys

lemma addKeys_cons (keys : List κ) (key : κ) (new : List κ) :
    addKeys keys (key :: new) = addKeys (addKeys keys [key]) new := rfl

lemma addKeys_append (keys new new' : List κ) :
    addKeys keys (new ++ new') = addKeys (addKeys keys new) new' := List.foldl_append

lemma mem_addKeys {keys new : List κ} {key : κ} :
    key ∈ addKeys keys new ↔ key ∈ keys ∨ key ∈ new := by
  induction new generalizing keys with
  | nil => simp [addKeys]
  | cons k new ih =>
    have hone : key ∈ addKeys keys [k] ↔ key ∈ keys ∨ key = k := by
      by_cases hk : k ∈ keys
      · have : key = k → key ∈ keys := fun he => he ▸ hk
        simp only [addKeys, List.foldl_cons, List.foldl_nil, if_pos hk]
        tauto
      · simp [addKeys, hk]
    rw [addKeys_cons, ih, hone, List.mem_cons, or_assoc]

lemma addKeys_of_subset {keys new : List κ} (h : new ⊆ keys) : addKeys keys new = keys := by
  induction new with
  | nil => rfl
  | cons key new ih =>
    rw [List.cons_subset] at h
    have hone : addKeys keys [key] = keys := if_pos h.1
    rw [addKeys_cons, hone, ih h.2]

lemma addKeys_addKeys (keys new : List κ) : addKeys (addKeys keys new) new = addKeys keys new :=
  addKeys_of_subset fun _ hkey => mem_addKeys.2 (.inr hkey)

lemma nodup_addKeys {keys new : List κ} (h : keys.Nodup) : (addKeys keys new).Nodup := by
  induction new generalizing keys with
  | nil => exact h
  | cons key new ih =>
    rw [addKeys_cons]
    apply ih
    by_cases hk : key ∈ keys
    · simpa [addKeys, hk] using h
    · simpa [addKeys, hk] using h.concat hk

lemma keys_put (key : κ) (v : ν) (d : List (κ × ν)) :
    (put key v d).map Prod.fst = addKeys (d.map Prod.fst) [key] := by
  by_cases hk : key ∈ d.map Prod.fst
  · have hsame : (put key v d).map Prod.fst = d.map Prod.fst := by
      induction d with
      | nil => cases hk
      | cons p d ih =>
        obtain ⟨key', v'⟩ := p
        by_cases he : key' = key
        · rw [put, if_pos he, List.map_cons, List.map_cons, he]
        · rw [List.map_cons, List.mem_cons] at hk
          rw [put, if_neg he, List.map_cons, List.map_cons,
            ih (hk.resolve_left (Ne.symm he))]
    rw [hsame, addKeys_of_subset (List.cons_subset.2 ⟨hk, List.nil_subset _⟩)]
  · rw [put_of_notMem hk, List.map_append]
    exact (if_neg hk).symm

end Dict

end Tdcs.Lib
