import Tdcs.Lib.Dict
import Tdcs.Lib.Recency
import Tdcs.Lib.Rounding

/-!
`cache.py`: a cache that is bounded in size and age.

The items are an `OrderedDict`, the least recently used first. An item expires at its deadline,
which says nothing of its place in the order; it leaves the dictionary when a call meets it. Times
are floats, and a deadline is a sum of two, rounded. What the cache holds is compared with the
calls themselves: what they set last, and in which order they used the keys.
-/

namespace Tdcs.Cache

open Tdcs.Lib

variable {R : Rounding} {κ ν α : Type*}

/-- `CacheManager`, over the floats of a format: under each key its deadline and its value. -/
structure CacheManager (R : Rounding) (κ ν : Type*) where
  maxsize : ℕ
  ttl : R.Num
  items : Dict κ (R.Num × ν)

/-- `CacheManager.__init__`, with the text of the `ValueError`. -/
def init (maxsize : ℕ) (ttl : R.Num) : Except String (CacheManager R κ ν) :=
  if maxsize < 1 then .error "maxsize must be >= 1"
  else if ttl.1 ≤ 0 then .error "ttl must be > 0"
  else .ok { maxsize := maxsize, ttl := ttl, items := Dict.empty }

/-- `while len(self._items) > self._maxsize: self._items.popitem(last=False)`. -/
def popWhile (maxsize : ℕ) : List α → List α
  | [] => []
  | p :: l => if maxsize < l.length + 1 then popWhile maxsize l else p :: l

lemma popWhile_eq_drop (maxsize : ℕ) (l : List α) :
    popWhile maxsize l = l.drop (l.length - maxsize) := by
  induction l with
  | nil => rw [popWhile, List.drop_nil]
  | cons p l ih =>
    rw [popWhile, List.length_cons]
    split_ifs with h
    · have hsub : l.length + 1 - maxsize = (l.length - maxsize) + 1 := by omega
      rw [ih, hsub, List.drop_succ_cons]
    · have hsub : l.length + 1 - maxsize = 0 := by omega
      rw [hsub, List.drop_zero]

/-- The items that are left when the oldest are popped. -/
def shrink (maxsize : ℕ) (d : Dict κ α) : Dict κ α where
  entries := popWhile maxsize d.entries
  nodup := by
    rw [popWhile_eq_drop]
    exact d.nodup.sublist ((List.drop_sublist _ _).map Prod.fst)

variable [DecidableEq κ]

/-- `self._items.move_to_end(key)`, for a key that is there. -/
def moveToEnd (d : Dict κ α) (key : κ) : Dict κ α :=
  match d.get? key with
  | some item => (d.erase key).set key item
  | none => d

/-- `_evict_expired`. -/
def evictExpired (c : CacheManager R κ ν) (now : R.Num) : CacheManager R κ ν :=
  let expired := (c.items.entries.filter fun p => p.2.1 ≤ now).map Prod.fst
  { c with items := expired.foldl Dict.erase c.items }

/-- `set`, which reads the clock for the deadline and again in `_evict_expired`. -/
def set (c : CacheManager R κ ν) (key : κ) (value : ν) (now purgedAt : R.Num) :
    CacheManager R κ ν :=
  let c := { c with items := (c.items.erase key).set key (now + c.ttl, value) }
  let c := evictExpired c purgedAt
  { c with items := shrink c.maxsize c.items }

/-- `get`. -/
def get (c : CacheManager R κ ν) (key : κ) (default : ν) (now : R.Num) : ν × CacheManager R κ ν :=
  match c.items.get? key with
  | none => (default, c)
  | some (expiresAt, value) =>
    if expiresAt ≤ now then (default, { c with items := c.items.erase key })
    else (value, { c with items := moveToEnd c.items key })

/-- `delete`. -/
def delete (c : CacheManager R κ ν) (key : κ) : CacheManager R κ ν :=
  { c with items := c.items.erase key }

/-- `__len__`. -/
def len (c : CacheManager R κ ν) (now : R.Num) : ℕ × CacheManager R κ ν :=
  let c := evictExpired c now
  (c.items.entries.length, c)

/-! ### Calls -/

/-- A call, with what it reads from the clock. -/
inductive Call (R : Rounding) (κ ν : Type*)
  | set (key : κ) (value : ν) (now purgedAt : R.Num)
  | get (key : κ) (default : ν) (now : R.Num)
  | delete (key : κ)
  | len (now : R.Num)

def Call.readings : Call R κ ν → List R.Num
  | .set _ _ now purgedAt => [now, purgedAt]
  | .get _ _ now | .len now => [now]
  | .delete _ => []

/-- The cache after a call. -/
def after (c : CacheManager R κ ν) : Call R κ ν → CacheManager R κ ν
  | .set key value now purgedAt => set c key value now purgedAt
  | .get key default now => (get c key default now).2
  | .delete key => delete c key
  | .len now => (len c now).2

def run (c : CacheManager R κ ν) (calls : List (Call R κ ν)) : CacheManager R κ ν :=
  calls.foldl after c

/-- The key that a call sets or successfully reads. -/
def usedBy (c : CacheManager R κ ν) : Call R κ ν → List κ
  | .set key _ _ _ => [key]
  | .get key _ now =>
    match c.items.get? key with
    | some (expiresAt, _) => if expiresAt ≤ now then [] else [key]
    | none => []
  | _ => []

/-- The keys set or successfully read, in the order of the calls. -/
def uses (c : CacheManager R κ ν) : List (Call R κ ν) → List κ
  | [] => []
  | call :: calls => usedBy c call ++ uses (after c call) calls

/-- What `last`, the value and time of the last `set` of the key, is after a call. -/
def remember (key : κ) (last : Option (ν × R.Num)) : Call R κ ν → Option (ν × R.Num)
  | .set k value now _ => if k = key then some (value, now) else last
  | .delete k => if k = key then none else last
  | _ => last

/-- The value and the time of the last `set` of the key that no `delete` follows. -/
def lastSet (key : κ) (calls : List (Call R κ ν)) : Option (ν × R.Num) :=
  calls.foldl (remember key) none

/-- The key is set and not deleted, and its deadline has not come at that time. -/
def Unexpired (ttl : R.Num) (key : κ) (calls : List (Call R κ ν)) (time : R.Num) : Prop :=
  ∃ value setAt, lastSet key calls = some (value, setAt) ∧ time < setAt + ttl

/-- After the calls, setting `k` pushes the key out: `maxsize` others that have been used since the
last use of the key are unexpired when that happens. -/
structure PushesOut (c : CacheManager R κ ν) (calls : List (Call R κ ν)) (k : κ) (value : ν)
    (now purgedAt : R.Num) (key : κ) : Prop where
  held : (run c calls).items.get? key ≠ none
  gone : (run c (calls ++ [.set k value now purgedAt])).items.get? key = none
  others : ∃ others : List κ, others.Nodup ∧ c.maxsize ≤ others.length ∧ ∀ k' ∈ others,
    k' ≠ key ∧ k' ∈ Recency.since key (uses c (calls ++ [.set k value now purgedAt])) ∧
      Unexpired c.ttl k' (calls ++ [.set k value now purgedAt]) purgedAt

/-- One of the calls has pushed the key out, and it has not been used afterwards. -/
def PushedOut (c : CacheManager R κ ν) (calls : List (Call R κ ν)) (key : κ) : Prop :=
  ∃ before k value now purgedAt later, calls = before ++ .set k value now purgedAt :: later ∧
    PushesOut c before k value now purgedAt key ∧
      key ∉ uses (run c (before ++ [.set k value now purgedAt])) later

/-- What a cache promises after the calls. A value that is read is less than `ttl` old, without any
rounding; an item is kept until its deadline. -/
structure Semantics (c : CacheManager R κ ν) (calls : List (Call R κ ν)) : Prop where
  bounded : (run c calls).items.entries.length ≤ c.maxsize
  reads : ∀ key default now, (get (run c calls) key default now).1 = default ∨
    ∃ value setAt, lastSet key calls = some (value, setAt) ∧ now.1 < setAt.1 + c.ttl.1 ∧
      (get (run c calls) key default now).1 = value
  keeps : ∀ key default value setAt now, lastSet key calls = some (value, setAt) →
    (∀ time ∈ calls.flatMap Call.readings, time ≤ now) → now < setAt + c.ttl →
      (get (run c calls) key default now).1 = value ∨ PushedOut c calls key

variable {c : CacheManager R κ ν} {calls : List (Call R κ ν)}

/-! ### What the operations do to the items -/

lemma entries_evictExpired (c : CacheManager R κ ν) (now : R.Num) :
    (evictExpired c now).items.entries = c.items.entries.filter fun p => now < p.2.1 := by
  rw [evictExpired, Dict.entries_foldl_erase_filter]
  simp only [not_le]

lemma entries_moveToEnd {d : Dict κ α} {key : κ} {item : α} (h : d.get? key = some item) :
    (moveToEnd d key).entries = d.entries.filter (·.1 ≠ key) ++ [(key, item)] := by
  rw [moveToEnd, h]
  exact Dict.entries_set_erase d key item

omit [DecidableEq κ] in
lemma shrink_cases {maxsize : ℕ} {d : Dict κ α} (h : d.entries.length ≤ maxsize + 1) :
    (shrink maxsize d = d ∧ d.entries.length ≤ maxsize) ∨
      ∃ p, d.entries = p :: (shrink maxsize d).entries ∧
        (shrink maxsize d).entries.length = maxsize := by
  have hdrop : (shrink maxsize d).entries = d.entries.drop (d.entries.length - maxsize) :=
    popWhile_eq_drop _ _
  rcases Nat.lt_or_ge maxsize d.entries.length with hlt | hle
  · right
    have hone : d.entries.length - maxsize = 1 := by omega
    rw [hdrop, hone]
    rcases hd : d.entries with _ | ⟨p, l⟩
    · rw [hd] at hlt
      cases hlt
    · rw [hd, List.length_cons] at h hlt
      refine ⟨p, rfl, ?_⟩
      rw [List.drop_one, List.tail_cons]
      omega
  · left
    refine ⟨Dict.ext ?_, hle⟩
    rw [hdrop, Nat.sub_eq_zero_of_le hle, List.drop_zero]

/-! ### Runs -/

lemma run_concat (c : CacheManager R κ ν) (calls : List (Call R κ ν)) (call : Call R κ ν) :
    run c (calls ++ [call]) = after (run c calls) call := by
  simp [run]

lemma run_append (c : CacheManager R κ ν) (calls calls' : List (Call R κ ν)) :
    run c (calls ++ calls') = run (run c calls) calls' := List.foldl_append

lemma uses_append (c : CacheManager R κ ν) (calls calls' : List (Call R κ ν)) :
    uses c (calls ++ calls') = uses c calls ++ uses (run c calls) calls' := by
  induction calls generalizing c with
  | nil => rfl
  | cons call calls ih => rw [List.cons_append, uses, uses, ih, List.append_assoc]; rfl

lemma uses_concat (c : CacheManager R κ ν) (calls : List (Call R κ ν)) (call : Call R κ ν) :
    uses c (calls ++ [call]) = uses c calls ++ usedBy (run c calls) call := by
  rw [uses_append, uses, uses, List.append_nil]

lemma lastSet_concat (key : κ) (calls : List (Call R κ ν)) (call : Call R κ ν) :
    lastSet key (calls ++ [call]) = remember key (lastSet key calls) call := by
  simp [lastSet]

omit [DecidableEq κ] in
lemma readings_concat (calls : List (Call R κ ν)) (call : Call R κ ν) :
    (calls ++ [call]).flatMap Call.readings = calls.flatMap Call.readings ++ call.readings := by
  simp

lemma after_limits (c : CacheManager R κ ν) (call : Call R κ ν) :
    (after c call).maxsize = c.maxsize ∧ (after c call).ttl = c.ttl := by
  cases call with
  | get key default now =>
    rw [after, get]
    cases c.items.get? key with
    | none => exact ⟨rfl, rfl⟩
    | some item =>
      dsimp only
      split_ifs
      · exact ⟨rfl, rfl⟩
      · exact ⟨rfl, rfl⟩
  | _ => exact ⟨rfl, rfl⟩

lemma run_limits (c : CacheManager R κ ν) (calls : List (Call R κ ν)) :
    (run c calls).maxsize = c.maxsize ∧ (run c calls).ttl = c.ttl := by
  induction calls using List.reverseRecOn with
  | nil => exact ⟨rfl, rfl⟩
  | append_singleton calls call ih =>
    rw [run_concat, (after_limits _ call).1, (after_limits _ call).2]
    exact ih

/-! ### The invariant -/

/-- Why a key that was set is missing: it was too old at some reading of the clock, or it was
pushed out. -/
def Excused (c : CacheManager R κ ν) (calls : List (Call R κ ν)) (key : κ) (setAt : R.Num) : Prop :=
  (∃ time ∈ calls.flatMap Call.readings, setAt + c.ttl ≤ time) ∨ PushedOut c calls key

/-- The dictionary beside the calls: each item is of the last `set` of its key, the items are in
the order of the last uses, and what is missing is excused. -/
structure Inv (c : CacheManager R κ ν) (calls : List (Call R κ ν)) : Prop where
  bounded : (run c calls).items.entries.length ≤ c.maxsize
  dated : ∀ p ∈ (run c calls).items.entries, ∃ setAt,
    lastSet p.1 calls = some (p.2.2, setAt) ∧ p.2.1 = setAt + c.ttl
  ordered : Recency.Ordered (uses c calls) (run c calls).items.keys
  missing : ∀ key value setAt, lastSet key calls = some (value, setAt) →
    (run c calls).items.get? key = none → Excused c calls key setAt

lemma Excused.concat {key : κ} {setAt : R.Num} (h : Excused c calls key setAt) {call : Call R κ ν}
    (hcall : key ∉ usedBy (run c calls) call) : Excused c (calls ++ [call]) key setAt := by
  rcases h with ⟨time, htime, hold⟩ | ⟨before, k, value, now, purgedAt, later, rfl, hpush, hlater⟩
  · left
    refine ⟨time, ?_, hold⟩
    rw [readings_concat]
    exact List.mem_append_left _ htime
  · right
    refine ⟨before, k, value, now, purgedAt, later ++ [call], ?_, hpush, ?_⟩
    · simp
    · rw [uses_concat, List.mem_append, not_or, ← run_append, List.append_assoc]
      exact ⟨hlater, hcall⟩

lemma Inv.lose (hi : Inv c calls) {call : Call R κ ν} (hused : usedBy (run c calls) call = [])
    (hsub : (after (run c calls) call).items.entries.Sublist (run c calls).items.entries)
    (hlast : ∀ key last x, remember key last call = some x → last = some x)
    (hkept : ∀ p ∈ (after (run c calls) call).items.entries, ∀ last : Option (ν × R.Num),
      remember p.1 last call = last)
    (hlost : ∀ p ∈ (run c calls).items.entries, p ∉ (after (run c calls) call).items.entries →
      (∀ last : Option (ν × R.Num), remember p.1 last call = none) ∨
        ∃ time ∈ call.readings, p.2.1 ≤ time) :
    Inv c (calls ++ [call]) := by
  constructor
  · rw [run_concat]
    exact hsub.length_le.trans hi.bounded
  · intro p hp
    rw [run_concat] at hp
    rw [lastSet_concat, hkept p hp]
    exact hi.dated p (hsub.subset hp)
  · rw [run_concat, uses_concat, hused, List.append_nil]
    exact hi.ordered.sublist (hsub.map Prod.fst)
  · intro key value setAt hset hnone
    rw [run_concat] at hnone
    rw [lastSet_concat] at hset
    have hbefore := hlast key _ _ hset
    cases hget : (run c calls).items.get? key with
    | none =>
      refine (hi.missing key value setAt hbefore hget).concat ?_
      rw [hused]
      exact List.not_mem_nil
    | some item =>
      have hmem := Dict.get?_eq_some_iff.1 hget
      obtain ⟨setAt', hdated, hdeadline⟩ := hi.dated _ hmem
      rw [hbefore] at hdated
      cases hdated
      have hgone : (key, item) ∉ (after (run c calls) call).items.entries :=
        fun h => Dict.get?_eq_none_iff.1 hnone _ h rfl
      -- the call dropped the item: its key was deleted, or its deadline was read to be over
      rcases hlost _ hmem hgone with hforgot | ⟨time, htime, hold⟩
      · rw [hforgot] at hset
        cases hset
      · left
        refine ⟨time, ?_, ?_⟩
        · rw [readings_concat]
          exact List.mem_append_right _ htime
        · rw [← hdeadline]
          exact hold

lemma Inv.len (hi : Inv c calls) (now : R.Num) : Inv c (calls ++ [.len now]) := by
  have hafter : (after (run c calls) (.len now)).items.entries =
      (run c calls).items.entries.filter fun p => now < p.2.1 := entries_evictExpired _ _
  refine hi.lose rfl ?_ (fun _ _ _ h => h) (fun _ _ _ => rfl) fun p hp hgone => ?_
  · rw [hafter]
    exact List.filter_sublist
  · rw [hafter, List.mem_filter, decide_eq_true_eq, not_and, not_lt] at hgone
    exact .inr ⟨now, List.mem_singleton_self _, hgone hp⟩

lemma Inv.delete (hi : Inv c calls) (key : κ) : Inv c (calls ++ [.delete key]) := by
  have hafter : (after (run c calls) (.delete key)).items.entries =
      (run c calls).items.entries.filter fun p => p.1 ≠ key := rfl
  refine hi.lose rfl ?_ ?_ ?_ fun p hp hgone => ?_
  · rw [hafter]
    exact List.filter_sublist
  · intro k last x h
    rw [remember] at h
    split_ifs at h
    exact h
  · intro p hp last
    rw [hafter, List.mem_filter, decide_eq_true_eq] at hp
    exact if_neg fun h => hp.2 h.symm
  · rw [hafter, List.mem_filter, decide_eq_true_eq, not_and, not_not] at hgone
    exact .inl fun last => if_pos (hgone hp).symm

lemma Inv.hit (hi : Inv c calls) {key : κ} {default : ν} {now : R.Num}
    (hused : usedBy (run c calls) (.get key default now) = [key]) {item : R.Num × ν}
    (hget : (run c calls).items.get? key = some item)
    (hafter : (after (run c calls) (.get key default now)).items =
      moveToEnd (run c calls).items key) : Inv c (calls ++ [.get key default now]) := by
  have hmem := Dict.get?_eq_some_iff.1 hget
  have hiff : ∀ p, p ∈ (after (run c calls) (.get key default now)).items.entries ↔
      p ∈ (run c calls).items.entries := by
    intro p
    rw [hafter, entries_moveToEnd hget, List.mem_append, List.mem_filter, List.mem_singleton,
      decide_eq_true_eq]
    constructor
    · rintro (h | rfl)
      · exact h.1
      · exact hmem
    · intro hp
      by_cases hkey : p.1 = key
      · right
        have hitem := Dict.get?_eq_some_iff.2 hp
        rw [hkey, hget] at hitem
        rw [Option.some.inj hitem, ← hkey]
      · exact .inl ⟨hp, hkey⟩
  -- moved to the end, the items are the same: only the order is new
  constructor
  · rw [run_concat]
    have hperm := (List.perm_ext_iff_of_nodup (Dict.nodup _).of_map
      (Dict.nodup _).of_map).2 hiff
    rw [hperm.length_eq]
    exact hi.bounded
  · intro p hp
    rw [run_concat, hiff] at hp
    rw [lastSet_concat]
    exact hi.dated p hp
  · rw [run_concat, uses_concat, hused, Dict.keys, hafter, entries_moveToEnd hget, List.map_append]
    have huse := hi.ordered.use key
    rw [Dict.keys, List.filter_map] at huse
    exact huse
  · intro k value setAt hset hnone
    rw [run_concat, Dict.get?_eq_none_iff] at hnone
    rw [lastSet_concat] at hset
    have hbefore : (run c calls).items.get? k = none :=
      Dict.get?_eq_none_iff.2 fun p hp => hnone p ((hiff p).2 hp)
    refine (hi.missing k value setAt hset hbefore).concat ?_
    rw [hused, List.mem_singleton]
    rintro rfl
    rw [hget] at hbefore
    cases hbefore

lemma Inv.get (hi : Inv c calls) (key : κ) (default : ν) (now : R.Num) :
    Inv c (calls ++ [.get key default now]) := by
  have hremember : ∀ k (last : Option (ν × R.Num)), remember k last (.get key default now) = last :=
    fun _ _ => rfl
  cases hget : (run c calls).items.get? key with
  | none =>
    -- not there: the default, and nothing changes
    have hafter : after (run c calls) (.get key default now) = run c calls := by
      rw [after, Cache.get, hget]
    have hused : usedBy (run c calls) (.get key default now) = [] := by
      rw [usedBy, hget]
    refine hi.lose hused ?_ (fun _ _ _ h => h) (fun _ _ => hremember _) fun p hp hgone => ?_
    · rw [hafter]
    · rw [hafter] at hgone
      exact absurd hp hgone
  | some item =>
    by_cases hold : item.1 ≤ now
    · -- expired: the read evicts it
      have hafter : (after (run c calls) (.get key default now)).items.entries =
          (run c calls).items.entries.filter fun p => p.1 ≠ key := by
        rw [after, Cache.get, hget]
        dsimp only
        rw [if_pos hold]
        rfl
      have hused : usedBy (run c calls) (.get key default now) = [] := by
        rw [usedBy, hget]
        exact if_pos hold
      refine hi.lose hused ?_ (fun _ _ _ h => h) (fun _ _ => hremember _) fun p hp hgone => ?_
      · rw [hafter]
        exact List.filter_sublist
      · rw [hafter, List.mem_filter, decide_eq_true_eq, not_and, not_not] at hgone
        have hitem := Dict.get?_eq_some_iff.2 hp
        rw [hgone hp, hget] at hitem
        rw [← Option.some.inj hitem]
        exact .inr ⟨now, List.mem_singleton_self _, hold⟩
    · -- live: the read counts as a use
      refine hi.hit ?_ hget ?_
      · rw [usedBy, hget]
        exact if_neg hold
      · rw [after, Cache.get, hget]
        dsimp only
        rw [if_neg hold]

/-- The items after a `set` and its purge, before the oldest is popped: the new one at the end. -/
def purged (c : CacheManager R κ ν) (key : κ) (value : ν) (now purgedAt : R.Num) :
    Dict κ (R.Num × ν) :=
  (evictExpired { c with items := (c.items.erase key).set key (now + c.ttl, value) } purgedAt).items

lemma entries_purged (c : CacheManager R κ ν) (key : κ) (value : ν) (now purgedAt : R.Num) :
    (purged c key value now purgedAt).entries =
      (c.items.entries.filter (·.1 ≠ key) ++ [(key, (now + c.ttl, value))]).filter
        fun p => purgedAt < p.2.1 := by
  rw [purged, entries_evictExpired, Dict.entries_set_erase]

lemma mem_purged {key : κ} {value : ν} {now purgedAt : R.Num} {p : κ × R.Num × ν} :
    p ∈ (purged c key value now purgedAt).entries ↔
      ((p ∈ c.items.entries ∧ p.1 ≠ key) ∨ p = (key, (now + c.ttl, value))) ∧
        purgedAt < p.2.1 := by
  rw [entries_purged, List.mem_filter, List.mem_append, List.mem_filter, List.mem_singleton,
    decide_eq_true_eq, decide_eq_true_eq]

lemma Inv.dated_purged (hi : Inv c calls) {key : κ} {value : ν} {now purgedAt : R.Num}
    {p : κ × R.Num × ν} (hp : p ∈ (purged (run c calls) key value now purgedAt).entries) :
    ∃ setAt, lastSet p.1 (calls ++ [.set key value now purgedAt]) = some (p.2.2, setAt) ∧
      p.2.1 = setAt + c.ttl := by
  rw [lastSet_concat]
  rcases (mem_purged.1 hp).1 with ⟨hold, hne⟩ | rfl
  · rw [remember, if_neg (Ne.symm hne)]
    exact hi.dated p hold
  · refine ⟨now, by rw [remember, if_pos rfl], ?_⟩
    rw [(run_limits c calls).2]

lemma Inv.ordered_purged (hi : Inv c calls) (key : κ) (value : ν) (now purgedAt : R.Num) :
    Recency.Ordered (uses c (calls ++ [.set key value now purgedAt]))
      (purged (run c calls) key value now purgedAt).keys := by
  have huse := hi.ordered.use key
  rw [Dict.keys, List.filter_map] at huse
  rw [uses_concat, usedBy, Dict.keys, entries_purged]
  refine Recency.Ordered.sublist huse ?_
  have hsub := (List.filter_sublist (l := (run c calls).items.entries.filter (·.1 ≠ key) ++
    [(key, (now + (run c calls).ttl, value))]) (p := fun p => purgedAt < p.2.1)).map Prod.fst
  rw [List.map_append] at hsub
  exact hsub

lemma Inv.length_purged (hi : Inv c calls) (key : κ) (value : ν) (now purgedAt : R.Num) :
    (purged (run c calls) key value now purgedAt).entries.length ≤ c.maxsize + 1 := by
  rw [entries_purged]
  refine (List.length_filter_le _ _).trans ?_
  have hle := List.length_filter_le (fun p => decide (p.1 ≠ key)) (run c calls).items.entries
  have hb := hi.bounded
  rw [List.length_append, List.length_singleton]
  omega

/-- The item that is popped is of another key, which is pushed out. -/
lemma Inv.pushesOut (hi : Inv c calls) (hmax : 1 ≤ c.maxsize) {key : κ} {value : ν}
    {now purgedAt : R.Num} {p : κ × R.Num × ν} {l : List (κ × R.Num × ν)}
    (hpurged : (purged (run c calls) key value now purgedAt).entries = p :: l)
    (hafter : (run c (calls ++ [.set key value now purgedAt])).items.entries = l)
    (hlength : l.length = c.maxsize) :
    p.1 ≠ key ∧ PushesOut c calls key value now purgedAt p.1 := by
  have hmem : ∀ q ∈ l, q ∈ (purged (run c calls) key value now purgedAt).entries := by
    intro q hq
    rw [hpurged]
    exact List.mem_cons_of_mem _ hq
  have hnodup := (purged (run c calls) key value now purgedAt).nodup
  rw [hpurged, List.map_cons, List.nodup_cons] at hnodup
  have hordered := hi.ordered_purged key value now purgedAt
  rw [Dict.keys, hpurged, List.map_cons] at hordered
  have hp := (mem_purged.1 (hpurged ▸ List.mem_cons_self : p ∈ _)).1
  have hne : p.1 ≠ key := by
    -- another follows, and the new item is used last
    intro hkey
    obtain ⟨q, hq⟩ := List.exists_mem_of_length_pos (l := l) (by omega)
    have hsince := hordered.mem_since (List.mem_map_of_mem (f := Prod.fst) hq)
    rw [uses_concat, usedBy, hkey, Recency.since_concat_self] at hsince
    cases hsince
  refine ⟨hne, ?_, ?_, l.map Prod.fst, hnodup.2, ?_, ?_⟩
  · have hold := (hp.resolve_right fun h => hne (by rw [h])).1
    rw [Dict.get?_eq_some_iff.2 hold]
    simp
  · rw [Dict.get?_eq_none_iff, hafter]
    rintro q hq hkey
    exact hnodup.1 (List.mem_map.2 ⟨q, hq, hkey⟩)
  · rw [List.length_map, hlength]
  · intro k' hk'
    refine ⟨?_, hordered.mem_since hk', ?_⟩
    · rintro rfl
      exact hnodup.1 hk'
    · obtain ⟨q, hq, rfl⟩ := List.mem_map.1 hk'
      obtain ⟨setAt, hset, hdeadline⟩ := hi.dated_purged (hmem q hq)
      refine ⟨q.2.2, setAt, hset, ?_⟩
      rw [← hdeadline]
      exact (mem_purged.1 (hmem q hq)).2

lemma Inv.set (hi : Inv c calls) (hmax : 1 ≤ c.maxsize) (key : κ) (value : ν)
    (now purgedAt : R.Num) : Inv c (calls ++ [.set key value now purgedAt]) := by
  have hafter : (run c (calls ++ [.set key value now purgedAt])).items =
      shrink c.maxsize (purged (run c calls) key value now purgedAt) := by
    rw [run_concat, ← (run_limits c calls).1]
    rfl
  have hcases := shrink_cases (hi.length_purged key value now purgedAt)
  have hsub : (shrink c.maxsize (purged (run c calls) key value now purgedAt)).entries.Sublist
      (purged (run c calls) key value now purgedAt).entries := by
    rcases hcases with ⟨hsame, -⟩ | ⟨p, hp, -⟩
    · rw [hsame]
    · rw [hp]
      exact List.sublist_cons_self _ _
  constructor
  · rw [hafter]
    rcases hcases with ⟨hsame, hle⟩ | ⟨p, -, hlength⟩
    · rw [hsame]
      exact hle
    · exact hlength.le
  · intro p hp
    rw [hafter] at hp
    exact hi.dated_purged (hsub.subset hp)
  · rw [hafter]
    exact (hi.ordered_purged key value now purgedAt).sublist (hsub.map Prod.fst)
  · intro k x setAt hset hnone
    rw [hafter] at hnone
    by_cases hthere : ∃ item, (k, item) ∈ (purged (run c calls) key value now purgedAt).entries
    · -- it is the oldest
      obtain ⟨item, hitem⟩ := hthere
      rcases hcases with ⟨hsame, -⟩ | ⟨p, hp, hlength⟩
      · rw [hsame] at hnone
        exact absurd rfl (Dict.get?_eq_none_iff.1 hnone _ hitem)
      · rw [hp, List.mem_cons] at hitem
        rcases hitem with rfl | hitem
        · have hpush := (hi.pushesOut hmax hp (by rw [hafter]) hlength).2
          exact .inr ⟨calls, key, value, now, purgedAt, [], rfl, hpush, List.not_mem_nil⟩
        · exact absurd rfl (Dict.get?_eq_none_iff.1 hnone _ hitem)
    · -- it was missing, or the purge has taken it
      have htime : purgedAt ∈
          (calls ++ [Call.set key value now purgedAt]).flatMap Call.readings := by
        rw [readings_concat]
        exact List.mem_append_right _ (by simp [Call.readings])
      have hpurge : ∀ d, ((k, (d, x)) ∈ (run c calls).items.entries ∧ k ≠ key) ∨
          (k, (d, x)) = (key, (now + c.ttl, value)) → d ≤ purgedAt := by
        intro d hd
        by_contra hlate
        refine hthere ⟨(d, x), mem_purged.2 ⟨?_, not_le.1 hlate⟩⟩
        rw [(run_limits c calls).2]
        exact hd
      rw [lastSet_concat, remember] at hset
      split_ifs at hset with hkey
      · subst hkey
        cases hset
        exact .inl ⟨purgedAt, htime, hpurge _ (.inr rfl)⟩
      · cases hget : (run c calls).items.get? k with
        | none =>
          refine (hi.missing k x setAt hset hget).concat ?_
          rw [usedBy, List.mem_singleton]
          exact Ne.symm hkey
        | some item =>
          have hmem := Dict.get?_eq_some_iff.1 hget
          obtain ⟨setAt', hdated, hdeadline⟩ := hi.dated _ hmem
          rw [hset] at hdated
          cases hdated
          refine .inl ⟨purgedAt, htime, ?_⟩
          rw [← hdeadline]
          exact hpurge _ (.inl ⟨hmem, Ne.symm hkey⟩)

lemma inv_run (hmax : 1 ≤ c.maxsize) (hempty : c.items = Dict.empty) (calls : List (Call R κ ν)) :
    Inv c calls := by
  induction calls using List.reverseRecOn with
  | nil =>
    have hentries : (run c []).items.entries = [] := by
      rw [run, List.foldl_nil, hempty]
      rfl
    constructor
    · rw [hentries]
      exact Nat.zero_le _
    · rw [hentries]
      simp
    · rw [Dict.keys, hentries]
      exact Recency.ordered_nil
    · intro key value setAt h
      cases h
  | append_singleton calls call ih =>
    cases call with
    | set key value now purgedAt => exact ih.set hmax key value now purgedAt
    | get key default now => exact ih.get key default now
    | delete key => exact ih.delete key
    | len now => exact ih.len now

omit [DecidableEq κ] in
lemma init_eq_ok {maxsize : ℕ} {ttl : R.Num} (h : init maxsize ttl = .ok c) :
    1 ≤ c.maxsize ∧ c.items = Dict.empty := by
  rw [init] at h
  split_ifs at h with hmax httl
  cases h
  exact ⟨not_lt.1 hmax, rfl⟩

/-- **The semantics of the cache**, after any calls, whatever they read from the clock: it is
bounded, a read finds the last value set or the default, and a key whose deadline has not come is
found unless enough others, unexpired too, have been used since its last use. -/
theorem semantics_run {maxsize : ℕ} {ttl : R.Num} (h : init maxsize ttl = .ok c)
    (calls : List (Call R κ ν)) : Semantics c calls := by
  obtain ⟨hmax, hempty⟩ := init_eq_ok h
  have hi := inv_run hmax hempty calls
  constructor
  · exact hi.bounded
  · intro key default now
    rw [Cache.get]
    cases hget : (run c calls).items.get? key with
    | none => exact .inl rfl
    | some item =>
      dsimp only
      split_ifs with hold
      · exact .inl rfl
      · right
        obtain ⟨setAt, hset, hdeadline⟩ := hi.dated _ (Dict.get?_eq_some_iff.1 hget)
        refine ⟨item.2, setAt, hset, Rounding.lt_of_lt_add ?_, rfl⟩
        rw [← hdeadline]
        exact not_le.1 hold
  · intro key default value setAt now hset hnow hyoung
    rw [Cache.get]
    cases hget : (run c calls).items.get? key with
    | none =>
      right
      -- no clock reading has reached its deadline, so others have pushed it out
      refine (hi.missing key value setAt hset hget).resolve_left ?_
      rintro ⟨time, htime, hold⟩
      exact absurd (hold.trans (hnow time htime)) (not_le.2 hyoung)
    | some item =>
      left
      obtain ⟨setAt', hdated, hdeadline⟩ := hi.dated _ (Dict.get?_eq_some_iff.1 hget)
      rw [hset] at hdated
      cases hdated
      dsimp only
      rw [if_neg]
      rw [not_le, hdeadline]
      exact hyoung

/-- The last call pushes `b` out, as `a` has been read since. -/
def lruOrder : List (Call Rounding.double String ℕ) :=
  let second (n : ℕ) := Rounding.double.num n
  [.set "a" 1 (second 0) (second 0), .set "b" 2 (second 1) (second 1), .get "a" 0 (second 2),
    .set "c" 3 (second 3) (second 3)]

theorem semantics_lruOrder :
    ∃ c : CacheManager Rounding.double String ℕ, init 2 (Rounding.double.num 60) = .ok c ∧
      Semantics c lruOrder := by
  have httl : (Rounding.double.num 60).1 = 60 := by
    simpa [Rounding.num] using Rounding.nearest_eq_self (p := 52) (m := 60) (k := 0) (by norm_num)
  have hinit : init 2 (Rounding.double.num 60) =
      .ok (⟨2, Rounding.double.num 60, Dict.empty⟩ : CacheManager Rounding.double String ℕ) := by
    rw [init, if_neg (by norm_num), if_neg (by rw [httl]; norm_num)]
  exact ⟨_, hinit, semantics_run hinit lruOrder⟩

/-- An item is to be kept for `2 ** -50` seconds, at a time at which the clock is coarser. -/
def tinyTtl : CacheManager Rounding.double String ℕ where
  maxsize := 1
  ttl := Rounding.double.num (2 ^ (-50 : ℤ))
  items := Dict.empty

lemma ttl_tinyTtl : tinyTtl.ttl.1 = 2 ^ (-50 : ℤ) := by
  simpa [tinyTtl, Rounding.num] using
    Rounding.nearest_eq_self (p := 52) (m := 1) (k := -50) (by norm_num)

lemma num_1024 : (Rounding.double.num 1024).1 = 1024 := by
  simpa [Rounding.num] using
    Rounding.nearest_eq_self (p := 52) (m := 1024) (k := 0) (by norm_num)

lemma add_ttl_tinyTtl : Rounding.double.num 1024 + tinyTtl.ttl = Rounding.double.num 1024 := by
  apply Subtype.ext
  rw [Rounding.val_add, num_1024, ttl_tinyTtl]
  have hround := Rounding.nearest_add_of_lt (p := 52) (m := 2 ^ 52) (k := -42)
    (d := 2 ^ (-50 : ℤ)) le_rfl (by norm_num) (by norm_num) (by norm_num)
  norm_num at hround ⊢
  exact hround

lemma items_tinyTtl : (run tinyTtl [.set "k" 1 (Rounding.double.num 1024)
    (Rounding.double.num 1024)]).items = Dict.empty := by
  have hpurged : (purged tinyTtl "k" 1 (Rounding.double.num 1024)
      (Rounding.double.num 1024)).entries = [] := by
    rw [entries_purged, add_ttl_tinyTtl]
    simp [tinyTtl, Dict.empty]
  apply Dict.ext
  show popWhile 1 (purged tinyTtl "k" 1 (Rounding.double.num 1024)
    (Rounding.double.num 1024)).entries = []
  rw [hpurged, popWhile]

/-- The item is younger than its `ttl`, and the call that set it has taken it out. -/
theorem not_kept_tinyTtl :
    ¬ ∀ (maxsize : ℕ) (ttl : Rounding.double.Num) (c : CacheManager Rounding.double String ℕ)
      (calls : List (Call Rounding.double String ℕ)), init maxsize ttl = .ok c →
      ∀ key default value setAt now, lastSet key calls = some (value, setAt) →
        (∀ time ∈ calls.flatMap Call.readings, time ≤ now) → now.1 < setAt.1 + ttl.1 →
          (get (run c calls) key default now).1 = value ∨ PushedOut c calls key := by
  intro h
  let now := Rounding.double.num 1024
  have hinit : init 1 tinyTtl.ttl = .ok tinyTtl := by
    rw [init, if_neg (by norm_num), if_neg (by rw [ttl_tinyTtl]; norm_num)]
    rfl
  have hall := h 1 tinyTtl.ttl tinyTtl [.set "k" 1 now now] hinit "k" 0 1 now now rfl ?_ ?_
  · rcases hall with hread | ⟨before, k, value, time, purgedAt, later, hcalls, hpush, -⟩
    · rw [get, items_tinyTtl, Dict.get?_empty] at hread
      cases hread
    · -- nothing was there to be pushed out
      rcases before with _ | ⟨call, before⟩
      · exact hpush.held rfl
      · have hlength := congrArg List.length hcalls
        simp at hlength
  · simp [Call.readings]
  · rw [ttl_tinyTtl]
    norm_num

end Tdcs.Cache
