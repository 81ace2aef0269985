import Mathlib.Data.List.Perm.Basic
import Mathlib.Order.Defs.LinearOrder
import Mathlib.Tactic

/-!
Binary heaps in a list, the way `heapq` keeps them.

Items are compared by a key. An item that is put in rises from the end. When the least one is taken
out, the hole at the root sinks to a leaf along the smaller children, and the item that stood last
rises from there. A sift leaves the item that moves out of the list; its place there is a hole,
whatever stands in it.
-/

namespace Tdcs.Lib.Heap

def parent (i : ℕ) : ℕ := (i - 1) / 2

lemma parent_lt {i : ℕ} (h : 0 < i) : parent i < i := by
  unfold parent
  omega

section
variable {α κ : Type*} [LinearOrder κ] (key : α → κ)

/-- `_siftdown` with `startpos` 0: `x` rises from the hole at `pos`. -/
def siftdown (x : α) (h : List α) (pos : ℕ) : List α :=
  if _h0 : 0 < pos then
    match h[parent pos]? with
    | none => h.set pos x
    | some p => if key x < key p then siftdown x (h.set pos p) (parent pos) else h.set pos x
  else h.set pos x
termination_by pos
decreasing_by exact parent_lt _h0

/-- The place of the smaller child, the right one if neither is less. -/
def child (h : List α) (pos : ℕ) : ℕ :=
  match h[2 * pos + 1]?, h[2 * pos + 2]? with
  | some l, some r => if key l < key r then 2 * pos + 1 else 2 * pos + 2
  | _, _ => 2 * pos + 1

lemma child_bounds (h : List α) (pos : ℕ) :
    child key h pos = 2 * pos + 1 ∨ child key h pos = 2 * pos + 2 := by
  unfold child
  split
  · split_ifs
    · exact .inl rfl
    · exact .inr rfl
  · exact .inl rfl

lemma lt_child (h : List α) (pos : ℕ) : pos < child key h pos := by
  have := child_bounds key h pos
  omega

lemma parent_child (h : List α) (pos : ℕ) : parent (child key h pos) = pos := by
  have := child_bounds key h pos
  unfold parent
  omega

/-- The first half of `_siftup`: the hole at `pos` sinks to a leaf. The list and the leaf's
place. -/
def sink (h : List α) (pos : ℕ) : List α × ℕ :=
  match _hc : h[child key h pos]? with
  | none => (h, pos)
  | some c => sink (h.set pos c) (child key h pos)
termination_by h.length - pos
decreasing_by
  have hlt := (List.getElem?_eq_some_iff.mp _hc).1
  have hgt := lt_child key h pos
  rw [List.length_set]
  omega

def heappush (h : List α) (x : α) : List α := siftdown key x (h ++ [x]) h.length

def heappop (h : List α) : Option (α × List α) :=
  match h.getLast?, h.dropLast with
  | none, _ => none
  | some last, [] => some (last, [])
  | some last, top :: rest =>
    let sunk := sink key (top :: rest) 0
    some (top, siftdown key last sunk.1 sunk.2)

end

variable {α κ : Type*} [LinearOrder κ] {key : α → κ} {h : List α} {x : α} {pos : ℕ}

/-! ### Nothing is lost -/

@[simp] lemma length_siftdown : (siftdown key x h pos).length = h.length := by
  fun_induction siftdown key x h pos with
  | case1 => simp
  | case2 h pos hpos p hp hlt ih => simpa using ih
  | case3 => simp
  | case4 => simp

lemma move_perm {q : ℕ} {p : α} (hpos : pos < h.length) (hne : q ≠ pos) (hp : h[q]? = some p) :
    ((h.set pos p).set q x).Perm (h.set pos x) := by
  obtain ⟨hq, rfl⟩ := List.getElem?_eq_some_iff.mp hp
  have hswap := @List.set_set_perm α (h.set pos x) pos q (by simpa) (by simpa)
  rw [List.getElem_set_self, List.getElem_set_ne (Ne.symm hne), List.set_set] at hswap
  exact hswap

lemma siftdown_perm (hpos : pos < h.length) : (siftdown key x h pos).Perm (h.set pos x) := by
  fun_induction siftdown key x h pos with
  | case1 => exact .refl _
  | case2 h pos h0 p hp hlt ih =>
    have hq := parent_lt h0
    have hrise := ih (by simpa using hq.trans hpos)
    exact hrise.trans (move_perm hpos hq.ne hp)
  | case3 => exact .refl _
  | case4 => exact .refl _

lemma sink_lt (hpos : pos < h.length) : (sink key h pos).2 < (sink key h pos).1.length := by
  fun_induction sink key h pos with
  | case1 => exact hpos
  | case2 h pos c hc ih => exact ih (by simpa using (List.getElem?_eq_some_iff.mp hc).1)

/-- The hole carries any item to its leaf. -/
lemma sink_perm (hpos : pos < h.length) :
    ((sink key h pos).1.set (sink key h pos).2 x).Perm (h.set pos x) := by
  fun_induction sink key h pos with
  | case1 => exact .refl _
  | case2 h pos c hc ih =>
    have hsunk := ih (by simpa using (List.getElem?_eq_some_iff.mp hc).1)
    exact hsunk.trans (move_perm hpos (lt_child key h pos).ne' hc)

theorem heappush_perm (h : List α) (x : α) : (heappush key h x).Perm (x :: h) := by
  have hset : (h ++ [x]).set h.length x = h ++ [x] := by simp
  have hsift : (siftdown key x (h ++ [x]) h.length).Perm ((h ++ [x]).set h.length x) :=
    siftdown_perm (by simp)
  rw [hset] at hsift
  exact hsift.trans (List.perm_append_singleton x h)

lemma heappop_concat (top last : α) (rest : List α) :
    heappop key (top :: rest ++ [last]) =
      some (top, siftdown key last (sink key (top :: rest) 0).1 (sink key (top :: rest) 0).2) := by
  have hlast : (top :: rest ++ [last]).getLast? = some last := List.getLast?_concat
  have hdrop : (top :: rest ++ [last]).dropLast = top :: rest := List.dropLast_concat
  unfold heappop
  rw [hlast, hdrop]

lemma cases_ends (h : List α) :
    h = [] ∨ (∃ x, h = [x]) ∨ ∃ top rest last, h = top :: rest ++ [last] := by
  rcases h.eq_nil_or_concat with rfl | ⟨init, last, rfl⟩
  · exact .inl rfl
  · rcases init with _ | ⟨top, rest⟩
    · exact .inr (.inl ⟨last, rfl⟩)
    · exact .inr (.inr ⟨top, rest, last, List.concat_eq_append⟩)

lemma heappop_eq_none : heappop key h = none ↔ h = [] := by
  rcases cases_ends h with rfl | ⟨y, rfl⟩ | ⟨top, rest, last, rfl⟩
  · simp [heappop]
  · simp [heappop]
  · rw [heappop_concat]
    simp

theorem heappop_perm {h' : List α} (hpop : heappop key h = some (x, h')) : (x :: h').Perm h := by
  rcases cases_ends h with rfl | ⟨y, rfl⟩ | ⟨top, rest, last, rfl⟩
  · cases hpop
  · cases hpop
    exact .refl _
  · rw [heappop_concat] at hpop
    cases hpop
    have h0 : 0 < (x :: rest).length := by simp
    have hput : (siftdown key last (sink key (x :: rest) 0).1 (sink key (x :: rest) 0).2).Perm
        ((x :: rest).set 0 last) := (siftdown_perm (sink_lt h0)).trans (sink_perm h0)
    rw [List.set_cons_zero] at hput
    exact (hput.cons x).trans ((List.perm_append_singleton last rest).symm.cons x)

/-! ### The order -/

/-- No item is less than its parent. -/
def Ordered (key : α → κ) (h : List α) : Prop :=
  ∀ i p c, 0 < i → h[parent i]? = some p → h[i]? = some c → key p ≤ key c

/-- The heap around a hole: the items off the hole are in order, and so are those below it and
the one above it. -/
structure Holed (key : α → κ) (h : List α) (hole : ℕ) : Prop where
  off : ∀ i p c, 0 < i → i ≠ hole → parent i ≠ hole → h[parent i]? = some p → h[i]? = some c →
    key p ≤ key c
  across : ∀ i p c, 0 < hole → 0 < i → parent i = hole → h[parent hole]? = some p →
    h[i]? = some c → key p ≤ key c

/-- No item below the hole is less than `x`. -/
def Under (key : α → κ) (h : List α) (hole : ℕ) (x : α) : Prop :=
  ∀ i c, 0 < i → parent i = hole → h[i]? = some c → key x ≤ key c

lemma ordered_nil : Ordered key [] := by
  intro i p c _ hp
  cases hp

lemma getElem?_set_cases {i : ℕ} {c : α} (h' : (h.set pos x)[i]? = some c) :
    i = pos ∧ c = x ∨ i ≠ pos ∧ h[i]? = some c := by
  by_cases hi : i = pos
  · subst hi
    obtain ⟨hlt, hc⟩ := List.getElem?_eq_some_iff.mp h'
    exact .inl ⟨rfl, by simpa using hc.symm⟩
  · rw [List.getElem?_set_ne (Ne.symm hi)] at h'
    exact .inr ⟨hi, h'⟩

lemma Holed.fill (hh : Holed key h pos) (hu : Under key h pos x)
    (ha : ∀ p, 0 < pos → h[parent pos]? = some p → key p ≤ key x) : Ordered key (h.set pos x) := by
  intro i p c hi hp hc
  rcases getElem?_set_cases hp with ⟨hpi, rfl⟩ | ⟨hpi, hp'⟩
  · rcases getElem?_set_cases hc with ⟨rfl, rfl⟩ | ⟨-, hc'⟩
    · exact le_rfl
    · exact hu i c hi hpi hc'
  · rcases getElem?_set_cases hc with ⟨rfl, rfl⟩ | ⟨hci, hc'⟩
    · exact ha p hi hp'
    · exact hh.off i p c hi hci hpi hp' hc'

lemma Holed.up (hh : Holed key h pos) (hpos : 0 < pos) {p : α} (hp : h[parent pos]? = some p) :
    Holed key (h.set pos p) (parent pos) := by
  have hq := parent_lt hpos
  -- nothing above the old hole changes, so the item that came down is not less than its parent
  have habove : ∀ g, 0 < parent pos → h[parent (parent pos)]? = some g → key g ≤ key p := by
    intro g h0 hg
    have hgq := parent_lt h0
    exact hh.off (parent pos) g p h0 hq.ne (by omega) hg hp
  constructor
  · intro i g c hi hiq hgq hg hc
    rcases getElem?_set_cases hg with ⟨hgi, rfl⟩ | ⟨hgi, hg'⟩
    · rcases getElem?_set_cases hc with ⟨rfl, rfl⟩ | ⟨-, hc'⟩
      · exact le_rfl
      · exact hh.across i g c hpos hi hgi hp hc'
    · rcases getElem?_set_cases hc with ⟨rfl, rfl⟩ | ⟨hci, hc'⟩
      · exact absurd rfl hgq
      · exact hh.off i g c hi hci hgi hg' hc'
  · intro i g c h0 hi hiq hg hc
    have hgq := parent_lt h0
    rcases getElem?_set_cases hg with ⟨hgi, -⟩ | ⟨-, hg'⟩
    · omega
    · rcases getElem?_set_cases hc with ⟨rfl, rfl⟩ | ⟨hci, hc'⟩
      · exact habove g h0 hg'
      · have hpc := hh.off i p c hi hci (by omega) (by rw [hiq]; exact hp) hc'
        exact (habove g h0 hg').trans hpc

lemma Under.up (hh : Holed key h pos) (hu : Under key h pos x) {p : α}
    (hp : h[parent pos]? = some p) (hlt : key x < key p) :
    Under key (h.set pos p) (parent pos) x := by
  intro i c hi hiq hc
  rcases getElem?_set_cases hc with ⟨rfl, rfl⟩ | ⟨hci, hc'⟩
  · exact hlt.le
  · by_cases hpq : parent i = pos
    · exact hu i c hi hpq hc'
    · have hpc := hh.off i p c hi hci hpq (by rw [hiq]; exact hp) hc'
      exact hlt.le.trans hpc

lemma Holed.siftdown (hh : Holed key h pos) (hu : Under key h pos x) :
    Ordered key (siftdown key x h pos) := by
  fun_induction Heap.siftdown key x h pos with
  | case1 h pos hpos hnone => exact hh.fill hu fun p _ hp => by simp [hnone] at hp
  | case2 h pos hpos p hp hlt ih => exact ih (hh.up hpos hp) (hu.up hh hp hlt)
  | case3 h pos hpos p hp hlt =>
    refine hh.fill hu fun p' _ hp' => ?_
    obtain rfl : p = p' := Option.some.inj (hp.symm.trans hp')
    exact not_lt.mp hlt
  | case4 h pos hpos => exact hh.fill hu fun p h0 => absurd h0 hpos

lemma child_le {c d : α} {i : ℕ} (hc : h[child key h pos]? = some c) (hi : 0 < i)
    (hip : parent i = pos) (hd : h[i]? = some d) : key c ≤ key d := by
  have hi' : i = 2 * pos + 1 ∨ i = 2 * pos + 2 := by
    unfold parent at hip
    omega
  unfold child at hc
  rcases hl : h[2 * pos + 1]? with _ | l
  · -- no left child, so no right one either
    have hshort := List.getElem?_eq_none_iff.mp hl
    rcases hi' with rfl | rfl
    · rw [hl] at hd
      cases hd
    · rw [List.getElem?_eq_none (by omega)] at hd
      cases hd
  · rcases hr : h[2 * pos + 2]? with _ | r
    · obtain rfl : l = c := by simpa [hl, hr] using hc
      rcases hi' with rfl | rfl
      · obtain rfl : l = d := by simpa [hl] using hd
        exact le_rfl
      · rw [hr] at hd
        cases hd
    · rw [hl, hr] at hc
      dsimp only at hc
      split_ifs at hc with hlr
      · obtain rfl : l = c := by simpa [hl] using hc
        rcases hi' with rfl | rfl
        · obtain rfl : l = d := by simpa [hl] using hd
          exact le_rfl
        · obtain rfl : r = d := by simpa [hr] using hd
          exact hlr.le
      · obtain rfl : r = c := by simpa [hr] using hc
        rcases hi' with rfl | rfl
        · obtain rfl : l = d := by simpa [hl] using hd
          exact not_lt.mp hlr
        · obtain rfl : r = d := by simpa [hr] using hd
          exact le_rfl

lemma Holed.down (hh : Holed key h pos) {c : α} (hc : h[child key h pos]? = some c) :
    Holed key (h.set pos c) (child key h pos) := by
  have hgt := lt_child key h pos
  have hpar := parent_child key h pos
  constructor
  · intro i p d hi hic hpc hp hd
    rcases getElem?_set_cases hp with ⟨hpi, rfl⟩ | ⟨hpi, hp'⟩
    · rcases getElem?_set_cases hd with ⟨rfl, rfl⟩ | ⟨-, hd'⟩
      · exact le_rfl
      · exact child_le hc hi hpi hd'
    · rcases getElem?_set_cases hd with ⟨rfl, rfl⟩ | ⟨hdi, hd'⟩
      · exact hh.across _ p d hi (by omega) hpar hp' hc
      · exact hh.off i p d hi hdi hpi hp' hd'
  · intro i p d h0 hi hic hp hd
    have hci := parent_lt hi
    rw [hpar] at hp
    rcases getElem?_set_cases hp with ⟨-, rfl⟩ | ⟨hne, -⟩
    · rcases getElem?_set_cases hd with ⟨rfl, rfl⟩ | ⟨hdi, hd'⟩
      · omega
      · exact hh.off i p d hi hdi (by omega) (by rw [hic]; exact hc) hd'
    · exact absurd rfl hne

lemma Holed.sink (hh : Holed key h pos) :
    Holed key (sink key h pos).1 (sink key h pos).2 := by
  fun_induction Heap.sink key h pos with
  | case1 => exact hh
  | case2 h pos c hc ih => exact ih (hh.down hc)

lemma under_sink (h : List α) (pos : ℕ) (x : α) :
    Under key (sink key h pos).1 (sink key h pos).2 x := by
  fun_induction Heap.sink key h pos with
  | case1 h pos hnone =>
    intro i c hi hip hc
    have hb := child_bounds key h pos
    have hlen := List.getElem?_eq_none_iff.mp hnone
    have hic : i < h.length := (List.getElem?_eq_some_iff.mp hc).1
    -- the left child is missing, and then so is the right one
    have hleft : h.length ≤ 2 * pos + 1 := by
      unfold child at hnone
      rcases hl : h[2 * pos + 1]? with _ | l
      · exact List.getElem?_eq_none_iff.mp hl
      · rcases hr : h[2 * pos + 2]? with _ | r
        · simp [hl, hr] at hnone
        · rw [hl, hr] at hnone
          dsimp only at hnone
          split_ifs at hnone with hlr
          · simp [hl] at hnone
          · simp [hr] at hnone
    unfold parent at hip
    omega
  | case2 h pos c hc ih => exact ih

lemma Ordered.holed_concat (ho : Ordered key h) (x : α) : Holed key (h ++ [x]) h.length := by
  constructor
  · intro i p c hi hic hpc hp hc
    have hlt : i < h.length := by
      have := (List.getElem?_eq_some_iff.mp hc).1
      simp only [List.length_append, List.length_singleton] at this
      omega
    have hpl := parent_lt hi
    rw [List.getElem?_append_left hlt] at hc
    rw [List.getElem?_append_left (hpl.trans hlt)] at hp
    exact ho i p c hi hp hc
  · intro i p c _ hi hip _ hc
    have hlt := (List.getElem?_eq_some_iff.mp hc).1
    have hpl := parent_lt hi
    simp only [List.length_append, List.length_singleton] at hlt
    omega

theorem Ordered.heappush (ho : Ordered key h) (x : α) : Ordered key (heappush key h x) := by
  refine (ho.holed_concat x).siftdown ?_
  intro i c hi hip hc
  have hlt := (List.getElem?_eq_some_iff.mp hc).1
  have hpl := parent_lt hi
  simp only [List.length_append, List.length_singleton] at hlt
  omega

lemma Ordered.init {l : List α} (ho : Ordered key (h ++ l)) : Ordered key h := by
  intro i p c hi hp hc
  refine ho i p c hi ?_ ?_
  · rw [List.getElem?_append_left (List.getElem?_eq_some_iff.mp hp).1]
    exact hp
  · rw [List.getElem?_append_left (List.getElem?_eq_some_iff.mp hc).1]
    exact hc

lemma Ordered.holed_zero (ho : Ordered key h) : Holed key h 0 :=
  ⟨fun i p c hi _ _ => ho i p c hi, fun _ _ _ h0 => absurd h0 (lt_irrefl 0)⟩

theorem Ordered.heappop {h' : List α} (ho : Ordered key h) (hpop : heappop key h = some (x, h')) :
    Ordered key h' := by
  rcases cases_ends h with rfl | ⟨y, rfl⟩ | ⟨top, rest, last, rfl⟩
  · cases hpop
  · cases hpop
    exact ordered_nil
  · rw [heappop_concat] at hpop
    cases hpop
    exact ho.init.holed_zero.sink.siftdown (under_sink _ _ _)

lemma Ordered.root_le {top : α} (ho : Ordered key h) (htop : h[0]? = some top) :
    ∀ a ∈ h, key top ≤ key a := by
  have hall : ∀ (i : ℕ) (a : α), h[i]? = some a → key top ≤ key a := by
    intro i
    induction i using Nat.strong_induction_on with
    | _ i ih =>
      intro a ha
      rcases Nat.eq_zero_or_pos i with rfl | hi
      · obtain rfl : top = a := Option.some.inj (htop.symm.trans ha)
        exact le_rfl
      · have hpl := parent_lt hi
        have hil := (List.getElem?_eq_some_iff.mp ha).1
        obtain ⟨p, hp⟩ : ∃ p, h[parent i]? = some p :=
          ⟨_, List.getElem?_eq_getElem (hpl.trans hil)⟩
        exact (ih _ hpl p hp).trans (ho i p a hi hp ha)
  intro a ha
  obtain ⟨i, hi⟩ := List.mem_iff_getElem?.mp ha
  exact hall i a hi

/-- **`heappop` takes out a least item.** -/
theorem Ordered.heappop_le {h' : List α} (ho : Ordered key h)
    (hpop : Heap.heappop key h = some (x, h')) : ∀ a ∈ h, key x ≤ key a := by
  rcases cases_ends h with rfl | ⟨y, rfl⟩ | ⟨top, rest, last, rfl⟩
  · cases hpop
  · cases hpop
    intro a ha
    rw [List.mem_singleton.mp ha]
    exact le_rfl
  · rw [heappop_concat] at hpop
    cases hpop
    exact ho.root_le rfl

end Tdcs.Lib.Heap
