import Mathlib.Data.List.Sort
import Mathlib.Tactic

/-!
Pages of rows that are sorted by a key.

Rows with the same key may stand in any order, and in another one for each page that is asked for.
The pages show each row once, whatever the orders, exactly if no page ends between two rows with the
same key.
-/

namespace Tdcs.Lib.Pages

variable {α κ : Type*}

/-- The page number `i`, counted from zero. -/
def page (size i : ℕ) (l : List α) : List α := (l.drop (i * size)).take size

lemma take_succ_mul (size i : ℕ) (l : List α) :
    l.take ((i + 1) * size) = l.take (i * size) ++ page size i l := by
  rw [Nat.succ_mul, List.take_add]
  rfl

lemma flatMap_page (size n : ℕ) (l : List α) :
    ((List.range n).flatMap fun i => page size i l) = l.take (n * size) := by
  induction n with
  | zero => simp
  | succ n ih =>
    rw [List.range_succ, List.flatMap_append, ih, take_succ_mul]
    simp

variable [LinearOrder κ] (key : α → κ)

/-- The rows in an order with descending keys. -/
structure Ordered (rows l : List α) : Prop where
  perm : l.Perm rows
  sorted : l.Pairwise fun a b => key b ≤ key a

/-- The row number `m` has the key of the row before it. -/
def Splits (m : ℕ) (l : List α) : Prop :=
  ∃ k, m = k + 1 ∧ ∃ a b, l[k]? = some a ∧ l[k + 1]? = some b ∧ key a = key b

variable {key} {rows l l' : List α}

/-! ### Orders of the same rows -/

lemma Ordered.map_key (h : Ordered key rows l) (h' : Ordered key rows l') :
    l.map key = l'.map key := by
  have hs : (l.map key).Pairwise (· ≥ ·) := List.pairwise_map.mpr h.sorted
  have hs' : (l'.map key).Pairwise (· ≥ ·) := List.pairwise_map.mpr h'.sorted
  exact List.Perm.eq_of_pairwise' hs hs' ((h.perm.trans h'.perm.symm).map key)

lemma Ordered.key_getElem? (h : Ordered key rows l) (h' : Ordered key rows l') (i : ℕ) :
    (l[i]?).map key = (l'[i]?).map key := by
  rw [← List.getElem?_map, ← List.getElem?_map, h.map_key h']

omit [LinearOrder κ] in
lemma splits_iff_map {m : ℕ} :
    Splits key m l ↔ ∃ k, m = k + 1 ∧ ∃ c, (l[k]?).map key = some c ∧
      (l[k + 1]?).map key = some c := by
  constructor
  · rintro ⟨k, hm, a, b, ha, hb, hab⟩
    exact ⟨k, hm, key a, by simp [ha], by simp [hb, hab]⟩
  · rintro ⟨k, hm, c, ha, hb⟩
    obtain ⟨a, ha, hac⟩ := Option.map_eq_some_iff.mp ha
    obtain ⟨b, hb, hbc⟩ := Option.map_eq_some_iff.mp hb
    exact ⟨k, hm, a, b, ha, hb, hac.trans hbc.symm⟩

lemma Ordered.splits_iff (h : Ordered key rows l) (h' : Ordered key rows l') {m : ℕ} :
    Splits key m l ↔ Splits key m l' := by
  simp only [splits_iff_map, h.key_getElem? h']

lemma take_eq_filter (hs : l.Pairwise fun a b => key b ≤ key a) {m : ℕ} {b : α}
    (hb : l[m]? = some b) (hno : ¬ Splits key m l) :
    l.take m = l.filter fun a => key b < key a := by
  have hle : ∀ a ∈ l.take m, ∀ b ∈ l.drop m, key b ≤ key a := by
    rw [← List.take_append_drop m l, List.pairwise_append] at hs
    exact hs.2.2
  have hmem : b ∈ l.drop m := by
    have h0 : (l.drop m)[0]? = some b := by rw [List.getElem?_drop, Nat.add_zero, hb]
    exact List.mem_of_getElem? h0
  have hrest : ∀ c ∈ l.drop m, ¬ key b < key c := by
    intro c hc hlt
    obtain ⟨i, hi⟩ := List.mem_iff_getElem?.mp hc
    rw [List.getElem?_drop] at hi
    rcases i with _ | i
    · rw [Nat.add_zero, hb] at hi
      obtain rfl := Option.some.inj hi
      exact lt_irrefl _ hlt
    · obtain ⟨hm, rfl⟩ := List.getElem?_eq_some_iff.mp hb
      obtain ⟨hi', rfl⟩ := List.getElem?_eq_some_iff.mp hi
      have := List.pairwise_iff_getElem.mp hs m (m + (i + 1)) hm hi' (by omega)
      exact absurd this (not_le.mpr hlt)
  have hfirst : ∀ a ∈ l.take m, key b < key a := by
    intro a ha
    refine lt_of_le_of_ne (hle a ha b hmem) fun heq => hno ?_
    obtain ⟨i, hi⟩ := List.mem_iff_getElem?.mp ha
    obtain ⟨hi', rfl⟩ := List.getElem?_eq_some_iff.mp hi
    rw [List.length_take] at hi'
    obtain ⟨hm, rfl⟩ := List.getElem?_eq_some_iff.mp hb
    obtain ⟨k, rfl⟩ : ∃ k, m = k + 1 := ⟨m - 1, by omega⟩
    rw [List.getElem_take] at heq
    -- the row before the boundary lies between the two
    have hup : key l[k] ≤ key l[i] := by
      rcases Nat.lt_or_ge i k with hik | hik
      · exact List.pairwise_iff_getElem.mp hs i k (by omega) (by omega) hik
      · have : i = k := by omega
        subst this
        exact le_rfl
    have hdown : key l[k + 1] ≤ key l[k] :=
      List.pairwise_iff_getElem.mp hs k (k + 1) (by omega) hm (by omega)
    refine ⟨k, rfl, l[k], l[k + 1], List.getElem?_eq_getElem _, hb, ?_⟩
    exact le_antisymm (heq ▸ hup) hdown
  conv_rhs => rw [← List.take_append_drop m l, List.filter_append]
  have h1 : (l.take m).filter (fun a => key b < key a) = l.take m :=
    List.filter_eq_self.mpr fun a ha => decide_eq_true (hfirst a ha)
  have h2 : (l.drop m).filter (fun a => key b < key a) = [] :=
    List.filter_eq_nil_iff.mpr fun a ha => by simpa using hrest a ha
  rw [h1, h2, List.append_nil]

/-- Where no tie is split, the first rows are the same in every order. -/
lemma Ordered.take_perm (h : Ordered key rows l) (h' : Ordered key rows l') {m : ℕ}
    (hno : ¬ Splits key m l) : (l.take m).Perm (l'.take m) := by
  have hperm := h.perm.trans h'.perm.symm
  rcases hb : l[m]? with _ | b
  · have hlen : l.length ≤ m := List.getElem?_eq_none_iff.mp hb
    rw [List.take_of_length_le hlen, List.take_of_length_le (hperm.length_eq ▸ hlen)]
    exact hperm
  · have hkey := h.key_getElem? h' m
    rw [hb, Option.map_some] at hkey
    obtain ⟨b', hb', hbb⟩ := Option.map_eq_some_iff.mp hkey.symm
    rw [take_eq_filter h.sorted hb hno,
      take_eq_filter h'.sorted hb' fun hs => hno ((h.splits_iff h').mpr hs), hbb]
    exact hperm.filter _

lemma Ordered.page_perm (h : Ordered key rows l) (h' : Ordered key rows l') {size i : ℕ}
    (hno : ∀ i, ¬ Splits key (i * size) l) : (page size i l').Perm (page size i l) := by
  have hfirst := h.take_perm h' (hno i)
  have hnext := h.take_perm h' (hno (i + 1))
  rw [take_succ_mul, take_succ_mul] at hnext
  exact (List.perm_append_left_iff _).mp ((hfirst.append_right _).trans hnext.symm)

/-! ### All the pages -/

lemma mem_page {size i k : ℕ} {a : α} (ha : l[k]? = some a) (hlo : i * size ≤ k)
    (hhi : k < (i + 1) * size) : a ∈ page size i l := by
  rw [Nat.succ_mul] at hhi
  have hget : (page size i l)[k - i * size]? = some a := by
    rw [page, List.getElem?_take_of_lt (by omega), List.getElem?_drop,
      Nat.add_sub_cancel' hlo, ha]
  exact List.mem_of_getElem? hget

lemma Ordered.swap {a b : α} {before behind : List α}
    (h : Ordered key rows (before ++ a :: b :: behind)) (hab : key a = key b) :
    Ordered key rows (before ++ b :: a :: behind) where
  perm := ((List.Perm.swap a b behind).append_left before).trans h.perm
  sorted := by
    have hs := h.sorted
    simp only [List.pairwise_append, List.pairwise_cons, List.mem_cons, forall_eq_or_imp] at hs ⊢
    obtain ⟨h1, ⟨⟨-, h2⟩, h3, h4⟩, h5⟩ := hs
    exact ⟨h1, ⟨⟨hab.le, h3⟩, h2, h4⟩, fun x hx => ⟨(h5 x hx).2.1, (h5 x hx).1, (h5 x hx).2.2⟩⟩

/-- **Each row is on one page**, whatever the orders, exactly if no page ends inside a tie. -/
theorem flatMap_page_perm_iff (hnodup : rows.Nodup) (h : Ordered key rows l) {size n : ℕ}
    (hn : rows.length ≤ n * size) :
    (∀ orders : ℕ → List α, (∀ i, Ordered key rows (orders i)) →
      ((List.range n).flatMap fun i => page size i (orders i)).Perm rows) ↔
    ∀ i, ¬ Splits key (i * size) l := by
  have hlen := h.perm.length_eq
  constructor
  · rintro hall i ⟨k, hk, a, b, ha, hb, hab⟩
    obtain ⟨hk1, rfl⟩ := List.getElem?_eq_some_iff.mp hb
    obtain ⟨hk0, rfl⟩ := List.getElem?_eq_some_iff.mp ha
    -- the page is asked for in the order with the two exchanged, and the others in the first
    have hsplit : l = l.take k ++ l[k] :: l[k + 1] :: l.drop (k + 2) := by
      rw [← List.drop_eq_getElem_cons hk1, ← List.drop_eq_getElem_cons hk0,
        List.take_append_drop]
    have h' : Ordered key rows (l.take k ++ l[k + 1] :: l[k] :: l.drop (k + 2)) := by
      rw [hsplit] at h
      exact h.swap hab
    generalize hl' : l.take k ++ l[k + 1] :: l[k] :: l.drop (k + 2) = l' at h'
    have hget : l'[k + 1]? = some l[k] := by
      rw [← hl', List.getElem?_append_right (by simp)]
      simp [Nat.min_eq_left hk0.le]
    obtain ⟨i, rfl⟩ : ∃ j, i = j + 1 := by
      refine ⟨i - 1, ?_⟩
      rcases i with _ | i
      · rw [Nat.zero_mul] at hk
        omega
      · rfl
    have hsucc : (i + 1) * size = i * size + size := Nat.succ_mul i size
    have hpos : 0 < size := by
      rcases Nat.eq_zero_or_pos size with rfl | hpos
      · omega
      · exact hpos
    have hin : i + 1 < n := by
      by_contra hge
      have := Nat.mul_le_mul_right size (not_lt.mp hge)
      omega
    have hperm := hall (fun j => if j = i + 1 then l' else l) fun j => by
      split_ifs
      · exact h'
      · exact h
    have hdisjoint := (List.nodup_flatMap.mp (hperm.nodup_iff.mpr hnodup)).2
    have hne : i ≠ i + 1 := by omega
    have hpair := List.pairwise_iff_getElem.mp hdisjoint i (i + 1)
      (by rw [List.length_range]; omega) (by rwa [List.length_range]) (by omega)
    rw [List.getElem_range, List.getElem_range] at hpair
    have h1 : l[k] ∈ page size i l := mem_page ha (by omega) (by omega)
    have h2 : l[k] ∈ page size (i + 1) l' :=
      mem_page hget (by omega) (by rw [Nat.succ_mul (i + 1)]; omega)
    simp only [Function.onFun, if_neg hne, if_true] at hpair
    exact hpair h1 h2
  · intro hno orders horders
    have hpages : ((List.range n).flatMap fun i => page size i (orders i)).Perm
        ((List.range n).flatMap fun i => page size i l) :=
      List.Perm.flatMap_left _ fun i _ => h.page_perm (horders i) hno
    rw [flatMap_page, List.take_of_length_le (hlen ▸ hn)] at hpages
    exact hpages.trans h.perm

end Tdcs.Lib.Pages
