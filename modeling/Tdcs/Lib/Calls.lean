import Tdcs.Lib.Prog

/-!
Programs that call something outside, and the turns a loop begins.

The calls are numbered, and what the outside raises on each is given. `Calls o E m s L P Q` says
that `m`, run from `s`, makes the calls of the plan `L` one after the other as long as none of
them raises. It returns, with `Q`, where all have been made and `P` holds; it ends in the
exception of the first call that raises, in the shape calls of that kind give it; or it ends in
an exception of its own, which is an `E`, and then `P` fails.
-/

namespace Tdcs.Lib.Prog

variable {σ ε α γ κ : Type*}

/-- The outside of a program: the number of calls made so far, what each call raises, and what the
exception of a call of each kind becomes on its way out of the program. -/
structure Outside (σ ε κ : Type*) where
  count : σ → ℕ
  raised : ℕ → Option ε
  surface : κ → ε → ε

inductive Calls (o : Outside σ ε κ) (E : ε → Prop) (m : Prog σ ε α) (s : σ) (L : List κ) (P : Prop)
    (Q : α → σ → Prop) : Prop
  | returned (a : α) (hret : (m s).1 = .ok a) (hcount : o.count (m s).2 = o.count s + L.length)
      (hans : ∀ i < L.length, o.raised (o.count s + i) = none) (hP : P) (hQ : Q a (m s).2)
  | raised (i : ℕ) (k : κ) (e : ε) (hk : L[i]? = some k)
      (hans : ∀ j < i, o.raised (o.count s + j) = none) (he : o.raised (o.count s + i) = some e)
      (hcount : o.count (m s).2 = o.count s + i + 1) (herr : (m s).1 = .error (o.surface k e))
  | own (i : ℕ) (e : ε) (hi : i ≤ L.length) (hans : ∀ j < i, o.raised (o.count s + j) = none)
      (hcount : o.count (m s).2 = o.count s + i) (hP : ¬ P) (hE : E e) (herr : (m s).1 = .error e)

variable {o : Outside σ ε κ} {E : ε → Prop} {m : Prog σ ε α} {s : σ} {L M : List κ} {P P' : Prop}
  {Q : α → σ → Prop}

lemma Calls.of_eq (h : Calls o E m s L P Q) (hL : L = M) (hP : P ↔ P') : Calls o E m s M P' Q := by
  subst hL
  rwa [propext hP] at h

lemma Calls.mono {Q' : α → σ → Prop} (h : Calls o E m s L P Q) (hQ : ∀ a s', Q a s' → Q' a s') :
    Calls o E m s L P Q' := by
  cases h with
  | returned a hret hcount hans hP hq => exact .returned a hret hcount hans hP (hQ a _ hq)
  | raised i k e hk hans he hcount herr => exact .raised i k e hk hans he hcount herr
  | own i e hi hans hcount hP hE herr => exact .own i e hi hans hcount hP hE herr

lemma Calls.congr {m' : Prog σ ε α} (h : Calls o E m s L P Q) (hm : m' s = m s) :
    Calls o E m' s L P Q := by
  cases h with
  | returned a hret hcount hans hP hQ =>
    rw [← hm] at hret hcount hQ
    exact .returned a hret hcount hans hP hQ
  | raised i k e hk hans he hcount herr =>
    rw [← hm] at hcount herr
    exact .raised i k e hk hans he hcount herr
  | own i e hi hans hcount hP hE herr =>
    rw [← hm] at hcount herr
    exact .own i e hi hans hcount hP hE herr

lemma calls_silent {a : α} (hret : (m s).1 = .ok a) (hcount : o.count (m s).2 = o.count s)
    (hQ : Q a (m s).2) : Calls o E m s [] True Q :=
  .returned a hret hcount (by simp) trivial hQ

lemma calls_ret {a : α} (hQ : Q a s) : Calls o E (ret a : Prog σ ε α) s [] True Q :=
  calls_silent rfl rfl hQ

lemma calls_raise {e : ε} (hE : E e) : Calls o E (raise e : Prog σ ε α) s L False Q :=
  .own 0 e (Nat.zero_le _) (by simp) rfl id hE rfl

lemma calls_one {k : κ} (hcount : o.count (m s).2 = o.count s + 1)
    (hret : o.raised (o.count s) = none → ∃ a, (m s).1 = .ok a ∧ Q a (m s).2)
    (herr : ∀ e, o.raised (o.count s) = some e → (m s).1 = .error (o.surface k e)) :
    Calls o E m s [k] True Q := by
  rcases h : o.raised (o.count s) with _ | e
  · obtain ⟨a, ha, hQ⟩ := hret h
    refine .returned a ha hcount (fun i hi => ?_) trivial hQ
    obtain rfl : i = 0 := by simpa using hi
    exact h
  · exact .raised 0 k e rfl (by simp) h hcount (herr e h)

/-- **Sequencing.** -/
theorem Calls.andThen {f : α → Prog σ ε γ} {R : γ → σ → Prop} (h : Calls o E m s L P Q)
    (hf : ∀ a s', Q a s' → Calls o E (f a) s' M P' R) :
    Calls o E (m.andThen f) s (L ++ M) (P ∧ P') R := by
  cases h with
  | returned a hret hcount hans hP hQ =>
    have hrun := andThen_of_ok (f := f) hret
    have hshift : ∀ {n : ℕ}, (∀ j < n, o.raised (o.count (m s).2 + j) = none) →
        ∀ j < L.length + n, o.raised (o.count s + j) = none := by
      intro n hn j hj
      rcases Nat.lt_or_ge j L.length with hlt | hge
      · exact hans j hlt
      · have hj' := hn (j - L.length) (by omega)
        rw [hcount] at hj'
        rwa [show o.count s + j = o.count s + L.length + (j - L.length) by omega]
    -- the first part returned: the second counts its calls on from there
    cases hf a _ hQ with
    | returned b hret' hcount' hans' hP' hR =>
      refine .returned b (by rw [hrun, hret']) ?_ ?_ ⟨hP, hP'⟩ (by rw [hrun]; exact hR)
      · rw [hrun, hcount', hcount, List.length_append]
        omega
      · rw [List.length_append]
        exact hshift hans'
    | raised i k e hk hans' he hcount' herr =>
      refine .raised (L.length + i) k e ?_ (hshift hans') ?_ ?_ (by rw [hrun, herr])
      · rw [List.getElem?_append_right (by omega)]
        simpa using hk
      · rw [← Nat.add_assoc, ← hcount, he]
      · rw [hrun, hcount', hcount]
        omega
    | own i e hi hans' hcount' hP' hE herr =>
      refine .own (L.length + i) e ?_ (hshift hans') ?_ (fun h => hP' h.2) hE (by rw [hrun, herr])
      · rw [List.length_append]
        omega
      · rw [hrun, hcount', hcount]
        omega
  | raised i k e hk hans he hcount herr =>
    obtain ⟨hi, -⟩ := List.getElem?_eq_some_iff.1 hk
    have hrun := andThen_of_error (f := f) herr
    refine .raised i k e ?_ hans he (by rw [hrun, hcount]) (by rw [hrun])
    rwa [List.getElem?_append_left hi]
  | own i e hi hans hcount hP hE herr =>
    have hrun := andThen_of_error (f := f) herr
    refine .own i e ?_ hans (by rw [hrun, hcount]) (fun h => hP h.1) hE (by rw [hrun])
    rw [List.length_append]
    omega

lemma Calls.andThen_free {f : α → Prog σ ε γ} {R : γ → σ → Prop} (h : Calls o E m s L P Q)
    (hf : ∀ a s', Q a s' → Calls o E (f a) s' M True R) :
    Calls o E (m.andThen f) s (L ++ M) P R :=
  (h.andThen hf).of_eq rfl (by rw [and_true])

lemma Calls.handle {h : ε → Prog σ ε α} {g : ε → ε} {t : κ → κ} (hm : Calls o E m s L P Q)
    (hh : ∀ e s', h e s' = (.error (g e), s'))
    (ht : ∀ k ∈ L, ∀ e, o.surface (t k) e = g (o.surface k e))
    (hE : ∀ e, E e → E (g e)) : Calls o E (m.handle h) s (L.map t) P Q := by
  cases hm with
  | returned a hret hcount hans hP hQ =>
    have hrun := handle_of_ok (h := h) hret
    refine .returned a (by rw [hrun]) ?_ ?_ hP (by rw [hrun]; exact hQ)
    · rw [hrun, hcount, List.length_map]
    · rwa [List.length_map]
  | raised i k e hk hans he hcount herr =>
    have hrun := (handle_of_error (h := h) herr).trans (hh _ _)
    refine .raised i (t k) e (by rw [List.getElem?_map, hk]; rfl) hans he (by rw [hrun, hcount]) ?_
    rw [hrun, ht k (List.mem_of_getElem? hk)]
  | own i e hi hans hcount hP hE' herr =>
    have hrun := (handle_of_error (h := h) herr).trans (hh _ _)
    exact .own i (g e) (by rwa [List.length_map]) hans (by rw [hrun, hcount]) hP (hE e hE')
      (by rw [hrun])

/-! ### What the plan says about a run -/

lemma Calls.error_of_raised (h : Calls o E m s L P Q) {n : ℕ} {e : ε} (hlo : o.count s ≤ n)
    (hhi : n < o.count (m s).2) (he : o.raised n = some e) :
    ∃ k, L[n - o.count s]? = some k ∧ (m s).1 = .error (o.surface k e) := by
  have hn : o.count s + (n - o.count s) = n := by omega
  have hnot : ∀ {l : ℕ}, (∀ j < l, o.raised (o.count s + j) = none) → ¬ n - o.count s < l := by
    intro l hans hlt
    have := hans _ hlt
    rw [hn, he] at this
    cases this
  cases h with
  | returned a hret hcount hans hP hQ => exact absurd (by omega) (hnot hans)
  | raised i k e' hk hans he' hcount herr =>
    obtain rfl : i = n - o.count s := by
      have := hnot hans
      omega
    rw [hn, he] at he'
    obtain rfl := Option.some.inj he'
    exact ⟨k, hk, herr⟩
  | own i e' hi hans hcount hP hE herr => exact absurd (by omega) (hnot hans)

lemma Calls.returns (h : Calls o E m s L P Q)
    (hans : ∀ i < L.length, o.raised (o.count s + i) = none) (hP : P) :
    ∃ a, (m s).1 = .ok a ∧ Q a (m s).2 := by
  cases h with
  | returned a hret _ _ _ hQ => exact ⟨a, hret, hQ⟩
  | raised i k e hk _ he _ _ =>
    rw [hans i (List.getElem?_eq_some_iff.1 hk).1] at he
    cases he
  | own i e _ _ _ hP' _ _ => exact absurd hP hP'

lemma Calls.of_returned (h : Calls o E m s L P Q) {a : α} (hret : (m s).1 = .ok a) :
    P ∧ ∀ i < L.length, o.raised (o.count s + i) = none := by
  cases h with
  | returned b hret' _ hans hP _ => exact ⟨hP, hans⟩
  | raised i k e _ _ _ _ herr =>
    rw [hret] at herr
    cases herr
  | own i e _ _ _ _ _ herr =>
    rw [hret] at herr
    cases herr

lemma Calls.of_error (h : Calls o E m s L P Q) {e : ε} (herr : (m s).1 = .error e) :
    (∃ k ∈ L, ∃ n e', o.raised n = some e' ∧ e = o.surface k e') ∨ E e := by
  cases h with
  | returned a hret _ _ _ _ =>
    rw [herr] at hret
    cases hret
  | raised i k e' hk _ he' _ herr' =>
    rw [herr] at herr'
    cases herr'
    exact .inl ⟨k, List.mem_of_getElem? hk, _, e', he', rfl⟩
  | own i e' _ _ _ _ hE herr' =>
    rw [herr] at herr'
    cases herr'
    exact .inr hE

/-! ### The turns of a loop -/

/-- The turns a loop begins, each with the state it begins in. -/
def begun (f : α → Prog σ ε Unit) : List α → σ → List (α × σ)
  | [], _ => []
  | a :: l, s => (a, s) :: match f a s with
    | (.ok _, s') => begun f l s'
    | (.error _, _) => []

variable {f : α → Prog σ ε Unit} {l : List α}

lemma mem_of_mem_begun {a : α} {s₁ : σ} (h : (a, s₁) ∈ begun f l s) : a ∈ l := by
  induction l generalizing s with
  | nil => cases h
  | cons b l ih =>
    rw [begun] at h
    rcases List.mem_cons.1 h with heq | hrest
    · cases heq
      exact List.mem_cons_self
    · rcases hrun : f b s with ⟨e | u, s'⟩
      · rw [hrun] at hrest
        cases hrest
      · rw [hrun] at hrest
        exact List.mem_cons_of_mem _ (ih hrest)

lemma begun_of_returned (hok : (forEach f l s).1 = .ok ()) :
    (∀ a ∈ l, ∃ s₁, (a, s₁) ∈ begun f l s) ∧ ∀ p ∈ begun f l s, (f p.1 p.2).1 = .ok () := by
  induction l generalizing s with
  | nil => simp [begun]
  | cons b l ih =>
    rw [forEach, Prog.andThen] at hok
    rcases hrun : f b s with ⟨e | u, s'⟩
    · rw [hrun] at hok
      cases hok
    · rw [hrun] at hok
      obtain ⟨hall, hret⟩ := ih hok
      rw [begun, hrun]
      refine ⟨fun a ha => ?_, fun p hp => ?_⟩
      · rcases List.mem_cons.1 ha with rfl | ha
        · exact ⟨s, List.mem_cons_self⟩
        · obtain ⟨s₁, hs₁⟩ := hall a ha
          exact ⟨s₁, List.mem_cons_of_mem _ hs₁⟩
      · rcases List.mem_cons.1 hp with rfl | hp
        · rw [hrun]
        · exact hret p hp

end Tdcs.Lib.Prog
