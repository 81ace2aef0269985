import Mathlib.Data.List.Infix

/-!
Programs with a state and exceptions, and what they append to a log.

An exception does not undo the state. `Emits log m s L Q` says that `m`, run from `s`,
appends to the log a prefix of `L`, and all of `L` if it returns, and that what it returns
then meets `Q`. A sequence of calls that may break off anywhere is described by what it
would emit if nothing went wrong.
-/

namespace Tdcs.Lib

/-- A program over the state `σ` that returns an `α` or raises an `ε`. -/
def Prog (σ ε α : Type*) := σ → Except ε α × σ

namespace Prog

variable {σ ε ε' α γ δ : Type*}

def ret (a : α) : Prog σ ε α := fun s => (.ok a, s)
def raise (e : ε) : Prog σ ε α := fun s => (.error e, s)

/-- First `m`, then, if it returns, `f` on what it returned. -/
def andThen (m : Prog σ ε α) (f : α → Prog σ ε γ) : Prog σ ε γ := fun s =>
  match m s with
  | (.ok a, s') => f a s'
  | (.error e, s') => (.error e, s')

/-- `try m except`: the handler runs in the state the exception left. -/
def handle (m : Prog σ ε α) (h : ε → Prog σ ε' α) : Prog σ ε' α := fun s =>
  match m s with
  | (.ok a, s') => (.ok a, s')
  | (.error e, s') => h e s'

def update (f : σ → σ) : Prog σ ε Unit := fun s => (.ok (), f s)
def read (f : σ → α) : Prog σ ε α := fun s => (.ok (f s), s)
def ofExcept (x : Except ε α) : Prog σ ε α := fun s => (x, s)

/-- `for a in l`. -/
def forEach (f : α → Prog σ ε Unit) : List α → Prog σ ε Unit
  | [] => ret ()
  | a :: l => andThen (f a) fun _ => forEach f l

lemma andThen_of_ok {m : Prog σ ε α} {f : α → Prog σ ε γ} {s : σ} {a : α} (h : (m s).1 = .ok a) :
    m.andThen f s = f a (m s).2 := by
  rw [andThen]
  rcases hm : m s with ⟨e | b, s'⟩ <;> rw [hm] at h <;> cases h
  rfl

lemma andThen_of_error {m : Prog σ ε α} {f : α → Prog σ ε γ} {s : σ} {e : ε}
    (h : (m s).1 = .error e) : m.andThen f s = (.error e, (m s).2) := by
  rw [andThen]
  rcases hm : m s with ⟨e | b, s'⟩ <;> rw [hm] at h <;> cases h
  rfl

lemma handle_of_ok {m : Prog σ ε α} {h : ε → Prog σ ε' α} {s : σ} {a : α} (hret : (m s).1 = .ok a) :
    m.handle h s = (.ok a, (m s).2) := by
  rw [handle]
  rcases hm : m s with ⟨e | b, s'⟩ <;> rw [hm] at hret <;> cases hret
  rfl

lemma handle_of_error {m : Prog σ ε α} {h : ε → Prog σ ε' α} {s : σ} {e : ε}
    (herr : (m s).1 = .error e) : m.handle h s = h e (m s).2 := by
  rw [handle]
  rcases hm : m s with ⟨e | b, s'⟩ <;> rw [hm] at herr <;> cases herr
  rfl

/-- `m` appends a prefix of `L` to the log; if it returns, all of `L`, and `Q` holds. -/
def Emits (log : σ → List δ) (m : Prog σ ε α) (s : σ) (L : List δ) (Q : α → σ → Prop) : Prop :=
  ∃ P, log (m s).2 = log s ++ P ∧ P <+: L ∧ ∀ a, (m s).1 = .ok a → P = L ∧ Q a (m s).2

variable {log : σ → List δ} {m : Prog σ ε α} {s : σ} {L M : List δ} {Q : α → σ → Prop}

lemma Emits.silent (hlog : log (m s).2 = log s) (h : ∀ a, (m s).1 = .ok a → Q a (m s).2) :
    Emits log m s [] Q :=
  ⟨[], by rw [hlog, List.append_nil], List.nil_prefix, fun a ha => ⟨rfl, h a ha⟩⟩

lemma emits_ret {a : α} (h : Q a s) : Emits log (ret a : Prog σ ε α) s [] Q :=
  Emits.silent rfl fun b hb => by cases hb; exact h

lemma emits_raise {e : ε} : Emits log (raise e : Prog σ ε α) s L Q :=
  ⟨[], (List.append_nil _).symm, List.nil_prefix, fun a ha => by cases ha⟩

lemma emits_update {f : σ → σ} {Q : Unit → σ → Prop} (hlog : log (f s) = log s)
    (h : Q () (f s)) : Emits log (update f : Prog σ ε Unit) s [] Q :=
  Emits.silent hlog fun _ _ => h

lemma emits_read {f : σ → α} (h : Q (f s) s) : Emits log (read f : Prog σ ε α) s [] Q :=
  Emits.silent rfl fun b hb => by cases hb; exact h

lemma emits_ofExcept {x : Except ε α} (h : ∀ a, x = .ok a → Q a s) :
    Emits log (ofExcept x : Prog σ ε α) s [] Q :=
  Emits.silent rfl h

lemma Emits.one {d : δ} (hok : ∀ a, (m s).1 = .ok a → log (m s).2 = log s ++ [d] ∧ Q a (m s).2)
    (herr : ∀ e, (m s).1 = .error e → log (m s).2 = log s ∨ log (m s).2 = log s ++ [d]) :
    Emits log m s [d] Q := by
  rcases hm : (m s).1 with e | a
  · rcases herr e hm with h | h
    · exact ⟨[], by rw [h, List.append_nil], List.nil_prefix, fun b hb => by cases hm ▸ hb⟩
    · exact ⟨[d], h, List.prefix_refl _, fun b hb => by cases hm ▸ hb⟩
  · exact ⟨[d], (hok a hm).1, List.prefix_refl _, fun b hb => ⟨rfl, (hok b hb).2⟩⟩

lemma Emits.of_eq (h : Emits log m s L Q) (hL : L = M) : Emits log m s M Q := hL ▸ h

lemma Emits.mono {Q' : α → σ → Prop} (h : Emits log m s L Q) (hQ : ∀ a s', Q a s' → Q' a s') :
    Emits log m s L Q' := by
  obtain ⟨P, hP, hpre, hok⟩ := h
  exact ⟨P, hP, hpre, fun a ha => ⟨(hok a ha).1, hQ a _ (hok a ha).2⟩⟩

/-- **Sequencing.** -/
theorem Emits.andThen {f : α → Prog σ ε γ} {R : γ → σ → Prop} (h : Emits log m s L Q)
    (hf : ∀ a s', Q a s' → Emits log (f a) s' M R) :
    Emits log (m.andThen f) s (L ++ M) R := by
  obtain ⟨P, hP, hpre, hok⟩ := h
  rcases hm : m s with ⟨e | a, s'⟩
  · refine ⟨P, ?_, hpre.trans (List.prefix_append _ _), fun b hb => ?_⟩
    · rw [← hP]
      simp [Prog.andThen, hm]
    · simp [Prog.andThen, hm] at hb
  · rw [hm] at hP hok
    obtain ⟨rfl, hQ⟩ := hok a rfl
    obtain ⟨P', hP', hpre', hok'⟩ := hf a s' hQ
    have hrun : m.andThen f s = f a s' := by simp [Prog.andThen, hm]
    refine ⟨P ++ P', ?_, (List.prefix_append_right_inj P).mpr hpre', fun b hb => ?_⟩
    · rw [hrun, hP', hP, List.append_assoc]
    · rw [hrun] at hb ⊢
      exact ⟨by rw [(hok' b hb).1], (hok' b hb).2⟩

lemma Emits.handle {h : ε → Prog σ ε' α} (hm : Emits log m s L Q)
    (hh : ∀ e s', ∃ e', h e s' = (.error e', s')) : Emits log (m.handle h) s L Q := by
  obtain ⟨P, hP, hpre, hok⟩ := hm
  rcases hrun : m s with ⟨e | a, s'⟩
  · obtain ⟨e', he⟩ := hh e s'
    have hrun' : m.handle h s = (.error e', s') := by simp [Prog.handle, hrun, he]
    rw [hrun] at hP
    exact ⟨P, by rw [hrun', hP], hpre, fun b hb => by rw [hrun'] at hb; cases hb⟩
  · have hrun' : m.handle h s = (.ok a, s') := by simp [Prog.handle, hrun]
    rw [hrun] at hP hok
    exact ⟨P, by rw [hrun', hP], hpre, fun b hb => by rw [hrun'] at hb ⊢; cases hb; exact hok _ rfl⟩

/-- A loop emits what its turns emit, one after the other. -/
theorem emits_forEach {f : α → Prog σ ε Unit} {E : α → List δ} {I : σ → Prop}
    (hf : ∀ a s, I s → Emits log (f a) s (E a) fun _ s' => I s') (l : List α) {s : σ} (hs : I s) :
    Emits log (forEach f l) s (l.flatMap E) fun _ s' => I s' := by
  induction l generalizing s with
  | nil => exact emits_ret hs
  | cons a l ih =>
    rw [List.flatMap_cons]
    exact (hf a s hs).andThen fun _ s' hs' => ih hs'

/-! ### Parts of the state that a program leaves alone -/

section keeps

variable {τ : Type*} {f : σ → τ} {l : List α}

/-- However the program ends, it has left this part of the state as it was. -/
def Keeps (f : σ → τ) (m : Prog σ ε α) : Prop := ∀ s, f (m s).2 = f s

lemma keeps_ret (a : α) : Keeps f (ret a : Prog σ ε α) := fun _ => rfl

lemma keeps_raise (e : ε) : Keeps f (raise e : Prog σ ε α) := fun _ => rfl

lemma keeps_read (g : σ → α) : Keeps f (read g : Prog σ ε α) := fun _ => rfl

lemma keeps_update {g : σ → σ} (h : ∀ s, f (g s) = f s) : Keeps f (update g : Prog σ ε Unit) := h

lemma Keeps.andThen {g : α → Prog σ ε γ} (hm : Keeps f m) (hg : ∀ a, Keeps f (g a)) :
    Keeps f (m.andThen g) := by
  intro s
  have hs := hm s
  rw [Prog.andThen]
  rcases hrun : m s with ⟨e | a, s'⟩
  · rw [hrun] at hs
    exact hs
  · rw [hrun] at hs
    exact (hg a s').trans hs

lemma Keeps.handle {h : ε → Prog σ ε' α} (hm : Keeps f m) (hh : ∀ e, Keeps f (h e)) :
    Keeps f (m.handle h) := by
  intro s
  have hs := hm s
  rw [Prog.handle]
  rcases hrun : m s with ⟨e | a, s'⟩
  · rw [hrun] at hs
    exact (hh e s').trans hs
  · rw [hrun] at hs
    exact hs

lemma Keeps.forEach {act : α → Prog σ ε Unit} (h : ∀ a ∈ l, Keeps f (act a)) :
    Keeps f (forEach act l) := by
  induction l with
  | nil => exact keeps_ret ()
  | cons a l ih =>
    refine (h a List.mem_cons_self).andThen fun _ => ?_
    exact ih fun a' ha' => h a' (List.mem_cons_of_mem _ ha')

/-- A loop that returns has carried out all its turns. -/
theorem forEach_advances {act : α → Prog σ ε Unit} {g : α → τ → τ} {P : α → Prop}
    (h : ∀ a ∈ l, ∀ s, (act a s).1 = .ok () → P a ∧ f (act a s).2 = g a (f s)) (s : σ)
    (hok : (forEach act l s).1 = .ok ()) :
    (∀ a ∈ l, P a) ∧ f (forEach act l s).2 = l.foldl (fun t a => g a t) (f s) := by
  induction l generalizing s with
  | nil => exact ⟨by simp, rfl⟩
  | cons a l ih =>
    have ha := h a List.mem_cons_self s
    rw [Prog.forEach, Prog.andThen] at hok ⊢
    rcases hrun : act a s with ⟨e | u, s'⟩
    · rw [hrun] at hok
      cases hok
    · rw [hrun] at hok ha
      obtain ⟨hP, hf⟩ := ha rfl
      obtain ⟨hall, hrest⟩ := ih (fun a' ha' => h a' (List.mem_cons_of_mem _ ha')) s' hok
      exact ⟨List.forall_mem_cons.2 ⟨hP, hall⟩, by rw [hrest, hf, List.foldl_cons]⟩

end keeps

end Prog

end Tdcs.Lib
