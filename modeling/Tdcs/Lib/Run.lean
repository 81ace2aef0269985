import Mathlib.Data.List.Infix

/-!
Runs of a machine given by a total step function.

A machine is a function `step : σ → α → σ`; a label that does nothing in a state is a step
that leaves the state as it is. A run is a list of labels. `Always` speaks about the
states a run leads through, `Steps` about its steps, and the rules below carry an
invariant along a run.
-/

namespace Tdcs.Lib.Run

variable {σ α : Type*} (step : σ → α → σ)

/-- `P` holds in every state the run `l` leads through from `s`, both ends included. -/
def Always (P : σ → Prop) : σ → List α → Prop
  | s, [] => P s
  | s, a :: l => P s ∧ Always P (step s a) l

/-- Every step of the run `l` from `s` meets `C`, a condition on the state before the
step and its label. -/
def Steps (C : σ → α → Prop) : σ → List α → Prop
  | _, [] => True
  | s, a :: l => C s a ∧ Steps C (step s a) l

/-- Some step of the run `l` from `s` meets `C`. -/
def Once (C : σ → α → Prop) : σ → List α → Prop
  | _, [] => False
  | s, a :: l => C s a ∨ Once C (step s a) l

instance decidableAlways (P : σ → Prop) [DecidablePred P] :
    ∀ s l, Decidable (Always step P s l)
  | s, [] => inferInstanceAs (Decidable (P s))
  | s, a :: l =>
    haveI := decidableAlways P (step s a) l
    inferInstanceAs (Decidable (P s ∧ Always step P (step s a) l))

instance decidableSteps (C : σ → α → Prop) [∀ s a, Decidable (C s a)] :
    ∀ s l, Decidable (Steps step C s l)
  | _, [] => inferInstanceAs (Decidable True)
  | s, a :: l =>
    haveI := decidableSteps C (step s a) l
    inferInstanceAs (Decidable (C s a ∧ Steps step C (step s a) l))

variable {step}

@[simp] lemma always_nil {P : σ → Prop} {s : σ} : Always step P s [] ↔ P s := Iff.rfl
@[simp] lemma always_cons {P : σ → Prop} {s : σ} {a : α} {l : List α} :
    Always step P s (a :: l) ↔ P s ∧ Always step P (step s a) l := Iff.rfl
@[simp] lemma steps_nil {C : σ → α → Prop} {s : σ} : Steps step C s [] := trivial
@[simp] lemma steps_cons {C : σ → α → Prop} {s : σ} {a : α} {l : List α} :
    Steps step C s (a :: l) ↔ C s a ∧ Steps step C (step s a) l := Iff.rfl

@[simp] lemma once_nil {C : σ → α → Prop} {s : σ} : ¬ Once step C s [] := id
@[simp] lemma once_cons {C : σ → α → Prop} {s : σ} {a : α} {l : List α} :
    Once step C s (a :: l) ↔ C s a ∨ Once step C (step s a) l := Iff.rfl

lemma Always.head {P : σ → Prop} {s : σ} {l : List α} (h : Always step P s l) : P s := by
  cases l with
  | nil => exact h
  | cons a l => exact h.1

/-- `Always` read on prefixes: the states of a run are the states its prefixes end in. -/
theorem always_iff_states {P : σ → Prop} {s : σ} {l : List α} :
    Always step P s l ↔ ∀ p, p <+: l → P (p.foldl step s) := by
  induction l generalizing s with
  | nil => simp [List.prefix_nil]
  | cons a l ih =>
    rw [always_cons, ih]
    constructor
    · rintro ⟨h0, h⟩ p hp
      rcases p with _ | ⟨b, p⟩
      · exact h0
      · obtain ⟨rfl, hp'⟩ := List.cons_prefix_cons.mp hp
        exact h p hp'
    · intro h
      refine ⟨h [] (List.nil_prefix), fun p hp => ?_⟩
      exact h (a :: p) (List.cons_prefix_cons.mpr ⟨rfl, hp⟩)

/-- **The invariant rule.** What holds at the start and is kept by every step that meets
`C` holds in every state of a run whose steps meet `C`. -/
theorem always_of_inv {I : σ → Prop} {C : σ → α → Prop}
    (hI : ∀ s a, I s → C s a → I (step s a)) {s : σ} (h0 : I s) {l : List α}
    (hC : Steps step C s l) : Always step I s l := by
  induction l generalizing s with
  | nil => exact h0
  | cons a l ih => exact ⟨h0, ih (hI s a h0 hC.1) hC.2⟩

/-- The invariant rule where every step keeps the invariant. -/
theorem always_of_step {I : σ → Prop} (hI : ∀ s a, I s → I (step s a)) {s : σ} (h0 : I s)
    (l : List α) : Always step I s l := by
  induction l generalizing s with
  | nil => exact h0
  | cons a l ih => exact ⟨h0, ih (hI s a h0)⟩

/-- The invariant rule for a run along which `H` is known of every state. -/
theorem always_of_always {I H : σ → Prop}
    (hI : ∀ s a, H s → I s → I (step s a)) {s : σ} (h0 : I s) {l : List α}
    (hH : Always step H s l) : Always step I s l := by
  induction l generalizing s with
  | nil => exact h0
  | cons a l ih => exact ⟨h0, ih (hI s a hH.1 h0) hH.2⟩

lemma Always.mono {P Q : σ → Prop} (hPQ : ∀ s, P s → Q s) {s : σ} {l : List α}
    (h : Always step P s l) : Always step Q s l := by
  induction l generalizing s with
  | nil => exact hPQ s h
  | cons a l ih => exact ⟨hPQ s h.1, ih h.2⟩

lemma Always.mono₂ {P Q R : σ → Prop} (hPQ : ∀ s, P s → Q s → R s) {s : σ} {l : List α}
    (h : Always step P s l) (h' : Always step Q s l) : Always step R s l := by
  induction l generalizing s with
  | nil => exact hPQ s h h'
  | cons a l ih => exact ⟨hPQ s h.1 h'.1, ih h.2 h'.2⟩

lemma Steps.mono {C D : σ → α → Prop} (hCD : ∀ s a, C s a → D s a) {s : σ} {l : List α}
    (h : Steps step C s l) : Steps step D s l := by
  induction l generalizing s with
  | nil => trivial
  | cons a l ih => exact ⟨hCD s a h.1, ih h.2⟩

lemma Steps.and {C D : σ → α → Prop} {s : σ} {l : List α} (h : Steps step C s l)
    (h' : Steps step D s l) : Steps step (fun s a => C s a ∧ D s a) s l := by
  induction l generalizing s with
  | nil => trivial
  | cons a l ih => exact ⟨⟨h.1, h'.1⟩, ih h.2 h'.2⟩

/-- A property of steps that an invariant implies holds of every step of the run. -/
theorem steps_of_inv {I : σ → Prop} {C D : σ → α → Prop}
    (hI : ∀ s a, I s → C s a → I (step s a)) (hD : ∀ s a, I s → C s a → D s a)
    {s : σ} (h0 : I s) {l : List α} (hC : Steps step C s l) : Steps step D s l := by
  induction l generalizing s with
  | nil => trivial
  | cons a l ih => exact ⟨hD s a h0 hC.1, ih (hI s a h0 hC.1) hC.2⟩

/-- Where, under an invariant, each single step keeps `P` exactly when it meets `C`, a run
stays inside `P` exactly when all its steps meet `C`. -/
theorem always_iff_steps {I P : σ → Prop} {C : σ → α → Prop}
    (hI : ∀ s a, I s → I (step s a)) (h : ∀ s a, I s → P s → (P (step s a) ↔ C s a))
    {s : σ} (h0 : I s) (hP : P s) {l : List α} : Always step P s l ↔ Steps step C s l := by
  induction l generalizing s with
  | nil => exact ⟨fun _ => trivial, fun _ => hP⟩
  | cons a l ih =>
    have ih' := fun hp => ih (hI s a h0) hp
    constructor
    · rintro ⟨-, hl⟩
      exact ⟨(h s a h0 hP).mp hl.head, (ih' hl.head).mp hl⟩
    · rintro ⟨hc, hl⟩
      exact ⟨hP, (ih' ((h s a h0 hP).mpr hc)).mpr hl⟩

/-- Where, under an invariant that the steps which meet `C` keep, `C` and `D` say the same of a
step, they say the same of runs. -/
theorem steps_iff_of_inv {I : σ → Prop} {C D : σ → α → Prop}
    (hI : ∀ s a, I s → C s a → I (step s a)) (h : ∀ s a, I s → (C s a ↔ D s a)) {s : σ}
    (h0 : I s) {l : List α} : Steps step C s l ↔ Steps step D s l := by
  induction l generalizing s with
  | nil => exact Iff.rfl
  | cons a l ih =>
    rw [steps_cons, steps_cons, ← h s a h0]
    exact and_congr_right fun hC => ih (hI s a h0 hC)

/-- Where, under an invariant, two conditions on steps say the same, they say the same of runs. -/
theorem steps_iff_steps {I : σ → Prop} {C D : σ → α → Prop} (hI : ∀ s a, I s → I (step s a))
    (h : ∀ s a, I s → (C s a ↔ D s a)) {s : σ} (h0 : I s) {l : List α} :
    Steps step C s l ↔ Steps step D s l :=
  steps_iff_of_inv (fun s a hi _ => hI s a hi) h h0

/-- Where, under an invariant, each step brings `P` about exactly if it meets `C` and no step undoes
it, a run ends in `P` exactly if it began there or some step meets `C`. -/
theorem final_iff_once {I P : σ → Prop} {C : σ → α → Prop} (hI : ∀ s a, I s → I (step s a))
    (h : ∀ s a, I s → (P (step s a) ↔ P s ∨ C s a)) {s : σ} (h0 : I s) {l : List α} :
    P (l.foldl step s) ↔ P s ∨ Once step C s l := by
  induction l generalizing s with
  | nil => simp
  | cons a l ih =>
    rw [List.foldl_cons, ih (hI s a h0), h s a h0, once_cons, or_assoc]

/-- What two properties of a state say of every step from it holds of the steps of a run through
such states. -/
lemma Always.steps {P Q : σ → Prop} {C : σ → α → Prop} {s : σ} {l : List α}
    (h : Always step P s l) (h' : Always step Q s l) (hC : ∀ s a, P s → Q s → C s a) :
    Steps step C s l := by
  induction l generalizing s with
  | nil => trivial
  | cons a l ih => exact ⟨hC s a h.1 h'.1, ih h.2 h'.2⟩

lemma steps_append {C : σ → α → Prop} {s : σ} {p q : List α} :
    Steps step C s (p ++ q) ↔ Steps step C s p ∧ Steps step C (p.foldl step s) q := by
  induction p generalizing s with
  | nil => simp
  | cons a p ih => rw [List.cons_append, steps_cons, ih, steps_cons, and_assoc, List.foldl_cons]

/-- A property of all steps of a run holds of each single one. -/
lemma Steps.at {C : σ → α → Prop} {s : σ} {p q : List α} {a : α}
    (h : Steps step C s (p ++ a :: q)) : C (p.foldl step s) a := by
  induction p generalizing s with
  | nil => exact h.1
  | cons b p ih => exact ih h.2

/-- `Steps` read on prefixes. -/
theorem steps_iff_at {C : σ → α → Prop} {s : σ} {l : List α} :
    Steps step C s l ↔ ∀ p a q, l = p ++ a :: q → C (p.foldl step s) a := by
  constructor
  · rintro h p a q rfl
    exact h.at
  · intro h
    induction l generalizing s with
    | nil => trivial
    | cons b l ih =>
      refine ⟨h [] b l rfl, ih fun p a q hl => ?_⟩
      exact h (b :: p) a q (by rw [hl]; rfl)

lemma not_once {C : σ → α → Prop} {s : σ} {l : List α} :
    ¬ Once step C s l ↔ Steps step (fun s a => ¬ C s a) s l := by
  induction l generalizing s with
  | nil => simp
  | cons a l ih => rw [once_cons, not_or, steps_cons, ih]

/-- Where, under an invariant, a step that ends in `P` meets `C`, the steps of a run inside `P` meet
it. -/
theorem steps_of_next {I P : σ → Prop} {C D : σ → α → Prop}
    (hI : ∀ s a, I s → D s a → I (step s a)) (h : ∀ s a, I s → D s a → P (step s a) → C s a)
    {s : σ} (h0 : I s) {l : List α} (hD : Steps step D s l) (hP : Always step P s l) :
    Steps step C s l := by
  induction l generalizing s with
  | nil => trivial
  | cons a l ih => exact ⟨h s a h0 hD.1 hP.2.head, ih (hI s a h0 hD.1) hD.2 hP.2⟩

/-- A condition on labels that all labels of a run meet. -/
lemma steps_of_forall {C : α → Prop} {s : σ} {l : List α} (h : ∀ a ∈ l, C a) :
    Steps step (fun _ a => C a) s l := by
  induction l generalizing s with
  | nil => trivial
  | cons a l ih => exact ⟨h a List.mem_cons_self, ih fun b hb => h b (List.mem_cons_of_mem _ hb)⟩

/-! ### What can be seen of a run -/

/-- What the steps of the run `l` from `s` put out. -/
def outputs {β : Type*} (step : σ → α → σ) (out : σ → α → β) : σ → List α → List β
  | _, [] => []
  | s, a :: l => out s a :: outputs step out (step s a) l

/-- No run tells the two states apart by what it puts out. -/
def Alike {β : Type*} (step : σ → α → σ) (out : σ → α → β) (s s' : σ) : Prop :=
  ∀ l, outputs step out s l = outputs step out s' l

lemma Alike.refl {β : Type*} {out : σ → α → β} (s : σ) : Alike step out s s := fun _ => rfl

/-- One step that puts out something else tells two states apart. -/
lemma not_alike {β : Type*} {out : σ → α → β} {s s' : σ} {a : α} (h : out s a ≠ out s' a) :
    ¬ Alike step out s s' := by
  intro hall
  have := hall [a]
  simp only [outputs, List.cons.injEq, and_true] at this
  exact h this

end Tdcs.Lib.Run
