import Tdcs.Lib.Run
import Tdcs.FileArchiver

/-!
`_safe_move`, one operation of the file system after another.

An operation succeeds or raises, a copy may leave part of a file behind or write something
else than it read, and the run may end after any operation. The contents are never gone: the
source stays until the copy that was compared with it has its final name.
-/

namespace Tdcs.SafeMove

open Tdcs.Lib Tdcs.Lib.Run Tdcs.FileArchiver

variable {δ : Type*}

/-- What is compared of a file: `os.path.getsize` and `_md5`. -/
structure Digest (δ : Type*) where
  size : δ → ℕ
  md5 : δ → String

/-- Equal sizes and digests mean equal contents. -/
def Digest.Sound (D : Digest δ) : Prop :=
  ∀ a b, D.size a = D.size b → D.md5 a = D.md5 b → a = b

/-- A call of `_safe_move`, with the suffix it draws. -/
structure Move where
  src : FPath
  dst : FPath
  uid : String

/-- The name of the copy. -/
def Move.tmp (m : Move) : FPath := tmpPath m.dst m.uid

/-- The operations done so far, with the local variables still in use. -/
inductive Phase
  | called
  | sized (size : ℕ)
  | hashed (size : ℕ) (md5 : String)
  | copied (size : ℕ) (md5 : String)
  /-- The copy has the size of the source. -/
  | measured (md5 : String)
  /-- The comparison failed, and the copy is about to be removed. -/
  | mismatched
  | verified
  | moved
  | returned
  | raised
  deriving DecidableEq

/-- How an operation ends. A copy that fails leaves the file `left` under the new name, or none;
one that corrupts writes `f`. -/
inductive Outcome (δ : Type*)
  | ok
  | fails (left : Option (File δ))
  | corrupts (f : File δ)

def Outcome.raises : Outcome δ → Bool
  | .fails _ => true
  | _ => false

structure State (δ : Type*) where
  fs : Files δ
  phase : Phase

variable (D : Digest δ) (m : Move)

/-- A value read from a file, for a reading operation with the given end. -/
def readFile {α : Type*} (fs : Files δ) (p : FPath) (g : δ → α) (o : Outcome δ) : Option α :=
  if o.raises then none else (fs.get? p).map fun f => g f.data

/-- `shutil.copy2(src, tmp)`. -/
def copyStep (fs : Files δ) (size : ℕ) (md5 : String) : Outcome δ → State δ
  | .ok =>
    if (fs.get? m.src).isSome then ⟨fs.copy2 m.src m.tmp, .copied size md5⟩ else ⟨fs, .raised⟩
  | .corrupts f => ⟨fs.write m.tmp f, .copied size md5⟩
  | .fails none => ⟨fs, .raised⟩
  | .fails (some f) => ⟨fs.write m.tmp f, .raised⟩

/-- The next operation of the call. A failure to remove the copy, or the source, is caught. -/
def step (s : State δ) (o : Outcome δ) : State δ :=
  match s.phase with
  | .called =>
    match readFile s.fs m.src D.size o with
    | some size => ⟨s.fs, .sized size⟩
    | none => ⟨s.fs, .raised⟩
  | .sized size =>
    match readFile s.fs m.src D.md5 o with
    | some md5 => ⟨s.fs, .hashed size md5⟩
    | none => ⟨s.fs, .raised⟩
  | .hashed size md5 => copyStep m s.fs size md5 o
  | .copied size md5 =>
    match readFile s.fs m.tmp D.size o with
    | some n => ⟨s.fs, if n = size then .measured md5 else .mismatched⟩
    | none => ⟨s.fs, .raised⟩
  | .measured md5 =>
    match readFile s.fs m.tmp D.md5 o with
    | some h => ⟨s.fs, if h = md5 then .verified else .mismatched⟩
    | none => ⟨s.fs, .raised⟩
  | .mismatched => ⟨if o.raises then s.fs else s.fs.unlink m.tmp, .raised⟩
  | .verified =>
    if o.raises || (s.fs.get? m.tmp).isNone then ⟨s.fs, .raised⟩
    else ⟨s.fs.move m.tmp m.dst, .moved⟩
  | .moved => ⟨if o.raises then s.fs else s.fs.unlink m.src, .returned⟩
  | .returned => s
  | .raised => s

def start (fs : Files δ) : State δ := ⟨fs, .called⟩

/-- The contents of the source are in one of the two places; and the destination is as it was if
the call raised, which it does only before the copy has its final name. -/
def Safe (f : File δ) (old : Option (File δ)) (s : State δ) : Prop :=
  (s.fs.get? m.src = some f ∨ (s.fs.get? m.dst).map File.data = some f.data) ∧
    (s.phase = .raised → s.fs.get? m.dst = old)

/-! ### What each phase knows -/

/-- The copy has the contents of the source. -/
def Holds (fs : Files δ) (p : FPath) (f : File δ) : Prop :=
  ∃ g, fs.get? p = some g ∧ g.data = f.data

/-- What the local variables and the copy are in each phase. -/
def Known (f : File δ) (s : State δ) : Prop :=
  match s.phase with
  | .sized size => size = D.size f.data
  | .hashed size md5 | .copied size md5 => size = D.size f.data ∧ md5 = D.md5 f.data
  | .measured md5 => md5 = D.md5 f.data ∧
      ∃ g, s.fs.get? m.tmp = some g ∧ D.size g.data = D.size f.data
  | .verified => Holds s.fs m.tmp f
  | _ => True

/-- Before the move source and destination are as they were; from then on the destination has the
contents. -/
def Inv (f : File δ) (old : Option (File δ)) (s : State δ) : Prop :=
  if s.phase = .moved ∨ s.phase = .returned then Holds s.fs m.dst f
  else s.fs.get? m.src = some f ∧ s.fs.get? m.dst = old ∧ Known D m f s

variable {D m} {f : File δ} {old : Option (File δ)} {fs : Files δ} {s : State δ} {o : Outcome δ}

lemma readFile_eq_some {α : Type*} {p : FPath} {g : δ → α} {x : α}
    (h : readFile fs p g o = some x) : ∃ f, fs.get? p = some f ∧ x = g f.data := by
  unfold readFile at h
  split_ifs at h
  obtain ⟨f, hf, rfl⟩ := Option.map_eq_some_iff.mp h
  exact ⟨f, hf, rfl⟩

lemma inv_before {ph : Phase} (hph : ph ≠ .moved ∧ ph ≠ .returned) :
    Inv D m f old ⟨fs, ph⟩ ↔
      fs.get? m.src = some f ∧ fs.get? m.dst = old ∧ Known D m f ⟨fs, ph⟩ := by
  rw [Inv, if_neg (by simpa using hph)]

lemma inv_raised (hsrc : fs.get? m.src = some f) (hdst : fs.get? m.dst = old) :
    Inv D m f old ⟨fs, .raised⟩ :=
  (inv_before (by simp)).mpr ⟨hsrc, hdst, trivial⟩

lemma inv_copyStep {size : ℕ} {md5 : String} (hsrc : fs.get? m.src = some f)
    (hdst : fs.get? m.dst = old) (htmp : m.tmp ≠ m.src)
    (hlocals : size = D.size f.data ∧ md5 = D.md5 f.data) :
    Inv D m f old (copyStep m fs size md5 o) := by
  have hcopied : ∀ fs' : Files δ, (∀ p, p ≠ m.tmp → fs'.get? p = fs.get? p) →
      ∀ ph, ph = .copied size md5 ∨ ph = .raised → Inv D m f old ⟨fs', ph⟩ := by
    intro fs' hframe ph hph
    have hsrc' : fs'.get? m.src = some f := by rw [hframe _ htmp.symm, hsrc]
    have hdst' : fs'.get? m.dst = old := by rw [hframe _ (tmpPath_ne m.dst m.uid).symm, hdst]
    rcases hph with rfl | rfl
    · exact (inv_before (by simp)).mpr ⟨hsrc', hdst', hlocals⟩
    · exact inv_raised hsrc' hdst'
  unfold copyStep
  rcases o with _ | left | g
  · rw [if_pos (by simp [hsrc])]
    exact hcopied _ (fun p hp => Files.get?_copy2_of_ne hp) _ (.inl rfl)
  · cases left with
    | none => exact inv_raised hsrc hdst
    | some g => exact hcopied _ (fun p hp => Files.get?_write_of_ne hp) _ (.inr rfl)
  · exact hcopied _ (fun p hp => Files.get?_write_of_ne hp) _ (.inl rfl)

/-- **One operation keeps the invariant**, however it ends. -/
lemma inv_step (hD : D.Sound) (hne : m.dst ≠ m.src) (htmp : m.tmp ≠ m.src)
    (h : Inv D m f old s) (o : Outcome δ) : Inv D m f old (step D m s o) := by
  obtain ⟨fs, phase⟩ := s
  have htd : m.tmp ≠ m.dst := tmpPath_ne m.dst m.uid
  unfold step
  cases phase with
  | called =>
    obtain ⟨hsrc, hdst, -⟩ := (inv_before (by simp)).mp h
    dsimp only
    split
    · next size hread =>
      obtain ⟨g, hg, rfl⟩ := readFile_eq_some hread
      obtain rfl := Option.some.inj (hsrc.symm.trans hg)
      exact (inv_before (by simp)).mpr ⟨hsrc, hdst, rfl⟩
    · exact inv_raised hsrc hdst
  | sized size =>
    obtain ⟨hsrc, hdst, hsize⟩ := (inv_before (by simp)).mp h
    dsimp only
    split
    · next md5 hread =>
      obtain ⟨g, hg, rfl⟩ := readFile_eq_some hread
      obtain rfl := Option.some.inj (hsrc.symm.trans hg)
      exact (inv_before (by simp)).mpr ⟨hsrc, hdst, hsize, rfl⟩
    · exact inv_raised hsrc hdst
  | hashed size md5 =>
    obtain ⟨hsrc, hdst, hlocals⟩ := (inv_before (by simp)).mp h
    exact inv_copyStep hsrc hdst htmp hlocals
  | copied size md5 =>
    obtain ⟨hsrc, hdst, hsize, hmd5⟩ := (inv_before (by simp)).mp h
    dsimp only
    split
    · next n hread =>
      obtain ⟨g, hg, rfl⟩ := readFile_eq_some hread
      split_ifs with heq
      · exact (inv_before (by simp)).mpr ⟨hsrc, hdst, hmd5, g, hg, heq.trans hsize⟩
      · exact (inv_before (by simp)).mpr ⟨hsrc, hdst, trivial⟩
    · exact inv_raised hsrc hdst
  | measured md5 =>
    obtain ⟨hsrc, hdst, hmd5, g, hg, hsize⟩ := (inv_before (by simp)).mp h
    dsimp only
    split
    · next n hread =>
      obtain ⟨g', hg', rfl⟩ := readFile_eq_some hread
      obtain rfl := Option.some.inj (hg.symm.trans hg')
      split_ifs with heq
      · -- same length and same digest: `D.Sound` is used here alone
        have hdata : g.data = f.data := hD _ _ hsize (heq.trans hmd5)
        exact (inv_before (by simp)).mpr ⟨hsrc, hdst, g, hg, hdata⟩
      · exact (inv_before (by simp)).mpr ⟨hsrc, hdst, trivial⟩
    · exact inv_raised hsrc hdst
  | mismatched =>
    obtain ⟨hsrc, hdst, -⟩ := (inv_before (by simp)).mp h
    dsimp only
    split_ifs
    · exact inv_raised hsrc hdst
    · -- the temporary copy is removed; source and destination are other paths
      refine inv_raised ?_ ?_
      · rw [Files.get?_unlink_of_ne htmp.symm, hsrc]
      · rw [Files.get?_unlink_of_ne htd.symm, hdst]
  | verified =>
    obtain ⟨hsrc, hdst, g, hg, hdata⟩ := (inv_before (by simp)).mp h
    dsimp only
    split_ifs
    · exact inv_raised hsrc hdst
    · exact ⟨g, Files.get?_move_self hg, hdata⟩
  | moved =>
    -- from here on the destination holds the data, whether the source goes or not
    obtain ⟨g, hg, hdata⟩ := h
    dsimp only
    split_ifs
    · exact ⟨g, hg, hdata⟩
    · exact ⟨g, by rw [Files.get?_unlink_of_ne hne, hg], hdata⟩
  | returned => exact h
  | raised => exact h

lemma safe_of_inv (h : Inv D m f old s) : Safe m f old s := by
  unfold Inv at h
  split_ifs at h with hph
  · obtain ⟨g, hg, hdata⟩ := h
    refine ⟨.inr (by rw [hg, Option.map_some, hdata]), fun hr => ?_⟩
    simp [hr] at hph
  · exact ⟨.inl h.1, fun _ => h.2.1⟩

/-- **A move is safe against crashes**: after any number of operations, whatever became of each,
the contents are at the source or at the destination, and a call that raised has not touched the
destination. -/
theorem move_crashSafe (hD : D.Sound) (hne : m.dst ≠ m.src) (hsrc : fs.get? m.src = some f)
    (hfresh : fs.get? m.tmp = none) (l : List (Outcome δ)) :
    Always (step D m) (Safe m f (fs.get? m.dst)) (start fs) l := by
  have htmp : m.tmp ≠ m.src := by
    intro h
    rw [h, hsrc] at hfresh
    cases hfresh
  have h0 : Inv D m f (fs.get? m.dst) (start fs) :=
    (inv_before (by simp)).mpr ⟨hsrc, rfl, trivial⟩
  have hstep : ∀ s o, Inv D m f (fs.get? m.dst) s → Inv D m f (fs.get? m.dst) (step D m s o) :=
    fun _ o h => inv_step hD hne htmp h o
  exact (always_of_step hstep h0 l).mono fun _ => safe_of_inv

/-- A digest that has the value of MD5 on `abc` and is injective. -/
def digestAbc : Digest (List UInt8) where
  size := List.length
  md5 b :=
    if b = [97, 98, 99] then "900150983cd24fb0d6963f7d28e17f72"
    else String.ofList ('-' :: b.map Char.ofUInt8)

def moveAbc : Move := ⟨⟨"in", "a.csv"⟩, ⟨"archive", "a.csv"⟩, "5d41402a"⟩

def filesAbc : Files (List UInt8) := (⟨Dict.empty⟩ : Files _).write moveAbc.src ⟨[97, 98, 99], 0⟩

lemma digestAbc_sound : digestAbc.Sound := by
  intro a b _ h
  have hhead : ∀ c : List UInt8,
      "900150983cd24fb0d6963f7d28e17f72" ≠ String.ofList ('-' :: c.map Char.ofUInt8) := by
    intro c hc
    have hc := congrArg (fun s : String => s.toList.head?) hc
    simp only [String.toList_ofList, List.head?_cons] at hc
    exact absurd hc (by decide)
  have hinj : Function.Injective Char.ofUInt8 := by
    intro x y hxy
    have hval : x.toUInt32 = y.toUInt32 := congrArg Char.val hxy
    exact UInt8.toUInt32_inj.mp hval
  simp only [digestAbc] at h
  split_ifs at h with ha hb hb
  · rw [ha, hb]
  · exact absurd h (hhead b)
  · exact absurd h.symm (hhead a)
  · have hlist := String.ofList_inj.mp h
    exact List.map_injective_iff.mpr hinj (List.cons.inj hlist).2

/-- The copy loses a byte, and its removal fails. -/
theorem move_crashSafe_corrupted :
    Always (step digestAbc moveAbc) (Safe moveAbc ⟨[97, 98, 99], 0⟩ none) (start filesAbc)
      [.ok, .ok, .corrupts ⟨[97, 98], 0⟩, .ok, .fails none] :=
  @move_crashSafe _ digestAbc moveAbc _ filesAbc digestAbc_sound (by decide) rfl rfl _

/-! ### What one operation touches -/

/-- Nothing of the call follows. -/
def Phase.Over (ph : Phase) : Prop := ph = .returned ∨ ph = .raised

lemma step_of_over {ph : Phase} (h : ph.Over) : step D m ⟨fs, ph⟩ o = ⟨fs, ph⟩ := by
  rcases h with rfl | rfl <;> rfl

lemma get?_copyStep_of_ne {size : ℕ} {md5 : String} {p : FPath} (hp : p ≠ m.tmp) :
    (copyStep m fs size md5 o).fs.get? p = fs.get? p := by
  unfold copyStep
  rcases o with _ | left | g
  · split_ifs
    · exact Files.get?_copy2_of_ne hp
    · rfl
  · cases left with
    | none => rfl
    | some g => exact Files.get?_write_of_ne hp
  · exact Files.get?_write_of_ne hp

lemma get?_step_of_ne {p : FPath} (htmp : p ≠ m.tmp) (hdst : s.phase = .verified → p ≠ m.dst)
    (hsrc : s.phase = .moved → p ≠ m.src) : (step D m s o).fs.get? p = s.fs.get? p := by
  obtain ⟨fs, phase⟩ := s
  unfold step
  cases phase with
  | called | sized | copied | measured =>
    dsimp only
    split <;> rfl
  | hashed size md5 => exact get?_copyStep_of_ne htmp
  | mismatched =>
    dsimp only
    split_ifs
    · rfl
    · exact Files.get?_unlink_of_ne htmp
  | verified =>
    dsimp only
    split_ifs
    · rfl
    · exact Files.get?_move_of_ne htmp (hdst rfl)
  | moved =>
    dsimp only
    split_ifs
    · rfl
    · exact Files.get?_unlink_of_ne (hsrc rfl)
  | returned | raised => rfl

/-- The file is at the source, and behind the copying and the move where these put it. -/
def Exact (m : Move) (f : File δ) (s : State δ) : Prop :=
  match s.phase with
  | .called | .sized _ | .hashed _ _ | .mismatched => s.fs.get? m.src = some f
  | .copied _ _ | .measured _ | .verified =>
    s.fs.get? m.src = some f ∧ s.fs.get? m.tmp = some f
  | .moved => s.fs.get? m.src = some f ∧ s.fs.get? m.dst = some f
  | .returned => s.fs.get? m.dst = some f
  | .raised => True

lemma exact_step (hne : m.dst ≠ m.src) (htmp : m.tmp ≠ m.src) (ho : ∀ g, o ≠ .corrupts g)
    (h : Exact m f s) : Exact m f (step D m s o) := by
  obtain ⟨fs, phase⟩ := s
  have htd : m.tmp ≠ m.dst := tmpPath_ne m.dst m.uid
  unfold step
  cases phase with
  | called | sized =>
    have hsrc : fs.get? m.src = some f := h
    dsimp only
    split
    · exact hsrc
    · trivial
  | hashed size md5 =>
    have hsrc : fs.get? m.src = some f := h
    dsimp only
    unfold copyStep
    rcases o with _ | left | g
    · rw [if_pos (by simp [hsrc])]
      exact ⟨by rw [Files.get?_copy2_of_ne htmp.symm, hsrc], Files.get?_copy2_self hsrc⟩
    · cases left <;> trivial
    · -- a copy that reports no error is a true one
      exact absurd rfl (ho g)
  | copied | measured =>
    obtain ⟨hsrc, hcopy⟩ : fs.get? m.src = some f ∧ fs.get? m.tmp = some f := h
    dsimp only
    split
    · split_ifs
      · exact ⟨hsrc, hcopy⟩
      · exact hsrc
    · trivial
  | mismatched =>
    dsimp only
    trivial
  | verified =>
    obtain ⟨hsrc, hcopy⟩ : fs.get? m.src = some f ∧ fs.get? m.tmp = some f := h
    dsimp only
    split_ifs
    · trivial
    · exact ⟨by rw [Files.get?_move_of_ne htmp.symm hne.symm, hsrc], Files.get?_move_self hcopy⟩
  | moved =>
    obtain ⟨-, hdst⟩ : fs.get? m.src = some f ∧ fs.get? m.dst = some f := h
    dsimp only
    split_ifs
    · exact hdst
    · exact (Files.get?_unlink_of_ne hne).trans hdst
  | returned | raised => exact h

lemma Exact.frame {fs' : Files δ} {ph : Phase} (h : Exact m f ⟨fs, ph⟩)
    (hsrc : ¬ ph.Over → fs'.get? m.src = fs.get? m.src) (htmp : fs'.get? m.tmp = fs.get? m.tmp)
    (hdst : ph ≠ .raised → fs'.get? m.dst = fs.get? m.dst) : Exact m f ⟨fs', ph⟩ := by
  unfold Exact at h ⊢
  cases ph with
  | called | sized | hashed | mismatched => exact (hsrc (by simp [Phase.Over])).trans h
  | copied | measured | verified =>
    exact ⟨(hsrc (by simp [Phase.Over])).trans h.1, htmp.trans h.2⟩
  | moved => exact ⟨(hsrc (by simp [Phase.Over])).trans h.1, (hdst (by simp)).trans h.2⟩
  | returned => exact (hdst (by simp)).trans h
  | raised => trivial

lemma Exact.src {ph : Phase} (h : Exact m f ⟨fs, ph⟩) (hph : ¬ ph.Over) :
    fs.get? m.src = some f := by
  unfold Exact at h
  cases ph with
  | called | sized | hashed | mismatched => exact h
  | copied | measured | verified | moved => exact h.1
  | returned | raised => simp [Phase.Over] at hph

/-! ### The callers -/

lemma resolveDst_ne {fs : FS} {dir : String} {src : FPath} {uid : String}
    (hsrc : (fs.get? src).isSome = true) : resolveDst fs dir src uid ≠ src := by
  unfold resolveDst
  split_ifs with hex
  · intro h
    have hlen := congrArg (fun q : FPath => q.name.toList.length) h
    have hsplit := congrArg (fun name : String => name.toList.length) (splitext_append src.name)
    have hsep : "_".toList.length = 1 := rfl
    simp only [String.toList_append, List.length_append] at hlen hsplit
    omega
  · intro h
    rw [h] at hex
    exact hex hsrc

/-- Without a failure the operations do what `safeMove` does at once. -/
theorem run_ok {fs : FS} {f : File Data} {m : Move} (D : Digest Data)
    (hsrc : fs.get? m.src = some f) :
    ∃ fs', safeMove fs m.src m.dst m.uid = .ok fs' ∧
      (List.replicate 7 .ok).foldl (step D m) (start fs) = ⟨fs', .returned⟩ := by
  have hcopy : (fs.copy2 m.src m.tmp).get? m.tmp = some f := Files.get?_copy2_self hsrc
  refine ⟨((fs.copy2 m.src m.tmp).move m.tmp m.dst).unlink m.src, ?_, ?_⟩
  · have hcopy' : (fs.copy2 m.src (tmpPath m.dst m.uid)).get? (tmpPath m.dst m.uid) = some f :=
      hcopy
    simp [safeMove, hsrc, hcopy', Move.tmp]
  · simp [List.replicate, start, step, copyStep, readFile, Outcome.raises, hsrc, hcopy]

end Tdcs.SafeMove
