import Tdcs.Lib.Run
import Tdcs.FileArchiver

/-!
Histories of an archive: files arrive, are archived, and are compressed later, in any
order and under recurring names.

What was archived stays in the archive as long as nothing is compressed next to an older
archive of the same name; a name that comes back after a compression can make it so.
-/

namespace Tdcs.ArchiveHistory

open Tdcs.Lib Tdcs.Lib.Run Tdcs.FileArchiver

/-- The files, and the contents archived so far. -/
structure State where
  fs : FS
  archived : List Data

inductive Event
  /-- A file appears or changes outside the archive. -/
  | arrive (p : FPath) (f : File Data)
  | archive (src : FPath) (uidDst uidTmp : String)
  | compress (now : ℤ) (uid : String → String) (names : List String)

def step (cfg : TaskConfig) (s : State) : Event → State
  | .arrive p f => if p.dir = cfg.archiveDir then s else { s with fs := s.fs.write p f }
  | .archive src uidDst uidTmp =>
    match archiveAfterSuccess cfg s.fs src uidDst uidTmp, s.fs.get? src with
    | .ok (_, fs), some f => ⟨fs, s.archived ++ [f.data]⟩
    | _, _ => s
  | .compress now uid names => { s with fs := runCompressJob cfg now uid names s.fs }

/-- The content is in the archive, as a file or as the member of a `.zip`. -/
def Present (cfg : TaskConfig) (fs : FS) (d : Data) : Prop :=
  ∃ name f, fs.get? ⟨cfg.archiveDir, name⟩ = some f ∧
    (f.data = d ∨ endsWithZip name = true ∧ ∃ arcname, f.data = .zip arcname d)

/-- Everything archived so far is in the archive. -/
def Preserved (cfg : TaskConfig) (s : State) : Prop :=
  ∀ d ∈ s.archived, Present cfg s.fs d

/-- The names the suffixes of the step lead to are not in use. -/
def Fresh (cfg : TaskConfig) (s : State) : Event → Prop
  | .arrive _ _ => True
  | .archive src uidDst uidTmp =>
    let dst := resolveDst s.fs cfg.archiveDir src uidDst
    s.fs.get? dst = none ∧ s.fs.get? (tmpPath dst uidTmp) = none
  | .compress now uid names => Steps (compressTurn cfg now uid)
      (fun fs name => fs.get? (tmpPath (zipPath ⟨cfg.archiveDir, name⟩) (uid name)) = none)
      s.fs names

/-- No file is compressed next to a file with its name and `.zip`; and no `.zip` is moved
inside the archive that `splitext` sees no extension on. -/
def NoClash (cfg : TaskConfig) (s : State) : Event → Prop
  | .arrive _ _ => True
  | .archive src _ _ => src.dir = cfg.archiveDir → endsWithZip src.name = true →
      (splitext src.name).2 = ".zip"
  | .compress now uid names => 0 < cfg.compressAfterDays → Steps (compressTurn cfg now uid)
      (fun fs name => compressible cfg now fs name = true →
        fs.get? (zipPath ⟨cfg.archiveDir, name⟩) = none) s.fs names

variable {cfg : TaskConfig} {s : State} {fs : FS} {d : Data}

lemma present_write {p : FPath} {f : File Data} (h : Present cfg fs d)
    (hp : p.dir ≠ cfg.archiveDir) : Present cfg (fs.write p f) d := by
  obtain ⟨name, g, hg, hd⟩ := h
  refine ⟨name, g, ?_, hd⟩
  rw [Files.get?_write_of_ne, hg]
  rintro rfl
  exact hp rfl

lemma present_compressTurn {now : ℤ} {uid : String → String} {name : String}
    (hclash : compressible cfg now fs name = true →
      fs.get? (zipPath ⟨cfg.archiveDir, name⟩) = none)
    (hfresh : fs.get? (tmpPath (zipPath ⟨cfg.archiveDir, name⟩) (uid name)) = none)
    (h : Present cfg fs d) : Present cfg (compressTurn cfg now uid fs name) d := by
  unfold compressTurn
  split_ifs with hc
  swap
  · exact h
  have hzip := hclash hc
  obtain ⟨f, hf, hname⟩ : ∃ f, fs.get? ⟨cfg.archiveDir, name⟩ = some f ∧
      endsWithZip name = false := by
    unfold compressible at hc
    rcases hf : fs.get? ⟨cfg.archiveDir, name⟩ with _ | f
    · simp [hf] at hc
    · simp only [hf, Bool.and_eq_true, Bool.not_eq_true'] at hc
      exact ⟨f, rfl, hc.1⟩
  obtain ⟨n, g, hg, hd⟩ := h
  by_cases hn : n = name
  · -- the file that is compressed
    subst hn
    rw [hf] at hg
    obtain rfl := Option.some.inj hg
    have hdata : f.data = d := by
      rcases hd with hd | ⟨hz, -⟩
      · exact hd
      · rw [hname] at hz
        cases hz
    refine ⟨n ++ ".zip", _, get?_compress_zipPath hf, Or.inr ⟨endsWithZip_append n, n, ?_⟩⟩
    rw [hdata]
  · -- any other file is none of the three paths the compression uses
    refine ⟨n, g, ?_, hd⟩
    rw [get?_compress_of_ne, hg]
    · intro h
      exact hn (congrArg FPath.name h)
    · intro h
      rw [h, hzip] at hg
      cases hg
    · intro h
      rw [h, hfresh] at hg
      cases hg

lemma present_archive {src : FPath} {uidDst uidTmp : String} {f : File Data}
    (hmode : cfg.archiveMode = .move) (hdir : cfg.archiveDir ≠ "")
    (hsrc : fs.get? src = some f)
    (hfresh : Fresh cfg ⟨fs, []⟩ (.archive src uidDst uidTmp))
    (hclash : NoClash cfg ⟨fs, []⟩ (.archive src uidDst uidTmp)) :
    ∃ r fs', archiveAfterSuccess cfg fs src uidDst uidTmp = .ok (r, fs') ∧
      Present cfg fs' f.data ∧ ∀ d, Present cfg fs d → Present cfg fs' d := by
  obtain ⟨hdst, htmp⟩ := hfresh
  dsimp only at hdst htmp
  have hne : resolveDst fs cfg.archiveDir src uidDst ≠ src := by
    intro h
    rw [h, hsrc] at hdst
    cases hdst
  obtain ⟨fs', hok, hnew, hframe⟩ := safeMove_of_some uidTmp hsrc hne
  have hpath : resolveDst fs cfg.archiveDir src uidDst =
      ⟨cfg.archiveDir, (resolveDst fs cfg.archiveDir src uidDst).name⟩ := by
    rw [FPath.mk.injEq]
    exact ⟨resolveDst_dir _ _ _ _, rfl⟩
  refine ⟨_, fs', by simp [archiveAfterSuccess, hmode, hdir, hok]; rfl,
    ⟨_, f, hpath ▸ hnew, Or.inl rfl⟩, fun d hd => ?_⟩
  obtain ⟨n, g, hg, hd⟩ := hd
  by_cases hn : (⟨cfg.archiveDir, n⟩ : FPath) = src
  · -- the source itself lies in the archive
    rw [hn, hsrc] at hg
    obtain rfl := Option.some.inj hg
    refine ⟨_, f, hpath ▸ hnew, ?_⟩
    rcases hd with hd | ⟨hz, hm⟩
    · exact Or.inl hd
    · subst hn
      exact Or.inr ⟨endsWithZip_resolveDst (by simp [hsrc]) (hclash rfl hz), hm⟩
  · refine ⟨n, g, ?_, hd⟩
    rw [hframe _ hn, hg]
    · intro h
      rw [h, hdst] at hg
      cases hg
    · intro h
      rw [h, htmp] at hg
      cases hg

/-- **The step lemma.** A step whose suffixes are fresh and which meets no clash keeps
everything archived so far. -/
lemma preserved_step (hmode : cfg.archiveMode = .move) (hdir : cfg.archiveDir ≠ "")
    (h : Preserved cfg s) (e : Event) (hfresh : Fresh cfg s e) (hclash : NoClash cfg s e) :
    Preserved cfg (step cfg s e) := by
  cases e with
  | arrive p f =>
    unfold step
    dsimp only
    split_ifs with hp
    · exact h
    · exact fun d hd => present_write (h d hd) hp
  | archive src uidDst uidTmp =>
    rcases hsrc : s.fs.get? src with _ | f
    · -- the source is gone: nothing is archived
      have hs : step cfg s (.archive src uidDst uidTmp) = s := by
        unfold step
        dsimp only
        split
        · rename_i h1
          rw [hsrc] at h1
          cases h1
        · rfl
      rwa [hs]
    · obtain ⟨r, fs', hok, hnew, hkeep⟩ := present_archive hmode hdir hsrc hfresh hclash
      have hs : step cfg s (.archive src uidDst uidTmp) = ⟨fs', s.archived ++ [f.data]⟩ := by
        simp [step, hok, hsrc]
      rw [hs]
      intro d hd
      rcases List.mem_append.mp hd with hd | hd
      · exact hkeep d (h d hd)
      · rw [List.mem_singleton.mp hd]
        exact hnew
  | compress now uid names =>
    intro d hd
    show Present cfg (runCompressJob cfg now uid names s.fs) d
    unfold runCompressJob
    split_ifs with hdays
    · exact h d hd
    · have hpos : 0 < cfg.compressAfterDays := by omega
      -- the job's turns one by one: each finds the archive its predecessors left
      have hturns := Steps.and (hclash hpos) hfresh
      have hall := always_of_inv (I := fun fs => Present cfg fs d)
        (fun fs name hp hc => present_compressTurn hc.1 hc.2 hp) (h d hd) hturns
      exact (always_iff_states.mp hall) names (List.prefix_refl _)

/-- **Archived data is not lost.** In move mode every content ever archived is in the
archive, as a file or inside a `.zip`, along every history that never compresses a file
next to an older archive of its name. -/
theorem preserved_of_noClash (cfg : TaskConfig) (fs : FS) (l : List Event)
    (hmode : cfg.archiveMode = .move) (hdir : cfg.archiveDir ≠ "")
    (hfresh : Steps (step cfg) (Fresh cfg) ⟨fs, []⟩ l)
    (hclash : Steps (step cfg) (NoClash cfg) ⟨fs, []⟩ l) :
    Always (step cfg) (Preserved cfg) ⟨fs, []⟩ l := by
  have hstep : ∀ s e, Preserved cfg s → Fresh cfg s e ∧ NoClash cfg s e →
      Preserved cfg (step cfg s e) := fun _ e h hc => preserved_step hmode hdir h e hc.1 hc.2
  exact always_of_inv hstep (fun d hd => by cases hd) (hfresh.and hclash)

/-- A task that moves to `/arc` and compresses after a day. -/
def movesToArc : TaskConfig where
  taskId := "t"
  name := "t"
  monitorFolder := "/in"
  fileExtensions := [".csv"]
  transformerModule := ""
  transformerFunction := ""
  baseTable := "b"
  partitionField := ""
  archiveDir := "/arc"
  compressAfterDays := 1

/-- `x.csv` arrives, is archived, and is compressed after a day, when the archive lists
`names`. -/
def archiveAndCompress (b : UInt8) (day : ℤ) (names : List String) : List Event :=
  [.arrive ⟨"/in", "x.csv"⟩ ⟨.bytes [b], day * 86400⟩, .archive ⟨"/in", "x.csv"⟩ "0a1b2c3d" "4e5f",
    .compress ((day + 2) * 86400) (fun _ => "6071") names]

theorem preserved_of_noClash_once :
    let l := archiveAndCompress 1 0 ["x.csv"]
    (l.foldl (step movesToArc) ⟨⟨Dict.empty⟩, []⟩).archived = [.bytes [1]] ∧
      Always (step movesToArc) (Preserved movesToArc) ⟨⟨Dict.empty⟩, []⟩ l := by
  refine ⟨by decide, preserved_of_noClash movesToArc ⟨Dict.empty⟩ _ rfl (by decide) ?_ ?_⟩
  · exact ⟨trivial, ⟨by decide, by decide⟩, ⟨by decide, trivial⟩, trivial⟩
  · exact ⟨trivial, fun h => absurd h (by decide), fun _ => ⟨fun _ => by decide, trivial⟩, trivial⟩

/-- The same name comes back after its compression, and is compressed again. -/
def nameComesBack : List Event :=
  archiveAndCompress 1 0 ["x.csv"] ++ archiveAndCompress 2 5 ["x.csv.zip", "x.csv"]

theorem not_preserved_nameComesBack :
    ¬ ∀ (cfg : TaskConfig) (fs : FS) (l : List Event), cfg.archiveMode = .move →
      cfg.archiveDir ≠ "" → Steps (step cfg) (Fresh cfg) ⟨fs, []⟩ l →
      Always (step cfg) (Preserved cfg) ⟨fs, []⟩ l := by
  intro h
  have hall := h movesToArc ⟨Dict.empty⟩ nameComesBack rfl (by decide)
    ⟨trivial, ⟨by decide, by decide⟩, ⟨by decide, trivial⟩,
      trivial, ⟨by decide, by decide⟩, ⟨by decide, by decide, trivial⟩, trivial⟩
  obtain ⟨name, f, hf, hd⟩ :=
    (always_iff_states.mp hall) nameComesBack (List.prefix_refl _) (.bytes [1]) (by decide)
  have hentries : (nameComesBack.foldl (step movesToArc) ⟨⟨Dict.empty⟩, []⟩).fs.dict.entries =
      [(⟨"/arc", "x.csv.zip"⟩, ⟨.zip "x.csv" (.bytes [2]), 7 * 86400⟩)] := by decide
  have hmem := Dict.get?_eq_some_iff.mp hf
  rw [hentries, List.mem_singleton, Prod.mk.injEq] at hmem
  rw [hmem.2] at hd
  rcases hd with hd | ⟨-, n, hd⟩
  · cases hd
  · cases hd

end Tdcs.ArchiveHistory
