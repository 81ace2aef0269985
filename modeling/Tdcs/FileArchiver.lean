import Mathlib.Tactic
import Tdcs.Lib.Files
import Tdcs.ConfigModels

/-!
`FileArchiver`: moving processed files into the archive and compressing them there.

The calls of the file system succeed. A suffix drawn from `uuid4` is an argument.
-/

namespace Tdcs.FileArchiver

open Tdcs.Lib

/-- What a file contains: bytes, or a zip archive with its one member. -/
inductive Data
  | bytes (b : List UInt8)
  | zip (arcname : String) (member : Data)
  deriving DecidableEq

abbrev FS := Files Data

/-- `name.endswith(".zip")`. -/
def endsWithZip (name : String) : Bool := ['.', 'z', 'i', 'p'].isSuffixOf name.toList

/-- `os.path.splitext` of a name: the extension starts at the last dot, unless nothing but
dots stands before it. -/
def splitext (name : String) : String × String :=
  let cs := name.toList
  let stem := cs.take (cs.length - 1 - (cs.reverse.takeWhile (· ≠ '.')).length)
  if '.' ∈ cs ∧ ¬ stem.all (· = '.') then
    (String.ofList stem, String.ofList (cs.drop stem.length))
  else (name, "")

/-- `_resolve_dst`. -/
def resolveDst (fs : FS) (archiveDir : String) (src : FPath) (uid : String) : FPath :=
  if (fs.get? ⟨archiveDir, src.name⟩).isSome then
    let (name, ext) := splitext src.name
    ⟨archiveDir, name ++ "_" ++ uid ++ ext⟩
  else ⟨archiveDir, src.name⟩

def tmpPath (p : FPath) (uid : String) : FPath := ⟨p.dir, p.name ++ ".tmp_" ++ uid⟩

def zipPath (p : FPath) : FPath := ⟨p.dir, p.name ++ ".zip"⟩

/-- `_safe_move`. Sizes and digests of source and copy are compared by comparing the
contents. -/
def safeMove (fs : FS) (src dst : FPath) (uid : String) : Except String FS :=
  match fs.get? src with
  | none => .error "FileNotFoundError"
  | some f =>
    let fs := fs.copy2 src (tmpPath dst uid)
    if (fs.get? (tmpPath dst uid)).map File.data = some f.data then
      .ok ((fs.move (tmpPath dst uid) dst).unlink src)
    else .error "Archive integrity check failed"

/-- `archive_after_success`: the path it returns, if one, and the files after it. -/
def archiveAfterSuccess (cfg : TaskConfig) (fs : FS) (src : FPath) (uidDst uidTmp : String) :
    Except String (Option FPath × FS) :=
  match cfg.archiveMode with
  | .keep => .ok (some src, fs)
  | .delete => .ok (none, fs.unlink src)
  | .move =>
    if cfg.archiveDir = "" then .ok (some src, fs)
    else
      let dst := resolveDst fs cfg.archiveDir src uidDst
      (safeMove fs src dst uidTmp).map fun fs => (some dst, fs)

/-- `_compress`. -/
def compress (fs : FS) (p : FPath) (now : ℤ) (uid : String) : FS :=
  match fs.get? p with
  | none => fs
  | some f =>
    let tmp := tmpPath (zipPath p) uid
    (((fs.write tmp ⟨.zip p.name f.data, now⟩).move tmp (zipPath p)).unlink p)

/-- Is the name one `run_compress_job` compresses at `now`? -/
def compressible (cfg : TaskConfig) (now : ℤ) (fs : FS) (name : String) : Bool :=
  match fs.get? ⟨cfg.archiveDir, name⟩ with
  | none => false
  | some f => !endsWithZip name && f.mtime < now - cfg.compressAfterDays * 86400

/-- One turn of the loop of `run_compress_job`. -/
def compressTurn (cfg : TaskConfig) (now : ℤ) (uid : String → String) (fs : FS)
    (name : String) : FS :=
  if compressible cfg now fs name then compress fs ⟨cfg.archiveDir, name⟩ now (uid name) else fs

/-- `run_compress_job`, with the names `os.listdir` gives. -/
def runCompressJob (cfg : TaskConfig) (now : ℤ) (uid : String → String) (names : List String)
    (fs : FS) : FS :=
  if cfg.compressAfterDays ≤ 0 ∨ cfg.archiveDir = "" then fs
  else names.foldl (compressTurn cfg now uid) fs

/-- Is the name one `run_cleanup_job` removes at `now`? -/
def expired (cfg : TaskConfig) (now : ℤ) (fs : FS) (name : String) : Bool :=
  match fs.get? ⟨cfg.archiveDir, name⟩ with
  | none => false
  | some f => f.mtime < now - cfg.cleanupAfterDays * 86400

/-- One turn of the loop of `run_cleanup_job`. -/
def cleanupTurn (cfg : TaskConfig) (now : ℤ) (fs : FS) (name : String) : FS :=
  if expired cfg now fs name then fs.unlink ⟨cfg.archiveDir, name⟩ else fs

/-- `run_cleanup_job`, with the names `os.listdir` gives. -/
def runCleanupJob (cfg : TaskConfig) (now : ℤ) (names : List String) (fs : FS) : FS :=
  if cfg.cleanupAfterDays ≤ 0 ∨ cfg.archiveDir = "" then fs
  else names.foldl (cleanupTurn cfg now) fs

/-! ### Names -/

lemma zipPath_ne (p : FPath) : zipPath p ≠ p := by
  intro h
  have hlen := congrArg (fun q : FPath => q.name.toList.length) h
  simp only [zipPath, String.toList_append, List.length_append] at hlen
  have hzip : ".zip".toList.length = 4 := rfl
  omega

lemma splitext_append (name : String) : (splitext name).1 ++ (splitext name).2 = name := by
  unfold splitext
  dsimp only
  split_ifs
  · rw [← String.toList_inj, String.toList_append, String.toList_ofList, String.toList_ofList]
    conv_rhs => rw [← List.take_append_drop (name.toList.length - 1 -
      (name.toList.reverse.takeWhile (· ≠ '.')).length) name.toList]
    congr 2
    rw [List.length_take]
    omega
  · exact String.append_empty

lemma endsWithZip_append (name : String) : endsWithZip (name ++ ".zip") = true := by
  rw [endsWithZip, List.isSuffixOf_iff_suffix, String.toList_append]
  exact List.suffix_append _ _

lemma endsWithZip_resolveDst {fs : FS} {dir : String} {src : FPath} {uid : String}
    (hex : (fs.get? ⟨dir, src.name⟩).isSome = true) (hext : (splitext src.name).2 = ".zip") :
    endsWithZip (resolveDst fs dir src uid).name = true := by
  rw [resolveDst, if_pos hex]
  dsimp only
  rw [hext]
  exact endsWithZip_append _

lemma resolveDst_dir (fs : FS) (dir : String) (src : FPath) (uid : String) :
    (resolveDst fs dir src uid).dir = dir := by
  unfold resolveDst
  split_ifs <;> rfl

/-! ### What moving and compressing do to the files -/

section

variable {fs : FS} {src dst p q : FPath} {f : File Data} {uid : String} {now : ℤ}

/-- A move of an existing file succeeds; the file is then at its destination, and every
path other than the three it uses is as before. -/
lemma safeMove_of_some (uid : String) (hsrc : fs.get? src = some f) (hne : dst ≠ src) :
    ∃ fs', safeMove fs src dst uid = .ok fs' ∧ fs'.get? dst = some f ∧
      ∀ q, q ≠ src → q ≠ dst → q ≠ tmpPath dst uid → fs'.get? q = fs.get? q := by
  have hcopy : (fs.copy2 src (tmpPath dst uid)).get? (tmpPath dst uid) = some f :=
    Files.get?_copy2_self hsrc
  refine ⟨((fs.copy2 src (tmpPath dst uid)).move (tmpPath dst uid) dst).unlink src,
    by simp [safeMove, hsrc, hcopy], ?_, fun q hq1 hq2 hq3 => ?_⟩
  · rw [Files.get?_unlink_of_ne hne]
    exact Files.get?_move_self hcopy
  · rw [Files.get?_unlink_of_ne hq1, Files.get?_move_of_ne hq3 hq2, Files.get?_copy2_of_ne hq3]

lemma tmpPath_ne (p : FPath) (uid : String) : tmpPath p uid ≠ p := by
  intro h
  have hlen := congrArg (fun q : FPath => q.name.toList.length) h
  simp only [tmpPath, String.toList_append, List.length_append] at hlen
  have htmp : ".tmp_".toList.length = 5 := rfl
  omega

lemma get?_of_safeMove {fs' : FS} {g : File Data} (h : safeMove fs src dst uid = .ok fs')
    (hq : fs'.get? q = some g) : fs.get? (if q = dst then src else q) = some g := by
  unfold safeMove at h
  rcases hsrc : fs.get? src with _ | f
  · simp [hsrc] at h
  simp only [hsrc] at h
  split_ifs at h
  obtain rfl := Except.ok.inj h
  have hne : q ≠ src := by
    rintro rfl
    rw [Files.get?_unlink_self] at hq
    cases hq
  rw [Files.get?_unlink_of_ne hne] at hq
  split_ifs with hd
  · subst hd
    rw [Files.get?_move_self (Files.get?_copy2_self hsrc)] at hq
    rw [hsrc, hq]
  · have htmp : q ≠ tmpPath dst uid := by
      rintro rfl
      rw [Files.get?_move_src hd] at hq
      cases hq
    rwa [Files.get?_move_of_ne htmp hd, Files.get?_copy2_of_ne htmp] at hq

lemma get?_of_compress {g : File Data} (h : q ≠ zipPath p)
    (hq : (compress fs p now uid).get? q = some g) : fs.get? q = some g := by
  unfold compress at hq
  rcases hp : fs.get? p with _ | f
  · simpa [hp] using hq
  simp only [hp] at hq
  have hne : q ≠ p := by
    rintro rfl
    rw [Files.get?_unlink_self] at hq
    cases hq
  rw [Files.get?_unlink_of_ne hne] at hq
  have htmp : q ≠ tmpPath (zipPath p) uid := by
    rintro rfl
    rw [Files.get?_move_src h] at hq
    cases hq
  rwa [Files.get?_move_of_ne htmp h, Files.get?_write_of_ne htmp] at hq

lemma get?_compress_zipPath (hp : fs.get? p = some f) :
    (compress fs p now uid).get? (zipPath p) = some ⟨.zip p.name f.data, now⟩ := by
  simp only [compress, hp]
  rw [Files.get?_unlink_of_ne (zipPath_ne p)]
  exact Files.get?_move_self Files.get?_write_self

lemma get?_compress_of_ne (h1 : q ≠ p) (h2 : q ≠ zipPath p) (h3 : q ≠ tmpPath (zipPath p) uid) :
    (compress fs p now uid).get? q = fs.get? q := by
  unfold compress
  rcases fs.get? p with _ | f
  · rfl
  · dsimp only
    rw [Files.get?_unlink_of_ne h1, Files.get?_move_of_ne h3 h2, Files.get?_write_of_ne h3]

end

end Tdcs.FileArchiver
