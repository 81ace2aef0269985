import Tdcs.FileArchiver
import Tdcs.FileSelection
import Tdcs.Lib.Run

/-!
Where a source file goes: `archive_after_success` and `move_to_dead_letter`, for the files of all
tasks.

A file that leaves its folder is at its destination, unless the task says that it is deleted, or the
destination was taken: the archive looks whether a name is free before it draws a suffix, and the
dead letters draw one at once, but neither looks again.
-/

namespace Tdcs.DeadLetter

open Tdcs.Lib Tdcs.Lib.Run Tdcs.FileArchiver

/-- The name of a dead letter, and of an archived file whose name is taken. -/
def suffixed (name uid : String) : String := (splitext name).1 ++ "_" ++ uid ++ (splitext name).2

/-- `move_to_dead_letter`. A file that is not there any more is logged. -/
def moveToDeadLetter (fs : FS) (deadLetterDir : String) (src : FPath) (uid : String) : FS :=
  if deadLetterDir = "" then fs else fs.move src ⟨deadLetterDir, suffixed src.name uid⟩

structure State where
  fs : FS
  /-- What producers have put into the folders. -/
  arrived : List (File Data)
  /-- What the mode `delete` has removed. -/
  deleted : List (File Data)

inductive Event
  /-- A producer makes a file, in a place that is free. -/
  | arrive (p : FPath) (f : File Data)
  | archive (cfg : TaskConfig) (src : FPath) (uidDst uidTmp : String)
  | deadLetter (dir : String) (src : FPath) (uid : String)

/-- A call of `archive_after_success` that raises changes nothing. -/
def State.archive (s : State) (cfg : TaskConfig) (src : FPath) (uidDst uidTmp : String) : State :=
  match archiveAfterSuccess cfg s.fs src uidDst uidTmp with
  | .error _ => s
  | .ok (_, fs) => { s with
      fs
      deleted := if cfg.archiveMode = .delete then s.deleted ++ (s.fs.get? src).toList
        else s.deleted }

def step (s : State) : Event → State
  | .arrive p f =>
    if (s.fs.get? p).isSome then s
    else { s with fs := s.fs.write p f, arrived := s.arrived ++ [f] }
  | .archive cfg src uidDst uidTmp => s.archive cfg src uidDst uidTmp
  | .deadLetter dir src uid => { s with fs := moveToDeadLetter s.fs dir src uid }

/-- Before anything arrives. -/
def init : State := ⟨⟨Dict.empty⟩, [], []⟩

/-- Every file that has arrived is somewhere, or was to be deleted. -/
def Conserved (s : State) : Prop := (s.fs.contents ++ s.deleted).Perm s.arrived

/-- The call moves a file to a place that is taken, or by way of one that is. -/
def Clobbers (s : State) : Event → Prop
  | .arrive _ _ => False
  | .archive cfg src uidDst uidTmp =>
    cfg.archiveMode = .move ∧ cfg.archiveDir ≠ "" ∧ (s.fs.get? src).isSome = true ∧
      ((s.fs.get? (resolveDst s.fs cfg.archiveDir src uidDst)).isSome = true ∨
        (s.fs.get? (tmpPath (resolveDst s.fs cfg.archiveDir src uidDst) uidTmp)).isSome = true)
  | .deadLetter dir src uid =>
    dir ≠ "" ∧ (s.fs.get? src).isSome = true ∧
      (s.fs.get? ⟨dir, suffixed src.name uid⟩).isSome = true

/-! ### Names -/

lemma length_suffixed (name uid : String) :
    (suffixed name uid).toList.length = name.toList.length + 1 + uid.toList.length := by
  have happend := congrArg (fun s : String => s.toList.length) (splitext_append name)
  simp only [String.toList_append, List.length_append] at happend
  have hbar : "_".toList.length = 1 := rfl
  simp only [suffixed, String.toList_append, List.length_append]
  omega

lemma resolveDst_name (fs : FS) (dir : String) (src : FPath) (uid : String) :
    (resolveDst fs dir src uid).name = src.name ∨
      (resolveDst fs dir src uid).name = suffixed src.name uid := by
  unfold resolveDst
  split_ifs
  · exact .inr rfl
  · exact .inl rfl

lemma ne_of_length {p q : FPath} (h : p.name.toList.length < q.name.toList.length) : q ≠ p := by
  rintro rfl
  exact lt_irrefl _ h

lemma deadLetter_ne (dir : String) (src : FPath) (uid : String) :
    (⟨dir, suffixed src.name uid⟩ : FPath) ≠ src := by
  apply ne_of_length
  dsimp only
  rw [length_suffixed]
  omega

lemma tmpPath_resolveDst_ne (fs : FS) (dir : String) (src : FPath) (uidDst uidTmp : String) :
    tmpPath (resolveDst fs dir src uidDst) uidTmp ≠ src := by
  apply ne_of_length
  have hlen : src.name.toList.length ≤ (resolveDst fs dir src uidDst).name.toList.length := by
    rcases resolveDst_name fs dir src uidDst with h | h
    · rw [h]
    · rw [h, length_suffixed]
      omega
  have htmp : ".tmp_".toList.length = 5 := rfl
  simp only [tmpPath, String.toList_append, List.length_append]
  omega

lemma resolveDst_ne {fs : FS} {src : FPath} (dir uid : String)
    (hsrc : (fs.get? src).isSome = true) : resolveDst fs dir src uid ≠ src := by
  unfold resolveDst
  split_ifs with hex
  · exact deadLetter_ne dir src uid
  · intro h
    rw [h] at hex
    exact hex hsrc

/-! ### Moves -/

variable {fs : FS} {src dst : FPath} {f : File Data} {uid : String}

lemma safeMove_eq (hsrc : fs.get? src = some f) (dst : FPath) (uid : String) :
    safeMove fs src dst uid =
      .ok (((fs.write (tmpPath dst uid) f).move (tmpPath dst uid) dst).unlink src) := by
  have hcopy : fs.copy2 src (tmpPath dst uid) = fs.write (tmpPath dst uid) f := by
    simp [Files.copy2, hsrc]
  simp [safeMove, hsrc, hcopy]

lemma get?_src_of_moved (hsrc : fs.get? src = some f) (hdst : dst ≠ src)
    (htmp : tmpPath dst uid ≠ src) :
    ((fs.write (tmpPath dst uid) f).move (tmpPath dst uid) dst).get? src = some f := by
  rw [Files.get?_move_of_ne htmp.symm hdst.symm, Files.get?_write_of_ne htmp.symm, hsrc]

lemma contents_safeMove (hsrc : fs.get? src = some f) (hdst : fs.get? dst = none)
    (htmp : fs.get? (tmpPath dst uid) = none) :
    (((fs.write (tmpPath dst uid) f).move (tmpPath dst uid) dst).unlink src).contents.Perm
      fs.contents := by
  have hne : dst ≠ src := by
    rintro rfl
    rw [hdst] at hsrc
    cases hsrc
  have hne' : tmpPath dst uid ≠ src := by
    intro h
    rw [h, hsrc] at htmp
    cases htmp
  have hfree : (fs.write (tmpPath dst uid) f).get? dst = none := by
    rw [Files.get?_write_of_ne (tmpPath_ne dst uid).symm, hdst]
  have hmove := Files.contents_move Files.get?_write_self hfree
  rw [Files.contents_write htmp] at hmove
  have hunlink := Files.contents_unlink (get?_src_of_moved hsrc hne hne')
  have hall := (hunlink.trans hmove).trans (List.perm_append_singleton f fs.contents)
  exact hall.cons_inv

lemma length_contents_safeMove (hsrc : fs.get? src = some f) (hne : dst ≠ src)
    (hne' : tmpPath dst uid ≠ src)
    (h : (fs.get? dst).isSome = true ∨ (fs.get? (tmpPath dst uid)).isSome = true) :
    (((fs.write (tmpPath dst uid) f).move (tmpPath dst uid) dst).unlink src).contents.length <
      fs.contents.length := by
  have hsrc' := get?_src_of_moved hsrc hne hne'
  have hunlink := (Files.contents_unlink hsrc').length_eq
  rw [List.length_cons] at hunlink
  have hget : (fs.write (tmpPath dst uid) f).get? dst = fs.get? dst :=
    Files.get?_write_of_ne (tmpPath_ne dst uid).symm
  -- the copy adds a file, unless it replaces one
  have hwrite : (fs.write (tmpPath dst uid) f).contents.length =
      fs.contents.length + if (fs.get? (tmpPath dst uid)).isSome then 0 else 1 := by
    rcases htmp : fs.get? (tmpPath dst uid) with _ | g
    · rw [Files.contents_write htmp]
      simp
    · rw [Files.length_contents_write htmp]
      simp
  -- and the rename takes one away, if it replaces one
  have hmove : ((fs.write (tmpPath dst uid) f).move (tmpPath dst uid) dst).contents.length +
      (if (fs.get? dst).isSome then 1 else 0) =
        (fs.write (tmpPath dst uid) f).contents.length := by
    rcases hdst : fs.get? dst with _ | g
    · rw [hdst] at hget
      simpa using (Files.contents_move Files.get?_write_self hget).length_eq
    · rw [hdst] at hget
      simpa using Files.length_contents_move Files.get?_write_self hget (tmpPath_ne dst uid).symm
  rcases h with h | h
  · rw [if_pos h] at hmove
    split_ifs at hwrite <;> omega
  · rw [if_pos h] at hwrite
    split_ifs at hmove <;> omega

/-! ### Steps -/

variable {s : State} {e : Event}

lemma not_conserved_of_length {s' : State} (hs : Conserved s) (harrived : s'.arrived = s.arrived)
    (hdeleted : s'.deleted = s.deleted) (hlen : s'.fs.contents.length < s.fs.contents.length) :
    ¬ Conserved s' := by
  intro hs'
  have h := hs.length_eq
  have h' := hs'.length_eq
  rw [List.length_append] at h h'
  rw [harrived, hdeleted] at h'
  omega

lemma conserved_of_perm {s' : State} (hs : Conserved s) (harrived : s'.arrived = s.arrived)
    (hdeleted : s'.deleted = s.deleted) (hperm : s'.fs.contents.Perm s.fs.contents) :
    Conserved s' := by
  unfold Conserved
  rw [harrived, hdeleted]
  exact (hperm.append_right _).trans hs

lemma conserved_deadLetter (hs : Conserved s) (dir : String) (src : FPath) (uid : String) :
    Conserved (step s (.deadLetter dir src uid)) ↔ ¬ Clobbers s (.deadLetter dir src uid) := by
  unfold step Clobbers moveToDeadLetter
  dsimp only
  by_cases hdir : dir = ""
  · rw [if_pos hdir]
    simpa [hdir] using hs
  rw [if_neg hdir]
  rcases hsrc : s.fs.get? src with _ | f
  · have hsame : s.fs.move src ⟨dir, suffixed src.name uid⟩ = s.fs := by
      simp [Files.move, hsrc]
    rw [hsame]
    simpa using hs
  rcases hdst : s.fs.get? ⟨dir, suffixed src.name uid⟩ with _ | g
  · refine iff_of_true ?_ (by simp)
    exact conserved_of_perm hs rfl rfl (Files.contents_move hsrc hdst)
  · refine iff_of_false ?_ (by simp [hdir])
    have hlen := Files.length_contents_move hsrc hdst (deadLetter_ne dir src uid)
    exact not_conserved_of_length hs rfl rfl (by dsimp only; omega)

lemma conserved_move (hs : Conserved s) {cfg : TaskConfig} (hmode : cfg.archiveMode = .move)
    (hdir : cfg.archiveDir ≠ "") (src : FPath) (uidDst uidTmp : String) :
    Conserved (s.archive cfg src uidDst uidTmp) ↔
      ¬ Clobbers s (.archive cfg src uidDst uidTmp) := by
  have hmove : cfg.archiveMode ≠ .delete := by rw [hmode]; decide
  unfold State.archive archiveAfterSuccess Clobbers
  rw [hmode]
  dsimp only
  rw [if_neg hdir]
  rcases hsrc : s.fs.get? src with _ | f
  · have herror : safeMove s.fs src (resolveDst s.fs cfg.archiveDir src uidDst) uidTmp =
        .error "FileNotFoundError" := by
      simp [safeMove, hsrc]
    rw [herror]
    simpa [Except.map] using hs
  have hsome : (s.fs.get? src).isSome = true := by rw [hsrc]; rfl
  have hne := resolveDst_ne cfg.archiveDir uidDst hsome
  have hne' := tmpPath_resolveDst_ne s.fs cfg.archiveDir src uidDst uidTmp
  generalize resolveDst s.fs cfg.archiveDir src uidDst = dst at hne hne' ⊢
  rw [safeMove_eq hsrc]
  dsimp only [Except.map]
  by_cases htaken : (s.fs.get? dst).isSome = true ∨
      (s.fs.get? (tmpPath dst uidTmp)).isSome = true
  · -- the copy or the replace falls on a file: there is one file less than before
    refine iff_of_false ?_ (not_not.mpr ⟨hmode, hdir, rfl, htaken⟩)
    exact not_conserved_of_length hs rfl rfl (length_contents_safeMove hsrc hne hne' htaken)
  · refine iff_of_true ?_ fun h => htaken h.2.2.2
    rw [not_or, Option.not_isSome_iff_eq_none, Option.not_isSome_iff_eq_none] at htaken
    exact conserved_of_perm hs rfl rfl (contents_safeMove hsrc htaken.1 htaken.2)

/-- A step keeps what has arrived exactly if it moves nothing to a place that is taken. -/
lemma conserved_step (hs : Conserved s) (e : Event) :
    Conserved (step s e) ↔ ¬ Clobbers s e := by
  cases e with
  | arrive p f =>
    refine iff_of_true ?_ id
    unfold step
    dsimp only
    split_ifs with hp
    · exact hs
    · rw [Option.not_isSome_iff_eq_none] at hp
      unfold Conserved
      dsimp only
      rw [Files.contents_write hp]
      have hswap : (s.fs.contents ++ [f] ++ s.deleted).Perm
          (s.fs.contents ++ s.deleted ++ [f]) := by
        rw [List.append_assoc, List.append_assoc]
        exact List.perm_append_comm.append_left _
      exact hswap.trans (hs.append_right _)
  | deadLetter dir src uid => exact conserved_deadLetter hs dir src uid
  | archive cfg src uidDst uidTmp =>
    cases hmode : cfg.archiveMode with
    | keep =>
      -- the file stays where it is
      have hno : ¬ Clobbers s (.archive cfg src uidDst uidTmp) := by simp [Clobbers, hmode]
      have hsame : step s (.archive cfg src uidDst uidTmp) = s := by
        simp [step, State.archive, archiveAfterSuccess, hmode]
      rw [hsame]
      exact iff_of_true hs hno
    | delete =>
      -- the file goes over to the deleted ones
      have hno : ¬ Clobbers s (.archive cfg src uidDst uidTmp) := by simp [Clobbers, hmode]
      have hstep : step s (.archive cfg src uidDst uidTmp) = { s with
          fs := s.fs.unlink src
          deleted := s.deleted ++ (s.fs.get? src).toList } := by
        simp [step, State.archive, archiveAfterSuccess, hmode]
      rw [hstep]
      refine iff_of_true ?_ hno
      unfold Conserved
      dsimp only
      rcases hsrc : s.fs.get? src with _ | f
      · rw [Files.unlink_of_none hsrc, Option.toList_none, List.append_nil]
        exact hs
      · have hmoved : ((s.fs.unlink src).contents ++ (s.deleted ++ [f])).Perm
            (f :: (s.fs.unlink src).contents ++ s.deleted) := by
          rw [← List.append_assoc]
          exact List.perm_append_singleton f _
        calc List.Perm ((s.fs.unlink src).contents ++ (s.deleted ++ [f])) _ := hmoved
          List.Perm _ (s.fs.contents ++ s.deleted) := (Files.contents_unlink hsrc).append_right _
          List.Perm _ s.arrived := hs
    | move =>
      by_cases hdir : cfg.archiveDir = ""
      · have hno : ¬ Clobbers s (.archive cfg src uidDst uidTmp) := by simp [Clobbers, hdir]
        have hsame : step s (.archive cfg src uidDst uidTmp) = s := by
          simp [step, State.archive, archiveAfterSuccess, hmode, hdir]
        rw [hsame]
        exact iff_of_true hs hno
      · exact conserved_move hs hmode hdir src uidDst uidTmp

/-- **No file is lost**, in a run of arrivals, archivings and dead letters of all tasks, exactly if
none is moved to a place that is taken. -/
theorem always_conserved_iff (es : List Event) :
    Always step Conserved init es ↔ Steps step (fun s e => ¬ Clobbers s e) init es := by
  have hstart : Conserved init := List.Perm.refl []
  have hstep : ∀ s e, Conserved s → (Conserved (step s e) ↔ ¬ Clobbers s e) := fun _ e hs =>
    conserved_step hs e
  exact always_iff_steps (I := fun _ => True) (fun _ _ _ => trivial) (fun s e _ => hstep s e)
    trivial hstart

/-! ### Reading a name -/

/-- `uuid.uuid4().hex[:8]`. -/
structure Uid where
  text : String
  length_eq : text.toList.length = 8
  noDot : '.' ∉ text.toList

/-- The name a file had, and the suffix it got. -/
def unsuffixed (name : String) : String × String :=
  let (stem, ext) := splitext name
  let n := stem.toList.length - 9
  (String.ofList (stem.toList.take n) ++ ext, String.ofList (stem.toList.drop (n + 1)))

lemma splitext_of_dot {stem ext : List Char} (hext : '.' ∉ ext)
    (hstem : stem.all (· = '.') = false) :
    splitext (String.ofList (stem ++ '.' :: ext)) =
      (String.ofList stem, String.ofList ('.' :: ext)) := by
  have htake : (stem ++ '.' :: ext).take ((stem ++ '.' :: ext).length - 1 -
      ((stem ++ '.' :: ext).reverse.takeWhile (· ≠ '.')).length) = stem := by
    have hlen : (stem ++ '.' :: ext).length - 1 - ext.length = stem.length := by
      simp only [List.length_append, List.length_cons]
      omega
    rw [FileSelection.takeWhile_reverse_append hext, hlen, List.take_left]
  unfold splitext
  rw [String.toList_ofList]
  dsimp only
  rw [htake, if_pos ⟨by simp, by simp [hstem]⟩, List.drop_left]

lemma splitext_of_none {name : String}
    (h : '.' ∉ name.toList ∨ ∃ dots ext, name.toList = dots ++ '.' :: ext ∧
      dots.all (· = '.') = true ∧ '.' ∉ ext) : splitext name = (name, "") := by
  unfold splitext
  dsimp only
  rw [if_neg]
  rintro ⟨hdot, hstem⟩
  rcases h with h | ⟨dots, ext, hname, hdots, hext⟩
  · exact h hdot
  · apply hstem
    have hlen : (dots ++ '.' :: ext).length - 1 - ext.length = dots.length := by
      simp only [List.length_append, List.length_cons]
      omega
    rw [hname, FileSelection.takeWhile_reverse_append hext, hlen, List.take_left, hdots]

lemma splitext_cases (name : String) :
    (∃ stem ext, name = String.ofList (stem ++ '.' :: ext) ∧ '.' ∉ ext ∧
      stem.all (· = '.') = false) ∨
    ('.' ∉ name.toList ∨ ∃ dots ext, name.toList = dots ++ '.' :: ext ∧
      dots.all (· = '.') = true ∧ '.' ∉ ext) := by
  by_cases hdot : '.' ∈ name.toList
  · obtain ⟨back, front, hname, hback⟩ := List.eq_append_cons_of_mem (List.mem_reverse.mpr hdot)
    have hsplit : name.toList = front.reverse ++ '.' :: back.reverse := by
      rw [← List.reverse_reverse name.toList, hname]
      simp
    have hext : '.' ∉ back.reverse := by rwa [List.mem_reverse]
    rcases hall : front.reverse.all (· = '.') with _ | _
    · left
      exact ⟨front.reverse, back.reverse, by rw [← hsplit, String.ofList_toList], hext, hall⟩
    · exact .inr (.inr ⟨front.reverse, back.reverse, hsplit, hall, hext⟩)
  · exact .inr (.inl hdot)

lemma unsuffixed_of_splitext {d stem ext : String} {uid : Uid}
    (h : splitext d = (stem ++ "_" ++ uid.text, ext)) : unsuffixed d = (stem ++ ext, uid.text) := by
  have hstem : (stem ++ "_" ++ uid.text).toList = stem.toList ++ '_' :: uid.text.toList := by
    rw [String.toList_append, String.toList_append, List.append_assoc]
    rfl
  have hn : (stem.toList ++ '_' :: uid.text.toList).length - 9 = stem.toList.length := by
    rw [List.length_append, List.length_cons, uid.length_eq]
    omega
  unfold unsuffixed
  rw [h]
  dsimp only
  rw [hstem, hn, List.take_left, String.ofList_toList]
  have hdrop : (stem.toList ++ '_' :: uid.text.toList).drop (stem.toList.length + 1) =
      uid.text.toList := by
    rw [← List.drop_drop, List.drop_left]
    rfl
  rw [hdrop, String.ofList_toList]

/-- **The name tells what it was made of**: a dead letter gives the name the file had and the
suffix that was drawn, whatever dots the name has. -/
theorem unsuffixed_suffixed (name : String) (uid : Uid) :
    unsuffixed (suffixed name uid.text) = (name, uid.text) := by
  rcases splitext_cases name with ⟨stem, ext, rfl, hext, hstem⟩ | hnone
  · -- with an extension: the id stands before it
    have hsplit := splitext_of_dot hext hstem
    have hstem' : (stem ++ '_' :: uid.text.toList).all (· = '.') = false := by
      rw [List.all_append, hstem, Bool.false_and]
    have hname : suffixed (String.ofList (stem ++ '.' :: ext)) uid.text =
        String.ofList ((stem ++ '_' :: uid.text.toList) ++ '.' :: ext) := by
      rw [suffixed, hsplit, ← String.toList_inj]
      simp [String.toList_append]
    have hback : splitext (suffixed (String.ofList (stem ++ '.' :: ext)) uid.text) =
        (String.ofList stem ++ "_" ++ uid.text, String.ofList ('.' :: ext)) := by
      rw [hname, splitext_of_dot hext hstem', Prod.mk.injEq]
      refine ⟨?_, rfl⟩
      rw [← String.toList_inj]
      simp [String.toList_append]
    rw [unsuffixed_of_splitext hback, Prod.mk.injEq]
    exact ⟨String.ofList_append.symm, rfl⟩
  · -- without one, or with leading dots only: the id stands at the end
    have hsplit := splitext_of_none hnone
    have hname : suffixed name uid.text = name ++ "_" ++ uid.text := by
      rw [suffixed, hsplit, String.append_empty]
    have hlist : (name ++ "_" ++ uid.text).toList = name.toList ++ '_' :: uid.text.toList := by
      rw [String.toList_append, String.toList_append, List.append_assoc]
      rfl
    have hback : splitext (suffixed name uid.text) = (name ++ "_" ++ uid.text, "") := by
      rw [hname]
      apply splitext_of_none
      rw [hlist]
      rcases hnone with h | ⟨dots, ext, hn, hdots, hext⟩
      · left
        simp [h, uid.noDot]
      · refine .inr ⟨dots, ext ++ '_' :: uid.text.toList, by rw [hn]; simp, hdots, ?_⟩
        simp [hext, uid.noDot]
    rw [unsuffixed_of_splitext hback, String.append_empty]

end Tdcs.DeadLetter
