import Mathlib.Data.Int.Notation
import Tdcs.Lib.Dict

/-!
Files under paths: the calls a program makes on a file system that obeys it.

A path is a directory and a name in it. Only files are kept; directories come and go
without notice.
-/

namespace Tdcs.Lib

structure FPath where
  dir : String
  name : String
  deriving DecidableEq

structure File (δ : Type*) where
  data : δ
  mtime : ℤ
  deriving DecidableEq

structure Files (δ : Type*) where
  dict : Dict FPath (File δ)

namespace Files

variable {δ : Type*} (fs : Files δ)

def get? (p : FPath) : Option (File δ) := fs.dict.get? p

def write (p : FPath) (f : File δ) : Files δ := ⟨fs.dict.set p f⟩

def unlink (p : FPath) : Files δ := ⟨fs.dict.erase p⟩

/-- `shutil.copy2`: the copy keeps the modification time. -/
def copy2 (src dst : FPath) : Files δ :=
  match fs.get? src with
  | none => fs
  | some f => fs.write dst f

/-- `os.replace`, and `shutil.move` inside one volume. -/
def move (src dst : FPath) : Files δ :=
  match fs.get? src with
  | none => fs
  | some f => (fs.unlink src).write dst f

variable {fs} {p q r : FPath} {f : File δ}

@[simp] lemma get?_write_self : (fs.write p f).get? p = some f := Dict.get?_set_self _ _ _

lemma get?_write_of_ne (h : q ≠ p) : (fs.write p f).get? q = fs.get? q :=
  Dict.get?_set_of_ne _ _ h

@[simp] lemma get?_unlink_self : (fs.unlink p).get? p = none := Dict.get?_erase_self _ _

lemma get?_unlink_of_ne (h : q ≠ p) : (fs.unlink p).get? q = fs.get? q :=
  Dict.get?_erase_of_ne _ h

lemma get?_copy2_self (h : fs.get? p = some f) : (fs.copy2 p q).get? q = some f := by
  simp [copy2, h]

lemma get?_copy2_of_ne (h : r ≠ q) : (fs.copy2 p q).get? r = fs.get? r := by
  unfold copy2
  split
  · rfl
  · exact get?_write_of_ne h

lemma get?_move_self (h : fs.get? p = some f) : (fs.move p q).get? q = some f := by
  simp [move, h]

lemma get?_move_src (h : p ≠ q) : (fs.move p q).get? p = none := by
  unfold move
  split
  · assumption
  · rw [get?_write_of_ne h, get?_unlink_self]

lemma get?_move_of_ne (hp : r ≠ p) (hq : r ≠ q) : (fs.move p q).get? r = fs.get? r := by
  unfold move
  split
  · rfl
  · rw [get?_write_of_ne hq, get?_unlink_of_ne hp]

/-! ### All that is there -/

/-- The files, wherever they are. -/
def contents (fs : Files δ) : List (File δ) := fs.dict.values

lemma contents_write (h : fs.get? p = none) : (fs.write p f).contents = fs.contents ++ [f] :=
  Dict.values_set_of_none h f

lemma contents_unlink (h : fs.get? p = some f) :
    (f :: (fs.unlink p).contents).Perm fs.contents := Dict.values_erase h

lemma unlink_of_none (h : fs.get? p = none) : fs.unlink p = fs := by
  unfold unlink
  rw [Dict.erase_of_none h]

lemma contents_move (hp : fs.get? p = some f) (hq : fs.get? q = none) :
    (fs.move p q).contents.Perm fs.contents := by
  have hne : q ≠ p := by
    rintro rfl
    rw [hp] at hq
    cases hq
  have hfree : (fs.unlink p).get? q = none := by rw [get?_unlink_of_ne hne, hq]
  unfold move
  rw [hp]
  dsimp only
  rw [contents_write hfree]
  exact (List.perm_append_singleton f _).trans (contents_unlink hp)

lemma length_contents_move {g : File δ} (hp : fs.get? p = some f) (hq : fs.get? q = some g)
    (hne : q ≠ p) : (fs.move p q).contents.length + 1 = fs.contents.length := by
  have htaken : (fs.unlink p).get? q = some g := by rw [get?_unlink_of_ne hne, hq]
  have hlen := (contents_unlink hp).length_eq
  rw [List.length_cons] at hlen
  unfold move
  rw [hp]
  have hset := Dict.length_values_set htaken f
  exact (congrArg (· + 1) hset).trans hlen

lemma length_contents_write {g : File δ} (hp : fs.get? p = some g) :
    (fs.write p f).contents.length = fs.contents.length := Dict.length_values_set hp f

end Files

end Tdcs.Lib
