import Tdcs.Users
import Tdcs.Lib.Pages

/-!
`response.py`, and the three listings that come in pages: the files, the audit log, and the quality
reports of a task.

Each page is a query of its own, sorted by a time that rows may share; what the database does with
rows of the same time is its own affair, and may differ from page to page.
-/

namespace Tdcs.Listing

open Tdcs.Lib.Pages

/-- Python's `int` of a text, and that it reads a number. -/
structure PyInt where
  int : String → Option ℤ
  int_toString : ∀ n : ℕ, int (toString n) = some (n : ℤ)

/-- A reader of decimal digits is one. -/
instance : Inhabited PyInt where
  default := {
    int s := if s.toList.all Char.isDigit then some (Nat.ofDigitChars 10 s.toList 0 : ℕ) else none
    int_toString n := by
      have hlist : (toString n).toList = Nat.toDigits 10 n := by simp [toString, Nat.repr]
      have hdigits : (Nat.toDigits 10 n).all Char.isDigit = true :=
        List.all_eq_true.mpr fun c hc =>
          Nat.isDigit_of_mem_toDigits (by decide) (by decide) hc
      rw [hlist, if_pos hdigits, Nat.ofDigitChars_ten_toDigits] }

def defaultPage : ℤ := 1
def defaultPageSize : ℤ := 50
def maxPageSize : ℤ := 200

/-- `request.args.get(key, default)` as an integer; the exception of `int` gives the default. -/
def argument (py : PyInt) (text : Option String) (default : ℤ) (clamp : ℤ → ℤ) : ℤ :=
  match text with
  | none => clamp default
  | some text => ((py.int text).map clamp).getD default

/-- `get_pagination`. -/
def getPagination (py : PyInt) (page pageSize : Option String) : ℕ × ℕ :=
  ((argument py page defaultPage fun n => max 1 n).toNat,
    (argument py pageSize defaultPageSize fun n => max 1 (min n maxPageSize)).toNat)

/-- The answer of `paginated`. -/
structure Response (ρ : Type*) where
  items : List ρ
  page : ℕ
  pageSize : ℕ
  total : ℕ
  totalPages : ℕ

/-- `paginated`. -/
def paginated {ρ : Type*} (items : List ρ) (page pageSize total : ℕ) : Response ρ where
  items := items
  page := page
  pageSize := pageSize
  total := total
  totalPages := max 1 ((total + pageSize - 1) / pageSize)

/-- The rows of a table, or those a condition selects. -/
structure Rows (ρ : Type*) where
  list : List ρ
  nodup : list.Nodup

def Rows.select {ρ : Type*} (t : Rows ρ) (p : ρ → Bool) : Rows ρ :=
  ⟨t.list.filter p, t.nodup.filter _⟩

/-- A listing: the `COUNT(*)` of the rows, and `LIMIT` and `OFFSET` applied to the order in which
the database gives them. -/
def listing {ρ : Type*} (py : PyInt) (rows : Rows ρ) (page pageSize : Option String)
    (order : List ρ) : Response ρ :=
  let (page, pageSize) := getPagination py page pageSize
  let offset := (page - 1) * pageSize
  paginated ((order.drop offset).take pageSize) page pageSize rows.list.length

/-! ### The three listings -/

/-- How the database compares texts, and a time with one. -/
structure Sql (κ : Type*) where
  eq : String → String → Bool
  like : String → String → Bool
  geText : κ → String → Bool
  leText : κ → String → Bool

/-- A condition that is left out where its argument is missing or empty. -/
def given (value : Option String) (p : String → Bool) : Bool :=
  match value with
  | none => true
  | some s => s = "" || p s

structure FileRow (κ : Type*) where
  id : ℕ
  taskId : String
  status : String
  createdAt : κ
  deriving DecidableEq

variable {κ : Type*} (py : PyInt) (sql : Sql κ)

def listFiles (t : Rows (FileRow κ)) (status taskId page pageSize : Option String) :
    List (FileRow κ) → Response (FileRow κ) :=
  listing py (t.select fun r => given status (sql.eq r.status) && given taskId (sql.eq r.taskId))
    page pageSize

structure AuditLog (κ : Type*) where
  id : ℕ
  timestamp : κ
  username : String
  action : String
  deriving DecidableEq

/-- `request.args.get(key, "").strip()`. -/
def stripped (arg : Option String) : Option String := some (Users.strip (arg.getD ""))

def listAuditLogs (t : Rows (AuditLog κ))
    (username action startDate endDate page pageSize : Option String) :
    List (AuditLog κ) → Response (AuditLog κ) :=
  listing py (t.select fun r =>
    given (stripped username) (sql.eq r.username) &&
    given (stripped action) (fun s => sql.like r.action ("%" ++ s ++ "%")) &&
    given (stripped startDate) (sql.geText r.timestamp) &&
    given (stripped endDate) (fun s => sql.leText r.timestamp (s ++ " 23:59:59"))) page pageSize

structure QualityRow (κ : Type*) where
  id : ℕ
  taskId : String
  batchTime : κ
  deriving DecidableEq

def getQuality (t : Rows (QualityRow κ)) (taskId : String) (page pageSize : Option String) :
    List (QualityRow κ) → Response (QualityRow κ) :=
  listing py (t.select fun r => sql.eq r.taskId taskId) page pageSize

/-! ### A reader of all the pages -/

/-- What a client sees that asks for page after page, up to the number the first one names. -/
def walk {ρ : Type*} (respond : ℕ → Response ρ) : List ρ :=
  (List.range (respond 1).totalPages).flatMap fun i => (respond (i + 1)).items

variable {py} {ρ : Type*}

lemma argument_some (text : String) (default : ℤ) (clamp : ℤ → ℤ) :
    argument py (some text) default clamp = ((py.int text).map clamp).getD default := rfl

lemma getPagination_toString (n : ℕ) (pageSize : Option String) :
    getPagination py (some (toString (n + 1))) pageSize =
      (n + 1, (getPagination py none pageSize).2) := by
  have hn : (argument py (some (toString (n + 1))) defaultPage fun n => max 1 n).toNat = n + 1 := by
    rw [argument_some, py.int_toString, Option.map_some, Option.getD_some]
    omega
  unfold getPagination
  rw [hn]

lemma pageSize_bounds (py : PyInt) (page pageSize : Option String) :
    1 ≤ (getPagination py page pageSize).2 ∧ (getPagination py page pageSize).2 ≤ 200 := by
  have hbounds : 1 ≤ argument py pageSize defaultPageSize (fun n => max 1 (min n maxPageSize)) ∧
      argument py pageSize defaultPageSize (fun n => max 1 (min n maxPageSize)) ≤ 200 := by
    rcases pageSize with _ | text
    · simp [argument, defaultPageSize, maxPageSize]
    · rw [argument_some]
      rcases py.int text with _ | n
      · simp [defaultPageSize]
      · rw [Option.map_some, Option.getD_some, maxPageSize]
        omega
  unfold getPagination
  dsimp only
  omega

lemma items_listing (rows : Rows ρ) (i : ℕ) (pageSize : Option String) (order : List ρ) :
    (listing py rows (some (toString (i + 1))) pageSize order).items =
      page (getPagination py none pageSize).2 i order := by
  unfold listing
  rw [getPagination_toString]
  rfl

lemma length_le_totalPages (py : PyInt) (rows : Rows ρ) (n : ℕ) (pageSize : Option String)
    (order : List ρ) :
    rows.list.length ≤
      (listing py rows (some (toString (n + 1))) pageSize order).totalPages *
        (getPagination py none pageSize).2 := by
  obtain ⟨hpos, -⟩ := pageSize_bounds py none pageSize
  unfold listing
  rw [getPagination_toString]
  dsimp only [paginated]
  generalize (getPagination py none pageSize).2 = size at hpos ⊢
  have hceil := Nat.div_add_mod (rows.list.length + size - 1) size
  have hmod := Nat.mod_lt (rows.list.length + size - 1) hpos
  have hmax := Nat.mul_le_mul_right size (Nat.le_max_right 1 ((rows.list.length + size - 1) / size))
  rw [Nat.mul_comm size] at hceil
  omega

/-- The rows a client sees are those of the first pages. -/
lemma walk_listing (rows : Rows ρ) (pageSize : Option String) (orders : ℕ → List ρ) :
    (walk fun p => listing py rows (some (toString p)) pageSize (orders p)) =
      (List.range (listing py rows (some (toString 1)) pageSize []).totalPages).flatMap fun i =>
        page (getPagination py none pageSize).2 i (orders (i + 1)) := by
  unfold walk
  simp only [items_listing]
  rfl

/-- **A listing shows each row once**, in its pages read one after the other, whatever the database
does with rows of the same time, exactly if no page ends between two rows of the same time. -/
theorem walk_perm_iff [LinearOrder κ] (py : PyInt) (key : ρ → κ) (rows : Rows ρ)
    (pageSize : Option String) :
    (∀ orders : ℕ → List ρ, (∀ p, Ordered key rows.list (orders p)) →
      (walk fun p => listing py rows (some (toString p)) pageSize (orders p)).Perm rows.list) ↔
    ∀ l, Ordered key rows.list l →
      ∀ i, ¬ Splits key (i * (getPagination py none pageSize).2) l := by
  have hn := length_le_totalPages py rows 0 pageSize []
  constructor
  · intro hall l hl
    refine (flatMap_page_perm_iff rows.nodup hl hn).mp fun orders horders => ?_
    have h := hall (fun p => orders (p - 1)) fun p => horders (p - 1)
    rw [walk_listing] at h
    exact h
  · intro hno orders horders
    rw [walk_listing]
    refine (flatMap_page_perm_iff rows.nodup (horders 0) hn).mpr (hno _ (horders 0))
      (fun i => orders (i + 1)) fun i => horders (i + 1)

end Tdcs.Listing
