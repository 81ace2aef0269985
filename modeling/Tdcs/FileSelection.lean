import Mathlib.Data.List.Infix
import Tdcs.FileArchiver

/-!
Which files the watcher and the poller take for their task.

The watcher writes the last suffix of a name in lower case and looks for it among the
configured strings; the poller asks whether the name, as it is written, ends with one of them.
-/

namespace Tdcs.FileSelection

open Tdcs.Lib Tdcs.FileArchiver

inductive EventKind
  | created
  | modified
  | moved
  /-- `EventHandler` has no method for the others. -/
  | other

/-- An event of watchdog. -/
structure FileEvent where
  kind : EventKind
  isDirectory : Bool
  srcPath : FPath
  destPath : FPath

/-- The path for which `on_created`, `on_modified` or `on_moved` calls `_schedule`. -/
def FileEvent.path (e : FileEvent) : Option FPath :=
  if e.isDirectory then none
  else match e.kind with
    | .created | .modified => some e.srcPath
    | .moved => some e.destPath
    | .other => none

def endsWith (name e : String) : Bool := e.toList.isSuffixOf name.toList

/-- The last suffix of a name, with its dot. -/
def suffix (name : String) : String := (splitext name).2

variable (lower : String → String) (exts : List String)

/-- `_schedule` starts a timer; `lower` is `str.lower`. -/
def schedules (name : String) : Bool := exts.contains (lower (suffix name))

/-- `_scan_impl` skips the name. -/
def skips (name : String) : Bool := !exts.any (endsWith name)

/-- The watcher starts a timer for the path of the event exactly if the poller does not skip it. -/
def SameFiles (e : FileEvent) : Prop :=
  ∀ p, e.path = some p → (schedules lower exts p.name = true ↔ skips exts p.name = false)

/-- The three ways in which the two differ do not occur. -/
structure Agrees (name : String) : Prop where
  /-- The suffix is configured in lower case, but not as it is written, and no other configured
  string ends the name. -/
  upperCase : lower (suffix name) ∈ exts → suffix name ∉ exts →
    ∃ e ∈ exts, e ≠ suffix name ∧ endsWith name e = true
  /-- The suffix is configured as it is written, but not in lower case. -/
  asWritten : suffix name ∈ exts → lower (suffix name) ∈ exts
  /-- A configured string that is not the suffix ends the name: one without a dot, with two, or the
  whole name of a hidden file. -/
  otherEnd : ∀ e ∈ exts, e ≠ suffix name → endsWith name e = true → lower (suffix name) ∈ exts

variable {lower exts} {name e : String}

lemma endsWith_iff : endsWith name e = true ↔ e.toList <:+ name.toList :=
  List.isSuffixOf_iff_suffix

lemma endsWith_suffix (name : String) : endsWith name (suffix name) = true := by
  rw [endsWith_iff]
  refine ⟨(splitext name).1.toList, ?_⟩
  rw [suffix, ← String.toList_append, splitext_append]

lemma schedules_iff : schedules lower exts name = true ↔ lower (suffix name) ∈ exts :=
  List.contains_iff_mem

lemma skips_iff : skips exts name = false ↔ ∃ e ∈ exts, endsWith name e = true := by
  simp [skips]

lemma matches_eq_iff :
    (schedules lower exts name = true ↔ skips exts name = false) ↔ Agrees lower exts name := by
  rw [schedules_iff, skips_iff]
  constructor
  · intro h
    refine ⟨fun hlower hnot => ?_, fun hwritten => ?_, fun e he _ hend => h.mpr ⟨e, he, hend⟩⟩
    · obtain ⟨e, he, hend⟩ := h.mp hlower
      exact ⟨e, he, fun heq => hnot (heq ▸ he), hend⟩
    · exact h.mpr ⟨suffix name, hwritten, endsWith_suffix name⟩
  · intro h
    constructor
    · intro hlower
      by_cases hwritten : suffix name ∈ exts
      · exact ⟨suffix name, hwritten, endsWith_suffix name⟩
      · obtain ⟨e, he, -, hend⟩ := h.upperCase hlower hwritten
        exact ⟨e, he, hend⟩
    · rintro ⟨e, he, hend⟩
      by_cases heq : e = suffix name
      · exact h.asWritten (heq ▸ he)
      · exact h.otherEnd e he heq hend

/-- **Watcher and poller take the same files exactly where none of the three occurs.** -/
theorem sameFiles_iff (lower : String → String) (exts : List String) (event : FileEvent) :
    SameFiles lower exts event ↔ ∀ p, event.path = some p → Agrees lower exts p.name :=
  forall₂_congr fun _ _ => matches_eq_iff

/-- `A.CSV` with `.csv` configured is left to the watcher. -/
theorem not_sameFiles_upperCase : ¬ ∀ (exts : List String) (event : FileEvent),
    exts ≠ [] → SameFiles String.toLower exts event := by
  intro h
  have hsame := h [".csv"] ⟨.created, false, ⟨"/in", "A.CSV"⟩, ⟨"", ""⟩⟩ (by simp) _ rfl
  revert hsame
  decide +kernel

/-! ### Configurations as they are meant -/

/-- A dot and something without dots. -/
def Plain (e : String) : Prop := ∃ t : List Char, t ≠ [] ∧ '.' ∉ t ∧ e.toList = '.' :: t

/-- The name has nothing but dots in front of `e`. -/
def Hidden (name e : String) : Prop :=
  ∃ dots : List Char, (∀ c ∈ dots, c = '.') ∧ name.toList = dots ++ e.toList

lemma takeWhile_reverse_append {l t : List Char} (ht : '.' ∉ t) :
    ((l ++ '.' :: t).reverse.takeWhile (· ≠ '.')).length = t.length := by
  have hall : ∀ c ∈ t.reverse, (fun c : Char => decide (c ≠ '.')) c = true := by
    intro c hc
    have hne : c ≠ '.' := by
      rintro rfl
      exact ht (List.mem_reverse.mp hc)
    simpa using hne
  rw [List.reverse_append, List.reverse_cons, List.append_assoc, List.takeWhile_append_of_pos hall]
  simp

lemma suffix_of_plain (he : Plain e) (hend : endsWith name e = true) :
    (Hidden name e → suffix name = "") ∧ (¬ Hidden name e → suffix name = e) := by
  obtain ⟨t, -, ht, he⟩ := he
  obtain ⟨l, hl⟩ := endsWith_iff.mp hend
  have hname : name.toList = l ++ '.' :: t := by rw [← hl, he]
  have htake : name.toList.take (name.toList.length - 1 -
      (name.toList.reverse.takeWhile (· ≠ '.')).length) = l := by
    rw [hname, takeWhile_reverse_append ht]
    have hlen : (l ++ '.' :: t).length - 1 - t.length = l.length := by
      simp only [List.length_append, List.length_cons]
      omega
    rw [hlen, List.take_left]
  have hdot : '.' ∈ name.toList := by simp [hname]
  have hhidden : Hidden name e ↔ l.all (· = '.') = true := by
    constructor
    · rintro ⟨dots, hdots, hd⟩
      have : dots = l := by
        rw [hname, he] at hd
        exact (List.append_cancel_right hd).symm
      subst this
      simpa using hdots
    · intro hall
      exact ⟨l, by simpa using hall, hl.symm⟩
  unfold suffix splitext
  dsimp only
  rw [htake]
  constructor
  · intro hh
    rw [if_neg]
    simp [hhidden.mp hh]
  · intro hh
    have hnot : ¬ l.all (· = '.') = true := fun hall => hh (hhidden.mpr hall)
    rw [if_pos ⟨hdot, hnot⟩, hname, List.drop_left, ← he]
    exact String.ofList_toList

/-- With plain strings in lower case, the two differ on a name exactly if its suffix is configured
but not in lower case, or if it is a hidden file whose whole name is configured. -/
theorem agrees_iff_of_plain (hlower : lower "" = "")
    (hexts : ∀ e ∈ exts, Plain e ∧ lower e = e) :
    Agrees lower exts name ↔
      (lower (suffix name) ∈ exts → suffix name ∈ exts) ∧ ∀ e ∈ exts, ¬ Hidden name e := by
  have hempty : "" ∉ exts := by
    intro h
    obtain ⟨⟨t, -, -, ht⟩, -⟩ := hexts "" h
    simp at ht
  have hcase : ∀ e ∈ exts, endsWith name e = true → ¬ Hidden name e → suffix name = e :=
    fun e he hend => (suffix_of_plain (hexts e he).1 hend).2
  constructor
  · intro h
    have hvisible : ∀ e ∈ exts, ¬ Hidden name e := by
      intro e he hh
      have hend : endsWith name e = true := by
        obtain ⟨dots, -, hd⟩ := hh
        exact endsWith_iff.mpr ⟨dots, hd.symm⟩
      have hnone := (suffix_of_plain (hexts e he).1 hend).1 hh
      have hne : e ≠ suffix name := by
        rw [hnone]
        rintro rfl
        exact hempty he
      have := h.otherEnd e he hne hend
      rw [hnone, hlower] at this
      exact hempty this
    refine ⟨fun hl => ?_, hvisible⟩
    by_contra hnot
    obtain ⟨e, he, hne, hend⟩ := h.upperCase hl hnot
    exact hne (hcase e he hend (hvisible e he)).symm
  · rintro ⟨hl, hvisible⟩
    refine ⟨fun h hnot => absurd (hl h) hnot, fun h => ?_, fun e he hne hend => ?_⟩
    · rwa [(hexts _ h).2]
    · exact absurd (hcase e he hend (hvisible e he)).symm hne

end Tdcs.FileSelection
