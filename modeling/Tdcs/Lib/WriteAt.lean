import Mathlib.Data.List.Basic
import Mathlib.Tactic

/-!
Writing into a file at a place: what stands there is replaced, what comes after it stays, and a gap
before it is filled.
-/

namespace Tdcs.Lib.WriteAt

variable {β : Type*} {hole b : β} {data chunk : List β} {pos i n : ℕ}

/-- The data after `chunk` has been written at `pos`. -/
def writeAt (hole : β) (data : List β) (pos : ℕ) (chunk : List β) : List β :=
  data.take pos ++ List.replicate (pos - data.length) hole ++ chunk ++
    data.drop (pos + chunk.length)

lemma length_before : (data.take pos ++ List.replicate (pos - data.length) hole).length = pos := by
  rw [List.length_append, List.length_take, List.length_replicate]
  omega

lemma writeAt_end (hpos : data.length = pos) : writeAt hole data pos chunk = data ++ chunk := by
  have htake : data.take pos = data := List.take_of_length_le hpos.le
  have hdrop : data.drop (pos + chunk.length) = [] := List.drop_of_length_le (by omega)
  have hgap : pos - data.length = 0 := by omega
  rw [writeAt, htake, hdrop, hgap]
  simp

lemma writeAt_take {text : List β} (hpos : pos ≤ text.length) :
    writeAt hole (text.take pos) pos ((text.drop pos).take n) = text.take (pos + n) := by
  rw [writeAt_end (by rw [List.length_take]; omega), ← List.take_add]

lemma getElem?_writeAt (h : (writeAt hole data pos chunk)[i]? = some b) :
    (i < pos ∨ pos + chunk.length ≤ i) ∧ data[i]? = some b ∨
      i < pos ∧ b = hole ∨ pos ≤ i ∧ chunk[i - pos]? = some b := by
  rw [writeAt, List.append_assoc] at h
  by_cases hlt : i < pos
  · rw [List.getElem?_append_left (by rw [length_before]; exact hlt)] at h
    by_cases hold : i < (data.take pos).length
    · rw [List.getElem?_append_left hold, List.getElem?_take_of_lt hlt] at h
      exact .inl ⟨.inl hlt, h⟩
    · rw [List.getElem?_append_right (by omega)] at h
      obtain ⟨hmem, heq⟩ := List.getElem?_eq_some_iff.1 h
      rw [List.getElem_replicate] at heq
      exact .inr (.inl ⟨hlt, heq.symm⟩)
  · have hle : pos ≤ i := by omega
    rw [List.getElem?_append_right (by rw [length_before]; exact hle), length_before] at h
    by_cases hin : i - pos < chunk.length
    · rw [List.getElem?_append_left hin] at h
      exact .inr (.inr ⟨hle, h⟩)
    · rw [List.getElem?_append_right (by omega), List.getElem?_drop] at h
      have hindex : pos + chunk.length + (i - pos - chunk.length) = i := by omega
      rw [hindex] at h
      exact .inl ⟨.inr (by omega), h⟩

end Tdcs.Lib.WriteAt
