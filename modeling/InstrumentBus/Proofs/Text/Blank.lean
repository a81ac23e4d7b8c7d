import Mathlib.Data.List.DropRight
import InstrumentBus.Text.Blank

/-!
# Texts without white space at their ends

`Trimmed` says what is left of a text when the white space at its ends is taken away, and `trimmed_trim` and
`Trimmed.trim_eq` that `trim` finds just that. The lemmas on runs of one kind of element, up to the first of another kind, serve
every reader that takes digits or blanks from the start of a text.
-/

namespace InstrumentBus

/-! ## Runs -/

section Runs

variable {α : Type} {p : α → Bool} {front rest : List α}

theorem takeWhile_run (all : ∀ a ∈ front, p a = true) (stop : ∀ a ∈ rest.head?, p a = false) :
    (front ++ rest).takeWhile p = front := by
  rw [List.takeWhile_append_of_pos all]
  cases rest with
  | nil => exact List.append_nil front
  | cons a more => rw [List.takeWhile_cons_of_neg (by simp [stop a rfl]), List.append_nil]

theorem dropWhile_run (all : ∀ a ∈ front, p a = true) (stop : ∀ a ∈ rest.head?, p a = false) :
    (front ++ rest).dropWhile p = rest := by
  rw [List.dropWhile_append_of_pos all]
  cases rest with
  | nil => rfl
  | cons a more => rw [List.dropWhile_cons_of_neg (by simp [stop a rfl])]

theorem head?_dropWhile {l : List α} : ∀ a ∈ (l.dropWhile p).head?, p a = false := by
  intro a first
  have stop := List.head?_dropWhile_not p l
  rwa [first] at stop

end Runs

/-! ## Trimming -/

namespace Text

variable {text t : List Char}

/-- The text `t` is what is left of `text` without the white space at its ends. -/
structure Trimmed (text t : List Char) : Prop where
  surrounded : ∃ before after, (∀ c ∈ before, isBlank c = true) ∧ (∀ c ∈ after, isBlank c = true) ∧
    text = before ++ t ++ after
  first : ∀ c ∈ t.head?, isBlank c = false
  last : ∀ c ∈ t.getLast?, isBlank c = false

theorem trimmed_trim (text : List Char) : Trimmed text (trim text) := by
  have right : trim text ++ (text.dropWhile isBlank).rtakeWhile isBlank = text.dropWhile isBlank :=
    List.rdropWhile_append_rtakeWhile
  refine ⟨⟨text.takeWhile isBlank, (text.dropWhile isBlank).rtakeWhile isBlank, ?_, ?_, ?_⟩,
    fun c first => ?_, fun c last => ?_⟩
  · exact fun c taken => List.mem_takeWhile_imp taken
  · exact fun c taken => List.mem_rtakeWhile_imp taken
  · rw [List.append_assoc, right, List.takeWhile_append_dropWhile]
  · apply head?_dropWhile (l := text)
    rw [← right]
    exact List.mem_head?_append_of_mem_head? first
  · rw [trim, List.getLast?_reverse] at last
    exact head?_dropWhile c last

theorem Trimmed.trim_eq (trimmed : Trimmed text t) : trim text = t := by
  obtain ⟨⟨before, after, blankBefore, blankAfter, rfl⟩, first, last⟩ := trimmed
  have turnedBlank : ∀ c ∈ after.reverse, isBlank c = true := fun c present =>
    blankAfter c (List.mem_reverse.1 present)
  have turnedStop : ∀ c ∈ t.reverse.head?, isBlank c = false := by
    rw [List.head?_reverse]
    exact last
  cases t with
  | nil =>
    have blank : ∀ c ∈ before ++ [] ++ after, isBlank c = true := by
      simp only [List.append_nil, List.mem_append]
      exact fun c either => either.elim (blankBefore c) (blankAfter c)
    rw [trim, List.dropWhile_eq_nil_iff.2 blank]
    rfl
  | cons c more =>
    have stop : ∀ d ∈ (c :: more ++ after).head?, isBlank d = false := first
    rw [trim, List.append_assoc, dropWhile_run blankBefore stop, List.reverse_append,
      dropWhile_run turnedBlank turnedStop, List.reverse_reverse]

end Text

end InstrumentBus
