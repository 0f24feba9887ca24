import Crochet.Text.Blank
import Crochet.Text.Cut

/-!
# Words in texts

What is cut out of a text, said without the cutting.

* `trim_eq_iff`: trimming leaves the one piece that begins and ends with no blank and has nothing
  but blanks around it.
* `cut_join`, `cut_flatMap`: pieces without the separator are what a cut finds in the text that
  joins them, be it put between them or behind each.
-/

namespace Crochet.Text

/-! ## Trimming -/

/-- One text is another without the blanks around it. -/
structure Trims (text word : List Char) : Prop where
  around : ∃ before after, text = before ++ word ++ after ∧
    (∀ c ∈ before, isBlank c = true) ∧ ∀ c ∈ after, isBlank c = true
  head : ∀ c ∈ word.head?, isBlank c = false
  last : ∀ c ∈ word.getLast?, isBlank c = false

theorem head?_dropWhile_isBlank {s : List Char} {c : Char} (h : c ∈ (s.dropWhile isBlank).head?) :
    isBlank c = false := by
  have := List.head?_dropWhile_not isBlank s
  rwa [Option.mem_def.1 h] at this

theorem dropWhile_isBlank_eq_self {s : List Char} (h : ∀ c ∈ s.head?, isBlank c = false) :
    s.dropWhile isBlank = s := by
  cases s with
  | nil => rfl
  | cons c s => rw [List.dropWhile_cons, h c rfl, if_neg Bool.false_ne_true]

theorem trimEnd_append {s blanks : List Char} (hblanks : ∀ c ∈ blanks, isBlank c = true)
    (hs : ∀ c ∈ s.getLast?, isBlank c = false) : trimEnd (s ++ blanks) = s := by
  have hdrop : s.reverse.dropWhile isBlank = s.reverse :=
    dropWhile_isBlank_eq_self (by simpa using hs)
  rw [trimEnd, List.reverse_append, List.dropWhile_append_of_pos (by simpa using hblanks), hdrop,
    List.reverse_reverse]

/-- What trimming takes away at the end is blank. -/
theorem exists_trimEnd_append (s : List Char) :
    ∃ blanks, s = trimEnd s ++ blanks ∧ ∀ c ∈ blanks, isBlank c = true := by
  refine ⟨(s.reverse.takeWhile isBlank).reverse, ?_, ?_⟩
  · rw [trimEnd, ← List.reverse_append, List.takeWhile_append_dropWhile, List.reverse_reverse]
  · intro c hc
    exact List.all_eq_true.1 List.all_takeWhile c (List.mem_reverse.1 hc)

theorem trims_trim (text : List Char) : Trims text (trim text) := by
  obtain ⟨after, heq, hafter⟩ := exists_trimEnd_append (trimStart text)
  refine ⟨⟨text.takeWhile isBlank, after, ?_, List.all_eq_true.1 List.all_takeWhile, hafter⟩,
    ?_, ?_⟩
  · rw [List.append_assoc, trim, ← heq, trimStart, List.takeWhile_append_dropWhile]
  · intro c hc
    refine head?_dropWhile_isBlank (s := text) ?_
    rw [← trimStart, heq, List.head?_append, Option.mem_def, ← trim, Option.mem_def.1 hc,
      Option.some_or]
  · intro c hc
    rw [trim, trimEnd, List.getLast?_reverse] at hc
    exact head?_dropWhile_isBlank hc

/-- **Trimming leaves all of a text but the blanks around it.** -/
theorem trim_eq_iff {text word : List Char} : trim text = word ↔ Trims text word := by
  constructor
  · rintro rfl
    exact trims_trim text
  · rintro ⟨⟨before, after, rfl, hbefore, hafter⟩, head, last⟩
    rw [trim, trimStart, List.append_assoc, List.dropWhile_append_of_pos hbefore]
    cases word with
    | nil =>
      rw [List.nil_append, ← List.append_nil after, List.dropWhile_append_of_pos hafter]
      rfl
    | cons c word =>
      have hword : (c :: word ++ after).dropWhile isBlank = c :: word ++ after :=
        dropWhile_isBlank_eq_self head
      rw [hword, trimEnd_append hafter last]

/-! ## Words -/

/-- A word is not empty and has no blank in it. -/
def IsWord (word : List Char) : Prop := word ≠ [] ∧ ∀ c ∈ word, isBlank c = false

instance (word : List Char) : Decidable (IsWord word) :=
  decidable_of_iff (word.isEmpty = false ∧ word.any isBlank = false) (by simp [IsWord])

theorem IsWord.not_mem {word : List Char} (h : IsWord word) {c : Char} (hc : isBlank c = true) :
    c ∉ word := fun hmem => by
  rw [h.2 c hmem] at hc
  exact Bool.false_ne_true hc

/-! ## Cutting -/

variable {separator : Char}

/-- A piece ends at the first separator. -/
theorem cut_append {piece : List Char} (h : separator ∉ piece) (rest : List Char) :
    cut separator (piece ++ separator :: rest) = piece :: cut separator rest := by
  induction piece with
  | nil => rw [List.nil_append, cut, if_pos rfl]
  | cons c piece ih =>
    rw [List.mem_cons, not_or] at h
    rw [List.cons_append, cut, if_neg (Ne.symm h.1), ih h.2]

theorem cut_of_not_mem {piece : List Char} (h : separator ∉ piece) :
    cut separator piece = [piece] := by
  induction piece with
  | nil => rfl
  | cons c piece ih =>
    rw [List.mem_cons, not_or] at h
    rw [cut, if_neg (Ne.symm h.1), ih h.2]

theorem join_cons_cons (piece next : List Char) (rest : List (List Char)) :
    join separator (piece :: next :: rest) = piece ++ separator :: join separator (next :: rest) :=
  rfl

theorem not_mem_join {c : Char} {pieces : List (List Char)} (hc : c ≠ separator)
    (h : ∀ piece ∈ pieces, c ∉ piece) : c ∉ join separator pieces := by
  induction pieces with
  | nil => exact List.not_mem_nil
  | cons piece rest ih =>
    obtain ⟨hpiece, hrest⟩ := List.forall_mem_cons.1 h
    cases rest with
    | nil => exact hpiece
    | cons next rest =>
      rw [join_cons_cons, List.mem_append, List.mem_cons]
      rintro (hmem | rfl | hmem)
      · exact hpiece hmem
      · exact hc rfl
      · exact ih hrest hmem

/-- **Pieces joined by a separator that is in none of them are the pieces of a cut.** -/
theorem cut_join {pieces : List (List Char)} (hne : pieces ≠ [])
    (h : ∀ piece ∈ pieces, separator ∉ piece) : cut separator (join separator pieces) = pieces := by
  induction pieces with
  | nil => exact absurd rfl hne
  | cons piece rest ih =>
    obtain ⟨hpiece, hrest⟩ := List.forall_mem_cons.1 h
    cases rest with
    | nil => exact cut_of_not_mem hpiece
    | cons next rest =>
      rw [join_cons_cons, cut_append hpiece, ih (List.cons_ne_nil _ _) hrest]

/-- **Pieces with a separator behind each are the pieces of a cut, with nothing behind the
last.** -/
theorem cut_flatMap {pieces : List (List Char)} (h : ∀ piece ∈ pieces, separator ∉ piece) :
    cut separator (pieces.flatMap (· ++ [separator])) = pieces ++ [[]] := by
  induction pieces with
  | nil => rfl
  | cons piece rest ih =>
    obtain ⟨hpiece, hrest⟩ := List.forall_mem_cons.1 h
    rw [List.flatMap_cons, List.append_assoc, List.singleton_append, cut_append hpiece, ih hrest,
      List.cons_append]

end Crochet.Text
