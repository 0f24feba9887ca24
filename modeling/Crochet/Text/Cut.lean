/-!
# Cutting and joining texts

A text is cut at every separator, so that there is one piece more than there are separators; joining
the pieces gives the text back.
-/

namespace Crochet.Text

/-- The pieces of a text between the characters equal to `separator`. -/
def cut (separator : Char) : List Char → List (List Char)
  | [] => [[]]
  | c :: cs =>
    if c = separator then [] :: cut separator cs
    else
      match cut separator cs with
      | [] => [[c]]
      | piece :: pieces => (c :: piece) :: pieces

/-- Pieces with a separator between each two. -/
def join (separator : Char) : List (List Char) → List Char
  | [] => []
  | [piece] => piece
  | piece :: pieces => piece ++ separator :: join separator pieces

/-- There is always a piece. -/
theorem cut_ne_nil (separator : Char) (text : List Char) : cut separator text ≠ [] := by
  cases text with
  | nil => simp [cut]
  | cons c cs =>
    unfold cut
    split
    · simp
    · split <;> simp

/-- Joining the pieces gives the text back. -/
theorem join_cut (separator : Char) (text : List Char) :
    join separator (cut separator text) = text := by
  induction text with
  | nil => rfl
  | cons c cs ih =>
    have hne := cut_ne_nil separator cs
    unfold cut
    split
    · rename_i hc
      cases hcut : cut separator cs with
      | nil => exact absurd hcut hne
      | cons piece pieces => rw [hcut] at ih; simp [join, ih, hc]
    · split
      · contradiction
      · rename_i piece pieces hcut
        rw [hcut] at ih
        cases pieces with
        | nil => simp_all [join]
        | cons next rest => simp_all [join]

end Crochet.Text
