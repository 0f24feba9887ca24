import Crochet.Mesh.Ply
import Crochet.Proofs.Decimal.Digits

/-!
# PLY texts are read back

No line has a line end in it and no number a blank, so that cutting at line ends and at spaces finds
what was written.  The header ends where it says so, and the counts that it announces say where the
points end and the triangles begin.

* `lines?_text`: the lines of the text are those that were written.
* `readHeader?_header`: going through the header finds the two counts, and the lines behind it.
* `read?_text`: reading gives the coordinates as they are written and the triangles.
* `text_eq_text_iff`: two meshes have the same text if and only if these are the same.
* `text_decodes`: all of it for meshes of any size, with the number of lines.
-/

namespace Crochet.Mesh.Ply

open Decimal (digits shortest isWord_digits isWord_shortest whole?_digits)
open Text (IsWord cut join)

/-! ## Words in lines -/

/-- Words joined by spaces are the pieces between the spaces. -/
theorem cut_join_of_isWord {words : List (List Char)} (hne : words ≠ [])
    (h : ∀ word ∈ words, IsWord word) : cut ' ' (join ' ' words) = words :=
  Text.cut_join hne fun word hword => (h word hword).not_mem (by decide)

/-- There is no line end in words joined by spaces. -/
theorem newline_not_mem_join {words : List (List Char)} (h : ∀ word ∈ words, IsWord word) :
    '\n' ∉ join ' ' words :=
  Text.not_mem_join (by decide) fun word hword => (h word hword).not_mem (by decide)

/-- The coordinates of a point as they are written. -/
def coordinates (p : Vec3) : List (List Char) := [shortest p.x, shortest p.y, shortest p.z]

theorem isWord_of_mem_coordinates (p : Vec3) : ∀ word ∈ coordinates p, IsWord word := by
  simp [coordinates, isWord_shortest]

/-- The numbers in the line of a triangle. -/
theorem isWord_of_mem_corners (face : Face) :
    ∀ word ∈ [['3'], digits face.a, digits face.b, digits face.c], IsWord word := by
  have : IsWord ['3'] := by decide
  simp [this, isWord_digits]

theorem readPoint?_pointLine (p : Vec3) : readPoint? (pointLine p) = some (coordinates p) := by
  have hcut : cut ' ' (pointLine p) = coordinates p :=
    cut_join_of_isWord (List.cons_ne_nil _ _) (isWord_of_mem_coordinates p)
  rw [readPoint?, hcut]
  exact if_pos rfl

theorem readTriangle?_triangleLine (face : Face) :
    readTriangle? (triangleLine face) = some face := by
  have hcut := cut_join_of_isWord (List.cons_ne_nil _ _) (isWord_of_mem_corners face)
  rw [readTriangle?, triangleLine, hcut]
  simp [whole?_digits]

/-! ## The header -/

theorem length_header (points triangles : Nat) : (header points triangles).length = 10 := rfl

/-- A line that announces something is taken in: it is not the one that ends the header. -/
theorem readHeader?_cons {elements next : List Element} {line : List Char}
    (hnext : announce? elements (cut ' ' line) = some next) (rest : List (List Char)) :
    readHeader? elements (line :: rest) = readHeader? next rest := by
  have hline : line ≠ "end_header".toList := by
    rintro rfl
    have hnone : announce? elements (cut ' ' "end_header".toList) = none := rfl
    rw [hnone] at hnext
    cases hnext
  rw [readHeader?, if_neg hline, hnext, Option.bind_some]

/-- A line of words that announce something is taken in. -/
theorem readHeader?_join {elements next : List Element} {keyword : List Char}
    {words : List (List Char)} (hwords : ∀ word ∈ keyword :: words, IsWord word)
    (hnext : announce? elements (keyword :: words) = some next) (rest : List (List Char)) :
    readHeader? elements (join ' ' (keyword :: words) :: rest) = readHeader? next rest :=
  readHeader?_cons (by rwa [cut_join_of_isWord (List.cons_ne_nil _ _) hwords]) rest

theorem readHeader?_comment (elements : List Element) {words : List (List Char)}
    (h : ∀ word ∈ words, IsWord word) (rest : List (List Char)) :
    readHeader? elements (join ' ' ("comment".toList :: words) :: rest) =
      readHeader? elements rest := by
  refine readHeader?_join (List.forall_mem_cons.2 ⟨by decide, h⟩) ?_ rest
  unfold announce?
  exact if_pos rfl

theorem readHeader?_element (elements : List Element) {name : List Char} (hname : IsWord name)
    (count : Nat) (rest : List (List Char)) :
    readHeader? elements (join ' ' ["element".toList, name, digits count] :: rest) =
      readHeader? (⟨name, count, []⟩ :: elements) rest := by
  have hwords : ∀ word ∈ [name, digits count], IsWord word :=
    List.forall_mem_cons.2 ⟨hname, List.forall_mem_singleton.2 (isWord_digits count)⟩
  refine readHeader?_join (List.forall_mem_cons.2 ⟨by decide, hwords⟩) ?_ rest
  unfold announce?
  dsimp only
  rw [if_neg (by decide), if_pos rfl, whole?_digits, Option.map_some]

theorem readHeader?_property (latest : Element) (earlier : List Element)
    {words : List (List Char)} (h : ∀ word ∈ words, IsWord word) (rest : List (List Char)) :
    readHeader? (latest :: earlier) (join ' ' ("property".toList :: words) :: rest) =
      readHeader? ({ latest with properties := latest.properties ++ [words] } :: earlier) rest := by
  refine readHeader?_join (List.forall_mem_cons.2 ⟨by decide, h⟩) ?_ rest
  unfold announce?
  dsimp only
  rw [if_neg (by decide), if_neg (by decide), if_pos rfl]

/-- **Going through a header finds both counts, and the lines behind it.** -/
theorem readHeader?_header (points triangles : Nat) (body : List (List Char)) :
    readHeader? [] ((header points triangles).drop 2 ++ body) =
      some ([vertices points, faces triangles], body) := by
  have hlines : (header points triangles).drop 2 ++ body =
      [join ' ' ["comment".toList, "Generated".toList, "by".toList, "amigurumi".toList],
        join ' ' ["element".toList, "vertex".toList, digits points],
        join ' ' ["property".toList, "float".toList, ['x']],
        join ' ' ["property".toList, "float".toList, ['y']],
        join ' ' ["property".toList, "float".toList, ['z']],
        join ' ' ["element".toList, "face".toList, digits triangles],
        join ' ' ["property".toList, "list".toList, "uchar".toList, "int".toList,
          "vertex_indices".toList],
        "end_header".toList] ++ body := rfl
  rw [hlines]
  simp only [List.cons_append, List.nil_append]
  rw [readHeader?_comment _ (by decide), readHeader?_element _ (by decide),
    readHeader?_property _ _ (by decide), readHeader?_property _ _ (by decide),
    readHeader?_property _ _ (by decide), readHeader?_element _ (by decide),
    readHeader?_property _ _ (by decide), readHeader?, if_pos rfl]
  rfl

theorem newline_not_mem_header (points triangles : Nat) :
    ∀ line ∈ header points triangles, '\n' ∉ line := by
  have hdigits (n : Nat) : '\n' ∉ digits n := (isWord_digits n).not_mem (by decide)
  simp [header, hdigits]

/-! ## Lines in texts -/

theorem newline_not_mem_lines (mesh : Mesh) : ∀ line ∈ lines mesh, '\n' ∉ line := by
  intro line hline
  simp only [lines, List.mem_append, List.mem_map] at hline
  obtain (hheader | ⟨p, -, rfl⟩) | ⟨face, -, rfl⟩ := hline
  · exact newline_not_mem_header _ _ line hheader
  · exact newline_not_mem_join (isWord_of_mem_coordinates p)
  · exact newline_not_mem_join (isWord_of_mem_corners face)

theorem length_lines (mesh : Mesh) :
    (lines mesh).length = 10 + mesh.positions.size + mesh.triangles.length := by
  simp [lines, length_header, Nat.add_assoc]

/-- Lines without a line end in them are read back. -/
theorem lines?_unlines {ls : List (List Char)} (h : ∀ line ∈ ls, '\n' ∉ line) :
    lines? (unlines ls) = some ls := by
  rw [lines?, unlines, Text.cut_flatMap h, List.dropLast_concat]
  exact if_pos List.getLast?_concat

theorem lines?_text (mesh : Mesh) : lines? (text mesh) = some (lines mesh) :=
  lines?_unlines (newline_not_mem_lines mesh)

/-! ## Reading -/

theorem mapM_readPoint? (points : List Vec3) :
    (points.map pointLine).mapM readPoint? = some (points.map coordinates) := by
  rw [List.mapM_map, show readPoint? ∘ pointLine = fun p => pure (coordinates p) from
    funext readPoint?_pointLine, List.mapM_pure]
  rfl

theorem mapM_readTriangle? (triangles : List Face) :
    (triangles.map triangleLine).mapM readTriangle? = some triangles := by
  rw [List.mapM_map, show readTriangle? ∘ triangleLine = fun face => pure (id face) from
    funext readTriangle?_triangleLine, List.mapM_pure, List.map_id]
  rfl

/-- **A text announces its points and triangles, and their lines come behind the header.** -/
theorem announced?_lines (mesh : Mesh) :
    announced? (lines mesh) =
      some ([vertices mesh.positions.size, faces mesh.triangles.length],
        mesh.positions.toList.map pointLine ++ mesh.triangles.map triangleLine) := by
  have hdrop : (lines mesh).drop 2 =
      (header mesh.positions.size mesh.triangles.length).drop 2 ++
        (mesh.positions.toList.map pointLine ++ mesh.triangles.map triangleLine) := by
    rw [lines, List.append_assoc]
    rfl
  have htake : (lines mesh).take 2 = ["ply".toList, "format ascii 1.0".toList] := rfl
  rw [announced?, if_pos htake, hdrop, readHeader?_header]

theorem counts?_announced (points triangles : Nat) :
    counts? [vertices points, faces triangles] = some (points, triangles) :=
  if_pos ⟨rfl, rfl⟩

/-- **A text is read back as the coordinates that are written in it and the triangles.** -/
theorem read?_text (mesh : Mesh) :
    read? (text mesh) = some ⟨mesh.positions.toList.map coordinates, mesh.triangles⟩ := by
  have hpoints : (mesh.positions.toList.map pointLine).length = mesh.positions.size := by simp
  have hbody : (mesh.positions.toList.map pointLine ++ mesh.triangles.map triangleLine).length =
      mesh.positions.size + mesh.triangles.length := by simp
  simp only [read?, lines?_text, announced?_lines, counts?_announced, Option.bind_eq_bind,
    Option.bind_some]
  rw [if_pos hbody, List.take_left' hpoints, List.drop_left' hpoints, mapM_readPoint?,
    mapM_readTriangle?]
  rfl

/-- **Two meshes have the same text if and only if the same is written about their points and they
have the same triangles.** -/
theorem text_eq_text_iff {mesh other : Mesh} : text mesh = text other ↔
    mesh.positions.toList.map coordinates = other.positions.toList.map coordinates ∧
      mesh.triangles = other.triangles := by
  constructor
  · intro heq
    have hread := (read?_text mesh).symm.trans (heq ▸ read?_text other)
    exact Content.mk.inj (Option.some.inj hread)
  · rintro ⟨hpoints, htriangles⟩
    have hsize : mesh.positions.size = other.positions.size := by
      simpa using congrArg List.length hpoints
    have hlines (m : Mesh) : m.positions.toList.map pointLine =
        (m.positions.toList.map coordinates).map (join ' ') := List.map_map.symm
    rw [text, text, lines, lines, hlines, hlines, hpoints, hsize, htriangles]

/-- **A mesh of any size is written in ten lines and one for each point and triangle; a reader that
finds the two counts and the end of the header gets back the coordinates as they are written and the
triangles, with nothing left over, so that different triangles make different texts.** -/
theorem text_decodes (mesh : Mesh) :
    (∃ ls : List (List Char), text mesh = ls.flatMap (· ++ ['\n']) ∧ (∀ line ∈ ls, '\n' ∉ line) ∧
      ls.length = 10 + mesh.positions.size + mesh.triangles.length) ∧
    read? (text mesh) = some
      ⟨mesh.positions.toList.map fun p => [shortest p.x, shortest p.y, shortest p.z],
        mesh.triangles⟩ ∧
    ∀ other : Mesh, mesh.triangles ≠ other.triangles → text mesh ≠ text other := by
  refine ⟨?lines, ?read, ?different⟩
  case lines => exact ⟨lines mesh, rfl, newline_not_mem_lines mesh, length_lines mesh⟩
  case read => exact read?_text mesh
  case different => exact fun other hne heq => hne (text_eq_text_iff.1 heq).2

/-- Corners with the same digits in a row are told apart by the spaces between them. -/
theorem text_decodes_corners :
    [(⟨1, 23, 4⟩ : Face)] ≠ [⟨12, 3, 4⟩] ∧
    text ⟨#[.zero], [⟨1, 23, 4⟩]⟩ ≠ text ⟨#[.zero], [⟨12, 3, 4⟩]⟩ := by
  have different : [(⟨1, 23, 4⟩ : Face)] ≠ [⟨12, 3, 4⟩] := by decide
  obtain ⟨-, -, texts⟩ := text_decodes ⟨#[.zero], [⟨1, 23, 4⟩]⟩
  exact ⟨different, texts ⟨#[.zero], [⟨12, 3, 4⟩]⟩ different⟩

end Crochet.Mesh.Ply
