import Crochet.Text.Cut

/-!
# File names

Where the extension of a path begins and ends: the last part of the path counts, and in it what
stands behind the last dot.
-/

namespace Crochet.FileName

/-- Whether a part of a path leads nowhere. -/
def isIdle (part : List Char) : Bool := part.isEmpty || part == ['.']

/-- The last part of a path that leads anywhere, unless it leads up. -/
def name? (path : List Char) : Option (List Char) :=
  ((Text.cut '/' path).filter (!isIdle ·)).getLast?.filter (· != ['.', '.'])

/-- What stands behind the last dot of a name, unless there is nothing before the dot. -/
def extensionOf? (name : List Char) : Option (List Char) :=
  let after := (name.reverse.takeWhile (· != '.')).reverse
  let before := (name.reverse.dropWhile (· != '.')).drop 1
  if before.isEmpty then none else some after

/-- The extension of a path. -/
def extension? (path : List Char) : Option (List Char) := (name? path).bind extensionOf?

end Crochet.FileName
