/-!
# Numbered entries

A finite map from numbers to values, kept as a list in ascending order of the numbers.  What one
sees of a map is `find?`; the order of the entries is the order in which they are listed and
applied.

* `find?_insert`: after an insertion the new number has the new value and the others are untouched.
* `insert_insert`: a later value at a number is the only one that counts.
-/

namespace Crochet

/-- A map from numbers to values. -/
structure Index (α : Type) where
  entries : List (Nat × α) := []
  /-- The numbers ascend, so that each occurs once. -/
  ascending : entries.Pairwise (·.1 < ·.1) := by simp
  deriving Repr

namespace Index

variable {α : Type}

instance : Inhabited (Index α) := ⟨{}⟩

/-- Two maps with the same entries are the same map. -/
theorem ext {m n : Index α} (h : m.entries = n.entries) : m = n := by
  cases m; cases n; cases h; rfl

/-! ## Insertion -/

/-- Puts a value at its place in ascending entries; an entry of the same number gives way. -/
def insertEntry (key : Nat) (value : α) : List (Nat × α) → List (Nat × α)
  | [] => [(key, value)]
  | entry :: rest =>
    if key < entry.1 then (key, value) :: entry :: rest
    else if key = entry.1 then (key, value) :: rest
    else entry :: insertEntry key value rest

/-- The numbers after an insertion. -/
theorem key_of_mem_insertEntry {key : Nat} {value : α} {entries : List (Nat × α)} {entry : Nat × α}
    (h : entry ∈ insertEntry key value entries) : entry.1 = key ∨ entry ∈ entries := by
  fun_induction insertEntry key value entries with
  | case1 => simp_all
  | case2 first rest hlt => grind
  | case3 first rest hlt heq => grind
  | case4 first rest hlt hne ih => grind

/-- An insertion keeps the order. -/
theorem pairwise_insertEntry {key : Nat} {value : α} {entries : List (Nat × α)}
    (h : entries.Pairwise (·.1 < ·.1)) :
    (insertEntry key value entries).Pairwise (·.1 < ·.1) := by
  fun_induction insertEntry key value entries with
  | case1 => simp
  | case2 first rest hlt =>
    refine List.pairwise_cons.2 ⟨fun entry hmem => ?_, h⟩
    rcases List.mem_cons.1 hmem with rfl | hrest
    · exact hlt
    · exact Nat.lt_trans hlt ((List.pairwise_cons.1 h).1 entry hrest)
  | case3 first rest hlt heq =>
    have hrest := List.pairwise_cons.1 h
    exact List.pairwise_cons.2 ⟨fun entry hmem => heq ▸ hrest.1 entry hmem, hrest.2⟩
  | case4 first rest hlt hne ih =>
    rw [List.pairwise_cons] at h ⊢
    refine ⟨fun entry hmem => ?_, ih h.2⟩
    rcases key_of_mem_insertEntry hmem with hkey | hold
    · omega
    · exact h.1 entry hold

/-- The map with a value at a number; a value already there gives way. -/
def insert (m : Index α) (key : Nat) (value : α) : Index α :=
  ⟨insertEntry key value m.entries, pairwise_insertEntry m.ascending⟩

/-- A value gives way to one that comes after it. -/
theorem insertEntry_insertEntry (key : Nat) (first second : α) (entries : List (Nat × α)) :
    insertEntry key second (insertEntry key first entries) = insertEntry key second entries := by
  fun_induction insertEntry key first entries with
  | case1 => simp [insertEntry]
  | case2 entry rest hlt => simp [insertEntry, hlt]
  | case3 entry rest hlt heq => simp [insertEntry, heq]
  | case4 entry rest hlt hne ih => simp [insertEntry, hlt, hne, ih]

/-- Of two values inserted at one number the second alone remains. -/
theorem insert_insert (m : Index α) (key : Nat) (first second : α) :
    (m.insert key first).insert key second = m.insert key second :=
  ext (insertEntry_insertEntry key first second m.entries)

/-! ## Looking up -/

/-- The value at a number, if there is one. -/
def find? (m : Index α) (key : Nat) : Option α := m.entries.lookup key

/-- Whether there is a value at a number. -/
def contains (m : Index α) (key : Nat) : Bool := (m.find? key).isSome

/-- The number of entries. -/
def size (m : Index α) : Nat := m.entries.length

/-- Whether there are no entries. -/
def isEmpty (m : Index α) : Bool := m.entries.isEmpty

@[simp] theorem find?_empty (key : Nat) : ({} : Index α).find? key = none := rfl

theorem lookup_cons (other : Nat) (entry : Nat × α) (entries : List (Nat × α)) :
    (entry :: entries).lookup other =
      if other = entry.1 then some entry.2 else entries.lookup other := by
  obtain ⟨key, value⟩ := entry
  rw [List.lookup_cons]
  by_cases h : other = key
  · simp [h]
  · rw [beq_false_of_ne h, if_neg h]

/-- Looking up in a list after an insertion. -/
theorem lookup_insertEntry (key other : Nat) (value : α) (entries : List (Nat × α)) :
    (insertEntry key value entries).lookup other =
      if other = key then some value else entries.lookup other := by
  fun_induction insertEntry key value entries with
  | case1 => rw [lookup_cons]
  | case2 first rest hlt => rw [lookup_cons]
  | case3 first rest hlt heq => grind [lookup_cons]
  | case4 first rest hlt hne ih => grind [lookup_cons]

/-- The new number has the new value, and every other number has what it had. -/
theorem find?_insert (m : Index α) (key other : Nat) (value : α) :
    (m.insert key value).find? other = if other = key then some value else m.find? other :=
  lookup_insertEntry key other value m.entries

end Index

end Crochet
