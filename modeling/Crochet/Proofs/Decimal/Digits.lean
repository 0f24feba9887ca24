import Crochet.Decimal.Numeral
import Crochet.Decimal.Shortest
import Crochet.Proofs.Text

/-!
# Written digits

Numbers are words: their texts are never empty and have no blank in them, so that they can be cut
out of a line again.

* `whole?_digits`: the digits of a natural number read back as that number, however many they are.
* `isWord_digits`, `isWord_shortest`: the digits of a number and the shortest text of a double are
  words, also for an infinity and for no number.
-/

namespace Crochet.Decimal

open Text (IsWord isBlank)

/-! ## Natural numbers -/

theorem isDigit_of_mem_digits {n : Nat} {c : Char} (h : c ∈ digits n) : c.isDigit = true :=
  Nat.isDigit_of_mem_toDigits (by omega) (by omega) h

theorem digits_ne_nil (n : Nat) : digits n ≠ [] := Nat.toDigits_ne_nil

theorem isBlank_of_isDigit {c : Char} (h : c.isDigit = true) : isBlank c = false := by
  obtain ⟨low, high⟩ : 48 ≤ c.toNat ∧ c.toNat ≤ 57 := Char.isDigit_iff_toNat.1 h
  simp [isBlank]
  omega

theorem isWord_digits (n : Nat) : IsWord (digits n) :=
  ⟨digits_ne_nil n, fun _ hc => isBlank_of_isDigit (isDigit_of_mem_digits hc)⟩

theorem digitsOf_eq_map {text : List Char} (h : ∀ c ∈ text, c.isDigit = true) :
    Numeral.digitsOf text = (text.map fun c => c.toNat - '0'.toNat, []) := by
  induction text with
  | nil => rfl
  | cons c text ih =>
    obtain ⟨hc, htext⟩ := List.forall_mem_cons.1 h
    rw [Numeral.digitsOf, Numeral.digit?, if_pos hc, ih htext, List.map_cons]

/-- Digits stand for the same number here and in the library. -/
theorem valueOf_map_digits (text : List Char) :
    Numeral.valueOf (text.map fun c => c.toNat - '0'.toNat) = Nat.ofDigitChars 10 text 0 := by
  rw [Numeral.valueOf, List.foldl_map, Nat.ofDigitChars_eq_foldl]
  simp only [Nat.mul_comm]

/-- **The digits of a natural number are read back as that number.** -/
theorem whole?_digits (n : Nat) : whole? (digits n) = some n := by
  have hread := digitsOf_eq_map fun c (hc : c ∈ digits n) => isDigit_of_mem_digits hc
  have hvalue : Numeral.valueOf ((digits n).map fun c => c.toNat - '0'.toNat) = n :=
    calc
      _ = Nat.ofDigitChars 10 (digits n) 0 := valueOf_map_digits _
      _ = n := Nat.ofDigitChars_ten_toDigits
  cases htext : digits n with
  | nil => exact absurd htext (digits_ne_nil n)
  | cons c text =>
    rw [htext] at hread hvalue
    rw [whole?, hread]
    exact congrArg some hvalue

/-! ## Doubles -/

theorem isWord_append {front back : List Char} (hfront : IsWord front)
    (hback : ∀ c ∈ back, isBlank c = false) : IsWord (front ++ back) := by
  refine ⟨List.append_ne_nil_of_left_ne_nil hfront.1 back, fun c hc => ?_⟩
  exact (List.mem_append.1 hc).elim (hfront.2 c) (hback c)

theorem isWord_signed (negative : Bool) {text : List Char} (h : IsWord text) :
    IsWord (signed negative text) := by
  cases negative with
  | false => exact h
  | true =>
    have hminus : IsWord ['-'] := by decide
    exact isWord_append hminus h.2

/-- There is a digit before the point, however many places are asked for. -/
theorem isWord_pointed (n places : Nat) : IsWord (pointed n places) := by
  unfold pointed
  extract_lets ds padded whole
  have hpadded : ∀ c ∈ padded, isBlank c = false := by
    intro c hc
    obtain hc | hc := List.mem_append.1 hc
    · rw [List.eq_of_mem_replicate hc]
      decide
    · exact (isWord_digits n).2 c hc
  have hlength : places < padded.length := by
    have : padded.length = places + 1 - ds.length + ds.length := by
      rw [List.length_append, List.length_replicate]
    omega
  have hwhole : IsWord whole := by
    refine ⟨fun hnil => ?_, fun c hc => hpadded c (List.mem_of_mem_take hc)⟩
    have := congrArg List.length hnil
    rw [List.length_take, List.length_nil] at this
    omega
  split
  · exact hwhole
  · refine isWord_append hwhole fun c hc => ?_
    obtain rfl | hc := List.mem_cons.1 hc
    · decide
    · exact hpadded c (List.mem_of_mem_drop hc)

theorem isWord_positional (c : Nat) (k : Int) : IsWord (positional c k) := by
  unfold positional
  split
  · exact isWord_digits _
  · exact isWord_pointed _ _

/-- The text of a value is a word if that of a finite magnitude is. -/
theorem isWord_text {finite : Nat → Int → List Char} (h : ∀ m e, IsWord (finite m e))
    (v : Value) : IsWord (v.text finite) := by
  cases v with
  | nan =>
    show IsWord "NaN".toList
    decide
  | infinite negative => exact isWord_signed negative (by decide)
  | finite negative m e => exact isWord_signed negative (h m e)

/-- **The shortest text of a double is never empty and has no blank.** -/
theorem isWord_shortest (x : Float) : IsWord (shortest x) := by
  refine isWord_text (fun m e => ?_) _
  split
  · decide
  · exact isWord_positional _ _

end Crochet.Decimal
