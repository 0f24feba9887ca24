import Crochet.Json.Basic

/-!
# Reading JSON

The grammar of RFC 8259 without any extension: no comments, no trailing commas, no byte order mark,
nothing but blanks around the value.  A text is first cut into tokens; the tokens then drive a
machine whose stack holds the arrays and objects that are still open, so that nesting is limited by
nothing but the text.  Main entry: `Json.read?`.
-/

namespace Crochet.Json

/-! ## Texts -/

/-- The value of a hexadecimal digit. -/
def hexDigit? (c : Char) : Option Nat :=
  if c.isDigit then some (c.toNat - '0'.toNat)
  else if 'a' ≤ c ∧ c ≤ 'f' then some (c.toNat - 'a'.toNat + 10)
  else if 'A' ≤ c ∧ c ≤ 'F' then some (c.toNat - 'A'.toNat + 10)
  else none

/-- The 16-bit unit that four hexadecimal digits stand for. -/
def hexUnit? (a b c d : Char) : Option Nat := do
  some ((((← hexDigit? a) * 16 + (← hexDigit? b)) * 16 + (← hexDigit? c)) * 16 + (← hexDigit? d))

/-- What a letter behind a backslash stands for. -/
def escaped? (c : Char) : Option Nat :=
  match c with
  | '"' => some '"'.toNat
  | '\\' => some '\\'.toNat
  | '/' => some '/'.toNat
  | 'b' => some 0x8
  | 'f' => some 0xC
  | 'n' => some 0xA
  | 'r' => some 0xD
  | 't' => some 0x9
  | _ => none

/-- Reads a text behind its opening quote; the units read before it are in `done`, last first.  The
result is the units of the text and what follows the closing quote. -/
def scanText (done : List Nat) : List Char → Option (List Nat × List Char)
  | [] => none
  | '"' :: rest => some (done.reverse, rest)
  | '\\' :: 'u' :: a :: b :: c :: d :: rest =>
    match hexUnit? a b c d with
    | some unit => scanText (unit :: done) rest
    | none => none
  | '\\' :: c :: rest =>
    match escaped? c with
    | some unit => scanText (unit :: done) rest
    | none => none
  | c :: rest => if c.toNat < 0x20 then none else scanText (c.toNat :: done) rest

/-- Whether a unit is the first half of a surrogate pair. -/
def isHigh (unit : Nat) : Bool := 0xD800 ≤ unit && unit < 0xDC00

/-- Whether a unit is the second half of a surrogate pair. -/
def isLow (unit : Nat) : Bool := 0xDC00 ≤ unit && unit < 0xE000

/-- The characters of a text, given its units with the characters before them in `done`, last first;
`none` if half of a surrogate pair stands alone. -/
def joinUnits? (done : List Char) : List Nat → Option (List Char)
  | [] => some done.reverse
  | [unit] =>
    if isHigh unit || isLow unit then none else some (Char.ofNat unit :: done).reverse
  | unit :: next :: rest =>
    if isHigh unit then
      if isLow next then
        joinUnits? (Char.ofNat (0x10000 + (unit - 0xD800) * 0x400 + (next - 0xDC00)) :: done) rest
      else none
    else if isLow unit then none
    else joinUnits? (Char.ofNat unit :: done) (next :: rest)

/-! ## Numbers -/

/-- The characters a number may be made of. -/
def isNumberChar (c : Char) : Bool :=
  c.isDigit || c == '-' || c == '+' || c == '.' || c == 'e' || c == 'E'

/-- A number: a minus or nothing, digits without a superfluous zero in front, then a point with
digits or nothing, then a power of ten or nothing. -/
def numeral? (text : List Char) : Option Decimal.Numeral :=
  let (negative, body) :=
    match text with
    | '-' :: body => (true, body)
    | body => (false, body)
  let (whole, rest) := Decimal.Numeral.digitsOf body
  let (hasPoint, fraction, rest) :=
    match rest with
    | '.' :: rest => (true, Decimal.Numeral.digitsOf rest)
    | rest => (false, [], rest)
  if whole.isEmpty || (whole.head? == some 0 && whole.length != 1) || (hasPoint && fraction.isEmpty)
  then none
  else (Decimal.Numeral.exponentOf? rest).map fun exponent => ⟨negative, whole, fraction, exponent⟩

/-! ## Tokens -/

/-- The pieces of a JSON text. -/
inductive Token where
  | openArray
  | closeArray
  | openObject
  | closeObject
  | comma
  | colon
  | string (text : Option String)
  /-- A value that is neither a text nor composed. -/
  | scalar (value : Json)
  deriving Inhabited

/-- The blanks that may stand between tokens. -/
def isSpace (c : Char) : Bool := c == ' ' || c == '\n' || c == '\t' || c == '\r'

/-- The token at the front of a text that does not start with a blank, and what follows it. -/
def token? : List Char → Option (Token × List Char)
  | [] => none
  | '[' :: rest => some (.openArray, rest)
  | ']' :: rest => some (.closeArray, rest)
  | '\x7b' :: rest => some (.openObject, rest)
  | '\x7d' :: rest => some (.closeObject, rest)
  | ',' :: rest => some (.comma, rest)
  | ':' :: rest => some (.colon, rest)
  | 'n' :: 'u' :: 'l' :: 'l' :: rest => some (.scalar .null, rest)
  | 't' :: 'r' :: 'u' :: 'e' :: rest => some (.scalar (.bool true), rest)
  | 'f' :: 'a' :: 'l' :: 's' :: 'e' :: rest => some (.scalar (.bool false), rest)
  | '"' :: rest =>
    (scanText [] rest).map fun (units, rest) =>
      (.string ((joinUnits? [] units).map String.ofList), rest)
  | text =>
    (numeral? (text.takeWhile isNumberChar)).map fun n =>
      (.scalar (.number n), text.dropWhile isNumberChar)

/-- A text ends before what follows it. -/
theorem length_of_scanText {done units : List Nat} {text rest : List Char}
    (h : scanText done text = some (units, rest)) : rest.length < text.length := by
  fun_induction scanText done text <;> simp_all <;> omega

/-- There is no number without a character. -/
@[simp] theorem numeral?_nil : numeral? [] = none := by
  simp [numeral?, Decimal.Numeral.digitsOf]

/-- What follows a token is shorter than the text with the token. -/
theorem length_of_token? {t : Token} {text rest : List Char}
    (h : token? text = some (t, rest)) : rest.length < text.length := by
  unfold token? at h
  split at h
  case h_1 => simp at h
  case h_11 r =>
    obtain ⟨⟨units, r'⟩, hs, he⟩ := Option.map_eq_some_iff.1 h
    have := length_of_scanText hs
    simp only [Prod.mk.injEq] at he
    rw [← he.2, List.length_cons]
    omega
  case h_12 =>
    obtain ⟨n, hn, he⟩ := Option.map_eq_some_iff.1 h
    simp only [Prod.mk.injEq] at he
    have hsum : (text.takeWhile isNumberChar).length + (text.dropWhile isNumberChar).length =
        text.length := by rw [← List.length_append, List.takeWhile_append_dropWhile]
    have hne : (text.takeWhile isNumberChar).length ≠ 0 := by
      intro h0
      rw [List.length_eq_zero_iff.1 h0] at hn
      simp at hn
    rw [← he.2]
    omega
  all_goals
    simp only [Option.some.injEq, Prod.mk.injEq] at h
    rw [← h.2]
    simp only [List.length_cons]
    omega

/-- Dropping characters from the front does not make a text longer. -/
theorem length_dropWhile_le (p : Char → Bool) (text : List Char) :
    (text.dropWhile p).length ≤ text.length :=
  (List.dropWhile_sublist p).length_le

/-- Cuts a text into tokens; those before it are in `done`, last first. -/
def tokens? (done : List Token) (text : List Char) : Option (List Token) :=
  match _ : text.dropWhile isSpace with
  | [] => some done.reverse
  | c :: cs =>
    match _ : token? (c :: cs) with
    | none => none
    | some (t, rest) => tokens? (t :: done) rest
termination_by text.length
decreasing_by
  rename_i hdrop htoken
  have h := length_of_token? htoken
  rw [← hdrop] at h
  exact Nat.lt_of_lt_of_le h (length_dropWhile_le _ _)

/-! ## Values -/

/-- An array or object that is still open, with what it holds so far, last first. -/
inductive Frame where
  | items (before : List Json)
  | fields (before : List (Option String × Json)) (key : Option String)

/-- What may come next. -/
inductive Phase where
  /-- A value. -/
  | value
  /-- The first item of an array, or its end. -/
  | firstItem
  /-- Behind an item of an array. -/
  | afterItem (items : List Json)
  /-- The first key of an object, or its end. -/
  | firstKey
  /-- A key of an object. -/
  | key (fields : List (Option String × Json))
  /-- Behind a key. -/
  | colon (fields : List (Option String × Json)) (key : Option String)
  /-- Behind a field of an object. -/
  | afterField (fields : List (Option String × Json))
  /-- Behind the whole value. -/
  | done (value : Json)

/-- The machine that builds a value: what may come next, and what is still open, innermost first. -/
structure Machine where
  phase : Phase
  stack : List Frame

/-- A value is complete: it becomes part of the innermost open array or object. -/
def complete (value : Json) : List Frame → Machine
  | [] => ⟨.done value, []⟩
  | .items before :: stack => ⟨.afterItem (value :: before), stack⟩
  | .fields before key :: stack => ⟨.afterField ((key, value) :: before), stack⟩

/-- A token where a value is due. -/
def begin? (stack : List Frame) : Token → Option Machine
  | .openArray => some ⟨.firstItem, stack⟩
  | .openObject => some ⟨.firstKey, stack⟩
  | .string text => some (complete (.string text) stack)
  | .scalar value => some (complete value stack)
  | _ => none

/-- One token. -/
def Machine.step? (m : Machine) (t : Token) : Option Machine :=
  match m.phase, t with
  | .value, t => begin? m.stack t
  | .firstItem, .closeArray => some (complete (.array []) m.stack)
  | .firstItem, t => begin? (.items [] :: m.stack) t
  | .afterItem items, .comma => some ⟨.value, .items items :: m.stack⟩
  | .afterItem items, .closeArray => some (complete (.array items.reverse) m.stack)
  | .firstKey, .closeObject => some (complete (.object []) m.stack)
  | .firstKey, .string key => some ⟨.colon [] key, m.stack⟩
  | .key fields, .string key => some ⟨.colon fields key, m.stack⟩
  | .colon fields key, .colon => some ⟨.value, .fields fields key :: m.stack⟩
  | .afterField fields, .comma => some ⟨.key fields, m.stack⟩
  | .afterField fields, .closeObject => some (complete (.object fields.reverse) m.stack)
  | _, _ => none

/-- The value a JSON text stands for, if it is one. -/
def read? (text : List Char) : Option Json := do
  let ts ← tokens? [] text
  let m ← ts.foldlM Machine.step? ⟨.value, []⟩
  match m.phase with
  | .done value => some value
  | _ => none

end Crochet.Json
