import LinkScript.Json
import LinkScript.Proofs.Json.Number

/-!
# Documents read back as they are written

Whatever value is printed, in whichever layout, the reader gets that value back.

* `readText_escape` does it for texts: an escaped character is read as itself.
* `Layout.IsBlank` says what a layout may put between the parts, and `readValue_render` does it for
  values in front of anything that does not continue a number, by recursion over the value.
* `readChars_render` does it for documents, which may have blanks behind them.
-/

namespace LinkScript.Json

/-! ## Texts -/

/-- A character in a text is escaped by a letter, stands for itself, or is given by its number. -/
theorem escapeChar_cases (c : Char) :
    (∃ letter, letter ≠ 'u' ∧ simpleEscape? letter = some c ∧ escapeChar c = ['\\', letter]) ∨
    (c ≠ '"' ∧ c ≠ '\\' ∧ 0x20 ≤ c.toNat ∧ escapeChar c = [c]) ∨
    (c.toNat < 0x20 ∧ escapeChar c = ['\\', 'u', '0', '0',
      Text.HexEscape.digit (c.toNat / 16), Text.HexEscape.digit (c.toNat % 16)]) := by
  by_cases named : c = '"' ∨ c = '\\' ∨ c = '\x08' ∨ c = '\t' ∨ c = '\n' ∨ c = '\x0c' ∨ c = '\r'
  · left
    rcases named with rfl | rfl | rfl | rfl | rfl | rfl | rfl <;>
      exact ⟨_, by decide, rfl, rfl⟩
  · right
    simp only [not_or] at named
    by_cases plain : 0x20 ≤ c.toNat
    · exact Or.inl ⟨named.1, named.2.1, plain, by simp [escapeChar, named, plain]⟩
    · exact Or.inr ⟨by omega, by simp [escapeChar, named, plain]⟩

/-- The digits of an escaped control give its number. -/
theorem hexUnit?_digits : ∀ n < 0x20, hexUnit? '0' '0' (Text.HexEscape.digit (n / 16))
    (Text.HexEscape.digit (n % 16)) = some n := by
  decide

/-- An escaped character is read as its number. -/
theorem readUnits_escapeChar (c : Char) (tail : List Char) :
    readUnits (escapeChar c ++ tail) =
      (readUnits tail).map fun (units, rest) => (c.toNat :: units, rest) := by
  rcases escapeChar_cases c with ⟨letter, other, named, escaped⟩ |
    ⟨quote, backslash, plain, escaped⟩ | ⟨control, escaped⟩
  · have read := readUnits.eq_4 letter tail fun _ _ _ _ _ same _ => other same
    rw [escaped, List.cons_append, List.cons_append, List.nil_append, read, named]
    cases readUnits tail <;> rfl
  · have read := readUnits.eq_5 c tail quote (fun _ _ _ _ _ same _ => backslash same)
      (fun _ _ same _ => backslash same)
    rw [escaped, List.cons_append, List.nil_append, read, if_neg (by omega)]
    cases readUnits tail <;> rfl
  · have digits := hexUnit?_digits c.toNat control
    simp only [escaped, List.cons_append, List.nil_append, readUnits, digits]
    cases readUnits tail <;> rfl

/-- Escaped characters are read as their numbers, up to the quotation mark. -/
theorem readUnits_escape (chars rest : List Char) :
    readUnits (chars.flatMap escapeChar ++ '"' :: rest) = some (chars.map Char.toNat, rest) := by
  induction chars with
  | nil => rfl
  | cons c chars ih =>
    rw [List.flatMap_cons, List.append_assoc, readUnits_escapeChar, ih]
    rfl

/-- The number of a character is no half of a character. -/
theorem loneChar_toNat (c : Char) : loneChar c.toNat = c := by
  have valid := c.valid
  rw [loneChar, if_neg, Char.ofNat_toNat]
  simp only [UInt32.isValidChar, Nat.isValidChar] at valid
  simp only [Char.toNat]
  omega

/-- The numbers of characters are joined to those characters. -/
theorem joinUnits_toNat (chars : List Char) : joinUnits (chars.map Char.toNat) = chars := by
  induction chars with
  | nil => rfl
  | cons c chars ih =>
    cases chars with
    | nil => simp [joinUnits, loneChar_toNat]
    | cons second chars =>
      have valid := c.valid
      rw [List.map_cons, List.map_cons, joinUnits, if_neg, ← List.map_cons, ih, loneChar_toNat]
      simp only [UInt32.isValidChar, Nat.isValidChar] at valid
      simp only [Char.toNat]
      omega

/-- **An escaped text is read as itself.** -/
theorem readText_escape (text : String) (rest : List Char) :
    readText (text.toList.flatMap escapeChar ++ '"' :: rest) = some (text, rest) := by
  rw [readText, readUnits_escape]
  simp [joinUnits_toNat]

/-! ## Blanks -/

/-- Blanks are skipped. -/
theorem skipSpace_append {gap : List Char} (blank : ∀ c ∈ gap, isSpace c) (rest : List Char) :
    skipSpace (gap ++ rest) = skipSpace rest :=
  List.dropWhile_append_of_pos blank

/-- A character that is not a blank stays. -/
theorem skipSpace_cons {c : Char} (visible : isSpace c = false) (rest : List Char) :
    skipSpace (c :: rest) = c :: rest := by
  simp [skipSpace, visible]

/-- A value may have blanks before it. -/
theorem readValue_append {gap : List Char} (blank : ∀ c ∈ gap, isSpace c) (bound : Nat)
    (input : List Char) : readValue bound (gap ++ input) = readValue bound input := by
  cases bound with
  | zero => rfl
  | succ bound => rw [readValue, readValue, skipSpace_append blank]

/-- A blank is no part of a number. -/
theorem continuesNumber_of_isSpace {c : Char} (space : isSpace c) : continuesNumber c = false := by
  simp only [isSpace, Bool.or_eq_true, beq_iff_eq] at space
  rcases space with ((rfl | rfl) | rfl) | rfl <;> rfl

/-- A number is complete in front of a blank or a mark that is no part of numbers. -/
theorem endsNumber_append {gap : List Char} (blank : ∀ c ∈ gap, isSpace c) {mark : Char}
    (apart : continuesNumber mark = false) (rest : List Char) :
    EndsNumber (gap ++ mark :: rest) := by
  intro c mem
  cases gap with
  | nil =>
    obtain rfl : mark = c := by simpa using mem
    exact apart
  | cons space gap =>
    obtain rfl : space = c := by simpa using mem
    exact continuesNumber_of_isSpace (blank space List.mem_cons_self)

/-- What a layout puts between the parts of a value is blank. -/
structure Layout.IsBlank (layout : Layout) : Prop where
  lineBreak : ∀ depth, ∀ c ∈ layout.lineBreak depth, isSpace c
  colon : ∃ gap, layout.colon = ':' :: gap ∧ ∀ c ∈ gap, isSpace c

/-- The indented layout puts blanks between them. -/
theorem Layout.isBlank_indented : Layout.indented.IsBlank where
  lineBreak depth c mem := by
    rcases List.mem_cons.mp mem with rfl | space
    · decide
    · rw [List.eq_of_mem_replicate space]
      decide
  colon := ⟨[' '], rfl, by simp [isSpace]⟩

/-! ## Parts of containers -/

section Parts

variable {bound : Nat} {inside middle rest gap : List Char} {name : String} {first value : Json}
  {items : List Json} {members : List (String × Json)}

/-- A written number is read as a number. -/
theorem readValue_chars (d : Decimal) (ends : EndsNumber rest) :
    readValue (bound + 1) (d.chars ++ rest) = some (.num d, rest) := by
  have read := readNumber_chars d ends
  obtain ⟨first, more, shape, begins⟩ := chars_eq_cons d
  rw [shape, List.cons_append] at read ⊢
  have apart : ∀ other, first = other → other.isDigit ∨ other = '-' := fun _ same => same ▸ begins
  have visible : isSpace first = false := by
    simp only [isSpace, Bool.or_eq_false_iff, beq_eq_false_iff_ne]
    refine ⟨⟨⟨?_, ?_⟩, ?_⟩, ?_⟩ <;> exact fun same => absurd (apart _ same) (by decide)
  rw [readValue, skipSpace_cons visible]
  split
  iterate 6
    next same =>
      obtain ⟨same, -⟩ := List.cons.inj same
      exact absurd (apart _ same) (by decide)
  rw [read]
  rfl

/-- Nothing is read where a bracket closes. -/
theorem readValue_of_close (skipped : skipSpace inside = ']' :: rest) :
    readValue bound inside = none := by
  cases bound with
  | zero => rfl
  | succ bound =>
    rw [readValue, skipped]
    rfl

/-- An array that begins with an item. -/
theorem readValue_arr (read : readValue bound inside = some (first, middle))
    (others : readItems bound middle = some (items, rest)) :
    readValue (bound + 1) ('[' :: inside) = some (.arr (first :: items), rest) := by
  have bracket : skipSpace ('[' :: inside) = '[' :: inside := skipSpace_cons rfl inside
  simp only [readValue, bracket]
  split
  · next close =>
    rw [readValue_of_close close] at read
    cases read
  · simp [read, others]

/-- The items behind the first one, with the bracket that closes them. -/
theorem readItems_cons (read : readValue bound inside = some (first, middle))
    (others : readItems bound middle = some (items, rest)) :
    readItems (bound + 1) (',' :: inside) = some (first :: items, rest) := by
  have comma : skipSpace (',' :: inside) = ',' :: inside := skipSpace_cons rfl inside
  rw [readItems, comma]
  simp [read, others]

/-- A bracket that closes. -/
theorem readItems_close (blank : ∀ c ∈ gap, isSpace c) :
    readItems (bound + 1) (gap ++ ']' :: rest) = some ([], rest) := by
  rw [readItems, skipSpace_append blank, skipSpace_cons rfl]
  rfl

/-- An object that begins with a member. -/
theorem readValue_obj {behind : List Char}
    (named : readName (skipSpace inside) = some (name, middle))
    (read : readValue bound middle = some (value, behind))
    (others : readMembers bound behind = some (members, rest)) :
    readValue (bound + 1) ('\x7b' :: inside) = some (.obj ((name, value) :: members), rest) := by
  have brace : skipSpace ('\x7b' :: inside) = '\x7b' :: inside := skipSpace_cons rfl inside
  simp only [readValue, brace]
  split
  · next close =>
    rw [close] at named
    cases named
  · simp [named, read, others]

/-- The members behind the first one, with the brace that closes them. -/
theorem readMembers_cons {behind : List Char}
    (named : readName (skipSpace inside) = some (name, middle))
    (read : readValue bound middle = some (value, behind))
    (others : readMembers bound behind = some (members, rest)) :
    readMembers (bound + 1) (',' :: inside) = some ((name, value) :: members, rest) := by
  have comma : skipSpace (',' :: inside) = ',' :: inside := skipSpace_cons rfl inside
  rw [readMembers, comma]
  simp [named, read, others]

/-- A brace that closes. -/
theorem readMembers_close (blank : ∀ c ∈ gap, isSpace c) :
    readMembers (bound + 1) (gap ++ '\x7d' :: rest) = some ([], rest) := by
  rw [readMembers, skipSpace_append blank, skipSpace_cons rfl]
  rfl

/-- A name in quotation marks, with blanks before it and its colon behind it. -/
theorem readName_quote (name : String) {lead : List Char} (blank : ∀ c ∈ lead, isSpace c) :
    readName (skipSpace (lead ++ (quoteChars name ++ ':' :: rest))) = some (name, rest) := by
  have text := readText_escape name (':' :: rest)
  have colon : skipSpace (':' :: rest) = ':' :: rest := skipSpace_cons rfl rest
  rw [skipSpace_append blank, quoteChars, List.cons_append, List.cons_append,
    skipSpace_cons rfl, List.append_assoc]
  simp [readName, text, colon]

end Parts

/-! ## Values -/

/-- Every value has a character. -/
theorem renderChars_ne_nil (layout : Layout) (depth : Nat) (json : Json) :
    renderChars layout depth json ≠ [] := by
  cases json with
  | null => simp [renderChars]
  | bool value => cases value <;> simp [renderChars]
  | num value =>
    obtain ⟨first, more, shape, -⟩ := chars_eq_cons value
    simp [renderChars, shape]
  | str text => simp [renderChars, quoteChars]
  | arr items => cases items <;> simp [renderChars]
  | obj members =>
    rcases members with _ | ⟨⟨name, value⟩, members⟩ <;> simp [renderChars]

/-- Behind a value in an array there is a comma, a blank or the bracket. -/
theorem endsNumber_renderItems (layout : Layout) (depth : Nat) (items : List Json) {gap : List Char}
    (spaces : ∀ c ∈ gap, isSpace c) (rest : List Char) :
    EndsNumber (renderItems layout depth items ++ (gap ++ ']' :: rest)) := by
  cases items with
  | nil => exact endsNumber_append spaces rfl rest
  | cons first items =>
    intro c mem
    obtain rfl : ',' = c := by simpa [renderItems] using mem
    rfl

/-- Behind a value in an object there is a comma, a blank or the brace. -/
theorem endsNumber_renderMembers (layout : Layout) (depth : Nat)
    (members : List (String × Json)) {gap : List Char} (spaces : ∀ c ∈ gap, isSpace c)
    (rest : List Char) :
    EndsNumber (renderMembers layout depth members ++ (gap ++ '}' :: rest)) := by
  cases members with
  | nil => exact endsNumber_append spaces rfl rest
  | cons first members =>
    intro c mem
    obtain rfl : ',' = c := by simpa [renderMembers] using mem
    rfl

section Values

variable {layout : Layout}

mutual

/-- **A printed value is read as itself**, in front of anything that does not continue a number. -/
theorem readValue_render (blank : layout.IsBlank) : ∀ (json : Json) (depth bound : Nat)
    (rest : List Char), (renderChars layout depth json).length ≤ bound → EndsNumber rest →
      readValue bound (renderChars layout depth json ++ rest) = some (json, rest)
  | .null, _, _ + 1, _, _, _ => rfl
  | .bool true, _, _ + 1, _, _, _ => rfl
  | .bool false, _, _ + 1, _, _, _ => rfl
  | .num value, _, _ + 1, _, _, ends => readValue_chars value ends
  | .str text, depth, bound + 1, rest, _, _ => by
    have read := readText_escape text rest
    have quote : skipSpace ('"' :: (text.toList.flatMap escapeChar ++ '"' :: rest)) = _ :=
      skipSpace_cons rfl _
    simp [renderChars, quoteChars, readValue, quote, read]
  | .arr [], _, _ + 1, _, _, _ => rfl
  | .obj [], _, _ + 1, _, _, _ => rfl
  | .arr (first :: items), depth, bound + 1, rest, enough, _ => by
    have spaces := blank.lineBreak depth
    simp only [renderChars, List.length_append, List.length_cons, List.length_nil] at enough
    have some := List.length_pos_iff.mpr (renderChars_ne_nil layout (depth + 1) first)
    have ends := endsNumber_renderItems layout (depth + 1) items spaces rest
    have read := readValue_render blank first (depth + 1) bound _ (by omega) ends
    have others := readItems_render blank items (depth + 1) bound _ rest spaces (by omega)
    rw [← readValue_append (blank.lineBreak (depth + 1))] at read
    simpa [renderChars] using readValue_arr read others
  | .obj ((name, value) :: members), depth, bound + 1, rest, enough, _ => by
    have spaces := blank.lineBreak depth
    obtain ⟨gap, colon, thin⟩ := blank.colon
    simp only [renderChars, List.length_append, List.length_cons, List.length_nil] at enough
    have some := List.length_pos_iff.mpr (renderChars_ne_nil layout (depth + 1) value)
    have ends := endsNumber_renderMembers layout (depth + 1) members spaces rest
    have read := readValue_render blank value (depth + 1) bound _ (by omega) ends
    have others := readMembers_render blank members (depth + 1) bound _ rest spaces (by omega)
    rw [← readValue_append thin] at read
    simpa [renderChars, colon] using
      readValue_obj (readName_quote name (blank.lineBreak (depth + 1))) read others
  | json, depth, 0, rest, enough, _ =>
    absurd (List.length_pos_iff.mpr (renderChars_ne_nil layout depth json)) (by omega)

/-- Printed items are read through the closing bracket. -/
theorem readItems_render (blank : layout.IsBlank) : ∀ (items : List Json) (depth bound : Nat)
    (gap rest : List Char), (∀ c ∈ gap, isSpace c) →
      (renderItems layout depth items).length < bound →
      readItems bound (renderItems layout depth items ++ (gap ++ ']' :: rest)) = some (items, rest)
  | [], _, _ + 1, _, _, spaces, _ => readItems_close spaces
  | first :: items, depth, bound + 1, gap, rest, spaces, enough => by
    simp only [renderItems, List.length_append, List.length_cons] at enough
    have ends := endsNumber_renderItems layout depth items spaces rest
    have read := readValue_render blank first depth bound _ (by omega) ends
    have some := List.length_pos_iff.mpr (renderChars_ne_nil layout depth first)
    have others := readItems_render blank items depth bound gap rest spaces (by omega)
    rw [← readValue_append (blank.lineBreak depth)] at read
    simpa [renderItems] using readItems_cons read others

/-- Printed members are read through the closing brace. -/
theorem readMembers_render (blank : layout.IsBlank) :
    ∀ (members : List (String × Json)) (depth bound : Nat)
    (gap rest : List Char), (∀ c ∈ gap, isSpace c) →
      (renderMembers layout depth members).length < bound →
      readMembers bound (renderMembers layout depth members ++ (gap ++ '}' :: rest)) =
        some (members, rest)
  | [], _, _ + 1, _, _, spaces, _ => readMembers_close spaces
  | (name, value) :: members, depth, bound + 1, gap, rest, spaces, enough => by
    obtain ⟨thin, colon, isThin⟩ := blank.colon
    simp only [renderMembers, List.length_append, List.length_cons] at enough
    have ends := endsNumber_renderMembers layout depth members spaces rest
    have read := readValue_render blank value depth bound _ (by omega) ends
    have some := List.length_pos_iff.mpr (renderChars_ne_nil layout depth value)
    have others := readMembers_render blank members depth bound gap rest spaces (by omega)
    rw [← readValue_append isThin] at read
    simpa [renderMembers, colon] using
      readMembers_cons (readName_quote name (blank.lineBreak depth)) read others

end

end Values

/-! ## Documents -/

/-- **A printed document is read as the value it was printed from**, with blanks behind it or
not. -/
theorem readChars_render {layout : Layout} (blank : layout.IsBlank) (json : Json) (depth : Nat)
    {gap : List Char} (spaces : ∀ c ∈ gap, isSpace c) :
    readChars (renderChars layout depth json ++ gap) = some json := by
  have ends : EndsNumber gap := fun c mem =>
    continuesNumber_of_isSpace (spaces c (List.mem_of_mem_head? mem))
  have enough : (renderChars layout depth json).length ≤
      (renderChars layout depth json ++ gap).length + 1 := by
    rw [List.length_append]
    omega
  have nothing : skipSpace gap = [] := by
    rw [← List.append_nil gap, skipSpace_append spaces]
    rfl
  rw [readChars, readValue_render blank json depth _ gap enough ends]
  simp [nothing]

/-- A value that is printed over lines is read from them. -/
theorem read_lines (json : Json) : read json.pretty = some json := by
  have whole := readChars_render Layout.isBlank_indented json 0 (List.forall_mem_nil _)
  simpa [read, pretty] using whole

/-- A value that is printed over lines, each of them ended, is read from these lines. -/
theorem read_pretty (json : Json) : read (json.pretty ++ "\n") = some json := by
  have line : ∀ c ∈ ['\n'], isSpace c := by simp [isSpace]
  have whole := readChars_render Layout.isBlank_indented json 0 line
  simpa [read, pretty] using whole

end LinkScript.Json
