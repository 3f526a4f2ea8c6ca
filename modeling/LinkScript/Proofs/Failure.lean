import LinkScript.Failure
import LinkScript.Proofs.Json.Number
import LinkScript.Proofs.Text.HexEscape
import LinkScript.Proofs.Text

/-!
# What the message of an invalid token tells

The message of an invalid token shows its bytes between quotation marks, with words in front and
the place behind (`message_eq`).

* `AllChars` says that a text has no other characters than allowed ones.  It is kept by putting
  texts together, and `allChars_text` says it of places.  So the whole message is one line of
  printable characters (`allChars_message`).
* `quoted?` is what stands between the first quotation mark of a text and the last one.  The bytes
  may hold such marks themselves, but the words in front and the place behind do not, so
  `shownBytes?` reads the bytes back from the message (`shownBytes?_message`).
-/

namespace LinkScript

open Text.HexEscape

/-! ## Characters of a text -/

/-- Whether all characters of a text are allowed. -/
def AllChars (allowed : Char → Prop) (text : String) : Prop := ∀ c ∈ text.toList, allowed c

instance (allowed : Char → Prop) [DecidablePred allowed] (text : String) :
    Decidable (AllChars allowed text) :=
  List.decidableBAll allowed text.toList

section

variable {allowed : Char → Prop} {front back : String}

/-- All characters of two texts together are those of the one and those of the other. -/
theorem allChars_append :
    AllChars allowed (front ++ back) ↔ AllChars allowed front ∧ AllChars allowed back := by
  rw [AllChars, String.toList_append]
  exact List.forall_mem_append

/-- A whole number is written with digits, and a minus sign perhaps. -/
theorem allChars_toString (digit : ∀ c, c.isDigit → allowed c) (minus : allowed '-') (n : Int) :
    AllChars allowed (toString n) := by
  have natural : ∀ n : Nat, AllChars allowed n.repr := by
    intro n c mem
    rw [Nat.toList_repr] at mem
    exact digit c ((Json.isNatural_toDigits n).isDigit c mem)
  cases n with
  | ofNat n => exact natural n
  | negSucc n =>
    refine allChars_append.mpr ⟨?_, natural (n + 1)⟩
    intro c mem
    rw [List.mem_singleton.mp mem]
    exact minus

end

/-! ## Places -/

/-- A place as it stands at the end of a message. -/
def Position.text (position : Position) : String :=
  " (" ++ toString position.line ++ ":" ++ toString position.column ++ ")"

/-- A printable character other than the quotation mark. -/
def IsUnmarked (c : Char) : Prop := IsPrintable c ∧ c ≠ '\''

instance : DecidablePred IsUnmarked := fun _ => inferInstanceAs (Decidable (_ ∧ _))

/-- A digit is not marked. -/
theorem isUnmarked_of_isDigit {c : Char} (isDigit : c.isDigit) : IsUnmarked c := by
  obtain ⟨low, high⟩ := Char.isDigit_iff_toNat.mp isDigit
  refine ⟨⟨Nat.le_trans (by decide) low, Nat.le_trans high (by decide)⟩, ?_⟩
  rintro rfl
  exact absurd low (by decide)

/-- A place is written in printable characters without a quotation mark. -/
theorem Position.allChars_text (position : Position) : AllChars IsUnmarked position.text := by
  have number : ∀ n : Int, AllChars IsUnmarked (toString n) :=
    allChars_toString (fun _ => isUnmarked_of_isDigit) (by decide)
  rw [text, allChars_append, allChars_append, allChars_append, allChars_append]
  exact ⟨⟨⟨⟨by decide, number _⟩, by decide⟩, number _⟩, by decide⟩

/-! ## Messages -/

/-- A message ends with the place. -/
theorem message_eq_append (failure : LinkFailure) :
    failure.message = failure.defect.description ++ failure.position.text := by
  rw [LinkFailure.message, Position.text]
  simp only [String.append_assoc]

/-- The message of an invalid token: the words, the bytes between quotation marks, and the place. -/
theorem message_eq (bytes : Bytes) (position : Position) :
    LinkFailure.message ⟨.invalidToken bytes, position⟩ =
      "invalid token in LD script: '" ++ escape bytes ++ ("'" ++ position.text) :=
  (message_eq_append _).trans String.append_assoc

/-- **The message of an invalid token is one line of printable characters.** -/
theorem allChars_message (bytes : Bytes) (position : Position) :
    AllChars IsPrintable (LinkFailure.message ⟨.invalidToken bytes, position⟩) := by
  have place : AllChars IsPrintable position.text :=
    fun c mem => (position.allChars_text c mem).1
  rw [message_eq, allChars_append, allChars_append, allChars_append]
  exact ⟨⟨by decide, fun _ => isPrintable_of_mem_escape⟩, by decide, place⟩

/-- What stands between the first quotation mark and the last one. -/
def quoted? (text : List Char) : Option (List Char) := do
  let (_, behind) ← Text.cutFirst '\'' text
  let (_, inner) ← Text.cutFirst '\'' behind.reverse
  return inner.reverse

/-- A quotation may hold anything, if there is no mark around it. -/
theorem quoted?_append {front back : List Char} (noFront : '\'' ∉ front) (noBack : '\'' ∉ back)
    (inner : List Char) :
    quoted? (front ++ '\'' :: (inner ++ '\'' :: back)) = some inner := by
  have reversed : (inner ++ '\'' :: back).reverse = back.reverse ++ '\'' :: inner.reverse := by simp
  have noBack : '\'' ∉ back.reverse := mt List.mem_reverse.mp noBack
  simp only [quoted?, Text.cutFirst_append noFront, reversed, Text.cutFirst_append noBack,
    List.reverse_reverse, bind, Option.bind, pure]

/-- The bytes that a message shows. -/
def shownBytes? (message : String) : Option Bytes := (quoted? message.toList).map unescape

/-- Bytes without a backslash are read back from a quotation of them. -/
theorem shownBytes?_append {front back : String} {bytes : Bytes} {before behind : List Char}
    (opening : front.toList = before ++ ['\'']) (noBefore : '\'' ∉ before)
    (closing : back.toList = '\'' :: behind) (noBehind : '\'' ∉ behind)
    (plain : backslash ∉ bytes) : shownBytes? (front ++ escape bytes ++ back) = some bytes := by
  rw [shownBytes?, String.toList_append, String.toList_append, opening, closing, List.append_assoc,
    List.append_assoc, List.singleton_append, quoted?_append noBefore noBehind, Option.map_some,
    unescape_escape plain]

/-- The message of an invalid token shows its bytes. -/
theorem shownBytes?_message {bytes : Bytes} (plain : backslash ∉ bytes) (position : Position) :
    shownBytes? (LinkFailure.message ⟨.invalidToken bytes, position⟩) = some bytes := by
  have opening : "invalid token in LD script: '".toList =
      "invalid token in LD script: ".toList ++ ['\''] := rfl
  have closing : ("'" ++ position.text).toList = '\'' :: position.text.toList :=
    String.toList_append
  have noMark : '\'' ∉ position.text.toList := fun mem => (position.allChars_text _ mem).2 rfl
  rw [message_eq]
  exact shownBytes?_append opening (by decide) closing noMark plain

/-- **Escaped bytes can be printed and read back.**  They are shown in printable characters, part by
part.  Bytes without a backslash read back, so that no two such strings are shown alike.

The message of an invalid token is then one line of printable characters, and it tells the bytes of
the token if there is no backslash among them. -/
theorem message_tells_bytes :
    (∀ bytes, AllChars IsPrintable (escape bytes)) ∧
    (∀ front behind, escape (front ++ behind) = escape front ++ escape behind) ∧
    (∀ bytes, backslash ∉ bytes → unescape (escape bytes).toList = bytes) ∧
    (∀ bytes bytes', backslash ∉ bytes → backslash ∉ bytes' → escape bytes = escape bytes' →
      bytes = bytes') ∧
    ∀ bytes position,
      AllChars IsPrintable (LinkFailure.message ⟨.invalidToken bytes, position⟩) ∧
      (backslash ∉ bytes →
        shownBytes? (LinkFailure.message ⟨.invalidToken bytes, position⟩) = some bytes) := by
  refine ⟨?_, escape_append, ?_, ?_, ?_⟩
  · intro bytes c shown
    exact isPrintable_of_mem_escape shown
  · intro bytes plain
    exact unescape_escape plain
  · intro bytes bytes' plain plain' same
    exact escape_inj plain plain' same
  · intro bytes position
    refine ⟨allChars_message bytes position, ?_⟩
    intro plain
    exact shownBytes?_message plain position

/-- A quotation mark among the bytes does not end them. -/
example : LinkFailure.message ⟨.invalidToken [0x61, 0x27, 0x0D], ⟨0, 10⟩⟩ =
    "invalid token in LD script: 'a'\\x0d' (0:10)" := by decide

end LinkScript
