import LinkScript.Proofs.Text.Ascii
import LinkScript.Proofs.Token.Shape

/-!
# Scanning text

The scanner reads bytes and knows nothing of characters.  Where the bytes encode a text it still
cuts between characters only, since every token begins or ends beside a byte below 0x80.

* `Shape.besideAscii`: there is such a byte at the end of each token, or behind it.
* `scan_encode`: the lexemes of a text are pieces of it.
* `spelling` joins the texts of gaps and lexemes, and `spelling_scan` says that they are the text.
-/

namespace LinkScript

open Text.Utf8

/-! ## Where tokens are cut -/

/-- Blanks are cut off behind a byte below 0x80. -/
theorem besideAscii_of_blank {gap : Bytes} (blank : ∀ byte ∈ gap, Byte.isBlank byte)
    (rest : Bytes) : BesideAscii gap rest := by
  intro last mem _ _
  have skipped := blank last (List.mem_of_getLast? mem)
  simp only [Byte.isBlank, Bool.or_eq_true, beq_iff_eq] at skipped
  rcases skipped with rfl | rfl <;> exact Or.inl (by decide)

/-- A literal is cut off before a byte below 0x80, or at the end. -/
theorem IsLiteral.besideAscii {bytes rest : Bytes} (literal : IsLiteral bytes rest) :
    BesideAscii bytes rest := by
  intro _ _ first head
  have ends := (literal.stops first head).1
  simp only [Byte.endsLiteral, Bool.or_eq_true, beq_iff_eq] at ends
  rcases ends with (((rfl | rfl) | rfl) | rfl) | rfl <;> exact Or.inr (by decide)

/-- **Every token is cut off beside a byte below 0x80**, or at the end. -/
theorem Shape.besideAscii {kind : TokenKind} {bytes rest : Bytes} (shape : Shape kind bytes rest) :
    BesideAscii bytes rest := by
  cases kind with
  | eof =>
    obtain ⟨rfl, rfl⟩ := shape
    simp [BesideAscii]
  | invalid =>
    obtain ⟨⟨run, -, rfl⟩, -⟩ := shape
    exact BesideAscii.of_getLast? List.getLast?_concat (by decide)
  | newline =>
    rcases shape with rfl | rfl
    · exact BesideAscii.of_getLast? (show _ = some Byte.lineFeed from rfl) (by decide)
    · exact BesideAscii.of_getLast? (show _ = some Byte.lineFeed from rfl) (by decide)
  | lparen | rparen | lbrace | rbrace =>
    obtain rfl := shape
    exact BesideAscii.of_getLast? rfl (by decide)
  | comment =>
    obtain ⟨-, ⟨closes, -⟩ | ⟨rfl, -⟩⟩ := shape
    · obtain ⟨front, rfl⟩ := closes.trans (List.drop_suffix 2 bytes)
      have last : (front ++ [Byte.star, Byte.slash]).getLast? = some Byte.slash := by
        rw [List.getLast?_append]
        rfl
      exact BesideAscii.of_getLast? last (by decide)
    · simp [BesideAscii]
  | command keyword => exact shape.1.besideAscii
  | literal => exact shape.1.besideAscii

/-! ## Lexemes as pieces of a text -/

/-- The lexemes of a text, from a mark on, are pieces of it. -/
theorem scanFrom_encode (mark : Mark) (text : String) :
    ∀ lexeme ∈ scanFrom mark (encode text), ∃ before inside after : String,
      text = before ++ inside ++ after ∧ lexeme.bytes = encode inside ∧
        lexeme.span.start = mark.offset + (encode before).length := by
  generalize input : encode text = bytes
  fun_induction scanFrom mark bytes generalizing text with
  | case1 mark bytes cut lexeme eof =>
    obtain ⟨gap, nothing⟩ := Token.next_of_kind_eof eof
    intro found mem
    rw [List.mem_singleton.mp mem]
    refine ⟨text, "", "", by simp, nothing, ?_⟩
    show mark.offset + cut.gap.length = _
    rw [gap, input]
  | case2 mark bytes cut lexeme other ih =>
    have whole : encode text = cut.gap ++ (cut.bytes ++ cut.rest) := by
      rw [input, ← List.append_assoc]
      exact (Token.next_append bytes).symm
    have blank : BesideAscii cut.gap (cut.bytes ++ cut.rest) :=
      besideAscii_of_blank (fun _ => Token.isBlank_of_mem_gap) _
    obtain ⟨skipped, text, rfl, gap, behind⟩ := exists_encode_of_append whole blank
    obtain ⟨token, rest, rfl, inside, after⟩ :=
      exists_encode_of_append behind (Token.shape_next bytes).besideAscii
    have start : lexeme.span.start = mark.offset + (encode skipped).length := by
      rw [gap]
      rfl
    have stop : lexeme.span.stop = mark.offset + (encode (skipped ++ token)).length := by
      rw [encode_append, gap, inside, List.length_append, ← Nat.add_assoc]
      rfl
    intro found mem
    rcases List.mem_cons.mp mem with rfl | later
    · exact ⟨skipped, token, rest, String.append_assoc.symm, inside.symm, start⟩
    · obtain ⟨before, piece, beyond, rfl, bytes, place⟩ := ih rest after found later
      refine ⟨skipped ++ token ++ before, piece, beyond, by simp [String.append_assoc], bytes, ?_⟩
      rw [place, Mark.offset_past, stop, encode_append _ before, List.length_append, Nat.add_assoc]

/-- **The lexemes of a text are pieces of it**, at the places that their spans name. -/
theorem scan_encode {text : String} {lexeme : Lexeme} (mem : lexeme ∈ scan (encode text)) :
    ∃ before inside after : String, text = before ++ inside ++ after ∧
      lexeme.bytes = encode inside ∧ lexeme.span =
        ⟨(encode before).length, (encode (before ++ inside)).length⟩ := by
  obtain ⟨before, inside, after, whole, bytes, start⟩ := scanFrom_encode Mark.origin text lexeme mem
  have stop := scan_stop_eq mem
  have origin : Mark.origin.offset = 0 := rfl
  rw [origin, Nat.zero_add] at start
  rw [start, bytes, ← List.length_append, ← encode_append] at stop
  refine ⟨before, inside, after, whole, bytes, ?_⟩
  rw [← start, ← stop]

/-- The span of a lexeme of a text goes from a boundary to a boundary. -/
theorem isBoundary_of_mem_scan {text : String} {lexeme : Lexeme}
    (mem : lexeme ∈ scan (encode text)) :
    IsBoundary text lexeme.span.start ∧ IsBoundary text lexeme.span.stop := by
  obtain ⟨before, inside, after, rfl, -, span⟩ := scan_encode mem
  rw [span]
  exact ⟨⟨before, inside ++ after, String.append_assoc, rfl⟩, ⟨before ++ inside, after, rfl, rfl⟩⟩

/-- In a text without byte order marks, the text of a lexeme has the bytes of the lexeme. -/
theorem encode_text_of_mem_scan {text : String} (unmarked : '\uFEFF' ∉ text.toList)
    {lexeme : Lexeme} (mem : lexeme ∈ scan (encode text)) : encode lexeme.text = lexeme.bytes := by
  obtain ⟨before, inside, after, rfl, bytes, -⟩ := scan_encode mem
  have clean : inside.toList.head? ≠ some '\uFEFF' := by
    intro mark
    apply unmarked
    simp [List.mem_of_mem_head? mark]
  rw [Lexeme.text, bytes, decode_encode clean]

/-! ## All pieces together -/

/-- The texts of the bytes between lexemes and of the lexemes, in order from an offset on. -/
def spelling (source : Bytes) (offset : Nat) : List Lexeme → String
  | [] => ""
  | lexeme :: rest =>
    decode (Span.slice ⟨offset, lexeme.span.start⟩ source) ++ lexeme.text ++
      spelling source lexeme.span.stop rest

/-- Blanks are read as text without loss. -/
theorem encode_decode_of_blank {gap : Bytes}
    (blank : ∀ byte ∈ gap, byte = Byte.space ∨ byte = Byte.tab) : encode (decode gap) = gap := by
  have spelled : gap = encode (String.ofList (gap.map fun byte => Char.ofNat byte.toNat)) := by
    rw [encode, String.toList_ofList, List.flatMap_map]
    symm
    refine (List.flatMap_congr fun byte mem => ?_).trans (List.flatMap_singleton' gap)
    exact encodeChar_ofNat (by rcases blank byte mem with rfl | rfl <;> decide)
  have clean : (String.ofList (gap.map fun byte => Char.ofNat byte.toNat)).toList.head? ≠
      some '\uFEFF' := by
    rw [String.toList_ofList, List.head?_map]
    intro mark
    obtain ⟨byte, mem, char⟩ := Option.map_eq_some_iff.mp mark
    rcases blank byte (List.mem_of_mem_head? mem) with rfl | rfl <;> revert char <;> decide
  rw [spelled, decode_encode clean]

/-- Where gaps are blank and lexemes have the bytes of their texts, the spelling has the bytes of
the pieces. -/
theorem encode_spelling {source : Bytes} {offset : Nat} {lexemes : List Lexeme}
    (gaps : ∀ before lexeme after, lexemes = before ++ lexeme :: after →
      ∀ byte ∈ Span.slice ⟨endFrom offset before, lexeme.span.start⟩ source,
        byte = Byte.space ∨ byte = Byte.tab)
    (texts : ∀ lexeme ∈ lexemes, encode lexeme.text = lexeme.span.slice source) :
    encode (spelling source offset lexemes) = pieces source offset lexemes := by
  induction lexemes generalizing offset with
  | nil => rfl
  | cons lexeme rest ih =>
    have tail : encode (spelling source lexeme.span.stop rest) =
        pieces source lexeme.span.stop rest :=
      ih (fun before found after place byte mem => gaps (lexeme :: before) found after
          (by rw [place, List.cons_append]) byte (by rw [endFrom_cons]; exact mem))
        (fun found mem => texts found (List.mem_cons_of_mem _ mem))
    have gap : encode (decode (Span.slice ⟨offset, lexeme.span.start⟩ source)) =
        Span.slice ⟨offset, lexeme.span.start⟩ source :=
      encode_decode_of_blank (gaps [] lexeme rest rfl)
    rw [spelling, pieces, encode_append, encode_append, tail, gap, texts lexeme List.mem_cons_self]

/-- **Gaps and texts of a scan, in order, are the text that was scanned.** -/
theorem spelling_scan {text : String} (unmarked : '\uFEFF' ∉ text.toList) :
    spelling (encode text) 0 (scan (encode text)) = text := by
  apply encode_injective
  rw [encode_spelling]
  · exact (scan_tiled (encode text)).pieces_eq [] rfl
  · intro before lexeme after place
    exact (scan_split place).2.2.2.1
  · intro lexeme mem
    obtain ⟨before, after, place⟩ := List.append_of_mem mem
    rw [encode_text_of_mem_scan unmarked mem]
    exact (scan_split place).2.2.2.2

end LinkScript
