import SlotFlow.Proofs.Listing.Steady
import SlotFlow.Proofs.Listing.TokensRead
import SlotFlow.Proofs.Text.Lines
import SlotFlow.Proofs.Text.Quoted

/-!
# Quoted tokens and their decoding

A quoted token is cut where its quote is not behind a backslash that takes it along. So what is
between its quotes is a row of plain characters and of pairs of a backslash and a character, and
it is decoded in turns that never leave anything else.

Main definition:

* `Yields`: the tokens that a line is cut into, also before a text that starts none.

Main statements:

* `mem_tokenize_iff`: the tokens of a line;
* `aligned_of_spanQuoted`: what is found between quotes is such a row;
* `Yields.quoted`: the text of a quoted token;
* `constant_quoted_eq_ok_iff`, `constant_quoted_eq_error_iff`: what a quoted token is read as;
* `quoted_decodes`: what becomes of the inside of a quoted token.
-/

namespace SlotFlow
namespace Listing

open Text.Quoted (Aligned Leaves Refused decode)

/-- The tokens that are cut off a line one by one, until no other starts. -/
inductive Yields : List Char → Token → Prop
  | first
      {cs text rest : List Char}
      {kind : TokenKind}
      (found : scan (cs.dropWhile isBlank) = .lexeme kind text rest) :
      Yields cs ⟨kind, String.ofList text⟩
  | later
      {cs text rest : List Char}
      {kind : TokenKind}
      {t : Token}
      (found : scan (cs.dropWhile isBlank) = .lexeme kind text rest)
      (behind : Yields rest t) :
      Yields cs t

variable {cs text rest inside line : List Char} {t : Token} {ts : List Token}

theorem yields_iff_of_lexeme
    {kind : TokenKind}
    (h : scan (cs.dropWhile isBlank) = .lexeme kind text rest) :
    Yields cs t ↔ t = ⟨kind, String.ofList text⟩ ∨ Yields rest t := by
  constructor
  · intro hyields
    cases hyields with
    | first found =>
        rw [h] at found
        cases found
        exact .inl rfl
    | later found behind =>
        rw [h] at found
        cases found
        exact .inr behind
  · rintro (rfl | hbehind)
    · exact .first h
    · exact .later h hbehind

/-- A line without a text that starts no token yields the tokens that it is cut into. -/
theorem mem_tokenize_iff
    (h : tokenize cs = .ok ts) :
    t ∈ ts ↔ Yields cs t := by
  induction ts generalizing cs with
  | nil =>
      constructor
      · exact nofun
      · intro hyields
        cases hyields with
        | first found | later found =>
            rw [tokenize_of_lexeme found] at h
            obtain ⟨_, _, hts⟩ := exists_of_map_eq_ok h
            cases hts
  | cons u ts ih =>
      cases hscan : scan (cs.dropWhile isBlank) with
      | done =>
          rw [tokenize_of_done hscan] at h
          cases h
      | stuck text =>
          rw [tokenize_of_stuck hscan] at h
          cases h
      | lexeme kind text rest =>
          rw [tokenize_of_lexeme hscan] at h
          obtain ⟨us, hrest, hts⟩ := exists_of_map_eq_ok h
          cases hts
          rw [List.mem_cons, yields_iff_of_lexeme hscan, ih hrest]

/-- What is found before a closing quote is a row of plain characters and pairs. -/
theorem aligned_of_spanQuoted
    (h : spanQuoted cs = (inside, some rest))
    (hfeed : '\n' ∉ inside) :
    Aligned inside := by
  fun_induction spanQuoted cs generalizing inside with
  | case1 | case3 =>
      cases h
  | case2 =>
      cases h
      exact .nil
  | case4 d cs within left hspan _ ih =>
      cases h
      rw [List.mem_cons, List.mem_cons, not_or, not_or] at hfeed
      exact .pair (Ne.symm hfeed.2.1) (ih hspan hfeed.2.2)
  | case5 c cs hquote hback within left hspan ih =>
      cases h
      rw [List.mem_cons, not_or] at hfeed
      exact .plain hquote hback (Ne.symm hfeed.1) (ih hspan hfeed.2)

/-- No mark and no number counts as a quoted string, which is cut at its closing quote. -/
theorem Lexeme.quoted_eq
    (h : Lexeme .quoted text rest) :
    ∃ inside, text = '"' :: (inside ++ ['"']) ∧
      spanQuoted (inside ++ '"' :: rest) = (inside, some rest) := by
  cases h with
  | mark hmark =>
      unfold markKind? at hmark
      split at hmark <;> cases hmark
  | quoted closed =>
      exact ⟨_, rfl, closed⟩
  | number _ _ hnumber =>
      simp only [spanNumber, spanFormat] at hnumber
      grind

/-- A quoted token has its quotes, and between them a row of plain characters and pairs. -/
theorem Yields.quoted
    (h : Yields line t)
    (hfeed : '\n' ∉ line)
    (hkind : t.kind = .quoted) :
    ∃ inside, t.text.toList = '"' :: (inside ++ ['"']) ∧ Aligned inside := by
  induction h with
  | @first cs text rest kind found =>
      cases hkind
      obtain ⟨inside, rfl, hspan⟩ := (Lexeme.of_scan found).quoted_eq
      refine ⟨inside, String.toList_ofList, aligned_of_spanQuoted hspan fun hmem => hfeed ?_⟩
      have htext : '\n' ∈ cs.dropWhile isBlank := by
        rw [← scan_append found]
        simp [hmem]
      exact (List.dropWhile_sublist isBlank).subset htext
  | @later cs text rest kind t found _ ih =>
      refine ih (fun hmem => hfeed ?_) hkind
      have htext : '\n' ∈ cs.dropWhile isBlank := by
        rw [← scan_append found]
        exact List.mem_append_right text hmem
      exact (List.dropWhile_sublist isBlank).subset htext

theorem insideQuotes_of_toList
    {s : String}
    (h : s.toList = '"' :: (inside ++ ['"'])) :
    insideQuotes s = inside := by
  simp [insideQuotes, h]

/-- A quoted token is read exactly if turns come to the end, as the string that they write. -/
theorem constant_quoted_eq_ok_iff
    {c : Constant}
    {left : List Token}
    (hkind : t.kind = .quoted)
    (haligned : Aligned (insideQuotes t.text)) :
    constant (t :: ts) = .ok (c, left) ↔
      ∃ written, Leaves (insideQuotes t.text) written [] ∧
        c = .string (String.ofList written) ∧ left = ts := by
  rw [constant_of_quoted hkind]
  simp only [← Text.Quoted.decode_eq_ok_iff haligned]
  cases decode (insideQuotes t.text) with
  | ok s =>
      simp [eq_comm]
  | error e =>
      simp

/-- A quoted token is refused exactly if turns come to a bad escape, for that one. -/
theorem constant_quoted_eq_error_iff
    {complaint : Complaint}
    (hkind : t.kind = .quoted)
    (haligned : Aligned (insideQuotes t.text)) :
    constant (t :: ts) = .error complaint ↔
      ∃ written rest e, Leaves (insideQuotes t.text) written rest ∧ Refused rest e ∧
        complaint = .invalidEscape e := by
  have herror := fun e => @Text.Quoted.decode_eq_error_iff _ e haligned
  rw [constant_of_quoted hkind]
  constructor
  · intro h
    cases hdecode : decode (insideQuotes t.text) with
    | ok s =>
        rw [hdecode] at h
        cases h
    | error e =>
        rw [hdecode] at h
        cases h
        obtain ⟨written, rest, hleaves, hrefused⟩ := (herror e).1 hdecode
        exact ⟨written, rest, e, hleaves, hrefused, rfl⟩
  · rintro ⟨written, rest, e, hleaves, hrefused, rfl⟩
    rw [(herror e).2 ⟨written, rest, hleaves, hrefused⟩]

/--
A quoted token of a listing is its inside between two quotes. However many turns of decoding
were taken, what is left of the inside is a row of plain characters and pairs. The token is read
as the string that the turns write if they come to the end, and refused for a letter that no
escape has, or for characters after a `u` that are no code, if they come to such an escape; it
is never refused for a backslash without a letter.
-/
theorem quoted_decodes
    {source : String}
    (hline : line ∈ Text.lines source.toList)
    (hyields : Yields line t)
    (hkind : t.kind = .quoted) :
    t.text.toList = '"' :: (insideQuotes t.text ++ ['"']) ∧
      (∀ written rest, Leaves (insideQuotes t.text) written rest → Aligned rest) ∧
      (∀ ts c rest, constant (t :: ts) = .ok (c, rest) ↔
        ∃ written, Leaves (insideQuotes t.text) written [] ∧
          c = .string (String.ofList written) ∧ rest = ts) ∧
      (∀ ts complaint, constant (t :: ts) = .error complaint ↔
        ∃ written rest e, Leaves (insideQuotes t.text) written rest ∧ Refused rest e ∧
          complaint = .invalidEscape e) ∧
      decode (insideQuotes t.text) ≠ .error .dangling := by
  obtain ⟨inside, htext, haligned⟩ := hyields.quoted (Text.noFeed_of_mem_lines hline) hkind
  have hinside := insideQuotes_of_toList htext
  rw [← hinside] at htext haligned
  exact ⟨htext, fun _ _ hleaves => hleaves.aligned haligned,
    fun _ _ _ => constant_quoted_eq_ok_iff hkind haligned,
    fun _ _ => constant_quoted_eq_error_iff hkind haligned,
    Text.Quoted.decode_ne_dangling haligned⟩

/-- A quoted token with a code, in which there is a plus sign, and an escaped backslash. -/
def codedToken : Token :=
  ⟨.quoted, "\"\\u+041\\\\\""⟩

/-- The code is taken as a whole, and the pair behind it is a pair still. -/
theorem quoted_decodes_coded :
    Yields ("ldc " ++ codedToken.text).toList codedToken ∧
      Leaves (insideQuotes codedToken.text) ['A'] ['\\', '\\'] ∧
      Aligned ['\\', '\\'] ∧
      Leaves (insideQuotes codedToken.text) ['A', '\\'] [] := by
  have htokens : tokenize ("ldc " ++ codedToken.text).toList =
      .ok [⟨.word, "ldc"⟩, codedToken] := by
    decide +kernel
  have hyields := (mem_tokenize_iff htokens).1 (List.mem_cons_of_mem _ List.mem_cons_self)
  have hline : ("ldc " ++ codedToken.text).toList ∈
      Text.lines ("ldc " ++ codedToken.text).toList := by
    decide +kernel
  have hinside : insideQuotes codedToken.text =
      ['\\', 'u', '+', '0', '4', '1', '\\', '\\'] := by
    decide +kernel
  have hcode : Leaves (insideQuotes codedToken.text) ['A'] ['\\', '\\'] := by
    rw [hinside]
    exact .turn .start (@Text.Quoted.Turn.code ['+', '0', '4', '1'] _ 'A' ⟨rfl, by decide⟩)
  obtain ⟨_, haligned, hread, _, _⟩ := quoted_decodes hline hyields rfl
  obtain ⟨written, hleaves, hwritten, _⟩ :=
    (hread [] (.string (String.ofList ['A', '\\'])) []).1 (by decide +kernel)
  cases String.ofList_injective (Constant.string.inj hwritten)
  exact ⟨hyields, hcode, haligned _ _ hcode, hleaves⟩

end Listing
end SlotFlow
