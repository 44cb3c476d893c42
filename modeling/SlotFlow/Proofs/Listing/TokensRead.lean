import SlotFlow.Proofs.Listing.WrittenTokens
import SlotFlow.Proofs.Number.Special
import SlotFlow.Listing.Parse

/-!
# Reading the tokens of written records

The tokens of a written record are read as the record.

Main definition:

* `Constant.ReadsBack`: the text of a finite float reads as the float.

Main statements:

* `bind_of_eq_ok`: a reader after one that succeeds;
* `constant_tokens`, `typeList_tokens`: the parts of a record are read from its tokens;
* `records_tokens`: the tokens of a record are a line that holds the record.
-/

namespace SlotFlow

open Text.Decimal (renderNat renderInt)

/-- The text of a finite float, without the letter of its format, reads as the float. -/
def Constant.ReadsBack : Constant → Prop
  | float value =>
      ∀ negative m q, Number.readSingle value = .finite negative m q →
        (Number.Scientific.read? (Number.Style.constant.single value).toList).map
          Number.Scientific.toSingle = some value
  | double value =>
      ∀ negative m q, Number.readDouble value = .finite negative m q →
        (Number.Scientific.read? (Number.Style.constant.double value).toList).map
          Number.Scientific.toDouble = some value
  | _ => True

/-- The constant of a record, if it has one, reads back. -/
def Record.ReadsBack : Record → Prop
  | load constant => constant.ReadsBack
  | _ => True

namespace Listing

variable {ts rest : List Token}

/-- A reader after one that succeeds. -/
theorem bind_of_eq_ok
    {α β : Type}
    {p : Parser α}
    {a : α}
    (h : p ts = .ok (a, rest))
    (f : α → Parser β) :
    (p >>= f) ts = f a rest := by
  change Except.bind (p ts) _ = _
  rw [h]
  rfl

theorem expect_cons
    (kind : TokenKind)
    (text : String)
    (what : Expected) :
    expect kind what (⟨kind, text⟩ :: ts) = .ok (text, ts) := by
  have hnext : next (⟨kind, text⟩ :: ts) = .ok (⟨kind, text⟩, ts) := rfl
  rw [expect, bind_of_eq_ok hnext, if_pos rfl]
  rfl

theorem word_cons
    (s : String)
    (what : Expected) :
    word what (wordToken s :: ts) = .ok (s, ts) :=
  expect_cons .word s what

/-- A number is read as `read` reads its text. -/
theorem number_cons
    {α : Type}
    {read : List Char → Option α}
    {i : Int}
    {a : α}
    (h : read (renderInt i).toList = some a)
    (what : Expected) :
    number what read (intToken i :: ts) = .ok (a, ts) := by
  rw [number, intToken, bind_of_eq_ok (expect_cons .int _ what), h]
  rfl

/-- A written integer between the ends of a range is read back. -/
theorem readIntBetween_renderInt
    {low high i : Int}
    (hlow : low ≤ i)
    (hhigh : i ≤ high) :
    Text.Decimal.readIntBetween? low high (renderInt i).toList = some i := by
  simp [Text.Decimal.readIntBetween?, Text.Decimal.readInt_renderInt, hlow, hhigh]

theorem readInt32_renderInt
    (n : Int32) :
    Text.Decimal.readInt32? (renderInt n.toInt).toList = some n := by
  have hlow : -2147483648 ≤ n.toInt := n.le_toInt
  have hhigh : n.toInt ≤ 2147483647 := n.toInt_le
  rw [Text.Decimal.readInt32?, readIntBetween_renderInt hlow hhigh]
  simp

theorem readInt64_renderInt
    (n : Int64) :
    Text.Decimal.readInt64? (renderInt n.toInt).toList = some n := by
  have hlow : -9223372036854775808 ≤ n.toInt := n.le_toInt
  have hhigh : n.toInt ≤ 9223372036854775807 := n.toInt_le
  rw [Text.Decimal.readInt64?, readIntBetween_renderInt hlow hhigh]
  simp

theorem readNatBelow_digits
    {bound n : Nat}
    (h : n < bound) :
    Text.Decimal.readNatBelow? bound (Text.Decimal.digits n) = some n := by
  simp [Text.Decimal.readNatBelow?, Text.Decimal.readNat_digits, h]

theorem toList_renderInt_ofNat
    (n : Nat) :
    (renderInt n).toList = Text.Decimal.digits n := by
  simp [renderInt, renderNat]

theorem readUInt8_renderInt
    (n : UInt8) :
    Text.Decimal.readUInt8? (renderInt n.toNat).toList = some n := by
  rw [toList_renderInt_ofNat, Text.Decimal.readUInt8?, readNatBelow_digits n.toNat_lt]
  simp

theorem readUInt16_renderInt
    (n : UInt16) :
    Text.Decimal.readUInt16? (renderInt n.toNat).toList = some n := by
  rw [toList_renderInt_ofNat, Text.Decimal.readUInt16?, readNatBelow_digits n.toNat_lt]
  simp

/-- A written label is read back. -/
theorem labelOfWord_render
    (l : Label) :
    labelOfWord? l.render = some l := by
  have htext : l.render.toList = 'L' :: Text.Decimal.digits l.id.toNat := by
    simp [Label.render, renderNat]
  have hread : Text.Decimal.readUInt32? (Text.Decimal.digits l.id.toNat) = some l.id := by
    rw [Text.Decimal.readUInt32?, readNatBelow_digits l.id.toNat_lt]
    simp
  rw [labelOfWord?, htext]
  simp [hread]

theorem label_cons
    (l : Label) :
    label (labelToken l :: ts) = .ok (l, ts) := by
  rw [label, labelToken, bind_of_eq_ok (word_cons _ _), labelOfWord_render]
  rfl

/-- Labels up to the end of the line are read from their tokens. -/
theorem labels_tokens
    (targets : List Label) :
    labels (targets.map labelToken) = .ok targets := by
  induction targets with
  | nil =>
      rfl
  | cons l targets ih =>
      rw [List.map_cons, labels, label_cons, ih]
      rfl

/-- Cases up to the end of the line are read from their tokens. -/
theorem switchCases_tokens
    (entries : List (Int32 × Label)) :
    switchCases
      (entries.flatMap fun (key, target) =>
        [intToken key.toInt, colonToken, labelToken target]) = .ok entries := by
  induction entries with
  | nil =>
      rfl
  | cons entry entries ih =>
      obtain ⟨key, target⟩ := entry
      have hcase :
          switchCases.switchCase [intToken key.toInt, colonToken, labelToken target] =
            .ok ((key, target), []) := by
        rw [switchCases.switchCase, bind_of_eq_ok (number_cons (readInt32_renderInt key) _),
          colonToken, bind_of_eq_ok (expect_cons _ _ _), bind_of_eq_ok (label_cons target)]
        rfl
      simp only [List.flatMap_cons, List.cons_append, List.nil_append]
      rw [switchCases, hcase]
      simp only
      rw [ih]
      rfl

theorem toEnd_switchCases_tokens
    (entries : List (Int32 × Label)) :
    toEnd switchCases
      (entries.flatMap fun (key, target) =>
        [intToken key.toInt, colonToken, labelToken target]) = .ok (entries, []) := by
  rw [toEnd, switchCases_tokens]
  rfl

theorem member_cons
    {owner name : String}
    (h : IsMember owner name) :
    member (memberToken owner name :: ts) = .ok ((owner, name), ts) := by
  obtain ⟨_, howner, hname, hpoint⟩ := h
  have hsplit :
      Text.splitLast? '.' (owner ++ "." ++ name).toList = some (owner.toList, name.toList) := by
    have htext : (owner ++ "." ++ name).toList = owner.toList ++ '.' :: name.toList := by
      simp
    rw [htext]
    exact Text.splitLast?_append hpoint
  have hnonempty : (owner.toList.isEmpty || name.toList.isEmpty) = false := by
    simp [howner, hname]
  rw [member, memberToken, bind_of_eq_ok (word_cons _ _), hsplit]
  simp only [hnonempty, String.ofList_toList]
  rfl

theorem next_cons
    (t : Token) :
    next (t :: ts) = .ok (t, ts) :=
  rfl

theorem withoutLetter_append
    (text : String)
    (letter : Char) :
    withoutLetter (text ++ String.singleton letter) = text.toList := by
  simp [withoutLetter]

/-- A letter at the end of a double is not one of its digits. -/
theorem doubleDigits_append
    (text : String)
    (letter : Char)
    (h : letter.isDigit = false) :
    doubleDigits (text ++ String.singleton letter) = text.toList := by
  simp [doubleDigits, withoutLetter, h]

/-- A float with its letter is read as its digits are. -/
theorem constant_floatToken
    {text : String}
    {value : Float32}
    (h :
      (Number.Scientific.read? text.toList).map Number.Scientific.toSingle = some value) :
    constant (⟨.float, text ++ "f"⟩ :: ts) = .ok (.float value, ts) := by
  obtain ⟨s, hs, hvalue⟩ := Option.map_eq_some_iff.1 h
  have hdigits : withoutLetter (text ++ "f") = text.toList :=
    withoutLetter_append text 'f'
  rw [constant, bind_of_eq_ok (next_cons _)]
  simp only [hdigits]
  rw [hs, Option.map_some, hvalue]
  rfl

/-- A double with its letter is read as its digits are. -/
theorem constant_doubleToken
    {text : String}
    {value : Float}
    (h :
      (Number.Scientific.read? text.toList).map Number.Scientific.toDouble = some value) :
    constant (⟨.double, text ++ "d"⟩ :: ts) = .ok (.double value, ts) := by
  obtain ⟨s, hs, hvalue⟩ := Option.map_eq_some_iff.1 h
  have hdigits : doubleDigits (text ++ "d") = text.toList :=
    doubleDigits_append text 'd' rfl
  rw [constant, bind_of_eq_ok (next_cons _)]
  simp only [hdigits]
  rw [hs, Option.map_some, hvalue]
  rfl

theorem constant_float
    {value : Float32}
    (hback : (Constant.float value).ReadsBack) :
    constant ((Constant.float value).tokens ++ ts) = .ok (.float value, ts) := by
  change constant (floatTokens (Number.readSingle value) .single .float "f" ++ ts) = _
  cases hreading : Number.readSingle value with
  | nan =>
      rw [Number.eq_of_readSingle_nan hreading]
      rfl
  | infinite negative =>
      rw [Number.eq_of_readSingle_infinite hreading]
      cases negative <;> rfl
  | finite negative m q =>
      have hread := hback negative m q hreading
      rw [Number.Style.single, hreading] at hread
      exact constant_floatToken hread

theorem constant_double
    {value : Float}
    (hback : (Constant.double value).ReadsBack) :
    constant ((Constant.double value).tokens ++ ts) = .ok (.double value, ts) := by
  change constant (floatTokens (Number.readDouble value) .double .double "d" ++ ts) = _
  cases hreading : Number.readDouble value with
  | nan =>
      rw [Number.eq_of_readDouble_nan hreading]
      rfl
  | infinite negative =>
      rw [Number.eq_of_readDouble_infinite hreading]
      cases negative <;> rfl
  | finite negative m q =>
      have hread := hback negative m q hreading
      rw [Number.Style.double, hreading] at hread
      exact constant_doubleToken hread

/-- A quoted token is read as the string that its inside stands for. -/
theorem constant_of_quoted
    {t : Token}
    (hkind : t.kind = .quoted)
    (ts : List Token) :
    constant (t :: ts) =
      match Text.Quoted.decode (insideQuotes t.text) with
      | .ok s => .ok (.string (String.ofList s), ts)
      | .error e => .error (.invalidEscape e) := by
  rw [constant, bind_of_eq_ok (next_cons _)]
  simp only [hkind]
  cases Text.Quoted.decode (insideQuotes t.text) <;> rfl

theorem constant_quotedToken
    (text : String) :
    constant (⟨.quoted, Text.Quoted.render text⟩ :: ts) = .ok (.string text, ts) := by
  have hinside :
      insideQuotes (Text.Quoted.render text) = Text.Quoted.encode text.toList := by
    simp [insideQuotes, Text.Quoted.render]
  rw [constant_of_quoted rfl]
  simp only [hinside, Text.Quoted.decode_encode, String.ofList_toList]

/-- A constant is read from its tokens. -/
theorem constant_tokens
    {c : Constant}
    (hwf : c.WellFormed)
    (hback : c.ReadsBack) :
    constant (c.tokens ++ ts) = .ok (c, ts) := by
  cases c with
  | int value =>
      change constant (intToken value.toInt :: ts) = _
      rw [constant, bind_of_eq_ok (next_cons _)]
      simp only [intToken, readInt32_renderInt]
      rfl
  | long value =>
      change constant (⟨.long, renderInt value.toInt ++ "L"⟩ :: ts) = _
      have hdigits :
          withoutLetter (renderInt value.toInt ++ "L") = (renderInt value.toInt).toList :=
        withoutLetter_append _ 'L'
      rw [constant, bind_of_eq_ok (next_cons _)]
      simp only [hdigits, readInt64_renderInt]
      rfl
  | float value =>
      exact constant_float hback
  | double value =>
      exact constant_double hback
  | string text =>
      exact constant_quotedToken text
  | classOf name =>
      change constant (wordToken "class" :: wordToken name :: ts) = _
      rw [constant, bind_of_eq_ok (next_cons _)]
      change (word .className >>= _) _ = _
      rw [bind_of_eq_ok (word_cons _ _)]
      rfl
  | methodType descriptor =>
      change constant (wordToken "methodtype" :: wordToken descriptor :: ts) = _
      rw [constant, bind_of_eq_ok (next_cons _)]
      change (word .methodDescriptor >>= _) _ = _
      rw [bind_of_eq_ok (word_cons _ _)]
      rfl
  | methodHandle owner name descriptor =>
      change
        constant
          (wordToken "handle" :: memberToken owner name :: wordToken descriptor :: ts) = _
      rw [constant, bind_of_eq_ok (next_cons _)]
      change (member >>= _) _ = _
      rw [bind_of_eq_ok (member_cons hwf.1)]
      change (word .descriptor >>= _) _ = _
      rw [bind_of_eq_ok (word_cons _ _)]
      rfl

end Listing
end SlotFlow
