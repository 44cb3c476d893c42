import SlotFlow.Proofs.Descriptor.Grammar
import SlotFlow.Machine

/-!
# Elements of arrays

An array is named by its descriptor, a class by its internal name. The descriptor of an array
of classes holds the name between `L` and `;`, that of an array of arrays holds the
descriptor of the inner one as it is. Taking an element undoes either.

Main definitions:

* `IsClassName`, `IsArrayName`: names of classes and of arrays;
* `bracketed`: the name of an array of some dimension.

Main statements:

* `IsArrayName.exists_bracketed`: an array has dimensions and a type that is no array;
* `Machine.elementCategory_arrayOf`: an element of an array is what the array was made of;
* `Machine.elementCategory_array`, `Machine.elementCategory_class`: an element of an array
  of arrays and of an array of classes;
* `Machine.elementCategory_other`: an element of what is no array.
-/

namespace SlotFlow

open FieldType (parse_eq_some_iff)

/-- A class, by its internal name. -/
structure IsClassName
    (name : String) : Prop where
  nonempty : name.toList ≠ []
  plain : ';' ∉ name.toList
  noBracket : name.toList.head? ≠ some '['

/-- An array, by its descriptor. -/
structure IsArrayName
    (name : String) : Prop where
  word : FieldWord name.toList
  bracket : name.toList.head? = some '['

/-- The name of an array that has some number of dimensions over a type. -/
def bracketed
    (dimensions : Nat)
    (base : List Char) :
    String :=
  String.ofList (List.replicate dimensions '[' ++ base)

theorem fieldWord_replicate
    {base : List Char}
    (h : FieldWord base)
    (dimensions : Nat) :
    FieldWord (List.replicate dimensions '[' ++ base) := by
  induction dimensions with
  | zero =>
      exact h
  | succ dimensions ih =>
      exact .array ih

/-- A type is some brackets and a type that has none. -/
theorem FieldWord.exists_replicate
    {word : List Char}
    (h : FieldWord word) :
    ∃ dimensions base, FieldWord base ∧ base.head? ≠ some '[' ∧
      word = List.replicate dimensions '[' ++ base := by
  induction h with
  | @primitive letter hletter =>
      refine ⟨0, _, .primitive hletter, ?_, rfl⟩
      rintro h
      cases h
      exact absurd hletter (by decide)
  | object nonempty plain =>
      exact ⟨0, _, .object nonempty plain, by simp, rfl⟩
  | array _ ih =>
      obtain ⟨dimensions, base, hbase, hplain, rfl⟩ := ih
      exact ⟨dimensions + 1, base, hbase, hplain, rfl⟩

/-- The text of a class falls apart into its marks and a name that can be written. -/
theorem FieldWord.name
    {name : List Char}
    (h : FieldWord ('L' :: (name ++ [';']))) :
    name ≠ [] ∧ ';' ∉ name := by
  generalize hword : 'L' :: (name ++ [';']) = word at h
  cases h with
  | primitive =>
      simp at hword
  | @object other nonempty plain =>
      simp only [List.cons.injEq, List.append_cancel_right_eq, true_and] at hword
      rw [hword]
      exact ⟨nonempty, plain⟩
  | array =>
      simp at hword

theorem parse_array_word
    {word : List Char}
    (h : FieldWord word) :
    FieldType.parse? (String.ofList ('[' :: word)) =
      some (.array (String.ofList ('[' :: word))) := by
  refine parse_eq_some_iff.2 ⟨⟨?_, ?_⟩, rfl⟩
  · rw [String.toList_ofList]
    exact .array h
  · rw [String.toList_ofList]
    rfl

theorem parse_class_word
    {name : List Char}
    (nonempty : name ≠ [])
    (plain : ';' ∉ name) :
    FieldType.parse? (String.ofList ('L' :: (name ++ [';']))) =
      some (.object (String.ofList name)) := by
  refine parse_eq_some_iff.2 ⟨⟨?_, ?_⟩, ?_⟩
  · rwa [String.toList_ofList]
  · rwa [String.toList_ofList]
  · apply String.toList_injective
    simp [FieldType.descriptor]

/-- The element of an array is the type that its descriptor has behind the bracket. -/
theorem parse_bind_element
    {word : List Char}
    (h : FieldWord word) :
    (FieldType.parse? (String.ofList ('[' :: word))).bind FieldType.element? =
      FieldType.parse? (String.ofList word) := by
  rw [parse_array_word h, Option.bind_some, FieldType.element?, String.toList_ofList]
  rfl

/-- The bracket of an array and the text of its elements. -/
theorem IsArrayName.exists_word
    {name : String}
    (h : IsArrayName name) :
    ∃ word, FieldWord word ∧ name = String.ofList ('[' :: word) := by
  obtain ⟨tail, htail⟩ := List.head?_eq_some_iff.1 h.bracket
  have hword := h.word
  rw [htail] at hword
  have hname : name = String.ofList ('[' :: tail) := by
    rw [← htail, String.ofList_toList]
  cases hword with
  | primitive letter =>
      exact absurd letter (by decide)
  | array element =>
      exact ⟨tail, element, hname⟩

/-- The dimensions of an array and the type that is behind all brackets. -/
theorem IsArrayName.exists_bracketed
    {name : String}
    (h : IsArrayName name) :
    ∃ dimensions base, 0 < dimensions ∧ FieldWord base ∧ base.head? ≠ some '[' ∧
      name = bracketed dimensions base := by
  obtain ⟨word, hword, rfl⟩ := h.exists_word
  obtain ⟨dimensions, base, hbase, hplain, rfl⟩ := hword.exists_replicate
  exact ⟨dimensions + 1, base, Nat.succ_pos _, hbase, hplain, rfl⟩

/-- For the name of an array as a descriptor, the array is pushed. -/
theorem IsArrayName.pushedType
    {name : String}
    (h : IsArrayName name) :
    pushedType? name = some (some (.array name)) := by
  obtain ⟨word, hword, rfl⟩ := h.exists_word
  have hparse := parse_array_word hword
  rw [pushedType?, not_isMethodDescriptor hparse, hparse]
  rfl

namespace Machine

/-- Of an array of arrays an element is an array, with one bracket less. -/
theorem elementCategory_array
    {word : List Char}
    (h : FieldWord word) :
    elementCategory (.object (String.ofList ('[' :: '[' :: word))) =
      .object (String.ofList ('[' :: word)) := by
  rw [elementCategory, parse_bind_element (.array h), parse_array_word h]
  rfl

/-- Of an array of objects an element is named by its class. -/
theorem elementCategory_class
    {name : List Char}
    (nonempty : name ≠ [])
    (plain : ';' ∉ name) :
    elementCategory (.object (String.ofList ('[' :: 'L' :: (name ++ [';'])))) =
      .object (String.ofList name) := by
  rw [elementCategory, parse_bind_element (.object nonempty plain),
    parse_class_word nonempty plain]
  rfl

/-- Of an array that was made of a class or of arrays, an element is what it was made of. -/
theorem elementCategory_arrayOf
    {name : String}
    (h : IsClassName name ∨ IsArrayName name) :
    elementCategory (.object (arrayOf name)) = .object name := by
  rcases h with h | h
  · have hname : arrayOf name = String.ofList ('[' :: 'L' :: (name.toList ++ [';'])) := by
      rw [arrayOf, if_neg h.noBracket]
      apply String.toList_injective
      simp
    rw [hname, elementCategory_class h.nonempty h.plain, String.ofList_toList]
  · obtain ⟨word, hword, rfl⟩ := h.exists_word
    have hname : arrayOf (String.ofList ('[' :: word)) = String.ofList ('[' :: '[' :: word) := by
      rw [arrayOf, if_pos h.bracket]
      apply String.toList_injective
      simp
    rw [hname, elementCategory_array hword]

/-- What is no array has any objects for elements. -/
theorem elementCategory_other
    {category : Category}
    (h : ∀ name, category = .object name → ¬ IsArrayName name) :
    elementCategory category = .object objectClass := by
  cases category with
  | object name =>
      rw [elementCategory]
      split
      · rename_i type helement
        obtain ⟨whole, hwhole, hsome⟩ := Option.bind_eq_some_iff.1 helement
        have hword := FieldType.isSome_parse_iff.1 (Option.isSome_of_eq_some hwhole)
        cases whole with
        | array d =>
            obtain ⟨tail, htail⟩ := FieldType.parse_array hwhole
            exact absurd ⟨hword, by rw [htail]; rfl⟩ (h name rfl)
        | _ =>
            cases hsome
      · rfl
  | _ =>
      rfl

end Machine
end SlotFlow
