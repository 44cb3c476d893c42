import Mathlib.Algebra.Ring.Nat
import Mathlib.Data.List.TakeWhile
import SlotFlow.Proofs.Descriptor

/-!
# The grammar of descriptors

The text of a type is a letter, a name between `L` and `;`, or a bracket before the text of
a type. A name may hold every character but the semicolon, parentheses and brackets too, so
a method descriptor cannot be taken apart by looking for its parenthesis. It has to be read
from the front, which works because no text of a type is the beginning of another.

Main definitions:

* `FieldWord`, `ResultWord`, `MethodWord`: the texts that the grammar allows;
* `FieldType.WellFormed`, `MethodDescriptor.WellFormed`: types with names that can be written.

Main statements:

* `FieldType.exists_take_of_word`, `FieldType.wellFormed_of_take`: what is read is what the
  grammar allows;
* `FieldType.take_of_wellFormed`: a written type is read back, whatever follows it;
* `descriptor_grammar`: the same of whole descriptors, with what follows for calls.
-/

namespace SlotFlow

/-- The letters that stand for primitive types. -/
def primitiveLetters : List Char :=
  ['Z', 'B', 'C', 'S', 'I', 'F', 'J', 'D']

/-- The texts of types. -/
inductive FieldWord : List Char → Prop
  | primitive
      {c : Char}
      (letter : c ∈ primitiveLetters) :
      FieldWord [c]
  | object
      {name : List Char}
      (nonempty : name ≠ [])
      (plain : ';' ∉ name) :
      FieldWord ('L' :: (name ++ [';']))
  | array
      {word : List Char}
      (element : FieldWord word) :
      FieldWord ('[' :: word)

/-- The texts of results. -/
inductive ResultWord : List Char → Prop
  | void :
      ResultWord ['V']
  | type
      {word : List Char}
      (type : FieldWord word) :
      ResultWord word

/-- The text of a method descriptor, put together from its parameters and its result. -/
def methodText
    (words : List (List Char))
    (result : List Char) :
    List Char :=
  '(' :: (words.flatten ++ ')' :: result)

/-- The texts of method descriptors. -/
def MethodWord
    (text : List Char) :
    Prop :=
  ∃ words result, (∀ word ∈ words, FieldWord word) ∧ ResultWord result ∧
    text = methodText words result

namespace FieldType

variable {cs rest : List Char} {type : FieldType}

/-- Class names are not empty and hold no semicolon; the text of an array is that of a type. -/
def WellFormed : FieldType → Prop
  | object name => name.toList ≠ [] ∧ ';' ∉ name.toList
  | array descriptor => FieldWord descriptor.toList ∧ descriptor.toList.head? = some '['
  | _ => True

theorem isSome_ofLetter_iff
    (c : Char) :
    (ofLetter? c).isSome = true ↔ c ∈ primitiveLetters := by
  unfold ofLetter? primitiveLetters
  split <;> simp_all

theorem takeName_append
    {name : List Char}
    (hnonempty : name ≠ [])
    (hplain : ';' ∉ name)
    (rest : List Char) :
    takeName? (name ++ ';' :: rest) = some (object (String.ofList name), rest) := by
  have hall : ∀ c ∈ name, decide (c ≠ ';') = true := by
    intro c hc
    rw [decide_eq_true_eq]
    rintro rfl
    exact hplain hc
  have hname : (name ++ ';' :: rest).takeWhile (· ≠ ';') = name := by
    rw [List.takeWhile_append_of_pos hall, List.takeWhile_cons_of_neg (by simp), List.append_nil]
  have hrest : (name ++ ';' :: rest).dropWhile (· ≠ ';') = ';' :: rest := by
    rw [List.dropWhile_append_of_pos hall, List.dropWhile_cons_of_neg (by simp)]
  simp only [takeName?, hname, hrest, List.isEmpty_iff, hnonempty, if_false]

/-- The text of a type is read from the front of every text that begins with it. -/
theorem exists_take_of_word
    {word : List Char}
    (h : FieldWord word)
    (rest : List Char) :
    ∃ type, take? (word ++ rest) = some (type, rest) := by
  induction h with
  | @primitive c letter =>
      obtain ⟨type, htype⟩ := Option.isSome_iff_exists.1 ((isSome_ofLetter_iff c).2 letter)
      have hplain : c ≠ '[' ∧ c ≠ 'L' := by
        constructor <;> rintro rfl <;> exact absurd letter (by decide)
      refine ⟨type, ?_⟩
      simp [take?, hplain, htype]
  | @object name nonempty plain =>
      refine ⟨object (String.ofList name), ?_⟩
      rw [List.cons_append, List.append_assoc, List.singleton_append, take?, if_neg (by decide),
        if_pos rfl, takeName_append nonempty plain]
  | array element ih =>
      obtain ⟨type, htype⟩ := ih
      refine ⟨array ("[" ++ type.descriptor), ?_⟩
      rw [List.cons_append, take?, if_pos rfl, htype]
      rfl

/-- A type that can be written has a text that the grammar allows. -/
theorem WellFormed.word
    (h : type.WellFormed) :
    FieldWord type.descriptor.toList := by
  cases type with
  | object name =>
      rw [descriptor, String.toList_append, String.toList_append]
      exact .object h.1 h.2
  | array descriptor =>
      exact h.1
  | _ =>
      exact .primitive (by decide)

theorem wellFormed_of_takeName
    (h : takeName? cs = some (type, rest)) :
    type.WellFormed := by
  unfold takeName? at h
  simp only at h
  split at h
  · cases h
  · split at h
    · cases h
    · rename_i hnonempty
      cases h
      rw [WellFormed, String.toList_ofList]
      refine ⟨by simpa using hnonempty, ?_⟩
      intro hmem
      have hplain := List.mem_takeWhile_imp hmem
      simp at hplain

/-- A type that was read can be written. -/
theorem wellFormed_of_take
    (h : take? cs = some (type, rest)) :
    type.WellFormed := by
  induction cs generalizing type with
  | nil =>
      cases h
  | cons c cs ih =>
      rw [take?] at h
      split at h
      · obtain ⟨⟨element, after⟩, hinner, heq⟩ := Option.map_eq_some_iff.1 h
        cases heq
        rw [WellFormed, String.toList_append]
        exact ⟨.array (ih hinner).word, rfl⟩
      · split at h
        · exact wellFormed_of_takeName h
        · obtain ⟨_, hletter, heq⟩ := Option.map_eq_some_iff.1 h
          cases heq
          unfold ofLetter? at hletter
          split at hletter <;> cases hletter <;> trivial

/-- A type that can be written is read back, whatever follows it. -/
theorem take_of_wellFormed
    (h : type.WellFormed)
    (rest : List Char) :
    take? (type.descriptor.toList ++ rest) = some (type, rest) := by
  cases type with
  | object name =>
      rw [descriptor, String.toList_append, String.toList_append, List.append_assoc]
      change takeName? (name.toList ++ ';' :: rest) = _
      rw [takeName_append h.1 h.2, String.ofList_toList]
  | array descriptor =>
      obtain ⟨tail, htail⟩ := List.head?_eq_some_iff.1 h.2
      obtain ⟨type, htake⟩ := exists_take_of_word h.1 rest
      have htext : type.descriptor = descriptor :=
        String.toList_injective (List.append_cancel_right (take_descriptor htake)).symm
      -- after a bracket only arrays are read, and they keep the text that was read
      rw [FieldType.descriptor, htake]
      rw [htail, List.cons_append, take?, if_pos rfl] at htake
      obtain ⟨_, _, heq⟩ := Option.map_eq_some_iff.1 htake
      cases heq
      rw [← htext]
      rfl
  | _ =>
      rfl

/-- The types whose text is a given one: there is one at most. -/
theorem parse_eq_some_iff
    {text : String} :
    parse? text = some type ↔ type.WellFormed ∧ type.descriptor = text := by
  constructor
  · intro h
    have htext := parse_descriptor h
    unfold parse? at h
    split at h
    · rename_i htake
      cases h
      exact ⟨wellFormed_of_take htake, htext.symm⟩
    · cases h
  · rintro ⟨h, rfl⟩
    have htake := take_of_wellFormed h []
    rw [List.append_nil] at htake
    rw [parse?, htake]

theorem exists_wellFormed_of_word
    {word : List Char}
    (h : FieldWord word) :
    ∃ type : FieldType, type.WellFormed ∧ type.descriptor.toList = word := by
  obtain ⟨type, htake⟩ := exists_take_of_word h []
  exact ⟨type, wellFormed_of_take htake, (List.append_cancel_right (take_descriptor htake)).symm⟩

/-- The texts that are read are those that the grammar allows. -/
theorem isSome_parse_iff
    {text : String} :
    (parse? text).isSome = true ↔ FieldWord text.toList := by
  rw [Option.isSome_iff_exists]
  constructor
  · rintro ⟨type, htype⟩
    obtain ⟨h, rfl⟩ := parse_eq_some_iff.1 htype
    exact h.word
  · intro h
    obtain ⟨type, htype, htext⟩ := exists_wellFormed_of_word h
    exact ⟨type, parse_eq_some_iff.2 ⟨htype, String.toList_injective htext⟩⟩

end FieldType

namespace MethodDescriptor

open SlotFlow.FieldType (exists_wellFormed_of_word take_descriptor take_of_wellFormed
  wellFormed_of_take)

variable {cs after : List Char} {types : List FieldType} {text : String} {d : MethodDescriptor}

/-- All types of the descriptor can be written. -/
structure WellFormed (d : MethodDescriptor) : Prop where
  parameters : ∀ type ∈ d.parameters, type.WellFormed
  result : ∀ type ∈ d.result, type.WellFormed

/-- The text of a result. -/
def resultText
    (result : Option FieldType) :
    List Char :=
  ((result.map FieldType.descriptor).getD "V").toList

/-- The texts of types, one after the other. -/
def typeTexts
    (types : List FieldType) :
    List (List Char) :=
  types.map fun type => type.descriptor.toList

theorem toList_render
    (d : MethodDescriptor) :
    d.render.toList = methodText (typeTexts d.parameters) (resultText d.result) := by
  simp [render, methodText, typeTexts, resultText, List.flatMap_def, Function.comp_def]

/-- Parameters that can be written are read up to the parenthesis that closes them. -/
theorem takeParameters_of_wellFormed
    (h : ∀ type ∈ types, type.WellFormed)
    (after : List Char) :
    takeParameters? ((typeTexts types).flatten ++ ')' :: after) = some (types, after) := by
  induction types with
  | nil =>
      rw [takeParameters?]
      rfl
  | cons type types ih =>
      obtain ⟨htype, htypes⟩ := List.forall_mem_cons.1 h
      have htake :=
        take_of_wellFormed htype ((typeTexts types).flatten ++ ')' :: after)
      have htext : (typeTexts (type :: types)).flatten ++ ')' :: after =
          type.descriptor.toList ++ ((typeTexts types).flatten ++ ')' :: after) := by
        simp [typeTexts]
      rw [htext, takeParameters?, if_neg]
      · split
        · rename_i hnone
          rw [hnone] at htake
          cases htake
        · rename_i first rest hsome
          rw [hsome] at htake
          cases htake
          rw [ih htypes]
          rfl
      · -- no type begins with the parenthesis
        intro hclose
        obtain ⟨tail, htail⟩ := List.head?_eq_some_iff.1 hclose
        rw [htail] at htake
        cases htake

/-- Parameters that were read can be written, and make up the text with what was left. -/
theorem takeParameters_sound
    (h : takeParameters? cs = some (types, after)) :
    (∀ type ∈ types, type.WellFormed) ∧ cs = (typeTexts types).flatten ++ ')' :: after := by
  fun_induction takeParameters? cs generalizing types with
  | case1 cs hclose =>
      cases h
      obtain ⟨tail, rfl⟩ := List.head?_eq_some_iff.1 hclose
      exact ⟨List.forall_mem_nil _, rfl⟩
  | case2 cs hopen hnone =>
      cases h
  | case3 cs hopen type rest htake ih =>
      obtain ⟨⟨others, left⟩, hothers, heq⟩ := Option.map_eq_some_iff.1 h
      cases heq
      obtain ⟨htypes, hrest⟩ := ih hothers
      refine ⟨List.forall_mem_cons.2 ⟨wellFormed_of_take htake, htypes⟩, ?_⟩
      rw [take_descriptor htake, hrest]
      simp [typeTexts]

/-- The results that are read from a text: there is one at most. -/
theorem readResult_eq_some_iff
    {result : Option FieldType} :
    readResult? cs = some result ↔
      (∀ type ∈ result, type.WellFormed) ∧ resultText result = cs := by
  have hvoid : FieldType.parse? "V" = none := rfl
  unfold readResult?
  by_cases hcs : cs = ['V']
  · subst hcs
    rw [if_pos rfl, Option.some_inj]
    constructor
    · rintro rfl
      exact ⟨by simp, rfl⟩
    · rintro ⟨hresult, htext⟩
      cases result with
      | none =>
          rfl
      | some type =>
          have hparse : FieldType.parse? "V" = some type :=
            FieldType.parse_eq_some_iff.2 ⟨hresult type rfl, String.toList_injective htext⟩
          rw [hvoid] at hparse
          cases hparse
  · rw [if_neg hcs, Option.map_eq_some_iff]
    constructor
    · rintro ⟨type, hparse, rfl⟩
      obtain ⟨htype, htext⟩ := FieldType.parse_eq_some_iff.1 hparse
      refine ⟨by simpa using htype, ?_⟩
      rw [resultText, Option.map_some, Option.getD_some, htext, String.toList_ofList]
    · rintro ⟨hresult, rfl⟩
      cases result with
      | none =>
          exact absurd rfl hcs
      | some type =>
          refine ⟨type, FieldType.parse_eq_some_iff.2 ⟨hresult type rfl, ?_⟩, rfl⟩
          rw [resultText, Option.map_some, Option.getD_some, String.ofList_toList]

/-- The methods whose text is a given one: there is one at most. -/
theorem parse_eq_some_iff :
    parse? text = some d ↔ d.WellFormed ∧ d.render = text := by
  constructor
  · intro h
    unfold parse? at h
    split at h
    · rename_i cs hcs
      obtain ⟨⟨types, rest⟩, htypes, h⟩ := Option.bind_eq_some_iff.1 h
      obtain ⟨result, hresult, heq⟩ := Option.map_eq_some_iff.1 h
      cases heq
      obtain ⟨hparameters, htext⟩ := takeParameters_sound htypes
      obtain ⟨hwritten, hrest⟩ := readResult_eq_some_iff.1 hresult
      refine ⟨⟨hparameters, hwritten⟩, String.toList_injective ?_⟩
      rw [toList_render, methodText, hcs, htext, hrest]
    · cases h
  · rintro ⟨⟨hparameters, hresult⟩, rfl⟩
    have htypes := takeParameters_of_wellFormed hparameters (resultText d.result)
    have hread := readResult_eq_some_iff.2 ⟨hresult, rfl⟩
    simp only [parse?, toList_render, methodText, htypes, Option.bind_some, hread, Option.map_some]

/-- Texts of parameters and of a result are those of a method. -/
theorem exists_wellFormed_of_words
    {words : List (List Char)}
    {result : List Char}
    (hwords : ∀ word ∈ words, FieldWord word)
    (hresult : ResultWord result) :
    ∃ d : MethodDescriptor, d.WellFormed ∧ typeTexts d.parameters = words ∧
      resultText d.result = result := by
  have htypes : ∃ types : List FieldType,
      (∀ type ∈ types, type.WellFormed) ∧ typeTexts types = words := by
    induction words with
    | nil =>
        exact ⟨[], List.forall_mem_nil _, rfl⟩
    | cons word words ih =>
        obtain ⟨hword, hrest⟩ := List.forall_mem_cons.1 hwords
        obtain ⟨type, htype, rfl⟩ := exists_wellFormed_of_word hword
        obtain ⟨types, htypes, rfl⟩ := ih hrest
        exact ⟨type :: types, List.forall_mem_cons.2 ⟨htype, htypes⟩, rfl⟩
  obtain ⟨types, hparameters, htexts⟩ := htypes
  cases hresult with
  | void =>
      exact ⟨⟨types, none⟩, ⟨hparameters, by simp⟩, htexts, by simp [resultText]⟩
  | type hword =>
      obtain ⟨type, htype, htext⟩ := exists_wellFormed_of_word hword
      exact ⟨⟨types, some type⟩, ⟨hparameters, by simpa using htype⟩, htexts, htext⟩

/-- A method that can be written has a text that the grammar allows. -/
theorem WellFormed.word
    (h : d.WellFormed) :
    MethodWord d.render.toList := by
  refine ⟨typeTexts d.parameters, resultText d.result, ?_, ?_, d.toList_render⟩
  · intro word hword
    obtain ⟨type, htype, rfl⟩ := List.mem_map.1 hword
    exact (h.parameters type htype).word
  · cases hresult : d.result with
    | none =>
        exact .void
    | some type =>
        exact .type (h.result type hresult).word

/-- The texts that are read are those that the grammar allows. -/
theorem isSome_parse_iff :
    (parse? text).isSome = true ↔ MethodWord text.toList := by
  rw [Option.isSome_iff_exists]
  constructor
  · rintro ⟨d, hd⟩
    obtain ⟨h, rfl⟩ := parse_eq_some_iff.1 hd
    exact h.word
  · rintro ⟨words, result, hwords, hresult, htext⟩
    obtain ⟨d, hd, rfl, rfl⟩ := exists_wellFormed_of_words hwords hresult
    refine ⟨d, parse_eq_some_iff.2 ⟨hd, String.toList_injective ?_⟩⟩
    rw [toList_render, htext]

/-- The parameters and the result of a text are determined. -/
theorem methodText_injective
    {words others : List (List Char)}
    {result another : List Char}
    (hwords : ∀ word ∈ words, FieldWord word)
    (hothers : ∀ word ∈ others, FieldWord word)
    (hresult : ResultWord result)
    (hanother : ResultWord another)
    (h : methodText words result = methodText others another) :
    words = others ∧ result = another := by
  obtain ⟨d, hd, rfl, rfl⟩ := exists_wellFormed_of_words hwords hresult
  obtain ⟨e, he, rfl, rfl⟩ := exists_wellFormed_of_words hothers hanother
  rw [← toList_render, ← toList_render] at h
  have hparse := parse_eq_some_iff.2 ⟨hd, rfl⟩
  rw [String.toList_injective h, parse_eq_some_iff.2 ⟨he, rfl⟩] at hparse
  cases hparse
  exact ⟨rfl, rfl⟩

end MethodDescriptor

/--
A text is read as a type exactly if the grammar allows it, and the types that are read from
it are those that can be written and have it as their descriptor, of which there is one at
most. The same holds of methods. The text of a method falls into parameters and a result in
one way, reading one type leaves a shorter text, and a call takes as many slots off the
stack as its parameters have in all and leaves one result of the type that was read.
-/
theorem descriptor_grammar
    (text : String) :
    ((FieldType.parse? text).isSome = true ↔ FieldWord text.toList) ∧
      (∀ type, FieldType.parse? text = some type ↔
        type.WellFormed ∧ type.descriptor = text) ∧
      ((MethodDescriptor.parse? text).isSome = true ↔ MethodWord text.toList) ∧
      (∀ d, MethodDescriptor.parse? text = some d ↔ d.WellFormed ∧ d.render = text) ∧
      (∀ words result others another,
        (∀ word ∈ words, FieldWord word) → ResultWord result →
          (∀ word ∈ others, FieldWord word) → ResultWord another →
            methodText words result = text.toList → methodText others another = text.toList →
              words = others ∧ result = another) ∧
      (∀ cs type rest, FieldType.take? cs = some (type, rest) → rest.length < cs.length) ∧
      ∀ d, MethodDescriptor.parse? text = some d →
        poppedSlots? text = some (d.parameters.map FieldType.size).sum ∧
          pushedType? text = some d.result := by
  refine ⟨FieldType.isSome_parse_iff, fun _ => FieldType.parse_eq_some_iff,
    MethodDescriptor.isSome_parse_iff, fun _ => MethodDescriptor.parse_eq_some_iff, ?_,
    fun _ _ _ => FieldType.take_length, ?_⟩
  · intro words result others another hwords hresult hothers hanother htext hsame
    exact MethodDescriptor.methodText_injective hwords hothers hresult hanother
      (htext.trans hsame.symm)
  · intro d hd
    exact slots_of_parse hd

/-- Names may hold parentheses and brackets, which end neither a parameter nor the list. -/
theorem descriptor_grammar_parenthesised :
    let d : MethodDescriptor := ⟨[.object ")V", .array "[[L(;", .long], some (.object "[I")⟩
    MethodDescriptor.parse? "(L)V;[[L(;J)L[I;" = some d ∧
      poppedSlots? "(L)V;[[L(;J)L[I;" = some 4 := by
  intro d
  obtain ⟨_, _, _, hparse, _, _, hslots⟩ := descriptor_grammar "(L)V;[[L(;J)L[I;"
  have hclass : FieldWord ('L' :: (['('] ++ [';'])) := .object (by decide) (by decide)
  have hname : FieldWord "[[L(;".toList := .array (.array hclass)
  have hd : MethodDescriptor.parse? "(L)V;[[L(;J)L[I;" = some d := by
    refine (hparse d).2 ⟨⟨?_, ?_⟩, rfl⟩
    · intro type htype
      simp only [d, List.mem_cons, List.not_mem_nil, or_false] at htype
      rcases htype with rfl | rfl | rfl
      · exact ⟨by decide, by decide⟩
      · exact ⟨hname, rfl⟩
      · trivial
    · rintro type ⟨⟩
      exact ⟨by decide, by decide⟩
  exact ⟨hd, (hslots d hd).1⟩

end SlotFlow
