import Mathlib.Data.List.Basic
import SlotFlow.Descriptor

/-!
# What descriptors say

Main statements:

* `take_descriptor`, `parse_descriptor`: a type that was read has the text it was read
  from as its descriptor;
* `name_of_element`: what the name of an array is that has elements of a type;
* `slots_of_parse`: what a call takes off the stack and puts on it.
-/

namespace SlotFlow
namespace FieldType

variable {cs rest : List Char} {type : FieldType}

theorem takeName_descriptor
    (h : takeName? cs = some (type, rest)) :
    'L' :: cs = type.descriptor.toList ++ rest := by
  unfold takeName? at h
  simp only at h
  split at h
  · cases h
  · rename_i c after hdrop
    have hsemicolon : c = ';' := by
      have hhead := List.head?_dropWhile_not (· ≠ ';') cs
      rw [hdrop] at hhead
      simpa using hhead
    have hsplit : cs.takeWhile (· ≠ ';') ++ c :: after = cs := by
      rw [← hdrop]
      exact List.takeWhile_append_dropWhile
    split at h
    · cases h
    · cases h
      rw [descriptor, String.toList_append, String.toList_append, String.toList_ofList]
      conv_lhs => rw [← hsplit, hsemicolon]
      simp

theorem letter_descriptor
    {c : Char}
    (h : ofLetter? c = some type) :
    type.descriptor.toList = [c] := by
  unfold ofLetter? at h
  split at h <;> cases h <;> rfl

/-- What was read from the front of a text is the descriptor of the type. -/
theorem take_descriptor
    (h : take? cs = some (type, rest)) :
    cs = type.descriptor.toList ++ rest := by
  induction cs generalizing type with
  | nil =>
      cases h
  | cons c cs ih =>
      rw [take?] at h
      split at h
      · rename_i hbracket
        obtain ⟨⟨element, after⟩, hinner, heq⟩ := Option.map_eq_some_iff.1 h
        cases heq
        rw [hbracket, ih hinner, descriptor, String.toList_append]
        rfl
      · split at h
        · rename_i hclass
          rw [hclass]
          exact takeName_descriptor h
        · obtain ⟨_, hletter, heq⟩ := Option.map_eq_some_iff.1 h
          cases heq
          rw [letter_descriptor hletter]
          rfl

/-- The descriptor of a type that was read is the text it was read from. -/
theorem parse_descriptor
    {text : String}
    (h : parse? text = some type) :
    text = type.descriptor := by
  unfold parse? at h
  split at h
  · rename_i other htake
    cases h
    have hlist := take_descriptor htake
    rw [List.append_nil] at hlist
    exact String.toList_injective hlist
  · cases h

/-- Only texts that start with a bracket are read as arrays. -/
theorem parse_array
    {text d : String}
    (h : parse? text = some (.array d)) :
    ∃ tail, text.toList = '[' :: tail := by
  unfold parse? at h
  split at h
  · rename_i htake
    cases h
    generalize text.toList = cs at htake
    cases cs with
    | nil =>
        cases htake
    | cons c cs =>
        rw [take?] at htake
        split at htake
        · rename_i hbracket
          exact ⟨cs, by rw [hbracket]⟩
        · split at htake
          · unfold takeName? at htake
            simp only at htake
            split at htake
            · cases htake
            · split at htake <;> cases htake
          · obtain ⟨type, hletter, heq⟩ := Option.map_eq_some_iff.1 htake
            cases heq
            unfold ofLetter? at hletter
            split at hletter <;> cases hletter
  · cases h

/-- The name of an array is a bracket before the descriptor of its elements. -/
theorem name_of_element
    {name : String}
    (h : (parse? name).bind element? = some type) :
    name = "[" ++ type.descriptor := by
  obtain ⟨whole, hwhole, helement⟩ := Option.bind_eq_some_iff.1 h
  cases whole with
  | array d =>
      have hname : name = d := parse_descriptor hwhole
      obtain ⟨tail, htail⟩ := parse_array hwhole
      have hrest : String.ofList (d.toList.drop 1) = type.descriptor :=
        parse_descriptor helement
      rw [← hname, htail, List.drop_succ_cons, List.drop_zero] at hrest
      apply String.toList_injective
      rw [htail, String.toList_append, ← hrest]
      simp
  | _ =>
      cases helement

end FieldType

theorem take_of_parenthesis
    (cs : List Char) :
    FieldType.take? ('(' :: cs) = none :=
  rfl

/-- A field descriptor is not read as a method's. -/
theorem not_isMethodDescriptor
    {descriptor : String}
    {type : FieldType}
    (h : FieldType.parse? descriptor = some type) :
    isMethodDescriptor descriptor = false := by
  by_cases hhead : isMethodDescriptor descriptor = true
  · simp only [isMethodDescriptor, beq_iff_eq, List.head?_eq_some_iff] at hhead
    obtain ⟨cs, hcs⟩ := hhead
    rw [FieldType.parse?, hcs, take_of_parenthesis] at h
    cases h
  · simpa using hhead

theorem isMethodDescriptor_of_parse
    {descriptor : String}
    {d : MethodDescriptor}
    (h : MethodDescriptor.parse? descriptor = some d) :
    isMethodDescriptor descriptor = true := by
  unfold MethodDescriptor.parse? at h
  split at h
  · rename_i cs hcs
    simp [isMethodDescriptor, hcs]
  · cases h

/-- What a call takes off the stack and puts on it, by the descriptor of its method. -/
theorem slots_of_parse
    {descriptor : String}
    {d : MethodDescriptor}
    (h : MethodDescriptor.parse? descriptor = some d) :
    poppedSlots? descriptor = some d.argumentSize ∧ pushedType? descriptor = some d.result := by
  have hmethod := isMethodDescriptor_of_parse h
  simp [poppedSlots?, pushedType?, hmethod, h]

/-- The descriptor of methods without parameters and result. -/
theorem MethodDescriptor.parse_empty :
    parse? "()V" = some ⟨[], none⟩ := by
  have htake : takeParameters? [')', 'V'] = some ([], ['V']) := by
    rw [takeParameters?]
    rfl
  have htext : "()V".toList = ['(', ')', 'V'] := rfl
  rw [parse?, htext]
  simp only [htake]
  rfl

end SlotFlow
