import SlotFlow.Proofs.Descriptor
import SlotFlow.Proofs.Machine.Literals
import SlotFlow.Proofs.Machine.Settled

/-!
# Whole values stay whole

On a paired stack that holds the operands an instruction demands, the instruction finds
them, folds them, and leaves a paired stack.

Main definitions:

* `Record.Verified`: records that a frame has the operands for.

Main statements:

* `slots_whole`: an instruction pushes whole values;
* `execute_verified`: a step with the right operands.
-/

namespace SlotFlow

theorem resultSlots_whole
    (type : Option FieldType) :
    wholeSlots (resultSlots type) = true := by
  cases type with
  | none =>
      rfl
  | some type =>
      cases type <;> rfl

/-- The elements of an array that may hold references take one slot. -/
theorem elementCategory_slot
    {c : Category}
    (h : c.mayHoldReferences = true) :
    (Machine.elementCategory c).slot = .single := by
  cases c with
  | object name =>
      simp only [Machine.elementCategory]
      cases helement : (FieldType.parse? name).bind FieldType.element? with
      | none =>
          rfl
      | some type =>
          have hname := FieldType.name_of_element helement
          cases type with
          | long =>
              cases hname
              cases h
          | double =>
              cases hname
              cases h
          | _ =>
              rfl
  | _ =>
      rfl

theorem element_whole
    {f : Frame}
    (h : Holds [.int, .references] f.stack) :
    wholeSlots (Effect.element.slots f) = true := by
  have harray : (Locals.read f.stack 1).category.mayHoldReferences = true := by
    rw [← Nat.add_zero 1, ← Frame.read_drop]
    exact h.tail.head
  rw [Effect.slots, elementCategory_slot harray]
  rfl

/-- Copying slots of whole values in an order that keeps them whole. -/
theorem shuffle_whole
    {f : Frame}
    {forms : List (List Operand)}
    {form : List Operand}
    {count : Nat}
    {order : List Nat}
    (hform : form ∈ forms)
    (h : Holds form f.stack)
    (hcount : ∀ form ∈ forms, (form.flatMap Operand.slots).length = count)
    (horder :
      ∀ form ∈ forms,
        wholeSlots (order.filterMap fun i => (form.flatMap Operand.slots)[i]?).reverse = true) :
    wholeSlots ((Effect.shuffle count order).slots f) = true := by
  have htop : (f.stack.take count).map Value.slot = form.flatMap Operand.slots := by
    rw [List.map_take, h.slots_eq, ← hcount form hform]
    exact List.take_left
  have hcells (i : Nat) :
      ((f.stack.take count)[i]?).map Value.slot = (form.flatMap Operand.slots)[i]? := by
    rw [← List.getElem?_map, htop]
  rw [Effect.slots, List.map_filterMap]
  simp only [hcells]
  exact horder form hform

/-- An opcode without operands beside it pushes whole values. -/
theorem bareEffect_whole
    {op : Opcode}
    {f : Frame}
    {form : List Operand}
    (hform : form ∈ op.forms)
    (h : Holds form f.stack) :
    wholeSlots (op.bareEffect.slots f) = true := by
  cases op with
  | aaload =>
      cases List.mem_singleton.1 hform
      exact element_whole h
  | dup | dupX1 | dupX2 | dup2 | dup2X1 | dup2X2 | swap =>
      exact shuffle_whole hform h (by decide) (by decide)
  | _ =>
      rfl

theorem integerEffect_whole
    (op : Opcode)
    (operand : Int32)
    (f : Frame) :
    wholeSlots ((integerEffect op operand).slots f) = true := by
  unfold integerEffect
  split
  · split <;> rfl
  · rfl

/-- A load pushes a whole value if the local holds what is demanded. -/
theorem slotEffect_whole
    {op : Opcode}
    {index : Nat}
    {f : Frame}
    (h : ∀ o, op.loaded? = some o → o.accepts (Locals.read f.locals index).category = true) :
    wholeSlots ((slotEffect op index).slots f) = true := by
  have hslot (o : Operand) (ho : op.loaded? = some o) :=
    Operand.slot_of_accepts (h o ho)
  unfold slotEffect
  split
  · rw [Effect.slots, Value.slot, hslot .int rfl]
    rfl
  · rw [Effect.slots, Value.slot, hslot .float rfl]
    rfl
  · rw [Effect.slots, Value.slot, hslot .reference rfl]
    rfl
  · rw [Effect.slots, Value.slot, hslot .long rfl]
    rfl
  · rw [Effect.slots, Value.slot, hslot .double rfl]
    rfl
  all_goals rfl

/-- An instruction pushes whole values. -/
theorem slots_whole
    {r : Record}
    {f : Frame}
    (h : r.Typed f) :
    wholeSlots (r.effect.slots f) = true := by
  obtain ⟨⟨form, hform, hholds⟩, hloaded⟩ := h
  cases r with
  | bare op =>
      exact bareEffect_whole hform hholds
  | integer op operand =>
      exact integerEffect_whole op operand f
  | slot op index =>
      apply slotEffect_whole
      intro o ho
      apply hloaded
      rw [Record.loaded?, ho]
      rfl
  | typed op name =>
      change wholeSlots ((typedEffect op name).slots f) = true
      unfold typedEffect
      split <;> rfl
  | field op owner name descriptor =>
      change wholeSlots ((fieldEffect op name descriptor).slots f) = true
      unfold fieldEffect
      split <;> first | rfl | exact resultSlots_whole _
  | method op owner name descriptor interface =>
      exact resultSlots_whole _
  | callSite name descriptor =>
      exact resultSlots_whole _
  | jump op target =>
      change wholeSlots ((jumpEffect op).slots f) = true
      unfold jumpEffect
      split <;> rfl
  | load c =>
      cases c <;> rfl
  | _ =>
      rfl

/-- Records that a frame holds the operands for. -/
inductive Record.Verified (f : Frame) : Record → Prop
  | label (l : Label) : Verified f (.label l)
  | frame
      (types : FrameRecord)
      (hkind : types.kind = .expanded)
      (htop : .top ∉ types.stack) :
      Verified f (.frame types)
  | instruction
      {r : Record}
      {op : Opcode}
      (hr : r.Executable op)
      (htyped : r.Typed f) :
      Verified f r

/-- The stack of a frame record that lists no empty slots is paired. -/
theorem expand_whole
    {types : List VerificationType}
    (h : .top ∉ types) :
    wholeSlots ((Frame.expand types).reverse.map Value.slot) = true := by
  induction types with
  | nil =>
      rfl
  | cons type types ih =>
      have hsplit :
          Frame.expand (type :: types) = Frame.expand [type] ++ Frame.expand types := by
        simp [Frame.expand]
      rw [List.mem_cons, not_or] at h
      rw [hsplit, List.reverse_append, List.map_append, wholeSlots_append (ih h.2)]
      cases type with
      | top =>
          exact absurd rfl h.1
      | _ =>
          rfl

theorem operands_whole
    (os : List Operand) :
    wholeSlots (os.flatMap Operand.slots) = true := by
  induction os with
  | nil =>
      rfl
  | cons o os ih =>
      have ho : wholeSlots o.slots = true := by
        cases o <;> rfl
      rw [List.flatMap_cons, wholeSlots_append ho]
      exact ih

/-- Below operands, the slots of a paired stack are those of whole values. -/
theorem Holds.rest_whole
    {os : List Operand}
    {f : Frame}
    (h : Holds os f.stack)
    (hf : f.Paired) :
    wholeSlots ((f.stack.drop (os.flatMap Operand.slots).length).map Value.slot) = true := by
  have hwhole := Frame.paired_iff.1 hf
  rwa [h.slots_eq, wholeSlots_append (operands_whole os)] at hwhole

namespace Machine

variable {m : Machine} {r : Record} {op : Opcode}

/-- A step that fails for want of room only, and else leaves a paired stack. -/
inductive StaysPaired : Except Fault Unit × Machine → Prop
  | overflow (limit : Nat) (n : Machine) : StaysPaired (.error (.stackOverflow limit), n)
  | done {n : Machine} (hn : n.frame.Paired) : StaysPaired (.ok (), n)

/-- Folding finds nothing wrong with operands of the right types. -/
theorem not_faulty
    {e : Fault}
    (htyped : r.Typed m.frame)
    (hbuilt : m.frame.Built) :
    ¬r.effect.faulty m e := by
  intro h
  cases heffect : r.effect with
  | arithmetic other signature =>
      rw [heffect] at h
      obtain ⟨rfl, hsignature⟩ := signature_of_effect heffect
      obtain ⟨form, hform, hholds⟩ := htyped.operands
      have hstack (v : Value) (hv : v ∈ m.frame.stack) : v.Built :=
        hbuilt v (List.mem_append_right _ hv)
      obtain ⟨k, hk⟩ := fold_of_typed hsignature hform hholds hstack
      have hfault : signature.fold other m.frame.stack = .error e := h.2
      rw [hk] at hfault
      cases hfault
  | _ =>
      rw [heffect] at h
      exact h.elim

/-- An instruction with the right operands. -/
theorem instruction_paired
    (hm : m.frame.Sound)
    (hreachable : m.frame.reachable = true)
    (hpaired : m.frame.Paired)
    (hr : r.Executable op)
    (htyped : r.Typed m.frame) :
    StaysPaired (execute r m) := by
  have haccount := execute_account ⟨hreachable, hm.fits⟩ hr
  have htyped' : r.Typed (m.executing op).frame := ⟨htyped.operands, htyped.loaded⟩
  obtain ⟨form, hform, hholds⟩ := htyped.operands
  have hpopped := form_popped hr hform
  rw [execute_run hr hreachable]
  unfold executeReachable
  generalize perform r.effect (m.executing op) = result at haccount
  cases haccount with
  | underflow h =>
      have hlength := hholds.length_le
      rw [hpopped] at hlength
      exact absurd h (Nat.not_lt.2 hlength)
  | fault _ he =>
      exact absurd he (not_faulty htyped' hm.built)
  | overflow _ _ =>
      exact .overflow _ _
  | @done n _ _ _ hn _ =>
      simp only
      split
      · exact .done (Frame.paired_iff.2 rfl)
      · -- Whole values were pushed on what a paired stack holds below its operands.
        apply StaysPaired.done
        rw [Frame.paired_iff]
        change wholeSlots (n.frame.stack.map Value.slot) = true
        rw [hn.stack, wholeSlots_append (slots_whole htyped'), ← hpopped]
        exact hholds.rest_whole hpaired

theorem frame_paired
    {types : FrameRecord}
    (hkind : types.kind = .expanded)
    (htop : .top ∉ types.stack) :
    StaysPaired (execute (.frame types) m) := by
  rw [execute, if_pos hkind]
  unfold onFrame Frame.resetTo
  cases hroom : m.frame.exceeded? (Frame.expand types.stack).length with
  | some limit =>
      simp only [hroom]
      exact .overflow _ _
  | none =>
      simp only [hroom]
      exact .done (Frame.paired_iff.2 (expand_whole htop))

/--
On a paired stack that holds the operands that a record demands, the record finds its
slots, folding reports no mismatch, and where the step succeeds the stack is paired
again.
-/
theorem execute_verified
    (hm : Reached m)
    (hreachable : m.frame.reachable = true)
    (hpaired : m.frame.Paired)
    (hr : Record.Verified m.frame r) :
    (∀ op, (execute r m).1 ≠ .error (.stackUnderflow op)) ∧
      (∀ op expected found,
        (execute r m).1 ≠ .error (.literalMismatch op expected found)) ∧
      ((execute r m).1 = .ok () → (execute r m).2.frame.Paired) := by
  have hstep : StaysPaired (execute r m) := by
    cases hr with
    | label l =>
        exact .done ⟨hpaired.wide, hpaired.top⟩
    | frame types hkind htop =>
        exact frame_paired hkind htop
    | instruction hr htyped =>
        exact instruction_paired hm.sound hreachable hpaired hr htyped
  generalize execute r m = result at hstep
  cases hstep with
  | overflow limit n =>
      refine ⟨?_, ?_, ?_⟩
      · intro op h
        cases h
      · intro op expected found h
        cases h
      · intro h
        cases h
  | done hn =>
      refine ⟨?_, ?_, fun _ => hn⟩
      · intro op h
        cases h
      · intro op expected found h
        cases h

/-- The long of the crowded machine is turned into an int, which stands alone. -/
theorem execute_l2i_crowded :
    (execute (.bare .l2i) crowded).1 = .ok () ∧
      (execute (.bare .l2i) crowded).2.frame.Paired := by
  have hpaired : crowded.frame.Paired := Frame.paired_iff.2 rfl
  have hholds : Holds [.long] crowded.frame.stack := .two rfl rfl rfl (.nil _)
  have htyped : Record.Typed (.bare .l2i) crowded.frame :=
    ⟨⟨[.long], List.mem_singleton.2 rfl, hholds⟩, nofun⟩
  have hr : Record.Verified crowded.frame (.bare .l2i) :=
    .instruction ⟨rfl, rfl, rfl, trivial⟩ htyped
  obtain ⟨_, _, hafter⟩ := execute_verified crowded_reached rfl hpaired hr
  exact ⟨rfl, hafter rfl⟩

end Machine
end SlotFlow
