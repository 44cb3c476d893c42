import SlotFlow.Proofs.Frame.Success
import SlotFlow.Proofs.Machine.EffectAccount

/-!
# Calls that are carried out

A call that succeeds has taken its arguments and its receiver off the stack, has completed
the objects that it has constructed, and has pushed its result.

Main definitions:

* `Machine.completed`, `Receiver.change`: what becomes of a slot in a call;
* `Machine.withFrame`: a machine with another frame.

Main statements:

* `completed_eq_or`, `change_eq_or`: slots are kept, or their objects completed;
* `popReceiver_eq_ok`: what popping a receiver leaves;
* `perform_call_eq_ok`: what a call leaves.
-/

namespace SlotFlow

namespace Machine

/-- What becomes of a slot when the constructor of an object was called. -/
def completed
    (m : Machine)
    (old : Value)
    (callOwner : String)
    (v : Value) :
    Value :=
  match m.constructedType? old.category callOwner with
  | some type => if v = old then .unknownObject type else v
  | none => v

end Machine

/-- What becomes of a slot in a call whose receiver is on top of a stack. -/
def Receiver.change
    (m : Machine)
    (stack : List Value) :
    Receiver → Value → Value
  | constructed owner =>
      match stack with
      | v :: _ => m.completed v owner
      | [] => id
  | _ => id

namespace Machine

variable {m n : Machine}

/-- The machine with another frame. -/
def withFrame
    (m : Machine)
    (f : Frame) :
    Machine :=
  { m with frame := f }

@[simp] theorem withFrame_frame
    (m : Machine)
    (f : Frame) :
    (m.withFrame f).frame = f := by
  rfl

@[simp] theorem withFrame_withFrame
    (m : Machine)
    (f g : Frame) :
    (m.withFrame f).withFrame g = m.withFrame g := by
  rfl

/-- What a call makes of a slot does not depend on the frame. -/
@[simp] theorem change_withFrame
    (m : Machine)
    (f : Frame)
    (stack : List Value)
    (receiver : Receiver) :
    receiver.change (m.withFrame f) stack = receiver.change m stack := by
  rfl

theorem underConstruction_of_constructedType
    {category : Category}
    {callOwner type : String}
    (h : m.constructedType? category callOwner = some type) :
    category.isUnderConstruction = true := by
  cases category <;> first | rfl | cases h

/-- When a constructor was called a slot is kept, or it is a copy of the receiver. -/
theorem completed_eq_or
    (m : Machine)
    (old v : Value)
    (callOwner : String) :
    m.completed old callOwner v = v ∨
      v = old ∧ old.category.isUnderConstruction = true ∧
        ∃ type, m.completed old callOwner v = .unknownObject type := by
  unfold completed
  split
  · rename_i type htype
    split
    · rename_i hcopy
      exact .inr ⟨hcopy, underConstruction_of_constructedType htype, type, rfl⟩
    · exact .inl rfl
  · exact .inl rfl

/-- A call leaves a slot as it is, or completes an object that is under construction. -/
theorem change_eq_or
    (m : Machine)
    (stack : List Value)
    (receiver : Receiver)
    (v : Value) :
    receiver.change m stack v = v ∨
      v.category.isUnderConstruction = true ∧
        ∃ type, receiver.change m stack v = .unknownObject type := by
  cases receiver with
  | none | object =>
      exact .inl rfl
  | constructed owner =>
      cases stack with
      | nil =>
          exact .inl rfl
      | cons old rest =>
          rcases completed_eq_or m old v owner with hkept | ⟨rfl, hunder, hobject⟩
          · exact .inl hkept
          · exact .inr ⟨hunder, hobject⟩

theorem onFrame_eq_ok
    {α : Type}
    {act : FrameM α}
    {a : α}
    (h : onFrame act m = (.ok a, n)) :
    ∃ g, act m.frame = (.ok a, g) ∧ n = m.withFrame g := by
  unfold onFrame at h
  rcases hact : act m.frame with ⟨e | b, g⟩
  · rw [hact] at h
    cases h
  · rw [hact] at h
    cases h
    exact ⟨g, rfl, rfl⟩

/-- Every slot becomes what the call of the constructor makes of it. -/
theorem completeConstruction_eq
    (v : Value)
    (callOwner : String)
    (m : Machine) :
    completeConstruction v callOwner m =
      (.ok (), m.withFrame { m.frame with
        locals := m.frame.locals.map (m.completed v callOwner)
        stack := m.frame.stack.map (m.completed v callOwner) }) := by
  unfold completeConstruction completed
  cases m.constructedType? v.category callOwner with
  | some type =>
      rfl
  | none =>
      simp only [List.map_id']
      rfl

/-- A receiver is popped, and every slot becomes what the call makes of it. -/
theorem popReceiver_eq_ok
    {receiver : Receiver}
    (h : popReceiver receiver m = (.ok (), n)) :
    ∃ g, n = m.withFrame g ∧ receiver.popped ≤ m.frame.stack.length ∧
      g.locals = m.frame.locals.map (receiver.change m m.frame.stack) ∧
      g.stack =
        (m.frame.stack.drop receiver.popped).map (receiver.change m m.frame.stack) := by
  cases receiver with
  | none =>
      cases h
      exact ⟨m.frame, rfl, Nat.zero_le _, (List.map_id _).symm, (List.map_id _).symm⟩
  | object =>
      obtain ⟨v, mid, hfirst, hrest⟩ := exists_of_bind_eq_ok h
      obtain ⟨g, hpop, rfl⟩ := onFrame_eq_ok hfirst
      cases hrest
      obtain ⟨_, hexchanged⟩ := Frame.pop_exchanged hpop
      refine ⟨g, rfl, hexchanged.enough, ?_, ?_⟩
      · rw [hexchanged.locals]
        exact (List.map_id _).symm
      · rw [hexchanged.stack]
        exact (List.map_id _).symm
  | constructed owner =>
      obtain ⟨v, mid, hfirst, hrest⟩ := exists_of_bind_eq_ok h
      obtain ⟨g, hpop, rfl⟩ := onFrame_eq_ok hfirst
      rw [completeConstruction_eq, withFrame_withFrame] at hrest
      cases hrest
      obtain ⟨hhead, hexchanged⟩ := Frame.pop_exchanged hpop
      obtain ⟨rest, hstack⟩ := List.head?_eq_some_iff.1 hhead
      have hchange : (m.withFrame g).completed v owner =
          (Receiver.constructed owner).change m m.frame.stack := by
        rw [hstack]
        rfl
      rw [hchange]
      refine ⟨_, rfl, hexchanged.enough, ?_, ?_⟩
      · rw [withFrame_frame, hexchanged.locals]
      · rw [withFrame_frame, hexchanged.stack]
        rfl

/-- What a call leaves. -/
theorem perform_call_eq_ok
    {receiver : Receiver}
    {descriptor : String}
    (h : perform (.call receiver descriptor) m = (.ok (), n)) :
    ∃ count type, poppedSlots? descriptor = some count ∧
      pushedType? descriptor = some type ∧
      count + receiver.popped ≤ m.frame.stack.length ∧
      n.frame.locals =
        m.frame.locals.map (receiver.change m (m.frame.stack.drop count)) ∧
      n.frame.stack =
        Frame.loadedCells none type ++
          (m.frame.stack.drop (count + receiver.popped)).map
            (receiver.change m (m.frame.stack.drop count)) := by
  obtain ⟨_, first, hfirst, hrest⟩ := exists_of_bind_eq_ok h
  obtain ⟨_, second, hsecond, hlast⟩ := exists_of_bind_eq_ok hrest
  obtain ⟨f, hpop, rfl⟩ := onFrame_eq_ok hfirst
  obtain ⟨g, rfl, henough, hlocals, hstack⟩ := popReceiver_eq_ok hsecond
  obtain ⟨_, hpush, rfl⟩ := onFrame_eq_ok hlast
  obtain ⟨count, hcount, harguments⟩ := Frame.popDescriptor_exchanged hpop
  obtain ⟨type, htype, hresult⟩ := Frame.pushDescriptor_exchanged hpush
  have hf : f.stack = m.frame.stack.drop count := harguments.stack
  simp only [withFrame_frame, change_withFrame, hf] at henough hlocals hstack hresult ⊢
  refine ⟨count, type, hcount, htype, ?_, ?_, ?_⟩
  · have hpopped := harguments.enough
    rw [List.length_drop] at henough
    omega
  · rw [hresult.locals, hlocals, harguments.locals]
  · rw [hresult.stack, List.drop_zero, hstack, List.drop_drop]

end Machine
end SlotFlow
