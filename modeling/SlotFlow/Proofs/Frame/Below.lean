import Mathlib.Data.List.Forall2
import SlotFlow.Proofs.Frame.Agree
import SlotFlow.Proofs.Frame.Sound

/-!
# Knowing less

A value is below another one if it differs only in that less is known of it. Frames
are compared slot by slot.

Main definitions:

* `Value.Below`, `Frame.Below`: values and frames of which less is known;
* `Frame.Tracks`: the relation that operations keep while an instruction is executed.

Main statements:

* `Locals.write_below`: writing a local;
* `replaceAll_below`: completing a construction compares whole values, but of an object
  under construction nothing is known in either frame;
* `pop_simulates`, `push_simulates`, …: the operations on frames.
-/

namespace SlotFlow

/-- The same value, of which less may be known. -/
structure Value.Below (v w : Value) : Prop where
  category : v.category = w.category
  provenance : v.provenance = w.provenance
  literal : v.literal = .unknown ∨ v.literal = w.literal

namespace Value.Below

variable {v w : Value}

theorem refl
    (v : Value) :
    v.Below v :=
  ⟨rfl, rfl, Or.inr rfl⟩

theorem isWide
    (h : v.Below w) :
    v.isWide = w.isWide := by
  rw [Value.isWide, Value.isWide, h.category]

/-- What can be built of more can be built of less. -/
theorem built
    (h : v.Below w)
    (hw : w.Built) :
    v.Built := by
  rw [built_iff] at hw ⊢
  rw [h.category]
  rcases h.literal with hliteral | hliteral
  · rw [hliteral]
    exact admits_unknown w.category
  · rw [hliteral]
    exact hw

/-- Values of which nothing can be known are the same. -/
theorem eq_of_unknown
    (h : v.Below w)
    (hw : w.literal = .unknown) :
    v = w := by
  have hv : v.literal = w.literal := by
    rcases h.literal with hliteral | hliteral
    · rw [hliteral, hw]
    · exact hliteral
  obtain ⟨category, literal, provenance⟩ := v
  obtain ⟨_, _, _⟩ := w
  obtain ⟨rfl, rfl, _⟩ := h
  cases hv
  rfl

theorem ofLiteral
    {l k : Literal}
    (category : Category)
    (h : l = .unknown ∨ l = k) :
    (Value.ofLiteral category l).Below (Value.ofLiteral category k) := by
  refine ⟨rfl, rfl, ?_⟩
  rcases h with rfl | rfl
  · left
    simp [Value.ofLiteral]
  · right
    rfl

end Value.Below

/-- Slots of which less may be known. -/
abbrev Cells.Below
    (cs ds : List Value) :
    Prop :=
  List.Forall₂ Value.Below cs ds

namespace Cells

variable {cs ds : List Value}

theorem below_refl
    (cs : List Value) :
    Below cs cs :=
  List.forall₂_same.2 fun v _ => .refl v

theorem below_set
    {v w : Value}
    (h : Below cs ds)
    (hvw : v.Below w)
    (index : Nat) :
    Below (cs.set index v) (ds.set index w) := by
  induction h generalizing index with
  | nil =>
      exact .nil
  | cons hhead htail ih =>
      cases index with
      | zero =>
          exact .cons hvw htail
      | succ index =>
          exact .cons hhead (ih index)

theorem below_append
    {cs' ds' : List Value}
    (h : Below cs ds)
    (h' : Below cs' ds') :
    Below (cs ++ cs') (ds ++ ds') := by
  exact List.rel_append h h'

/-- The slots of one place are both there or both missing. -/
theorem below_getElem
    (h : Below cs ds)
    (index : Nat) :
    Option.Rel Value.Below cs[index]? ds[index]? := by
  induction h generalizing index with
  | nil =>
      exact .none
  | cons hhead htail ih =>
      cases index with
      | zero =>
          exact .some hhead
      | succ index =>
          simpa using ih index

/-- Both stacks are empty or both have a top. -/
theorem below_cases
    (h : Below cs ds) :
    (cs = [] ∧ ds = []) ∨
      ∃ v cs' w ds', cs = v :: cs' ∧ ds = w :: ds' ∧ v.Below w := by
  cases h with
  | nil =>
      exact Or.inl ⟨rfl, rfl⟩
  | cons hhead _ =>
      exact Or.inr ⟨_, _, _, _, rfl, rfl, hhead⟩

theorem below_filterMap
    (h : Below cs ds)
    (order : List Nat) :
    Below (order.filterMap fun i => cs[i]?) (order.filterMap fun i => ds[i]?) := by
  induction order with
  | nil =>
      exact .nil
  | cons i order ih =>
      have hi := below_getElem h i
      generalize hx : cs[i]? = x at hi
      generalize hy : ds[i]? = y at hi
      cases hi with
      | none =>
          simpa [hx, hy] using ih
      | some hvw =>
          simpa [hx, hy] using And.intro hvw ih

end Cells

namespace Locals

variable {cs ds : List Value}

theorem read_below
    (h : Cells.Below cs ds)
    (index : Nat) :
    (read cs index).Below (read ds index) := by
  have hindex := Cells.below_getElem h index
  rw [read, read]
  generalize cs[index]? = x at hindex
  generalize ds[index]? = y at hindex
  cases hindex with
  | none =>
      exact .refl .top
  | some hvw =>
      exact hvw

theorem isWideAt_below
    (h : Cells.Below cs ds)
    (index : Nat) :
    isWideAt cs index = isWideAt ds index := by
  have hindex := Cells.below_getElem h index
  rw [isWideAt, isWideAt]
  generalize cs[index]? = x at hindex
  generalize ds[index]? = y at hindex
  cases hindex with
  | none =>
      rfl
  | some hvw =>
      exact hvw.isWide

theorem pad_below
    (h : Cells.Below cs ds)
    (length : Nat) :
    Cells.Below (pad length cs) (pad length ds) := by
  rw [pad, pad, h.length_eq]
  exact Cells.below_append h (Cells.below_refl _)

/-- A write looks at categories only. -/
theorem write_below
    {v w : Value}
    (h : Cells.Below cs ds)
    (hvw : v.Below w)
    (index : Nat) :
    Cells.Below (write cs index v) (write ds index w) := by
  have hnext (cs ds : List Value) (needed : Bool) (h : Cells.Below cs ds) :
      Cells.Below (emptyNext cs index needed) (emptyNext ds index needed) := by
    unfold emptyNext
    split
    · exact Cells.below_set h (.refl .top) _
    · exact h
  have hprevious (cs ds : List Value) (h : Cells.Below cs ds) :
      Cells.Below (emptyPrevious cs index) (emptyPrevious ds index) := by
    cases index with
    | zero =>
        exact h
    | succ index =>
        rw [emptyPrevious, emptyPrevious, isWideAt_below h]
        split
        · exact Cells.below_set h (.refl .top) _
        · exact h
  have hpad := pad_below h (index + if w.isWide then 2 else 1)
  rw [write, write, hvw.isWide, isWideAt_below hpad]
  exact hprevious _ _ (hnext _ _ _ (Cells.below_set hpad hvw index))

end Locals

namespace Frame

/-- The same frame, of whose values less may be known. -/
structure Below (f g : Frame) : Prop where
  locals : Cells.Below f.locals g.locals
  stack : Cells.Below f.stack g.stack
  reachable : f.reachable = g.reachable
  maxStack : f.maxStack = g.maxStack
  maxLocals : f.maxLocals = g.maxLocals
  limit : f.limit = g.limit

/-- Frames of one instruction, one below the other, whose values can be built. -/
structure Tracks (f g : Frame) : Prop where
  below : f.Below g
  current : f.current = g.current
  built : g.Built

namespace Below

variable {f g : Frame}

theorem exceeded
    (h : f.Below g)
    (depth : Nat) :
    f.exceeded? depth = g.exceeded? depth := by
  rw [exceeded?, exceeded?, h.limit]

theorem touched
    (h : f.Below g)
    (n : Nat) :
    Frame.Below { f with maxLocals := max f.maxLocals n }
      { g with maxLocals := max g.maxLocals n } := by
  refine ⟨h.locals, h.stack, h.reachable, h.maxStack, ?_, h.limit⟩
  simp only [h.maxLocals]

theorem writeLocal
    {v w : Value}
    (h : f.Below g)
    (hvw : v.Below w)
    (index : Nat) :
    (f.writeLocal index v).Below (g.writeLocal index w) := by
  have hlocals := Locals.write_below h.locals hvw index
  refine ⟨hlocals, h.stack, h.reachable, h.maxStack, ?_, h.limit⟩
  simp only [Frame.writeLocal, h.maxLocals, hlocals.length_eq]

theorem pushed
    {v w : Value}
    (h : f.Below g)
    (hvw : v.Below w) :
    (f.pushed v).Below (g.pushed w) := by
  refine ⟨h.locals, .cons hvw h.stack, h.reachable, ?_, h.maxLocals, h.limit⟩
  simp only [Frame.pushed, h.maxStack, h.stack.length_eq]

theorem dropped
    (h : f.Below g)
    (count : Nat) :
    Frame.Below { f with stack := f.stack.drop count }
      { g with stack := g.stack.drop count } :=
  ⟨h.locals, List.forall₂_drop count h.stack, h.reachable, h.maxStack, h.maxLocals, h.limit⟩

theorem reset
    (h : f.Below g)
    (locals stack : List VerificationType) :
    (f.reset locals stack).Below (g.reset locals stack) := by
  refine ⟨Cells.below_refl _, Cells.below_refl _, rfl, ?_, ?_, h.limit⟩
  · simp only [Frame.reset, h.maxStack]
  · simp only [Frame.reset, h.maxLocals]

theorem leave
    (h : f.Below g) :
    f.leave.Below g.leave :=
  ⟨.nil, .nil, rfl, h.maxStack, h.maxLocals, h.limit⟩

theorem executing
    (h : f.Below g)
    (op : Opcode) :
    (f.executing op).Below (g.executing op) :=
  ⟨h.locals, h.stack, h.reachable, h.maxStack, h.maxLocals, h.limit⟩

end Below

/--
Replacing a value of which nothing can be known. It stands in the same slots of both
frames, although whole values are compared.
-/
theorem replaceAll_below
    {f g : Frame}
    {old : Value}
    (new : Value)
    (h : f.Below g)
    (hbuilt : g.Built)
    (hold : ∀ v : Value, v.Built → v.category = old.category → v.literal = .unknown) :
    (f.replaceAll old new).Below (g.replaceAll old new) := by
  have hreplace (v w : Value) (hvw : v.Below w) (hw : w.Built) :
      (if v = old then new else v).Below (if w = old then new else w) := by
    by_cases hcategory : w.category = old.category
    · have heq : v = w := hvw.eq_of_unknown (hold w hw hcategory)
      rw [heq]
      exact .refl _
    · have hv : v ≠ old := by
        rintro rfl
        exact hcategory hvw.category.symm
      have hw : w ≠ old := by
        rintro rfl
        exact hcategory rfl
      rw [if_neg hv, if_neg hw]
      exact hvw
  have hcells (cs ds : List Value) (hcs : Cells.Below cs ds) (hds : ∀ w ∈ ds, w.Built) :
      Cells.Below (cs.map fun v => if v = old then new else v)
        (ds.map fun v => if v = old then new else v) := by
    induction hcs with
    | nil =>
        exact .nil
    | cons hvw _ ih =>
        exact .cons (hreplace _ _ hvw (hds _ List.mem_cons_self))
          (ih fun w hw => hds w (List.mem_cons_of_mem _ hw))
  refine ⟨?_, ?_, h.reachable, h.maxStack, h.maxLocals, h.limit⟩
  · exact hcells _ _ h.locals fun w hw => hbuilt w (List.mem_append_left _ hw)
  · exact hcells _ _ h.stack fun w hw => hbuilt w (List.mem_append_right _ hw)

/-- Values that operations return on frames that track each other. -/
structure Returns (v w : Value) : Prop where
  below : v.Below w
  built : w.Built

theorem returns_refl
    {v : Value}
    (h : v.Built) :
    Returns v v :=
  ⟨.refl v, h⟩

variable {exempt : Fault → Prop}

theorem getLocal_simulates
    (index : Nat) :
    Simulates Tracks Returns exempt (getLocal index) (getLocal index) := by
  apply simulates_whenReachable fun f g h => h.below.reachable
  intro f g _ h
  have hread := Locals.read_below h.below.locals index
  have hbuilt := built_stable.read h.built index
  exact .ok ⟨h.below.touched (index + 1), h.current, h.built⟩ ⟨hread, hbuilt⟩

theorem setLocal_simulates
    {v w : Value}
    (index : Nat)
    (hvw : Returns v w) :
    Simulates Tracks (fun _ _ => True) exempt (setLocal index v) (setLocal index w) := by
  apply simulates_whenReachable fun f g h => h.below.reachable
  intro f g hreachable h
  have hbuilt := built_stable.written index h.built hreachable hvw.built
  exact .ok ⟨h.below.writeLocal hvw.below index, h.current, hbuilt⟩ trivial

theorem push_simulates
    {v w : Value}
    (hvw : Returns v w) :
    Simulates Tracks (fun _ _ => True) exempt (push v) (push w) := by
  apply simulates_whenReachable fun f g h => h.below.reachable
  intro f g hreachable h
  rw [h.below.exceeded, h.below.stack.length_eq]
  cases hroom : g.exceeded? (g.stack.length + 1) with
  | some limit =>
      exact .error h
  | none =>
      have hbuilt := built_stable.pushed h.built hreachable hvw.built hroom
      exact .ok ⟨h.below.pushed hvw.below, h.current, hbuilt⟩ trivial

theorem pushSized_simulates
    {v w : Value}
    (hvw : Returns v w) :
    Simulates Tracks (fun _ _ => True) exempt (pushSized v) (pushSized w) := by
  apply (push_simulates hvw).bind
  intro _ _ _
  rw [hvw.below.isWide]
  split
  · exact push_simulates (returns_refl .top)
  · exact simulates_pure trivial

theorem pop_simulates :
    Simulates Tracks Returns exempt pop pop := by
  apply simulates_whenReachable fun f g h => h.below.reachable
  intro f g _ h
  have hdropped := h.below.dropped 1
  have hbuilt := built_stable.dropped 1 h.built
  rcases Cells.below_cases h.below.stack with ⟨hf, hg⟩ | ⟨v, cs, w, ds, hf, hg, hvw⟩
  · simp only [hf, hg, h.current]
    exact .error h
  · have hw : w.Built := h.built w (by simp [hg])
    simp only [hf, hg, List.drop_succ_cons, List.drop_zero] at hdropped hbuilt ⊢
    exact .ok ⟨hdropped, h.current, hbuilt⟩ ⟨hvw, hw⟩

theorem popWide_simulates
    (count : Nat) :
    Simulates Tracks Returns exempt (popWide count) (popWide count) := by
  apply simulates_whenReachable fun f g h => h.below.reachable
  intro f g _ h
  cases count with
  | zero =>
      simp only [h.current]
      exact .error h
  | succ n =>
      have hdropped := h.below.dropped (n + 1)
      have hbuilt := built_stable.dropped (n + 1) h.built
      simp only [Nat.add_sub_cancel]
      rw [← List.tail_drop, ← List.tail_drop] at hdropped
      rw [← List.tail_drop] at hbuilt
      rcases Cells.below_cases (List.forall₂_drop n h.below.stack) with
        ⟨hf, hg⟩ | ⟨v, cs, w, ds, hf, hg, hvw⟩
      · simp only [hf, hg, h.current]
        exact .error h
      · have hmem : w ∈ g.stack.drop n := by
          rw [hg]
          exact List.mem_cons_self
        have hw : w.Built :=
          h.built w (List.mem_append_right _ (List.mem_of_mem_drop hmem))
        simp only [hf, hg, List.tail_cons] at hdropped hbuilt ⊢
        exact .ok ⟨hdropped, h.current, hbuilt⟩ ⟨hvw, hw⟩

theorem popMany_simulates
    (count : Nat) :
    Simulates Tracks (fun _ _ => True) exempt (popMany count) (popMany count) := by
  apply simulates_whenReachable fun f g h => h.below.reachable
  intro f g _ h
  rw [h.below.stack.length_eq]
  split
  · rw [h.current]
    exact .error h
  · exact .ok ⟨h.below.dropped count, h.current, built_stable.dropped count h.built⟩ trivial

theorem orInvalid_simulates
    {R : Frame → Frame → Prop}
    {α : Type}
    (descriptor : String)
    (read : Option α) :
    Simulates R Eq exempt (orInvalid descriptor read) (orInvalid descriptor read) := by
  cases read with
  | none =>
      exact simulates_throw _
  | some a =>
      exact simulates_pure rfl

theorem popDescriptor_simulates
    (descriptor : String) :
    Simulates Tracks (fun _ _ => True) exempt (popDescriptor descriptor)
      (popDescriptor descriptor) := by
  apply (orInvalid_simulates descriptor _).bind
  rintro count _ rfl
  exact popMany_simulates count

theorem pushDescriptor_simulates
    (descriptor : String)
    (field : Option String) :
    Simulates Tracks (fun _ _ => True) exempt (pushDescriptor descriptor field)
      (pushDescriptor descriptor field) := by
  apply (orInvalid_simulates descriptor _).bind
  rintro type _ rfl
  cases type with
  | none =>
      exact simulates_pure trivial
  | some type =>
      exact pushSized_simulates (returns_refl (Stable.loaded_built type field))

theorem resetTo_simulates
    (locals stack : List VerificationType)
    {f g : Frame}
    (h : f.Below g) :
    Agree Frame.Below (fun _ _ => True) exempt (resetTo locals stack f)
      (resetTo locals stack g) := by
  have hlocals := h.reset locals stack
  unfold resetTo
  simp only [h.exceeded]
  split
  · exact .error h
  · exact .ok hlocals trivial

/-- Slots that operations return on frames that track each other. -/
structure ReturnsAll (cs ds : List Value) : Prop where
  below : Cells.Below cs ds
  built : ∀ w ∈ ds, w.Built

theorem popCells_simulates
    (count : Nat) :
    Simulates Tracks ReturnsAll exempt (Machine.popCells count) (Machine.popCells count) := by
  induction count with
  | zero =>
      apply simulates_pure
      refine ⟨.nil, ?_⟩
      intro x hx
      cases hx
  | succ count ih =>
      apply pop_simulates.bind
      intro v w hvw
      apply ih.bind
      intro cs ds hcs
      apply simulates_pure
      refine ⟨.cons hvw.below hcs.below, ?_⟩
      intro x hx
      rcases List.mem_cons.1 hx with rfl | hx
      · exact hvw.built
      · exact hcs.built x hx

theorem pushCells_simulates
    {cs ds : List Value}
    (h : Cells.Below cs ds)
    (hbuilt : ∀ w ∈ ds, w.Built) :
    Simulates Tracks (fun _ _ => True) exempt (Machine.pushCells cs) (Machine.pushCells ds) := by
  induction h with
  | nil =>
      exact simulates_pure trivial
  | cons hvw _ ih =>
      apply (push_simulates ⟨hvw, hbuilt _ List.mem_cons_self⟩).bind
      intro _ _ _
      exact ih fun w hw => hbuilt w (List.mem_cons_of_mem _ hw)

end Frame
end SlotFlow
