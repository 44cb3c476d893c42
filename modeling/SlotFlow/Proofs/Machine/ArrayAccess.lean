import SlotFlow.Proofs.Descriptor.Element
import SlotFlow.Proofs.Frame.Entry
import SlotFlow.Proofs.Machine.Execution
import SlotFlow.Proofs.Machine.Performed
import SlotFlow.Proofs.Machine.Succeeds

/-!
# Arrays and their elements

Instructions that create an array, and all else that brings one into a frame, leave its
descriptor as the name of an object. Loading an element reads the descriptor again and leaves
the name of the element.

Main definitions:

* `HoldsObject`: the top of the stack is an object or array of which only the type is known;
* `Brings`: the ways in which an array comes to the top of the stack;
* `Loads`: elements are loaded one from the other.

Main statements:

* `execute_aaload`: what loading one element leaves;
* `Brings.holdsObject`: what is brought has its descriptor for a name;
* `Loads.holdsArray`, `Loads.holdsClass`: what loading elements leaves, by the number of loads;
* `array_access`: creation and access agree.
-/

namespace SlotFlow

/-- A value that is popped was on top of what is left. -/
theorem Frame.stack_of_pop
    {f g : Frame}
    {v : Value}
    (hpop : Frame.pop f = (.ok v, g)) :
    f.stack = v :: g.stack := by
  obtain ⟨htop, hpopped⟩ := Frame.pop_exchanged hpop
  obtain ⟨rest, hstack⟩ := List.head?_eq_some_iff.1 htop
  rw [hpopped.stack, hstack]
  rfl

namespace Machine

variable {m n : Machine} {name : String}

/-- What an instruction leaves that succeeds by an operation on the frame. -/
theorem execute_onFrame
    {r : Record}
    {op : Opcode}
    {act : FrameM Unit}
    (hop : r.opcode? = some op)
    (heffect : perform r.effect = onFrame act)
    (hcontinues : op.endsFlow = false)
    (hreachable : m.frame.reachable = true)
    (hok : (execute r m).1 = .ok ()) :
    ∃ g, act (m.frame.executing op) = (.ok (), g) ∧ (execute r m).2.frame = g ∧
      g.reachable = true := by
  obtain ⟨next, hperform, hnext⟩ := exists_performed_of_execute hop hreachable hcontinues hok
  have hstays := perform_reachable hperform hreachable
  rw [heffect] at hperform
  obtain ⟨g, hact, rfl⟩ := onFrame_eq_ok hperform
  exact ⟨g, hact, by rw [hnext]; rfl, hstays⟩

/-- Loading an element takes the index and the array, and leaves the element. -/
theorem execute_aaload
    (hreachable : m.frame.reachable = true)
    (hok : (execute (.bare .aaload) m).1 = .ok ()) :
    ∃ index array rest,
      m.frame.stack = index :: array :: rest ∧
      (execute (.bare .aaload) m).2.frame.reachable = true ∧
      (execute (.bare .aaload) m).2.frame.stack =
        .unknown (elementCategory array.category) :: rest := by
  have hperform : perform (Record.bare .aaload).effect = onFrame (do
      let _ ← Frame.pop
      let array ← Frame.pop
      Frame.push (.unknown (elementCategory array.category))) :=
    rfl
  obtain ⟨g, hact, hframe, hstays⟩ := execute_onFrame rfl hperform rfl hreachable hok
  obtain ⟨index, first, hindex, hrest⟩ := exists_of_bind_eq_ok hact
  obtain ⟨array, second, harray, hpush⟩ := exists_of_bind_eq_ok hrest
  have hstack := Frame.stack_of_pop hindex
  rw [Frame.stack_of_pop harray] at hstack
  refine ⟨index, array, second.stack, hstack, ?_, ?_⟩
  · rw [hframe]
    exact hstays
  · rw [hframe, (Frame.push_exchanged hpush).stack]
    rfl

/-- The top of the stack is an object or array of which only the type is known. -/
structure HoldsObject
    (name : String)
    (m : Machine) : Prop where
  reachable : m.frame.reachable = true
  top : ∃ v rest, m.frame.stack = v :: rest ∧ v.category = .object name ∧ v.literal = .unknown

/-- An object without provenance is as unknown as its type leaves it. -/
theorem HoldsObject.head_eq
    (h : HoldsObject name m)
    (hplain : m.frame.stack.head?.bind Value.provenance = none) :
    m.frame.stack.head? = some (.unknownObject name) := by
  obtain ⟨⟨category, literal, provenance⟩, rest, hstack, hcategory, hliteral⟩ := h.top
  rw [hstack] at hplain ⊢
  cases hcategory
  cases hliteral
  cases hplain
  rfl

/-- The frame of a machine where an object of a type has been pushed. -/
theorem HoldsObject.of_pushed
    {f g : Frame}
    {popped : Nat}
    {v : Value}
    (hreachable : m.frame.reachable = true)
    (hframe : m.frame = g)
    (hpushed : Frame.Exchanged f popped v.cells g)
    (hcategory : v.category = .object name)
    (hliteral : v.literal = .unknown) :
    HoldsObject name m := by
  have hnarrow : v.isWide = false := by
    rw [Value.isWide, hcategory]
    rfl
  have hcells : v.cells = [v] := by
    rw [Value.cells, hnarrow]
    rfl
  refine ⟨hreachable, v, f.stack.drop popped, ?_, hcategory, hliteral⟩
  rw [hframe, hpushed.stack, hcells]
  rfl

/-- An instruction that replaces slots by an object leaves the object. -/
theorem holdsObject_of_replace
    {r : Record}
    {op : Opcode}
    {slots : Nat}
    (hop : r.opcode? = some op)
    (heffect : r.effect = .replace slots (.unknownObject name))
    (hcontinues : op.endsFlow = false)
    (hreachable : m.frame.reachable = true)
    (hok : (execute r m).1 = .ok ()) :
    HoldsObject name (execute r m).2 := by
  have hperform : perform r.effect = onFrame (do
      Frame.popMany slots
      Frame.pushSized (.unknownObject name)) := by
    rw [heffect]
    rfl
  obtain ⟨g, hact, hframe, hstays⟩ := execute_onFrame hop hperform hcontinues hreachable hok
  obtain ⟨_, mid, hpop, hpush⟩ := exists_of_bind_eq_ok hact
  have hpushed := (Frame.popMany_exchanged hpop).thenPop (Frame.pushSized_exchanged hpush)
  exact .of_pushed (hframe ▸ hstays) hframe hpushed rfl rfl

/-- An array is loaded from a local. -/
theorem holdsObject_of_aload
    {slot : UInt16}
    (hlocal : Locals.read m.frame.locals slot.toNat = .unknownObject name)
    (hreachable : m.frame.reachable = true)
    (hok : (execute (.slot .aload slot) m).1 = .ok ()) :
    HoldsObject name (execute (.slot .aload slot) m).2 := by
  have hperform : perform (Record.slot .aload slot).effect = onFrame (do
      let v ← Frame.getLocal slot.toNat
      Frame.push v
      if false then
        Frame.push .top) :=
    rfl
  obtain ⟨g, hact, hframe, hstays⟩ := execute_onFrame rfl hperform rfl hreachable hok
  obtain ⟨v, mid, hget, hrest⟩ := exists_of_bind_eq_ok hact
  obtain ⟨_, next, hpush, hnarrow⟩ := exists_of_bind_eq_ok hrest
  rw [if_neg Bool.false_ne_true] at hnarrow
  cases hnarrow
  obtain ⟨hread, _⟩ := Frame.getLocal_eq_ok hget
  have hv : v = .unknownObject name := hread.trans hlocal
  subst hv
  have hpushed : mid.Exchanged 0 (Value.unknownObject name).cells g := Frame.push_exchanged hpush
  exact .of_pushed (hframe ▸ hstays) hframe hpushed rfl rfl

/-- The value of a field that holds an array. -/
theorem holdsObject_of_field
    {op : Opcode}
    {owner field : String}
    (hop : op = .getstatic ∨ op = .getfield)
    (hname : IsArrayName name)
    (hreachable : m.frame.reachable = true)
    (hok : (execute (.field op owner field name) m).1 = .ok ()) :
    HoldsObject name (execute (.field op owner field name) m).2 := by
  have hfield : ∀ popped mid g, (m.frame.executing op).Exchanged popped [] mid →
      Frame.pushDescriptor name (some field) mid = (.ok (), g) →
      (execute (.field op owner field name) m).2.frame = g → g.reachable = true →
      HoldsObject name (execute (.field op owner field name) m).2 := by
    intro popped mid g hpop hpush hframe hstays
    obtain ⟨type, htype, hpushed⟩ := Frame.pushDescriptor_exchanged hpush
    rw [hname.pushedType] at htype
    cases htype
    exact .of_pushed (hframe ▸ hstays) hframe (hpop.thenPop hpushed) rfl rfl
  rcases hop with rfl | rfl
  · have hperform : perform (Record.field .getstatic owner field name).effect =
        onFrame (Frame.pushDescriptor name (some field)) :=
      rfl
    obtain ⟨g, hact, hframe, hstays⟩ := execute_onFrame rfl hperform rfl hreachable hok
    exact hfield 0 _ g (.refl _) hact hframe hstays
  · have hperform : perform (Record.field .getfield owner field name).effect = onFrame (do
        let _ ← Frame.pop
        Frame.pushDescriptor name (some field)) :=
      rfl
    obtain ⟨g, hact, hframe, hstays⟩ := execute_onFrame rfl hperform rfl hreachable hok
    obtain ⟨_, mid, hpop, hpush⟩ := exists_of_bind_eq_ok hact
    exact hfield 1 mid g (Frame.pop_exchanged hpop).2 hpush hframe hstays

/-- A frame record that is executed makes its types the frame. -/
theorem execute_frame_eq_ok
    {f : FrameRecord}
    (hok : (execute (.frame f) m).1 = .ok ()) :
    (execute (.frame f) m).2.frame = m.frame.reset f.locals f.stack := by
  have hexecution := execute_execution (.frame f) m
  rw [hok] at hexecution
  generalize (execute (.frame f) m).2 = next at hexecution
  cases hexecution with
  | reset =>
      rfl
  | passed haccepted | continued haccepted | ended haccepted =>
      exact absurd haccepted (Record.not_accepted_of_opcode rfl _)

/--
Ways in which the array of a name comes to the top of the stack: an instruction creates it, or
reads it from a field, a frame record has it on top of its stack, or it is loaded from a local
that is as the entry frame or a frame record has laid it out.
-/
inductive Brings (name : String) : Machine → Prop
  | multiArray
      {m : Machine}
      {dimensions : UInt8}
      (reachable : m.frame.reachable = true)
      (done : (execute (.multiArray name dimensions) m).1 = .ok ()) :
      Brings name (execute (.multiArray name dimensions) m).2
  | newarray
      {m : Machine}
      {code : Int32}
      {element : ArrayElement}
      (known : ArrayElement.ofCode? code = some element)
      (descriptor : element.arrayDescriptor = name)
      (reachable : m.frame.reachable = true)
      (done : (execute (.integer .newarray code) m).1 = .ok ()) :
      Brings name (execute (.integer .newarray code) m).2
  | anewarray
      {m : Machine}
      {element : String}
      (descriptor : arrayOf element = name)
      (reachable : m.frame.reachable = true)
      (done : (execute (.typed .anewarray element) m).1 = .ok ()) :
      Brings name (execute (.typed .anewarray element) m).2
  | field
      {m : Machine}
      {op : Opcode}
      {owner field : String}
      (reads : op = .getstatic ∨ op = .getfield)
      (reachable : m.frame.reachable = true)
      (done : (execute (.field op owner field name) m).1 = .ok ()) :
      Brings name (execute (.field op owner field name) m).2
  | parameter
      {entry m : Machine}
      {method : Method}
      {settings : Settings}
      {d : MethodDescriptor}
      {index : Nat}
      {slot : UInt16}
      (started : start method settings = .ok entry)
      (descriptor : MethodDescriptor.parse? method.descriptor = some d)
      (type : d.parameters[index]? = some (.array name))
      (place : slot.toNat = method.parameterSlot d index)
      (kept : Locals.read m.frame.locals slot.toNat = Locals.read entry.frame.locals slot.toNat)
      (reachable : m.frame.reachable = true)
      (done : (execute (.slot .aload slot) m).1 = .ok ()) :
      Brings name (execute (.slot .aload slot) m).2
  | frameStack
      {m : Machine}
      {f : FrameRecord}
      {types : List VerificationType}
      (stack : f.stack = types ++ [.object name])
      (done : (execute (.frame f) m).1 = .ok ()) :
      Brings name (execute (.frame f) m).2
  | frameLocal
      {entry m : Machine}
      {f : FrameRecord}
      {before after : List VerificationType}
      {slot : UInt16}
      (reset : (execute (.frame f) entry).1 = .ok ())
      (locals : f.locals = before ++ .object name :: after)
      (place : slot.toNat = (Frame.expand before).length)
      (kept :
        Locals.read m.frame.locals slot.toNat =
          Locals.read (execute (.frame f) entry).2.frame.locals slot.toNat)
      (reachable : m.frame.reachable = true)
      (done : (execute (.slot .aload slot) m).1 = .ok ()) :
      Brings name (execute (.slot .aload slot) m).2

/-- A parameter of an array type is an object of that name in the entry frame. -/
theorem read_parameter
    {method : Method}
    {settings : Settings}
    {d : MethodDescriptor}
    {index : Nat}
    (hstart : start method settings = .ok m)
    (hdescriptor : MethodDescriptor.parse? method.descriptor = some d)
    (htype : d.parameters[index]? = some (.array name)) :
    Locals.read m.frame.locals (method.parameterSlot d index) = .unknownObject name := by
  obtain ⟨f, hentry, _, hlocals⟩ := Frame.entry_eq_ok hdescriptor settings.maxStack
  rw [start, hentry] at hstart
  cases hstart
  obtain ⟨hslot, _⟩ := Frame.entryLocals_parameter (m := method) htype
  change Locals.read f.locals _ = _
  rw [hlocals, Locals.read, hslot]
  rfl

/-- An object takes one slot of those that a frame record lays out. -/
theorem expand_object
    (before after : List VerificationType)
    (name : String) :
    Frame.expand (before ++ .object name :: after) =
      Frame.expand before ++ .unknownObject name :: Frame.expand after :=
  List.flatMap_append

/-- An object among the locals of a frame record is in the slot behind what stands before it. -/
theorem read_expand
    (before after : List VerificationType)
    (name : String) :
    Locals.read (Frame.expand (before ++ .object name :: after)) (Frame.expand before).length =
      .unknownObject name := by
  rw [expand_object, Locals.read, List.getElem?_append_right (Nat.le_refl _), Nat.sub_self]
  rfl

/-- An object that is the last entry of the stack of a frame record is on top. -/
theorem reverse_expand
    (types : List VerificationType)
    (name : String) :
    (Frame.expand (types ++ [.object name])).reverse =
      .unknownObject name :: (Frame.expand types).reverse := by
  rw [expand_object, List.reverse_append]
  rfl

/-- What is brought has the descriptor of the array for a name. -/
theorem Brings.holdsObject
    (hname : IsArrayName name)
    (h : Brings name m) :
    HoldsObject name m := by
  cases h with
  | multiArray hreachable hok =>
      exact holdsObject_of_replace rfl rfl rfl hreachable hok
  | newarray hknown hdescriptor hreachable hok =>
      refine @holdsObject_of_replace _ _ _ _ 1 rfl ?_ rfl hreachable hok
      change integerEffect .newarray _ = _
      rw [integerEffect, hknown, ← hdescriptor]
  | anewarray hdescriptor hreachable hok =>
      refine @holdsObject_of_replace _ _ _ _ 1 rfl ?_ rfl hreachable hok
      rw [← hdescriptor]
      rfl
  | field hop hreachable hok =>
      exact holdsObject_of_field hop hname hreachable hok
  | parameter hstart hdescriptor htype hplace hkept hreachable hok =>
      refine holdsObject_of_aload (hkept.trans ?_) hreachable hok
      rw [hplace]
      exact read_parameter hstart hdescriptor htype
  | frameStack hstack hok =>
      have hframe := execute_frame_eq_ok hok
      have htop := congrArg Frame.stack hframe
      change _ = (Frame.expand _).reverse at htop
      rw [hstack, reverse_expand] at htop
      exact ⟨congrArg Frame.reachable hframe, .unknownObject name, _, htop, rfl, rfl⟩
  | frameLocal hreset hlocals hplace hkept hreachable hok =>
      refine holdsObject_of_aload (hkept.trans ?_) hreachable hok
      rw [execute_frame_eq_ok hreset, hplace]
      change Locals.read (Frame.expand _) _ = _
      rw [hlocals]
      exact read_expand _ _ _

/--
Elements are loaded one from the other. Before each load some records put an index on top of
the stack that there was.
-/
inductive Loads : Nat → Machine → Machine → Prop
  | refl
      {m : Machine} :
      Loads 0 m m
  | next
      {loads : Nat}
      {m n : Machine}
      {records : List Record}
      {index : Value}
      (earlier : Loads loads m n)
      (succeeds : n.Succeeds records)
      (reachable : (n.after records).frame.reachable = true)
      (stack : (n.after records).frame.stack = index :: n.frame.stack)
      (done : (execute (.bare .aaload) (n.after records)).1 = .ok ()) :
      Loads (loads + 1) m (execute (.bare .aaload) (n.after records)).2

/-- One load leaves the element of the object that there was. -/
theorem HoldsObject.load
    {element : String}
    {index : Value}
    (h : HoldsObject name n)
    (hreachable : m.frame.reachable = true)
    (hstack : m.frame.stack = index :: n.frame.stack)
    (hok : (execute (.bare .aaload) m).1 = .ok ())
    (helement : elementCategory (.object name) = .object element) :
    HoldsObject element (execute (.bare .aaload) m).2 := by
  obtain ⟨v, rest, htop, hcategory, _⟩ := h.top
  obtain ⟨_, array, _, hbefore, hstays, hloaded⟩ := execute_aaload hreachable hok
  rw [hstack, htop] at hbefore
  cases hbefore
  rw [hcategory, helement] at hloaded
  exact ⟨hstays, _, _, hloaded, rfl, rfl⟩

/-- What has been loaded has no provenance. -/
theorem Loads.provenance
    {loads : Nat}
    (h : Loads (loads + 1) m n) :
    n.frame.stack.head?.bind Value.provenance = none := by
  cases h with
  | next _ _ hreachable _ hok =>
      obtain ⟨_, _, _, _, _, hloaded⟩ := execute_aaload hreachable hok
      rw [hloaded]
      rfl

/-- While brackets are left, what is loaded is an array with as many less as there were loads. -/
theorem Loads.holdsArray
    {dimensions loads : Nat}
    {base : List Char}
    (hbase : FieldWord base)
    (hholds : HoldsObject (bracketed dimensions base) m)
    (h : Loads loads m n)
    (hloads : loads < dimensions) :
    HoldsObject (bracketed (dimensions - loads) base) n := by
  induction h with
  | refl =>
      exact hholds
  | @next loads m n records index earlier succeeds reachable stack done ih =>
      have hbefore := ih hholds (by omega)
      obtain ⟨left, hleft⟩ : ∃ left, dimensions - loads = left + 2 :=
        ⟨dimensions - loads - 2, by omega⟩
      have hnext : dimensions - (loads + 1) = left + 1 := by
        omega
      rw [hleft] at hbefore
      rw [hnext]
      have hword := fieldWord_replicate hbase left
      exact hbefore.load reachable stack done (elementCategory_array hword)

/-- When no brackets are left of an array of objects, what is loaded is named by their class. -/
theorem Loads.holdsClass
    {dimensions : Nat}
    {className : List Char}
    (hbase : FieldWord ('L' :: (className ++ [';'])))
    (hholds : HoldsObject (bracketed dimensions ('L' :: (className ++ [';']))) m)
    (h : Loads dimensions m n)
    (hdimensions : 0 < dimensions) :
    HoldsObject (String.ofList className) n := by
  cases h with
  | refl =>
      exact absurd hdimensions (Nat.lt_irrefl 0)
  | @next loads _ n _ _ earlier succeeds reachable stack done =>
      have hbefore := earlier.holdsArray hbase hholds (Nat.lt_succ_self loads)
      rw [Nat.add_sub_cancel_left] at hbefore
      obtain ⟨nonempty, plain⟩ := hbase.name
      exact hbefore.load reachable stack done (elementCategory_class nonempty plain)

/--
Of an array that was created for a class or for arrays, an element is unknown and has the name
that the array was created for, without provenance.

The descriptor of an array is some brackets and a type that is no array. After fewer loads than
there are brackets, the top is the array that has as many brackets less; after as many, if the
type is a class, it is an object of that class. It is unknown, and has no provenance if there was
a load. An element of what is no array is an object of any class.
-/
theorem array_access :
    (∀ type m n, IsClassName type ∨ IsArrayName type →
        m.frame.reachable = true → (execute (.typed .anewarray type) m).1 = .ok () →
          Loads 1 (execute (.typed .anewarray type) m).2 n →
            n.frame.stack.head? = some (.unknownObject type)) ∧
      (∀ name, IsArrayName name →
        (∃ dimensions base, 0 < dimensions ∧ FieldWord base ∧ base.head? ≠ some '[' ∧
          name = bracketed dimensions base) ∧
        ∀ dimensions base m n loads, FieldWord base → name = bracketed dimensions base →
          Brings name m → Loads loads m n →
            (loads < dimensions → HoldsObject (bracketed (dimensions - loads) base) n) ∧
            (∀ className, base = 'L' :: (className ++ [';']) → loads = dimensions →
              HoldsObject (String.ofList className) n) ∧
            (0 < loads → n.frame.stack.head?.bind Value.provenance = none)) ∧
      ∀ m index v rest, m.frame.reachable = true → m.frame.stack = index :: v :: rest →
        (∀ name, v.category = .object name → ¬ IsArrayName name) →
          (execute (.bare .aaload) m).1 = .ok () →
            (execute (.bare .aaload) m).2.frame.stack.head? =
              some (.unknownObject objectClass) := by
  refine ⟨?_, ?_, ?_⟩
  · intro type m n htype hreachable hok hloads
    have hcreated : HoldsObject (arrayOf type) (execute (.typed .anewarray type) m).2 :=
      @holdsObject_of_replace _ _ _ _ 1 rfl rfl rfl hreachable hok
    refine HoldsObject.head_eq ?_ hloads.provenance
    cases hloads with
    | next earlier succeeds reachable stack done =>
        cases earlier with
        | refl =>
            exact hcreated.load reachable stack done (elementCategory_arrayOf htype)
  · intro name hname
    refine ⟨hname.exists_bracketed, ?_⟩
    rintro dimensions base m n loads hbase rfl hbrings hloads
    have hholds := hbrings.holdsObject hname
    refine ⟨hloads.holdsArray hbase hholds, ?_, ?_⟩
    · rintro className rfl rfl
      have hdimensions : loads ≠ 0 := by
        rintro rfl
        have hbracket := hname.bracket
        rw [bracketed, String.toList_ofList] at hbracket
        cases hbracket
      exact hloads.holdsClass hbase hholds (Nat.pos_of_ne_zero hdimensions)
    · intro hsome
      obtain ⟨earlier, rfl⟩ := Nat.exists_eq_succ_of_ne_zero (Nat.pos_iff_ne_zero.1 hsome)
      exact hloads.provenance
  · intro m index v rest hreachable hstack hother hok
    obtain ⟨_, _, _, hbefore, _, hloaded⟩ := execute_aaload hreachable hok
    rw [hstack] at hbefore
    cases hbefore
    rw [hloaded, elementCategory_other hother]
    rfl

/-- A machine that holds two lengths. -/
def lengths : Machine where
  frame :=
    { Frame.empty none with
      stack := [.int 2, .int 1]
      maxStack := 2 }
  owner := "A"
  folding := true
  pending := []
  created := []
  lastSite := 0

/-- The machine behind the load of the first element. -/
def firstElement
    (m : Machine) :
    Machine :=
  (execute (.bare .aaload) (m.after [.bare .iconst0])).2

/-- A row and a cell of a table, the element of an array, and that of an int. -/
theorem array_access_table :
    let table := (execute (.multiArray "[[LA;" 2) lengths).2
    HoldsObject "[LA;" table.firstElement ∧
      HoldsObject "A" table.firstElement.firstElement ∧
      (execute (.typed .anewarray "A") lengths).2.firstElement.frame.stack.head? =
        some (.unknownObject "A") ∧
      (execute (.bare .aaload) lengths).2.frame.stack.head? =
        some (.unknownObject objectClass) := by
  intro table
  obtain ⟨hcreated, hbrought, hother⟩ := array_access
  have hclass : FieldWord "LA;".toList :=
    @FieldWord.object ['A'] (by decide) (by decide)
  have hname : IsArrayName "[[LA;" :=
    ⟨.array (.array hclass), rfl⟩
  have hbrings : Brings "[[LA;" table :=
    .multiArray rfl (by decide)
  have hrow : Loads 1 table table.firstElement :=
    .next .refl ⟨by decide, trivial⟩ rfl rfl (by decide)
  have hcell : Loads 2 table table.firstElement.firstElement :=
    .next hrow ⟨by decide, trivial⟩ rfl rfl (by decide)
  have hloads : Loads 1 (execute (.typed .anewarray "A") lengths).2
      (execute (.typed .anewarray "A") lengths).2.firstElement :=
    .next .refl ⟨by decide, trivial⟩ rfl rfl (by decide)
  have haccess := (hbrought "[[LA;" hname).2 2 "LA;".toList table
  refine ⟨?row, ?cell, ?created, ?other⟩
  case row =>
    exact (haccess _ 1 hclass rfl hbrings hrow).1 (by decide)
  case cell =>
    exact (haccess _ 2 hclass rfl hbrings hcell).2.1 ['A'] rfl rfl
  case created =>
    exact hcreated "A" lengths _ (.inl ⟨by decide, by decide, by decide⟩) rfl (by decide) hloads
  case other =>
    refine hother lengths _ _ _ rfl rfl ?_ (by decide)
    intro name hcategory
    cases hcategory

end Machine
end SlotFlow
