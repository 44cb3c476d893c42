import SlotFlow.Value

/-!
# Values that can be built

A value is only ever built by one of its constructors, and each of them keeps category
and literal in agreement.

Main definitions:

* `Category.ofKind`: the category of values whose literal is of a kind;
* `Value.Built`: the values that the constructors make;
* `Value.Plain`: those that are made without reference to a field;
* `Value.Made`: those of them that are no objects under construction.

Main statements:

* `built_iff`: they are the values whose category admits their literal;
* `Value.Built.kind`: what is known of such a value is of its category.
-/

namespace SlotFlow

/-- The category of values whose literal is of a kind; nothing is known of an empty slot. -/
def Category.ofKind : Kind → Category
  | .unknown => top
  | .int => int
  | .long => long
  | .float => float
  | .double => double
  | .string => object stringClass
  | .null => null

/-- Whether objects of the category wait for their constructor to be called. -/
def Category.isUnderConstruction : Category → Bool
  | uninitializedThis | uninitialized _ => true
  | _ => false

namespace Value

/-- The values that the constructors make. -/
inductive Built : Value → Prop
  | unknown (category : Category) : Built (unknown category)
  | int (n : Int32) : Built (int n)
  | long (n : Int64) : Built (long n)
  | float (x : Float32) : Built (float x)
  | double (x : Float) : Built (double x)
  | string (text : String) : Built (string text)
  | null : Built null
  | top : Built top
  | unknownObject (name : String) : Built (unknownObject name)
  | uninitializedThis : Built uninitializedThis
  | uninitialized (site : CreationSite) : Built (uninitialized site)
  | ofLiteral (category : Category) (literal : Literal) : Built (ofLiteral category literal)
  | loadedFrom {v : Value} (h : Built v) (field : String) : Built (v.loadedFrom field)

/-- A value that a constructor makes without reference to a field. -/
structure Plain (v : Value) : Prop where
  built : v.Built
  untagged : v.provenance = none

/-- A plain value that is no object under construction. -/
structure Made (v : Value) : Prop extends v.Plain where
  constructed : v.category.isUnderConstruction = false

theorem admits_unknown
    (category : Category) :
    category.admits .unknown = true := by
  cases category <;> rfl

/-- A value can be built exactly if its category admits its literal. -/
theorem built_iff
    {v : Value} :
    v.Built ↔ v.category.admits v.literal = true := by
  constructor
  · intro h
    induction h with
    | unknown category =>
        exact admits_unknown category
    | unknownObject name =>
        exact admits_unknown (.object name)
    | ofLiteral category literal =>
        exact ofLiteral_agrees category literal
    | loadedFrom _ _ ih =>
        exact ih
    | _ =>
        rfl
  · intro h
    obtain ⟨category, literal, provenance⟩ := v
    have hbuilt : Built ⟨category, literal, none⟩ := by
      have heq : (⟨category, literal, none⟩ : Value) = .ofLiteral category literal := by
        simp only [Value.ofLiteral]
        rw [if_pos h]
      rw [heq]
      exact .ofLiteral category literal
    cases provenance with
    | none =>
        exact hbuilt
    | some field =>
        exact hbuilt.loadedFrom field

/-- A known literal is of the category of its value. -/
theorem Built.kind
    {v : Value}
    (h : v.Built) :
    v.literal = .unknown ∨ Category.ofKind v.literal.kind = v.category := by
  rw [built_iff] at h
  obtain ⟨category, literal, provenance⟩ := v
  cases literal with
  | unknown =>
      exact Or.inl rfl
  | string text =>
      right
      cases category with
      | object name =>
          have hname : name = stringClass := of_decide_eq_true h
          rw [hname]
          rfl
      | _ =>
          cases h
  | _ =>
      right
      cases category <;> first | rfl | cases h

/-- Nothing is known of an object before its constructor has been called. -/
theorem Built.literal_eq_unknown
    {v : Value}
    (h : v.Built)
    (hcategory : ∀ kind, Category.ofKind kind = v.category → kind = .unknown) :
    v.literal = .unknown := by
  rcases h.kind with h | h
  · exact h
  · have hkind := hcategory _ h
    cases hliteral : v.literal <;> simp_all [Literal.kind]

end Value
end SlotFlow
