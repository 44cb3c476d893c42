import SlotFlow.Proofs.Machine.Creation
import SlotFlow.Proofs.Machine.Provenance

/-!
# When a constructor was called

Nothing is known of an object under construction but which one it is, so all its copies are
equal and a call of its constructor finds every one of them. What they become is the class of
the method for its own receiver, the type of the last `new` of the site for an object that was
created, and the class of the constructor where no `new` tells the type.

Main definitions:

* `Category.UnderConstruction`: objects whose constructor was not called;
* `Machine.ConstructedAs`: the type that the records give to such an object;
* `Value.retyped`: a slot once all objects of a category are of a type.

Main statements:

* `eq_unknown_of_underConstruction`: all copies of an object under construction are equal;
* `constructedType_after`: the type is told by the records;
* `construction_exact`: what a call of a constructor makes of locals and stack.
-/

namespace SlotFlow

/-- The category of objects whose constructor was not called. -/
def Category.UnderConstruction
    (category : Category) :
    Prop :=
  category = .uninitializedThis ∨ ∃ site, category = .uninitialized site

/-- A slot once the objects of a category are of a type. -/
def Value.retyped
    (category : Category)
    (type : String)
    (v : Value) :
    Value :=
  if v.category = category then .unknownObject type else v

theorem Value.category_retyped_ne
    {category : Category}
    (hcategory : category.UnderConstruction)
    (type : String)
    (v : Value) :
    (v.retyped category type).category ≠ category := by
  unfold retyped
  split
  · rcases hcategory with rfl | ⟨site, rfl⟩ <;> nofun
  · assumption

theorem Frame.category_loadedCells_ne
    {category : Category}
    (hcategory : category.UnderConstruction)
    (type : Option FieldType) :
    ∀ v ∈ loadedCells none type, v.category ≠ category := by
  have htop : category ≠ .top := by
    rcases hcategory with rfl | ⟨site, rfl⟩ <;> nofun
  cases type with
  | none =>
      exact List.forall_mem_nil _
  | some type =>
      have htype : Category.ofFieldType type ≠ category := by
        obtain ⟨_, _, hthis, hsite⟩ := Category.ofFieldType_ne type
        rcases hcategory with rfl | ⟨site, rfl⟩
        · exact hthis
        · exact hsite site
      intro v hv
      rw [loadedCells, Value.cells] at hv
      split at hv
      · rcases List.mem_cons.1 hv with rfl | hv
        · exact htop.symm
        · rw [List.mem_singleton.1 hv]
          exact htype
      · rw [List.mem_singleton.1 hv]
        exact htype

namespace Machine

variable {m : Machine} {records : List Record}

/--
The type that an object is of once its constructor was called: the class that the method is
declared in, for the receiver of the method; else the type of the last `new` that has
recorded one for its site, or the class of the constructor if there is none.
-/
inductive ConstructedAs
    (m : Machine)
    (declaring callOwner : String)
    (records : List Record) :
    Category → String → Prop
  | receiver :
      ConstructedAs m declaring callOwner records .uninitializedThis declaring
  | created
      {site : CreationSite}
      {type : String}
      (last : m.LastCreated records site type) :
      ConstructedAs m declaring callOwner records (.uninitialized site) type
  | unrecorded
      {site : CreationSite}
      (never : ∀ type, ¬ m.LastCreated records site type) :
      ConstructedAs m declaring callOwner records (.uninitialized site) callOwner

/-- The records tell what type an object is of once its constructor was called. -/
theorem constructedType_after
    {method : Method}
    {settings : Settings}
    (h : start method settings = .ok m)
    {callOwner type : String}
    {category : Category} :
    (m.after records).constructedType? category callOwner = some type ↔
      m.ConstructedAs method.owner callOwner records category type := by
  obtain ⟨hpending, hcreated, howner⟩ := start_eq_ok h
  have hlookup := lookup_created_after hpending hcreated records
  have hdeclaring : (m.after records).owner = method.owner := (m.owner_after records).trans howner
  cases category with
  | uninitializedThis =>
      rw [constructedType?, hdeclaring]
      constructor
      · rintro ⟨⟩
        exact .receiver
      · rintro ⟨⟩
        rfl
  | uninitialized site =>
      rw [constructedType?]
      cases hsite : (m.after records).created.lookup site with
      | none =>
          have hnever (other : String) : ¬ m.LastCreated records site other := by
            rw [← hlookup, hsite]
            nofun
          constructor
          · rintro ⟨⟩
            exact .unrecorded hnever
          · rintro (_ | hlast | _)
            · exact absurd hlast (hnever type)
            · rfl
      | some recorded =>
          have hlast := (hlookup site recorded).1 hsite
          constructor
          · rintro ⟨⟩
            exact .created hlast
          · rintro (_ | hother | hnever)
            · rw [← hlookup, hsite] at hother
              exact hother
            · exact absurd hlast (hnever recorded)
  | _ =>
      constructor
      · nofun
      · nofun

/-- All that is known of an object under construction is which one it is. -/
theorem eq_unknown_of_underConstruction
    {method : Method}
    {settings : Settings}
    (h : start method settings = .ok m)
    {v : Value}
    (hv : v ∈ (m.after records).frame.locals ++ (m.after records).frame.stack)
    (hcategory : v.category.UnderConstruction) :
    v = .unknown v.category := by
  have hbuilt : v.Built := ((Reached.start h).after records).stable Frame.built_stable v hv
  have hprovenance : v.provenance = none :=
    (after_traced h records v hv).untagged (.inr (.inr hcategory))
  have hliteral : v.literal = .unknown := by
    refine hbuilt.literal_eq_unknown fun kind hkind => ?_
    rcases hcategory with hthis | ⟨site, hsite⟩
    · rw [hthis] at hkind
      cases kind <;> first | rfl | cases hkind
    · rw [hsite] at hkind
      cases kind <;> first | rfl | cases hkind
  obtain ⟨category, literal, provenance⟩ := v
  cases hprovenance
  cases hliteral
  rfl

theorem constructedType_of_underConstruction
    {category : Category}
    (hcategory : category.UnderConstruction)
    (n : Machine)
    (callOwner : String) :
    ∃ type, n.constructedType? category callOwner = some type := by
  rcases hcategory with rfl | ⟨site, rfl⟩ <;> exact ⟨_, rfl⟩

theorem constructedType_of_not_underConstruction
    {category : Category}
    (hcategory : ¬ category.UnderConstruction)
    (n : Machine)
    (callOwner : String) :
    n.constructedType? category callOwner = none := by
  cases category with
  | uninitializedThis =>
      exact absurd (.inl rfl) hcategory
  | uninitialized site =>
      exact absurd (.inr ⟨site, rfl⟩) hcategory
  | _ =>
      rfl

/-- Of the slots of a run, a constructor completes those of the category of its receiver. -/
theorem map_completed
    {method : Method}
    {settings : Settings}
    (h : start method settings = .ok m)
    {c : Value}
    (hc : c ∈ (m.after records).frame.locals ++ (m.after records).frame.stack)
    (hcategory : c.category.UnderConstruction)
    {callOwner type : String}
    (htype : (m.after records).constructedType? c.category callOwner = some type)
    {cells : List Value}
    (hcells :
      ∀ v ∈ cells, v ∈ (m.after records).frame.locals ++ (m.after records).frame.stack) :
    cells.map ((m.after records).completed c callOwner) =
      cells.map (Value.retyped c.category type) := by
  apply List.map_congr_left
  intro v hv
  -- copies of the receiver are equal to it, so equality of slots is equality of categories
  have hcopy : v = c ↔ v.category = c.category := by
    constructor
    · rintro rfl
      rfl
    · intro hsame
      have hunder : v.category.UnderConstruction := by
        rw [hsame]
        exact hcategory
      rw [eq_unknown_of_underConstruction h (hcells v hv) hunder,
        eq_unknown_of_underConstruction h hc hcategory, hsame]
  unfold completed Value.retyped
  simp only [htype, hcopy]

/-- What a call of a constructor leaves. -/
structure Constructs
    (n : Machine)
    (callOwner descriptor : String)
    (g : Frame)
    (count : Nat)
    (result : Option FieldType)
    (c : Value) : Prop where
  popped : poppedSlots? descriptor = some count
  pushed : pushedType? descriptor = some result
  receiver : n.frame.stack[count]? = some c
  locals : g.locals = n.frame.locals.map (n.completed c callOwner)
  stack :
    g.stack =
      Frame.loadedCells none result ++
        (n.frame.stack.drop (count + 1)).map (n.completed c callOwner)

/-- A call of a constructor that succeeds completes its receiver. -/
theorem execute_constructs
    {n : Machine}
    {owner descriptor : String}
    {interface : Bool}
    (hreachable : n.frame.reachable = true)
    (hok :
      (execute (.method .invokespecial owner constructorName descriptor interface) n).1 =
        .ok ()) :
    ∃ count result c,
      n.Constructs owner descriptor
        (execute (.method .invokespecial owner constructorName descriptor interface) n).2.frame
        count result c := by
  obtain ⟨p, hperform, hnext⟩ := exists_performed_of_execute rfl hreachable rfl hok
  have heffect :
      (Record.method .invokespecial owner constructorName descriptor interface).effect =
        .call (.constructed owner) descriptor := by
    rw [Record.effect, receiverOf, if_pos rfl]
  rw [heffect] at hperform
  obtain ⟨count, result, hpopped, hpushed, henough, hlocals, hstack⟩ :=
    perform_call_eq_ok hperform
  have hlength : count < n.frame.stack.length := henough
  have hdrop := List.drop_eq_getElem_cons hlength
  have hchange :
      (Receiver.constructed owner).change (n.executing .invokespecial)
          ((n.executing .invokespecial).frame.stack.drop count) =
        n.completed n.frame.stack[count] owner := by
    change (Receiver.constructed owner).change _ (n.frame.stack.drop count) = _
    rw [hdrop]
    rfl
  rw [hchange] at hlocals hstack
  rw [hnext]
  exact ⟨count, result, n.frame.stack[count], hpopped, hpushed,
    List.getElem?_eq_getElem hlength, hlocals, hstack⟩

/--
A call of a constructor that succeeds where control can be turns every copy of its receiver
into one of its type, if the receiver is under construction: the locals and the slots that
are not popped become objects of the type where they were of the category of the receiver,
and stay as they are elsewhere; nothing of that category is left. A receiver of any other
category leaves all of them as they are.
-/
theorem construction_exact
    {method : Method}
    {settings : Settings}
    (h : start method settings = .ok m)
    (records : List Record)
    (owner descriptor : String)
    (interface : Bool)
    (hreachable : (m.after records).frame.reachable = true)
    (hok :
      (execute (.method .invokespecial owner constructorName descriptor interface)
        (m.after records)).1 = .ok ()) :
    let f := (m.after records).frame
    let g :=
      (execute (.method .invokespecial owner constructorName descriptor interface)
        (m.after records)).2.frame
    ∃ count result c,
      poppedSlots? descriptor = some count ∧ pushedType? descriptor = some result ∧
        f.stack[count]? = some c ∧
        (c.category.UnderConstruction →
          ∃ type,
            (∀ other, m.ConstructedAs method.owner owner records c.category other ↔
              other = type) ∧
            g.locals = f.locals.map (Value.retyped c.category type) ∧
            g.stack =
              Frame.loadedCells none result ++
                (f.stack.drop (count + 1)).map (Value.retyped c.category type) ∧
            ∀ v ∈ g.locals ++ g.stack, v.category ≠ c.category) ∧
        (¬ c.category.UnderConstruction →
          g.locals = f.locals ∧
            g.stack = Frame.loadedCells none result ++ f.stack.drop (count + 1)) := by
  intro f g
  obtain ⟨count, result, c, hpopped, hpushed, hc, hlocals, hstack⟩ :=
    execute_constructs hreachable hok
  refine ⟨count, result, c, hpopped, hpushed, hc, ?_, ?_⟩
  · intro hcategory
    obtain ⟨type, htype⟩ :=
      constructedType_of_underConstruction hcategory (m.after records) owner
    have hmem : c ∈ f.locals ++ f.stack :=
      List.mem_append_right _ (List.mem_of_getElem? hc)
    rw [map_completed h hmem hcategory htype fun v hv => List.mem_append_left _ hv] at hlocals
    rw [map_completed h hmem hcategory htype fun v hv =>
      List.mem_append_right _ (List.mem_of_mem_drop hv)] at hstack
    refine ⟨type, ?_, hlocals, hstack, ?_⟩
    · intro other
      rw [← constructedType_after h, htype, Option.some_inj, eq_comm]
    · intro v hv
      rw [hlocals, hstack] at hv
      rcases List.mem_append.1 hv with hv | hv
      · obtain ⟨w, _, rfl⟩ := List.mem_map.1 hv
        exact w.category_retyped_ne hcategory type
      · rcases List.mem_append.1 hv with hv | hv
        · exact Frame.category_loadedCells_ne hcategory result v hv
        · obtain ⟨w, _, rfl⟩ := List.mem_map.1 hv
          exact w.category_retyped_ne hcategory type
  · intro hcategory
    have hsame : (m.after records).completed c owner = id := by
      funext v
      rw [completed, constructedType_of_not_underConstruction hcategory]
      rfl
    rw [hsame, List.map_id] at hlocals hstack
    exact ⟨hlocals, hstack⟩

/-- An object that was created at a label is copied, and its constructor completes the copy. -/
theorem construction_exact_created :
    let m : Machine := ⟨Frame.empty none, "A", true, [], [], 0⟩
    let records : List Record := [.label ⟨7⟩, .typed .newObject "a/B", .bare .dup]
    m.LastCreated records (.label ⟨7⟩) "a/B" ∧
      (execute (.method .invokespecial "a/C" constructorName "()V" false)
        (m.after records)).2.frame.stack = [.unknownObject "a/B"] := by
  intro m records
  have hlast : m.LastCreated records (.label ⟨7⟩) "a/B" := by
    have hlabel : EndsWithLabel [.label ⟨7⟩] ⟨7⟩ := ⟨[], [], rfl, List.forall_mem_nil _⟩
    refine ⟨[.label ⟨7⟩], [.bare .dup], rfl, .labelled rfl hlabel, ?_⟩
    intro middle other rest hsplit
    rcases List.cons_eq_append_iff.1 hsplit with ⟨rfl, hhead⟩ | ⟨middle, rfl, hnil⟩
    · cases hhead
    · simp at hnil
  have hstart : start ⟨"A", "run", "()V", true⟩ .standard = .ok m := start_static _ _ _
  refine ⟨hlast, ?_⟩
  obtain ⟨count, result, c, hpopped, hpushed, hc, hunder, _⟩ :=
    construction_exact hstart records "a/C" "()V" false (by decide +kernel) (by decide +kernel)
  have hstack : (m.after records).frame.stack =
      [.uninitialized (.label ⟨7⟩), .uninitialized (.label ⟨7⟩)] := by
    decide +kernel
  have hnone : poppedSlots? "()V" = some 0 ∧ pushedType? "()V" = some none := by
    decide +kernel
  rw [hnone.1] at hpopped
  rw [hnone.2] at hpushed
  cases hpopped
  cases hpushed
  rw [hstack] at hc
  cases hc
  obtain ⟨type, htype, _, hresult, _⟩ := hunder (.inr ⟨_, rfl⟩)
  obtain rfl := (htype "a/B").1 (.created hlast)
  rw [hresult, hstack]
  rfl

end Machine
end SlotFlow
