import SlotFlow.Proofs.Frame.Locals
import SlotFlow.Proofs.Machine.Provenance
import SlotFlow.Proofs.Machine.Sites

/-!
# Where the content of a place comes from

An effect leaves in every place of a frame what some place held before, or a value that it
makes. Which of the two, and which place, does not depend on the values. The only objects
under construction that an effect makes are those of a `new`.

Main definitions:

* `Place`, `Frame.content`: the places of a frame, and what they hold;
* `Effect.origin`: the place whose content an effect leaves in a place;
* `Effect.Carries`: frames of which one is what an effect makes of the other.

Main statements:

* `Frame.Exchanged.carries`: effects that put slots in place of others;
* `perform_carries`: every effect.
-/

namespace SlotFlow

/-- A place of a frame: a local, or a slot of the stack by its height above the bottom. -/
inductive Place where
  | locals (index : Nat)
  | stack (height : Nat)
deriving DecidableEq

/-- What a place holds; where there is no slot it is empty. -/
def Frame.content
    (f : Frame) :
    Place → Value
  | .locals index => Locals.read f.locals index
  | .stack height => Locals.read f.stack.reverse height

namespace Effect

/-- The places that an effect copies to the top of the stack, the lowest copy first. -/
def copied
    (f : Frame) :
    Effect → List Place
  | load index _ => [.locals index]
  | shuffle slots order =>
      (order.filter (· < slots)).map fun i => .stack (f.stack.length - 1 - i)
  | _ => []

/-- The place whose content an effect leaves in a local; an addition makes a value. -/
def localOrigin
    (f : Frame)
    (index : Nat) :
    Effect → Option Place
  | store written slots =>
      if index = written then some (.stack (f.stack.length - slots)) else some (.locals index)
  | increment written _ => if index = written then none else some (.locals index)
  | _ => some (.locals index)

/--
The place whose content an effect leaves in a place, or none where it puts a value that it
makes. Slots that are not popped stay where they are.
-/
def origin
    (f : Frame)
    (e : Effect) :
    Place → Option Place
  | .locals index => e.localOrigin f index
  | .stack height =>
      if height < f.stack.length - e.popped then
        some (.stack height)
      else
        (e.copied f)[height - (f.stack.length - e.popped)]?

end Effect

/-- The site of the object that an effect creates. -/
def Machine.born?
    (m : Machine) :
    Effect → Option CreationSite
  | .create _ => some m.newSite
  | _ => none

/-- A value that is no object under construction. -/
abbrev Value.Constructed
    (v : Value) :
    Prop :=
  v.category.isUnderConstruction = false

/--
What becomes of the content of a place: it is kept, the slot is emptied by a write next to it,
or the construction of the object is completed.
-/
inductive Value.Becomes (v : Value) : Value → Prop
  | kept : Becomes v v
  | emptied : Becomes v .top
  | completed
      (type : String)
      (under : v.category.isUnderConstruction = true) :
      Becomes v (.unknownObject type)

/--
What an effect makes of a frame: every place holds what has become of the content of its
origin. A place that has none holds no object under construction, except for the object that
is created.
-/
structure Effect.Carries
    (e : Effect)
    (site : Option CreationSite)
    (f g : Frame) : Prop where
  copy :
    ∀ p q, e.origin f q = some p → (f.content p).Becomes (g.content q)
  fresh :
    ∀ q, e.origin f q = none →
      (g.content q).Constructed ∨
        ∃ s, site = some s ∧ q = .stack f.stack.length ∧ g.content q = .uninitialized s

namespace Locals

variable {cells : List Value} {index : Nat}

theorem read_take
    {count : Nat}
    (h : index < count) :
    read (cells.take count) index = read cells index := by
  rw [read, List.getElem?_take_of_lt h, read]

theorem read_of_getElem
    {v : Value}
    (h : cells[index]? = some v) :
    read cells index = v := by
  rw [read, h]
  rfl

/-- What every slot has and an empty one too is had by whatever is read. -/
theorem read_has
    {P : Value → Prop}
    (htop : P .top)
    (h : ∀ v ∈ cells, P v)
    (index : Nat) :
    P (read cells index) := by
  rw [read]
  cases hcell : cells[index]? with
  | none =>
      exact htop
  | some v =>
      exact h v (List.mem_of_getElem? hcell)

/-- A change of all slots leaves each of them as it was, or changes it. -/
theorem read_map
    (change : Value → Value)
    (cells : List Value)
    (index : Nat) :
    read (cells.map change) index = read cells index ∨
      read (cells.map change) index = change (read cells index) := by
  rw [read, read, List.getElem?_map]
  cases cells[index]? with
  | none =>
      exact .inl rfl
  | some v =>
      exact .inr rfl

end Locals

namespace Frame

variable {f g h : Frame} {e : Effect} {popped : Nat} {cells made : List Value}
  {site : Option CreationSite}

/-- Depth below the top and height above the bottom. -/
theorem getElem_stack
    {depth : Nat}
    (h : depth < f.stack.length) :
    f.stack[depth]? = some (f.content (.stack (f.stack.length - 1 - depth))) := by
  have hheight : f.stack.length - 1 - depth < f.stack.length := by
    omega
  have hdepth : f.stack.length - 1 - (f.stack.length - 1 - depth) = depth := by
    omega
  rw [content, Locals.read, List.getElem?_reverse hheight, hdepth, List.getElem?_eq_getElem h]
  rfl

/-- The slots of positions among those at the top are the contents of their places. -/
theorem filterMap_take
    {slots : Nat}
    (henough : slots ≤ f.stack.length)
    (order : List Nat) :
    order.filterMap (fun i => (f.stack.take slots)[i]?) =
      ((Effect.shuffle slots order).copied f).map f.content := by
  rw [Effect.copied, List.map_map]
  induction order with
  | nil =>
      rfl
  | cons i order ih =>
      by_cases hi : i < slots
      · have hslot := getElem_stack (f := f) (Nat.lt_of_lt_of_le hi henough)
        rw [← List.getElem?_take_of_lt hi] at hslot
        rw [List.filterMap_cons_some hslot, ih, List.filter_cons, if_pos (decide_eq_true hi)]
        rfl
      · have hnone : (f.stack.take slots)[i]? = none := by
          rw [List.getElem?_take, if_neg hi]
        rw [List.filterMap_cons_none hnone, ih, List.filter_cons, if_neg (by simpa using hi)]

/-- Slots that are not popped keep their height, and those that are pushed lie above them. -/
theorem Exchanged.content_stack
    (hfg : Exchanged f popped cells g)
    (height : Nat) :
    g.content (.stack height) =
      if height < f.stack.length - popped then f.content (.stack height)
      else Locals.read cells.reverse (height - (f.stack.length - popped)) := by
  have hkept : (f.stack.drop popped).reverse = f.stack.reverse.take (f.stack.length - popped) :=
    List.reverse_drop
  have hlength : (f.stack.reverse.take (f.stack.length - popped)).length =
      f.stack.length - popped := by
    rw [List.length_take, List.length_reverse]
    exact Nat.min_eq_left (Nat.sub_le _ _)
  rw [content, hfg.stack, List.reverse_append, hkept, Locals.read_append, hlength]
  split
  · rename_i hbelow
    exact Locals.read_take hbelow
  · rfl

/-- A place that has an origin holds what that held, if the effect leaves the locals alone. -/
theorem Exchanged.content_origin
    (hfg : Exchanged f e.popped cells g)
    (hlocals : ∀ index, e.localOrigin f index = some (.locals index))
    (hcells : cells.reverse = (e.copied f).map f.content ++ made)
    {p q : Place}
    (horigin : e.origin f q = some p) :
    g.content q = f.content p := by
  cases q with
  | locals index =>
      rw [Effect.origin, hlocals] at horigin
      cases horigin
      rw [content, hfg.locals]
      rfl
  | stack height =>
      rw [Effect.origin] at horigin
      rw [hfg.content_stack]
      split at horigin
      · rename_i hbelow
        cases horigin
        exact if_pos hbelow
      · rename_i hnot
        obtain ⟨hcopied, _⟩ := List.getElem?_eq_some_iff.1 horigin
        rw [if_neg hnot, hcells, Locals.read_append, List.length_map, if_pos hcopied]
        apply Locals.read_of_getElem
        rw [List.getElem?_map, horigin]
        rfl

/-- A place that has none is on the stack, above the copies, where there are values made. -/
theorem Exchanged.content_made
    (hfg : Exchanged f e.popped cells g)
    (hlocals : ∀ index, e.localOrigin f index = some (.locals index))
    (hcells : cells.reverse = (e.copied f).map f.content ++ made)
    {q : Place}
    (horigin : e.origin f q = none) :
    ∃ above, q = .stack (f.stack.length - e.popped + (e.copied f).length + above) ∧
      g.content q = Locals.read made above := by
  cases q with
  | locals index =>
      rw [Effect.origin, hlocals] at horigin
      cases horigin
  | stack height =>
      rw [Effect.origin] at horigin
      split at horigin
      · cases horigin
      · rename_i hnot
        have hpast := List.getElem?_eq_none_iff.1 horigin
        refine ⟨height - (f.stack.length - e.popped) - (e.copied f).length, ?_, ?_⟩
        · congr 1
          omega
        · rw [hfg.content_stack, if_neg hnot, hcells, Locals.read_append, List.length_map,
            if_neg (Nat.not_lt.2 hpast)]

/-- An effect that leaves the locals alone and puts copies and values it makes on the stack. -/
theorem Exchanged.carries
    (hfg : Exchanged f e.popped cells g)
    (made : List Value)
    (hlocals : ∀ index, e.localOrigin f index = some (.locals index))
    (hcells : cells.reverse = (e.copied f).map f.content ++ made)
    (hmade : ∀ v ∈ made, v.Constructed) :
    e.Carries site f g := by
  constructor
  · intro p q horigin
    rw [hfg.content_origin hlocals hcells horigin]
    exact .kept
  · intro q horigin
    obtain ⟨above, _, hcontent⟩ := hfg.content_made hlocals hcells horigin
    rw [hcontent]
    exact .inl (Locals.read_has (P := Value.Constructed) rfl hmade above)

/-- An effect that only pops. -/
theorem Exchanged.carries_popped
    (hfg : Exchanged f popped [] g)
    (hpopped : e.popped = popped)
    (hlocals : ∀ index, e.localOrigin f index = some (.locals index))
    (hcopied : e.copied f = []) :
    e.Carries site f g := by
  rw [← hpopped] at hfg
  refine hfg.carries [] hlocals ?_ (List.forall_mem_nil _)
  rw [hcopied]
  rfl

section Constructed

open SlotFlow.Value (Constructed)

theorem constructed_cells
    {v : Value}
    (h : Constructed v) :
    ∀ w ∈ v.cells.reverse, Constructed w := by
  intro w hw
  rw [List.mem_reverse, Value.cells] at hw
  split at hw
  · rcases List.mem_cons.1 hw with rfl | hw
    · rfl
    · rw [List.mem_singleton.1 hw]
      exact h
  · rw [List.mem_singleton.1 hw]
    exact h

theorem constructed_loaded
    (type : FieldType)
    (field : Option String) :
    Constructed (loaded type field) := by
  cases type <;> rfl

theorem constructed_loadedCells
    (field : Option String)
    (type : Option FieldType) :
    ∀ v ∈ (loadedCells field type).reverse, Constructed v := by
  cases type with
  | none =>
      exact List.forall_mem_nil _
  | some type =>
      exact constructed_cells (constructed_loaded type field)

end Constructed

/-- The frame with every slot changed. -/
def mapped
    (f : Frame)
    (change : Value → Value) :
    Frame :=
  { f with locals := f.locals.map change, stack := f.stack.map change }

theorem content_mapped
    (f : Frame)
    (change : Value → Value)
    (p : Place) :
    (f.mapped change).content p = f.content p ∨
      (f.mapped change).content p = change (f.content p) := by
  cases p with
  | locals index =>
      exact Locals.read_map change f.locals index
  | stack height =>
      have hreverse : (f.mapped change).stack.reverse = f.stack.reverse.map change :=
        List.map_reverse.symm
      rw [content, hreverse]
      exact Locals.read_map change f.stack.reverse height

/-- After a write the local holds the value, and every other one is as it was or empty. -/
theorem content_writeLocal
    (f : Frame)
    (index : Nat)
    (v : Value)
    (q : Place) :
    (f.writeLocal index v).content q =
        (if q = .locals index then v else f.content q) ∨
      (q ≠ .locals index ∧ (f.writeLocal index v).content q = .top) := by
  cases q with
  | stack height =>
      exact .inl rfl
  | locals j =>
      change Locals.read (Locals.write f.locals index v) j = _ ∨ _ ∧
        Locals.read (Locals.write f.locals index v) j = _
      rw [Locals.read_write]
      by_cases hj : j = index
      · left
        simp [hj]
      · have hplace : Place.locals j ≠ .locals index := fun hsame => hj (Place.locals.inj hsame)
        rw [if_neg hj, if_neg hplace]
        split
        · exact .inr ⟨hplace, rfl⟩
        · split
          · exact .inr ⟨hplace, rfl⟩
          · exact .inl rfl

/-- An effect that pops slots and writes to a local what one of them held, or what it makes. -/
theorem Exchanged.carries_written
    {index : Nat}
    {v : Value}
    (hfg : Exchanged f e.popped [] g)
    (hcopied : e.copied f = [])
    (hothers : ∀ j, j ≠ index → e.localOrigin f j = some (.locals j))
    (hcopy : ∀ p, e.localOrigin f index = some p → v = f.content p)
    (hmade : e.localOrigin f index = none → v.Constructed) :
    e.Carries site f (g.writeLocal index v) := by
  have hkept (q : Place) (hq : q ≠ .locals index) :
      e.origin f q = some q ∧ g.content q = f.content q ∨
        e.origin f q = none ∧ g.content q = .top := by
    cases q with
    | locals j =>
        left
        refine ⟨hothers j fun hj => hq (by rw [hj]), ?_⟩
        rw [content, hfg.locals]
        rfl
    | stack height =>
        rw [Effect.origin, hfg.content_stack, hcopied]
        split
        · exact .inl ⟨rfl, rfl⟩
        · exact .inr ⟨rfl, rfl⟩
  have hplace (q : Place) :
      (∀ p, e.origin f q = some p →
        (f.content p).Becomes ((g.writeLocal index v).content q)) ∧
        (e.origin f q = none → ((g.writeLocal index v).content q).Constructed) := by
    rcases content_writeLocal g index v q with hcontent | ⟨_, hempty⟩
    · rw [hcontent]
      by_cases hq : q = .locals index
      · rw [if_pos hq, hq]
        refine ⟨fun p horigin => ?_, hmade⟩
        rw [hcopy p horigin]
        exact .kept
      · rw [if_neg hq]
        rcases hkept q hq with ⟨hsame, hheld⟩ | ⟨hnone, hheld⟩
        · rw [hsame, hheld]
          refine ⟨fun p horigin => ?_, nofun⟩
          rw [Option.some.inj horigin]
          exact .kept
        · rw [hnone, hheld]
          exact ⟨nofun, fun _ => rfl⟩
    · rw [hempty]
      exact ⟨fun _ _ => .emptied, fun _ => rfl⟩
  exact ⟨fun p q => (hplace q).1 p, fun q horigin => .inl ((hplace q).2 horigin)⟩

/-- An effect that completes objects on the way, and copies none of the slots. -/
theorem Exchanged.carries_mapped
    {change : Value → Value}
    (hfg : Exchanged (f.mapped change) e.popped cells g)
    (hlocals : ∀ f index, e.localOrigin f index = some (.locals index))
    (hcopied : ∀ f, e.copied f = [])
    (hmade : ∀ v ∈ cells.reverse, v.Constructed)
    (hchange : ∀ v, Value.Becomes v (change v)) :
    e.Carries site f g := by
  have horigin (q : Place) : e.origin (f.mapped change) q = e.origin f q := by
    cases q with
    | locals index =>
        rw [Effect.origin, Effect.origin, hlocals, hlocals]
    | stack height =>
        rw [Effect.origin, Effect.origin, hcopied, hcopied, mapped, List.length_map]
  have hcells : cells.reverse =
      (e.copied (f.mapped change)).map (f.mapped change).content ++ cells.reverse := by
    rw [hcopied]
    rfl
  constructor
  · intro p q hq
    rw [← horigin] at hq
    rw [hfg.content_origin (hlocals _) hcells hq]
    rcases content_mapped f change p with hsame | hchanged
    · rw [hsame]
      exact .kept
    · rw [hchanged]
      exact hchange (f.content p)
  · intro q hq
    rw [← horigin] at hq
    obtain ⟨above, _, hcontent⟩ := hfg.content_made (hlocals _) hcells hq
    rw [hcontent]
    exact .inl (Locals.read_has (P := Value.Constructed) rfl hmade above)

end Frame

namespace Machine

variable {m n : Machine} {effect : Effect}

theorem load_carries
    {index : Nat}
    {wide : Bool}
    (h : perform (.load index wide) m = (.ok (), n)) :
    (Effect.load index wide).Carries none m.frame n.frame := by
  rw [perform] at h
  obtain ⟨g, hact, rfl⟩ := onFrame_eq_ok h
  obtain ⟨v, read, hget, hrest⟩ := exists_of_bind_eq_ok hact
  obtain ⟨_, mid, hfirst, hsecond⟩ := exists_of_bind_eq_ok hrest
  obtain ⟨rfl, hread⟩ := Frame.getLocal_eq_ok hget
  have hone := hread.thenPush (Frame.push_exchanged hfirst)
  cases wide with
  | false =>
      cases hsecond
      exact hone.carries [] (fun _ => rfl) rfl (List.forall_mem_nil _)
  | true =>
      have htwo := hone.thenPush (Frame.push_exchanged hsecond)
      refine htwo.carries [.top] (fun _ => rfl) rfl ?_
      exact List.forall_mem_singleton.2 rfl

theorem shuffle_carries
    {slots : Nat}
    {order : List Nat}
    (h : perform (.shuffle slots order) m = (.ok (), n)) :
    (Effect.shuffle slots order).Carries none m.frame n.frame := by
  rw [perform] at h
  obtain ⟨g, hact, rfl⟩ := onFrame_eq_ok h
  obtain ⟨cells, mid, hpop, hpush⟩ := exists_of_bind_eq_ok hact
  obtain ⟨rfl, hpopped⟩ := Frame.popCells_exchanged hpop
  have hboth := hpopped.thenPop (Frame.pushCells_exchanged hpush)
  refine hboth.carries [] (fun _ => rfl) ?_ (List.forall_mem_nil _)
  rw [List.reverse_reverse, List.append_nil]
  exact Frame.filterMap_take hpopped.enough order

theorem store_carries
    {index slots : Nat}
    (h : perform (.store index slots) m = (.ok (), n)) :
    (Effect.store index slots).Carries none m.frame n.frame := by
  rw [perform] at h
  obtain ⟨g, hact, rfl⟩ := onFrame_eq_ok h
  obtain ⟨v, mid, hpop, hset⟩ := exists_of_bind_eq_ok hact
  obtain ⟨hpositive, hvalue⟩ := Frame.popWide_value hpop
  have hpopped := Frame.popWide_exchanged hpop
  obtain rfl := Frame.setLocal_eq_ok hset
  have hself : (Effect.store index slots).localOrigin m.frame index =
      some (.stack (m.frame.stack.length - slots)) :=
    if_pos rfl
  refine hpopped.carries_written rfl (fun j hj => if_neg hj) ?_ ?_
  · intro p horigin
    rw [hself] at horigin
    cases horigin
    have henough := hpopped.enough
    have hdepth : slots - 1 < m.frame.stack.length := by
      omega
    have hheld := Frame.getElem_stack hdepth
    have hheight : m.frame.stack.length - 1 - (slots - 1) = m.frame.stack.length - slots := by
      omega
    rw [hvalue, hheight] at hheld
    exact Option.some.inj hheld
  · intro horigin
    rw [hself] at horigin
    cases horigin

theorem increment_carries
    {index : Nat}
    {delta : Int32}
    (h : perform (.increment index delta) m = (.ok (), n)) :
    (Effect.increment index delta).Carries none m.frame n.frame := by
  rw [perform] at h
  obtain ⟨g, hact, rfl⟩ := onFrame_eq_ok h
  obtain ⟨v, mid, hget, hset⟩ := exists_of_bind_eq_ok hact
  obtain ⟨_, hread⟩ := Frame.getLocal_eq_ok hget
  obtain rfl := Frame.setLocal_eq_ok hset
  have hself : (Effect.increment index delta).localOrigin m.frame index = none := if_pos rfl
  refine hread.carries_written rfl (fun j hj => if_neg hj) ?_ ?_
  · intro p horigin
    rw [hself] at horigin
    cases horigin
  · intro _
    unfold incremented
    split <;> rfl

theorem create_carries
    {type : String}
    (h : perform (.create type) m = (.ok (), n)) :
    (Effect.create type).Carries (some m.newSite) m.frame n.frame := by
  obtain ⟨hlocals, hstack, _⟩ := perform_create_eq_ok h
  have hexchanged : m.frame.Exchanged 0 [.uninitialized m.newSite] n.frame :=
    ⟨hlocals, Nat.zero_le _, hstack⟩
  have hcells : [Value.uninitialized m.newSite].reverse =
      ((Effect.create type).copied m.frame).map m.frame.content ++
        [.uninitialized m.newSite] :=
    rfl
  constructor
  · intro p q horigin
    rw [hexchanged.content_origin (fun _ => rfl) hcells horigin]
    exact .kept
  · intro q horigin
    obtain ⟨above, hplace, hcontent⟩ := hexchanged.content_made (fun _ => rfl) hcells horigin
    rw [hcontent]
    cases above with
    | zero =>
        exact .inr ⟨m.newSite, rfl, hplace, rfl⟩
    | succ above =>
        exact .inl rfl

theorem call_carries
    {receiver : Receiver}
    {descriptor : String}
    (h : perform (.call receiver descriptor) m = (.ok (), n)) :
    (Effect.call receiver descriptor).Carries none m.frame n.frame := by
  obtain ⟨count, type, hcount, _, henough, hlocals, hstack⟩ := perform_call_eq_ok h
  let change := receiver.change m (m.frame.stack.drop count)
  have hpopped : (Effect.call receiver descriptor).popped = count + receiver.popped := by
    rw [Effect.popped, hcount]
    rfl
  -- the call pops from a frame whose slots were changed, and pushes its result
  have hexchanged : (m.frame.mapped change).Exchanged (Effect.call receiver descriptor).popped
      (Frame.loadedCells none type) n.frame := by
    rw [hpopped]
    refine ⟨hlocals, ?_, ?_⟩
    · rw [Frame.mapped, List.length_map]
      exact henough
    · rw [hstack, Frame.mapped, List.map_drop]
  refine hexchanged.carries_mapped (fun _ _ => rfl) (fun _ => rfl)
    (Frame.constructed_loadedCells none type) fun v => ?_
  rcases change_eq_or m (m.frame.stack.drop count) receiver v with hkept | ⟨hunder, object, hobject⟩
  · change Value.Becomes v (receiver.change m _ v)
    rw [hkept]
    exact .kept
  · change Value.Becomes v (receiver.change m _ v)
    rw [hobject]
    exact .completed object hunder

theorem constructed_element
    (category : Category) :
    (Value.unknown (elementCategory category)).Constructed := by
  unfold elementCategory
  split
  · split
    · exact Frame.constructed_loaded _ none
    · rfl
  · rfl

/-- Every effect leaves in a place what its origin held, or what it makes. -/
theorem perform_carries
    (hbrings : effect.Brings Value.Constructed)
    (h : perform effect m = (.ok (), n)) :
    effect.Carries (m.born? effect) m.frame n.frame := by
  cases effect with
  | nothing =>
      cases h
      exact (Frame.Exchanged.refl _).carries_popped rfl (fun _ => rfl) rfl
  | push v =>
      rw [perform] at h
      obtain ⟨g, hpush, rfl⟩ := onFrame_eq_ok h
      exact (Frame.pushSized_exchanged hpush).carries _ (fun _ => rfl) rfl
        (Frame.constructed_cells hbrings)
  | discard slots =>
      rw [perform] at h
      obtain ⟨g, hpop, rfl⟩ := onFrame_eq_ok h
      exact (Frame.popMany_exchanged hpop).carries_popped rfl (fun _ => rfl) rfl
  | replace slots v =>
      rw [perform] at h
      obtain ⟨g, hact, rfl⟩ := onFrame_eq_ok h
      obtain ⟨_, f, hpop, hpush⟩ := exists_of_bind_eq_ok hact
      have hboth := (Frame.popMany_exchanged hpop).thenPop (Frame.pushSized_exchanged hpush)
      exact hboth.carries _ (fun _ => rfl) rfl (Frame.constructed_cells hbrings)
  | load index wide =>
      exact load_carries h
  | store index slots =>
      exact store_carries h
  | increment index delta =>
      exact increment_carries h
  | element =>
      rw [perform] at h
      obtain ⟨g, hact, rfl⟩ := onFrame_eq_ok h
      obtain ⟨_, first, hindex, hrest⟩ := exists_of_bind_eq_ok hact
      obtain ⟨v, second, harray, hpush⟩ := exists_of_bind_eq_ok hrest
      have hpopped := (Frame.pop_exchanged hindex).2.thenPop (Frame.pop_exchanged harray).2
      refine (hpopped.thenPop (Frame.push_exchanged hpush)).carries _ (fun _ => rfl) rfl ?_
      exact List.forall_mem_singleton.2 (constructed_element v.category)
  | shuffle slots order =>
      exact shuffle_carries h
  | arithmetic op signature =>
      rw [perform] at h
      obtain ⟨g, hact, rfl⟩ := onFrame_eq_ok h
      obtain ⟨l, hexchanged⟩ := Frame.arithmetic_exchanged hact
      exact hexchanged.carries _ (fun _ => rfl) rfl (Frame.constructed_cells (hbrings l))
  | readField static name descriptor =>
      rw [perform] at h
      obtain ⟨g, hact, rfl⟩ := onFrame_eq_ok h
      cases static with
      | true =>
          obtain ⟨type, _, hpushed⟩ := Frame.pushDescriptor_exchanged hact
          exact hpushed.carries _ (fun _ => rfl) rfl (Frame.constructed_loadedCells _ type)
      | false =>
          obtain ⟨_, mid, hobject, hpush⟩ := exists_of_bind_eq_ok hact
          obtain ⟨type, _, hpushed⟩ := Frame.pushDescriptor_exchanged hpush
          have hboth := (Frame.pop_exchanged hobject).2.thenPop hpushed
          exact hboth.carries _ (fun _ => rfl) rfl (Frame.constructed_loadedCells _ type)
  | writeField static descriptor =>
      rw [perform] at h
      obtain ⟨g, hact, rfl⟩ := onFrame_eq_ok h
      obtain ⟨_, f, hpop, hobject⟩ := exists_of_bind_eq_ok hact
      obtain ⟨count, hcount, hpopped⟩ := Frame.popDescriptor_exchanged hpop
      have hslots : (Effect.writeField static descriptor).popped =
          count + if static then 0 else 1 := by
        rw [Effect.popped, hcount]
        rfl
      cases static with
      | true =>
          cases hobject
          exact hpopped.carries_popped hslots (fun _ => rfl) rfl
      | false =>
          have hboth := hpopped.thenPop (Frame.popMany_exchanged hobject)
          exact hboth.carries_popped hslots (fun _ => rfl) rfl
  | call receiver descriptor =>
      exact call_carries h
  | create type =>
      exact create_carries h
  | refuse fault =>
      cases h

end Machine
end SlotFlow
