import SlotFlow.Proofs.Frame.Operations

/-!
# Accounts of effects

Main definitions:

* `Effect.popped`, `Effect.slots`: what an effect pops and pushes;
* `Effect.faulty`: the faults that folding may find in it;
* `Effect.Sound`: effects whose descriptors can be read and that are not refused.

Main statement:

* `perform_account`: carrying an effect out keeps to its account.
-/

namespace SlotFlow

/-- Slots of the receiver of a call. -/
def Receiver.popped : Receiver → Nat
  | none => 0
  | object => 1
  | constructed _ => 1

namespace Effect

/-- Slots that an effect pops. -/
def popped : Effect → Nat
  | discard slots => slots
  | replace slots _ => slots
  | store _ slots => slots
  | element => 2
  | shuffle slots _ => slots
  | arithmetic _ signature => signature.popped
  | readField static _ _ => if static then 0 else 1
  | writeField static descriptor =>
      (poppedSlots? descriptor).getD 0 + if static then 0 else 1
  | call receiver descriptor => (poppedSlots? descriptor).getD 0 + receiver.popped
  | _ => 0

/-- Slots that an effect pushes on a frame, top first. -/
def slots
    (f : Frame) :
    Effect → List Slot
  | push v => v.category.slots
  | replace _ v => v.category.slots
  | load index wide =>
      (if wide then [.empty] else []) ++ [(Locals.read f.locals index).slot]
  | element => [(Machine.elementCategory (Locals.read f.stack 1).category).slot]
  | shuffle slots order =>
      ((order.filterMap fun i => (f.stack.take slots)[i]?).map Value.slot).reverse
  | arithmetic _ signature => signature.result.slots
  | readField _ _ descriptor => resultSlots ((pushedType? descriptor).getD none)
  | call _ descriptor => resultSlots ((pushedType? descriptor).getD none)
  | create _ => [.single]
  | _ => []

/-- The faults that folding may find. -/
def faulty
    (m : Machine) :
    Effect → Fault → Prop
  | arithmetic op signature =>
      fun e => m.folding = true ∧ signature.fold op m.frame.stack = .error e
  | _ => fun _ => False

/-- Effects whose descriptors can be read and that are not refused. -/
def Sound : Effect → Prop
  | store _ slots => 0 < slots
  | readField _ _ descriptor => (pushedType? descriptor).isSome = true
  | writeField _ descriptor => (poppedSlots? descriptor).isSome = true
  | call _ descriptor =>
      (poppedSlots? descriptor).isSome = true ∧ (pushedType? descriptor).isSome = true
  | refuse _ => False
  | _ => True

end Effect

namespace Machine

open SlotFlow.Frame (Follows)

variable {m : Machine} {faulty : Fault → Prop}

theorem onFrame_account
    {α : Type}
    {popped : Nat}
    {slots : List Slot}
    {act : FrameM α}
    (post : α → Frame → Prop)
    (h : Account Frame.view m.frame popped slots faulty post (act m.frame)) :
    Account Machine.frame m popped slots faulty (fun _ _ => True) (onFrame act m) := by
  unfold onFrame
  generalize act m.frame = result at h
  cases h with
  | underflow h =>
      exact .underflow h
  | fault h he =>
      exact .fault h he
  | overflow h hlimit =>
      exact .overflow h hlimit
  | done h hroom hg _ =>
      exact .done h hroom hg trivial

/-- Objects under construction take one slot, as the objects they become do. -/
theorem constructedType_slot
    {category : Category}
    {callOwner type : String}
    (h : m.constructedType? category callOwner = some type) :
    category.slot = .single := by
  cases category <;> first | rfl | cases h

theorem replaceAll_follows
    {f : Frame}
    {old new : Value}
    (h : old.slot = new.slot) :
    Follows f 0 [] (f.replaceAll old new) := by
  refine ⟨rfl, rfl, rfl, ?_⟩
  simp only [Frame.replaceAll, List.map_map, List.drop_zero, List.nil_append]
  apply List.map_congr_left
  intro v _
  simp only [Function.comp_apply]
  split
  · rename_i hold
    rw [hold, h]
  · rfl

theorem completeConstruction_account
    (hm : m.frame.Ready)
    (v : Value)
    (callOwner : String) :
    Account Machine.frame m 0 [] faulty (fun _ _ => True)
      (completeConstruction v callOwner m) := by
  unfold completeConstruction
  split
  · rename_i type htype
    have hslot : v.slot = (Value.unknownObject type).slot := constructedType_slot htype
    exact .unchanged hm (replaceAll_follows hslot) trivial
  · exact .unchanged hm ⟨rfl, rfl, rfl, rfl⟩ trivial

theorem popReceiver_account
    (hm : m.frame.Ready)
    (receiver : Receiver) :
    Account Machine.frame m receiver.popped [] faulty (fun _ _ => True)
      (popReceiver receiver m) := by
  cases receiver with
  | none =>
      exact .unchanged hm ⟨rfl, rfl, rfl, rfl⟩ trivial
  | object =>
      apply Account.bind_quiet hm (onFrame_account _ (Frame.pop_account hm))
      intro v n _ hn _
      exact .unchanged hn ⟨rfl, rfl, rfl, rfl⟩ trivial
  | constructed owner =>
      apply Account.bind_quiet hm (onFrame_account _ (Frame.pop_account hm))
      intro v n _ hn _
      exact completeConstruction_account hn v owner

theorem create_account
    (hm : m.frame.Ready)
    (type : String) :
    Account Machine.frame m 0 [.single] faulty (fun _ _ => True) (create type m) := by
  have hpush (n : Machine) (hn : n.frame = m.frame) (site : CreationSite) :
      Account Machine.frame m 0 [.single] faulty (fun _ _ => True)
        (onFrame (Frame.push (.uninitialized site)) n) := by
    have hready : n.frame.Ready := by
      rw [hn]
      exact hm
    exact (onFrame_account _ (Frame.push_account hready (.uninitialized site))).of_view_eq hn
  unfold create
  split
  · exact hpush _ (by rfl) _
  · exact hpush _ (by rfl) _

/-- Carrying an effect out keeps to its account. -/
theorem perform_account
    (hm : m.frame.Ready)
    {effect : Effect}
    (h : effect.Sound) :
    Account Machine.frame m effect.popped (effect.slots m.frame) (effect.faulty m)
      (fun _ _ => True) (perform effect m) := by
  have hf : (Frame.view m.frame).Ready := hm
  cases effect with
  | nothing =>
      exact .unchanged hm ⟨rfl, rfl, rfl, rfl⟩ trivial
  | push v =>
      exact onFrame_account _ (Frame.pushSized_account hm v)
  | discard slots =>
      exact onFrame_account _ (Frame.popMany_account hm slots)
  | replace slots v =>
      rw [perform]
      apply onFrame_account fun _ _ => True
      change Account _ _ (slots + 0) _ _ _ _
      apply Account.bind_pop hf (Frame.popMany_account hm slots)
      intro _ g _ hg _
      exact Frame.pushSized_account hg v
  | load index wide =>
      rw [perform]
      apply onFrame_account fun _ _ => True
      change Account _ _ (0 + 0) _ _ _ _
      apply Account.bind_pop hf (Frame.getLocal_account hm index)
      intro v g _ hg hread
      rw [Effect.slots, hread]
      apply Account.bind_push hg (Frame.push_account hg v)
      intro _ h _ hh _
      cases wide with
      | false =>
          exact .unchanged hh ⟨rfl, rfl, rfl, rfl⟩ trivial
      | true =>
          exact (Frame.push_account hh .top).weaken fun _ _ _ => trivial
  | store index slots =>
      rw [perform]
      apply onFrame_account fun _ _ => True
      apply Account.bind_quiet hf (Frame.popWide_account hm h)
      intro v g _ hg _
      exact Frame.setLocal_account hg index v
  | increment index delta =>
      rw [perform]
      apply onFrame_account fun _ _ => True
      apply Account.bind_quiet hf (Frame.getLocal_account hm index)
      intro v g _ hg _
      exact Frame.setLocal_account hg index _
  | element =>
      rw [perform]
      apply onFrame_account fun _ _ => True
      change Account _ _ (1 + (1 + 0)) _ _ _ _
      apply Account.bind_pop hf (Frame.pop_account hm)
      intro _ g _ hg hindex
      apply Account.bind_pop hg (Frame.pop_account hg)
      intro v h _ hh harray
      have hread : Locals.read m.frame.stack 1 = v := by
        rw [hindex, harray]
        rfl
      rw [Effect.slots, hread]
      exact (Frame.push_account hh (.unknown _)).weaken fun _ _ _ => trivial
  | shuffle slots order =>
      rw [perform]
      apply onFrame_account fun _ _ => True
      change Account _ _ (slots + 0) _ _ _ _
      apply Account.bind_pop hf (Frame.popCells_account hm slots)
      rintro cells g _ hg ⟨rfl, _⟩
      exact Frame.pushCells_account hg _
  | arithmetic op signature =>
      exact onFrame_account _ (Frame.arithmetic_account hm m.folding op signature)
  | readField static name descriptor =>
      obtain ⟨type, htype⟩ := Option.isSome_iff_exists.1 h
      rw [Effect.slots, htype]
      rw [perform]
      apply onFrame_account fun _ _ => True
      cases static with
      | true =>
          exact Frame.pushDescriptor_account hm htype (some name)
      | false =>
          change Account _ _ (1 + 0) _ _ _ _
          apply Account.bind_pop hf (Frame.pop_account hm)
          intro _ g _ hg _
          exact Frame.pushDescriptor_account hg htype (some name)
  | writeField static descriptor =>
      obtain ⟨count, hcount⟩ := Option.isSome_iff_exists.1 h
      rw [Effect.popped, hcount]
      rw [perform]
      apply onFrame_account fun _ _ => True
      apply Account.bind_pop hf (Frame.popDescriptor_account hm hcount)
      intro _ g _ hg _
      cases static with
      | true =>
          exact .unchanged hg ⟨rfl, rfl, rfl, rfl⟩ trivial
      | false =>
          exact (Frame.popMany_account hg 1).weaken fun _ _ _ => trivial
  | call receiver descriptor =>
      obtain ⟨count, hcount⟩ := Option.isSome_iff_exists.1 h.1
      obtain ⟨type, htype⟩ := Option.isSome_iff_exists.1 h.2
      rw [Effect.popped, Effect.slots, hcount, htype]
      apply Account.bind_pop hm (onFrame_account _ (Frame.popDescriptor_account hm hcount))
      intro _ n _ hn _
      change Account _ _ (receiver.popped + 0) _ _ _ _
      apply Account.bind_pop hn (popReceiver_account hn receiver)
      intro _ o _ ho _
      exact onFrame_account _ (Frame.pushDescriptor_account ho htype none)
  | create type =>
      exact create_account hm type
  | refuse fault =>
      exact h.elim

end Machine
end SlotFlow
