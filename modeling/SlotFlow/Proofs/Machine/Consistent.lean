import SlotFlow.Proofs.Frame.Locals
import SlotFlow.Proofs.Frame.Paired
import SlotFlow.Proofs.Machine.Below
import SlotFlow.Proofs.Machine.EffectAccount
import SlotFlow.Proofs.Machine.Judgement

/-!
# What always holds between two records

Whatever records are executed, verified code or not and also past records that failed,
the frame between two of them is consistent: its locals are laid out in pairs, its
literals are of their categories, its depths are within its marks and these within the
limit, and nothing is left in it where control cannot be.

Main definitions:

* `Frame.Coherent`: the layout, the marks and the emptiness of unreachable frames;
* `Frame.Grows`: the marks do not decrease and the limit stays;
* `Evolves`: operations that keep frames coherent and growing;
* `Frame.Consistent`: coherent frames whose literals are of their categories.

Main statements:

* `execute_evolves`: every record keeps frames coherent and growing;
* `after_consistent`: the machines of all runs are consistent.
-/

namespace SlotFlow

namespace Frame

/-- The layout, the marks and the emptiness of frames that control does not reach. -/
structure Coherent (f : Frame) : Prop where
  /-- A wide local has a slot after it, which is empty. -/
  paired : Locals.Paired f.locals
  depth : f.stack.length ≤ f.maxStack
  count : f.locals.length ≤ f.maxLocals
  within : ∀ limit, f.limit = some limit → f.maxStack ≤ limit
  cleared : f.reachable = false → f.locals = [] ∧ f.stack = []

/-- A later frame: its marks are no less, and it has the same limit. -/
structure Grows (f g : Frame) : Prop where
  limit : g.limit = f.limit
  maxStack : f.maxStack ≤ g.maxStack
  maxLocals : f.maxLocals ≤ g.maxLocals

theorem Grows.refl
    (f : Frame) :
    f.Grows f :=
  ⟨rfl, Nat.le_refl _, Nat.le_refl _⟩

theorem Grows.trans
    {f g h : Frame}
    (hfg : f.Grows g)
    (hgh : g.Grows h) :
    f.Grows h :=
  ⟨hgh.limit.trans hfg.limit, Nat.le_trans hfg.maxStack hgh.maxStack,
    Nat.le_trans hfg.maxLocals hgh.maxLocals⟩

end Frame

section Evolves

variable {σ α β : Type} {view : σ → Frame}

/-- Whether or not it fails, an operation leaves a later frame, coherent if it was before. -/
structure Evolves
    (view : σ → Frame)
    (act : ExceptT Fault (StateM σ) α) : Prop where
  coherent : ∀ s, (view s).Coherent → (view (act s).2).Coherent
  grows : ∀ s, (view s).Grows (view (act s).2)

theorem Evolves.bind
    {act : ExceptT Fault (StateM σ) α}
    {next : α → ExceptT Fault (StateM σ) β}
    (h : Evolves view act)
    (hnext : ∀ a, Evolves view (next a)) :
    Evolves view (act >>= next) := by
  constructor
  · intro s hs
    have hfirst := h.coherent s hs
    rw [run_bind]
    rcases hact : act s with ⟨e | a, t⟩
    · rwa [hact] at hfirst
    · rw [hact] at hfirst
      exact (hnext a).coherent t hfirst
  · intro s
    have hfirst := h.grows s
    rw [run_bind]
    rcases hact : act s with ⟨e | a, t⟩
    · rwa [hact] at hfirst
    · rw [hact] at hfirst
      exact hfirst.trans ((hnext a).grows t)

/-- What leaves the frame alone. -/
theorem evolves_of_view_eq
    {act : ExceptT Fault (StateM σ) α}
    (h : ∀ s, view (act s).2 = view s) :
    Evolves view act := by
  constructor
  · intro s hs
    rwa [h s]
  · intro s
    rw [h s]
    exact .refl _

theorem evolves_pure
    (a : α) :
    Evolves view (pure a) :=
  evolves_of_view_eq fun _ => rfl

theorem evolves_throw
    (e : Fault) :
    Evolves view (throw e : ExceptT Fault (StateM σ) α) :=
  evolves_of_view_eq fun _ => rfl

end Evolves

namespace Frame

variable {f : Frame}

theorem evolves_whenReachable
    {α : Type}
    {act : Frame → Except Fault α × Frame}
    (hcoherent : ∀ f, f.reachable = true → f.Coherent → (act f).2.Coherent)
    (hgrows : ∀ f : Frame, f.reachable = true → f.Grows (act f).2) :
    Evolves Frame.view (whenReachable act) := by
  constructor
  · intro f hf
    unfold whenReachable
    split
    · exact hcoherent f (by assumption) hf
    · exact hf
  · intro f
    unfold whenReachable
    split
    · exact hgrows f (by assumption)
    · exact .refl f

namespace Coherent

theorem writeLocal
    (hf : f.Coherent)
    (hreachable : f.reachable = true)
    (index : Nat)
    (v : Value) :
    (f.writeLocal index v).Coherent where
  paired := hf.paired.write index v
  depth := hf.depth
  count := Nat.le_max_right _ _
  within := hf.within
  cleared hunreachable := by
    rw [Frame.writeLocal, hreachable] at hunreachable
    cases hunreachable

theorem dropped
    (hf : f.Coherent)
    (count : Nat) :
    Coherent { f with stack := f.stack.drop count } where
  paired := hf.paired
  depth := by
    have hdepth := hf.depth
    simp only [List.length_drop]
    omega
  count := hf.count
  within := hf.within
  cleared hunreachable := by
    obtain ⟨hlocals, hstack⟩ := hf.cleared hunreachable
    exact ⟨hlocals, by rw [hstack, List.drop_nil]⟩

theorem pushed
    (hf : f.Coherent)
    (hreachable : f.reachable = true)
    (hroom : f.exceeded? (f.stack.length + 1) = none)
    (v : Value) :
    (f.pushed v).Coherent where
  paired := hf.paired
  depth := Nat.le_max_right _ _
  count := hf.count
  within limit hlimit :=
    Nat.max_le.2 ⟨hf.within limit hlimit, exceeded_eq_none.1 hroom limit hlimit⟩
  cleared hunreachable := by
    rw [Frame.pushed, hreachable] at hunreachable
    cases hunreachable

theorem reset
    (hf : f.Coherent)
    (locals : List VerificationType)
    {stack : List VerificationType}
    (hroom : f.exceeded? (expand stack).length = none) :
    (f.reset locals stack).Coherent where
  paired := .expand locals
  depth := by
    simp only [Frame.reset, List.length_reverse]
    exact Nat.le_max_right _ _
  count := Nat.le_max_right _ _
  within limit hlimit :=
    Nat.max_le.2 ⟨hf.within limit hlimit, exceeded_eq_none.1 hroom limit hlimit⟩
  cleared := nofun

/-- A replacement that makes nothing narrow wide and fills no empty slot keeps frames coherent. -/
theorem replaced
    (hf : f.Coherent)
    {old new : Value}
    (hwide : new.isWide = true → old.isWide = true)
    (htop : old.isTop = true → new.isTop = true) :
    (f.replaceAll old new).Coherent where
  paired := hf.paired.replaced hwide htop
  depth := by
    simp only [Frame.replaceAll, List.length_map]
    exact hf.depth
  count := by
    simp only [Frame.replaceAll, List.length_map]
    exact hf.count
  within := hf.within
  cleared hunreachable := by
    obtain ⟨hlocals, hstack⟩ := hf.cleared hunreachable
    simp only [Frame.replaceAll, hlocals, hstack, List.map_nil, and_self]

/-- What replaces a value that is neither wide nor empty is neither, either. -/
theorem replaceAll
    (hf : f.Coherent)
    {old : Value}
    (hold : old.slot = .single)
    (type : String) :
    (f.replaceAll old (.unknownObject type)).Coherent := by
  apply hf.replaced
  · intro hwide
    cases hwide
  · intro htop
    rw [Value.slot_eq_empty.2 htop] at hold
    cases hold

theorem leave
    (hf : f.Coherent) :
    f.leave.Coherent where
  paired := nofun
  depth := Nat.zero_le _
  count := Nat.zero_le _
  within := hf.within
  cleared _ := ⟨rfl, rfl⟩

end Coherent

theorem pop_evolves :
    Evolves Frame.view pop := by
  apply evolves_whenReachable
  · intro f _ hf
    have hdropped := hf.dropped 1
    cases hstack : f.stack with
    | nil =>
        exact hf
    | cons v rest =>
        rwa [hstack] at hdropped
  · intro f _
    cases hstack : f.stack <;> exact ⟨rfl, Nat.le_refl _, Nat.le_refl _⟩

theorem popWide_evolves
    (count : Nat) :
    Evolves Frame.view (popWide count) := by
  apply evolves_whenReachable
  · intro f _ hf
    split
    · rename_i n v rest hdrop
      have hrest : f.stack.drop (n + 1) = rest := by
        rw [← List.tail_drop]
        exact congrArg List.tail hdrop
      have hdropped := hf.dropped (n + 1)
      rwa [hrest] at hdropped
    · exact hf
  · intro f _
    split <;> exact ⟨rfl, Nat.le_refl _, Nat.le_refl _⟩

/-- Every operation on frames keeps them coherent and growing. -/
theorem evolves_judgement :
    Judgement fun _ => Evolves Frame.view where
  pure := evolves_pure
  throw := evolves_throw
  bind := Evolves.bind
  getLocal index := by
    apply evolves_whenReachable
    · intro f _ hf
      exact ⟨hf.paired, hf.depth, Nat.le_trans hf.count (Nat.le_max_left _ _), hf.within,
        hf.cleared⟩
    · intro f _
      exact ⟨rfl, Nat.le_refl _, Nat.le_max_left _ _⟩
  setLocal index v := by
    apply evolves_whenReachable
    · intro f hreachable hf
      exact hf.writeLocal hreachable index v
    · intro f _
      exact ⟨rfl, Nat.le_refl _, Nat.le_max_left _ _⟩
  push v := by
    apply evolves_whenReachable
    · intro f hreachable hf
      cases hroom : f.exceeded? (f.stack.length + 1) with
      | some limit =>
          exact hf
      | none =>
          exact hf.pushed hreachable hroom v
    · intro f _
      cases hroom : f.exceeded? (f.stack.length + 1) with
      | some limit =>
          exact .refl f
      | none =>
          exact ⟨rfl, Nat.le_max_left _ _, Nat.le_refl _⟩
  pop := pop_evolves
  popWide := popWide_evolves
  popMany count := by
    apply evolves_whenReachable
    · intro f _ hf
      split
      · exact hf
      · exact hf.dropped count
    · intro f _
      split <;> exact ⟨rfl, Nat.le_refl _, Nat.le_refl _⟩
  resetTo locals stack := by
    constructor
    · intro f hf
      unfold resetTo
      cases hroom : f.exceeded? (expand stack).length with
      | some limit =>
          simpa only [hroom] using hf
      | none =>
          simp only [hroom]
          exact hf.reset locals hroom
    · intro f
      unfold resetTo
      simp only
      split
      · exact .refl f
      · exact ⟨rfl, Nat.le_max_left _ _, Nat.le_max_left _ _⟩

end Frame

namespace Machine

/-- Every step keeps frames coherent and growing. -/
theorem evolves_judgement :
    Judgement (fun _ => Evolves Frame.view) (fun _ => Evolves frame) where
  frame := Frame.evolves_judgement
  pure := evolves_pure
  throw := evolves_throw
  bind := Evolves.bind
  onFrame h := ⟨fun m => h.coherent m.frame, fun m => h.grows m.frame⟩
  folding _ h := ⟨fun m => (h m.folding).coherent m, fun m => (h m.folding).grows m⟩
  completeConstruction v callOwner := by
    constructor
    · intro m hm
      unfold completeConstruction
      split
      · rename_i type htype
        exact hm.replaceAll (constructedType_slot htype) type
      · exact hm
    · intro m
      unfold completeConstruction
      split <;> exact ⟨rfl, Nat.le_refl _, Nat.le_refl _⟩
  create type := by
    have hpush (site : CreationSite) := Frame.evolves_judgement.push (.uninitialized site)
    constructor
    · intro m hm
      unfold create
      split <;> exact (hpush _).coherent m.frame hm
    · intro m
      unfold create
      split <;> exact (hpush _).grows m.frame
  executeReachable op {effect} h := by
    constructor
    · intro m hm
      have hstart : (m.executing op).frame.Coherent :=
        ⟨hm.paired, hm.depth, hm.count, hm.within, hm.cleared⟩
      have hstep := h.coherent (m.executing op) hstart
      unfold executeReachable
      rcases hperform : perform effect (m.executing op) with ⟨_ | _, after⟩
      · rwa [hperform] at hstep
      · rw [hperform] at hstep
        simp only
        split
        · exact hstep.leave
        · exact hstep
    · intro m
      have hstep := h.grows (m.executing op)
      unfold executeReachable
      rcases hperform : perform effect (m.executing op) with ⟨_ | _, after⟩
      · rw [hperform] at hstep
        exact ⟨hstep.limit, hstep.maxStack, hstep.maxLocals⟩
      · rw [hperform] at hstep
        simp only
        split <;> exact ⟨hstep.limit, hstep.maxStack, hstep.maxLocals⟩
  whereReachable h := by
    constructor
    · intro m hm
      by_cases hreachable : m.frame.reachable = true
      · simpa only [hreachable, if_true] using h.coherent m hm
      · simp only [if_neg hreachable]
        exact hm
    · intro m
      by_cases hreachable : m.frame.reachable = true
      · simpa only [hreachable, if_true] using h.grows m
      · simp only [if_neg hreachable]
        exact .refl m.frame
  label _ := evolves_of_view_eq fun _ => rfl

/-- Every record keeps frames coherent and growing. -/
theorem execute_evolves
    (r : Record) :
    Evolves frame (execute r) :=
  evolves_judgement.execute r

end Machine

namespace Frame

variable {f : Frame}

theorem empty_coherent
    (limit : Option Nat) :
    (empty limit).Coherent where
  paired := nofun
  depth := Nat.le_refl _
  count := Nat.le_refl _
  within _ _ := Nat.zero_le _
  cleared := nofun

theorem writeLocal_grows
    (f : Frame)
    (index : Nat)
    (v : Value) :
    f.Grows (f.writeLocal index v) :=
  ⟨rfl, Nat.le_refl _, Nat.le_max_left _ _⟩

theorem writeParameters_coherent
    (hf : f.Coherent)
    (hreachable : f.reachable = true)
    (index : Nat)
    (types : List FieldType) :
    (f.writeParameters index types).Coherent ∧ f.Grows (f.writeParameters index types) := by
  induction types generalizing f index with
  | nil =>
      exact ⟨hf, .refl f⟩
  | cons type types ih =>
      have hwritten := hf.writeLocal hreachable index (.unknown (.ofFieldType type))
      obtain ⟨hcoherent, hgrows⟩ := ih hwritten hreachable (index + type.size)
      exact ⟨hcoherent, (f.writeLocal_grows index _).trans hgrows⟩

/-- The frame at the start of a method is coherent and has the limit that was asked for. -/
theorem entry_coherent
    {method : Method}
    {limit : Option Nat}
    (h : entry method limit = .ok f) :
    f.Coherent ∧ f.limit = limit := by
  have hempty := empty_coherent limit
  unfold entry at h
  split at h
  · cases h
  · split at h
    · cases h
      obtain ⟨hcoherent, hgrows⟩ := writeParameters_coherent hempty rfl 0 _
      exact ⟨hcoherent, hgrows.limit⟩
    · cases h
      have hwritten := hempty.writeLocal rfl 0 (receiver method)
      obtain ⟨hcoherent, hgrows⟩ := writeParameters_coherent hwritten rfl 1 _
      exact ⟨hcoherent, hgrows.limit⟩

/-- A coherent frame whose literals are of their categories. -/
structure Consistent (f : Frame) : Prop extends Coherent f where
  literal :
    ∀ v ∈ f.locals ++ f.stack,
      v.literal = .unknown ∨ Category.ofKind v.literal.kind = v.category
  /-- Nothing is known of empty slots and of objects under construction. -/
  bare :
    ∀ v ∈ f.locals ++ f.stack,
      v.category = .top ∨ v.category = .uninitializedThis ∨
          (∃ site, v.category = .uninitialized site) →
        v.literal = .unknown

theorem Coherent.consistent
    (hf : f.Coherent)
    (hbuilt : f.Built) :
    f.Consistent where
  toCoherent := hf
  literal v hv := (hbuilt v hv).kind
  bare v hv hcategory := by
    apply (hbuilt v hv).literal_eq_unknown
    intro kind hkind
    rcases hcategory with h | h | ⟨site, h⟩ <;> rw [h] at hkind <;>
      cases kind <;> first | rfl | cases hkind

end Frame

namespace Machine

variable {m : Machine}

theorem after_append
    (m : Machine)
    (before rest : List Record) :
    m.after (before ++ rest) = (m.after before).after rest := by
  induction before generalizing m with
  | nil =>
      rfl
  | cons r before ih =>
      exact ih _

theorem Reached.after
    (h : Reached m)
    (records : List Record) :
    Reached (m.after records) := by
  induction records generalizing m with
  | nil =>
      exact h
  | cons r records ih =>
      exact ih (h.step r)

theorem after_coherent
    (h : m.frame.Coherent)
    (records : List Record) :
    (m.after records).frame.Coherent := by
  induction records generalizing m with
  | nil =>
      exact h
  | cons r records ih =>
      exact ih ((execute_evolves r).coherent m h)

theorem after_grows
    (m : Machine)
    (records : List Record) :
    m.frame.Grows (m.after records).frame := by
  induction records generalizing m with
  | nil =>
      exact .refl _
  | cons r records ih =>
      exact ((execute_evolves r).grows m).trans (ih _)

theorem start_coherent
    {method : Method}
    {settings : Settings}
    (h : start method settings = .ok m) :
    m.frame.Coherent ∧ m.frame.limit = settings.maxStack := by
  unfold start at h
  obtain ⟨f, hentry, rfl⟩ := exists_of_map_eq_ok h
  exact Frame.entry_coherent hentry

/--
After any records, executed one after the other and also past those that fail, the frame
is consistent: wide locals have their second halves, so that no store touches a slot past
the locals; literals are of their categories; stack and locals are within the marks, and
these within the limit of the settings; an unreachable frame is empty. The next record
does not decrease the marks.
-/
theorem after_consistent
    {method : Method}
    {settings : Settings}
    (h : start method settings = .ok m)
    (records : List Record) :
    (m.after records).frame.Consistent ∧
      (∀ index v, Locals.InBounds (m.after records).frame.locals index v) ∧
      (∀ limit, settings.maxStack = some limit → (m.after records).frame.maxStack ≤ limit) ∧
      ∀ r, (m.after records).frame.Grows (m.after (records ++ [r])).frame := by
  obtain ⟨hstart, hlimit⟩ := start_coherent h
  have hcoherent := after_coherent hstart records
  have hbuilt := ((Reached.start h).after records).stable Frame.built_stable
  refine ⟨hcoherent.consistent hbuilt, hcoherent.paired.inBounds, ?_, ?_⟩
  · intro limit hsome
    apply hcoherent.within limit
    rw [(m.after_grows records).limit, hlimit, hsome]
  · intro r
    rw [after_append]
    exact (m.after records).after_grows [r]

/-- The second half of a long is overwritten, and a copy fails half-way. -/
theorem after_consistent_overwritten :
    let m : Machine := ⟨Frame.empty (some 2), "A", true, [], [], 0⟩
    let records : List Record :=
      [.bare .lconst1, .slot .lstore 0, .bare .iconst1, .slot .istore 1, .bare .iconst2,
        .bare .dupX1]
    (m.after records).frame.locals = [.top, .int 1] ∧ (m.after records).frame.stack = [] ∧
      (m.after records).frame.Consistent :=
  ⟨rfl, rfl, (after_consistent (start_static "A" "run" ⟨some 2, true, false⟩) _).1⟩

end Machine
end SlotFlow
