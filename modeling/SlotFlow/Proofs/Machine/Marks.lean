import SlotFlow.Proofs.Frame.Entry
import SlotFlow.Proofs.Frame.Marks
import SlotFlow.Proofs.Machine.Limit
import SlotFlow.Proofs.Machine.Performed
import SlotFlow.Proofs.Machine.Reachability
import SlotFlow.Proofs.Observation

/-!
# The marks of an analysis

The marks that an analysis reports are exact. The deepest stack is that of a frame between
two records: inside a record the stack gets no deeper than it is before or after it. The
greatest number of locals is that of a frame between two records too, or goes up to a local
that a load has read.

Main definitions:

* `Effect.loaded`, `Record.load?`: the local that a load reads;
* `Machine.shown`: the frames that observers are shown;
* `Machine.loaded`: the loads that are executed;
* `Machine.anew`: a machine whose mark of the stack starts over;
* `Tracks`: marks that follow a size of the frame.

Main statements:

* `perform_marks`, `execute_marks`: an effect and a record raise all marks alike;
* `runFrom_shown`: the frames that observers are shown;
* `Tracks.run`: what a mark comes to over a run;
* `marks_exact`: the marks of every analysis that goes through.
-/

namespace SlotFlow

/-- The number of locals up to the one that an effect loads. -/
def Effect.loaded : Effect → Nat
  | load index _ => index + 1
  | _ => 0

/-- The local that a load reads. -/
def Record.load? : Record → Option Nat
  | slot op index =>
      match op with
      | .iload | .lload | .fload | .dload | .aload => some index.toNat
      | _ => none
  | _ => none

theorem Opcode.bareEffect_loaded
    (op : Opcode) :
    op.bareEffect.loaded = 0 := by
  unfold bareEffect
  split
  · rfl
  · split <;> rfl

/-- Only loads read a local without writing it. -/
theorem Record.effect_loaded
    (r : Record) :
    r.effect.loaded = (r.load?.map (· + 1)).getD 0 := by
  cases r with
  | bare op =>
      exact op.bareEffect_loaded
  | integer op operand =>
      change (integerEffect op operand).loaded = 0
      unfold integerEffect
      split
      · split <;> rfl
      · rfl
  | slot op index =>
      cases op <;> rfl
  | typed op name =>
      cases op <;> rfl
  | field op owner name descriptor =>
      cases op <;> rfl
  | jump op target =>
      cases op <;> rfl
  | _ =>
      rfl

/-- Whether an effect pops slots and does nothing else. -/
def Effect.onlyPops : Effect → Bool
  | nothing | discard _ => true
  | _ => false

/-- The opcodes that end the flow, by the operands that they can have. -/
theorem flowEnding_onlyPops :
    ∀ op ∈ flowEnding,
      op.bareEffect.onlyPops = true ∧ (jumpEffect op).onlyPops = true ∧
        op.shape ∈ [Shape.bare, .jump, .table, .lookup] := by
  decide

/-- An instruction that ends the flow pushes nothing. -/
theorem Record.Accepted.onlyPops
    {r : Record}
    {op : Opcode}
    (h : r.Accepted op)
    (hends : op.endsFlow = true) :
    r.effect.onlyPops = true := by
  have hop := h.opcode
  obtain ⟨hbare, hjump, hshape⟩ := flowEnding_onlyPops op (endsFlow_iff.1 hends)
  cases r with
  | bare =>
      cases hop
      exact hbare
  | jump =>
      cases hop
      exact hjump
  | table | lookup =>
      rfl
  | integer | slot | typed | field | method =>
      -- an opcode with these operands does not end the flow
      cases hop
      rw [Record.shape_of_fits h.fits rfl] at hshape
      exact absurd hshape (by decide)
  | increment | callSite | load | multiArray =>
      cases hop
      cases hends
  | label | frame =>
      cases hop

namespace Machine

variable {m n next : Machine} {r : Record} {records : List Record} {k : Marks}

/-- The machine with other marks and another limit. -/
def remarked
    (k : Marks)
    (m : Machine) :
    Machine :=
  m.withFrame (m.frame.remarked k)

section Effects

variable {α : Type}

theorem onFrame_tops
    {act : FrameM α}
    (h : Tops Frame.view Frame.remarked act) :
    Tops frame remarked (onFrame act) where
  count hact := by
    obtain ⟨g, hframe, rfl⟩ := onFrame_eq_ok hact
    exact h.count hframe
  marks {m _ _} hact k hcovers hallows := by
    obtain ⟨g, hframe, rfl⟩ := onFrame_eq_ok hact
    have hmarks := h.marks hframe k hcovers hallows
    change ((act (m.frame.remarked k)).1, m.withFrame (act (m.frame.remarked k)).2) = _
    rw [hmarks]
    rfl

theorem onFrame_lowers
    {act : FrameM α}
    (h : Lowers Frame.view Frame.remarked act) :
    Lowers frame remarked (onFrame act) where
  toTops := onFrame_tops h.toTops
  depth hact := by
    obtain ⟨g, hframe, rfl⟩ := onFrame_eq_ok hact
    exact h.depth hframe

/-- Whether constants are folded does not depend on the marks. -/
theorem folding_tops
    (act : Bool → MachineM α)
    (h : ∀ folding, Tops frame remarked (act folding)) :
    Tops frame remarked fun m => act m.folding m where
  count {m _ _} hact := (h m.folding).count hact
  marks {m _ _} hact k hcovers hallows := (h m.folding).marks hact k hcovers hallows

theorem completeConstruction_lowers
    (v : Value)
    (callOwner : String) :
    Lowers frame remarked (completeConstruction v callOwner) := by
  apply lowers_of_commutes
  · intro m
    rw [completeConstruction_eq]
    simp
  · intro m
    rw [completeConstruction_eq]
    simp
  · intro k m
    rw [completeConstruction_eq, completeConstruction_eq]
    rfl

theorem popReceiver_lowers
    (receiver : Receiver) :
    Lowers frame remarked (popReceiver receiver) := by
  cases receiver with
  | none =>
      exact lowers_pure ()
  | object =>
      apply (onFrame_lowers Frame.pop_lowers).bind
      intro _
      exact lowers_pure ()
  | constructed owner =>
      apply (onFrame_lowers Frame.pop_lowers).bind
      intro v
      exact completeConstruction_lowers v owner

theorem create_tops
    (type : String) :
    Tops frame remarked (create type) := by
  have hpush (site : CreationSite) :
      Tops frame remarked (onFrame (Frame.push (.uninitialized site))) :=
    onFrame_tops (Frame.push_raises (.uninitialized site)).toTops
  constructor
  · intro m a n hcreate
    obtain ⟨site, created, lastSite, heq⟩ := m.create_eq type
    rw [show create type m = _ from heq m.frame] at hcreate
    have hcount := (hpush site).count hcreate
    exact hcount
  · intro m a n hcreate k hcovers hallows
    obtain ⟨site, created, lastSite, heq⟩ := m.create_eq type
    rw [show create type m = _ from heq m.frame] at hcreate
    rw [show create type (m.remarked k) = _ from heq (m.frame.remarked k)]
    exact (hpush site).marks hcreate k hcovers hallows

/-- Every effect but a load pops what it pops before it pushes what it pushes. -/
theorem perform_tops
    {effect : Effect}
    (h : ∀ index wide, effect ≠ .load index wide) :
    Tops frame remarked (perform effect) := by
  cases effect with
  | nothing =>
      exact (lowers_pure ()).toTops
  | push v =>
      exact onFrame_tops (Frame.pushSized_raises v).toTops
  | discard slots =>
      exact onFrame_tops (Frame.popMany_lowers slots).toTops
  | replace slots v =>
      rw [perform]
      apply onFrame_tops
      apply (Frame.popMany_lowers slots).bind_tops
      intro _
      exact (Frame.pushSized_raises v).toTops
  | load index wide =>
      exact absurd rfl (h index wide)
  | store index slots =>
      rw [perform]
      apply onFrame_tops
      apply (Frame.popWide_lowers slots).bind_tops
      intro v
      exact (Frame.setLocal_lowers index v).toTops
  | increment index delta =>
      apply folding_tops fun folding => Machine.onFrame do
        let v ← Frame.getLocal index
        Frame.setLocal index (incremented folding v delta)
      intro folding
      exact onFrame_tops (Frame.updateLocal_tops index fun v => incremented folding v delta)
  | element =>
      rw [perform]
      apply onFrame_tops
      apply Frame.pop_lowers.bind_tops
      intro _
      apply Frame.pop_lowers.bind_tops
      intro v
      exact (Frame.push_raises _).toTops
  | shuffle slots order =>
      rw [perform]
      apply onFrame_tops
      apply (Frame.popCells_lowers slots).bind_tops
      intro cells
      exact (Frame.pushCells_raises _).toTops
  | arithmetic op signature =>
      apply folding_tops fun folding => Machine.onFrame (Machine.arithmetic folding op signature)
      intro folding
      exact onFrame_tops (Frame.arithmetic_tops folding op signature)
  | readField static name descriptor =>
      rw [perform]
      apply onFrame_tops
      cases static with
      | true =>
          exact Frame.pushDescriptor_tops descriptor (some name)
      | false =>
          apply Frame.pop_lowers.bind_tops
          intro _
          exact Frame.pushDescriptor_tops descriptor (some name)
  | writeField static descriptor =>
      rw [perform]
      apply onFrame_tops
      apply (Frame.popDescriptor_lowers descriptor).bind_tops
      intro _
      cases static with
      | true =>
          exact (lowers_pure ()).toTops
      | false =>
          exact (Frame.popMany_lowers 1).toTops
  | call receiver descriptor =>
      apply (onFrame_lowers (Frame.popDescriptor_lowers descriptor)).bind_tops
      intro _
      apply (popReceiver_lowers receiver).bind_tops
      intro _
      exact onFrame_tops (Frame.pushDescriptor_tops descriptor none)
  | create type =>
      exact create_tops type
  | refuse fault =>
      exact (lowers_throw fault).toTops

/-- Carrying an effect out raises all marks alike. -/
theorem perform_marks
    {effect : Effect}
    (hperform : perform effect m = (.ok (), n))
    (hcovers : k.Covers m.frame)
    (hallows : k.Allows n.frame) :
    perform effect (m.remarked k) =
      (.ok (), n.remarked ((k.reading effect.loaded).raised n.frame)) := by
  by_cases hload : ∃ index wide, effect = .load index wide
  · obtain ⟨index, wide, rfl⟩ := hload
    rw [perform] at hperform ⊢
    obtain ⟨g, hframe, rfl⟩ := onFrame_eq_ok hperform
    have hnext (v : Value) : Tops Frame.view Frame.remarked (do
        Frame.push v
        if wide then
          Frame.push .top) := by
      apply ((Frame.push_raises v).bind ?_).toTops
      intro _
      split
      · exact Frame.push_raises .top
      · exact raises_pure ()
    have hmarks := Frame.getLocal_marks hnext hframe hcovers hallows
    unfold onFrame
    rw [remarked, withFrame_frame, hmarks]
    rfl
  · have htops : Tops frame remarked (perform effect) :=
      perform_tops fun index wide heffect => hload ⟨index, wide, heffect⟩
    have hnone : k.reading effect.loaded = k := by
      cases effect with
      | load index wide =>
          exact absurd ⟨index, wide, rfl⟩ hload
      | _ =>
          exact congrArg (Marks.mk _ _) (Nat.max_zero _)
    rw [hnone]
    exact htops.marks hperform k hcovers hallows

end Effects

/-- The number of locals up to the one that a record loads, where control can be. -/
def reading
    (m : Machine)
    (r : Record) :
    Nat :=
  if m.frame.reachable then r.effect.loaded else 0

theorem reading_of_nothing
    (h : r.effect = .nothing) :
    m.reading r = 0 := by
  rw [reading, h]
  split <;> rfl

theorem reading_of_reachable
    (h : m.frame.reachable = true) :
    m.reading r = r.effect.loaded :=
  if_pos h

/-- Marks that cover what is there stay where nothing is done and nothing is read. -/
theorem raised_of_covers
    (hcovers : k.Covers m.frame)
    (hnone : m.reading r = 0) :
    (k.reading (m.reading r)).raised m.frame = k := by
  rw [hnone, k.reading_zero]
  exact k.raised_eq hcovers.depth hcovers.count

theorem execute_of_accepted
    {op : Opcode}
    (haccepted : r.Accepted op)
    (m : Machine) :
    execute r m =
      if m.frame.reachable then executeReachable op r.effect m else (.ok (), m.finished) := by
  rw [execute_of_opcode haccepted.opcode, executeInstruction, haccepted.plain, haccepted.fits]
  rfl

/-- An effect that ends the flow does the same under all marks, and leaves them alone. -/
theorem perform_marks_of_ends
    {op : Opcode}
    (haccepted : r.Accepted op)
    (hends : op.endsFlow = true)
    (hperform : perform r.effect m = (.ok (), n))
    (hcovers : k.Covers m.frame) :
    perform r.effect (m.remarked k) = (.ok (), n.remarked k) ∧ r.effect.loaded = 0 := by
  have heffect : Lowers frame remarked (perform r.effect) ∧
      n.frame.locals = m.frame.locals ∧ r.effect.loaded = 0 := by
    have honly := haccepted.onlyPops hends
    generalize r.effect = effect at honly hperform
    cases effect with
    | nothing =>
        cases hperform
        exact ⟨lowers_pure (), rfl, rfl⟩
    | discard slots =>
        rw [perform] at hperform ⊢
        obtain ⟨g, hpop, rfl⟩ := onFrame_eq_ok hperform
        exact ⟨onFrame_lowers (Frame.popMany_lowers slots),
          (Frame.popMany_exchanged hpop).locals, rfl⟩
    | _ =>
        cases honly
  obtain ⟨hlowers, hlocals, hloaded⟩ := heffect
  have hdepth := hlowers.depth hperform
  have hmarks := hlowers.marks hperform k hcovers (hcovers.allows.of_le hdepth)
  rw [k.raised_eq (Nat.le_trans hdepth hcovers.depth) (hlocals ▸ hcovers.count)] at hmarks
  exact ⟨hmarks, hloaded⟩

/-- Executing a record raises all marks alike. -/
theorem execute_marks
    (h : execute r m = (.ok (), next))
    (hcovers : k.Covers m.frame)
    (hallows : k.Allows next.frame) :
    execute r (m.remarked k) =
      (.ok (), next.remarked ((k.reading (m.reading r)).raised next.frame)) := by
  have hexecuting {op : Opcode} : k.Covers (m.executing op).frame :=
    ⟨hcovers.depth, hcovers.count, hcovers.allows⟩
  have hexecution := execute_execution r m
  rw [h] at hexecution
  cases hexecution with
  | label l =>
      rw [raised_of_covers hcovers (reading_of_nothing rfl)]
      rfl
  | @reset f kind room =>
      have hreset : Frame.resetTo f.locals f.stack m.frame =
          (.ok (), m.frame.reset f.locals f.stack) := by
        simp only [Frame.resetTo, room]
        rfl
      have hmarks := Frame.resetTo_marks hreset hallows
      rw [reading_of_nothing rfl, k.reading_zero, execute, if_pos kind]
      unfold onFrame
      rw [remarked, withFrame_frame, hmarks]
      rfl
  | passed accepted unreachable =>
      have hnone : m.reading r = 0 := by simp [reading, unreachable]
      rw [execute_of_accepted accepted, if_neg (by simp [remarked, unreachable]),
        raised_of_covers hcovers hnone]
      rfl
  | @continued _ op n accepted reachable performed continues =>
      have hmarks : perform r.effect ((m.remarked k).executing op) = _ :=
        perform_marks performed hexecuting hallows
      rw [execute_of_accepted accepted, if_pos (by exact reachable),
        reading_of_reachable reachable]
      unfold executeReachable
      rw [hmarks]
      simp only [continues]
      rfl
  | @ended _ op n accepted reachable performed ends =>
      obtain ⟨hmarks, hloaded⟩ := perform_marks_of_ends accepted ends performed hexecuting
      have hsame : perform r.effect ((m.remarked k).executing op) = _ := hmarks
      rw [execute_of_accepted accepted, if_pos (by exact reachable),
        reading_of_reachable reachable, hloaded, k.reading_zero,
        k.raised_eq (Nat.zero_le _) (Nat.zero_le _)]
      unfold executeReachable
      rw [hsame]
      simp only [ends]
      rfl

end Machine

theorem Frame.Coherent.covers
    {f : Frame}
    (h : f.Coherent) :
    f.marks.Covers f :=
  ⟨h.depth, h.count, fun limit hlimit => Nat.le_trans h.depth (h.within limit hlimit)⟩

namespace Machine

variable {m next : Machine} {r : Record} {records : List Record}

/-- The marks after a record are those before it, raised to what was read and what is there. -/
theorem executed_marks
    (hm : m.frame.Coherent)
    (h : execute r m = (.ok (), next)) :
    next.frame.marks = (m.frame.marks.reading (m.reading r)).raised next.frame := by
  have hnext := (execute_evolves r).coherent m hm
  have hgrows := (execute_evolves r).grows m
  rw [h] at hnext hgrows
  have hallows : m.frame.marks.Allows next.frame := fun limit hlimit =>
    Nat.le_trans hnext.depth (hnext.within limit (hgrows.limit.trans hlimit))
  have hrun := execute_marks h hm.covers hallows
  have hself : m.remarked m.frame.marks = m := rfl
  rw [hself, h] at hrun
  exact congrArg (fun result => result.2.frame.marks) hrun

/-- What a record loads where control can be, as the number of locals up to there. -/
def reads
    (m : Machine)
    (r : Record) :
    List Nat :=
  if m.frame.reachable then (r.load?.map (· + 1)).toList else []

theorem mem_reads
    {count : Nat} :
    count ∈ m.reads r ↔ count = m.reading r ∧ 0 < m.reading r := by
  rw [reads, reading, r.effect_loaded]
  split
  · cases r.load? with
    | none =>
        simp
    | some index =>
        simp
  · simp

/-- The frames that observers are shown, one before each record. -/
def shown
    (m : Machine) :
    List Record → List Frame
  | [] => []
  | r :: rest => m.frame :: (execute r m).2.shown rest

/-- The frames before the records and after the last one. -/
def frames
    (m : Machine)
    (records : List Record) :
    List Frame :=
  m.shown records ++ [(m.after records).frame]

/-- What is read record by record. -/
def along
    (reads : Machine → Record → List Nat)
    (m : Machine) :
    List Record → List Nat
  | [] => []
  | r :: rest => reads m r ++ along reads (execute r m).2 rest

/-- The locals that loads have read, each as the number of locals up to it. -/
def loaded
    (m : Machine)
    (records : List Record) :
    List Nat :=
  m.along reads records

theorem along_nil
    (m : Machine)
    (records : List Record) :
    along (fun _ _ => []) m records = [] := by
  induction records generalizing m with
  | nil =>
      rfl
  | cons r rest ih =>
      exact ih _

theorem frames_cons
    (m : Machine)
    (r : Record)
    (rest : List Record) :
    m.frames (r :: rest) = m.frame :: (execute r m).2.frames rest :=
  rfl

theorem frame_mem_frames
    (m : Machine)
    (records : List Record) :
    m.frame ∈ m.frames records := by
  cases records with
  | nil =>
      exact List.mem_singleton_self _
  | cons r rest =>
      exact List.mem_cons_self

/--
A mark that is never less than a size of the frame, and that a record raises to the size
that it leaves and to what it reads.
-/
structure Tracks
    (mark size : Frame → Nat)
    (reads : Machine → Record → List Nat) : Prop where
  covers : ∀ {f : Frame}, f.Coherent → size f ≤ mark f
  step :
    ∀ {m next : Machine} {r : Record}, m.frame.Coherent → execute r m = (.ok (), next) →
      (mark m.frame :: size next.frame :: reads m r).max? = some (mark next.frame)

variable {mark size : Frame → Nat} {read : Machine → Record → List Nat}

/-- After a run the mark is what it was, or the greatest of all that it tracks. -/
theorem Tracks.run
    (htracks : Tracks mark size read)
    (hm : m.frame.Coherent)
    (h : m.Succeeds records) :
    (mark m.frame :: ((m.frames records).map size ++ m.along read records)).max? =
      some (mark (m.after records).frame) := by
  induction records generalizing m with
  | nil =>
      have hsize := htracks.covers hm
      simp [frames, shown, along, after, hsize]
  | cons r rest ih =>
      obtain ⟨hfirst, hrest⟩ := h
      have hnext := (execute_evolves r).coherent m hm
      have hstep := htracks.step hm (Prod.ext hfirst rfl : execute r m = (.ok (), (execute r m).2))
      have hrun := ih hnext hrest
      have hsize := htracks.covers hm
      have hlast := List.mem_map_of_mem (f := size) (frame_mem_frames (execute r m).2 rest)
      rw [List.max?_eq_some_iff] at hstep hrun
      rw [List.max?_eq_some_iff, frames_cons, after, along]
      simp only [List.map_cons, List.cons_append, List.mem_cons, List.mem_append,
        or_imp, forall_and, forall_eq] at hstep hrun ⊢
      obtain ⟨hleft, hmark, _, hread⟩ := hstep
      obtain ⟨hreached, hgrows, hsizes, hreads⟩ := hrun
      refine ⟨?_, Nat.le_trans hmark hgrows, by omega, hsizes, ?_, hreads⟩
      · -- the mark that the rest has kept is the one that this record has left
        rcases hreached with hkept | hraised | hraised
        · rw [hkept]
          rcases hleft with hkept | hraised | hraised
          · exact .inl hkept
          · exact .inr (.inr (.inl (hraised ▸ hlast)))
          · exact .inr (.inr (.inr (.inl hraised)))
        · exact .inr (.inr (.inl hraised))
        · exact .inr (.inr (.inr (.inr hraised)))
      · intro count hcount
        exact Nat.le_trans (hread count hcount) hgrows

/-- The mark of the stack tracks its depth. -/
theorem maxStack_tracks :
    Tracks Frame.maxStack (fun f => f.stack.length) (fun _ _ => []) where
  covers h := h.depth
  step {m next r} hm h := by
    have hmark : next.frame.maxStack = max m.frame.maxStack next.frame.stack.length :=
      congrArg Marks.depth (executed_marks hm h)
    rw [hmark]
    rfl

/-- The mark of the locals tracks their number and the loads. -/
theorem maxLocals_tracks :
    Tracks Frame.maxLocals (fun f => f.locals.length) reads where
  covers h := h.count
  step {m next r} hm h := by
    have hmark : next.frame.maxLocals =
        max (max m.frame.maxLocals (m.reading r)) next.frame.locals.length :=
      congrArg Marks.count (executed_marks hm h)
    rw [List.max?_eq_some_iff]
    simp only [List.mem_cons, mem_reads]
    constructor
    · omega
    · rintro count (rfl | rfl | ⟨rfl, _⟩) <;> omega

/-- The marks at the start of a method are those of its frame. -/
theorem start_marks
    {method : Method}
    {settings : Settings}
    (h : start method settings = .ok m) :
    m.frame.maxStack = m.frame.stack.length ∧ m.frame.maxLocals = m.frame.locals.length := by
  obtain ⟨f, hentry, rfl⟩ := exists_of_map_eq_ok h
  have hfilled := Frame.filled_of_entry hentry
  exact ⟨hfilled.unpushed.trans (congrArg List.length hfilled.stack).symm, hfilled.marked⟩

/-- A mark that starts as what it tracks is the greatest of all that it tracks. -/
theorem Tracks.greatest
    (htracks : Tracks mark size read)
    (hm : m.frame.Coherent)
    (hstart : mark m.frame = size m.frame)
    (h : m.Succeeds records) :
    ((m.frames records).map size ++ m.along read records).max? =
      some (mark (m.after records).frame) := by
  have hrun := htracks.run hm h
  have hfirst := List.mem_map_of_mem (f := size) (frame_mem_frames m records)
  rw [List.max?_eq_some_iff] at hrun ⊢
  obtain ⟨hreached, hbound⟩ := hrun
  refine ⟨?_, fun count hcount => hbound count (List.mem_cons_of_mem _ hcount)⟩
  rcases List.mem_cons.1 hreached with hkept | hraised
  · rw [hkept, hstart]
    exact List.mem_append_left _ hfirst
  · exact hraised

/-- The machine with a stack limit, and with a mark that starts over at the depth there is. -/
def anew
    (limit : Nat)
    (m : Machine) :
    Machine :=
  m.remarked ⟨some limit, m.frame.stack.length, m.frame.maxLocals⟩

/--
A mark that starts over before a record comes to the greater of the depths before and after
it, and a limit that allows both allows the record.
-/
theorem execute_anew
    {limit : Nat}
    (hm : m.frame.Coherent)
    (h : execute r m = (.ok (), next))
    (hbefore : m.frame.stack.length ≤ limit)
    (hafter : next.frame.stack.length ≤ limit) :
    execute r (m.anew limit) =
      (.ok (), next.remarked
        ⟨some limit, max m.frame.stack.length next.frame.stack.length,
          next.frame.maxLocals⟩) := by
  have hcount : next.frame.maxLocals =
      max (max m.frame.maxLocals (m.reading r)) next.frame.locals.length :=
    congrArg Marks.count (executed_marks hm h)
  rw [hcount]
  apply execute_marks h
  · refine ⟨Nat.le_refl _, hm.count, ?_⟩
    intro other hother
    cases hother
    exact hbefore
  · intro other hother
    cases hother
    exact hafter

end Machine

section Shown

variable {σ : Type} [Observer σ]

/-- All observers are shown the same frame in a round. -/
theorem Round.frame_eq
    {r : Record}
    {f : Frame}
    {e : Emission}
    {notices : List Notice}
    {outcome : Except Fault Emission}
    (h : Round r f e notices outcome) :
    ∀ n ∈ notices, n.frame = f := by
  induction h with
  | done e =>
      exact List.forall_mem_nil _
  | passed rest ih =>
      exact List.forall_mem_cons.2 ⟨rfl, ih⟩
  | failed e fault =>
      exact List.forall_mem_singleton.2 rfl

/-- The frames that an observer was shown. -/
def Watched.frames
    (w : Watched σ) :
    List Frame :=
  w.notices.map fun n => n.frame

/-- A record that no observer fails at is shown to all of them, with the same frame. -/
theorem notify_frames
    {r : Record}
    {f : Frame}
    {watched : List (Watched σ)}
    {e later : Emission}
    (h : (notify r f watched e).outcome = .ok later)
    (i : Nat) :
    ((notify r f watched e).observers[i]?).map Watched.frames =
      (watched[i]?).map fun w => w.frames ++ [f] := by
  obtain ⟨notices, hcalled⟩ := notify_round r f watched e
  have hlists := hcalled.lists i
  have hcount := hcalled.all later h
  cases hw : watched[i]? with
  | none =>
      rw [hw] at hlists
      simp only [Option.map_none, Option.map_eq_none_iff] at hlists ⊢
      exact hlists
  | some w =>
      obtain ⟨hi, _⟩ := List.getElem?_eq_some_iff.1 hw
      have hn : notices[i]? = some notices[i] := List.getElem?_eq_getElem (hcount ▸ hi)
      have hframe := hcalled.round.frame_eq _ (List.mem_of_getElem? hn)
      rw [hw, hn] at hlists
      obtain ⟨after, hafter, hnotices⟩ := Option.map_eq_some_iff.1 hlists
      rw [hafter, Option.map_some, Option.map_some, Watched.frames, hnotices]
      simp [Watched.frames, hframe]

/-- Every observer of an analysis that goes through is shown the frame before each record. -/
theorem runFrom_shown
    {method : Method}
    {tracing : Bool}
    {index : Nat}
    {m : Machine}
    {watched : List (Watched σ)}
    {records : List Record}
    {x : Analysis}
    (h : (runFrom method tracing index m watched records).result = .ok x)
    (i : Nat) :
    ((runFrom method tracing index m watched records).observers[i]?).map Watched.frames =
      (watched[i]?).map fun w => w.frames ++ m.shown records := by
  induction records generalizing index m watched x with
  | nil =>
      simp [runFrom, Machine.shown]
  | cons r rest ih =>
      obtain ⟨e, y, hnotify, _, _, hrest, hobservers⟩ := Machine.exists_of_runFrom_cons_eq_ok h
      have hlater (w : Option (Watched σ)) (frames : List Frame) :
          (w.map fun w => w.frames ++ frames) = (w.map Watched.frames).map (· ++ frames) := by
        rw [Option.map_map]
        rfl
      rw [hobservers, ih hrest, hlater, notify_frames hnotify i, Option.map_map, Machine.shown]
      congr 1
      funext w
      simp

/-- That an analysis goes through does not depend on whether its observers keep lists. -/
theorem run_shown
    {method : Method}
    {settings : Settings}
    {m : Machine}
    {observers : List σ}
    {records : List Record}
    {x : Analysis}
    (hstart : Machine.start method settings = .ok m)
    (h : (run method settings observers records).result = .ok x) :
    ∀ w ∈ (run method settings (observers.map Watched.fresh) records).observers,
      w.frames = m.shown records := by
  have hwatched : (run method settings (observers.map Watched.fresh) records).result = .ok x := by
    rw [← run_forget] at h
    exact h
  obtain ⟨hresult, hobservers⟩ :=
    Machine.run_eq hstart (observers.map Watched.fresh) records
  rw [hresult] at hwatched
  intro w hw
  rw [hobservers] at hw
  obtain ⟨i, hi⟩ := List.getElem?_of_mem hw
  have hshown := runFrom_shown hwatched i
  rw [hi, List.getElem?_map, Option.map_map] at hshown
  obtain ⟨s, _, hs⟩ := Option.map_eq_some_iff.1 hshown.symm
  exact hs.symm

end Shown

namespace Machine

/--
An analysis that goes through, with any observers, reports exact marks. The greatest depth
of the stack is that of a frame which observers are shown before a record, or of the last
one. The greatest number of locals is that of one of these frames too, or the number of
locals up to one that was loaded where control can be. And a record takes the stack no
deeper than it is before or after it, whether or not it ends the flow: a mark that starts
over before the record comes to the greater of these depths, and so does a limit.
-/
theorem marks_exact
    {σ : Type}
    [Observer σ]
    {method : Method}
    {settings : Settings}
    {observers : List σ}
    {records : List Record}
    {x : Analysis}
    (h : (run method settings observers records).result = .ok x) :
    ∃ m, start method settings = .ok m ∧
      (∀ w ∈ (run method settings (observers.map Watched.fresh) records).observers,
        w.frames = m.shown records) ∧
      ((m.frames records).map fun f => f.stack.length).max? = some x.maxStack ∧
      ((m.frames records).map (fun f => f.locals.length) ++ m.loaded records).max? =
        some x.maxLocals ∧
      ∀ before r later, records = before ++ r :: later →
        let here := m.after before
        let next := m.after (before ++ [r])
        ∀ limit, here.frame.stack.length ≤ limit → next.frame.stack.length ≤ limit →
          execute r (here.anew limit) =
            (.ok (), next.remarked
              ⟨some limit, max here.frame.stack.length next.frame.stack.length,
                next.frame.maxLocals⟩) := by
  cases hstart : start method settings with
  | error fault =>
      rw [run, hstart] at h
      cases h
  | ok m =>
      have hm := (start_coherent hstart).1
      obtain ⟨hdepth, hcount⟩ := start_marks hstart
      have hrun := h
      rw [(run_eq hstart observers records).1] at h
      obtain ⟨hsucceeds, hstack, hlocals⟩ := succeeds_of_runFrom_eq_ok h
      refine ⟨m, rfl, run_shown hstart hrun, ?stack, ?locals, ?inside⟩
      case stack =>
        have hexact := maxStack_tracks.greatest hm hdepth hsucceeds
        rwa [along_nil, List.append_nil, ← hstack] at hexact
      case locals =>
        rw [hlocals]
        exact maxLocals_tracks.greatest hm hcount hsucceeds
      case inside =>
        rintro before r later rfl here next limit hbefore hafter
        have hfirst := ((succeeds_append before (r :: later)).1 hsucceeds).2.1
        have hnext : next = (execute r here).2 := after_concat m before r
        exact execute_anew (after_coherent hm before) (Prod.ext hfirst hnext.symm) hbefore hafter

/-- A copied long makes the deepest stack, and a load past the locals the greatest number. -/
theorem marks_exact_load :
    let method : Method := ⟨"A", "run", "(J)V", true⟩
    let observers := [Repositioner.standard "a/Button" "a/Align"]
    let records : List Record :=
      [.slot .lload 0, .bare .dup2, .bare .ladd, .slot .lstore 5, .slot .iload 9, .bare .ireturn]
    (run method .standard observers records).result = .ok ⟨records, 4, 10⟩ ∧
      ∃ m, start method .standard = .ok m ∧
        ((m.frames records).map fun f => f.stack.length).max? = some 4 ∧
        ((m.frames records).map (fun f => f.locals.length) ++ m.loaded records).max? =
          some 10 := by
  intro method observers records
  have hrun : (run method .standard observers records).result = .ok ⟨records, 4, 10⟩ := by
    decide +kernel
  obtain ⟨m, hstart, _, hstack, hlocals, _⟩ := marks_exact hrun
  exact ⟨hrun, m, hstart, hstack, hlocals⟩

end Machine
end SlotFlow
