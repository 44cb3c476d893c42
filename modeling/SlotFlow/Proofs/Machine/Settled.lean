import SlotFlow.Proofs.Fold
import SlotFlow.Proofs.Frame.Sound
import SlotFlow.Proofs.Machine.Motion

/-!
# What a step comes to

The depth of the stack, its limit and the slots that an instruction moves settle what
executing it comes to.

Main statements:

* `fold_error`: folding only fails where the kinds of literals are wrong;
* `execute_run`: an instruction is executed by carrying its effect out;
* `execute_settled`: the outcomes of a step, and the depth after it.
-/

namespace SlotFlow

/-- Folding only fails where the kinds of literals are wrong. -/
theorem fold_error
    {op : Opcode}
    {signature : Signature}
    {stack : List Value}
    {e : Fault}
    (h : signature.fold op stack = .error e) :
    ∃ found, e = .literalMismatch op op.expectedKinds found := by
  cases signature with
  | unary operand result =>
      exact Fold.fold1_error h
  | binary left right result =>
      exact Fold.fold2_error h

/-- Arithmetic is done by opcodes that have a signature. -/
theorem signature_of_effect
    {r : Record}
    {op : Opcode}
    {signature : Signature}
    (h : r.effect = .arithmetic op signature) :
    r = .bare op ∧ op.signature? = some signature := by
  cases r with
  | bare other =>
      cases other <;> cases h <;> exact ⟨rfl, rfl⟩
  | integer other operand =>
      change integerEffect other operand = _ at h
      unfold integerEffect at h
      split at h
      · split at h <;> cases h
      · cases h
  | slot other index =>
      change slotEffect other index.toNat = _ at h
      unfold slotEffect at h
      split at h <;> cases h
  | typed other name =>
      change typedEffect other name = _ at h
      unfold typedEffect at h
      split at h <;> cases h
  | field other owner name descriptor =>
      change fieldEffect other name descriptor = _ at h
      unfold fieldEffect at h
      split at h <;> cases h
  | jump other target =>
      change jumpEffect other = _ at h
      unfold jumpEffect at h
      split at h <;> cases h
  | _ =>
      cases h

namespace Machine

variable {m : Machine} {r : Record} {op : Opcode}

/-- The faults of folding are mismatches at the instruction. -/
theorem mismatch_of_faulty
    {e : Fault}
    (hop : r.opcode? = some op)
    (h : r.effect.faulty m e) :
    m.folding = true ∧ op.signature?.isSome = true ∧
      ∃ found, e = .literalMismatch op op.expectedKinds found := by
  cases heffect : r.effect with
  | arithmetic other signature =>
      rw [heffect] at h
      obtain ⟨rfl, hsignature⟩ := signature_of_effect heffect
      cases hop
      exact ⟨h.1, by simp [hsignature], fold_error h.2⟩
  | _ =>
      rw [heffect] at h
      exact h.elim

/-- An instruction is executed by carrying its effect out. -/
theorem execute_run
    (hr : r.Executable op)
    (hreachable : m.frame.reachable = true) :
    execute r m = executeReachable op r.effect m := by
  rw [execute_of_opcode hr.opcode, executeInstruction, hr.plain, hr.fits]
  simp [hreachable]

/-- What carrying the effect out returns is what the step returns. -/
theorem executeReachable_fst
    (op : Opcode)
    (effect : Effect)
    (m : Machine) :
    (executeReachable op effect m).1 = (perform effect (m.executing op)).1 := by
  unfold executeReachable
  rcases perform effect (m.executing op) with ⟨_ | _, after⟩
  · rfl
  · simp only
    split <;> rfl

/-- Where control goes on, the step leaves the frame that the effect has left. -/
theorem executeReachable_frame
    {effect : Effect}
    (h : op.endsFlow = false) :
    (executeReachable op effect m).2.frame = (perform effect (m.executing op)).2.frame := by
  unfold executeReachable
  rcases perform effect (m.executing op) with ⟨_ | _, after⟩
  · rfl
  · simp [h, finished]

theorem Reached.ready
    (hm : Reached m)
    (hreachable : m.frame.reachable = true) :
    m.frame.Ready :=
  ⟨hreachable, hm.sound.fits⟩

/-- Executing an instruction keeps to the account of its effect. -/
theorem execute_account
    (hm : m.frame.Ready)
    (hr : r.Executable op) :
    Account Machine.frame (m.executing op) r.motion.popped
      (r.effect.slots (m.executing op).frame) (r.effect.faulty (m.executing op))
      (fun _ _ => True) (perform r.effect (m.executing op)) := by
  obtain ⟨hsound, hpopped, _⟩ := effect_motion hr
  have hready : (m.executing op).frame.Ready := ⟨hm.reachable, hm.fits⟩
  rw [← hpopped]
  exact perform_account hready hsound

/-- The outcomes of a step on a reachable frame, each with what it takes. -/
inductive Outcome
    (m : Machine)
    (op : Opcode)
    (motion : Motion) :
    Except Fault Unit → Frame → Prop
  | underflow
      {f : Frame}
      (h : m.frame.stack.length < motion.popped) :
      Outcome m op motion (.error (.stackUnderflow (some op))) f
  | mismatch
      {f : Frame}
      {found : List Kind}
      (h : motion.popped ≤ m.frame.stack.length)
      (hfolding : m.folding = true)
      (hsignature : op.signature?.isSome = true) :
      Outcome m op motion (.error (.literalMismatch op op.expectedKinds found)) f
  | overflow
      {f : Frame}
      {limit : Nat}
      (h : motion.popped ≤ m.frame.stack.length)
      (hlimit : m.frame.limit = some limit)
      (hdepth : limit < m.frame.stack.length - motion.popped + motion.pushed) :
      Outcome m op motion (.error (.stackOverflow limit)) f
  | done
      {f : Frame}
      (h : motion.popped ≤ m.frame.stack.length)
      (hroom :
        ∀ limit, m.frame.limit = some limit →
          m.frame.stack.length - motion.popped + motion.pushed ≤ limit)
      (hreachable : f.reachable = true)
      (hdepth : f.stack.length = m.frame.stack.length - motion.popped + motion.pushed) :
      Outcome m op motion (.ok ()) f

/-- Carrying out the effect of an instruction has one of the outcomes. -/
theorem perform_outcome
    (hm : m.frame.Ready)
    (hr : r.Executable op) :
    Outcome m op r.motion (perform r.effect (m.executing op)).1
      (perform r.effect (m.executing op)).2.frame := by
  have haccount := execute_account hm hr
  have hpushed := (effect_motion hr).pushed (m.executing op).frame
  generalize perform r.effect (m.executing op) = result at haccount
  cases haccount with
  | underflow h =>
      exact .underflow h
  | fault h he =>
      obtain ⟨hfolding, hsignature, found, rfl⟩ := mismatch_of_faulty hr.opcode he
      exact .mismatch h hfolding hsignature
  | overflow h hlimit =>
      rw [hpushed h, Frame.exceeded_eq_some] at hlimit
      exact .overflow h hlimit.1 hlimit.2
  | done h hroom ht _ =>
      have hlength := ht.length
      rw [hpushed h] at hroom hlength
      refine .done h (Frame.exceeded_eq_none.1 hroom) ?_ ?_
      · rw [ht.reachable]
        exact hm.reachable
      · rw [hlength, Nat.add_comm]
        rfl

/--
What a step on a reachable frame comes to. It fails for want of slots exactly if the
stack holds fewer than the instruction pops. Else folding may report a mismatch, or
else the step fails exactly if the stack would be deeper than its limit. There are no
other faults. Where control goes on, the depth has changed by the slots that were moved.
-/
theorem execute_settled
    (hm : Reached m)
    (hreachable : m.frame.reachable = true)
    (hr : r.Executable op) :
    ((execute r m).1 = .error (.stackUnderflow (some op)) ↔
        m.frame.stack.length < r.motion.popped) ∧
      (r.motion.popped ≤ m.frame.stack.length →
        (m.folding = true ∧ op.signature?.isSome = true ∧
            ∃ found,
              (execute r m).1 = .error (.literalMismatch op op.expectedKinds found)) ∨
          (∀ limit,
              (execute r m).1 = .error (.stackOverflow limit) ↔
                m.frame.limit = some limit ∧
                  limit < m.frame.stack.length - r.motion.popped + r.motion.pushed) ∧
            ((execute r m).1 = .ok () ↔
              ∀ limit, m.frame.limit = some limit →
                m.frame.stack.length - r.motion.popped + r.motion.pushed ≤ limit)) ∧
      (∀ e,
        (execute r m).1 = .error e →
          e = .stackUnderflow (some op) ∨ (∃ limit, e = .stackOverflow limit) ∨
            ∃ found, e = .literalMismatch op op.expectedKinds found) ∧
      ((execute r m).1 = .ok () → op.endsFlow = false →
        (execute r m).2.frame.reachable = true ∧
          (execute r m).2.frame.stack.length =
            m.frame.stack.length - r.motion.popped + r.motion.pushed) := by
  have hrun := execute_run hr hreachable
  have hresult : (execute r m).1 = (perform r.effect (m.executing op)).1 := by
    rw [hrun, executeReachable_fst]
  have hframe :
      op.endsFlow = false →
        (execute r m).2.frame = (perform r.effect (m.executing op)).2.frame := by
    intro hflow
    rw [hrun, executeReachable_frame hflow]
  have houtcome := perform_outcome (hm.ready hreachable) hr
  rw [hresult]
  generalize (perform r.effect (m.executing op)).1 = result at houtcome
  generalize (perform r.effect (m.executing op)).2.frame = f at houtcome hframe
  cases houtcome with
  | underflow h =>
      refine ⟨⟨fun _ => h, fun _ => rfl⟩, ?_, ?_, nofun⟩
      · intro hle
        exact absurd h (Nat.not_lt.2 hle)
      · rintro e ⟨rfl⟩
        exact Or.inl rfl
  | mismatch h hfolding hsignature =>
      refine ⟨⟨nofun, fun hlt => absurd hlt (Nat.not_lt.2 h)⟩, ?_, ?_, nofun⟩
      · intro _
        exact Or.inl ⟨hfolding, hsignature, _, rfl⟩
      · rintro e ⟨rfl⟩
        exact Or.inr (Or.inr ⟨_, rfl⟩)
  | @overflow _ limit h hlimit hdepth =>
      refine ⟨⟨nofun, fun hlt => absurd hlt (Nat.not_lt.2 h)⟩, ?_, ?_, nofun⟩
      · intro _
        refine Or.inr ⟨?_, nofun, ?_⟩
        · intro other
          constructor
          · intro heq
            cases heq
            exact ⟨hlimit, hdepth⟩
          · rintro ⟨hother, _⟩
            rw [hlimit] at hother
            cases hother
            rfl
        · intro hroom
          exact absurd hdepth (Nat.not_lt.2 (hroom limit hlimit))
      · rintro e ⟨rfl⟩
        exact Or.inr (Or.inl ⟨limit, rfl⟩)
  | done h hroom hreachable hdepth =>
      refine ⟨⟨nofun, fun hlt => absurd hlt (Nat.not_lt.2 h)⟩, ?_, ?_, ?_⟩
      · intro _
        refine Or.inr ⟨?_, ⟨fun _ => hroom, fun _ => rfl⟩⟩
        intro limit
        refine ⟨nofun, ?_⟩
        rintro ⟨hlimit, hlt⟩
        exact absurd hlt (Nat.not_lt.2 (hroom limit hlimit))
      · intro e he
        cases he
      · intro _ hflow
        rw [hframe hflow]
        exact ⟨hreachable, hdepth⟩

/-- A machine that holds a long on a stack for three slots. -/
def crowded : Machine where
  frame :=
    { Frame.empty (some 3) with
      stack := [.top, .long 1]
      maxStack := 2
      current := some .lconst1 }
  owner := "A"
  folding := true
  pending := []
  created := []
  lastSite := 0

theorem crowded_reached :
    Reached crowded := by
  have hstart :
      start ⟨"A", "run", "()V", true⟩ ⟨some 3, true, false⟩ =
        .ok { crowded with frame := Frame.empty (some 3) } :=
    start_static _ _ _
  have hstep := (Reached.start hstart).step (.bare .lconst1)
  have hnext :
      (execute (.bare .lconst1) { crowded with frame := Frame.empty (some 3) }).2 =
        crowded :=
    rfl
  rwa [hnext] at hstep

/-- There is no room to copy the long of the crowded machine. -/
theorem execute_dup2_crowded :
    (execute (.bare .dup2) crowded).1 = .error (.stackOverflow 3) := by
  obtain ⟨_, hdepth, _⟩ :=
    execute_settled (r := .bare .dup2) crowded_reached rfl ⟨rfl, rfl, rfl, trivial⟩
  rcases hdepth (by decide) with ⟨_, hsignature, _⟩ | ⟨hoverflow, _⟩
  · cases hsignature
  · exact (hoverflow 3).2 ⟨rfl, by decide⟩

end Machine
end SlotFlow
