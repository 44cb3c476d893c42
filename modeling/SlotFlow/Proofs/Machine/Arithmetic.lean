import SlotFlow.Proofs.Frame.Success
import SlotFlow.Proofs.Machine.Execution
import SlotFlow.Proofs.Machine.Paired
import SlotFlow.Proofs.Machine.Performed

/-!
# Arithmetic on the stack

An instruction of arithmetic takes its operands from the slots that values of the named kinds
have, and puts the value of the result there.

Main statements:

* `Frame.arithmetic_succeeds`: arithmetic on operands that can be folded;
* `arithmetic_agrees`: the tables of signatures, of named kinds and of results agree.
-/

namespace SlotFlow

open Fold (Folded DividesByZero)

variable {op : Opcode} {s : Signature}

/-- All the slots of the operands are popped. -/
theorem Signature.popped_eq
    (s : Signature) :
    s.popped = (s.widths.map Width.slots).sum := by
  cases s with
  | unary operand result =>
      rfl
  | binary left right result =>
      simp [widths, popped, Nat.add_comm]

namespace Frame

variable {f : Frame} {folding : Bool}

/-- Arithmetic succeeds if there are operands that can be folded, and room for the result. -/
theorem arithmetic_succeeds
    {l : Literal}
    (hf : f.Ready)
    (henough : s.popped ≤ f.stack.length)
    (hroom : f.exceeded? (f.stack.length - s.popped + s.result.slots.length) = none)
    (hfold : s.fold op f.stack = .ok l) :
    ∃ g, Machine.arithmetic folding op s f = (.ok (), g) := by
  have haccount := arithmetic_account hf folding op s
  rcases hresult : Machine.arithmetic folding op s f with ⟨e | ⟨⟩, g⟩
  · rw [hresult] at haccount
    cases haccount with
    | underflow h =>
        exact absurd henough (Nat.not_le.2 h)
    | fault _ he =>
        rw [hfold] at he
        cases he.2
    | overflow _ hlimit =>
        rw [hroom] at hlimit
        cases hlimit
  · exact ⟨g, rfl⟩

end Frame

namespace Machine

variable {m : Machine}

/-- Opcodes of arithmetic stand without operands, and control goes on behind them. -/
theorem executable_of_signature
    (h : op.signature? = some s) :
    (Record.bare op).Executable op ∧ op.endsFlow = false := by
  cases op <;> cases h <;> exact ⟨⟨rfl, rfl, rfl, trivial⟩, rfl⟩

theorem effect_of_signature
    (h : op.signature? = some s) :
    (Record.bare op).effect = .arithmetic op s := by
  cases op <;> cases h <;> rfl

/-- Arithmetic is done for the opcodes that have a signature, with that signature. -/
theorem effect_eq_arithmetic_iff
    {r : Record} :
    r.effect = .arithmetic op s ↔ r = .bare op ∧ op.signature? = some s := by
  constructor
  · exact signature_of_effect
  · rintro ⟨rfl, hs⟩
    exact effect_of_signature hs

/-- What an instruction of arithmetic has done if it succeeds. -/
theorem execute_arithmetic
    (hs : op.signature? = some s)
    (hreachable : m.frame.reachable = true)
    (h : (execute (.bare op) m).1 = .ok ()) :
    ∃ l, (if m.folding then
            Folded op s (literalsOn m.frame.stack (s.widths.map Width.slots)) (.ok l)
          else l = .unknown) ∧
      m.frame.Exchanged s.popped (Value.ofLiteral s.result l).cells
        (execute (.bare op) m).2.frame := by
  obtain ⟨_, hcontinues⟩ := executable_of_signature hs
  obtain ⟨n, hperform, hnext⟩ := exists_performed_of_execute rfl hreachable hcontinues h
  rw [effect_of_signature hs] at hperform
  obtain ⟨g, harithmetic, rfl⟩ := onFrame_eq_ok hperform
  obtain ⟨l, hliteral, hexchanged⟩ := Frame.arithmetic_eq_ok harithmetic
  rw [hnext]
  refine ⟨l, ?_, hexchanged.locals, hexchanged.enough, hexchanged.stack⟩
  have hfold : if m.folding then s.fold op m.frame.stack = .ok l else l = .unknown := hliteral
  have hfolded := folded_literalsOn hs m.frame.stack
  split at hfold
  · rename_i hon
    rw [hfold] at hfolded
    rwa [if_pos hon]
  · rename_i hoff
    rwa [if_neg hoff]

/-- An instruction succeeds that has operands of the types it demands, and room. -/
theorem execute_of_typed
    {form : List Operand}
    (hs : op.signature? = some s)
    (hm : m.frame.Ready)
    (hform : form ∈ op.forms)
    (hholds : Holds form m.frame.stack)
    (hbuilt : ∀ v ∈ m.frame.stack, v.Built)
    (hroom :
      ∀ limit, m.frame.limit = some limit →
        m.frame.stack.length - s.popped + s.result.slots.length ≤ limit) :
    (execute (.bare op) m).1 = .ok () := by
  obtain ⟨hexecutable, _⟩ := executable_of_signature hs
  obtain ⟨l, hfold⟩ := fold_of_typed hs hform hholds hbuilt
  have hready : (m.executing op).frame.Ready := ⟨hm.reachable, hm.fits⟩
  have henough : s.popped ≤ m.frame.stack.length := by
    have hpopped := List.all_eq_true.1 op.forms_popped form hform
    have hmotion := (effect_motion hexecutable).popped
    rw [effect_of_signature hs] at hmotion
    change s.popped = op.motion.popped at hmotion
    rw [hmotion, ← of_decide_eq_true hpopped]
    exact hholds.length_le
  have hspace :
      m.frame.exceeded? (m.frame.stack.length - s.popped + s.result.slots.length) = none :=
    Frame.exceeded_eq_none.2 hroom
  obtain ⟨g, harithmetic⟩ := @Frame.arithmetic_succeeds op s (m.executing op).frame
    (m.executing op).folding l hready henough hspace hfold
  rw [execute_run hexecutable hm.reachable, executeReachable_fst, effect_of_signature hs]
  change (onFrame (arithmetic (m.executing op).folding op s) (m.executing op)).1 = _
  unfold onFrame
  rw [harithmetic]

/--
Arithmetic is done for the opcodes that have a signature. The slots that a signature has for the
operands are those of values of the kinds that a report names.

Of operands of which one is unknown, arithmetic makes the unknown result. Of known ones it
refuses exactly those whose kinds are not the ones that its report names; of the others it
makes a literal of the kind for the category of its result, or the unknown one of a division of
integers by zero. The value of the result keeps what was made.

An instruction takes its operands from the slots of values of the named kinds. One that has
operands of the types it demands, with room for its result, succeeds; if all of them are known,
the result is unknown only of a division by zero.
-/
theorem arithmetic_agrees :
    (∀ r op s, Record.effect r = .arithmetic op s ↔ r = .bare op ∧ op.signature? = some s) ∧
      (∀ (op : Opcode) s, op.signature? = some s →
        s.widths.map Width.slots = (op.namedKinds s.widths.length).map Kind.width) ∧
      (∀ op s literals outcome, Folded op s literals outcome →
        (.unknown ∈ literals → outcome = .ok .unknown) ∧
          (.unknown ∉ literals →
            (outcome =
                  .error (.literalMismatch op op.expectedKinds (literals.map Literal.kind)) ↔
                literals.map Literal.kind ≠ op.namedKinds literals.length) ∧
              (literals.map Literal.kind = op.namedKinds literals.length →
                ∃ l, outcome = .ok l ∧
                  (DividesByZero op literals ∧ l = .unknown ∨
                    ¬ DividesByZero op literals ∧ .ofKind l.kind = s.result))) ∧
          ∀ l, outcome = .ok l → Value.ofLiteral s.result l = ⟨s.result, l, none⟩) ∧
      (∀ op s counts m, op.signature? = some s →
        counts = (op.namedKinds s.widths.length).map Kind.width →
          m.frame.reachable = true → (execute (.bare op) m).1 = .ok () →
            ∃ l, (if m.folding then Folded op s (literalsOn m.frame.stack counts) (.ok l)
                  else l = .unknown) ∧
              m.frame.Exchanged counts.sum (Value.cells ⟨s.result, l, none⟩)
                (execute (.bare op) m).2.frame) ∧
      ∀ op s counts m form, op.signature? = some s →
        counts = (op.namedKinds s.widths.length).map Kind.width →
          m.frame.Ready → m.folding = true → (∀ v ∈ m.frame.stack, v.Built) →
            form ∈ op.forms → Holds form m.frame.stack →
              (∀ limit, m.frame.limit = some limit →
                m.frame.stack.length - counts.sum + s.result.slots.length ≤ limit) →
              .unknown ∉ literalsOn m.frame.stack counts →
                (execute (.bare op) m).1 = .ok () ∧
                  ∃ l, (l = .unknown ↔ DividesByZero op (literalsOn m.frame.stack counts)) ∧
                    m.frame.Exchanged counts.sum (Value.cells ⟨s.result, l, none⟩)
                      (execute (.bare op) m).2.frame := by
  refine ⟨fun _ _ _ => effect_eq_arithmetic_iff, fun op s hs => Signature.widths_eq hs, ?_, ?_, ?_⟩
  · intro op s literals outcome h
    refine ⟨h.unknown, fun hknown => ⟨h.mismatch_iff hknown, h.exists_ok hknown⟩, ?_⟩
    rintro l rfl
    exact h.kept
  · rintro op s counts m hs hcounts hreachable hok
    rw [← Signature.widths_eq hs] at hcounts
    subst hcounts
    obtain ⟨l, hliteral, hexchanged⟩ := execute_arithmetic hs hreachable hok
    rw [Signature.popped_eq] at hexchanged
    refine ⟨l, hliteral, ?_⟩
    have hkept : Value.ofLiteral s.result l = ⟨s.result, l, none⟩ := by
      split at hliteral
      · exact hliteral.kept
      · rw [hliteral, Value.ofLiteral, if_pos (Value.admits_unknown _)]
    rwa [hkept] at hexchanged
  · rintro op s counts m form hs hcounts hm hfolding hbuilt hform hholds hroom hknown
    rw [← Signature.widths_eq hs] at hcounts
    subst hcounts
    rw [← Signature.popped_eq] at hroom ⊢
    have hok := execute_of_typed hs hm hform hholds hbuilt hroom
    obtain ⟨l, hliteral, hexchanged⟩ := execute_arithmetic hs hm.reachable hok
    rw [if_pos hfolding] at hliteral
    rw [hliteral.kept] at hexchanged
    exact ⟨hok, l, hliteral.unknown_iff hknown, hexchanged⟩

/-- A machine that holds a long, and above it the number of places to shift it by. -/
def shifting : Machine :=
  { crowded with
    frame :=
      { Frame.empty (some 3) with
        stack := [.int 3, .top, .long 1]
        maxStack := 3 } }

/-- What the shift of a known long by a known int gives is known. -/
theorem arithmetic_agrees_shifting :
    (execute (.bare .lshl) shifting).1 = .ok () ∧
      ∃ l, l ≠ .unknown ∧
        shifting.frame.Exchanged 3 (Value.cells ⟨.long, l, none⟩)
          (execute (.bare .lshl) shifting).2.frame := by
  have hbuilt : ∀ v ∈ shifting.frame.stack, v.Built := by
    simp only [Value.built_iff]
    decide
  have hholds : Holds [.int, .long] shifting.frame.stack :=
    .one rfl rfl (.two rfl rfl rfl (.nil []))
  obtain ⟨hok, l, hunknown, hexchanged⟩ :=
    arithmetic_agrees.2.2.2.2 .lshl (.binary .two .one .long) [2, 1] shifting [.int, .long]
      rfl rfl ⟨rfl, rfl⟩ rfl hbuilt (List.mem_singleton.2 rfl) hholds (by decide) (by decide)
  refine ⟨hok, l, ?_, hexchanged⟩
  rw [Ne, hunknown]
  simp [DividesByZero]

end Machine
end SlotFlow
