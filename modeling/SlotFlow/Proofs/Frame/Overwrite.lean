import SlotFlow.Proofs.Frame.Keeps
import SlotFlow.Proofs.Frame.Locals

/-!
# Reading locals after writing them

What is read of a local after a write follows from what was read before. The slot that is
written holds the value, the slot after it is empty if the value is wide, a wide value that
starts before it is lost, and all else is read as before. For this law it is enough that
every wide local has its second half, and a write keeps it so. What any number of writes
leaves is therefore the law, applied once for each of them.

A second half is an empty slot. Where one carries more than that, such as the name of a
field, a narrow value written over the first half replaces it by a plain one, and the law
holds up to what empty slots carry.

Main definitions:

* `Locals.Whole`: every wide local is followed by the plain empty slot;
* `Locals.overwritten`, `Locals.overwrittenAll`: the law, for one write and for several;
* `Frame.setLocals`: writes in a row.

Main statements:

* `Locals.read_write_of_whole`: the law for whole locals;
* `Locals.bare_read_write`: the law for locals in pairs, up to what empty slots carry;
* `Frame.setLocals_reads`: what is read after any number of writes.
-/

namespace SlotFlow

/-- The value, or the plain empty slot in place of an empty one. -/
def Value.bare
    (v : Value) :
    Value :=
  if v.isTop then .top else v

theorem Value.isWide_bare
    (v : Value) :
    v.bare.isWide = v.isWide := by
  unfold bare
  split
  · rename_i htop
    have hcategory : v.category = .top := by simpa [isTop] using htop
    rw [isWide, isWide, hcategory]
    rfl
  · rfl

theorem Value.bare_of_isTop
    {v : Value}
    (h : v.isTop = true) :
    v.bare = .top := by
  simp [bare, h]

namespace Locals

variable {cells : List Value} {index : Nat} {v : Value}

/-- Every wide local is followed by the plain empty slot. -/
def Whole
    (cells : List Value) :
    Prop :=
  ∀ i, (read cells i).isWide = true → i + 1 < cells.length ∧ read cells (i + 1) = .top

/--
What is read of the locals after `v` was written at `index`, if `before` is what was read
of them until then.
-/
def overwritten
    (before : Nat → Value)
    (index : Nat)
    (v : Value)
    (j : Nat) :
    Value :=
  if j = index then v
  else if j = index + 1 ∧ v.isWide = true then .top
  else if j + 1 = index ∧ (before j).isWide = true then .top
  else before j

/-- What is read of the locals after several values were written, the first one first. -/
def overwrittenAll
    (before : Nat → Value) :
    List (Nat × Value) → Nat → Value
  | [] => before
  | (index, v) :: writes => overwrittenAll (overwritten before index v) writes

theorem Whole.paired
    (h : Whole cells) :
    Paired cells := by
  rw [paired_iff]
  intro i hwide
  obtain ⟨hlength, htop⟩ := h i hwide
  exact ⟨hlength, by rw [htop]; rfl⟩

/--
After a write a wide local is followed by the plain empty slot, or it was wide before and
is followed by what followed it then.
-/
theorem read_next_write
    {i : Nat}
    (hwide : (read (write cells index v) i).isWide = true) :
    read (write cells index v) (i + 1) = .top ∨
      (read cells i).isWide = true ∧
        read (write cells index v) (i + 1) = read cells (i + 1) := by
  rw [read_write] at hwide ⊢
  by_cases hi : i = index
  · subst hi
    rw [if_pos rfl] at hwide
    left
    simp [hwide]
  · rw [if_neg hi] at hwide
    split at hwide
    · cases hwide
    split at hwide
    · cases hwide
    rename_i hnotPrevious
    -- it did not lose its second half, so the write was not to the slot after it
    have hbefore : i + 1 ≠ index := fun heq => hnotPrevious ⟨heq, hwide⟩
    rw [if_neg hbefore]
    split
    · exact .inl rfl
    split
    · exact .inl rfl
    · exact .inr ⟨hwide, rfl⟩

/-- A write keeps whole locals whole, whatever is written. -/
theorem Whole.write
    (h : Whole cells)
    (index : Nat)
    (v : Value) :
    Whole (Locals.write cells index v) := by
  intro i hwide
  have hpaired := paired_iff.1 (h.paired.write index v) i hwide
  refine ⟨hpaired.1, ?_⟩
  rcases read_next_write hwide with htop | ⟨hbefore, hsame⟩
  · exact htop
  · rw [hsame]
    exact (h i hbefore).2

/--
Every slot is read by the law after a write, but for the second half of a wide value that
is written over: the plain empty slot is read there.
-/
theorem read_write_cases
    (cells : List Value)
    (index : Nat)
    (v : Value)
    (j : Nat) :
    read (write cells index v) j = overwritten (read cells) index v j ∨
      j = index + 1 ∧ (read cells index).isWide = true ∧
        read (write cells index v) j = .top ∧
        overwritten (read cells) index v j = read cells j := by
  rw [read_write, overwritten]
  by_cases hlost : j = index + 1 ∧ (read cells index).isWide = true ∧ v.isWide = false
  · obtain ⟨rfl, hwide, hnarrow⟩ := hlost
    have hpast : index + 1 + 1 ≠ index := by omega
    right
    simp [hwide, hnarrow, hpast]
  · left
    grind

/-- Whole locals are read by the law after a write. -/
theorem read_write_of_whole
    (h : Whole cells)
    (index : Nat)
    (v : Value)
    (j : Nat) :
    read (write cells index v) j = overwritten (read cells) index v j := by
  rcases read_write_cases cells index v j with hlaw | ⟨rfl, hwide, htop, hkept⟩
  · exact hlaw
  · rw [htop, hkept, (h index hwide).2]

/-- Locals in pairs are read by the law after a write, up to what empty slots carry. -/
theorem bare_read_write
    (h : Paired cells)
    (index : Nat)
    (v : Value)
    (j : Nat) :
    (read (write cells index v) j).bare = (overwritten (read cells) index v j).bare := by
  rcases read_write_cases cells index v j with hlaw | ⟨rfl, hwide, htop, hkept⟩
  · rw [hlaw]
  · rw [htop, hkept, Value.bare_of_isTop (paired_iff.1 h index hwide).2]
    rfl

/-- The law does not look at what empty slots carry. -/
theorem bare_overwritten
    {before other : Nat → Value}
    (h : ∀ j, (before j).bare = (other j).bare)
    (index : Nat)
    (v : Value)
    (j : Nat) :
    (overwritten before index v j).bare = (overwritten other index v j).bare := by
  have hwide : (before j).isWide = (other j).isWide := by
    rw [← Value.isWide_bare (before j), h j, Value.isWide_bare]
  simp only [overwritten, hwide]
  split
  · rfl
  split
  · rfl
  split
  · rfl
  · exact h j

theorem bare_overwrittenAll
    {before other : Nat → Value}
    (h : ∀ j, (before j).bare = (other j).bare)
    (writes : List (Nat × Value))
    (j : Nat) :
    (overwrittenAll before writes j).bare = (overwrittenAll other writes j).bare := by
  induction writes generalizing before other with
  | nil =>
      exact h j
  | cons write writes ih =>
      exact ih (bare_overwritten h write.1 write.2)

end Locals

namespace Frame

variable {f : Frame}

/-- Writes locals one after the other. -/
def setLocals : List (Nat × Value) → FrameM Unit
  | [] => pure ()
  | (index, v) :: writes => do
      setLocal index v
      setLocals writes

/-- Reading a local of a reachable frame gives what is there. -/
theorem getLocal_fst
    (hreachable : f.reachable = true)
    (index : Nat) :
    (getLocal index f).1 = .ok (Locals.read f.locals index) := by
  simp [getLocal, whenReachable, hreachable]

theorem setLocal_run
    (hreachable : f.reachable = true)
    (index : Nat)
    (v : Value) :
    setLocal index v f = (.ok (), f.writeLocal index v) := by
  simp [setLocal, whenReachable, hreachable]

/-- A write to a reachable frame succeeds, and the next one is made where it has led. -/
theorem setLocals_cons
    (hreachable : f.reachable = true)
    (index : Nat)
    (v : Value)
    (writes : List (Nat × Value)) :
    setLocals ((index, v) :: writes) f = setLocals writes (f.writeLocal index v) := by
  rw [setLocals, run_bind, setLocal_run hreachable]

/--
Writes in a row leave the stack alone and keep what each of them keeps. The locals are read
by the law as far as they are after each write, if the law does not look any further.
-/
theorem setLocals_of_write
    {P : List Value → Prop}
    (seen : Value → Value)
    (hkeeps : ∀ cells, P cells → ∀ index v, P (Locals.write cells index v))
    (hlaw :
      ∀ cells, P cells → ∀ index v j,
        seen (Locals.read (Locals.write cells index v) j) =
          seen (Locals.overwritten (Locals.read cells) index v j))
    (hsame :
      ∀ before other : Nat → Value, (∀ j, seen (before j) = seen (other j)) →
        ∀ writes j, seen (Locals.overwrittenAll before writes j) =
          seen (Locals.overwrittenAll other writes j))
    (hreachable : f.reachable = true)
    (h : P f.locals)
    (writes : List (Nat × Value)) :
    ∃ g, setLocals writes f = (.ok (), g) ∧ g.reachable = true ∧ g.stack = f.stack ∧
      P g.locals ∧
      ∀ j, seen (Locals.read g.locals j) =
        seen (Locals.overwrittenAll (Locals.read f.locals) writes j) := by
  induction writes generalizing f with
  | nil =>
      exact ⟨f, rfl, hreachable, rfl, h, fun _ => rfl⟩
  | cons write writes ih =>
      obtain ⟨index, v⟩ := write
      obtain ⟨g, hrun, hlive, hstack, hg, hreads⟩ :=
        ih (f := f.writeLocal index v) hreachable (hkeeps _ h index v)
      refine ⟨g, (setLocals_cons hreachable index v writes).trans hrun, hlive, hstack, hg, ?_⟩
      intro j
      rw [hreads j]
      exact hsame _ _ (hlaw _ h index v) writes j

/--
A write to a reachable frame whose wide locals are followed by the plain empty slot stays
within the locals and leaves such a frame with the same stack. Each slot, also past the
end, is then read as the law says: the slot written, a second half after it, a wide value
cut off before it, and all others as before. After any number of writes it is read as the
law says that is applied once for each. If second halves carry more than plain empty slots
do, this is so up to what empty slots carry.
-/
theorem setLocals_reads
    (hreachable : f.reachable = true) :
    (Locals.Whole f.locals →
      (∀ index v, Locals.InBounds f.locals index v ∧
        ∃ g, setLocal index v f = (.ok (), g) ∧ g.stack = f.stack ∧ Locals.Whole g.locals ∧
          ∀ j, (getLocal j g).1 =
            .ok (Locals.overwritten (Locals.read f.locals) index v j)) ∧
      ∀ writes, ∃ g, setLocals writes f = (.ok (), g) ∧ g.stack = f.stack ∧
        Locals.Whole g.locals ∧
        ∀ j, (getLocal j g).1 =
          .ok (Locals.overwrittenAll (Locals.read f.locals) writes j)) ∧
    (Locals.Paired f.locals →
      ∀ writes, ∃ g, setLocals writes f = (.ok (), g) ∧ g.stack = f.stack ∧
        Locals.Paired g.locals ∧
        ∀ j, ∃ w, (getLocal j g).1 = .ok w ∧
          w.bare = (Locals.overwrittenAll (Locals.read f.locals) writes j).bare) := by
  refine ⟨fun hwhole => ⟨?_, ?_⟩, ?_⟩
  · intro index v
    refine ⟨hwhole.paired.inBounds index v, f.writeLocal index v,
      setLocal_run hreachable index v, rfl, hwhole.write index v, ?_⟩
    intro j
    have hlive : (f.writeLocal index v).reachable = true := hreachable
    rw [getLocal_fst hlive]
    exact congrArg Except.ok (Locals.read_write_of_whole hwhole index v j)
  · intro writes
    have hsame (before other : Nat → Value) (h : ∀ j, before j = other j) :
        ∀ writes j, Locals.overwrittenAll before writes j =
          Locals.overwrittenAll other writes j := by
      rw [funext h]
      exact fun _ _ => rfl
    obtain ⟨g, hrun, hlive, hstack, hg, hreads⟩ :=
      setLocals_of_write id (fun _ => Locals.Whole.write) (fun _ => Locals.read_write_of_whole)
        hsame hreachable hwhole writes
    refine ⟨g, hrun, hstack, hg, ?_⟩
    intro j
    rw [getLocal_fst hlive]
    exact congrArg Except.ok (hreads j)
  · intro hpaired writes
    obtain ⟨g, hrun, hlive, hstack, hg, hreads⟩ :=
      setLocals_of_write Value.bare (fun _ => Locals.Paired.write)
        (fun _ => Locals.bare_read_write) (fun _ _ => Locals.bare_overwrittenAll) hreachable
        hpaired writes
    exact ⟨g, hrun, hstack, hg, fun j => ⟨_, getLocal_fst hlive j, hreads j⟩⟩

/-- One long cuts another off, and an int cuts that one off, past the end of the locals. -/
theorem setLocals_reads_overlapping :
    let f := empty none
    let writes : List (Nat × Value) := [(1, .long 7), (2, .long 8), (3, .int 5), (6, .null)]
    f.reachable = true ∧ Locals.Whole f.locals ∧
      ∃ g, setLocals writes f = (.ok (), g) ∧
        g.locals = [.top, .top, .top, .int 5, .top, .top, .null] ∧
        ∀ j, (getLocal j g).1 =
          .ok (Locals.overwrittenAll (Locals.read f.locals) writes j) := by
  intro f writes
  have hwhole : Locals.Whole f.locals := by
    intro i hwide
    cases hwide
  obtain ⟨g, hrun, _, _, hreads⟩ := ((setLocals_reads (f := f) rfl).1 hwhole).2 writes
  refine ⟨rfl, hwhole, g, hrun, ?_, hreads⟩
  have hg : (setLocals writes f).2 = g := congrArg Prod.snd hrun
  rw [← hg]
  decide +kernel

end Frame
end SlotFlow
