import Mathlib.Algebra.Ring.Nat
import Mathlib.Data.List.DropRight
import Mathlib.Data.List.Nodup
import SlotFlow.Proofs.Machine.Creation
import SlotFlow.Proofs.Machine.Succeeds

/-!
# Creation sites

A `new` that is executed pushes an object of a site of its own: the first of the labels since
the last instruction, or else the next number. No other `new` of the run pushes the same site,
as long as no label is defined twice and the numbers do not wrap around.

Main definitions:

* `labelsSince`: the labels since the last instruction;
* `Machine.siteAfter`: the site of a `new` that comes next;
* `Machine.Creating`: the `new` records that are executed, by the records before them;
* `Machine.creations`: how many there are.

Main statements:

* `pending_after`: the pending labels are those since the last instruction;
* `lastSite_after`: the numbers grow by no more than one for each object;
* `execute_new`: what a `new` pushes;
* `siteAfter_injective`: every site is pushed once.
-/

namespace SlotFlow

namespace Record

/-- The label that a record defines. -/
def label? : Record → Option Label
  | label l => some l
  | _ => none

/-- Whether the record is a `new`. -/
def isNew : Record → Bool
  | typed .newObject _ => true
  | _ => false

end Record

/-- The labels since the last instruction; frames between them do not matter. -/
def labelsSince
    (records : List Record) :
    List Label :=
  (records.rtakeWhile fun r => r.opcode?.isNone).filterMap Record.label?

section LabelsSince

variable {records before middle : List Record} {r : Record} {l : Label}

theorem filterMap_label_singleton
    (r : Record) :
    [r].filterMap Record.label? = r.label?.toList := by
  rw [List.filterMap_cons]
  cases r.label? <;> rfl

theorem labelsSince_concat
    (records : List Record)
    (r : Record) :
    labelsSince (records ++ [r]) =
      if r.opcode?.isNone then labelsSince records ++ r.label?.toList else [] := by
  rw [labelsSince, List.rtakeWhile_concat]
  split
  · rw [List.filterMap_append, filterMap_label_singleton]
    rfl
  · rfl

theorem label_of_mem_labelsSince
    (h : l ∈ labelsSince records) :
    l ∈ records.filterMap Record.label? := by
  have hsuffix := List.rtakeWhile_suffix (fun r : Record => r.opcode?.isNone) records
  exact (hsuffix.sublist.filterMap Record.label?).subset h

/-- Labels before an instruction are used up by it. -/
theorem label_of_mem_labelsSince_append
    (hr : r.opcode?.isNone = false)
    (h : l ∈ labelsSince (before ++ r :: middle)) :
    l ∈ middle.filterMap Record.label? := by
  induction middle using List.reverseRecOn with
  | nil =>
      rw [labelsSince_concat, hr] at h
      cases h
  | append_singleton middle x ih =>
      rw [← List.cons_append, ← List.append_assoc, labelsSince_concat] at h
      rw [List.filterMap_append, List.mem_append, filterMap_label_singleton]
      split at h
      · exact (List.mem_append.1 h).imp ih id
      · cases h

end LabelsSince

namespace Machine

variable {m : Machine} {records before : List Record} {r : Record} {type : String}

/-- A record that succeeds keeps the pending labels, or is an instruction and uses them up. -/
theorem pending_execute
    (h : (execute r m).1 = .ok ()) :
    (execute r m).2.pending =
      if r.opcode?.isNone then m.pending ++ r.label?.toList else [] := by
  have hexecution := execute_execution r m
  rw [h] at hexecution
  generalize (execute r m).2 = next at hexecution
  cases hexecution with
  | label l =>
      rfl
  | reset =>
      exact (List.append_nil _).symm
  | passed accepted | continued accepted | ended accepted =>
      rw [accepted.opcode]
      rfl

/-- The pending labels of a run are those since the last instruction. -/
theorem pending_after
    (hpending : m.pending = [])
    (hok : m.Succeeds records) :
    (m.after records).pending = labelsSince records := by
  induction records using List.reverseRecOn with
  | nil =>
      exact hpending
  | append_singleton records r ih =>
      obtain ⟨hbefore, hlast, _⟩ := succeeds_append records [r] |>.1 hok
      rw [after_concat, pending_execute hlast, ih hbefore, labelsSince_concat]

/-- The record is a `new`, and it is executed. -/
def Executes
    (m : Machine)
    (r : Record) :
    Prop :=
  r.isNew = true ∧ m.frame.reachable = true

instance decidableExecutes
    (m : Machine)
    (r : Record) :
    Decidable (m.Executes r) :=
  inferInstanceAs (Decidable (r.isNew = true ∧ m.frame.reachable = true))

/-- How many objects the records create. -/
def creations
    (m : Machine) :
    List Record → Nat
  | [] => 0
  | r :: rest => (if m.Executes r then 1 else 0) + (execute r m).2.creations rest

theorem creations_append
    (before rest : List Record) :
    m.creations (before ++ rest) = m.creations before + (m.after before).creations rest := by
  induction before generalizing m with
  | nil =>
      exact (Nat.zero_add _).symm
  | cons r before ih =>
      rw [List.cons_append, creations, creations, ih, Nat.add_assoc]
      rfl

section Executed

variable {n next : Machine} {effect : Effect} {result : Except Fault Unit}

theorem isNew_iff :
    r.isNew = true ↔ ∃ type, r = .typed .newObject type := by
  unfold Record.isNew
  split
  · exact ⟨fun _ => ⟨_, rfl⟩, fun _ => rfl⟩
  · rename_i hother
    constructor
    · nofun
    · rintro ⟨type, rfl⟩
      exact absurd rfl (hother type)

/-- The site of an object that is created next. -/
def newSite
    (m : Machine) :
    CreationSite :=
  match m.pending with
  | l :: _ => .label l
  | [] => .synthetic (m.lastSite + 1)

/-- A `new` that is carried out leaves an object of the next site on top of the stack. -/
theorem perform_create_eq_ok
    (hperform : perform (.create type) n = (.ok (), next)) :
    next.frame.locals = n.frame.locals ∧
      next.frame.stack = .uninitialized n.newSite :: n.frame.stack ∧
      next.lastSite = if n.pending = [] then n.lastSite + 1 else n.lastSite := by
  rw [perform] at hperform
  unfold create at hperform
  unfold newSite
  split at hperform
  · rename_i hpending
    obtain ⟨g, hpush, rfl⟩ := onFrame_eq_ok hperform
    have hexchanged := Frame.push_exchanged hpush
    rw [hpending]
    exact ⟨hexchanged.locals, hexchanged.stack, rfl⟩
  · rename_i l rest hpending
    obtain ⟨g, hpush, rfl⟩ := onFrame_eq_ok hperform
    have hexchanged := Frame.push_exchanged hpush
    rw [hpending]
    exact ⟨hexchanged.locals, hexchanged.stack, rfl⟩

theorem lastSite_of_performed
    (hperform : perform effect n = (result, next))
    (hcreate : ∀ type, effect ≠ .create type) :
    next.lastSite = n.lastSite := by
  obtain ⟨f, hf⟩ := perform_onlyFrame hcreate n
  rw [hperform] at hf
  cases hf
  rfl

/-- A record that creates nothing takes no number. -/
theorem lastSite_execute_other
    (hr : ¬ m.Executes r) :
    (execute r m).2.lastSite = m.lastSite := by
  have hcreate (hreachable : m.frame.reachable = true) (type : String) :
      r.effect ≠ .create type := by
    intro heffect
    exact hr ⟨isNew_iff.2 ⟨type, effect_eq_create heffect⟩, hreachable⟩
  have hexecution := execute_execution r m
  generalize (execute r m).1 = result at hexecution
  generalize (execute r m).2 = next at hexecution
  cases hexecution with
  | label | reset | frameRefused | refused | passed =>
      rfl
  | failed accepted reachable performed | continued accepted reachable performed
  | ended accepted reachable performed =>
      have hlast := lastSite_of_performed performed (hcreate reachable)
      exact hlast

/-- A `new` that succeeds where control can be has been carried out. -/
theorem execute_new
    (hreachable : m.frame.reachable = true)
    (hok : (execute (.typed .newObject type) m).1 = .ok ()) :
    (execute (.typed .newObject type) m).2.frame.stack =
        .uninitialized m.newSite :: m.frame.stack ∧
      (execute (.typed .newObject type) m).2.lastSite =
        if m.pending = [] then m.lastSite + 1 else m.lastSite := by
  obtain ⟨n, hperform, hnext⟩ := exists_performed_of_execute rfl hreachable rfl hok
  obtain ⟨_, hstack, hlast⟩ := perform_create_eq_ok hperform
  rw [hnext]
  exact ⟨hstack, hlast⟩

end Executed

theorem toNat_add_one
    {number : UInt32}
    (h : number.toNat + 1 < 2 ^ 32) :
    (number + 1).toNat = number.toNat + 1 := by
  rw [UInt32.toNat_add]
  exact Nat.mod_eq_of_lt h

/-- The numbers of a run never fall, and grow by no more than one for each object. -/
theorem lastSite_after
    (hok : m.Succeeds records)
    (hfew : m.lastSite.toNat + m.creations records < 2 ^ 32) :
    m.lastSite.toNat ≤ (m.after records).lastSite.toNat ∧
      (m.after records).lastSite.toNat ≤ m.lastSite.toNat + m.creations records := by
  induction records generalizing m with
  | nil =>
      exact ⟨Nat.le_refl _, Nat.le_refl _⟩
  | cons r rest ih =>
      obtain ⟨hfirst, hrest⟩ := hok
      rw [creations] at hfew ⊢
      have hstep : m.lastSite.toNat ≤ (execute r m).2.lastSite.toNat ∧
          (execute r m).2.lastSite.toNat ≤
            m.lastSite.toNat + if m.Executes r then 1 else 0 := by
        by_cases hexecutes : m.Executes r
        · obtain ⟨type, rfl⟩ := isNew_iff.1 hexecutes.1
          rw [(execute_new hexecutes.2 hfirst).2]
          rw [if_pos hexecutes] at hfew ⊢
          split
          · rw [toNat_add_one (by omega)]
            omega
          · omega
        · rw [if_neg hexecutes, lastSite_execute_other hexecutes]
          exact ⟨Nat.le_refl _, Nat.le_refl _⟩
      rw [after]
      have hlater := ih hrest (by omega)
      omega

/-- A method starts without objects, so the first number is still to be taken. -/
theorem start_lastSite
    {method : Method}
    {settings : Settings}
    (h : start method settings = .ok m) :
    m.lastSite = 0 := by
  obtain ⟨f, _, rfl⟩ := exists_of_map_eq_ok h
  rfl

/-- The site of a `new` that comes after the records. -/
def siteAfter
    (m : Machine)
    (records : List Record) :
    CreationSite :=
  match labelsSince records with
  | l :: _ => .label l
  | [] => .synthetic ((m.after records).lastSite + 1)

theorem newSite_after
    (hpending : m.pending = [])
    (hok : m.Succeeds records) :
    (m.after records).newSite = m.siteAfter records := by
  rw [newSite, siteAfter, pending_after hpending hok]

/-- A `new` of the records that is executed, given by the records before it. -/
def Creating
    (m : Machine)
    (records before : List Record) :
    Prop :=
  ∃ type later, records = before ++ .typed .newObject type :: later ∧
    (m.after before).frame.reachable = true

/-- Runs in which no two objects are of the same site. -/
structure Distinguishes
    (m : Machine)
    (records : List Record) : Prop where
  succeeds : m.Succeeds records
  labels : (records.filterMap Record.label?).Nodup
  few : m.creations records < 2 ^ 32

theorem Distinguishes.take
    {rest : List Record}
    (h : m.Distinguishes (before ++ rest)) :
    m.Distinguishes before := by
  obtain ⟨hok, hlabels, hfew⟩ := h
  rw [List.filterMap_append] at hlabels
  rw [creations_append] at hfew
  exact ⟨((succeeds_append _ _).1 hok).1, hlabels.of_append_left, by omega⟩

/-- A number that was taken stays below the numbers of later objects. -/
theorem lastSite_lt_of_unlabelled
    {middle : List Record}
    (hpending : m.pending = [])
    (hlast : m.lastSite = 0)
    (h : m.Distinguishes (before ++ .typed .newObject type :: middle))
    (hreachable : (m.after before).frame.reachable = true)
    (hunlabelled : labelsSince before = []) :
    (m.after before).lastSite.toNat <
      (m.after (before ++ .typed .newObject type :: middle)).lastSite.toNat := by
  obtain ⟨hbefore, hnew, hmiddle⟩ := (succeeds_append _ _).1 h.succeeds
  have hfew := h.few
  have hnone : (m.after before).pending = [] := by
    rw [pending_after hpending hbefore, hunlabelled]
  have hcount : (m.after before).Executes (.typed .newObject type) := ⟨rfl, hreachable⟩
  rw [creations_append, creations, if_pos hcount] at hfew
  have hzero : m.lastSite.toNat = 0 := by
    rw [hlast]
    rfl
  have hlower := (lastSite_after hbefore (by omega)).2
  have hstep := (execute_new hreachable hnew).2
  rw [if_pos hnone] at hstep
  have hnumber : (execute (.typed .newObject type) (m.after before)).2.lastSite.toNat =
      (m.after before).lastSite.toNat + 1 := by
    rw [hstep]
    exact toNat_add_one (by omega)
  have hupper := (lastSite_after hmiddle (by omega)).1
  rw [after_append]
  exact Nat.lt_of_lt_of_le (by omega) hupper

/-- Labels that one object has used up are not those of a later one. -/
theorem label_not_mem_labelsSince
    {middle : List Record}
    {l : Label}
    (hlabels :
      ((before ++ .typed .newObject type :: middle).filterMap Record.label?).Nodup)
    (hl : l ∈ labelsSince before) :
    l ∉ labelsSince (before ++ .typed .newObject type :: middle) := by
  intro hagain
  rw [List.filterMap_append] at hlabels
  have hmiddle := label_of_mem_labelsSince_append rfl hagain
  exact List.disjoint_of_nodup_append hlabels (label_of_mem_labelsSince hl) hmiddle

/-- Two objects of which one was created after the other are of different sites. -/
theorem siteAfter_ne
    {middle : List Record}
    (hpending : m.pending = [])
    (hlast : m.lastSite = 0)
    (h : m.Distinguishes (before ++ .typed .newObject type :: middle))
    (hreachable : (m.after before).frame.reachable = true) :
    m.siteAfter before ≠ m.siteAfter (before ++ .typed .newObject type :: middle) := by
  unfold siteAfter
  cases hbefore : labelsSince before with
  | nil =>
      cases hlater : labelsSince (before ++ .typed .newObject type :: middle) with
      | nil =>
          intro hsame
          have hless := lastSite_lt_of_unlabelled hpending hlast h hreachable hbefore
          have hnumbers := UInt32.add_left_inj 1 |>.1 (CreationSite.synthetic.inj hsame)
          rw [hnumbers] at hless
          exact Nat.lt_irrefl _ hless
      | cons l rest =>
          nofun
  | cons l rest =>
      have hnone := label_not_mem_labelsSince h.labels (hbefore ▸ List.mem_cons_self)
      cases hlater : labelsSince (before ++ .typed .newObject type :: middle) with
      | nil =>
          nofun
      | cons other others =>
          intro hsame
          rw [hlater, CreationSite.label.inj hsame] at hnone
          exact hnone List.mem_cons_self

/-- Of two places in a list one comes first, or they are the same. -/
theorem split_trichotomy
    {α : Type}
    {before other later rest : List α}
    {x y : α}
    (h : before ++ x :: later = other ++ y :: rest) :
    before = other ∨ (∃ middle, other = before ++ x :: middle) ∨
      ∃ middle, before = other ++ y :: middle := by
  rcases List.append_eq_append_iff.1 h with ⟨middle, rfl, hx⟩ | ⟨middle, rfl, hy⟩
  · rcases List.cons_eq_append_iff.1 hx with ⟨rfl, _⟩ | ⟨middle, rfl, _⟩
    · exact .inl (List.append_nil _).symm
    · exact .inr (.inl ⟨middle, rfl⟩)
  · rcases List.cons_eq_append_iff.1 hy with ⟨rfl, _⟩ | ⟨middle, rfl, _⟩
    · exact .inl (List.append_nil _)
    · exact .inr (.inr ⟨middle, rfl⟩)

/-- No two objects that a run creates are of the same site. -/
theorem siteAfter_injective
    {other : List Record}
    (hpending : m.pending = [])
    (hlast : m.lastSite = 0)
    (h : m.Distinguishes records)
    (hbefore : m.Creating records before)
    (hother : m.Creating records other)
    (hsame : m.siteAfter before = m.siteAfter other) :
    before = other := by
  obtain ⟨type, later, rfl, hfirst⟩ := hbefore
  obtain ⟨second, rest, hsplit, hsecond⟩ := hother
  rcases split_trichotomy hsplit with heq | ⟨middle, rfl⟩ | ⟨middle, rfl⟩
  · exact heq
  · rw [hsplit] at h
    exact absurd hsame (siteAfter_ne hpending hlast h.take hfirst)
  · exact absurd hsame.symm (siteAfter_ne hpending hlast h.take hsecond)

end Machine
end SlotFlow
