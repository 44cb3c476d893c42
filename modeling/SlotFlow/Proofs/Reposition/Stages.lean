import SlotFlow.Proofs.Reposition.Step

/-!
# The stages of the observer that moves a component

The observer may be shown any records with any frames, of one method after the other. What
it has been shown tells the stage: it has seen the first record that each earlier stage
waits for, in order, and since then none that its own stage waits for.

Main definitions:

* `Repositioner.after`: the observer after a history of records;
* `Repositioner.Stored`, `Repositioner.Added`, `Repositioner.Moved`: the places in a history
  at which the component was built, stored, added and positioned;
* `Repositioner.Stands`: what a history tells of the stage;
* `Repositioner.Orderly`: how the observer passes its stages.

Main statements:

* `Repositioner.Stands.step`, `Repositioner.Stands.after`: one more record, and any number;
* `Repositioner.finishes_iff`: the record at which a fresh observer finishes;
* `Repositioner.after_orderly`: the stages of a fresh observer;
* `Repositioner.runFrom_after`: an analysis shows the observer its records.
-/

namespace SlotFlow

section First

variable {α : Type}

/-- Something holds of an element from a start on, and of no element between the two. -/
structure FirstFrom
    (p : α → Prop)
    (history : List α)
    (start place : Nat) : Prop where
  le : start ≤ place
  holds : ∃ x, history[place]? = some x ∧ p x
  first : ∀ (i : Nat) x, start ≤ i → i < place → history[i]? = some x → ¬ p x

/-- Something holds of no element from a start on. -/
def NoneFrom
    (p : α → Prop)
    (history : List α)
    (start : Nat) :
    Prop :=
  ∀ (i : Nat) x, start ≤ i → history[i]? = some x → ¬ p x

variable {p : α → Prop} {history : List α} {start place other : Nat} {x : α}

theorem FirstFrom.lt_length
    (h : FirstFrom p history start place) :
    place < history.length := by
  obtain ⟨_, hx, _⟩ := h.holds
  exact (List.getElem?_eq_some_iff.1 hx).1

theorem FirstFrom.append
    (h : FirstFrom p history start place)
    (later : List α) :
    FirstFrom p (history ++ later) start place := by
  have hlt := h.lt_length
  refine ⟨h.le, ?_, ?_⟩
  · rw [List.getElem?_append_left hlt]
    exact h.holds
  · intro i x hstart hi hx
    rw [List.getElem?_append_left (Nat.lt_trans hi hlt)] at hx
    exact h.first i x hstart hi hx

theorem FirstFrom.unique
    (h : FirstFrom p history start place)
    (hother : FirstFrom p history start other) :
    other = place := by
  obtain ⟨x, hx, hpx⟩ := h.holds
  obtain ⟨y, hy, hpy⟩ := hother.holds
  rcases Nat.lt_trichotomy other place with hlt | heq | hgt
  · exact absurd hpy (h.first other y hother.le hlt hy)
  · exact heq
  · exact absurd hpx (hother.first place x h.le hgt hx)

theorem noneFrom_of_length_le
    (h : history.length ≤ start) :
    NoneFrom p history start := by
  intro i x hstart hx
  rw [List.getElem?_eq_none (Nat.le_trans h hstart)] at hx
  cases hx

theorem NoneFrom.append
    (h : NoneFrom p history start)
    (hx : ¬ p x) :
    NoneFrom p (history ++ [x]) start := by
  intro i y hstart hy
  rcases Nat.lt_trichotomy i history.length with hlt | rfl | hgt
  · rw [List.getElem?_append_left hlt] at hy
    exact h i y hstart hy
  · rw [List.getElem?_concat_length] at hy
    cases hy
    exact hx
  · have hlength : (history ++ [x]).length ≤ i := by
      rw [List.length_append]
      exact hgt
    rw [List.getElem?_eq_none hlength] at hy
    cases hy

/-- What has held of no element so far holds of the new one. -/
theorem NoneFrom.firstFrom
    (h : NoneFrom p history start)
    (hle : start ≤ history.length)
    (hx : p x) :
    FirstFrom p (history ++ [x]) start history.length := by
  refine ⟨hle, ⟨x, List.getElem?_concat_length, hx⟩, ?_⟩
  intro i y hstart hi hy
  rw [List.getElem?_append_left hi] at hy
  exact h i y hstart hy

end First

namespace Repositioner

variable {s t t' : Repositioner} {x : Sight} {history : List Sight}

/-- The observer after a history of records. -/
def after
    (s : Repositioner) :
    List Sight → Repositioner
  | [] => s
  | x :: later => (s.shown x).state.after later

theorem after_append
    (s : Repositioner)
    (history later : List Sight) :
    s.after (history ++ later) = (s.after history).after later := by
  induction history generalizing s with
  | nil =>
      rfl
  | cons x rest ih =>
      exact ih (s.shown x).state

theorem after_concat
    (s : Repositioner)
    (history : List Sight)
    (x : Sight) :
    s.after (history ++ [x]) = ((s.after history).shown x).state :=
  s.after_append history [x]

/-- The component was built, and then stored in a field. -/
structure Stored
    (s : Repositioner)
    (history : List Sight)
    (i j : Nat)
    (name : String) : Prop where
  built : FirstFrom s.Builds history 0 i
  stored : FirstFrom (fun x => ∃ name, x.Stores name) history (i + 1) j
  named : ∃ x, history[j]? = some x ∧ x.Stores name

/-- What was loaded from the field was then added. -/
structure Added
    (s : Repositioner)
    (history : List Sight)
    (i j k : Nat)
    (name : String) : Prop extends Stored s history i j name where
  added : FirstFrom (fun x => x.Adds name) history (j + 1) k

/-- A call then positioned the component at the offset to be replaced. -/
structure Moved
    (s : Repositioner)
    (history : List Sight)
    (i j k l : Nat)
    (name : String) : Prop extends Added s history i j k name where
  offset : FirstFrom s.Offsets history (k + 1) l

theorem Stored.append
    {i j : Nat}
    {name : String}
    (h : s.Stored history i j name)
    (later : List Sight) :
    s.Stored (history ++ later) i j name := by
  refine ⟨h.built.append later, h.stored.append later, ?_⟩
  rw [List.getElem?_append_left h.stored.lt_length]
  exact h.named

theorem Added.append
    {i j k : Nat}
    {name : String}
    (h : s.Added history i j k name)
    (later : List Sight) :
    s.Added (history ++ later) i j k name :=
  ⟨h.toStored.append later, h.added.append later⟩

theorem Moved.append
    {i j k l : Nat}
    {name : String}
    (h : s.Moved history i j k l name)
    (later : List Sight) :
    s.Moved (history ++ later) i j k l name :=
  ⟨h.toAdded.append later, h.offset.append later⟩

/-- The places are the first ones of their kinds, so there is one way only to tell them. -/
theorem Stored.unique
    {i j i' j' : Nat}
    {name name' : String}
    (h : s.Stored history i j name)
    (h' : s.Stored history i' j' name') :
    i' = i ∧ j' = j ∧ name' = name := by
  obtain rfl := h.built.unique h'.built
  obtain rfl := h.stored.unique h'.stored
  obtain ⟨x, hx, _, _, hrecord⟩ := h.named
  obtain ⟨y, hy, _, _, hrecord'⟩ := h'.named
  rw [hx] at hy
  cases hy
  rw [hrecord] at hrecord'
  cases hrecord'
  exact ⟨rfl, rfl, rfl⟩

theorem Added.unique
    {i j k i' j' k' : Nat}
    {name name' : String}
    (h : s.Added history i j k name)
    (h' : s.Added history i' j' k' name') :
    k' = k := by
  obtain ⟨rfl, rfl, rfl⟩ := h.toStored.unique h'.toStored
  exact h.added.unique h'.added

theorem Moved.unique
    {i j k l i' j' k' l' : Nat}
    {name name' : String}
    (h : s.Moved history i j k l name)
    (h' : s.Moved history i' j' k' l' name') :
    l' = l := by
  obtain rfl := h.toAdded.unique h'.toAdded
  exact h.offset.unique h'.offset

/-- The stage of an observer and what it has been shown: it waits for the next record. -/
inductive Stands
    (s : Repositioner)
    (history : List Sight) :
    Repositioner → Prop
  | construction
      (awaited : NoneFrom s.Builds history 0) :
      Stands s history { s with stage := .construction, field := none }
  | assignment
      {i : Nat}
      (built : FirstFrom s.Builds history 0 i)
      (awaited : NoneFrom (fun x => ∃ name, x.Stores name) history (i + 1)) :
      Stands s history { s with stage := .assignment, field := none }
  | addition
      {i j : Nat}
      {name : String}
      (stored : s.Stored history i j name)
      (awaited : NoneFrom (fun x => x.Adds name) history (j + 1)) :
      Stands s history { s with stage := .addition, field := some name }
  | positioning
      {i j k : Nat}
      {name : String}
      (added : s.Added history i j k name)
      (awaited : NoneFrom s.Offsets history (k + 1)) :
      Stands s history { s with stage := .positioning, field := some name }
  | done
      {i j k l : Nat}
      {name : String}
      (moved : s.Moved history i j k l name) :
      Stands s history { s with stage := .done, field := some name }

/-- A record that is not waited for. -/
theorem Stands.idle
    (h : s.Stands history t)
    (hidle : ¬ t.Awaits x) :
    s.Stands (history ++ [x]) t := by
  cases h with
  | construction awaited =>
      exact .construction (awaited.append hidle)
  | assignment built awaited =>
      exact .assignment (built.append [x]) (awaited.append hidle)
  | addition stored awaited =>
      exact .addition (stored.append [x])
        (awaited.append fun hadds => hidle ⟨_, rfl, hadds⟩)
  | positioning added awaited =>
      exact .positioning (added.append [x]) (awaited.append hidle)
  | done moved =>
      exact .done (moved.append [x])

/-- The call that positions the component at the offset has its place after the others. -/
theorem Stands.moved
    (h : s.Stands history t)
    (hstage : t.stage = .positioning)
    (hoffsets : t.Offsets x) :
    ∃ i j k name, s.Moved (history ++ [x]) i j k history.length name ∧ t.field = some name := by
  cases h with
  | construction | assignment | addition | done =>
      cases hstage
  | @positioning i j k name added awaited =>
      exact ⟨i, j, k, name, ⟨added.append [x], awaited.firstFrom added.added.lt_length hoffsets⟩,
        rfl⟩

/-- One more record. -/
theorem Stands.step
    {outcome : Except Fault Emission}
    (h : s.Stands history t)
    (hstep : Step t x t' outcome) :
    s.Stands (history ++ [x]) t' := by
  have hend {p : Sight → Prop} : NoneFrom p (history ++ [x]) (history.length + 1) :=
    noneFrom_of_length_le (by simp)
  cases hstep with
  | failed idle | kept idle =>
      exact h.idle idle
  | built stage event =>
      cases h with
      | construction awaited =>
          exact .assignment (awaited.firstFrom (Nat.zero_le _) event) hend
      | assignment | addition | positioning | done =>
          cases stage
  | @stored name stage event =>
      cases h with
      | assignment built awaited =>
          have hstored := awaited.firstFrom built.lt_length ⟨name, event⟩
          exact .addition ⟨built.append [x], hstored, x, List.getElem?_concat_length, event⟩ hend
      | construction | addition | positioning | done =>
          cases stage
  | @added field stage known event =>
      cases h with
      | @addition i j name stored awaited =>
          cases known
          have hadded := awaited.firstFrom stored.stored.lt_length event
          exact .positioning ⟨stored.append [x], hadded⟩ hend
      | construction | assignment | positioning | done =>
          cases stage
  | offset stage event =>
      obtain ⟨i, j, k, name, hmoved, hfield⟩ := h.moved stage event
      cases h with
      | positioning =>
          cases hfield
          exact .done hmoved
      | construction | assignment | addition | done =>
          cases stage

/-- The observer has not been shown anything. -/
structure Fresh (s : Repositioner) : Prop where
  stage : s.stage = .construction
  field : s.field = none

theorem Fresh.stands
    (h : s.Fresh) :
    s.Stands [] s := by
  obtain ⟨_, _, _, _, _, _, _, _⟩ := s
  obtain ⟨rfl, rfl⟩ := h
  exact .construction (noneFrom_of_length_le (Nat.le_refl 0))

/-- A history that goes on. -/
theorem Stands.after
    (h : s.Stands history t)
    (later : List Sight) :
    s.Stands (history ++ later) (t.after later) := by
  induction later generalizing t history with
  | nil =>
      rwa [List.append_nil]
  | cons x rest ih =>
      -- The record ends the history that the rest goes on from.
      rw [List.append_cons history x rest]
      exact ih (h.step (t.observe_step x))

/-- What a history tells of the stage of an observer that was fresh before it. -/
theorem after_stands
    (h : s.Fresh)
    (history : List Sight) :
    s.Stands history (s.after history) :=
  h.stands.after history

theorem Stands.moved_of_done
    (h : s.Stands history t)
    (hdone : t.stage = .done) :
    ∃ i j k l name, s.Moved history i j k l name := by
  cases h with
  | construction | assignment | addition | positioning =>
      cases hdone
  | done moved =>
      exact ⟨_, _, _, _, _, moved⟩

theorem Stands.settings
    (h : s.Stands history t) :
    ∃ stage field, t = { s with stage := stage, field := field } := by
  cases h <;> exact ⟨_, _, rfl⟩

/-- The records of an analysis as they are shown to its only observer. -/
def sights
    (m : Machine) :
    List Record → List Sight
  | [] => []
  | r :: rest => ⟨r, m.frame, .none⟩ :: sights (Machine.execute r m).2 rest

/-- An analysis shows its records to the observer, up to the one at which it ends. -/
theorem runFrom_after
    (method : Method)
    (tracing : Bool)
    (index : Nat)
    (m : Machine)
    (s : Repositioner)
    (records : List Record) :
    ∃ count, (runFrom method tracing index m [s] records).observers =
      [s.after ((sights m records).take count)] := by
  induction records generalizing index m s with
  | nil =>
      exact ⟨0, rfl⟩
  | cons r rest ih =>
      obtain ⟨houtcome, hstate⟩ := s.notify_single r m.frame .none
      rw [runFrom, houtcome, hstate]
      cases (s.observe r m.frame .none).outcome with
      | error fault =>
          exact ⟨1, rfl⟩
      | ok e =>
          obtain ⟨count, hcount⟩ := ih (index + 1) (m.execute r).2 (s.observe r m.frame .none).state
          rcases hexecute : m.execute r with ⟨fault | _, next⟩
          · exact ⟨1, rfl⟩
          · rw [hexecute] at hcount
            refine ⟨count + 1, ?_⟩
            rw [sights, hexecute]
            exact hcount

end Repositioner
end SlotFlow
