import Mathlib.Data.List.Induction
import SlotFlow.Proofs.Machine.Derived
import SlotFlow.Proofs.Machine.Reachability

/-!
# Where values come from

A value that names a field was loaded from it: a record of the run has loaded a value of its
category from a field of the name, where control could be, and no frame was stated since.
Nothing is known of such a value.

Main definitions:

* `Machine.LoadedSince`: a field was loaded, and no frame was stated since;
* `Machine.Traced`: a value names a field only if it was loaded from it.

Main statements:

* `LoadedSince.append`, `traced_execute`: one more record;
* `after_traced`: whole runs;
* `provenance_sound`: what values of a run name fields, and which results do not.
-/

namespace SlotFlow

/-- Values that a field can have are neither empty nor under construction. -/
theorem Category.ofFieldType_ne
    (type : FieldType) :
    ofFieldType type ≠ .top ∧ ofFieldType type ≠ .null ∧
      ofFieldType type ≠ .uninitializedThis ∧
      ∀ site, ofFieldType type ≠ .uninitialized site := by
  cases type <;> simp [ofFieldType]

namespace Machine

variable {m : Machine} {records : List Record} {r : Record} {name : String}
  {category : Category} {v : Value}

/--
A record has loaded a value of the category from the field, where control could be, and no
frame that came after it has taken effect.
-/
def LoadedSince
    (m : Machine)
    (records : List Record)
    (name : String)
    (category : Category) :
    Prop :=
  ∃ before r later type, records = before ++ r :: later ∧ r.Loads name type ∧
    category = .ofFieldType type ∧ (m.after before).frame.reachable = true ∧
    ∀ middle x rest, later = middle ++ x :: rest → x.StatesFrame →
      (execute x (m.after (before ++ r :: middle))).1 ≠ .ok ()

/-- A record that does not state a frame. -/
theorem LoadedSince.append
    (h : m.LoadedSince records name category)
    (hr : r.StatesFrame → (execute r (m.after records)).1 ≠ .ok ()) :
    m.LoadedSince (records ++ [r]) name category := by
  obtain ⟨before, load, later, type, rfl, hloads, hcategory, hreachable, hnone⟩ := h
  refine ⟨before, load, later ++ [r], type, by simp, hloads, hcategory, hreachable, ?_⟩
  intro middle x rest hsplit hstates
  rcases concat_eq_append_cons_iff.1 hsplit with ⟨rfl, rfl, rfl⟩ | ⟨rest, rfl, rfl⟩
  · exact hr hstates
  · exact hnone middle x rest rfl hstates

/-- The last record has loaded a value from the field. -/
theorem loadedSince_of_loads
    {type : FieldType}
    (hloads : r.Loads name type)
    (hreachable : (m.after records).frame.reachable = true) :
    m.LoadedSince (records ++ [r]) name (.ofFieldType type) :=
  ⟨records, r, [], type, rfl, hloads, rfl, hreachable, fun _ _ _ hsplit => by simp at hsplit⟩

/-- A value that names a field is unknown and was loaded from the field. -/
def Traced
    (m : Machine)
    (records : List Record)
    (v : Value) :
    Prop :=
  ∀ name, v.provenance = some name →
    v.literal = .unknown ∧ m.LoadedSince records name v.category

theorem traced_of_untagged
    (h : v.provenance = none) :
    m.Traced records v := by
  intro name hname
  rw [h] at hname
  cases hname

theorem traced_stable
    (m : Machine)
    (records : List Record) :
    Frame.Stable (m.Traced records) (Frame.All (m.Traced records)) :=
  Frame.all_stable fun h => traced_of_untagged h.untagged

/-- A record that is not executed leaves the frame as it is, unless it states one. -/
theorem execute_frame_of_unreachable
    (hdead : m.frame.reachable = false)
    (hr : r.StatesFrame → (execute r m).1 ≠ .ok ()) :
    (execute r m).2.frame = m.frame := by
  have hexecution := execute_execution r m
  generalize (execute r m).1 = result at hexecution hr
  generalize (execute r m).2 = next at hexecution
  cases hexecution with
  | label | frameRefused | refused | passed =>
      rfl
  | reset kind room =>
      exact absurd rfl (hr ⟨_, rfl, kind⟩)
  | failed accepted reachable | continued accepted reachable | ended accepted reachable =>
      rw [hdead] at reachable
      cases reachable

/-- A frame that is stated names no fields. -/
theorem untagged_of_statesFrame
    (hstates : r.StatesFrame)
    (h : (execute r m).1 = .ok ()) :
    Frame.All (fun v => v.provenance = none) (execute r m).2.frame := by
  obtain ⟨f, rfl, _⟩ := hstates
  have hexecution := execute_execution (.frame f) m
  rw [h] at hexecution
  generalize (execute (.frame f) m).2 = next at hexecution
  cases hexecution with
  | reset kind room =>
      intro v hv
      rcases List.mem_append.1 hv with hv | hv
      · exact (Frame.expand_plain hv).untagged
      · exact (Frame.expand_plain (List.mem_reverse.1 hv)).untagged
  | passed accepted | continued accepted | ended accepted =>
      cases accepted.opcode

/-- One more record. -/
theorem traced_execute
    (h : Frame.All (m.Traced records) (m.after records).frame) :
    Frame.All (m.Traced (records ++ [r])) (m.after (records ++ [r])).frame := by
  rw [after_concat]
  by_cases hstated : r.StatesFrame ∧ (execute r (m.after records)).1 = .ok ()
  · intro v hv
    exact traced_of_untagged (untagged_of_statesFrame hstated.1 hstated.2 v hv)
  · have hr (hstates : r.StatesFrame) : (execute r (m.after records)).1 ≠ .ok () :=
      fun hok => hstated ⟨hstates, hok⟩
    have hkept : Frame.All (m.Traced (records ++ [r])) (m.after records).frame := by
      intro v hv name hname
      obtain ⟨hliteral, hloaded⟩ := h v hv name hname
      exact ⟨hliteral, hloaded.append hr⟩
    cases hreachable : (m.after records).frame.reachable with
    | false =>
        rw [execute_frame_of_unreachable hreachable hr]
        exact hkept
    | true =>
        have hbrings : r.effect.Brings (m.Traced (records ++ [r])) := by
          refine effect_brings (fun hmade => traced_of_untagged hmade.untagged) r ?_
          rintro field type hloads name hname
          cases hname
          exact ⟨rfl, loadedSince_of_loads hloads hreachable⟩
        exact (execute_keeps (traced_stable m _) hbrings _ hkept).1

/-- Every value of a run is traced. -/
theorem after_traced
    {method : Method}
    {settings : Settings}
    (h : start method settings = .ok m)
    (records : List Record) :
    Frame.All (m.Traced records) (m.after records).frame := by
  induction records using List.reverseRecOn with
  | nil =>
      exact start_stable (traced_stable m []) h
  | append_singleton records r ih =>
      exact traced_execute ih

theorem Traced.untagged
    (h : m.Traced records v)
    (hcategory :
      v.category = .top ∨ v.category = .null ∨ v.category = .uninitializedThis ∨
        ∃ site, v.category = .uninitialized site) :
    v.provenance = none := by
  cases hname : v.provenance with
  | none =>
      rfl
  | some name =>
      obtain ⟨_, _, _, _, type, _, _, htype, _⟩ := h name hname
      obtain ⟨htop, hnull, hthis, hsite⟩ := Category.ofFieldType_ne type
      rw [htype] at hcategory
      rcases hcategory with h | h | h | ⟨site, h⟩
      · exact absurd h htop
      · exact absurd h hnull
      · exact absurd h hthis
      · exact absurd h (hsite site)

/-- A local that a number was added to names no field. -/
theorem execute_increment_untagged
    {index : UInt16}
    {delta : Int32}
    (hreachable : m.frame.reachable = true)
    (h : (execute (.increment index delta) m).1 = .ok ()) :
    (Locals.read (execute (.increment index delta) m).2.frame.locals index.toNat).provenance =
      none := by
  obtain ⟨n, hperform, hnext⟩ := exists_performed_of_execute rfl hreachable rfl h
  rw [hnext]
  exact (increment_derived hperform).2

/--
A value of a run that names a field is unknown, and a record has loaded a value of its
category from a field of that name, where control could be and since the last frame that
was stated. So empty slots, null and objects under construction name no field. Nor does
any result but that of a copy or a read of a field, nor a local that a number was added
to, nor an object that was constructed.
-/
theorem provenance_sound
    {method : Method}
    {settings : Settings}
    (h : start method settings = .ok m)
    (records : List Record) :
    (∀ v ∈ (m.after records).frame.locals ++ (m.after records).frame.stack,
      (∀ name, v.provenance = some name →
          v.literal = .unknown ∧ m.LoadedSince records name v.category) ∧
        (v.category = .top ∨ v.category = .null ∨ v.category = .uninitializedThis ∨
            (∃ site, v.category = .uninitialized site) →
          v.provenance = none)) ∧
      ∀ r op, r.opcode? = some op → op ∉ copying → op ∉ flowEnding →
        (m.after records).frame.reachable = true →
          (execute r (m.after records)).1 = .ok () →
            (m.after records).frame.Derived r.effect.popped
                (execute r (m.after records)).2.frame ∧
              ∀ index delta, r = .increment index delta →
                (Locals.read (execute r (m.after records)).2.frame.locals
                  index.toNat).provenance = none := by
  constructor
  · intro v hv
    have htraced := after_traced h records v hv
    exact ⟨htraced, htraced.untagged⟩
  · intro r op hop hcopies hends hreachable hok
    have hcontinues : op.endsFlow = false := by
      rw [← Bool.not_eq_true, endsFlow_iff]
      exact hends
    refine ⟨execute_derived hop hcopies hcontinues hreachable hok, ?_⟩
    rintro index delta rfl
    exact execute_increment_untagged hreachable hok

/-- A number is loaded from a field and stored; one more than that comes from no field. -/
theorem provenance_sound_incremented :
    let m : Machine := ⟨Frame.empty none, "A", true, [], [], 0⟩
    let records : List Record := [.field .getstatic "A" "x" "I", .slot .istore 0]
    m.LoadedSince records "x" .int ∧
      (Locals.read (execute (.increment 0 1) (m.after records)).2.frame.locals 0).provenance =
        none := by
  intro m records
  obtain ⟨hvalues, hresults⟩ := provenance_sound (start_static "A" "run" .standard) records
  have hlocals : (m.after records).frame.locals = [Frame.loaded .int (some "x")] := by
    decide +kernel
  constructor
  · have hmem : Frame.loaded .int (some "x") ∈
        (m.after records).frame.locals ++ (m.after records).frame.stack := by
      rw [hlocals]
      exact List.mem_cons_self
    exact ((hvalues _ hmem).1 "x" rfl).2
  · exact (hresults (.increment 0 1) .iinc rfl (by decide) (by decide) (by decide +kernel)
      (by decide +kernel)).2 0 1 rfl

end Machine
end SlotFlow
