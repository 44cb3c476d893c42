import SlotFlow.Proofs.Frame.Account
import SlotFlow.Proofs.Machine.Reached

/-!
# Sound frames

Main definitions:

* `Frame.All`: frames whose values all have a property;
* `Frame.Built`: frames whose values are built by constructors;
* `Frame.Sound`: frames whose stack is within its limit besides.

Main statements:

* `all_stable`, `built_stable`, `sound_stable`: every change of a frame keeps it so;
* `Machine.Reached.sound`: the frames of runs are sound.
-/

namespace SlotFlow

namespace Locals

variable {cells : List Value} {v w : Value} {index : Nat}

theorem mem_pad
    {length : Nat}
    (h : w ∈ pad length cells) :
    w ∈ cells ∨ w = .top := by
  rcases List.mem_append.1 h with h | h
  · exact Or.inl h
  · exact Or.inr (List.eq_of_mem_replicate h)

theorem mem_emptyNext
    {needed : Bool}
    (h : w ∈ emptyNext cells index needed) :
    w ∈ cells ∨ w = .top := by
  unfold emptyNext at h
  split at h
  · exact List.mem_or_eq_of_mem_set h
  · exact Or.inl h

theorem mem_emptyPrevious
    (h : w ∈ emptyPrevious cells index) :
    w ∈ cells ∨ w = .top := by
  cases index with
  | zero =>
      exact Or.inl h
  | succ index =>
      rw [emptyPrevious] at h
      split at h
      · exact List.mem_or_eq_of_mem_set h
      · exact Or.inl h

/-- A write brings the value and empty slots, and nothing else. -/
theorem mem_write
    (h : w ∈ write cells index v) :
    w ∈ cells ∨ w = v ∨ w = .top := by
  unfold write at h
  simp only at h
  rcases mem_emptyPrevious h with h | h
  · rcases mem_emptyNext h with h | h
    · rcases List.mem_or_eq_of_mem_set h with h | h
      · rcases mem_pad h with h | h
        · exact Or.inl h
        · exact Or.inr (Or.inr h)
      · exact Or.inr (Or.inl h)
    · exact Or.inr (Or.inr h)
  · exact Or.inr (Or.inr h)

end Locals

namespace Frame

/-- All values of a frame have a property. -/
def All
    (P : Value → Prop)
    (f : Frame) :
    Prop :=
  ∀ v ∈ f.locals ++ f.stack, P v

/-- All values of a frame are built by constructors. -/
def Built
    (f : Frame) :
    Prop :=
  ∀ v ∈ f.locals ++ f.stack, v.Built

/-- The values are built by constructors, and the stack is within its limit. -/
structure Sound (f : Frame) : Prop where
  built : f.Built
  fits : f.exceeded? f.stack.length = none

theorem expand_plain
    {types : List VerificationType}
    {v : Value}
    (h : v ∈ expand types) :
    v.Plain := by
  obtain ⟨type, _, hv⟩ := List.mem_flatMap.1 h
  simp only at hv
  split at hv
  · simp only [List.mem_cons, List.not_mem_nil, or_false] at hv
    rcases hv with rfl | rfl
    · exact ⟨.unknown _, rfl⟩
    · exact ⟨.top, rfl⟩
  · simp only [List.mem_cons, List.not_mem_nil, or_false] at hv
    subst hv
    exact ⟨.unknown _, rfl⟩

/-- A property that all plain values have is kept by every change of a frame. -/
theorem all_stable
    {P : Value → Prop}
    (plain : ∀ {v : Value}, v.Plain → P v) :
    Stable P (All P) where
  plain := plain
  values hf := hf
  empty limit := by
    intro v hv
    cases hv
  executing op hf := hf
  touched n hf := hf
  written index hf _ hv := by
    intro w hw
    rcases List.mem_append.1 hw with hw | hw
    · rcases Locals.mem_write hw with hw | rfl | rfl
      · exact hf w (List.mem_append_left _ hw)
      · exact hv
      · exact plain ⟨.top, rfl⟩
    · exact hf w (List.mem_append_right _ hw)
  pushed hf _ hv _ := by
    intro w hw
    rcases List.mem_append.1 hw with hw | hw
    · exact hf w (List.mem_append_left _ hw)
    · rcases List.mem_cons.1 hw with rfl | hw
      · exact hv
      · exact hf w (List.mem_append_right _ hw)
  dropped n hf := by
    intro w hw
    rcases List.mem_append.1 hw with hw | hw
    · exact hf w (List.mem_append_left _ hw)
    · exact hf w (List.mem_append_right _ (List.mem_of_mem_drop hw))
  reset locals stack _ _ := by
    intro w hw
    rcases List.mem_append.1 hw with hw | hw
    · exact plain (expand_plain hw)
    · exact plain (expand_plain (List.mem_reverse.1 hw))
  replaced old hf hnew := by
    intro w hw
    simp only [replaceAll, ← List.map_append] at hw
    obtain ⟨v, hv, rfl⟩ := List.mem_map.1 hw
    split
    · exact hnew
    · exact hf v hv
  left _ := by
    intro w hw
    cases hw

/-- Every change of a frame keeps its values built by constructors. -/
theorem built_stable :
    Stable Value.Built Built :=
  all_stable Value.Plain.built

/-- Every change of a frame keeps it sound. -/
theorem sound_stable :
    Stable Value.Built Sound where
  plain h := h.built
  values hf := hf.built
  empty limit := by
    refine ⟨built_stable.empty limit, ?_⟩
    simp [exceeded?, Frame.empty]
  executing op hf := ⟨hf.built, hf.fits⟩
  touched n hf := ⟨hf.built, hf.fits⟩
  written index hf hreachable hv :=
    ⟨built_stable.written index hf.built hreachable hv, hf.fits⟩
  pushed hf hreachable hv hroom :=
    ⟨built_stable.pushed hf.built hreachable hv hroom, hroom⟩
  dropped n hf := by
    refine ⟨built_stable.dropped n hf.built, exceeded_of_ge hf.fits ?_⟩
    rw [List.length_drop]
    omega
  reset locals stack hf hroom := by
    refine ⟨built_stable.reset locals stack hf.built hroom, ?_⟩
    simp only [reset, List.length_reverse]
    exact hroom
  replaced old hf hnew := by
    refine ⟨built_stable.replaced old hf.built hnew, ?_⟩
    simp only [replaceAll, List.length_map]
    exact hf.fits
  left hf := ⟨built_stable.left hf.built, exceeded_of_ge hf.fits (Nat.zero_le _)⟩

end Frame

/-- The frames of runs are sound. -/
theorem Machine.Reached.sound
    {m : Machine}
    (h : Machine.Reached m) :
    m.frame.Sound :=
  h.stable Frame.sound_stable

end SlotFlow
