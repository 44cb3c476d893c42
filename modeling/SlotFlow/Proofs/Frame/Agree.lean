import SlotFlow.Proofs.Frame.Keeps

/-!
# Operations that agree

Two runs that start from related states may be compared operation by operation: they
succeed together or fail with the same fault, and the states stay related. Faults of
the second run that are exempt say nothing of the first.

Main definitions:

* `Agree`: results that are to be had from related states;
* `Simulates`: operations with such results on all related states.

Main statements:

* `Simulates.bind`: operations one after the other;
* `simulates_whenReachable`: operations on reachable frames.
-/

namespace SlotFlow

section Agree

variable {σ τ α β γ δ : Type}

/-- Results that are to be had from related states. -/
inductive Agree
    (R : σ → τ → Prop)
    (V : α → β → Prop)
    (exempt : Fault → Prop) :
    Except Fault α × σ → Except Fault β × τ → Prop
  | ok
      {a : α}
      {b : β}
      {s : σ}
      {t : τ}
      (h : R s t)
      (hv : V a b) :
      Agree R V exempt (.ok a, s) (.ok b, t)
  | error
      {e : Fault}
      {s : σ}
      {t : τ}
      (h : R s t) :
      Agree R V exempt (.error e, s) (.error e, t)
  | exempt
      {e : Fault}
      {result : Except Fault α × σ}
      {t : τ}
      (he : exempt e) :
      Agree R V exempt result (.error e, t)

/-- Operations that agree on all related states. -/
def Simulates
    (R : σ → τ → Prop)
    (V : α → β → Prop)
    (exempt : Fault → Prop)
    (act : ExceptT Fault (StateM σ) α)
    (other : ExceptT Fault (StateM τ) β) :
    Prop :=
  ∀ s t, R s t → Agree R V exempt (act s) (other t)

variable {R : σ → τ → Prop} {V : α → β → Prop} {W : γ → δ → Prop} {exempt : Fault → Prop}

theorem Simulates.bind
    {act : ExceptT Fault (StateM σ) α}
    {other : ExceptT Fault (StateM τ) β}
    {next : α → ExceptT Fault (StateM σ) γ}
    {after : β → ExceptT Fault (StateM τ) δ}
    (h : Simulates R V exempt act other)
    (hnext : ∀ a b, V a b → Simulates R W exempt (next a) (after b)) :
    Simulates R W exempt (act >>= next) (other >>= after) := by
  intro s t hst
  have hfirst := h s t hst
  rw [run_bind, run_bind]
  generalize act s = x at hfirst
  generalize other t = y at hfirst
  cases hfirst with
  | @ok a b s t h hv =>
      exact hnext a b hv s t h
  | error h =>
      exact .error h
  | exempt he =>
      exact .exempt he

theorem simulates_pure
    {a : α}
    {b : β}
    (h : V a b) :
    Simulates R V exempt (pure a) (pure b) := by
  intro s t hst
  exact .ok hst h

theorem simulates_throw
    (e : Fault) :
    Simulates R V exempt (throw e) (throw e) := by
  intro s t hst
  exact .error hst

end Agree

/-- Both frames are reachable or neither is. -/
theorem simulates_whenReachable
    {α β : Type}
    {R : Frame → Frame → Prop}
    {V : α → β → Prop}
    {exempt : Fault → Prop}
    {act : Frame → Except Fault α × Frame}
    {other : Frame → Except Fault β × Frame}
    (hR : ∀ f g, R f g → f.reachable = g.reachable)
    (h : ∀ f g, g.reachable = true → R f g → Agree R V exempt (act f) (other g)) :
    Simulates R V exempt (Frame.whenReachable act) (Frame.whenReachable other) := by
  intro f g hfg
  unfold Frame.whenReachable
  rw [hR f g hfg]
  by_cases hreachable : g.reachable = true
  · rw [if_pos hreachable, if_pos hreachable]
    exact h f g hreachable hfg
  · rw [if_neg hreachable, if_neg hreachable]
    exact .error hfg

end SlotFlow
