import SlotFlow.Proofs.Frame.Keeps

/-!
# Accounts of stack slots

An operation pops slots and then pushes slots. On a reachable frame the two numbers
settle whether it runs out of slots or past the limit, and what is pushed settles
what the stack looks like afterwards.

Main definitions:

* `Slot`: what the stack discipline sees of a value;
* `Frame.Ready`: a reachable frame whose stack is within its limit;
* `Account`: the outcomes that numbers of slots popped and pushed allow.

Main statements:

* `Account.of_follows`: what comes after a change of the stack;
* `Account.bind_pop`, `Account.bind_push`: accounts of operations in a row.
-/

namespace SlotFlow

/-- What the stack discipline sees of a value. -/
inductive Slot where
  /-- A value that takes one slot. -/
  | single
  /-- The first half of a value that takes two. -/
  | wide
  /-- No value, or the second half of one. -/
  | empty
deriving DecidableEq

/-- The slot that holds a value of the category. -/
def Category.slot : Category → Slot
  | top => .empty
  | long | double => .wide
  | _ => .single

/-- The slot that holds the value. -/
def Value.slot
    (v : Value) :
    Slot :=
  v.category.slot

/-- The slots of a whole value of the category, top first. -/
def Category.slots
    (c : Category) :
    List Slot :=
  if c.isWide then [.empty, c.slot] else [c.slot]

namespace Frame

/-- A reachable frame whose stack is within its limit. -/
structure Ready (f : Frame) : Prop where
  reachable : f.reachable = true
  fits : f.exceeded? f.stack.length = none

/-- A frame that differs in what was popped off and pushed on its stack. -/
structure Follows
    (f : Frame)
    (popped : Nat)
    (slots : List Slot)
    (g : Frame) : Prop where
  reachable : g.reachable = f.reachable
  limit : g.limit = f.limit
  current : g.current = f.current
  stack : g.stack.map Value.slot = slots ++ (f.stack.drop popped).map Value.slot

theorem exceeded_eq_some
    {f : Frame}
    {depth limit : Nat} :
    f.exceeded? depth = some limit ↔ f.limit = some limit ∧ limit < depth := by
  simp [exceeded?]

theorem exceeded_eq_none
    {f : Frame}
    {depth : Nat} :
    f.exceeded? depth = none ↔ ∀ limit, f.limit = some limit → depth ≤ limit := by
  simp [exceeded?]

theorem exceeded_of_le
    {f : Frame}
    {depth more limit : Nat}
    (h : f.exceeded? depth = some limit)
    (hle : depth ≤ more) :
    f.exceeded? more = some limit := by
  rw [exceeded_eq_some] at h ⊢
  exact ⟨h.1, by omega⟩

theorem exceeded_of_ge
    {f : Frame}
    {depth less : Nat}
    (h : f.exceeded? depth = none)
    (hle : less ≤ depth) :
    f.exceeded? less = none := by
  rw [exceeded_eq_none] at h ⊢
  intro limit hlimit
  exact Nat.le_trans hle (h limit hlimit)

namespace Follows

variable {f g : Frame} {popped : Nat} {slots : List Slot}

theorem length
    (h : Follows f popped slots g) :
    g.stack.length = slots.length + (f.stack.length - popped) := by
  have hlength := congrArg List.length h.stack
  simpa using hlength

theorem exceeded
    (h : Follows f popped slots g)
    (depth : Nat) :
    g.exceeded? depth = f.exceeded? depth := by
  rw [exceeded?, exceeded?, h.limit]

theorem ready
    (h : Follows f popped slots g)
    (hf : f.Ready)
    (hroom : f.exceeded? (f.stack.length - popped + slots.length) = none) :
    g.Ready := by
  constructor
  · rw [h.reachable, hf.reachable]
  · rw [h.exceeded, h.length, Nat.add_comm]
    exact hroom

end Follows
end Frame

open SlotFlow.Frame (Ready Follows)

section Account

variable {σ α β : Type} {view : σ → Frame}

/--
What an operation may come to that pops slots, top first, and then pushes slots: too
few to pop, too many to push, a fault of its own, or success. A property of what it
returns and leaves holds on success.
-/
inductive Account
    (view : σ → Frame)
    (s : σ)
    (popped : Nat)
    (slots : List Slot)
    (faulty : Fault → Prop)
    (post : α → σ → Prop) :
    Except Fault α × σ → Prop
  | underflow
      {t : σ}
      (h : (view s).stack.length < popped) :
      Account view s popped slots faulty post (.error (.stackUnderflow (view s).current), t)
  | fault
      {t : σ}
      {e : Fault}
      (h : popped ≤ (view s).stack.length)
      (he : faulty e) :
      Account view s popped slots faulty post (.error e, t)
  | overflow
      {t : σ}
      {limit : Nat}
      (h : popped ≤ (view s).stack.length)
      (hlimit :
        (view s).exceeded? ((view s).stack.length - popped + slots.length) = some limit) :
      Account view s popped slots faulty post (.error (.stackOverflow limit), t)
  | done
      {t : σ}
      {a : α}
      (h : popped ≤ (view s).stack.length)
      (hroom : (view s).exceeded? ((view s).stack.length - popped + slots.length) = none)
      (ht : Follows (view s) popped slots (view t))
      (hpost : post a t) :
      Account view s popped slots faulty post (.ok a, t)

variable {s : σ} {popped more : Nat} {slots others : List Slot} {faulty : Fault → Prop}
variable {post : α → σ → Prop} {last : β → σ → Prop}
variable {act : ExceptT Fault (StateM σ) α} {next : α → ExceptT Fault (StateM σ) β}

/--
The account of what comes after slots were popped and others pushed, if nothing that was
pushed is popped again.
-/
theorem Account.of_follows
    {t : σ}
    {result : Except Fault β × σ}
    (h : Account view t more others faulty last result)
    (ht : Follows (view s) popped slots (view t))
    (hle : popped ≤ (view s).stack.length)
    (hapart : slots = [] ∨ more = 0) :
    Account view s (popped + more) (others ++ slots) faulty last result := by
  have hlength := ht.length
  have hslots : slots.length = 0 ∨ more = 0 := hapart.imp_left (congrArg List.length)
  have hdepth :
      (view t).stack.length - more + others.length =
        (view s).stack.length - (popped + more) + (others ++ slots).length := by
    rw [List.length_append]
    omega
  cases h with
  | underflow hless =>
      rw [ht.current]
      apply Account.underflow
      omega
  | fault hmore he =>
      refine .fault ?_ he
      omega
  | overflow hmore hlimit =>
      rw [ht.exceeded, hdepth] at hlimit
      refine .overflow ?_ hlimit
      omega
  | done hmore hroom hu hlast =>
      rw [ht.exceeded, hdepth] at hroom
      refine .done ?_ hroom ⟨?_, ?_, ?_, ?_⟩ hlast
      · omega
      · rw [hu.reachable, ht.reachable]
      · rw [hu.limit, ht.limit]
      · rw [hu.current, ht.current]
      · rw [hu.stack, List.map_drop, ht.stack]
        rcases hapart with rfl | rfl
        · rw [List.nil_append, List.append_nil, ← List.map_drop, List.drop_drop]
        · rw [List.drop_zero, Nat.add_zero, List.append_assoc]

/-- What is popped first and next adds up. -/
theorem Account.bind_pop
    (hs : (view s).Ready)
    (h : Account view s popped [] (fun _ => False) post (act s))
    (hnext :
      ∀ a t, Follows (view s) popped [] (view t) → (view t).Ready → post a t →
        Account view t more slots faulty last (next a t)) :
    Account view s (popped + more) slots faulty last ((act >>= next) s) := by
  rw [run_bind]
  generalize act s = result at h
  cases h with
  | underflow h =>
      exact .underflow (by omega)
  | fault _ he =>
      exact he.elim
  | overflow _ hlimit =>
      -- Nothing was pushed yet, and what is left is no deeper than what was there.
      have hroom := Frame.exceeded_of_ge hs.fits (Nat.sub_le _ popped)
      rw [List.length_nil, Nat.add_zero, hroom] at hlimit
      cases hlimit
  | @done t a h hroom ht hpost =>
      have hresult :=
        (hnext a t ht (ht.ready hs hroom) hpost).of_follows ht h (Or.inl rfl)
      rwa [List.append_nil] at hresult

/-- What is pushed first lies below what is pushed next. -/
theorem Account.bind_push
    (hs : (view s).Ready)
    (h : Account view s popped slots faulty post (act s))
    (hnext :
      ∀ a t, Follows (view s) popped slots (view t) → (view t).Ready → post a t →
        Account view t 0 others faulty last (next a t)) :
    Account view s popped (others ++ slots) faulty last ((act >>= next) s) := by
  rw [run_bind]
  generalize act s = result at h
  cases h with
  | underflow h =>
      exact .underflow h
  | fault h he =>
      exact .fault h he
  | overflow h hlimit =>
      refine .overflow h (Frame.exceeded_of_le hlimit ?_)
      rw [List.length_append]
      omega
  | @done t a h hroom ht hpost =>
      exact (hnext a t ht (ht.ready hs hroom) hpost).of_follows ht h (Or.inr rfl)

/-- What is done without the stack changes nothing in the account. -/
theorem Account.bind_quiet
    (hs : (view s).Ready)
    (h : Account view s popped slots faulty post (act s))
    (hnext :
      ∀ a t, Follows (view s) popped slots (view t) → (view t).Ready → post a t →
        Account view t 0 [] faulty last (next a t)) :
    Account view s popped slots faulty last ((act >>= next) s) := by
  have hboth := Account.bind_push hs h hnext
  rwa [List.nil_append] at hboth

theorem Account.weaken
    {goal : α → σ → Prop}
    {result : Except Fault α × σ}
    (h : Account view s popped slots faulty post result)
    (hgoal : ∀ a t, post a t → goal a t) :
    Account view s popped slots faulty goal result := by
  cases h with
  | underflow h =>
      exact .underflow h
  | fault h he =>
      exact .fault h he
  | overflow h hlimit =>
      exact .overflow h hlimit
  | done h hroom ht hpost =>
      exact .done h hroom ht (hgoal _ _ hpost)

theorem Account.of_view_eq
    {other : σ}
    {result : Except Fault α × σ}
    (h : Account view s popped slots faulty post result)
    (heq : view s = view other) :
    Account view other popped slots faulty post result := by
  cases h with
  | underflow h =>
      rw [heq] at h ⊢
      exact .underflow h
  | fault h he =>
      rw [heq] at h
      exact .fault h he
  | overflow h hlimit =>
      rw [heq] at h hlimit
      exact .overflow h hlimit
  | done h hroom ht hpost =>
      rw [heq] at h hroom ht
      exact .done h hroom ht hpost

/-- An operation that leaves the stack alone. -/
theorem Account.unchanged
    {t : σ}
    {a : α}
    (hs : (view s).Ready)
    (ht : Follows (view s) 0 [] (view t))
    (hpost : post a t) :
    Account view s 0 [] faulty post (.ok a, t) :=
  .done (Nat.zero_le _) hs.fits ht hpost

end Account
end SlotFlow
