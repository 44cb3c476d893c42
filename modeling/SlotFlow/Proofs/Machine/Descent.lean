import SlotFlow.Proofs.Machine.Construction
import SlotFlow.Proofs.Machine.Origin

/-!
# Objects and their copies

An object that a `new` has created is copied by loads, stores and instructions like `dup`, and
stays where it is otherwise. In a run without frames every object that waits for its
constructor was created in the run, by the one `new` of its site. So calling a constructor
completes copies of one object, and leaves those of all others alone.

Main definitions:

* `Machine.Descends`: the places that hold a copy of an object.

Main statements:

* `Descends.content`: a copy is of the site of the object, until it is constructed;
* `descends_of_content`: what is of a site is a copy of an object of that site;
* `constructor_spares`: what a call of a constructor leaves alone;
* `creation_sites`: which sites objects have, and that they tell objects apart.
-/

namespace SlotFlow

theorem Record.effect_constructed
    (r : Record) :
    r.effect.Brings Value.Constructed :=
  Machine.effect_brings (fun hmade => hmade.constructed) r
    fun name type _ => Frame.constructed_loaded type (some name)

/-- The place of the receiver of a call whose arguments take so many slots. -/
def Frame.receiverPlace
    (f : Frame)
    (count : Nat) :
    Place :=
  .stack (f.stack.length - 1 - count)

/-- What is of a site now was so before. -/
theorem Value.Becomes.category_eq
    {v w : Value}
    {site : CreationSite}
    (h : v.Becomes w)
    (hw : w.category = .uninitialized site) :
    v.category = .uninitialized site := by
  cases h with
  | kept =>
      exact hw
  | emptied | completed =>
      cases hw

namespace Machine

variable {m : Machine} {records before born : List Record} {r : Record} {p : Place}
  {site : CreationSite}

/--
The places that hold the object that a `new` has created, or what its constructor has made of
it: where it was put, and where it was copied to since. The `new` is given by the records
before it.
-/
inductive Descends (m : Machine) (born : List Record) : List Record → Place → Prop
  | created
      {type : String}
      (reachable : (m.after born).frame.reachable = true) :
      Descends m born (born ++ [.typed .newObject type])
        (.stack (m.after born).frame.stack.length)
  | moved
      {records : List Record}
      {r : Record}
      {op : Opcode}
      {p q : Place}
      (held : Descends m born records p)
      (opcode : r.opcode? = some op)
      (continues : op.endsFlow = false)
      (reachable : (m.after records).frame.reachable = true)
      (origin : r.effect.origin (m.after records).frame q = some p)
      (filled : (m.after (records ++ [r])).frame.content q ≠ .top) :
      Descends m born (records ++ [r]) q
  | passed
      {records : List Record}
      {l : Label}
      {p : Place}
      (held : Descends m born records p) :
      Descends m born (records ++ [.label l]) p

/-- How a place has come to hold a copy by the last record. -/
inductive DescendsBy (m : Machine) (born records : List Record) : Record → Place → Prop
  | created
      {type : String}
      (last : records = born) :
      DescendsBy m born records (.typed .newObject type)
        (.stack (m.after records).frame.stack.length)
  | moved
      {r : Record}
      {op : Opcode}
      {p q : Place}
      (held : m.Descends born records p)
      (opcode : r.opcode? = some op)
      (origin : r.effect.origin (m.after records).frame q = some p) :
      DescendsBy m born records r q
  | passed
      {l : Label}
      {p : Place}
      (held : m.Descends born records p) :
      DescendsBy m born records (.label l) p

theorem Descends.last
    (h : m.Descends born (records ++ [r]) p) :
    m.DescendsBy born records r p := by
  generalize hall : records ++ [r] = all at h
  cases h with
  | created reachable =>
      obtain ⟨rfl, hr⟩ := List.append_inj' hall rfl
      cases hr
      exact .created rfl
  | moved held opcode continues reachable origin filled =>
      obtain ⟨rfl, hr⟩ := List.append_inj' hall rfl
      cases hr
      exact .moved held opcode origin
  | passed held =>
      obtain ⟨rfl, hr⟩ := List.append_inj' hall rfl
      cases hr
      exact .passed held

/-- The place of an object that is created has no origin. -/
theorem origin_created
    (f : Frame)
    (type : String) :
    (Record.typed .newObject type).effect.origin f (.stack f.stack.length) = none := by
  have habove : ¬ f.stack.length < f.stack.length - (Effect.create type).popped :=
    Nat.not_lt.2 (Nat.sub_le _ _)
  change (Effect.create type).origin f _ = none
  rw [Effect.origin, if_neg habove]
  rfl

/-- No place holds copies of two objects. -/
theorem Descends.unique
    {other : List Record}
    (h : m.Descends born records p)
    (hother : m.Descends other records p) :
    born = other := by
  induction records using List.reverseRecOn generalizing p with
  | nil =>
      generalize hnil : ([] : List Record) = none at h
      cases h <;> simp at hnil
  | append_singleton records r ih =>
      cases h.last with
      | created last =>
          cases hother.last with
          | created same =>
              exact last.symm.trans same
          | moved held opcode origin =>
              rw [origin_created] at origin
              cases origin
      | moved held opcode origin =>
          cases hother.last with
          | created last =>
              rw [origin_created] at origin
              cases origin
          | moved held' _ origin' =>
              rw [origin] at origin'
              cases origin'
              exact ih held held'
          | passed =>
              cases opcode
      | passed held =>
          cases hother.last with
          | moved _ opcode =>
              cases opcode
          | passed held' =>
              exact ih held held'

/-- An instruction that succeeds leaves in a place what its origin held, or what it makes. -/
theorem execute_carries
    {op : Opcode}
    (hop : r.opcode? = some op)
    (hcontinues : op.endsFlow = false)
    (hreachable : m.frame.reachable = true)
    (hok : (execute r m).1 = .ok ()) :
    r.effect.Carries (m.born? r.effect) m.frame (execute r m).2.frame := by
  obtain ⟨n, hperform, hnext⟩ := exists_performed_of_execute hop hreachable hcontinues hok
  have hcarries := perform_carries r.effect_constructed hperform
  rw [hnext]
  exact ⟨hcarries.copy, hcarries.fresh⟩

theorem Creating.concat
    (h : m.Creating records born)
    (r : Record) :
    m.Creating (records ++ [r]) born := by
  obtain ⟨type, later, rfl, hreachable⟩ := h
  exact ⟨type, later ++ [r], by simp, hreachable⟩

/-- A copy was made of an object that the records have created. -/
theorem Descends.creating
    (h : m.Descends born records p) :
    m.Creating records born := by
  induction h with
  | @created type reachable =>
      exact ⟨type, [], rfl, reachable⟩
  | moved _ _ _ _ _ _ ih | passed _ ih =>
      exact ih.concat _

/-- A copy of an object is of its site, or the object was constructed. -/
theorem Descends.content
    (hpending : m.pending = [])
    (hok : m.Succeeds records)
    (h : m.Descends born records p) :
    (m.after records).frame.content p = .uninitialized (m.siteAfter born) ∨
      ∃ type, (m.after records).frame.content p = .unknownObject type := by
  induction h with
  | created reachable =>
      obtain ⟨hbefore, hlast, _⟩ := (succeeds_append _ _).1 hok
      have hstack := (execute_new reachable hlast).1
      left
      rw [after_concat, Frame.content, hstack, newSite_after hpending hbefore, List.reverse_cons,
        Locals.read_append, List.length_reverse, if_neg (Nat.lt_irrefl _), Nat.sub_self]
      rfl
  | @moved records r _ _ q held opcode continues reachable origin filled ih =>
      obtain ⟨hbefore, hlast, _⟩ := (succeeds_append _ _).1 hok
      have hbecomes := (execute_carries opcode continues reachable hlast).copy _ _ origin
      have hsource := ih hbefore
      rw [after_concat] at filled ⊢
      generalize (execute r (m.after records)).2.frame.content q = w at hbecomes filled ⊢
      cases hbecomes with
      | kept =>
          exact hsource
      | emptied =>
          exact absurd rfl filled
      | completed type under =>
          exact .inr ⟨type, rfl⟩
  | passed held ih =>
      rw [after_concat]
      exact ih ((succeeds_append _ _).1 hok).1

section Entry

/-- What a value, an empty slot and all places have is had by all places after a write. -/
theorem content_writeLocal_has
    {P : Value → Prop}
    {f : Frame}
    {v : Value}
    (htop : P .top)
    (hv : P v)
    (hf : ∀ q, P (f.content q))
    (index : Nat)
    (q : Place) :
    P ((f.writeLocal index v).content q) := by
  rcases Frame.content_writeLocal f index v q with hcontent | ⟨_, hempty⟩
  · rw [hcontent]
    split
    · exact hv
    · exact hf q
  · rw [hempty]
    exact htop

theorem content_writeParameters
    {f : Frame}
    (hf : ∀ q, (f.content q).category ≠ .uninitialized site)
    (index : Nat)
    (types : List FieldType)
    (q : Place) :
    ((f.writeParameters index types).content q).category ≠ .uninitialized site := by
  induction types generalizing f index with
  | nil =>
      exact hf q
  | cons type types ih =>
      refine ih (fun q => ?_) _
      refine content_writeLocal_has (P := fun v => v.category ≠ .uninitialized site)
        nofun ?_ hf index q
      exact (Category.ofFieldType_ne type).2.2.2 site

/-- A method starts without objects that were created. -/
theorem content_start
    {method : Method}
    {settings : Settings}
    (h : start method settings = .ok m)
    (q : Place) :
    (m.frame.content q).category ≠ .uninitialized site := by
  obtain ⟨f, hentry, rfl⟩ := exists_of_map_eq_ok h
  have hempty (q : Place) :
      ((Frame.empty settings.maxStack).content q).category ≠ .uninitialized site := by
    cases q <;> nofun
  unfold Frame.entry at hentry
  split at hentry
  · cases hentry
  · split at hentry
    · cases hentry
      exact content_writeParameters hempty 0 _ q
    · cases hentry
      refine content_writeParameters (fun q => ?_) 1 _ q
      refine content_writeLocal_has (P := fun v => v.category ≠ .uninitialized site)
        nofun ?_ hempty 0 q
      unfold Frame.receiver
      split <;> nofun

end Entry

theorem content_of_cleared
    {f : Frame}
    (hlocals : f.locals = [])
    (hstack : f.stack = [])
    (q : Place) :
    f.content q = .top := by
  cases q with
  | locals index =>
      rw [Frame.content, hlocals]
      rfl
  | stack height =>
      rw [Frame.content, hstack]
      rfl

theorem effect_of_born
    {effect : Effect}
    (h : m.born? effect = some site) :
    ∃ type, effect = .create type := by
  cases effect with
  | create type =>
      exact ⟨type, rfl⟩
  | _ =>
      cases h

/-- What is of a site after one more record was so before, or is the object it has created. -/
theorem descends_concat
    {method : Method}
    {settings : Settings}
    (h : start method settings = .ok m)
    (hok : m.Succeeds (records ++ [r]))
    (hframe : ∀ f, r ≠ .frame f)
    (hbefore :
      ∀ p, ((m.after records).frame.content p).category = .uninitialized site →
        ∃ born, m.siteAfter born = site ∧ m.Descends born records p)
    (hp : ((m.after (records ++ [r])).frame.content p).category = .uninitialized site) :
    ∃ born, m.siteAfter born = site ∧ m.Descends born (records ++ [r]) p := by
  have hfilled : (m.after (records ++ [r])).frame.content p ≠ .top := by
    intro hempty
    rw [hempty] at hp
    cases hp
  obtain ⟨hrecords, hlast, _⟩ := (succeeds_append _ _).1 hok
  rw [after_concat] at hp
  have hexecution := execute_execution r (m.after records)
  rw [hlast] at hexecution
  generalize hnext : (execute r (m.after records)).2 = next at hexecution hp
  cases hexecution with
  | label l =>
      obtain ⟨born, hsite, hdescends⟩ := hbefore p hp
      exact ⟨born, hsite, hdescends.passed⟩
  | reset =>
      exact absurd rfl (hframe _)
  | passed accepted unreachable =>
      have hcoherent := after_coherent (start_coherent h).1 records
      obtain ⟨hlocals, hstack⟩ := hcoherent.cleared unreachable
      rw [finished, content_of_cleared hlocals hstack] at hp
      cases hp
  | continued accepted reachable performed continues =>
      have hcarries := execute_carries accepted.opcode continues reachable hlast
      rw [hnext] at hcarries
      cases horigin : r.effect.origin (m.after records).frame p with
      | some q =>
          have hsource := (hcarries.copy q p horigin).category_eq hp
          obtain ⟨born, hsite, hdescends⟩ := hbefore q hsource
          exact ⟨born, hsite,
            hdescends.moved accepted.opcode continues reachable horigin hfilled⟩
      | none =>
          rcases hcarries.fresh p horigin with hmade | ⟨s, hs, rfl, hcontent⟩
          · rw [Value.Constructed, hp] at hmade
            cases hmade
          · obtain ⟨type, heffect⟩ := effect_of_born hs
            obtain rfl := effect_eq_create heffect
            rw [hcontent] at hp
            cases hs
            refine ⟨records, ?_, .created reachable⟩
            rw [← newSite_after (start_eq_ok h).1 hrecords]
            exact Category.uninitialized.inj hp
  | ended accepted reachable performed ends =>
      rw [content_of_cleared rfl rfl] at hp
      cases hp

/-- In a run without frames what is of a site is a copy of an object of that site. -/
theorem descends_of_content
    {method : Method}
    {settings : Settings}
    (h : start method settings = .ok m)
    (hok : m.Succeeds records)
    (hframes : ∀ f, .frame f ∉ records)
    (hp : ((m.after records).frame.content p).category = .uninitialized site) :
    ∃ born, m.siteAfter born = site ∧ m.Descends born records p := by
  induction records using List.reverseRecOn generalizing p with
  | nil =>
      exact absurd hp (content_start h p)
  | append_singleton records r ih =>
      have hrecords := ((succeeds_append _ _).1 hok).1
      apply descends_concat h hok _ _ hp
      · rintro f rfl
        exact hframes f (List.mem_append_right _ List.mem_cons_self)
      · intro q hq
        exact ih hrecords (fun f hf => hframes f (List.mem_append_left _ hf)) hq

/-- What a call of a constructor leaves in the places that it does not pop. -/
theorem Constructs.content
    {callOwner descriptor : String}
    {g : Frame}
    {count : Nat}
    {result : Option FieldType}
    {c : Value}
    (h : m.Constructs callOwner descriptor g count result c)
    (hp : ∀ height, p = .stack height → height < m.frame.stack.length - (count + 1)) :
    g.content p = m.frame.content p ∨
      g.content p = m.completed c callOwner (m.frame.content p) := by
  obtain ⟨henough, _⟩ := List.getElem?_eq_some_iff.1 h.receiver
  have hexchanged : (m.frame.mapped (m.completed c callOwner)).Exchanged (count + 1)
      (Frame.loadedCells none result) g := by
    refine ⟨h.locals, ?_, ?_⟩
    · rw [Frame.mapped, List.length_map]
      exact henough
    · rw [h.stack, Frame.mapped, List.map_drop]
  have hkept : g.content p = (m.frame.mapped (m.completed c callOwner)).content p := by
    cases p with
    | locals index =>
        rw [Frame.content, hexchanged.locals]
        rfl
    | stack height =>
        have hlength : (m.frame.mapped (m.completed c callOwner)).stack.length =
            m.frame.stack.length :=
          List.length_map _
        rw [hexchanged.content_stack, hlength, if_pos (hp height rfl)]
  rw [hkept]
  exact Frame.content_mapped _ _ p

/--
A call of a constructor in a run without frames leaves every copy of an object alone, unless
the receiver is a copy of that object, and of no other.
-/
theorem constructor_spares
    {method : Method}
    {settings : Settings}
    (h : start method settings = .ok m)
    (hbefore : m.Distinguishes before)
    (hframes : ∀ f, .frame f ∉ before)
    {owner descriptor : String}
    {interface : Bool}
    (hreachable : (m.after before).frame.reachable = true)
    (hok :
      (execute (.method .invokespecial owner constructorName descriptor interface)
        (m.after before)).1 = .ok ()) :
    let f := (m.after before).frame
    let g :=
      (execute (.method .invokespecial owner constructorName descriptor interface)
        (m.after before)).2.frame
    ∃ count, poppedSlots? descriptor = some count ∧ count < f.stack.length ∧
      ∀ born p, m.Descends born before p →
        (∀ height, p = .stack height → height < f.stack.length - (count + 1)) →
          g.content p = f.content p ∨
            ∀ other, m.Descends other before (f.receiverPlace count) ↔ other = born := by
  intro f g
  obtain ⟨hpending, _⟩ := start_eq_ok h
  obtain ⟨count, result, c, hconstructs⟩ := execute_constructs hreachable hok
  obtain ⟨henough, _⟩ := List.getElem?_eq_some_iff.1 hconstructs.receiver
  refine ⟨count, hconstructs.popped, henough, ?_⟩
  intro born p hdescends hkept
  rcases hconstructs.content hkept with hsame | hcompleted
  · exact .inl hsame
  · rw [hcompleted]
    rcases completed_eq_or (m.after before) c (f.content p) owner with
      hsame | ⟨hcopy, hunder, _⟩
    · exact .inl hsame
    · -- a copy of the receiver is of its site, so the receiver is a copy of the same object
      have hreceiver : f.content (f.receiverPlace count) = f.content p := by
        have hheld := Frame.getElem_stack henough
        rw [hconstructs.receiver] at hheld
        rw [hcopy]
        exact (Option.some.inj hheld).symm
      rcases hdescends.content hpending hbefore.succeeds with hsite | ⟨type, hobject⟩
      · have hcategory : (f.content (f.receiverPlace count)).category =
            .uninitialized (m.siteAfter born) := by
          rw [hreceiver, hsite]
          rfl
        obtain ⟨source, hsites, hcopied⟩ :=
          descends_of_content h hbefore.succeeds hframes hcategory
        obtain rfl : source = born := siteAfter_injective hpending (start_lastSite h) hbefore
          hcopied.creating hdescends.creating hsites
        right
        intro other
        constructor
        · intro hother
          exact hother.unique hcopied
        · rintro rfl
          exact hcopied
      · rw [← hcopy, hobject] at hunder
        cases hunder

/--
In a run whose records succeed, in which no label is defined twice and fewer than `2 ^ 32`
objects are created, a `new` that is executed pushes an object of a site of its own: the first
label since the last instruction, or else a number. No two of them push the same site. If there
are no frames, a call of a constructor leaves all copies of an object alone that it does not
pop, unless its receiver is a copy of that object, and of no other.
-/
theorem creation_sites
    {method : Method}
    {settings : Settings}
    (h : start method settings = .ok m)
    (hok : m.Succeeds records)
    (hlabels : (records.filterMap Record.label?).Nodup)
    (hfew : m.creations records < 2 ^ 32) :
    (∀ before type later, records = before ++ .typed .newObject type :: later →
      (m.after before).frame.reachable = true →
        (m.after (before ++ [.typed .newObject type])).frame.stack =
          .uninitialized (m.siteAfter before) :: (m.after before).frame.stack) ∧
    (∀ before other, m.Creating records before → m.Creating records other →
      m.siteAfter before = m.siteAfter other → before = other) ∧
    ((∀ f, .frame f ∉ records) →
      ∀ before owner descriptor interface later,
        records =
            before ++ .method .invokespecial owner constructorName descriptor interface :: later →
          (m.after before).frame.reachable = true →
            let call : Record :=
              .method .invokespecial owner constructorName descriptor interface
            let f := (m.after before).frame
            let g := (m.after (before ++ [call])).frame
            ∃ count, poppedSlots? descriptor = some count ∧ count < f.stack.length ∧
              ∀ born p, m.Descends born before p →
                (∀ height, p = .stack height → height < f.stack.length - (count + 1)) →
                  g.content p = f.content p ∨
                    ∀ other, m.Descends other before (f.receiverPlace count) ↔
                      other = born) := by
  obtain ⟨hpending, _⟩ := start_eq_ok h
  have hrun : m.Distinguishes records := ⟨hok, hlabels, hfew⟩
  refine ⟨?pushed, ?distinct, ?spared⟩
  case pushed =>
    rintro before type later rfl hreachable
    obtain ⟨hbefore, hnew, _⟩ := (succeeds_append _ _).1 hok
    rw [after_concat, ← newSite_after hpending hbefore]
    exact (execute_new hreachable hnew).1
  case distinct =>
    intro before other hbefore hother hsame
    exact siteAfter_injective hpending (start_lastSite h) hrun hbefore hother hsame
  case spared =>
    rintro hframes before owner descriptor interface later rfl hreachable
    obtain ⟨_, hcall, _⟩ := (succeeds_append _ _).1 hok
    intro call f g
    have hspares := constructor_spares h hrun.take
      (fun f hf => hframes f (List.mem_append_left _ hf)) hreachable hcall
    have hg : g = (execute call (m.after before)).2.frame :=
      congrArg Machine.frame (after_concat m before call)
    rw [hg]
    exact hspares

/--
An object that was created at a label is stored in a local. The constructor of another one is
called on a copy of it, and completes the other copy, but not the object in the local.
-/
theorem creation_sites_stored :
    let m : Machine := ⟨Frame.empty none, "A", true, [], [], 0⟩
    let before : List Record :=
      [.label ⟨7⟩, .typed .newObject "a/B", .slot .astore 0, .typed .newObject "a/B", .bare .dup]
    let g := (m.after (before ++
      [.method .invokespecial "a/B" constructorName "()V" false])).frame
    m.Descends [.label ⟨7⟩] before (.locals 0) ∧
      g.content (.locals 0) = .uninitialized (.label ⟨7⟩) ∧
      g.content (.stack 0) = .unknownObject "a/B" := by
  intro m before g
  have hstart : start ⟨"A", "run", "()V", true⟩ .standard = .ok m := start_static _ _ _
  let first : List Record := [.label ⟨7⟩]
  let created : List Record := first ++ [.typed .newObject "a/B"]
  let stored : List Record := created ++ [.slot .astore 0]
  let second : List Record := stored ++ [.typed .newObject "a/B"]
  have hcreated : m.Descends first created (.stack 0) := .created (by decide +kernel)
  have hstored : m.Descends first stored (.locals 0) :=
    hcreated.moved rfl rfl (by decide +kernel) rfl (by decide +kernel)
  have hkept : m.Descends first second (.locals 0) :=
    hstored.moved rfl rfl (by decide +kernel) rfl (by decide +kernel)
  have hlocal : m.Descends first before (.locals 0) :=
    hkept.moved (r := .bare .dup) rfl rfl (by decide +kernel) rfl (by decide +kernel)
  have hother : m.Descends stored second (.stack 0) := .created (by decide +kernel)
  have hcopied : m.Descends stored before (.stack 1) :=
    hother.moved (r := .bare .dup) rfl rfl (by decide +kernel) rfl (by decide +kernel)
  let call : Record := .method .invokespecial "a/B" constructorName "()V" false
  have hok : m.Succeeds (before ++ [call]) := by
    decide +kernel
  obtain ⟨_, _, hspares⟩ := creation_sites hstart hok (by decide +kernel) (by decide +kernel)
  obtain ⟨count, hcount, _, hleft⟩ := hspares (by simp [before, call]) before "a/B" "()V" false []
    rfl (by decide +kernel)
  have hnone : poppedSlots? "()V" = some 0 := (slots_of_parse MethodDescriptor.parse_empty).1
  rw [hnone] at hcount
  cases hcount
  refine ⟨hlocal, ?_, by decide +kernel⟩
  rcases hleft first (.locals 0) hlocal nofun with hsame | honly
  · rw [hsame]
    decide +kernel
  · have hreceiver : (m.after before).frame.receiverPlace 0 = .stack 1 := by
      decide +kernel
    rw [hreceiver] at honly
    exact absurd ((honly stored).1 hcopied) (by decide +kernel)

end Machine
end SlotFlow
