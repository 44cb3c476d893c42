import SlotFlow.Proofs.Listing.RoundTrip

/-!
# What listings hold

Whatever a text is, the records that it is read as are well-formed: their opcodes take
their operands, and their names are words that a listing can hold. So they can be written
and are read back, and what was written is not changed by reading and writing it again.

Main definitions:

* `Lexed`: tokens whose words are words wherever they stand;
* `Reads`: what a reader gives has a property, whatever tokens a line was cut into.

Main statements:

* `lexed_of_tokenize`: a line is cut into such tokens;
* `Reads.bind`: readers in a row;
* `instruction_reads`: an instruction or frame that was read is well-formed;
* `wellFormed_of_parse`: all records that were read are;
* `exists_parse_iff`: the records that listings hold are the well-formed ones;
* `parse_render_stable`: reading what was written for what was read.
-/

namespace SlotFlow

/-- The parts of a cut make up the text, and the cut is at the last occurrence. -/
theorem Text.eq_of_splitLast
    {c : Char}
    {cs before after : List Char}
    (h : splitLast? c cs = some (before, after)) :
    cs = before ++ c :: after ∧ c ∉ after := by
  unfold splitLast? at h
  have hparts := List.takeWhile_append_dropWhile (p := fun d => decide (d ≠ c)) (l := cs.reverse)
  cases hdrop : cs.reverse.dropWhile (fun d => decide (d ≠ c)) with
  | nil =>
      rw [hdrop] at h
      cases h
  | cons d tail =>
      have hd : d = c := by
        have hhead := List.head?_dropWhile_not (fun d => decide (d ≠ c)) cs.reverse
        rw [hdrop] at hhead
        simpa using hhead
      subst hd
      rw [hdrop] at h hparts
      cases h
      constructor
      · have hreverse := congrArg List.reverse hparts
        simpa using hreverse.symm
      · intro hmem
        have hne := List.all_eq_true.1 List.all_takeWhile d (List.mem_reverse.1 hmem)
        simp at hne

namespace Listing

/-- Tokens whose words are words wherever they stand. -/
def Lexed
    (ts : List Token) :
    Prop :=
  ∀ t ∈ ts, t.kind = .word → IsWord t.text

/-- Every line is cut into such tokens. -/
theorem lexed_of_tokenize
    {cs : List Char}
    {ts : List Token}
    (h : tokenize cs = .ok ts) :
    Lexed ts := by
  induction ts generalizing cs with
  | nil =>
      exact nofun
  | cons t ts ih =>
      cases hscan : scan (cs.dropWhile isBlank) with
      | done =>
          rw [tokenize_of_done hscan] at h
          cases h
      | stuck text =>
          rw [tokenize_of_stuck hscan] at h
          cases h
      | lexeme kind text rest =>
          rw [tokenize_of_lexeme hscan] at h
          obtain ⟨us, hrest, hts⟩ := exists_of_map_eq_ok h
          cases hts
          intro u hu hkind
          rcases List.mem_cons.1 hu with rfl | hu
          · subst hkind
            rw [isWord_iff, String.toList_ofList]
            exact isWordText_of_scan hscan
          · exact ih hrest u hu hkind

section Reads

variable {α β : Type} {P : α → Prop} {Q : β → Prop}

/-- From lexed tokens the reader gives what has the property, and leaves lexed tokens. -/
def Reads
    (P : α → Prop)
    (p : Parser α) :
    Prop :=
  ∀ ts a rest, Lexed ts → p ts = .ok (a, rest) → P a ∧ Lexed rest

theorem Reads.weaken
    {P' : α → Prop}
    {p : Parser α}
    (h : Reads P p)
    (himp : ∀ a, P a → P' a) :
    Reads P' p := by
  intro ts a rest hts hread
  obtain ⟨ha, hrest⟩ := h ts a rest hts hread
  exact ⟨himp a ha, hrest⟩

theorem Reads.bind
    {p : Parser α}
    {f : α → Parser β}
    (h : Reads P p)
    (hnext : ∀ a, P a → Reads Q (f a)) :
    Reads Q (p >>= f) := by
  intro ts b rest hts hread
  obtain ⟨a, mid, hfirst, hsecond⟩ := exists_of_bind_eq_ok hread
  obtain ⟨ha, hmid⟩ := h ts a mid hts hfirst
  exact hnext a ha mid b rest hmid hsecond

theorem reads_pure
    {a : α}
    (ha : P a) :
    Reads P (pure a) := by
  intro ts b rest hts hread
  cases hread
  exact ⟨ha, hts⟩

theorem reads_throw
    (c : Complaint) :
    Reads P (throw c) := by
  intro ts a rest _ hread
  cases hread

theorem reads_orRefuse
    (read : Option α)
    (complaint : Complaint) :
    Reads (fun a => read = some a) (orRefuse read complaint) := by
  intro ts a rest hts hread
  obtain ⟨ha, rfl⟩ := orRefuse_eq_ok hread
  exact ⟨ha, hts⟩

theorem reads_orRefuse_map
    {f : α → β}
    (hf : ∀ a, Q (f a))
    (read : Option α)
    (complaint : Complaint) :
    Reads Q (orRefuse (read.map f) complaint) := by
  apply (reads_orRefuse _ complaint).weaken
  intro b hb
  obtain ⟨a, _, rfl⟩ := Option.map_eq_some_iff.1 hb
  exact hf a

/-- A reader that takes the rest of the line leaves nothing. -/
theorem reads_toEnd
    (read : List Token → Except Complaint α) :
    Reads (fun _ => True) (toEnd read) := by
  intro ts a rest _ hread
  obtain ⟨_, _, hpair⟩ := exists_of_map_eq_ok hread
  cases hpair
  exact ⟨trivial, nofun⟩

end Reads

theorem next_reads :
    Reads (fun t => t.kind = .word → IsWord t.text) next := by
  intro ts t rest hts hread
  cases ts with
  | nil =>
      cases hread
  | cons u us =>
      cases hread
      exact ⟨hts t List.mem_cons_self, fun v hv => hts v (List.mem_cons_of_mem t hv)⟩

theorem expect_reads
    (kind : TokenKind)
    (what : Expected) :
    Reads (fun s => kind = .word → IsWord s) (expect kind what) := by
  apply next_reads.bind
  intro t ht
  split
  · rename_i hkind
    exact reads_pure fun hword => ht (hkind.trans hword)
  · exact reads_throw _

theorem word_reads
    (what : Expected) :
    Reads IsWord (word what) :=
  (expect_reads .word what).weaken fun _ h => h rfl

theorem number_reads
    {α : Type}
    (what : Expected)
    (read : List Char → Option α) :
    Reads (fun _ => True) (number what read) := by
  apply (expect_reads .int what).bind
  intro text _
  exact (reads_orRefuse _ _).weaken fun _ _ => trivial

theorem label_reads :
    Reads (fun _ => True) label := by
  apply (word_reads .label).bind
  intro text _
  exact (reads_orRefuse _ _).weaken fun _ _ => trivial

/-- The parts of a member are not empty, and a point can join them and part them again. -/
theorem member_reads :
    Reads (fun parts => IsMember parts.1 parts.2) member := by
  apply (word_reads .memberReference).bind
  intro text htext
  split
  · rename_i owner name hsplit
    split
    · exact reads_throw _
    · rename_i hnonempty
      apply reads_pure
      obtain ⟨hparts, hpoint⟩ := Text.eq_of_splitLast hsplit
      have hjoined : String.ofList owner ++ "." ++ String.ofList name = text := by
        apply String.toList_injective
        rw [hparts]
        simp
      simp only [Bool.or_eq_true, List.isEmpty_iff, not_or] at hnonempty
      refine ⟨hjoined ▸ htext, ?_, ?_, ?_⟩
      · simpa using hnonempty.1
      · simpa using hnonempty.2
      · simpa using hpoint
  · exact reads_throw _

theorem negativeConstant_reads :
    Reads Constant.WellFormed negativeConstant := by
  apply (word_reads .infinity).bind
  intro text _
  split <;> first | exact reads_pure trivial | exact reads_throw _

theorem wordConstant_reads
    (text : String) :
    Reads Constant.WellFormed (wordConstant text) := by
  unfold wordConstant
  split <;> try first | exact reads_pure trivial | exact reads_throw _
  · apply (word_reads .className).bind
    intro name hname
    exact reads_pure hname
  · apply (word_reads .methodDescriptor).bind
    intro descriptor hdescriptor
    exact reads_pure hdescriptor
  · apply member_reads.bind
    rintro ⟨owner, name⟩ hmember
    apply (word_reads .descriptor).bind
    intro descriptor hdescriptor
    exact reads_pure ⟨hmember, hdescriptor⟩

/-- Of constants only those with names can be badly formed. -/
theorem constant_reads :
    Reads Constant.WellFormed constant := by
  apply next_reads.bind
  intro t _
  split
  · exact reads_orRefuse_map (fun _ => trivial) _ _
  · exact reads_orRefuse_map (fun _ => trivial) _ _
  · exact reads_orRefuse_map (fun _ => trivial) _ _
  · exact reads_orRefuse_map (fun _ => trivial) _ _
  · split
    · exact reads_pure trivial
    · exact reads_throw _
  · exact negativeConstant_reads
  · exact wordConstant_reads t.text
  · exact reads_throw _

theorem arrayCode_reads :
    Reads (fun _ => True) arrayCode := by
  apply next_reads.bind
  intro t _
  split
  · exact (reads_orRefuse _ _).weaken fun _ _ => trivial
  · exact (reads_orRefuse _ _).weaken fun _ _ => trivial
  · exact reads_throw _

theorem interfaceMark_reads :
    Reads (fun _ => True) interfaceMark := by
  intro ts marked rest hts hread
  unfold interfaceMark at hread
  split at hread
  · cases hread
    exact ⟨trivial, fun t ht => hts t (List.mem_cons_of_mem _ ht)⟩
  · cases hread
    exact ⟨trivial, hts⟩

theorem table_reads :
    Reads Record.WellFormed table := by
  apply (number_reads .lowKey _).bind
  intro low _
  apply (number_reads .highKey _).bind
  intro high _
  apply label_reads.bind
  intro fallback _
  apply (reads_toEnd labels).bind
  intro targets _
  split
  · exact reads_throw _
  · rename_i hsize
    rw [not_or, not_not] at hsize
    exact reads_pure ⟨rfl, Int32.not_lt.1 hsize.1, hsize.2⟩

/-- A record with the operands of its opcode does not misfit. -/
theorem misfit_eq_none
    {r : Record}
    {op : Opcode}
    {shape : Shape}
    (hr : r.operandShape? = some (op, shape))
    (h : op.shape = shape) :
    r.misfit? = none := by
  simp [Record.misfit?, hr, h]

/-- The operands that an opcode asks for are those that its record takes. -/
theorem operands_reads
    (op : Opcode) :
    Reads Record.WellFormed (operands op) := by
  cases hshape : op.shape <;> simp only [operands, hshape]
  case bare =>
    exact reads_pure ⟨misfit_eq_none rfl hshape, trivial⟩
  case integer =>
    split
    · apply arrayCode_reads.bind
      intro operand _
      exact reads_pure ⟨misfit_eq_none rfl hshape, trivial⟩
    · apply (number_reads .operand _).bind
      intro operand _
      exact reads_pure ⟨misfit_eq_none rfl hshape, trivial⟩
  case slot =>
    apply (number_reads .localIndex _).bind
    intro index _
    exact reads_pure ⟨misfit_eq_none rfl hshape, trivial⟩
  case increment =>
    apply (number_reads .localIndex _).bind
    intro index _
    apply (number_reads .delta _).bind
    intro delta _
    exact reads_pure ⟨rfl, trivial⟩
  case typed =>
    apply (word_reads .typeName).bind
    intro name hname
    exact reads_pure ⟨misfit_eq_none rfl hshape, hname⟩
  case field =>
    apply member_reads.bind
    rintro ⟨owner, name⟩ hmember
    apply (word_reads .fieldDescriptor).bind
    intro descriptor hdescriptor
    exact reads_pure ⟨misfit_eq_none rfl hshape, hmember, hdescriptor⟩
  case method =>
    apply member_reads.bind
    rintro ⟨owner, name⟩ hmember
    apply (word_reads .methodDescriptor).bind
    intro descriptor hdescriptor
    apply interfaceMark_reads.bind
    intro marked _
    refine reads_pure ⟨misfit_eq_none rfl hshape, hmember, hdescriptor, ?_⟩
    intro hop
    simp [hop]
  case callSite =>
    apply (word_reads .callSiteName).bind
    intro name hname
    apply (word_reads .methodDescriptor).bind
    intro descriptor hdescriptor
    exact reads_pure ⟨rfl, hname, hdescriptor⟩
  case jump =>
    apply label_reads.bind
    intro target _
    exact reads_pure ⟨misfit_eq_none rfl hshape, trivial⟩
  case constant =>
    apply constant_reads.bind
    intro value hvalue
    exact reads_pure ⟨rfl, hvalue⟩
  case table =>
    exact table_reads
  case lookup =>
    apply label_reads.bind
    intro fallback _
    apply (reads_toEnd switchCases).bind
    intro cases _
    exact reads_pure ⟨rfl, trivial⟩
  case multiArray =>
    apply (word_reads .arrayDescriptor).bind
    intro descriptor hdescriptor
    apply (number_reads .dimensions _).bind
    intro dimensions _
    exact reads_pure ⟨rfl, hdescriptor⟩

/-- A word that is none of a frame's names a class, and the others no class at all. -/
theorem typeOfWord_wellFormed
    {text : String}
    (htext : IsWord text)
    (huninit : text ≠ "uninit") :
    (typeOfWord text).WellFormed := by
  unfold typeOfWord
  split
  iterate 7 trivial
  refine ⟨htext, ?_⟩
  simp only [frameWords, List.mem_cons, List.not_mem_nil, or_false, not_or]
  exact ⟨by assumption, by assumption, by assumption, by assumption, by assumption,
    by assumption, by assumption, huninit⟩

theorem creationLabel_reads :
    Reads (fun _ => True) creationLabel := by
  apply (expect_reads .colon .colon).bind
  intro _ _
  exact label_reads

theorem verificationType_reads :
    Reads VerificationType.WellFormed verificationType := by
  apply (word_reads .verificationType).bind
  intro text htext
  split
  · apply creationLabel_reads.bind
    intro l _
    exact reads_pure trivial
  · exact reads_pure (typeOfWord_wellFormed htext (by assumption))

/-- The entries of a frame are well-formed one by one. -/
theorem entries_reads :
    Reads (fun types => ∀ type ∈ types, type.WellFormed) entries := by
  intro ts types rest hts hread
  fun_induction entries ts generalizing types rest with
  | case1 =>
      cases hread
  | case2 =>
      cases hread
  | case3 ts type t more htype _ ih =>
      obtain ⟨hwf, hmid⟩ := verificationType_reads ts type (t :: more) hts htype
      have hmore : Lexed more := fun u hu => hmid u (List.mem_cons_of_mem t hu)
      obtain ⟨⟨others, left⟩, hothers, hpair⟩ := exists_of_map_eq_ok hread
      cases hpair
      obtain ⟨hlater, hrest⟩ := ih others _ hmore hothers
      exact ⟨List.forall_mem_cons.2 ⟨hwf, hlater⟩, hrest⟩
  | case4 ts type t more htype _ =>
      obtain ⟨hwf, hmid⟩ := verificationType_reads ts type (t :: more) hts htype
      cases hread
      exact ⟨List.forall_mem_singleton.2 hwf, fun u hu => hmid u (List.mem_cons_of_mem t hu)⟩
  | case5 =>
      cases hread

theorem startsWith_reads
    (kind : TokenKind) :
    Reads (fun _ => True) (startsWith kind) := by
  intro ts b rest hts hread
  cases hread
  exact ⟨trivial, hts⟩

theorem typeList_reads :
    Reads (fun types => ∀ type ∈ types, type.WellFormed) typeList := by
  apply (expect_reads .openBrace .openBrace).bind
  intro _ _
  apply (startsWith_reads .closeBrace).bind
  intro closed _
  cases closed with
  | true =>
      apply next_reads.bind
      intro _ _
      exact reads_pure nofun
  | false =>
      exact entries_reads

theorem frame_reads :
    Reads Record.WellFormed frame := by
  apply (word_reads .frameKind).bind
  intro keyword _
  apply (reads_orRefuse _ _).bind
  intro kind _
  apply typeList_reads.bind
  intro locals hlocals
  apply typeList_reads.bind
  intro stack hstack
  exact reads_pure ⟨rfl, hlocals, hstack⟩

/-- A short form stands for a load or store of a slot. -/
theorem shortForm_wellFormed
    {mnemonic : String}
    {r : Record}
    (h : shortForm? mnemonic = some r) :
    r.WellFormed := by
  obtain ⟨⟨base, slot⟩, _, h⟩ := Option.bind_eq_some_iff.1 h
  obtain ⟨op, _, h⟩ := Option.bind_eq_some_iff.1 h
  obtain ⟨index, _, h⟩ := Option.bind_eq_some_iff.1 h
  split at h
  · rename_i hshape
    cases h
    exact ⟨misfit_eq_none rfl hshape.1, trivial⟩
  · cases h

/-- An instruction or frame that was read is well-formed. -/
theorem instruction_reads :
    Reads Record.WellFormed instruction := by
  apply (word_reads .mnemonic).bind
  intro mnemonic _
  split
  · exact frame_reads
  · split
    · exact operands_reads _
    · exact (reads_orRefuse _ _).weaken fun _ h => shortForm_wellFormed h

theorem wholeInstruction_wellFormed
    {ts : List Token}
    {r : Record}
    (hts : Lexed ts)
    (h : wholeInstruction ts = .ok r) :
    r.WellFormed := by
  unfold wholeInstruction at h
  split at h
  · cases h
  · rename_i hread
    cases h
    exact (instruction_reads ts r [] hts hread).1
  · cases h

theorem records_wellFormed
    {ts : List Token}
    {rs : List Record}
    (hts : Lexed ts)
    (h : records ts = .ok rs) :
    ∀ r ∈ rs, r.WellFormed := by
  fun_induction records ts generalizing rs with
  | case1 =>
      cases h
      exact List.forall_mem_nil _
  | case2 t =>
      obtain ⟨r, hread, rfl⟩ := exists_of_map_eq_ok h
      exact List.forall_mem_singleton.2 (wholeInstruction_wellFormed hts hread)
  | case3 t u ts _ l _ ih =>
      obtain ⟨others, hothers, rfl⟩ := exists_of_map_eq_ok h
      have hlater : Lexed ts := fun v hv =>
        hts v (List.mem_cons_of_mem t (List.mem_cons_of_mem u hv))
      exact List.forall_mem_cons.2 ⟨⟨rfl, trivial⟩, ih hlater hothers⟩
  | case4 =>
      cases h
  | case5 t u ts _ =>
      obtain ⟨r, hread, rfl⟩ := exists_of_map_eq_ok h
      exact List.forall_mem_singleton.2 (wholeInstruction_wellFormed hts hread)

theorem parseLine_wellFormed
    {line : List Char}
    {rs : List Record}
    (h : parseLine line = .ok rs) :
    ∀ r ∈ rs, r.WellFormed := by
  unfold parseLine at h
  split at h
  · cases h
  · rename_i ts htokens
    exact records_wellFormed (lexed_of_tokenize htokens) h

theorem parseLines_wellFormed
    {n : Nat}
    {lines : List (List Char)}
    {rs : List Record}
    (h : parseLines n lines = .ok rs) :
    ∀ r ∈ rs, r.WellFormed := by
  induction lines generalizing n rs with
  | nil =>
      cases h
      exact List.forall_mem_nil _
  | cons line lines ih =>
      rw [parseLines] at h
      split at h
      · cases h
      · rename_i first hfirst
        obtain ⟨others, hothers, rfl⟩ := exists_of_map_eq_ok h
        exact List.forall_mem_append.2 ⟨parseLine_wellFormed hfirst, ih hothers⟩

/-- Whatever text is read, the records are well-formed. -/
theorem wellFormed_of_parse
    {source : String}
    {rs : List Record}
    (h : parse source = .ok rs) :
    ∀ r ∈ rs, r.WellFormed := by
  rw [parse] at h
  exact parseLines_wellFormed h

/-- The records that listings hold are the well-formed ones. -/
theorem exists_parse_iff
    {rs : List Record}
    (hback : ∀ r ∈ rs, r.ReadsBack) :
    (∃ source, parse source = .ok rs) ↔ ∀ r ∈ rs, r.WellFormed := by
  constructor
  · rintro ⟨source, h⟩
    exact wellFormed_of_parse h
  · intro hwf
    refine ⟨render rs, ?_⟩
    rw [parse, lines_render hwf]
    exact parseLines_render hwf hback 1

/--
Whatever text was read, its records are well-formed, and what is written for them is
read as the same records, so that writing them again gives the same text.
-/
theorem parse_render_stable
    {source : String}
    {rs : List Record}
    (h : parse source = .ok rs)
    (hback : ∀ r ∈ rs, r.ReadsBack) :
    (∀ r ∈ rs, r.WellFormed) ∧
      parse (render rs) = .ok rs ∧
      (parse (render rs)).map render = .ok (render rs) := by
  have hwf := wellFormed_of_parse h
  have hagain : parse (render rs) = .ok rs := by
    rw [parse, lines_render hwf]
    exact parseLines_render hwf hback 1
  refine ⟨hwf, hagain, ?_⟩
  rw [hagain]
  rfl

/-- A listing whose records are written otherwise than they stand there. -/
def looseListing : String :=
  "L007: L8 :iload_1 # a slot\r\n" ++
    "  newarray\t10\n\n" ++
    "ldc_w 1e999f\n" ++
    "ldc2_w 2.50\n" ++
    "ldc \"\\u0041\\n#\\\"\"\n" ++
    "getstatic a..b I\n" ++
    "invokestatic A.itf itf\n" ++
    "invokestatic A.m itf itf\n" ++
    "frame full \x7bint,uninit : L7\x7d \x7b \x7d"

/-- What the listing is read as. -/
def looseRecords : List Record :=
  [
    .label ⟨7⟩,
    .label ⟨8⟩,
    .slot .iload 1,
    .integer .newarray 10,
    .load (.float (1.0 / 0.0)),
    .load (.double 2.5),
    .load (.string "A\n#\""),
    .field .getstatic "a." "b" "I",
    .method .invokestatic "A" "itf" "itf" false,
    .method .invokestatic "A" "m" "itf" true,
    .frame ⟨.full, [.int, .uninitialized ⟨7⟩], []⟩]

/-- The listing is read, and what is written for its records is read as the same. -/
theorem parse_render_stable_loose :
    parse looseListing = .ok looseRecords ∧
      parse (render looseRecords) = .ok looseRecords ∧
      render looseRecords ≠ looseListing := by
  have hread : parse looseListing = .ok looseRecords := by
    decide +kernel
  have hback : ∀ r ∈ looseRecords, r.ReadsBack := by
    decide +kernel
  exact ⟨hread, (parse_render_stable hread hback).2.1, by decide +kernel⟩

end Listing
end SlotFlow
