import SlotFlow.Proofs.Listing.TokensRead

/-!
# Reading the records of a line

The tokens of a written record are a line that holds the record and nothing else.

Main statements:

* `typeList_tokens`: the types of a frame are read from their tokens;
* `instruction_tokens`: an instruction is read by the shape of its opcode;
* `records_tokens`: the tokens of a record are read as the record.
-/

namespace SlotFlow
namespace Listing

variable {ts : List Token}

/-- A name that is no word of a frame is a class. -/
theorem typeOfWord_object
    {name : String}
    (h : name ∉ frameWords) :
    typeOfWord name = .object name := by
  unfold typeOfWord
  split <;> first | rfl | exact absurd (by decide) h

/-- A frame entry is read from its tokens. -/
theorem verificationType_tokens
    {type : VerificationType}
    (h : type.WellFormed) :
    verificationType (type.tokens ++ ts) = .ok (type, ts) := by
  cases type with
  | object name =>
      obtain ⟨_, hname⟩ := h
      have huninit : name ≠ "uninit" := by
        intro heq
        exact hname (heq ▸ by decide)
      change verificationType (wordToken name :: ts) = _
      rw [verificationType, bind_of_eq_ok (word_cons _ _), if_neg huninit,
        typeOfWord_object hname]
      rfl
  | uninitialized l =>
      change verificationType (wordToken "uninit" :: colonToken :: labelToken l :: ts) = _
      have hlabel : creationLabel (colonToken :: labelToken l :: ts) = .ok (l, ts) := by
        rw [creationLabel, colonToken, bind_of_eq_ok (expect_cons _ _ _), label_cons]
      rw [verificationType, bind_of_eq_ok (word_cons _ _), if_pos rfl, bind_of_eq_ok hlabel]
      rfl
  | _ =>
      rfl

/-- The last entry is followed by a closing brace. -/
theorem entries_last
    {ts rest : List Token}
    {type : VerificationType}
    (h : verificationType ts = .ok (type, ⟨.closeBrace, "\x7d"⟩ :: rest)) :
    entries ts = .ok ([type], rest) := by
  rw [entries]
  split
  · rename_i hread
    rw [h] at hread
    cases hread
  · rename_i hread
    rw [h] at hread
    cases hread
  · rename_i hread
    rw [h] at hread
    cases hread
    rfl

/-- An entry before others is followed by a comma. -/
theorem entries_comma
    {ts more rest : List Token}
    {type : VerificationType}
    {types : List VerificationType}
    (h : verificationType ts = .ok (type, ⟨.comma, ","⟩ :: more))
    (hmore : entries more = .ok (types, rest)) :
    entries ts = .ok (type :: types, rest) := by
  rw [entries]
  split
  · rename_i hread
    rw [h] at hread
    cases hread
  · rename_i hread
    rw [h] at hread
    cases hread
  · rename_i hread
    rw [h] at hread
    cases hread
    simp only [hmore]
    rfl

/-- Frame entries up to the closing brace are read from their tokens. -/
theorem entries_tokens
    {type : VerificationType}
    {types : List VerificationType}
    (h : ∀ t ∈ type :: types, t.WellFormed) :
    entries (VerificationType.entryTokens (type :: types) ++ ts) = .ok (type :: types, ts) := by
  induction types generalizing type with
  | nil =>
      rw [VerificationType.entryTokens, List.append_assoc]
      exact entries_last (verificationType_tokens (h type (by simp)))
  | cons other types ih =>
      have hmore :
          entries (VerificationType.entryTokens (other :: types) ++ ts) =
            .ok (other :: types, ts) := by
        apply ih
        intro t ht
        exact h t (List.mem_cons_of_mem _ ht)
      rw [VerificationType.entryTokens, List.append_assoc]
      · exact entries_comma (verificationType_tokens (h type (by simp))) hmore
      · simp

/-- Frame entries between braces are read from their tokens. -/
theorem typeList_tokens
    {types : List VerificationType}
    (h : ∀ t ∈ types, t.WellFormed) :
    typeList (VerificationType.listTokens types ++ ts) = .ok (types, ts) := by
  cases types with
  | nil =>
      rfl
  | cons type types =>
      have hclosed :
          startsWith .closeBrace (VerificationType.entryTokens (type :: types) ++ ts) =
            .ok (false, VerificationType.entryTokens (type :: types) ++ ts) := by
        cases types <;> cases type <;> rfl
      rw [typeList, VerificationType.listTokens, List.cons_append,
        bind_of_eq_ok (expect_cons _ _ _), bind_of_eq_ok hclosed]
      exact entries_tokens h

/-- A frame is read from its tokens. -/
theorem frame_tokens
    {f : FrameRecord}
    (hlocals : ∀ t ∈ f.locals, t.WellFormed)
    (hstack : ∀ t ∈ f.stack, t.WellFormed) :
    frame
      (wordToken f.kind.keyword :: VerificationType.listTokens f.locals ++
        VerificationType.listTokens f.stack) = .ok (.frame f, []) := by
  have hkind :
      ∀ complaint rest,
        orRefuse (FrameKind.ofKeyword? f.kind.keyword) complaint rest = .ok (f.kind, rest) := by
    intro complaint rest
    rw [FrameKind.ofKeyword_keyword]
    rfl
  have hlast : typeList (VerificationType.listTokens f.stack) = .ok (f.stack, []) := by
    rw [← List.append_nil (VerificationType.listTokens f.stack)]
    exact typeList_tokens hstack
  rw [frame, List.cons_append, bind_of_eq_ok (word_cons _ _), bind_of_eq_ok (hkind _ _),
    bind_of_eq_ok (typeList_tokens hlocals), bind_of_eq_ok hlast]
  rfl

/-- A type code is read from the token of the operand of `newarray`. -/
theorem arrayCode_operandToken
    (operand : Int32) :
    arrayCode (Record.operandToken .newarray operand :: ts) = .ok (operand, ts) := by
  cases hcode : ArrayElement.ofCode? operand with
  | none =>
      have htoken : Record.operandToken .newarray operand = intToken operand.toInt := by
        simp [Record.operandToken, hcode]
      rw [htoken, arrayCode, bind_of_eq_ok (next_cons _)]
      simp only [intToken, readInt32_renderInt]
      rfl
  | some element =>
      have htoken : Record.operandToken .newarray operand = wordToken element.keyword := by
        simp [Record.operandToken, hcode]
      have hoperand : element.code = operand := ArrayElement.code_ofCode hcode
      rw [htoken, arrayCode, bind_of_eq_ok (next_cons _)]
      simp only [wordToken, ArrayElement.ofKeyword_keyword, Option.map_some, hoperand]
      rfl

/-- No mnemonic is the word of a frame or of a wide form. -/
theorem mnemonic_not_mem
    (op : Opcode) :
    op.mnemonic ∉ ["frame", "ldc_w", "ldc2_w", "goto_w", "jsr_w"] := by
  have h :
      ∀ op ∈ Opcode.all,
        op.mnemonic ∉ ["frame", "ldc_w", "ldc2_w", "goto_w", "jsr_w"] := by
    decide +kernel
  exact h op (Opcode.mem_all op)

/-- An opcode is found by its mnemonic. -/
theorem opcodeOfMnemonic_mnemonic
    (op : Opcode) :
    opcodeOfMnemonic? op.mnemonic = some op := by
  have hmnemonic := mnemonic_not_mem op
  simp only [List.mem_cons, not_or] at hmnemonic
  obtain ⟨_, hldc, hldc2, hgoto, hjsr, _⟩ := hmnemonic
  unfold opcodeOfMnemonic?
  split
  · exact absurd ‹_› hldc
  · exact absurd ‹_› hldc2
  · exact absurd ‹_› hgoto
  · exact absurd ‹_› hjsr
  · exact Opcode.ofMnemonic_mnemonic op

/-- A mnemonic is followed by the operands of its opcode. -/
theorem instruction_mnemonic
    (op : Opcode) :
    instruction (wordToken op.mnemonic :: ts) = operands op ts := by
  have hframe : op.mnemonic ≠ "frame" := by
    intro heq
    exact mnemonic_not_mem op (by simp [heq])
  rw [instruction, bind_of_eq_ok (word_cons _ _), if_neg hframe]
  simp only [opcodeOfMnemonic_mnemonic]

/-- The operands of a switch over a range are read from their tokens. -/
theorem table_tokens
    {low high : Int32}
    {fallback : Label}
    {targets : List Label}
    (hrange : low ≤ high)
    (hcount : (targets.length : Int) = high.toInt - low.toInt + 1) :
    table
      (intToken low.toInt :: intToken high.toInt :: labelToken fallback ::
        targets.map labelToken) = .ok (.table low high fallback targets, []) := by
  have htargets : toEnd labels (targets.map labelToken) = .ok (targets, []) := by
    rw [toEnd, labels_tokens]
    rfl
  have hsize :
      ¬(high < low ∨ (targets.length : Int) ≠ high.toInt - low.toInt + 1) := by
    rintro (hlt | hne)
    · exact absurd hlt (Int32.not_lt.2 hrange)
    · exact hne hcount
  rw [table, bind_of_eq_ok (number_cons (readInt32_renderInt low) _),
    bind_of_eq_ok (number_cons (readInt32_renderInt high) _), bind_of_eq_ok (label_cons _),
    bind_of_eq_ok htargets, if_neg hsize]
  rfl

/-- The mark of an interface is read where it stands. -/
theorem interfaceMark_tokens
    (marked : Bool) :
    interfaceMark (if marked then [wordToken "itf"] else []) = .ok (marked, []) := by
  cases marked <;> rfl

/-- The operands of a method instruction are read from their tokens. -/
theorem method_tokens
    {op : Opcode}
    {owner name descriptor : String}
    {interface : Bool}
    (hshape : op.shape = .method)
    (hmember : IsMember owner name)
    (hinterface : op = .invokeinterface → interface = true) :
    operands op
      (memberToken owner name :: wordToken descriptor ::
        if interface && op ≠ .invokeinterface then [wordToken "itf"] else []) =
      .ok (.method op owner name descriptor interface, []) := by
  have hflag :
      (interface && decide (op ≠ .invokeinterface) || decide (op = .invokeinterface)) =
        interface := by
    by_cases hop : op = .invokeinterface
    · simp [hop, hinterface hop]
    · simp [hop]
  simp only [operands, hshape]
  rw [bind_of_eq_ok (member_cons hmember)]
  simp only
  rw [bind_of_eq_ok (word_cons _ _), bind_of_eq_ok (interfaceMark_tokens _), hflag]
  rfl

/-- An instruction or a frame is read from its tokens. -/
theorem instruction_tokens
    {r : Record}
    (hwf : r.WellFormed)
    (hback : r.ReadsBack)
    (hlabel : ∀ l, r ≠ .label l) :
    instruction r.tokens = .ok (r, []) := by
  obtain ⟨hfit, hoperands⟩ := hwf
  cases r with
  | bare op =>
      have hshape : op.shape = .bare := Record.shape_of_fits hfit rfl
      rw [Record.tokens, instruction_mnemonic]
      simp only [operands, hshape]
      rfl
  | integer op operand =>
      have hshape : op.shape = .integer := Record.shape_of_fits hfit rfl
      rw [Record.tokens, instruction_mnemonic]
      simp only [operands, hshape]
      by_cases hop : op = .newarray
      · rw [if_pos hop, hop, bind_of_eq_ok (arrayCode_operandToken operand)]
        rfl
      · rw [if_neg hop, (operand_of_ne hop operand).1,
          bind_of_eq_ok (number_cons (readInt32_renderInt operand) _)]
        rfl
  | slot op index =>
      have hshape : op.shape = .slot := Record.shape_of_fits hfit rfl
      rw [Record.tokens, instruction_mnemonic]
      simp only [operands, hshape]
      rw [bind_of_eq_ok (number_cons (readUInt16_renderInt index) _)]
      rfl
  | increment index delta =>
      change instruction (wordToken Opcode.iinc.mnemonic :: _) = _
      rw [instruction_mnemonic]
      change (number .localIndex Text.Decimal.readUInt16? >>= _) _ = _
      rw [bind_of_eq_ok (number_cons (readUInt16_renderInt index) _),
        bind_of_eq_ok (number_cons (readInt32_renderInt delta) _)]
      rfl
  | typed op name =>
      have hshape : op.shape = .typed := Record.shape_of_fits hfit rfl
      rw [Record.tokens, instruction_mnemonic]
      simp only [operands, hshape]
      rw [bind_of_eq_ok (word_cons _ _)]
      rfl
  | field op owner name descriptor =>
      have hshape : op.shape = .field := Record.shape_of_fits hfit rfl
      rw [Record.tokens, instruction_mnemonic]
      simp only [operands, hshape]
      rw [bind_of_eq_ok (member_cons hoperands.1)]
      simp only
      rw [bind_of_eq_ok (word_cons _ _)]
      rfl
  | method op owner name descriptor interface =>
      obtain ⟨hmember, _, hinterface⟩ := hoperands
      have hshape : op.shape = .method := Record.shape_of_fits hfit rfl
      change instruction (wordToken op.mnemonic :: _) = _
      rw [instruction_mnemonic]
      exact method_tokens hshape hmember hinterface
  | callSite name descriptor =>
      change instruction (wordToken Opcode.invokedynamic.mnemonic :: _) = _
      rw [instruction_mnemonic]
      change (word .callSiteName >>= _) _ = _
      rw [bind_of_eq_ok (word_cons _ _), bind_of_eq_ok (word_cons _ _)]
      rfl
  | jump op target =>
      have hshape : op.shape = .jump := Record.shape_of_fits hfit rfl
      rw [Record.tokens, instruction_mnemonic]
      simp only [operands, hshape]
      rw [bind_of_eq_ok (label_cons target)]
      rfl
  | load c =>
      have hconstant : constant c.tokens = .ok (c, []) := by
        rw [← List.append_nil c.tokens]
        exact constant_tokens hoperands hback
      change instruction (wordToken Opcode.ldc.mnemonic :: _) = _
      rw [instruction_mnemonic]
      change (constant >>= _) _ = _
      rw [bind_of_eq_ok hconstant]
      rfl
  | table low high fallback targets =>
      change instruction (wordToken Opcode.tableswitch.mnemonic :: _) = _
      rw [instruction_mnemonic]
      exact table_tokens hoperands.1 hoperands.2
  | lookup fallback entries =>
      change instruction (wordToken Opcode.lookupswitch.mnemonic :: _) = _
      rw [instruction_mnemonic]
      change (label >>= _) (labelToken fallback :: _) = _
      rw [bind_of_eq_ok (label_cons fallback)]
      exact bind_of_eq_ok (toEnd_switchCases_tokens entries) _
  | multiArray descriptor dimensions =>
      change instruction (wordToken Opcode.multianewarray.mnemonic :: _) = _
      rw [instruction_mnemonic]
      change (word .arrayDescriptor >>= _) _ = _
      rw [bind_of_eq_ok (word_cons _ _),
        bind_of_eq_ok (number_cons (readUInt8_renderInt dimensions) _)]
      rfl
  | label l =>
      exact absurd rfl (hlabel l)
  | frame f =>
      exact frame_tokens hoperands.1 hoperands.2

/-- A line whose second token is no colon holds one instruction or frame. -/
theorem records_of_no_colon
    {t : Token}
    {rest : List Token}
    (h : ∀ u ∈ rest.head?, u.kind ≠ .colon) :
    records (t :: rest) = (wholeInstruction (t :: rest)).map ([·]) := by
  cases rest with
  | nil =>
      rfl
  | cons u rest =>
      have hu : u.kind ≠ .colon := h u rfl
      rw [records, if_neg]
      rintro ⟨_, hcolon⟩
      exact hu hcolon

/-- No constant starts with a colon. -/
theorem constant_tokens_head
    (c : Constant) :
    ∀ u ∈ c.tokens.head?, u.kind ≠ .colon := by
  cases c with
  | float value =>
      change ∀ u ∈ (floatTokens (Number.readSingle value) .single .float "f").head?, _
      rcases Number.readSingle value with _ | ⟨_ | _⟩ | _ <;> simp [floatTokens, wordToken]
  | double value =>
      change ∀ u ∈ (floatTokens (Number.readDouble value) .double .double "d").head?, _
      rcases Number.readDouble value with _ | ⟨_ | _⟩ | _ <;> simp [floatTokens, wordToken]
  | _ =>
      simp [Constant.tokens, wordToken, intToken]

/-- A record that is no label is a line without a label. -/
theorem records_tokens_of_ne_label
    {r : Record}
    (hlabel : ∀ l, r ≠ .label l) :
    records r.tokens = (wholeInstruction r.tokens).map ([·]) := by
  cases r with
  | label l =>
      exact absurd rfl (hlabel l)
  | load c =>
      exact records_of_no_colon (constant_tokens_head c)
  | integer op operand =>
      apply records_of_no_colon
      by_cases hop : op = .newarray
      · subst hop
        cases hcode : ArrayElement.ofCode? operand <;>
          simp [Record.operandToken, hcode, wordToken, intToken]
      · simp [(operand_of_ne hop operand).1, intToken]
  | _ =>
      exact records_of_no_colon (by simp [wordToken, intToken, memberToken, labelToken])

/-- The tokens of a written record are read as the record. -/
theorem records_tokens
    {r : Record}
    (hwf : r.WellFormed)
    (hback : r.ReadsBack) :
    records r.tokens = .ok [r] := by
  by_cases hr : ∃ l, r = .label l
  · obtain ⟨l, rfl⟩ := hr
    change records [labelToken l, colonToken] = _
    rw [records, if_pos ⟨rfl, rfl⟩]
    simp only [labelToken, wordToken, labelOfWord_render]
    rfl
  · have hlabel : ∀ l, r ≠ .label l := by
      intro l hl
      exact hr ⟨l, hl⟩
    have hwhole : wholeInstruction r.tokens = .ok r := by
      rw [wholeInstruction, instruction_tokens hwf hback hlabel]
    rw [records_tokens_of_ne_label hlabel, hwhole]
    rfl

end Listing
end SlotFlow
