import SlotFlow.Proofs.Listing.RecordsRead

/-!
# Round trip of listings

Written records are read back.

Main definition:

* `mixedRecords`: records of every shape, with strings and floats that need care.

Main statements:

* `parseLine_render`: the written form of one record is a line that holds it;
* `lines_render`: the lines of a written listing are the written records;
* `parse_render`: reading what was written gives the records back.
-/

namespace SlotFlow
namespace Listing

/-- A text with the characters of a word is cut into one word. -/
theorem isWord_iff
    {s : String} :
    IsWord s ↔ IsWordText s.toList := by
  constructor
  · exact isWordText_of_isWord
  · intro h
    exact tokenize_of_spelled (Spelled.wordAtEnd h)

instance : DecidablePred IsWord :=
  fun _ => decidable_of_iff _ isWord_iff.symm

instance
    (owner name : String) :
    Decidable (IsMember owner name) :=
  inferInstanceAs (Decidable (_ ∧ _))

instance : DecidablePred Constant.WellFormed := by
  intro constant
  cases constant with
  | classOf | methodType =>
      exact inferInstanceAs (Decidable (IsWord _))
  | methodHandle =>
      exact inferInstanceAs (Decidable (_ ∧ _))
  | _ =>
      exact inferInstanceAs (Decidable True)

instance : DecidablePred VerificationType.WellFormed := by
  intro type
  cases type with
  | object =>
      exact inferInstanceAs (Decidable (_ ∧ _))
  | _ =>
      exact inferInstanceAs (Decidable True)

instance : DecidablePred Record.WellFormed := by
  intro r
  cases r with
  | typed | multiArray =>
      exact inferInstanceAs (Decidable (_ ∧ IsWord _))
  | field =>
      exact inferInstanceAs (Decidable (_ ∧ IsMember _ _ ∧ IsWord _))
  | method =>
      exact inferInstanceAs (Decidable (_ ∧ IsMember _ _ ∧ IsWord _ ∧ (_ → _)))
  | callSite =>
      exact inferInstanceAs (Decidable (_ ∧ IsWord _ ∧ IsWord _))
  | load constant =>
      exact inferInstanceAs (Decidable (_ ∧ constant.WellFormed))
  | table =>
      exact inferInstanceAs (Decidable (_ ∧ _ ≤ _ ∧ _ = _))
  | frame =>
      exact inferInstanceAs (Decidable (_ ∧ (∀ t ∈ _, _) ∧ ∀ t ∈ _, _))
  | _ =>
      exact inferInstanceAs (Decidable (_ ∧ True))

instance
    (r : Number.Reading)
    (p : Prop)
    [Decidable p] :
    Decidable (∀ negative m q, r = .finite negative m q → p) :=
  match r with
  | .nan => isTrue nofun
  | .infinite _ => isTrue nofun
  | .finite negative m q =>
      decidable_of_iff p ⟨fun hp _ _ _ _ => hp, fun h => h negative m q rfl⟩

instance : DecidablePred Constant.ReadsBack := by
  intro constant
  cases constant with
  | float | double =>
      exact inferInstanceAs (Decidable (∀ _, _))
  | _ =>
      exact inferInstanceAs (Decidable True)

instance : DecidablePred Record.ReadsBack := by
  intro r
  cases r with
  | load constant =>
      exact inferInstanceAs (Decidable constant.ReadsBack)
  | _ =>
      exact inferInstanceAs (Decidable True)

/-- The written form of a record is a line that holds the record. -/
theorem parseLine_render
    {r : Record}
    (hwf : r.WellFormed)
    (hback : r.ReadsBack) :
    parseLine r.render.toList = .ok [r] := by
  have htokens := tokenize_of_spelled (spelled_record hwf)
  rw [parseLine, htokens]
  exact records_tokens hwf hback

/-- A line without line ends is no other line without its carriage return. -/
theorem dropReturn_of_onOneLine
    {line : List Char}
    (h : OnOneLine line) :
    Text.dropReturn line = line := by
  rw [Text.dropReturn, if_neg]
  intro hlast
  exact (h _ (List.mem_of_getLast? hlast)).2 rfl

/-- The lines of a written listing are the written records. -/
theorem lines_render
    {records : List Record}
    (hwf : ∀ r ∈ records, r.WellFormed) :
    Text.lines (render records).toList = records.map fun r => r.render.toList := by
  induction records with
  | nil =>
      have hempty : (render []).toList = [] := rfl
      rw [hempty, Text.lines]
      rfl
  | cons r records ih =>
      have hline : OnOneLine r.render.toList :=
        (spelled_record (hwf r List.mem_cons_self)).onOneLine
      have hfeed : '\n' ∉ r.render.toList := by
        intro hmem
        exact (hline _ hmem).1 rfl
      have htext :
          (render (r :: records)).toList = r.render.toList ++ '\n' :: (render records).toList := by
        simp [render]
      have hrest : ∀ s ∈ records, s.WellFormed := by
        intro s hs
        exact hwf s (List.mem_cons_of_mem r hs)
      rw [htext, Text.lines_cons hfeed, dropReturn_of_onOneLine hline, ih hrest]
      rfl

/-- Lines that hold one record each are read as the records. -/
theorem parseLines_render
    {records : List Record}
    (hwf : ∀ r ∈ records, r.WellFormed)
    (hback : ∀ r ∈ records, r.ReadsBack)
    (n : Nat) :
    parseLines n (records.map fun r => r.render.toList) = .ok records := by
  induction records generalizing n with
  | nil =>
      rfl
  | cons r records ih =>
      have hfirst :=
        parseLine_render (hwf r List.mem_cons_self) (hback r List.mem_cons_self)
      have hrest :=
        ih (fun s hs => hwf s (List.mem_cons_of_mem r hs))
          (fun s hs => hback s (List.mem_cons_of_mem r hs)) (n + 1)
      rw [List.map_cons, parseLines_cons_ok hfirst, hrest]
      rfl

/-- Reading what was written gives the records back. -/
theorem parse_render
    {records : List Record}
    (hwf : ∀ r ∈ records, r.WellFormed)
    (hback : ∀ r ∈ records, r.ReadsBack) :
    parse (render records) = .ok records := by
  rw [parse, lines_render hwf]
  exact parseLines_render hwf hback 1

/-- Records of every shape, with names, strings and floats that a reader may trip over. -/
def mixedRecords : List Record :=
  [
    .label ⟨7⟩,
    .frame ⟨.full, [.int, .object "uninit_that", .top], [.uninitialized ⟨4294967295⟩]⟩,
    .frame ⟨.same, [], []⟩,
    .bare .iconstM1,
    .integer .bipush (-128),
    .integer .newarray 10,
    .integer .newarray 99,
    .slot .aload 65535,
    .increment 0 (-32768),
    .typed .anewarray "[Ljava/lang/String;",
    .field .getstatic "java/lang/System" "out" "Ljava/io/PrintStream;",
    .method .invokespecial "a.b" "<init>" "()V" true,
    .method .invokeinterface "I" "frame" "(J[I)Z" true,
    .callSite "run" "()V",
    .jump .goto ⟨0⟩,
    .load (.int (-2147483648)),
    .load (.long 9223372036854775807),
    .load (.float 1.5),
    .load (.float (-1.0 / 0.0)),
    .load (.double (-0.0)),
    .load (.double (0.0 / 0.0)),
    .load (.string "# \"L1:\"\r\n\\u0041 \x7bé\x01"),
    .load (.classOf "frame"),
    .load (.methodType "(I)V"),
    .load (.methodHandle "A" "m" "()V"),
    .table (-1) 1 ⟨2⟩ [⟨3⟩, ⟨4⟩, ⟨5⟩],
    .lookup ⟨2⟩ [(-5, ⟨3⟩), (6, ⟨4⟩)],
    .multiArray "[[I" 2]

/-- The mixed records are read back from their listing. -/
theorem parse_render_mixedRecords :
    parse (render mixedRecords) = .ok mixedRecords := by
  apply parse_render
  · decide +kernel
  · decide +kernel

end Listing
end SlotFlow
