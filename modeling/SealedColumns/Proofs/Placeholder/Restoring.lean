import SealedColumns.Proofs.Placeholder.Binding
import SealedColumns.Proofs.Placeholder.Segments

/-!
What a renaming leaves of the statement. The replaced placeholders are spans of bytes of
the new text, one behind the other, and the expansion table says of each which name it had.
Written back, these names give the old text byte for byte, so that nothing else was
touched. There is nothing to write back if no name is repeated.
-/

namespace SealedColumns.Placeholder

/-- The bytes at the place of an occurrence are a placeholder of its name. -/
def Occurrence.StandsIn (found : Occurrence) (text : List UInt8) : Prop :=
  found.stop ≤ text.length
    ∧ (text.drop found.position).take found.length = colon :: Text.bytes found.name

/-- Writes placeholders of other names over the spans of a text, of which `text` is what
    follows byte `start`. -/
def overwritten (original : String → String) (start : Nat) (text : List UInt8) :
    List Occurrence → List UInt8
  | [] => text
  | span :: rest =>
      text.take (span.position - start) ++ colon :: Text.bytes (original span.name)
        ++ overwritten original span.stop (text.drop (span.stop - start)) rest

/-- The repeated name for which a name was generated; any other name stays. -/
def Expansions.baseOf (table : Expansions) (name : String) : String :=
  ((table.entries.find? fun entry => name ∈ entry.2).map (·.1)).getD name

theorem Expansions.mem_generated_iff_baseOf {table : Expansions} (separate : table.Separate)
    {name own : String} (generated : name ∈ table.generated own) (base : String) :
    name ∈ table.generated base ↔ base = table.baseOf name := by
  have inside := exists_of_mem_generated generated
  let listing (entry : String × List String) : Bool := name ∈ entry.2
  obtain ⟨entry, found⟩ : ∃ entry, table.entries.find? listing = some entry :=
    Option.isSome_iff_exists.mp (List.find?_isSome.mpr ⟨_, inside, decide_eq_true generated⟩)
  have lists : name ∈ table.generated entry.1 := by
    have holds : listing entry = true := List.find?_some found
    rw [generated_of_mem (List.mem_of_find?_eq_some found)]
    exact of_decide_eq_true holds
  rw [baseOf, found, Option.map_some, Option.getD_some]
  constructor
  · exact fun listed => separate.apart base entry.1 name listed lists
  · rintro rfl
    exact lists

/-! Tokens as bytes. -/

theorem encoding_placeholder (name : String) :
    encoding (Token.placeholder name).written = colon :: Text.bytes name := by
  rw [Token.written, encoding_cons, ← bytes_eq_encoding]
  rfl

theorem length_placeholder (name : String) :
    (colon :: Text.bytes name).length = 1 + name.utf8ByteSize := by
  rw [List.length_cons, length_bytes, Nat.add_comm]

theorem encoding_tokensOf (sql : String) :
    encoding (Token.writtenAll (tokensOf sql)) = Text.bytes sql := by
  rw [tokensOf, Token.writtenAll_read, bytes_eq_encoding]

namespace Token

theorem pairwise_placed (start : Nat) (tokens : List Token) :
    (placed start tokens).Pairwise fun first second => first.stop ≤ second.position := by
  induction tokens generalizing start with
  | nil => exact .nil
  | cons token rest ih =>
      cases token with
      | plain c => exact ih _
      | placeholder name =>
          exact List.pairwise_cons.mpr ⟨fun _ => le_position_of_mem_placed, ih _⟩

/-- The text of the tokens is known from byte `start` on. -/
theorem standsIn_of_mem_placed {tokens : List Token} {start : Nat} {found : Occurrence}
    (member : found ∈ placed start tokens) {front : List UInt8} (before : front.length = start) :
    found.StandsIn (front ++ encoding (writtenAll tokens)) := by
  induction tokens generalizing start front with
  | nil => contradiction
  | cons token rest ih =>
      rw [writtenAll_cons, encoding_append]
      cases token with
      | plain c =>
          have grown : (front ++ encoding [c]).length = start + c.utf8Size := by
            simp [before, String.length_utf8EncodeChar]
          rw [← List.append_assoc]
          exact ih member grown
      | placeholder name =>
          rw [encoding_placeholder]
          rcases List.mem_cons.mp member with rfl | later
          · constructor
            · simp only [Occurrence.stop, List.length_append, length_placeholder, before]
              omega
            · rw [← before, List.drop_left, ← length_placeholder, List.take_left]
          · have grown : (front ++ colon :: Text.bytes name).length =
                start + (1 + name.utf8ByteSize) := by
              rw [List.length_append, before, length_placeholder]
            rw [← List.append_assoc]
            exact ih later grown

end Token

theorem standsIn_of_mem_scan {sql : String} {found : Occurrence}
    (member : found ∈ (scan sql).occurrences) : found.StandsIn (Text.bytes sql) := by
  rw [scan_occurrences] at member
  have begun : ([] : List UInt8).length = 0 := rfl
  have stands := Token.standsIn_of_mem_placed member begun
  rwa [List.nil_append, encoding_tokensOf] at stands

theorem pairwise_scan (sql : String) :
    (scan sql).occurrences.Pairwise fun first second => first.stop ≤ second.position := by
  rw [scan_occurrences]
  exact Token.pairwise_placed 0 _

/-! Writing back. -/

section Overwritten
variable (original : String → String)

/-- Text before the first span is copied. -/
theorem overwritten_append (first text : List UInt8) (start : Nat) {spans : List Occurrence}
    (behind : ∀ span ∈ spans, start + first.length ≤ span.position) :
    overwritten original start (first ++ text) spans =
      first ++ overwritten original (start + first.length) text spans := by
  cases spans with
  | nil => rfl
  | cons span rest =>
      have room := behind span (by simp)
      have reach : span.position ≤ span.stop := Nat.le_add_right _ _
      have skipped : first.length ≤ span.position - start := by omega
      have passed : first.length ≤ span.stop - start := by omega
      simp only [overwritten, List.take_append, List.drop_append, List.take_of_length_le skipped,
        List.drop_of_length_le passed, Nat.sub_sub, List.append_assoc, List.nil_append]

theorem overwritten_here (name : String) (text : List UInt8) (start : Nat)
    (rest : List Occurrence) :
    overwritten original start (colon :: Text.bytes name ++ text)
        (⟨start, 1 + name.utf8ByteSize, name⟩ :: rest) =
      colon :: Text.bytes (original name)
        ++ overwritten original (start + (1 + name.utf8ByteSize)) text rest := by
  have size := length_placeholder name
  have cut : start + (1 + name.utf8ByteSize) - start = (colon :: Text.bytes name).length := by
    omega
  simp only [overwritten, Occurrence.stop, Nat.sub_self, List.take_zero, List.nil_append]
  rw [cut, List.drop_left]

/-- Of a list of tokens whose placeholders were renamed, those that had a repeated name. -/
def renamedSpans (repeated : String → Bool) (start : Nat) (fresh : List String)
    (tokens : List Token) : List Occurrence :=
  (((Token.names tokens).zip (Token.placed start (Token.renamed fresh tokens))).filter
    fun pair => repeated pair.1).map (·.2)

theorem le_position_of_mem_renamedSpans {repeated : String → Bool} {start : Nat}
    {fresh : List String} {tokens : List Token} :
    ∀ span ∈ renamedSpans repeated start fresh tokens, start ≤ span.position := by
  intro span member
  obtain ⟨pair, chosen, rfl⟩ := List.mem_map.mp member
  exact Token.le_position_of_mem_placed (List.of_mem_zip (List.mem_filter.mp chosen).1).2

variable {original}

theorem overwritten_renamed {repeated : String → Bool} {fresh : List String}
    {tokens : List Token} (enough : fresh.length = (Token.names tokens).length)
    (known : ∀ pair ∈ (Token.names tokens).zip fresh,
      pair.1 = if repeated pair.1 then original pair.2 else pair.2) (start : Nat) :
    overwritten original start (encoding (Token.writtenAll (Token.renamed fresh tokens)))
        (renamedSpans repeated start fresh tokens) =
      encoding (Token.writtenAll tokens) := by
  induction tokens generalizing start fresh with
  | nil => rfl
  | cons token rest ih =>
      cases token with
      | plain c =>
          have size : (encoding [c]).length = c.utf8Size := by
            simp [String.length_utf8EncodeChar]
          have spans : renamedSpans repeated start fresh (.plain c :: rest) =
              renamedSpans repeated (start + c.utf8Size) fresh rest := rfl
          rw [Token.renamed, Token.writtenAll_cons, Token.writtenAll_cons, Token.written,
            encoding_append, encoding_append, spans, overwritten_append, size, ih enough known]
          rw [size]
          exact le_position_of_mem_renamedSpans
      | placeholder name =>
          cases fresh with
          | nil => simp at enough
          | cons first more =>
              have here : name = if repeated name then original first else first :=
                known (name, first) (by simp)
              have later := ih (by simpa using enough)
                (fun pair member => known pair (by simp [member]))
                (start + (1 + first.utf8ByteSize))
              rw [Token.renamed, Token.writtenAll_cons, Token.writtenAll_cons, encoding_append,
                encoding_append, encoding_placeholder, encoding_placeholder]
              by_cases again : repeated name = true
              · rw [if_pos again] at here
                have spans : renamedSpans repeated start (first :: more) (.placeholder name :: rest)
                    = ⟨start, 1 + first.utf8ByteSize, first⟩
                      :: renamedSpans repeated (start + (1 + first.utf8ByteSize)) more rest := by
                  simp [renamedSpans, Token.renamed, Token.placed, again]
                rw [spans, overwritten_here, later, ← here]
              · rw [if_neg again] at here
                have spans : renamedSpans repeated start (first :: more) (.placeholder name :: rest)
                    = renamedSpans repeated (start + (1 + first.utf8ByteSize)) more rest := by
                  simp [renamedSpans, Token.renamed, Token.placed, again]
                -- A placeholder that kept its name is text before the next span.
                rw [spans, overwritten_append, length_placeholder, later, ← here]
                rw [length_placeholder]
                exact le_position_of_mem_renamedSpans

end Overwritten

theorem replacements_sublist (sql : String) :
    (rename sql).replacements.Sublist (scan (rename sql).sql).occurrences := by
  have lengths : (scan (rename sql).sql).occurrences.length ≤ (namesOf sql).length := by
    have same := congrArg List.length (namesOf_rename sql)
    rw [length_renamedNames, namesOf, List.length_map] at same
    exact Nat.le_of_eq same
  have whole := List.map_snd_zip lengths
  rw [replacements_rename]
  conv_rhs => rw [← whole]
  exact List.filter_sublist.map _

theorem replacements_eq_renamedSpans (sql : String) :
    (rename sql).replacements =
      renamedSpans (repeatedIn sql) 0 (renamedNames sql) (tokensOf sql) := by
  rw [replacements_rename, scan_occurrences, tokensOf_rename, ← names_tokensOf]
  rfl

/-- The place of a replaced placeholder bears a name generated for the old one. -/
theorem exists_base_of_mem_replacements {sql : String} {span : Occurrence}
    (member : span ∈ (rename sql).replacements) :
    ∃ base, span.name ∈ (rename sql).expansions.generated base := by
  rw [replacements_rename] at member
  obtain ⟨⟨base, found⟩, chosen, rfl⟩ := List.mem_map.mp member
  obtain ⟨inside, again⟩ := List.mem_filter.mp chosen
  have site : (base, found.name) ∈ (namesOf sql).zip (renamedNames sql) := by
    rw [← namesOf_rename, namesOf.eq_def (rename sql).sql, List.zip_map_right]
    exact List.mem_map.mpr ⟨_, inside, rfl⟩
  exact ⟨base, mem_generated_rename.mpr ⟨again, site⟩⟩

theorem overwritten_rename (sql : String) :
    overwritten (rename sql).expansions.baseOf 0 (Text.bytes (rename sql).sql)
      (rename sql).replacements = Text.bytes sql := by
  rw [← encoding_tokensOf, ← encoding_tokensOf, replacements_eq_renamedSpans, tokensOf_rename]
  apply overwritten_renamed
  · rw [length_renamedNames, names_tokensOf]
  · rw [names_tokensOf]
    rintro ⟨old, new⟩ pair
    rcases Naming.mem_zip_chosen pair with ⟨again, -, -⟩ | ⟨single, same⟩
    · have generated := mem_generated_rename.mpr ⟨again, pair⟩
      rw [if_pos again]
      exact (Expansions.mem_generated_iff_baseOf (separate_rename sql) generated old).mp generated
    · rw [if_neg (by simp [single]), same]

theorem kept_rename_iff (sql : String) :
    (rename sql).kept = true ↔ (namesOf sql).Nodup := by
  rw [rename_eq, Bool.not_eq_true', Bool.eq_false_iff, ne_eq, hasRepeats_iff,
    List.nodup_iff_count, not_exists]
  exact forall_congr' fun name => Nat.not_le.trans Nat.lt_succ_iff

/-- Each replaced placeholder stands where the renaming says, one behind the other, and the
    table lists its name for one base only. Writing these bases back gives the statement as
    it was. It is returned as it is, and nothing is replaced, just if no name is repeated;
    the table has an entry for each name that is, with one name for each occurrence. -/
theorem rename_restored (sql : String) :
    (∀ span ∈ (rename sql).replacements, span.StandsIn (Text.bytes (rename sql).sql))
    ∧ ((rename sql).replacements.Pairwise fun first second => first.stop ≤ second.position)
    ∧ (∀ span ∈ (rename sql).replacements, ∀ base,
        span.name ∈ (rename sql).expansions.generated base ↔
          base = (rename sql).expansions.baseOf span.name)
    ∧ overwritten (rename sql).expansions.baseOf 0 (Text.bytes (rename sql).sql)
        (rename sql).replacements = Text.bytes sql
    ∧ ((rename sql).kept = true ↔ (namesOf sql).Nodup)
    ∧ (rename sql = { sql, kept := true, expansions := .empty, replacements := [] } ↔
        (namesOf sql).Nodup)
    ∧ ∀ base, ((rename sql).expansions.contains base = true ↔ 2 ≤ (namesOf sql).count base)
        ∧ (2 ≤ (namesOf sql).count base →
          ((rename sql).expansions.generated base).length = (namesOf sql).count base) := by
  have sublist := replacements_sublist sql
  refine ⟨?_, (pairwise_scan _).sublist sublist, ?_, overwritten_rename sql, kept_rename_iff sql,
    ?_, ?_⟩
  · intro span member
    exact standsIn_of_mem_scan (sublist.subset member)
  · intro span member
    obtain ⟨own, generated⟩ := exists_base_of_mem_replacements member
    exact Expansions.mem_generated_iff_baseOf (separate_rename sql) generated
  · constructor
    · intro same
      exact (kept_rename_iff sql).mp (by rw [same])
    · exact rename_of_nodup
  · intro base
    constructor
    · rw [NameMap.contains_iff, mem_names_expansions, repeatedIn, decide_eq_true_iff]
    · intro several
      rw [length_generated, if_pos several]

/-- The name `x_0` is taken, so that the new names start behind it; the old text has to be
    cut at other bytes than the new one. -/
example :
    overwritten (rename "é:x :x_0,:x").expansions.baseOf 0 (Text.bytes "é:x_1 :x_0,:x_2")
      (rename "é:x :x_0,:x").replacements = Text.bytes "é:x :x_0,:x" := by decide +kernel

end SealedColumns.Placeholder
