import SealedColumns.Proofs.Opening
import SealedColumns.Proofs.Sealing
import SealedColumns.Sample.Ciphers

/-!
From binding to fetching. A value that is bound for a configured column, and is not
blank, reaches the client encrypted at every occurrence of its placeholder; a cell
that holds one of these ciphertexts, as text or as bytes, is opened to the text form
that was encrypted, up to padding. A blank value goes both ways as it is, and either
pass does what it would do if the column were not listed.
-/

namespace SealedColumns

open Placeholder (rename sites namesOf NotOverridden renamed_cases separate_rename)
open Parameters (KeyOf)

/-! Text forms. -/

theorem Decimal.text_ne_empty (layout : Layout) (d : Decimal) : d.text layout ≠ "" := by
  have digits : Nat.repr d.coefficient ≠ "" := Nat.repr_ne_empty
  unfold Decimal.text
  dsimp only
  split
  · unfold positionalText
    dsimp only
    split
    · simp [String.append_eq_empty_iff, digits]
    · split <;> simp [String.append_eq_empty_iff]
  · simp [exponentText, String.append_eq_empty_iff]

theorem Binary64.text_ne_empty (layout : Decimal.Layout) (x : Binary64) : x.text layout ≠ "" := by
  unfold Binary64.text
  split
  · decide
  · rw [Ne, String.append_eq_empty_iff]
    rintro ⟨-, empty⟩
    split at empty
    · contradiction
    · exact Decimal.text_ne_empty layout _ empty

theorem Timestamp.text_ne_empty (time : Timestamp) : time.text ≠ "" := by
  simp [Timestamp.text, String.append_eq_empty_iff]

theorem intText_ne_empty (n : Int) : toString n ≠ "" := by
  rw [Int.toString_eq_repr, Int.repr_eq_if]
  split
  · exact Nat.repr_ne_empty
  · simp [String.append_eq_empty_iff]

theorem Json.text_ne_empty (document : Json) : document.text ≠ "" := by
  cases document with
  | null => simp [Json.text]
  | bool b => cases b <;> simp [Json.text]
  | number n =>
      cases n with
      | integer n =>
          rw [Json.text]
          exact intText_ne_empty n
      | real x =>
          rw [Json.text]
          exact Binary64.text_ne_empty .document x
  | string s => simp [Json.text, Json.stringText, String.append_eq_empty_iff]
  | array items => simp [Json.text, String.append_eq_empty_iff]
  | object fields => simp [Json.text, String.append_eq_empty_iff]

/-- Only blank values could have an empty text form. -/
theorem Value.toText?_ne_empty {value : Value} {text : String} (visible : value.isBlank = false)
    (found : value.toText? = some text) : text ≠ "" := by
  cases value with
  | null => contradiction
  | int n =>
      obtain rfl := Option.some.inj found
      exact intText_ne_empty n.toInt
  | float x =>
      obtain rfl := Option.some.inj found
      exact Binary64.text_ne_empty .plain x
  | text s =>
      obtain rfl := Option.some.inj found
      simpa [Value.isBlank] using visible
  | bool b =>
      obtain rfl := Option.some.inj found
      cases b <;> decide
  | timestamp time =>
      obtain rfl := Option.some.inj found
      exact time.text_ne_empty
  | json document =>
      obtain rfl := Option.some.inj found
      exact document.text_ne_empty
  | blob data =>
      rintro rfl
      rw [Text.eq_bytes_of_decode? found] at visible
      contradiction

/-! Occurrences of a column. -/

section Sites
variable {sql column new : String} {columns : List String} {params : Parameters} {value : Value}

/-- After expansion the keys of a column's names hold nothing but the column's value. -/
theorem eq_of_get?_expand (occurs : column ∈ namesOf sql) (once : params.BindsOnce column value)
    (free : NotOverridden sql column params) {name key : String} {other : Value}
    (own : name ∈ column :: (rename sql).expansions.generated column)
    (keyed : KeyOf name key)
    (found : ((rename sql).expansions.expand params).get? key = some other) :
    other = value := by
  have separate := separate_rename sql
  rcases List.mem_cons.mp own with rfl | generated
  · by_cases base : name ∈ (rename sql).expansions.names
    · rw [Placeholder.get?_expand_base separate params base keyed] at found
      contradiction
    · have plain := Placeholder.plain_of_mem_namesOf occurs
      have never (other : String) : name ∉ (rename sql).expansions.generated other :=
        fun generated => Placeholder.disjoint_generated sql other generated occurs
      rw [Placeholder.get?_expand_other separate params plain base never keyed] at found
      exact once.eq_of_get? keyed found
  · have unbound : params.get? key ≠ some other := by
      intro bound
      have taken := Parameters.binds_of_get? keyed bound
      exact absurd (taken.symm.trans (free name generated)) Bool.true_eq_false.mp
    obtain ⟨source, bound, same⟩ := Option.map_eq_some_iff.mp once.value?_eq
    rw [Placeholder.get?_expand_generated separate params generated keyed, bound] at found
    dsimp only at found
    split at found
    · exact (Option.some.inj found).symm.trans same
    · exact absurd found unbound

variable {cipher : Cipher} {draws : Nat}

theorem value?_sealTargets_site (configured : column ∈ columns)
    (bound : params.value? column = some value) (free : NotOverridden sql column params)
    (visible : value.isBlank = false) {count : Nat}
    (done : (sealTargets cipher (targetsOf columns (rename sql).expansions)
      ((rename sql).expansions.expand params) draws).result = .ok count)
    (site : (column, new) ∈ sites sql) :
    ∃ sealed, cipher.Seals value sealed
      ∧ (sealTargets cipher (targetsOf columns (rename sql).expansions)
        ((rename sql).expansions.expand params) draws).params.value? new =
          some sealed := by
  have distinct := nodup_targetsOf columns (rename sql).expansions
  have each : cipher.SealedIf True (((rename sql).expansions.expand params).value? new)
      ((sealTargets cipher (targetsOf columns (rename sql).expansions)
        ((rename sql).expansions.expand params) draws).params.value? new) := by
    apply Cipher.sealedIf_value?
    intro key keyed
    have visited := mem_keys_of_configured site configured keyed
    rw [← Cipher.sealedIf_congr (iff_true_intro visited)]
    exact sealTargets_ok distinct done key
  rw [Placeholder.value?_expand_of_notOverridden free site, bound,
    Cipher.sealedIf_some_iff] at each
  rcases each with ⟨-, -, sealed, made, here⟩ | ⟨exempt, -⟩
  · exact ⟨sealed, made, here⟩
  · exact absurd ⟨trivial, visible⟩ exempt

theorem value?_sealTargets_blank (bound : params.value? column = some value)
    (free : NotOverridden sql column params) (blank : value.isBlank = true)
    (site : (column, new) ∈ sites sql) (targets : List Target)
    (only : ∀ key, KeyOf new key → ∀ other,
      ((rename sql).expansions.expand params).get? key = some other → other = value) :
    (sealTargets cipher targets
      ((rename sql).expansions.expand params) draws).params.value? new = some value := by
  have same : (sealTargets cipher targets
      ((rename sql).expansions.expand params) draws).params.bound? new =
      ((rename sql).expansions.expand params).bound? new := by
    apply Parameters.bound?_congr
    intro key keyed
    apply get?_sealTargets_of_blank
    intro other found
    rw [only key keyed other found]
    exact blank
  rw [Parameters.value?, same, ← Parameters.value?,
    Placeholder.value?_expand_of_notOverridden free site, bound]

end Sites

/-! Cells of a column. -/

/-- Every text that is not empty has ciphertexts, and each of them is opened to the text,
    up to padding. Different draws may give different ciphertexts. -/
def Cipher.Faithful (cipher : Cipher) : Prop :=
  ∀ draw plaintext, plaintext ≠ "" → ∃ ciphertext, ciphertext ≠ ""
    ∧ cipher.encrypt draw plaintext = .ok ciphertext
    ∧ ∃ opened, cipher.decrypt ciphertext = .ok opened
      ∧ Text.withoutPadding opened = Text.withoutPadding plaintext

theorem Cipher.Faithful.succeeds {cipher : Cipher} (faithful : cipher.Faithful) {value : Value}
    {plaintext : String} (visible : value.isBlank = false)
    (text : value.toText? = some plaintext) (draw : Nat) :
    ∃ ciphertext, cipher.encrypt draw plaintext = .ok ciphertext := by
  obtain ⟨ciphertext, -, made, -⟩ :=
    faithful draw plaintext (Value.toText?_ne_empty visible text)
  exact ⟨ciphertext, made⟩

section Cells
variable {row : Type} [Cells row]

/-- Holding the ciphertext, as text or as bytes, the cell of the column is opened to the
    value, whatever other columns are opened with it; alone it can be opened. -/
def OpensTo (cipher : Cipher) (column ciphertext : String) (value : Value) (cells : row) : Prop :=
  (Cells.cell? cells column = some (.text ciphertext)
      ∨ Cells.cell? cells column = some (.blob (Text.bytes ciphertext))) →
    (openCells (some cipher) [column] cells).result = .ok ()
    ∧ ∀ columns : List String, columns.Nodup → column ∈ columns →
      (openCells (some cipher) columns cells).result = .ok () →
        Cells.cell? (openCells (some cipher) columns cells).row column = some value

/-- Holding the value, the cell of the column keeps it, and opening does what it would
    do if the column were not listed. -/
def PassedOver (cipher : Cipher) (column : String) (value : Value) (cells : row) : Prop :=
  Cells.cell? cells column = some value → ∀ columns,
    openCells (some cipher) columns cells =
        openCells (some cipher) (columns.filter (· != column)) cells
      ∧ Cells.cell? (openCells (some cipher) columns cells).row column = some value

variable {valid : row → Prop} {cipher : Cipher} {column : String} {cells : row}

theorem opensTo_of_faithful (laws : Cells.Laws valid) (coherent : valid cells)
    {ciphertext plaintext opened : String} (present : ciphertext ≠ "")
    (decrypted : cipher.decrypt ciphertext = .ok opened)
    (same : Text.withoutPadding opened = Text.withoutPadding plaintext) :
    OpensTo cipher column ciphertext (.text (Text.withoutPadding plaintext)) cells := by
  intro held
  have stored : ∃ value, Cells.cell? cells column = some value ∧ value.isBlank = false
      ∧ value.ciphertext = .ok ciphertext := by
    rcases held with text | bytes
    · exact ⟨_, text, by simpa [Value.isBlank] using present, rfl⟩
    · refine ⟨_, bytes, ?_, ?_⟩
      · simp only [Value.isBlank, List.isEmpty_eq_false_iff]
        intro empty
        have decoded := Text.decode?_bytes ciphertext
        rw [empty] at decoded
        exact present (Option.some.inj decoded).symm
      · rw [Value.ciphertext, Text.decode, Text.decode?_bytes]
        rfl
  obtain ⟨value, found, visible, read⟩ := stored
  constructor
  · simp [openCells, found, visible, read, decrypted]
  · intro columns distinct member done
    obtain ⟨key, other, result, chosen, readAgain, answer, after⟩ :=
      cell?_openCells laws coherent distinct member found visible done
    obtain rfl := Option.some.inj chosen
    obtain rfl := Except.ok.inj (read.symm.trans readAgain)
    obtain rfl := Except.ok.inj (decrypted.symm.trans answer)
    rw [after, same]

theorem passedOver_of_blank (laws : Cells.Laws valid) (coherent : valid cells) {value : Value}
    (blank : value.isBlank = true) : PassedOver cipher column value cells := by
  intro held columns
  have only : ∀ other, Cells.cell? cells column = some other → other.isBlank = true := by
    intro other found
    obtain rfl := Option.some.inj (held.symm.trans found)
    exact blank
  constructor
  · exact (openCells_filter laws coherent only).symm
  · exact (cell?_openCells_of_blank laws coherent only).trans held

end Cells

theorem withoutPadding_append (text : String) {padding : String}
    (only : ∀ c ∈ padding.toList, Text.isPadding c = true) :
    Text.withoutPadding (text ++ padding) = Text.withoutPadding text := by
  have reversed : ∀ c ∈ padding.toList.reverse, Text.isPadding c = true :=
    fun c member => only c (List.mem_reverse.mp member)
  rw [Text.withoutPadding, Text.withoutPadding, Text.dropTrailing, Text.dropTrailing,
    String.toList_append, List.reverse_append, List.dropWhile_append_of_pos reversed]

/-- Opening a marked plaintext finds the plaintext behind the mark, with a tab. -/
theorem faithful_tag : (Sample.tag none).Faithful := by
  intro draw plaintext _
  refine ⟨Sample.sealedMark ++ plaintext, ?_, rfl, plaintext ++ "\t", ?_, ?_⟩
  · simp [Sample.sealedMark, String.append_eq_empty_iff]
  · have marked : Sample.afterMark? Sample.sealedMark (Sample.sealedMark ++ plaintext) =
        some plaintext := by
      simp [Sample.afterMark?]
    simp only [Sample.tag, marked]
  · apply withoutPadding_append plaintext
    intro c member
    obtain rfl : c = '\t' := by simpa using member
    rfl

/-- A value bound for a configured column comes back. The pass goes through if no other
    value stops it. Then each occurrence of a value that is not blank holds a ciphertext
    of its text form, from which every kind of row is opened to the text form without
    padding. If the value is blank, each occurrence and each cell keeps it, and neither
    pass differs from one without the column. -/
theorem bound_value_comes_back {sql column : String} {columns : List String}
    {params : Parameters} {value : Value} {cipher : Cipher} (draws : Nat)
    (faithful : cipher.Faithful) (configured : column ∈ columns) (occurs : column ∈ namesOf sql)
    (once : params.BindsOnce column value) (free : NotOverridden sql column params) :
    let table := (rename sql).expansions
    let pass := sealParameters (table.expand params) columns table (some cipher) draws
    ((∀ key ∈ (targetsOf columns table).map (·.key), ∀ other,
        (table.expand params).get? key = some other → other.Sealable) →
      ∃ count, pass.result = .ok count)
    ∧ (∀ text count, value.isBlank = false → value.toText? = some text → pass.result = .ok count →
      ∀ new, (column, new) ∈ sites sql → ∃ ciphertext,
        pass.params.value? new = some (.text ciphertext)
        ∧ (∃ draw, cipher.encrypt draw text = .ok ciphertext)
        ∧ (∀ names values, OpensTo cipher column ciphertext (.text (Text.withoutPadding text))
            (Row.ofNames names values))
        ∧ (∀ cells : Fields, OpensTo cipher column ciphertext
            (.text (Text.withoutPadding text)) cells)
        ∧ ∀ shaped : ShapedRow, shaped.Unaliased → OpensTo cipher column ciphertext
            (.text (Text.withoutPadding text)) shaped)
    ∧ (value.isBlank = true →
      pass = sealParameters (table.expand params) (columns.filter (· != column)) table
          (some cipher) draws
      ∧ (∀ new, (column, new) ∈ sites sql → pass.params.value? new = some value)
      ∧ (∀ names values, PassedOver cipher column value (Row.ofNames names values))
      ∧ (∀ cells : Fields, PassedOver cipher column value cells)
      ∧ ∀ shaped : ShapedRow, shaped.Unaliased → PassedOver cipher column value shaped) := by
  intro table pass
  have bound := once.value?_eq
  refine ⟨?_, ?_, ?_⟩
  · have goes := @sealTargets_ok_iff cipher (targetsOf columns table) (table.expand params) draws
      (nodup_targetsOf columns table)
      fun _ _ _ _ _ visible text draw => faithful.succeeds visible text draw
    exact goes.mpr
  · intro text count visible found done new site
    obtain ⟨sealed, ⟨draw, plaintext, ciphertext, form, made, rfl⟩, here⟩ :=
      value?_sealTargets_site configured bound free visible done site
    obtain rfl := Option.some.inj (found.symm.trans form)
    obtain ⟨other, present, again, opened, decrypted, same⟩ :=
      faithful draw text (Value.toText?_ne_empty visible found)
    obtain rfl := Except.ok.inj (made.symm.trans again)
    -- The ciphertext at hand is the one that `faithful` speaks of.
    refine ⟨ciphertext, here, ⟨draw, made⟩, ?_, ?_, ?_⟩
    · intro names values
      exact opensTo_of_faithful Row.laws (Header.unaliased_ofNames names) present decrypted same
    · intro cells
      exact opensTo_of_faithful Fields.laws trivial present decrypted same
    · intro shaped unaliased
      exact opensTo_of_faithful ShapedRow.laws unaliased present decrypted same
  · intro blank
    have only {name key : String} {other : Value} (own : name ∈ column :: table.generated column)
        (keyed : KeyOf name key) (found : (table.expand params).get? key = some other) :
        other = value :=
      eq_of_get?_expand occurs once free own keyed found
    refine ⟨?_, ?_, ?_, ?_, ?_⟩
    · apply (sealTargets_without _).symm
      intro name own key keyed other found
      rw [only own keyed found]
      exact blank
    · intro new site
      apply value?_sealTargets_blank bound free blank site
      intro key keyed other found
      apply only _ keyed found
      rcases renamed_cases site with generated | ⟨rfl, -, -⟩
      · exact List.mem_cons_of_mem _ generated
      · exact List.mem_cons_self
    · intro names values
      exact passedOver_of_blank Row.laws (Header.unaliased_ofNames names) blank
    · intro cells
      exact passedOver_of_blank Fields.laws trivial blank
    · intro shaped unaliased
      exact passedOver_of_blank ShapedRow.laws unaliased blank

/-- A number bound once for two occurrences reaches the first of them encrypted, and a row
    that holds it in that form is opened to its digits; an empty text is left alone. -/
theorem number_comes_back :
    (∃ ciphertext,
      (sealParameters ((rename ":x :x").expansions.expand
        (NameMap.ofList [(":x", .int 5)])) ["x"] (rename ":x :x").expansions
        (some (Sample.tag none)) 0).params.value? "x_0" = some (.text ciphertext)
      ∧ (openCells (some (Sample.tag none)) ["x"] (Row.ofNames ["x"] [.text ciphertext])).row.get?
        "x" = some (.text "5"))
    ∧ (sealParameters ((rename ":x :x").expansions.expand
        (NameMap.ofList [(":x", .text "")])) ["x"] (rename ":x :x").expansions
        (some (Sample.tag none)) 0).params.value? "x_1" = some (.text "") := by
  have found : sites ":x :x" = [("x", "x_0"), ("x", "x_1")] := by decide +kernel
  have once (value : Value) : Parameters.BindsOnce (NameMap.ofList [(":x", value)]) "x" value := by
    refine ⟨":x", Or.inr rfl, fun other keyed => ?_⟩
    simp [NameMap.ofList]
  have free (value : Value) : NotOverridden ":x :x" "x" (NameMap.ofList [(":x", value)]) := by
    have generated : (rename ":x :x").expansions.generated "x" = ["x_0", "x_1"] := by
      decide +kernel
    intro name member
    rw [generated] at member
    rcases List.mem_pair.mp member with rfl | rfl <;>
      simp [Parameters.binds, Parameters.bound?, NameMap.ofList, sigilKey]
  have occurs : "x" ∈ namesOf ":x :x" := by decide +kernel
  constructor
  · obtain ⟨ciphertext, here, ⟨draw, made⟩, opens, -⟩ :=
      (bound_value_comes_back 0 faithful_tag (List.mem_singleton.mpr rfl) occurs
        (once (.int 5)) (free (.int 5))).2.1 "5" 2 rfl rfl rfl "x_0" (by simp [found])
    obtain rfl := Except.ok.inj made
    exact ⟨_, here, (opens ["x"] [.text "enc:5"] (Or.inl rfl)).2 ["x"] (by decide) (by decide) rfl⟩
  · exact ((bound_value_comes_back 0 faithful_tag (List.mem_singleton.mpr rfl) occurs
      (once (.text "")) (free (.text ""))).2.2 rfl).2.1 "x_1" (by simp [found])

end SealedColumns
