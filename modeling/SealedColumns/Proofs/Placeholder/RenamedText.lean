import Mathlib.Algebra.GroupWithZero.Nat
import SealedColumns.Proofs.Placeholder.FreshNames

/-!
The renamed statement is the old one, token for token, but for the names of its
placeholders. Reading it again gives these tokens, so its placeholders are known
one by one: their names are distinct, each stands as far on as the names before it
have grown, and the replaced ones stand where the renaming says. A second renaming
finds nothing to do.
-/

namespace SealedColumns

open String (utf8Len)

namespace Text

theorem takeBytes_append (first rest : List Char) {count : Nat} (enough : utf8Len first ≤ count) :
    takeBytes count (first ++ rest) = first ++ takeBytes (count - utf8Len first) rest := by
  induction first generalizing count with
  | nil => simp
  | cons c more ih =>
      have positive := c.utf8Size_pos
      rw [String.utf8Len_cons] at enough
      rw [List.cons_append, takeBytes, if_neg (by omega), ih (by omega), String.utf8Len_cons,
        Nat.sub_sub, Nat.add_comm, List.cons_append]

theorem dropBytes_append (first rest : List Char) {count : Nat} (enough : utf8Len first ≤ count) :
    dropBytes count (first ++ rest) = dropBytes (count - utf8Len first) rest := by
  induction first generalizing count with
  | nil => simp
  | cons c more ih =>
      have positive := c.utf8Size_pos
      rw [String.utf8Len_cons] at enough
      rw [List.cons_append, dropBytes, if_neg (by omega), ih (by omega), String.utf8Len_cons,
        Nat.sub_sub, Nat.add_comm]

@[simp] theorem takeBytes_zero (text : List Char) : takeBytes 0 text = [] := by
  cases text <;> simp [takeBytes]

@[simp] theorem dropBytes_zero (text : List Char) : dropBytes 0 text = text := by
  cases text <;> simp [dropBytes]

end Text

namespace Placeholder

theorem utf8Len_written (name : String) :
    utf8Len (Token.placeholder name).written = 1 + name.utf8ByteSize := by
  rw [Token.written, String.utf8Len_cons, String.utf8Len_toList, Nat.add_comm]
  rfl

/-! Text before the first edit is copied, and moves the places of all edits alike. -/

theorem splice_append (first text : List Char) (start : Nat) {edits : List Edit}
    (behind : ∀ edit ∈ edits, start + utf8Len first ≤ edit.position) :
    splice start (first ++ text) edits = first ++ splice (start + utf8Len first) text edits := by
  cases edits with
  | nil => rfl
  | cons edit rest =>
      have room := behind edit (by simp)
      have cut : edit.position - start - utf8Len first = edit.position - (start + utf8Len first) :=
        Nat.sub_sub _ _ _
      have stop : edit.position + edit.length - start - utf8Len first =
          edit.position + edit.length - (start + utf8Len first) := Nat.sub_sub _ _ _
      simp only [splice]
      rw [Text.takeBytes_append first text (by omega), Text.dropBytes_append first text (by omega),
        cut, stop]
      simp only [List.append_assoc]

theorem placesFrom_shift (start target distance : Nat) {edits : List Edit}
    (behind : ∀ edit ∈ edits, start + distance ≤ edit.position) :
    placesFrom start target edits = placesFrom (start + distance) (target + distance) edits := by
  cases edits with
  | nil => rfl
  | cons edit rest =>
      have room := behind edit (by simp)
      have same : target + distance + (edit.position - (start + distance)) =
          target + (edit.position - start) := by omega
      simp only [placesFrom, same]

theorem splice_here (name : String) (text : List Char) (start : Nat) (base fresh : String)
    (rest : List Edit) :
    splice start (':' :: name.toList ++ text) (⟨start, 1 + name.utf8ByteSize, base, fresh⟩ :: rest)
      = ':' :: fresh.toList ++ splice (start + (1 + name.utf8ByteSize)) text rest := by
  have size : utf8Len (':' :: name.toList) = 1 + name.utf8ByteSize := utf8Len_written name
  have cut : start + (1 + name.utf8ByteSize) - start = 1 + name.utf8ByteSize := by omega
  simp only [splice, Nat.sub_self, Text.takeBytes_zero, List.nil_append, cut]
  rw [Text.dropBytes_append _ _ (Nat.le_of_eq size), size, Nat.sub_self, Text.dropBytes_zero]

theorem placesFrom_here (start target length : Nat) (base fresh : String) (rest : List Edit) :
    placesFrom start target (⟨start, length, base, fresh⟩ :: rest) =
      ⟨target, 1 + fresh.utf8ByteSize, fresh⟩
        :: placesFrom (start + length) (target + (1 + fresh.utf8ByteSize)) rest := by
  simp [placesFrom]

/-! The edits of a renaming, made on the tokens of the text. -/

section Tokens
variable {repeated : String → Bool}

/-- The edits for tokens that start at a place. -/
def tokenEdits (repeated : String → Bool) (naming : Naming) (start : Nat) (tokens : List Token) :
    List Edit :=
  naming.edits ((Token.placed start tokens).filter fun found => repeated found.name)

theorem le_position_of_mem_tokenEdits {naming : Naming} {start : Nat} {tokens : List Token} :
    ∀ edit ∈ tokenEdits repeated naming start tokens, start ≤ edit.position := by
  intro edit member
  rw [tokenEdits, Naming.edits_filter] at member
  obtain ⟨pair, chosen, rfl⟩ := List.mem_map.mp member
  exact Token.le_position_of_mem_placed (List.of_mem_zip (List.mem_filter.mp chosen).1).1

theorem tokenEdits_plain (naming : Naming) (start : Nat) (c : Char) (rest : List Token) :
    tokenEdits repeated naming start (.plain c :: rest) =
      tokenEdits repeated naming (start + c.utf8Size) rest := rfl

theorem tokenEdits_kept (naming : Naming) (start : Nat) {name : String} (rest : List Token)
    (single : repeated name = false) :
    tokenEdits repeated naming start (.placeholder name :: rest) =
      tokenEdits repeated naming (start + (1 + name.utf8ByteSize)) rest := by
  simp [tokenEdits, Token.placed, single]

theorem tokenEdits_replaced (naming : Naming) (start : Nat) {name : String} (rest : List Token)
    (again : repeated name = true) :
    tokenEdits repeated naming start (.placeholder name :: rest) =
      ⟨start, 1 + name.utf8ByteSize, name, candidate name (naming.freeSuffix name)⟩
        :: tokenEdits repeated (naming.take name) (start + (1 + name.utf8ByteSize)) rest := by
  simp [tokenEdits, Token.placed, again, Naming.edits]

theorem splice_tokenEdits (naming : Naming) (start : Nat) (tokens : List Token) :
    splice start (Token.writtenAll tokens) (tokenEdits repeated naming start tokens) =
      Token.writtenAll (Token.renamed (naming.chosen repeated (Token.names tokens)) tokens) := by
  induction tokens generalizing naming start with
  | nil => rfl
  | cons token rest ih =>
      cases token with
      | plain c =>
          have size : utf8Len [c] = c.utf8Size := by simp
          rw [tokenEdits_plain, Token.writtenAll_cons, Token.written,
            splice_append _ _ _ (size ▸ le_position_of_mem_tokenEdits), size, ih]
          rfl
      | placeholder name =>
          have size : utf8Len (':' :: name.toList) = 1 + name.utf8ByteSize := utf8Len_written name
          rw [Token.names_placeholder, Naming.chosen]
          split
          · next again =>
            rw [tokenEdits_replaced naming start rest again, Token.writtenAll_cons, Token.written,
              splice_here, ih]
            rfl
          · next single =>
            -- A placeholder that stays is text before the next edit, like any other.
            have single : repeated name = false := by simpa using single
            rw [tokenEdits_kept naming start rest single, Token.writtenAll_cons, Token.written,
              splice_append _ _ _ (size ▸ le_position_of_mem_tokenEdits), size, ih]
            rfl

theorem placesFrom_tokenEdits (naming : Naming) (start target : Nat) (tokens : List Token) :
    placesFrom start target (tokenEdits repeated naming start tokens) =
      (((Token.names tokens).zip (Token.placed target
        (Token.renamed (naming.chosen repeated (Token.names tokens)) tokens))).filter
          fun pair => repeated pair.1).map (·.2) := by
  induction tokens generalizing naming start target with
  | nil => rfl
  | cons token rest ih =>
      cases token with
      | plain c =>
          rw [tokenEdits_plain, placesFrom_shift _ _ _ le_position_of_mem_tokenEdits, ih]
          rfl
      | placeholder name =>
          rw [Token.names_placeholder, Naming.chosen]
          split
          · next again =>
            rw [tokenEdits_replaced naming start rest again, placesFrom_here, ih]
            simp [Token.renamed, Token.placed, again]
          · next single =>
            have single : repeated name = false := by simpa using single
            rw [tokenEdits_kept naming start rest single,
              placesFrom_shift _ _ _ le_position_of_mem_tokenEdits, ih]
            simp [Token.renamed, Token.placed, single]

end Tokens

theorem names_tokensOf (sql : String) : Token.names (tokensOf sql) = namesOf sql :=
  (scan_names sql).symm

theorem editsOf_eq_tokenEdits (sql : String) :
    editsOf (scan sql) =
      tokenEdits (repeatedIn sql) ⟨(scan sql).counts.names, .empty⟩ 0 (tokensOf sql) := by
  rw [editsOf_scan, tokenEdits, Naming.edits_filter, ← scan_occurrences]
  rfl

/-- The renamed statement has the tokens of the old one with the names chosen. -/
theorem tokensOf_rename (sql : String) :
    tokensOf (rename sql).sql = Token.renamed (renamedNames sql) (tokensOf sql) := by
  have text : (rename sql).sql.toList =
      Token.writtenAll (Token.renamed (renamedNames sql) (tokensOf sql)) := by
    rw [rename_eq, String.toList_ofList, editsOf_eq_tokenEdits]
    conv_lhs => rw [← Token.writtenAll_read .start sql.toList]
    rw [show Token.read .start sql.toList = tokensOf sql from rfl, splice_tokenEdits,
      names_tokensOf]
    rfl
  rw [tokensOf, text]
  exact Token.read_writtenAll (Token.separate_renamed
    (fun _ member => properName_of_mem_renamedNames member) (Token.separate_read _ _))

theorem namesOf_rename (sql : String) : namesOf (rename sql).sql = renamedNames sql := by
  rw [← names_tokensOf, tokensOf_rename]
  exact Token.names_renamed (by rw [length_renamedNames, names_tokensOf])

theorem replacements_rename (sql : String) :
    (rename sql).replacements =
      (((namesOf sql).zip (scan (rename sql).sql).occurrences).filter
        fun pair => repeatedIn sql pair.1).map (·.2) := by
  rw [scan_occurrences, tokensOf_rename, rename_eq, editsOf_eq_tokenEdits]
  simp only [placesFrom_tokenEdits, names_tokensOf]
  rfl

/-! Where the placeholders stand. -/

theorem lengths_placed (start : Nat) (tokens : List Token) :
    (Token.placed start tokens).map (·.length) =
      (Token.placed start tokens).map (fun found => 1 + found.name.utf8ByteSize) := by
  induction tokens generalizing start with
  | nil => rfl
  | cons token rest ih => cases token <;> simp [Token.placed, ih]

/-- The bytes of the first occurrences, colons included. -/
def bytesBefore (i : Nat) (occurrences : List Occurrence) : Nat :=
  ((occurrences.take i).map (·.length)).sum

theorem map_position_add {after before : Option Occurrence} {a b c d : Nat}
    (same : after.map (fun found => found.position + a) =
      before.map fun found => found.position + b) (balanced : a + d = b + c) :
    after.map (fun found => found.position + c) =
      before.map fun found => found.position + d := by
  cases after <;> cases before <;>
    simp only [Option.map_some, Option.map_none, Option.some.injEq, reduceCtorEq] at same ⊢
  omega

/-- Between the placeholders the text is the same, so that only their own lengths
    tell one place from the other. -/
theorem position_placed_renamed (start target : Nat) {fresh : List String} {tokens : List Token}
    (enough : fresh.length = (Token.names tokens).length) (i : Nat) :
    ((Token.placed target (Token.renamed fresh tokens))[i]?).map (fun found =>
        found.position + (bytesBefore i (Token.placed start tokens) + start)) =
      ((Token.placed start tokens)[i]?).map (fun found =>
        found.position + (bytesBefore i (Token.placed target (Token.renamed fresh tokens))
          + target)) := by
  induction tokens generalizing start target fresh i with
  | nil => rfl
  | cons token rest ih =>
      cases token with
      | plain c =>
          have later := ih (start + c.utf8Size) (target + c.utf8Size) enough i
          simp only [Token.renamed, Token.placed]
          exact map_position_add later (by omega)
      | placeholder name =>
          cases fresh with
          | nil => simp at enough
          | cons first more =>
              have enough : more.length = (Token.names rest).length := by simpa using enough
              cases i with
              | zero => simp [Token.renamed, Token.placed, bytesBefore, Nat.add_comm]
              | succ i =>
                  -- Behind the first placeholder both sides have grown by its two lengths.
                  have later := ih (start + (1 + name.utf8ByteSize))
                    (target + (1 + first.utf8ByteSize)) enough i
                  simp only [Token.renamed, Token.placed, List.getElem?_cons_succ, bytesBefore,
                    List.take_succ_cons, List.map_cons, List.sum_cons]
                  apply map_position_add later
                  simp only [bytesBefore]
                  omega

theorem rename_of_nodup {sql : String} (distinct : (namesOf sql).Nodup) :
    rename sql = { sql, kept := true, expansions := .empty, replacements := [] } := by
  have single : ¬ (scan sql).hasRepeats = true := by
    intro repeats
    obtain ⟨name, several⟩ := (hasRepeats_iff sql).mp repeats
    have once := List.nodup_iff_count.mp distinct name
    exact absurd several (Nat.not_le.mpr (Nat.lt_succ_of_le once))
  rw [rename, renameWith, if_neg single]

/-- Read again, the renamed statement has as many placeholders as the old one. The
    `j`th occurrence of a repeated name bears the `j`th name generated for it, any
    other its old name, and there are no other generated names; these names are
    distinct, and the generated ones are new.
    Each placeholder is as long as its name, has moved by what the ones before it
    have grown, and the replaced ones are those listed. Renaming again changes
    nothing. -/
theorem scan_rename_distinct (sql : String) :
    (scan (rename sql).sql).occurrences.length = (scan sql).occurrences.length
    ∧ (∀ i : Nat, (namesOf (rename sql).sql)[i]? = (namesOf sql)[i]?.bind fun name =>
        if 2 ≤ (namesOf sql).count name then
          ((rename sql).expansions.generated name)[((namesOf sql).take i).count name]?
        else some name)
    ∧ (∀ base, ((rename sql).expansions.generated base).length =
        if 2 ≤ (namesOf sql).count base then (namesOf sql).count base else 0)
    ∧ (namesOf (rename sql).sql).Nodup
    ∧ (∀ base, List.Disjoint ((rename sql).expansions.generated base) (namesOf sql))
    ∧ (scan (rename sql).sql).occurrences.map (·.length) =
        (scan (rename sql).sql).occurrences.map (fun found => 1 + found.name.utf8ByteSize)
    ∧ (∀ i : Nat, (scan (rename sql).sql).occurrences[i]?.map (fun found =>
          found.position + bytesBefore i (scan sql).occurrences) =
        (scan sql).occurrences[i]?.map (fun found =>
          found.position + bytesBefore i (scan (rename sql).sql).occurrences))
    ∧ (rename sql).replacements =
        (((namesOf sql).zip (scan (rename sql).sql).occurrences).filter
          fun pair => 2 ≤ (namesOf sql).count pair.1).map (·.2)
    ∧ rename (rename sql).sql =
        { sql := (rename sql).sql, kept := true, expansions := .empty, replacements := [] } := by
  have lengths : (namesOf (rename sql).sql).length = (namesOf sql).length := by
    rw [namesOf_rename, length_renamedNames]
  have distinct : (namesOf (rename sql).sql).Nodup := namesOf_rename sql ▸ nodup_renamedNames sql
  refine ⟨by simpa [namesOf] using lengths, ?_, length_generated sql, distinct,
    disjoint_generated sql, ?_, ?_, replacements_rename sql, rename_of_nodup distinct⟩
  · intro i
    rw [namesOf_rename, getElem?_renamedNames]
  · rw [scan_occurrences, lengths_placed]
  · intro i
    have enough : (renamedNames sql).length = (Token.names (tokensOf sql)).length := by
      rw [length_renamedNames, names_tokensOf]
    have moved := position_placed_renamed 0 0 enough i
    rw [← tokensOf_rename, ← scan_occurrences, ← scan_occurrences] at moved
    exact moved

end Placeholder

end SealedColumns
