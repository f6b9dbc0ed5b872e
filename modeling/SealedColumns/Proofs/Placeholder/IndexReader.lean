import SealedColumns.Proofs.Placeholder.Grammar
import SealedColumns.Proofs.Placeholder.Slices

/-!
The scan of a statement by a reader with an index into the bytes, which jumps over the
second byte of a mark, over both quotes of a pair and over a whole name, and takes each name
as a slice of the text. One move of this reader is a few steps of the reader that goes byte
by byte, in the same mode, so both find the same placeholders; and what they find are slices.
-/

namespace SealedColumns.Placeholder

open String.Pos.Raw (IsValid)

def hash : UInt8 := '#'.toUInt8
def dash : UInt8 := '-'.toUInt8

def quote? (byte : UInt8) : Option Quote :=
  if byte = Quote.single.byte then some .single
  else if byte = Quote.double.byte then some .double
  else if byte = Quote.backtick.byte then some .backtick
  else none

/-- The index behind the bytes of a name. -/
def nameEnd (bytes : List UInt8) (index : Nat) : Nat :=
  if inside : index < bytes.length then
    if isNameByte bytes[index] then nameEnd bytes (index + 1) else index
  else index
termination_by bytes.length - index

/-- Where the reader goes from a byte on: with a region open or none to another index, or over
    a name to its end. -/
inductive Move where
  | on (region : Option Region) (index : Nat)
  | name (stop : Nat)

/-- The move at a byte. No byte is looked at behind the end or before the start. -/
def moveAt (bytes : List UInt8) (region : Option Region) (index : Nat)
    (inside : index < bytes.length) : Move :=
  let byte := bytes[index]
  let ahead := bytes[index + 1]?
  match region with
  | none =>
      match quote? byte with
      | some quote => .on (some (.quoted quote)) (index + 1)
      | none =>
          if byte = hash ∨ (byte = dash ∧ ahead = some dash) then .on (some .hash) (index + 1)
          else if byte = slash ∧ ahead = some star then .on (some .block) (index + 2)
          else if byte = colon ∧ (index = 0 ∨ bytes[index - 1] ≠ colon)
              ∧ (ahead.map Char.ofUInt8).any isNameStart then .name (nameEnd bytes (index + 1))
          else .on none (index + 1)
  | some (.quoted quote) =>
      if byte ≠ quote.byte then .on region (index + 1)
      else if ahead = some quote.byte then .on region (index + 2)
      else .on none (index + 1)
  | some .block =>
      if byte = star ∧ ahead = some slash then .on none (index + 2) else .on region (index + 1)
  | some .hash | some .dashes =>
      if byte = newline then .on none (index + 1) else .on region (index + 1)

def Move.index : Move → Nat
  | on _ index => index
  | name stop => stop

theorem le_nameEnd (bytes : List UInt8) (index : Nat) : index ≤ nameEnd bytes index := by
  fun_induction nameEnd bytes index with
  | case1 index inside letter ih => exact Nat.le_of_succ_le ih
  | case2 | case3 => exact Nat.le_refl _

theorem lt_index_moveAt (bytes : List UInt8) (region : Option Region) (index : Nat)
    (inside : index < bytes.length) : index < (moveAt bytes region index inside).index := by
  unfold moveAt
  dsimp only
  split
  · split
    · exact Nat.lt_succ_self _
    · split_ifs with line block name
      · exact Nat.lt_succ_self _
      · exact Nat.lt_add_of_pos_right (by decide)
      · exact le_nameEnd bytes (index + 1)
      · exact Nat.lt_succ_self _
  · split_ifs with other again
    · exact Nat.lt_succ_self _
    · exact Nat.lt_add_of_pos_right (by decide)
    · exact Nat.lt_succ_self _
  · split_ifs with closes
    · exact Nat.lt_add_of_pos_right (by decide)
    · exact Nat.lt_succ_self _
  · split_ifs with last <;> exact Nat.lt_succ_self _
  · split_ifs with last <;> exact Nat.lt_succ_self _

/-- The placeholders from an index on. Nothing if a name cannot be taken as a slice. -/
def readAt (sql : String) (bytes : List UInt8) (region : Option Region) (index : Nat) :
    Option (List Occurrence) :=
  if inside : index < bytes.length then
    match _move : moveAt bytes region index inside with
    | .on next stop => readAt sql bytes next stop
    | .name stop =>
        (Text.slice? sql (index + 1) stop).bind fun name =>
          (readAt sql bytes none stop).map fun later => ⟨index, stop - index, name⟩ :: later
  else some []
termination_by bytes.length - index
decreasing_by
  all_goals
    have onward := lt_index_moveAt bytes region index inside
    rw [_move, Move.index] at onward
    omega

/-- The scan that reads by index. -/
def scanByIndex (sql : String) : Option Scan :=
  (readAt sql (Text.bytes sql) none 0).map fun occurrences =>
    ⟨occurrences, countNames (occurrences.map (·.name))⟩

/-! Bytes that open something. -/

theorem Quote.byte_ne_colon (quote : Quote) : quote.byte ≠ colon := by
  cases quote <;> decide

theorem byte_of_quote? {byte : UInt8} {quote : Quote} (found : quote? byte = some quote) :
    byte = quote.byte := by
  unfold quote? at found
  split_ifs at found with single double backtick <;> obtain rfl := Option.some.inj found
  · exact single
  · exact double
  · exact backtick

theorem not_isQuote_of_quote? {byte : UInt8} (none : quote? byte = none) :
    isQuote (Char.ofUInt8 byte) = false := by
  rw [Bool.eq_false_iff]
  intro mark
  obtain ⟨quote, same⟩ := exists_quote mark
  have byte := (ofUInt8_eq_iff quote.ascii_mark byte).mp same.symm
  rw [byte] at none
  cases quote <;> contradiction

theorem shut_of_ne_colon {byte : UInt8} (other : byte ≠ colon) (mode : Mode)
    (ahead : Option Char) : mode.opens (Char.ofUInt8 byte) ahead = false := by
  rw [Bool.eq_false_iff, ne_eq, Mode.opens_iff, ofUInt8_eq_iff (by decide)]
  exact fun opens => other opens.2.1

theorem nameEnd_eq (bytes : List UInt8) (index : Nat) :
    nameEnd bytes index = index + ((bytes.drop index).takeWhile isNameByte).length := by
  fun_induction nameEnd bytes index with
  | case1 index inside letter ih =>
      rw [ih, List.drop_eq_getElem_cons inside, List.takeWhile_cons_of_pos letter, List.length_cons,
        Nat.add_assoc, Nat.add_comm 1]
  | case2 index inside other =>
      rw [List.drop_eq_getElem_cons inside, List.takeWhile_cons_of_neg other]
      rfl
  | case3 index outside =>
      rw [List.drop_eq_nil_of_le (Nat.le_of_not_lt outside)]
      rfl

/-! One move. -/

/-- The mode in which the reader of single bytes is at an index. -/
def modeAt (bytes : List UInt8) (region : Option Region) (index : Nat) : Mode :=
  match region with
  | none => Segment.modeAfter (bytes.take index).getLast?
  | some region => region.mode

def foundFrom (bytes : List UInt8) (region : Option Region) (index : Nat) : List Occurrence :=
  occurrencesInBytes (modeAt bytes region index) index (bytes.drop index)

section Move
variable {bytes : List UInt8} {index : Nat} {byte : UInt8}

theorem drop_eq_cons (here : bytes[index]? = some byte) :
    bytes.drop index = byte :: bytes.drop (index + 1) := by
  obtain ⟨inside, rfl⟩ := List.getElem?_eq_some_iff.mp here
  exact List.drop_eq_getElem_cons inside

theorem occurrencesInBytes_step {mode : Mode} (here : bytes[index]? = some byte)
    (shut : mode.opens (Char.ofUInt8 byte) (bytes[index + 1]?.map Char.ofUInt8) = false) :
    occurrencesInBytes mode index (bytes.drop index) =
      occurrencesInBytes (mode.next (Char.ofUInt8 byte) (bytes[index + 1]?.map Char.ofUInt8))
        (index + 1) (bytes.drop (index + 1)) := by
  have ahead : (bytes.drop (index + 1)).head? = bytes[index + 1]? := List.head?_drop
  rw [drop_eq_cons here, occurrencesInBytes_cons (by rw [ahead]; exact shut), ahead]

theorem modeAt_none_succ (here : bytes[index]? = some byte) :
    modeAt bytes none (index + 1) = .plain (byte == colon) := by
  obtain ⟨inside, rfl⟩ := List.getElem?_eq_some_iff.mp here
  have last : (bytes.take (index + 1)).getLast? = some bytes[index] := by
    rw [List.take_succ_eq_append_getElem inside, List.getLast?_concat]
  rw [modeAt, last]
  rfl

theorem modeAt_none_iff (inside : index < bytes.length) :
    modeAt bytes none index = .plain false ↔ index = 0 ∨ bytes[index - 1] ≠ colon := by
  cases index with
  | zero => exact iff_of_true rfl (Or.inl rfl)
  | succ before =>
      have here : bytes[before]? = some bytes[before] := List.getElem?_eq_getElem _
      rw [modeAt_none_succ here]
      simp

theorem exists_plain (bytes : List UInt8) (index : Nat) :
    ∃ afterColon, modeAt bytes none index = .plain afterColon := ⟨_, rfl⟩

theorem foundFrom_succ {region next : Option Region} (here : bytes[index]? = some byte)
    (shut : (modeAt bytes region index).opens (Char.ofUInt8 byte)
      (bytes[index + 1]?.map Char.ofUInt8) = false)
    (leads : (modeAt bytes region index).next (Char.ofUInt8 byte)
      (bytes[index + 1]?.map Char.ofUInt8) = modeAt bytes next (index + 1)) :
    foundFrom bytes region index = foundFrom bytes next (index + 1) := by
  rw [foundFrom, occurrencesInBytes_step here shut, leads]
  rfl

/-- The reader of single bytes is in the mode `middle` between two bytes of a mark. -/
theorem foundFrom_over {region next : Option Region} {second : UInt8} (middle : Mode)
    (here : bytes[index]? = some byte) (behind : bytes[index + 1]? = some second)
    (shut : (modeAt bytes region index).opens (Char.ofUInt8 byte)
      (some (Char.ofUInt8 second)) = false)
    (leads : (modeAt bytes region index).next (Char.ofUInt8 byte)
      (some (Char.ofUInt8 second)) = middle)
    (stays : ∀ ahead, middle.opens (Char.ofUInt8 second) ahead = false)
    (back : ∀ ahead, middle.next (Char.ofUInt8 second) ahead = modeAt bytes next (index + 2)) :
    foundFrom bytes region index = foundFrom bytes next (index + 2) := by
  have look : bytes[index + 1]?.map Char.ofUInt8 = some (Char.ofUInt8 second) := by
    rw [behind, Option.map_some]
  rw [foundFrom, occurrencesInBytes_step here (by rw [look]; exact shut), look, leads,
    occurrencesInBytes_step behind (stays _), back]
  rfl

end Move

/-- What a move makes of the placeholders from an index on. -/
def Move.Accounts (bytes : List UInt8) (index : Nat) (found : List Occurrence) : Move → Prop
  | .on next stop => found = foundFrom bytes next stop
  | .name stop => ∃ name,
      found = ⟨index, stop - index, name⟩ :: foundFrom bytes none stop

section Inside
variable {bytes : List UInt8} {index : Nat} (inside : index < bytes.length)

theorem accounts_line (region : Region) (line : region.mode = .line) :
    (if bytes[index] = newline then Move.on none (index + 1)
      else Move.on (some region) (index + 1)).Accounts bytes index
        (foundFrom bytes (some region) index) := by
  have here : bytes[index]? = some bytes[index] := List.getElem?_eq_getElem inside
  have mark : Char.ofUInt8 bytes[index] = '\n' ↔ bytes[index] = newline :=
    ofUInt8_eq_iff (by decide) _
  split
  · next last =>
    refine foundFrom_succ here (by rw [modeAt, line]; rfl) ?_
    rw [modeAt_none_succ here, modeAt, line, Mode.next, if_pos (mark.mpr last), last]
    rfl
  · next stays =>
    refine foundFrom_succ here (by rw [modeAt, line]; rfl) ?_
    rw [modeAt, line, Mode.next, if_neg (mt mark.mp stays)]
    exact line.symm

theorem accounts_block :
    (if bytes[index] = star ∧ bytes[index + 1]? = some slash then Move.on none (index + 2)
      else Move.on (some .block) (index + 1)).Accounts bytes index
        (foundFrom bytes (some .block) index) := by
  have here : bytes[index]? = some bytes[index] := List.getElem?_eq_getElem inside
  split
  · next closes =>
    refine foundFrom_over .blockClose here closes.2 rfl ?_ (fun _ => rfl) ?_
    · rw [closes.1]
      rfl
    · intro ahead
      rw [modeAt_none_succ closes.2]
      rfl
  · next stays =>
    refine foundFrom_succ here rfl ?_
    have unclosed : ¬ (Char.ofUInt8 bytes[index] = '*'
        ∧ bytes[index + 1]?.map Char.ofUInt8 = some '/') := by
      rw [ofUInt8_eq_iff (by decide), map_ofUInt8_eq_iff (by decide)]
      exact stays
    exact if_neg unclosed

theorem accounts_quoted (quote : Quote) :
    (if bytes[index] ≠ quote.byte then Move.on (some (.quoted quote)) (index + 1)
      else if bytes[index + 1]? = some quote.byte then Move.on (some (.quoted quote)) (index + 2)
      else Move.on none (index + 1)).Accounts bytes index
        (foundFrom bytes (some (.quoted quote)) index) := by
  have here : bytes[index]? = some bytes[index] := List.getElem?_eq_getElem inside
  have mark := ofUInt8_eq_iff quote.ascii_mark bytes[index]
  split
  · next other =>
    exact foundFrom_succ here rfl (if_pos (mt mark.mp other))
  · next same =>
    have same := not_not.mp same
    split
    · next again =>
      refine foundFrom_over (.escaped quote.mark) here again rfl ?_ (fun _ => rfl)
        (fun _ => rfl)
      rw [same, modeAt, Region.mode, quote.ofUInt8_byte]
      simp [Mode.next]
    · next single =>
      have alone : bytes[index + 1]?.map Char.ofUInt8 ≠ some quote.mark :=
        mt (map_ofUInt8_eq_iff quote.ascii_mark _).mp single
      refine foundFrom_succ here rfl ?_
      rw [modeAt_none_succ here, same, beq_false_of_ne quote.byte_ne_colon, modeAt, Region.mode,
        quote.ofUInt8_byte]
      simp [Mode.next, alone]

theorem accounts_name (colonHere : bytes[index] = colon)
    (single : index = 0 ∨ bytes[index - 1] ≠ colon)
    (starts : (bytes[index + 1]?.map Char.ofUInt8).any isNameStart = true) :
    (Move.name (nameEnd bytes (index + 1))).Accounts bytes index (foundFrom bytes none index) := by
  have here : bytes[index]? = some colon := by rw [List.getElem?_eq_getElem inside, colonHere]
  have front : (bytes.take index).getLast? ≠ some colon := by
    have plain := (modeAt_none_iff inside).mpr single
    simpa [modeAt, Segment.modeAfter] using plain
  have names : Segment.StartsName (bytes.take index).getLast? (bytes.drop (index + 1)) :=
    ⟨front, by rw [List.head?_drop]; exact starts⟩
  obtain ⟨name, rest, same, fits⟩ := Segment.exists_placeholder names
  have letters : (bytes.drop (index + 1)).takeWhile isNameByte = Text.bytes name := by
    rw [← (List.cons.inj same).2]
    exact takeWhile_isNameByte_bytes fits.2.1.2 fits.2.2
  rw [← drop_eq_cons here] at same
  let size := (Segment.placeholder name).written.length
  have taken : bytes.take (index + size) =
      bytes.take index ++ (Segment.placeholder name).written := by
    rw [List.take_add, ← same, List.take_left]
  have left : bytes.drop (index + size) = rest := by
    rw [← List.drop_drop, ← same, List.drop_left]
  have stop : nameEnd bytes (index + 1) = index + size := by
    rw [nameEnd_eq, letters, Nat.add_assoc, Nat.add_comm 1]
    rfl
  have mode : modeAt bytes none (index + size) =
      Segment.modeAfter (Segment.placeholder name).written.getLast? := by
    rw [modeAt, taken, List.getLast?_append_of_ne_nil _ (Segment.written_ne_nil _)]
  refine ⟨name, ?_⟩
  rw [stop, Nat.add_sub_cancel_left, foundFrom, foundFrom, mode, left, ← same]
  exact Segment.occurrencesInBytes_placeholder fits index

theorem accounts_none :
    (moveAt bytes none index inside).Accounts bytes index (foundFrom bytes none index) := by
  have here : bytes[index]? = some bytes[index] := List.getElem?_eq_getElem inside
  obtain ⟨afterColon, plain⟩ := exists_plain bytes index
  unfold moveAt
  dsimp only
  split
  · next quote found =>
    have byte := byte_of_quote? found
    refine foundFrom_succ here (shut_of_ne_colon (byte ▸ quote.byte_ne_colon) _ _) ?_
    rw [plain, byte, quote.ofUInt8_byte, Mode.next, if_pos quote.isQuote_mark]
    rfl
  · next none =>
    have quote := not_isQuote_of_quote? none
    have lineMark : (Char.ofUInt8 bytes[index] = '#' ∨ (Char.ofUInt8 bytes[index] = '-'
        ∧ bytes[index + 1]?.map Char.ofUInt8 = some '-')) ↔
        (bytes[index] = hash ∨ (bytes[index] = dash ∧ bytes[index + 1]? = some dash)) :=
      or_congr (ofUInt8_eq_iff (by decide) _)
        (and_congr (ofUInt8_eq_iff (by decide) _) (map_ofUInt8_eq_iff (by decide) _))
    have blockMark : (Char.ofUInt8 bytes[index] = '/'
        ∧ bytes[index + 1]?.map Char.ofUInt8 = some '*') ↔
        (bytes[index] = slash ∧ bytes[index + 1]? = some star) :=
      and_congr (ofUInt8_eq_iff (by decide) _) (map_ofUInt8_eq_iff (by decide) _)
    split
    · next opens =>
      refine foundFrom_succ here (shut_of_ne_colon ?_ _ _) ?_
      · rcases opens with same | ⟨same, -⟩ <;> rw [same] <;> decide
      · rw [plain, Mode.next, if_neg (by simp [quote]), if_pos (lineMark.mpr opens)]
        rfl
    · next noLine =>
      split
      · next opens =>
        refine foundFrom_over .blockOpen here opens.2
          (shut_of_ne_colon (by rw [opens.1]; decide) _ _) ?_ (fun _ => rfl) (fun _ => rfl)
        rw [opens.1, plain]
        rfl
      · next noBlock =>
        split
        · next opens => exact accounts_name inside opens.1 opens.2.1 opens.2.2
        · next noName =>
          refine foundFrom_succ here ?_ ?_
          · rw [Bool.eq_false_iff, ne_eq, Mode.opens_iff, modeAt_none_iff inside,
              ofUInt8_eq_iff (by decide)]
            exact fun opens => noName ⟨opens.2.1, opens.1, opens.2.2⟩
          · rw [modeAt_none_succ here, plain, Mode.next, if_neg (by simp [quote]),
              if_neg (mt lineMark.mp noLine), if_neg (mt blockMark.mp noBlock)]
            congr 1
            rw [Bool.eq_iff_iff, beq_iff_eq, beq_iff_eq, ofUInt8_eq_iff (by decide)]
            rfl

end Inside

/-- One move passes over the placeholder it finds, or over none. -/
theorem accounts_moveAt (bytes : List UInt8) (region : Option Region) (index : Nat)
    (inside : index < bytes.length) :
    (moveAt bytes region index inside).Accounts bytes index (foundFrom bytes region index) := by
  cases region with
  | none => exact accounts_none inside
  | some region =>
      cases region with
      | hash => exact accounts_line inside .hash rfl
      | dashes => exact accounts_line inside .dashes rfl
      | block => exact accounts_block inside
      | quoted quote => exact accounts_quoted inside quote

/-! The whole run. -/

/-- If the names to be found are slices, the reader finds them and all goes well. -/
theorem readAt_eq {sql : String} {bytes : List UInt8} {region : Option Region} {index : Nat}
    (cut : ∀ found ∈ foundFrom bytes region index,
      Text.slice? sql (found.position + 1) found.stop = some found.name) :
    readAt sql bytes region index = some (foundFrom bytes region index) := by
  fun_induction readAt sql bytes region index with
  | case1 region index inside next stop move ih =>
      have same := accounts_moveAt bytes region index inside
      rw [move] at same
      rw [same] at cut ⊢
      exact ih cut
  | case2 region index inside stop move ih =>
      have onward := lt_index_moveAt bytes region index inside
      have same := accounts_moveAt bytes region index inside
      rw [move] at same onward
      obtain ⟨name, same⟩ := same
      rw [same] at cut ⊢
      obtain ⟨here, later⟩ := List.forall_mem_cons.mp cut
      have ends : index + (stop - index) = stop := Nat.add_sub_cancel' (Nat.le_of_lt onward)
      rw [Occurrence.stop, ends] at here
      rw [here, ih later]
      rfl
  | case3 region index outside =>
      rw [foundFrom, List.drop_eq_nil_of_le (Nat.le_of_not_lt outside)]
      rfl

theorem scanByIndex_eq (sql : String) : scanByIndex sql = some (scan sql) := by
  have whole : foundFrom (Text.bytes sql) none 0 = (scan sql).occurrences := by
    rw [scan_eq_occurrencesInBytes]
    rfl
  have cut : ∀ found ∈ foundFrom (Text.bytes sql) none 0,
      Text.slice? sql (found.position + 1) found.stop = some found.name := by
    rw [whole]
    exact fun found member => (cutFrom_of_mem_scan member).slices.2
  rw [scanByIndex, readAt_eq cut, whole]
  rfl

/-- Reading and renaming never slice the statement out of range or inside a character. The
    placeholders stand in order and do not overlap; each lies between characters and is a colon
    with a name that goes as far as it can. The reader by index, which slices the names, finds
    them all, and the copy from slices is the renamed statement. -/
theorem slices_between_characters (sql : String) :
    (scan sql).occurrences.Pairwise
        (fun first second => first.position < second.position ∧ first.stop ≤ second.position)
      ∧ (∀ found ∈ (scan sql).occurrences,
        2 ≤ found.length ∧ found.stop ≤ sql.utf8ByteSize
          ∧ IsValid sql ⟨found.position⟩ ∧ IsValid sql ⟨found.stop⟩
          ∧ Text.slice? sql found.position found.stop = some (":" ++ found.name)
          ∧ ProperName found.name
          ∧ (Text.dropBytes found.stop sql.toList).head?.any isNameChar = false)
      ∧ scanByIndex sql = some (scan sql)
      ∧ renameBySlices sql (scan sql) = some (rename sql).sql := by
  refine ⟨?_, fun found member => ?_, scanByIndex_eq sql, renameBySlices_scan sql⟩
  · refine (pairwise_scan sql).imp_of_mem fun {first second} member _ apart => ⟨?_, apart⟩
    have long := (cutFrom_of_mem_scan member).two_le_length
    rw [Occurrence.stop] at apart
    omega
  · have cut := cutFrom_of_mem_scan member
    exact ⟨cut.two_le_length, cut.isValid.2.le_rawEndPos, cut.isValid.1, cut.isValid.2,
      cut.slices.1, cut.1, cut.ends⟩

end SealedColumns.Placeholder
