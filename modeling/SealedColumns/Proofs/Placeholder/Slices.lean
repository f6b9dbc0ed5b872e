import SealedColumns.Proofs.Placeholder.RenamedText
import SealedColumns.Proofs.Placeholder.Restoring

/-!
Slices of a statement. A slice is taken between two places that are in order and stand
between characters. Every placeholder is such a slice, and so are the pieces of text that
a renaming copies, from the end of one replaced placeholder to the start of the next.
-/

namespace SealedColumns

open String (utf8Len)
open String.Pos.Raw (IsValid)

namespace Text

/-- The part of a text between two bytes, unless they are out of order or one of them is
    behind the end or inside a character. -/
def slice? (text : String) (start stop : Nat) : Option String :=
  if start ≤ stop ∧ IsValid text ⟨start⟩ ∧ IsValid text ⟨stop⟩ then
    some (String.ofList (takeBytes (stop - start) (dropBytes start text.toList)))
  else none

theorem isValid_iff {text : String} {place : Nat} :
    IsValid text ⟨place⟩ ↔
      ∃ front back : List Char, text.toList = front ++ back ∧ utf8Len front = place := by
  rw [String.Pos.Raw.isValid_iff_exists_append]
  constructor
  · rintro ⟨front, back, rfl, same⟩
    refine ⟨front.toList, back.toList, String.toList_append, ?_⟩
    rw [String.utf8Len_toList]
    exact (congrArg String.Pos.Raw.byteIdx same).symm
  · rintro ⟨front, back, whole, rfl⟩
    refine ⟨.ofList front, .ofList back, ?_, ?_⟩
    · rw [← String.ofList_append, ← whole, String.ofList_toList]
    · rw [← String.utf8ByteSize_ofList]
      rfl

/-- Of two beginnings of a text the one with more bytes goes on where the other ends. -/
theorem exists_between {front back longer rest : List Char}
    (same : front ++ back = longer ++ rest) (ordered : utf8Len front ≤ utf8Len longer) :
    ∃ middle, longer = front ++ middle ∧ back = middle ++ rest := by
  rcases List.append_eq_append_iff.mp same with ⟨middle, onward, behind⟩ | ⟨middle, onward, behind⟩
  · exact ⟨middle, onward, behind⟩
  · have none : utf8Len middle = 0 := by
      rw [onward, String.utf8Len_append] at ordered
      omega
    obtain rfl := String.utf8Len_eq_zero.mp none
    exact ⟨[], by simp [onward], by simp [behind]⟩

theorem dropBytes_front (front back : List Char) :
    dropBytes (utf8Len front) (front ++ back) = back := by
  rw [dropBytes_append front back (Nat.le_refl _), Nat.sub_self, dropBytes_zero]

theorem takeBytes_front (front back : List Char) :
    takeBytes (utf8Len front) (front ++ back) = front := by
  rw [takeBytes_append front back (Nat.le_refl _), Nat.sub_self, takeBytes_zero, List.append_nil]

/-- A slice is what stands between a front of `start` bytes and the rest. -/
theorem slice?_eq_some_iff {text part : String} {start stop : Nat} :
    slice? text start stop = some part ↔
      ∃ front back : List Char, text.toList = front ++ part.toList ++ back
        ∧ utf8Len front = start ∧ start + part.utf8ByteSize = stop := by
  unfold slice?
  constructor
  · intro cut
    split at cut
    · next inside =>
      obtain ⟨ordered, first, last⟩ := inside
      obtain ⟨front, behind, whole, rfl⟩ := isValid_iff.mp first
      obtain ⟨longer, back, same, rfl⟩ := isValid_iff.mp last
      obtain ⟨middle, rfl, rfl⟩ := exists_between (whole.symm.trans same) ordered
      have size : utf8Len (front ++ middle) - utf8Len front = utf8Len middle := by
        rw [String.utf8Len_append, Nat.add_sub_cancel_left]
      rw [whole, dropBytes_front, size, takeBytes_front] at cut
      obtain rfl := Option.some.inj cut
      refine ⟨front, back, ?_, rfl, ?_⟩
      · rw [String.toList_ofList, same]
      · rw [String.utf8ByteSize_ofList, String.utf8Len_append]
    · contradiction
  · rintro ⟨front, back, whole, rfl, rfl⟩
    have first : IsValid text ⟨utf8Len front⟩ :=
      isValid_iff.mpr ⟨front, part.toList ++ back, by rw [whole, List.append_assoc], rfl⟩
    have last : IsValid text ⟨utf8Len front + part.utf8ByteSize⟩ :=
      isValid_iff.mpr ⟨front ++ part.toList, back, whole, by
        rw [String.utf8Len_append, String.utf8Len_toList]⟩
    rw [if_pos ⟨Nat.le_add_right _ _, first, last⟩, Nat.add_sub_cancel_left, whole,
      List.append_assoc, dropBytes_front, ← String.utf8Len_toList, takeBytes_front,
      String.ofList_toList]

theorem slice?_to_end {text : String} {start : Nat} (begins : IsValid text ⟨start⟩) :
    slice? text start text.utf8ByteSize = some (String.ofList (dropBytes start text.toList)) := by
  obtain ⟨front, back, whole, rfl⟩ := isValid_iff.mp begins
  rw [whole, dropBytes_front]
  refine slice?_eq_some_iff.mpr ⟨front, [], ?_, rfl, ?_⟩
  · rw [String.toList_ofList, List.append_nil, whole]
  · rw [← String.utf8Len_toList text, whole, String.utf8Len_append, String.utf8ByteSize_ofList]

theorem dropBytes_dropBytes {text : String} {start stop : Nat} (begins : IsValid text ⟨start⟩)
    (ordered : start ≤ stop) :
    dropBytes (stop - start) (dropBytes start text.toList) = dropBytes stop text.toList := by
  obtain ⟨front, back, whole, rfl⟩ := isValid_iff.mp begins
  rw [whole, dropBytes_front, dropBytes_append front back ordered]

end Text

namespace Placeholder

/-! Placeholders are slices. -/

/-- The text is a placeholder of its name at the place of the occurrence. The name goes as far
    as it can. -/
def Occurrence.CutFrom (found : Occurrence) (text : List Char) : Prop :=
  ProperName found.name ∧ found.length = 1 + found.name.utf8ByteSize
    ∧ ∃ front back, text = front ++ ':' :: found.name.toList ++ back
      ∧ utf8Len front = found.position ∧ back.head?.any isNameChar = false

theorem cutFrom_of_mem_placed {mode : Mode} {tokens : List Token} {found : Occurrence}
    (before : List Char) (separate : Token.Separate mode tokens)
    (member : found ∈ Token.placed (utf8Len before) tokens) :
    found.CutFrom (before ++ Token.writtenAll tokens) := by
  induction tokens generalizing mode before with
  | nil => contradiction
  | cons token rest ih =>
      rw [Token.writtenAll_cons, ← List.append_assoc]
      cases token with
      | plain c =>
          have size : utf8Len (Token.plain c).written = c.utf8Size := by simp [Token.written]
          apply ih _ separate.2
          rw [String.utf8Len_append, size]
          exact member
      | placeholder name =>
          obtain ⟨-, proper, stop, later⟩ := separate
          rcases List.mem_cons.mp member with rfl | behind
          · exact ⟨proper, rfl, before, Token.writtenAll rest, rfl, rfl, stop⟩
          · apply ih _ later
            rw [String.utf8Len_append, utf8Len_written]
            exact behind

theorem cutFrom_of_mem_scan {sql : String} {found : Occurrence}
    (member : found ∈ (scan sql).occurrences) : found.CutFrom sql.toList := by
  rw [scan_occurrences] at member
  have cut := cutFrom_of_mem_placed [] (Token.separate_read .start sql.toList) member
  rwa [List.nil_append, Token.writtenAll_read] at cut

namespace Occurrence.CutFrom
variable {sql : String} {found : Occurrence}

theorem two_le_length (cut : found.CutFrom sql.toList) : 2 ≤ found.length := by
  obtain ⟨⟨starts, -⟩, length, -⟩ := cut
  have named : found.name.utf8ByteSize ≠ 0 := by
    intro none
    rw [String.utf8ByteSize_eq_zero_iff.mp none] at starts
    contradiction
  omega

/-- With its sigil and without. -/
theorem slices (cut : found.CutFrom sql.toList) :
    Text.slice? sql found.position found.stop = some (":" ++ found.name)
      ∧ Text.slice? sql (found.position + 1) found.stop = some found.name := by
  obtain ⟨-, length, front, back, whole, place, -⟩ := cut
  constructor
  · refine Text.slice?_eq_some_iff.mpr ⟨front, back, ?_, place, ?_⟩
    · rw [String.toList_append]
      exact whole
    · rw [stop, length, String.utf8ByteSize_append]
      rfl
  · refine Text.slice?_eq_some_iff.mpr ⟨front ++ [':'], back, ?_, ?_, ?_⟩
    · rw [whole, List.append_assoc, List.append_assoc, List.append_assoc]
      rfl
    · rw [String.utf8Len_append, place]
      rfl
    · rw [stop, length, Nat.add_assoc]

theorem isValid (cut : found.CutFrom sql.toList) :
    IsValid sql ⟨found.position⟩ ∧ IsValid sql ⟨found.stop⟩ := by
  have sliced := cut.slices.1
  unfold Text.slice? at sliced
  split at sliced
  · next inside => exact inside.2
  · contradiction

/-- What stands behind a placeholder does not go on with its name. -/
theorem ends (cut : found.CutFrom sql.toList) :
    (Text.dropBytes found.stop sql.toList).head?.any isNameChar = false := by
  obtain ⟨-, length, front, back, whole, place, ends⟩ := cut
  have size : utf8Len (front ++ ':' :: found.name.toList) = found.stop := by
    rw [String.utf8Len_append, place, stop, length]
    exact congrArg _ (utf8Len_written found.name)
  rw [whole, ← size, Text.dropBytes_front]
  exact ends

end Occurrence.CutFrom

/-! Copying the text around the edits. -/

def Edit.stop (edit : Edit) : Nat := edit.position + edit.length

/-- Edits in order, from a place on, that do not overlap and do not divide a character. -/
structure Cuts (sql : String) (start : Nat) (edits : List Edit) : Prop where
  begins : IsValid sql ⟨start⟩
  behind : ∀ edit ∈ edits, start ≤ edit.position
  places : ∀ edit ∈ edits, IsValid sql ⟨edit.position⟩ ∧ IsValid sql ⟨edit.stop⟩
  ordered : edits.Pairwise fun first second => first.stop ≤ second.position

theorem Cuts.tail {sql : String} {start : Nat} {edit : Edit} {rest : List Edit}
    (cuts : Cuts sql start (edit :: rest)) : Cuts sql edit.stop rest := by
  obtain ⟨after, ordered⟩ := List.pairwise_cons.mp cuts.ordered
  exact
    { begins := (cuts.places edit List.mem_cons_self).2
      behind := after
      places := fun other member => cuts.places other (List.mem_cons_of_mem _ member)
      ordered }

/-- The statement with its edits, put together from slices: what was copied so far ends at
    `copied`, and the rest behind the last edit. -/
def copySlices (sql : String) (copied : Nat) : List Edit → Option String
  | [] => Text.slice? sql copied sql.utf8ByteSize
  | edit :: rest =>
      (Text.slice? sql copied edit.position).bind fun gap =>
        (copySlices sql edit.stop rest).map fun later => gap ++ ":" ++ edit.name ++ later

theorem copySlices_eq {sql : String} {copied : Nat} {edits : List Edit}
    (cuts : Cuts sql copied edits) :
    copySlices sql copied edits =
      some (String.ofList (splice copied (Text.dropBytes copied sql.toList) edits)) := by
  induction edits generalizing copied with
  | nil => exact Text.slice?_to_end cuts.begins
  | cons edit rest ih =>
      have before := cuts.behind edit List.mem_cons_self
      have gap : Text.slice? sql copied edit.position = some (String.ofList
          (Text.takeBytes (edit.position - copied) (Text.dropBytes copied sql.toList))) :=
        if_pos ⟨before, cuts.begins, (cuts.places edit List.mem_cons_self).1⟩
      have onward := Text.dropBytes_dropBytes cuts.begins
        (Nat.le_trans before (Nat.le_add_right edit.position edit.length))
      rw [copySlices, gap, ih cuts.tail, Option.bind_some, Option.map_some, splice, onward]
      refine congrArg some (String.toList_injective ?_)
      simp [Edit.stop]

/-- The renaming that takes slices, and gives nothing where one of them could not be taken. -/
def renameBySlices (sql : String) (found : Scan) : Option String :=
  if found.hasRepeats then copySlices sql 0 (editsOf found) else some sql

theorem places_edits (naming : Naming) (occurrences : List Occurrence) :
    (naming.edits occurrences).map (fun edit => (edit.position, edit.stop)) =
      occurrences.map fun found => (found.position, found.stop) := by
  induction occurrences generalizing naming with
  | nil => rfl
  | cons first rest ih =>
      rw [Naming.edits, List.map_cons, List.map_cons, ih]
      rfl

theorem exists_of_mem_edits {naming : Naming} {occurrences : List Occurrence} {edit : Edit}
    (member : edit ∈ naming.edits occurrences) :
    ∃ found ∈ occurrences, edit.position = found.position ∧ edit.stop = found.stop := by
  have place := List.mem_map_of_mem (f := fun edit : Edit => (edit.position, edit.stop)) member
  rw [places_edits] at place
  obtain ⟨found, here, same⟩ := List.mem_map.mp place
  exact ⟨found, here, (congrArg Prod.fst same).symm, (congrArg Prod.snd same).symm⟩

theorem cuts_editsOf (sql : String) : Cuts sql 0 (editsOf (scan sql)) where
  begins := Text.isValid_iff.mpr ⟨[], sql.toList, rfl, rfl⟩
  behind _ _ := Nat.zero_le _
  places := by
    intro edit member
    obtain ⟨found, here, position, stop⟩ := exists_of_mem_edits member
    rw [position, stop]
    exact (cutFrom_of_mem_scan (List.mem_filter.mp here).1).isValid
  ordered := by
    let repeats (found : Occurrence) : Bool := 2 ≤ countOf (scan sql).counts found.name
    have places : (((scan sql).occurrences.filter repeats).map fun found =>
        (found.position, found.stop)).Pairwise fun first second => first.2 ≤ second.1 :=
      List.pairwise_map.mpr ((pairwise_scan sql).filter repeats)
    rw [← places_edits ⟨(scan sql).counts.names, .empty⟩] at places
    exact List.pairwise_map.mp places

theorem renameBySlices_scan (sql : String) :
    renameBySlices sql (scan sql) = some (rename sql).sql := by
  unfold renameBySlices rename renameWith
  split
  · rw [copySlices_eq (cuts_editsOf sql), Text.dropBytes_zero]
  · rfl

end Placeholder

end SealedColumns
