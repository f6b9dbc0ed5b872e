import SealedColumns.Proofs.Placeholder.Segments

/-!
The scan read as a grammar. Behind the opener of a region the reader is in a mode
that the bytes inside keep and the closer ends; in front of a segment it only
remembers whether the last byte was a colon. So it walks through a statement
segment by segment and finds the placeholders among them.
-/

namespace SealedColumns.Placeholder

theorem occurrencesInBytes_cons {mode : Mode} {byte : UInt8} {rest : List UInt8}
    (shut : mode.opens (Char.ofUInt8 byte) (rest.head?.map Char.ofUInt8) = false)
    (position : Nat) :
    occurrencesInBytes mode position (byte :: rest) =
      occurrencesInBytes (mode.next (Char.ofUInt8 byte) (rest.head?.map Char.ofUInt8))
        (position + 1) rest := by
  rw [occurrencesInBytes]
  simp [shut]

namespace Region

/-- The mode between the marks of a region. -/
def mode : Region → Mode
  | hash | dashes => .line
  | block => .block
  | quoted quote => .quoted quote.mark

theorem occurrencesInBytes_opener (region : Region) (afterColon : Bool) (position : Nat)
    (text : List UInt8) :
    occurrencesInBytes (.plain afterColon) position (region.opener ++ text) =
      occurrencesInBytes region.mode (position + region.opener.length) text := by
  cases region with
  | hash =>
      rw [opener, List.singleton_append, occurrencesInBytes_cons (by cases afterColon <;> rfl)]
      rfl
  | dashes =>
      rw [opener, List.cons_append, occurrencesInBytes_cons (by cases afterColon <;> rfl),
        List.singleton_append, occurrencesInBytes_cons (by rfl)]
      rfl
  | block =>
      rw [opener, List.cons_append, occurrencesInBytes_cons (by cases afterColon <;> rfl),
        List.singleton_append, occurrencesInBytes_cons (by rfl)]
      rfl
  | quoted quote =>
      rw [opener, List.singleton_append, occurrencesInBytes_cons
        (by cases quote <;> cases afterColon <;> rfl)]
      cases quote <;> rfl

theorem occurrencesInBytes_line {body : List UInt8} (inside : newline ∉ body) (position : Nat)
    (tail : List UInt8) :
    occurrencesInBytes .line position (body ++ tail) =
      occurrencesInBytes .line (position + body.length) tail := by
  induction body generalizing position with
  | nil => rfl
  | cons byte rest ih =>
      rw [List.mem_cons, not_or] at inside
      obtain ⟨different, later⟩ := inside
      have stays : Char.ofUInt8 byte ≠ '\n' :=
        fun same => different ((ofUInt8_eq_iff (by decide) byte).mp same).symm
      rw [List.cons_append, occurrencesInBytes_cons rfl, Mode.next, if_neg stays, ih later,
        List.length_cons, Nat.add_assoc, Nat.add_comm 1]

theorem occurrencesInBytes_block {body tail : List UInt8} (inside : ¬ [star, slash] <:+: body)
    (follows : tail.head? ≠ some slash) (position : Nat) :
    occurrencesInBytes .block position (body ++ tail) =
      occurrencesInBytes .block (position + body.length) tail := by
  induction body generalizing position with
  | nil => rfl
  | cons byte rest ih =>
      rw [List.infix_cons_iff, not_or] at inside
      have stays : ¬ (Char.ofUInt8 byte = '*'
          ∧ (rest ++ tail).head?.map Char.ofUInt8 = some '/') := by
        rw [ofUInt8_eq_iff (by decide), map_ofUInt8_eq_iff (by decide)]
        rintro ⟨rfl, behind⟩
        cases rest with
        | nil => exact follows behind
        | cons second more =>
            obtain rfl := Option.some.inj behind
            exact inside.1 ⟨more, rfl⟩
      rw [List.cons_append, occurrencesInBytes_cons rfl, Mode.next, if_neg stays, ih inside.2,
        List.length_cons, Nat.add_assoc, Nat.add_comm 1]

theorem occurrencesInBytes_doubled {quote : Quote} {body : List UInt8}
    (inside : Doubled quote.byte body) (position : Nat) (tail : List UInt8) :
    occurrencesInBytes (.quoted quote.mark) position (body ++ tail) =
      occurrencesInBytes (.quoted quote.mark) (position + body.length) tail := by
  induction inside generalizing position with
  | nil => rfl
  | @byte first rest different _ ih =>
      have stays : Char.ofUInt8 first ≠ quote.mark :=
        fun same => different ((ofUInt8_eq_iff quote.ascii_mark first).mp same)
      rw [List.cons_append, occurrencesInBytes_cons rfl, Mode.next, if_pos stays, ih,
        List.length_cons, Nat.add_assoc, Nat.add_comm 1]
  | @pair rest _ ih =>
      -- The first quote sees the second one ahead, which then leads back.
      have escapes : (Mode.quoted quote.mark).next (Char.ofUInt8 quote.byte)
          (some (Char.ofUInt8 quote.byte)) = .escaped quote.mark := by
        simp [Mode.next, quote.ofUInt8_byte]
      rw [List.cons_append, List.cons_append, occurrencesInBytes_cons rfl, List.head?_cons,
        Option.map_some, escapes, occurrencesInBytes_cons rfl, Mode.next, ih]
      congr 1
      simp only [List.length_cons]
      omega

theorem occurrencesInBytes_body {region : Region} {body tail : List UInt8}
    (inside : region.Inside body) (follows : region.Follows tail) (position : Nat) :
    occurrencesInBytes region.mode position (body ++ tail) =
      occurrencesInBytes region.mode (position + body.length) tail := by
  cases region with
  | hash | dashes => exact occurrencesInBytes_line inside position tail
  | block =>
      refine occurrencesInBytes_block inside ?_ position
      rcases follows with rfl | ⟨rest, rfl, -⟩
      · simp
      · exact fun same => absurd (Option.some.inj same) (by decide)
  | quoted quote => exact occurrencesInBytes_doubled inside position tail

theorem occurrencesInBytes_closer {region : Region} {rest : List UInt8}
    (ends : region.Ends rest) (position : Nat) :
    occurrencesInBytes region.mode position (region.closer ++ rest) =
      occurrencesInBytes (.plain false) (position + region.closer.length) rest := by
  cases region with
  | hash | dashes =>
      rw [closer, List.singleton_append, mode, occurrencesInBytes_cons rfl]
      rfl
  | block =>
      rw [closer, List.cons_append, mode, occurrencesInBytes_cons rfl,
        List.singleton_append, occurrencesInBytes_cons rfl]
      rfl
  | quoted quote =>
      have single : rest.head?.map Char.ofUInt8 ≠ some quote.mark :=
        fun same => ends ((map_ofUInt8_eq_iff quote.ascii_mark _).mp same)
      have leaves : (Mode.quoted quote.mark).next (Char.ofUInt8 quote.byte)
          (rest.head?.map Char.ofUInt8) = .plain false := by
        simp [Mode.next, quote.ofUInt8_byte, single]
      rw [closer, List.singleton_append, mode, occurrencesInBytes_cons rfl, leaves]
      rfl

end Region

theorem occurrencesInBytes_letters {letters : List UInt8}
    (named : ∀ byte ∈ letters, isNameByte byte = true) (position : Nat) (rest : List UInt8) :
    occurrencesInBytes (.plain false) position (letters ++ rest) =
      occurrencesInBytes (.plain false) (position + letters.length) rest := by
  induction letters generalizing position with
  | nil => rfl
  | cons byte more ih =>
      have letter : isNameChar (Char.ofUInt8 byte) = true := named byte (by simp)
      have shut (ahead : Option Char) :
          (Mode.plain false).opens (Char.ofUInt8 byte) ahead = false := by
        have mark := ne_of_isNameChar letter (show isNameChar ':' = false by decide)
        simp [Mode.opens, mark]
      rw [List.cons_append, occurrencesInBytes_cons (shut _), Mode.next_of_isNameChar letter,
        ih (fun other member => named other (by simp [member])), List.length_cons,
        Nat.add_assoc, Nat.add_comm 1]

/-- The first letter leaves the colon behind, the others keep the mode. -/
theorem occurrencesInBytes_name {letters : List UInt8} (nonempty : letters ≠ [])
    (named : ∀ byte ∈ letters, isNameByte byte = true) (position : Nat) (rest : List UInt8) :
    occurrencesInBytes (.plain true) position (letters ++ rest) =
      occurrencesInBytes (.plain false) (position + letters.length) rest := by
  cases letters with
  | nil => exact absurd rfl nonempty
  | cons byte more =>
      have letter : isNameChar (Char.ofUInt8 byte) = true := named byte (by simp)
      rw [List.cons_append, occurrencesInBytes_cons rfl, Mode.next_of_isNameChar letter,
        occurrencesInBytes_letters (fun other member => named other (by simp [member])),
        List.length_cons, Nat.add_assoc, Nat.add_comm 1]

namespace Segment

/-- The mode in front of a segment. -/
def modeAfter (before : Option UInt8) : Mode := .plain (before == some colon)

theorem modeAfter_of_ne {before : Option UInt8} (other : before ≠ some colon) :
    modeAfter before = .plain false := by
  rw [modeAfter, beq_false_of_ne other]

theorem occurrencesInBytes_region {before : Option UInt8} {kind : Region}
    {body rest : List UInt8} {closed : Bool}
    (fits : (region kind body closed).Fits before rest) (position : Nat) :
    occurrencesInBytes (modeAfter before) position ((region kind body closed).written ++ rest) =
      occurrencesInBytes (modeAfter (region kind body closed).written.getLast?)
        (position + (region kind body closed).written.length) rest := by
  obtain ⟨inside, follows⟩ := fits_region fits
  rw [written_region, List.append_assoc, List.append_assoc, modeAfter,
    Region.occurrencesInBytes_opener, Region.occurrencesInBytes_body inside follows]
  cases closed with
  | true =>
      have last : (kind.opener ++ (body ++ kind.closer)).getLast? ≠ some colon := by
        rw [← List.append_assoc, List.getLast?_append_of_ne_nil _ kind.closer_ne_nil]
        exact kind.getLast?_closer_ne_colon
      rw [if_pos rfl, Region.occurrencesInBytes_closer fits.2, modeAfter_of_ne last]
      simp only [List.length_append, Nat.add_assoc]
  | false =>
      obtain rfl := fits.2
      simp [occurrencesInBytes]

theorem occurrencesInBytes_placeholder {before : Option UInt8} {name : String}
    {rest : List UInt8} (fits : (placeholder name).Fits before rest) (position : Nat) :
    occurrencesInBytes (modeAfter before) position ((placeholder name).written ++ rest) =
      ⟨position, (placeholder name).written.length, name⟩
        :: occurrencesInBytes (modeAfter (placeholder name).written.getLast?)
          (position + (placeholder name).written.length) rest := by
  obtain ⟨front, proper, stop⟩ := fits
  have letters (byte : UInt8) (member : byte ∈ Text.bytes name) : isNameByte byte = true :=
    isNameByte_of_mem_bytes proper.2 member
  have nonempty : Text.bytes name ≠ [] := by
    intro empty
    have starts := head?_bytes_append proper []
    simp [empty] at starts
  have last : (placeholder name).written.getLast? ≠ some colon := by
    rw [written, List.getLast?_cons_of_ne_nil nonempty]
    intro same
    exact absurd (letters colon (List.mem_of_getLast? same)) (by decide)
  have opens : (Mode.plain false).opens (Char.ofUInt8 colon)
      ((Text.bytes name ++ rest).head?.map Char.ofUInt8) = true :=
    (Mode.opens_iff _ _ _).mpr ⟨rfl, rfl, head?_bytes_append proper rest⟩
  rw [modeAfter_of_ne front, modeAfter_of_ne last, written, List.cons_append,
    occurrencesInBytes]
  simp only [opens, if_true, takeWhile_bytes proper.2 stop, String.ofList_toList]
  rw [show (Mode.plain false).next (Char.ofUInt8 colon) _ = .plain true from Mode.next_colon _,
    occurrencesInBytes_name nonempty letters, List.length_cons, length_bytes,
    Nat.add_assoc, Nat.add_comm 1]

theorem next_of_fits_other {before : Option UInt8} {byte : UInt8} {rest : List UInt8}
    (fits : (other byte).Fits before rest) (afterColon : Bool) :
    (Mode.plain afterColon).next (Char.ofUInt8 byte) (rest.head?.map Char.ofUInt8)
      = .plain (byte == colon) := by
  have unopened := fits.1
  have quote : ¬ isQuote (Char.ofUInt8 byte) = true := by
    intro opens
    obtain ⟨quote, same⟩ := exists_quote opens
    have byte := (ofUInt8_eq_iff quote.ascii_mark byte).mp same.symm
    exact unopened (.quoted quote) ⟨rest, by rw [byte]; rfl⟩
  have line : ¬ (Char.ofUInt8 byte = '#'
      ∨ (Char.ofUInt8 byte = '-' ∧ rest.head?.map Char.ofUInt8 = some '-')) := by
    rw [ofUInt8_eq_iff (by decide), ofUInt8_eq_iff (by decide), map_ofUInt8_eq_iff (by decide)]
    rintro (rfl | ⟨rfl, ahead⟩)
    · exact unopened .hash ⟨rest, rfl⟩
    · obtain ⟨more, rfl⟩ := List.head?_eq_some_iff.mp ahead
      exact unopened .dashes ⟨more, rfl⟩
  have block : ¬ (Char.ofUInt8 byte = '/' ∧ rest.head?.map Char.ofUInt8 = some '*') := by
    rw [ofUInt8_eq_iff (by decide), map_ofUInt8_eq_iff (by decide)]
    rintro ⟨rfl, ahead⟩
    obtain ⟨more, rfl⟩ := List.head?_eq_some_iff.mp ahead
    exact unopened .block ⟨more, rfl⟩
  have mark : (Char.ofUInt8 byte == ':') = (byte == colon) := by
    rw [Bool.eq_iff_iff, beq_iff_eq, beq_iff_eq]
    exact ofUInt8_eq_iff (by decide) byte
  rw [Mode.next, if_neg quote, if_neg line, if_neg block, mark]

theorem occurrencesInBytes_other {before : Option UInt8} {byte : UInt8} {rest : List UInt8}
    (fits : (other byte).Fits before rest) (position : Nat) :
    occurrencesInBytes (modeAfter before) position ((other byte).written ++ rest) =
      occurrencesInBytes (modeAfter (other byte).written.getLast?)
        (position + (other byte).written.length) rest := by
  have shut : (modeAfter before).opens (Char.ofUInt8 byte) (rest.head?.map Char.ofUInt8)
      = false := by
    rw [Bool.eq_false_iff, ne_eq, Mode.opens_iff]
    rintro ⟨front, mark, starts⟩
    refine fits.2 ⟨(ofUInt8_eq_iff (by decide) byte).mp mark, ?_, starts⟩
    rintro rfl
    simp [modeAfter] at front
  rw [written, List.singleton_append, occurrencesInBytes_cons shut, modeAfter,
    next_of_fits_other fits]
  rfl

/-- What one segment adds to the occurrences, whatever stands behind it. -/
theorem occurrencesInBytes_segment {before : Option UInt8} {segment : Segment}
    {rest : List UInt8} (fits : segment.Fits before rest) (position : Nat) :
    occurrencesInBytes (modeAfter before) position (segment.written ++ rest) =
      segment.found position
        ++ occurrencesInBytes (modeAfter segment.written.getLast?)
          (position + segment.written.length) rest := by
  cases segment with
  | region kind body closed => exact occurrencesInBytes_region fits position
  | placeholder name => exact occurrencesInBytes_placeholder fits position
  | other byte => exact occurrencesInBytes_other fits position

theorem occurrencesInBytes_writtenAll {before : Option UInt8} {segments : List Segment}
    (fits : AllFit before segments) (position : Nat) :
    occurrencesInBytes (modeAfter before) position (writtenAll segments) =
      placed position segments := by
  induction segments generalizing before position with
  | nil => rfl
  | cons segment rest ih =>
      rw [writtenAll_cons, occurrencesInBytes_segment fits.1, ih fits.2, placed]

theorem placed_names (position : Nat) (segments : List Segment) :
    (placed position segments).map (·.name) = names segments := by
  induction segments generalizing position with
  | nil => rfl
  | cons segment rest ih =>
      rw [placed, List.map_append, ih]
      cases segment <;> rfl

end Segment

/-- The scan reads a statement by its grammar: there is one way to split the
    statement into segments, the occurrences are the placeholders among them at
    their places, and the counts say how often each name stands there. -/
theorem scan_reads_grammar (sql : String) :
    ∃ segments, Segmentation (Text.bytes sql) segments
      ∧ (∀ others, Segmentation (Text.bytes sql) others → others = segments)
      ∧ (scan sql).occurrences = Segment.placed 0 segments
      ∧ ∀ name, (scan sql).counts.get? name =
          if name ∈ Segment.names segments then some ((Segment.names segments).count name)
          else none := by
  obtain ⟨segments, written, fits⟩ := Segment.exists_segments none (Text.bytes sql)
  have occurrences : (scan sql).occurrences = Segment.placed 0 segments := by
    rw [scan_eq_occurrencesInBytes, ← written]
    exact Segment.occurrencesInBytes_writtenAll fits 0
  refine ⟨segments, ⟨written, fits⟩, ?_, occurrences, ?_⟩
  · intro others other
    exact Segment.segments_unique other.fits fits (other.written.trans written.symm)
  · intro name
    have names : (scan sql).occurrences.map (·.name) = Segment.names segments := by
      rw [occurrences, Segment.placed_names]
    rw [← names]
    exact get?_countNames _ name

/-- The star of an opener is not that of a closer, and neither colon of a cast opens a name. -/
example : (scan "/*/ :a */ ::b :c").occurrences = [⟨14, 2, "c"⟩] := by decide +kernel

end SealedColumns.Placeholder
