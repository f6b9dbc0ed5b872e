import SealedColumns.Proofs.Placeholder.Grammar

/-!
Text that hides what it holds. A blank ends whatever the text in front of it can end,
and nothing goes on behind it. So a closed quote or comment between two blanks is one
segment, the texts around it are read as if each stood alone, and what the quote or
comment holds does not matter.
-/

namespace SealedColumns.Placeholder

def space : UInt8 := ' '.toUInt8

namespace Region

def openMark : Region → String
  | hash => "#"
  | dashes => "--"
  | block => "/*"
  | quoted quote => String.singleton quote.mark

def closeMark : Region → String
  | hash | dashes => "\n"
  | block => "*/"
  | quoted quote => String.singleton quote.mark

/-- The content between the marks of the region. -/
def enclose (region : Region) (content : String) : String :=
  region.openMark ++ content ++ region.closeMark

end Region

/-- A segment that the end of the text did not cut off. -/
def Segment.Shut : Segment → Prop
  | region _ _ closed => closed = true
  | _ => True

/-- No quote and no comment is open at the end of the text. -/
def EndsOutside (text : String) : Prop :=
  ∃ segments, Segmentation (Text.bytes text) segments ∧ ∀ segment ∈ segments, segment.Shut

def Occurrence.moved (distance : Nat) (found : Occurrence) : Occurrence :=
  { found with position := found.position + distance }

/-! The bytes of joined texts. -/

theorem bytes_openMark (region : Region) : Text.bytes region.openMark = region.opener := by
  rcases region with _ | _ | _ | (_ | _ | _) <;> decide +kernel

theorem bytes_closeMark (region : Region) : Text.bytes region.closeMark = region.closer := by
  rcases region with _ | _ | _ | (_ | _ | _) <;> decide +kernel

theorem bytes_enclose (region : Region) (content : String) :
    Text.bytes (region.enclose content) =
      (Segment.region region (Text.bytes content) true).written := by
  rw [Region.enclose, bytes_append, bytes_append, bytes_openMark, bytes_closeMark, Segment.written]

/-! A blank behind a segment. -/

/-- What holds of the first byte of a text, and of a blank if there is none. -/
theorem head?_append_space (holds : Option UInt8 → Prop) {rest : List UInt8}
    (blank : holds none → holds (some space)) (here : holds rest.head?) (more : List UInt8) :
    holds (rest ++ space :: more).head? := by
  cases rest with
  | nil => exact blank here
  | cons byte later => exact here

theorem Region.opener_prefix_iff (region : Region) (byte : UInt8) (rest : List UInt8) :
    region.opener <+: byte :: rest ↔
      region.opener.head? = some byte ∧ ∀ second ∈ region.opener[1]?, rest.head? = some second := by
  cases region with
  | hash | quoted quote => simp [opener, List.cons_prefix_cons]
  | dashes | block => cases rest <;> simp [opener, List.cons_prefix_cons, eq_comm]

theorem Quote.byte_ne_space (quote : Quote) : quote.byte ≠ space := by
  cases quote <;> decide

theorem Region.second_ne_space (region : Region) : region.opener[1]? ≠ some space := by
  rcases region with _ | _ | _ | (_ | _ | _) <;> decide

namespace Segment

theorem fits_append_space {before : Option UInt8} {segment : Segment} {rest : List UInt8}
    (fits : segment.Fits before rest) (shut : segment.Shut) (more : List UInt8) :
    segment.Fits before (rest ++ space :: more) := by
  cases segment with
  | region kind body closed =>
      obtain rfl : closed = true := shut
      refine ⟨fits.1, ?_⟩
      cases kind with
      | hash | dashes | block => trivial
      | quoted quote =>
          refine head?_append_space (· ≠ some quote.byte) ?_ fits.2 more
          exact fun _ same => quote.byte_ne_space (Option.some.inj same).symm
  | placeholder name =>
      refine ⟨fits.1, fits.2.1, ?_⟩
      exact head?_append_space (fun ahead => ahead.any isNameByte = false)
        (fun _ => by decide) fits.2.2 more
  | other byte =>
      obtain ⟨unopened, unnamed⟩ := fits
      constructor
      · intro kind opens
        refine unopened kind ((kind.opener_prefix_iff byte rest).mpr ?_)
        obtain ⟨first, second⟩ := (kind.opener_prefix_iff byte _).mp opens
        refine ⟨first, fun mark here => ?_⟩
        -- The second byte of an opener is not a blank, so it stood there before.
        cases rest with
        | nil =>
            have blank : mark = space := (Option.some.inj (second mark here)).symm
            exact absurd (blank ▸ here) kind.second_ne_space
        | cons ahead later => exact second mark here
      · rintro ⟨mark, front, starts⟩
        refine unnamed ⟨mark, front, ?_⟩
        cases rest with
        | nil =>
            have named : isNameStart (Char.ofUInt8 space) = true := starts
            exact absurd named (by decide)
        | cons ahead later => exact starts

/-- Behind a blank a text is read from the start. -/
theorem occurrencesInBytes_space (before : Option UInt8) (position : Nat) (text : List UInt8) :
    occurrencesInBytes (modeAfter before) position (space :: text) =
      occurrencesInBytes .start (position + 1) text := by
  rw [modeAfter, occurrencesInBytes_cons]
  · rfl
  · cases before == some colon <;> rfl

/-- Segments that are shut are read to their end, whatever stands behind the blank. -/
theorem occurrencesInBytes_writtenAll_space {before : Option UInt8} {segments : List Segment}
    (fits : AllFit before segments) (shut : ∀ segment ∈ segments, segment.Shut) (position : Nat)
    (text : List UInt8) :
    occurrencesInBytes (modeAfter before) position (writtenAll segments ++ space :: text) =
      placed position segments
        ++ occurrencesInBytes .start (position + (writtenAll segments).length + 1) text := by
  induction segments generalizing before position with
  | nil => exact occurrencesInBytes_space before position text
  | cons segment rest ih =>
      have fit := fits_append_space fits.1 (shut segment (by simp)) text
      rw [writtenAll_cons, List.append_assoc, occurrencesInBytes_segment fit,
        ih fits.2 fun other member => shut other (by simp [member]), placed, List.append_assoc,
        List.length_append, Nat.add_assoc position]

end Segment

/-! Texts that stand elsewhere. -/

theorem occurrencesInBytes_moved (mode : Mode) (position distance : Nat) (text : List UInt8) :
    occurrencesInBytes mode (position + distance) text =
      (occurrencesInBytes mode position text).map (·.moved distance) := by
  induction text generalizing mode position with
  | nil => rfl
  | cons byte rest ih =>
      simp only [occurrencesInBytes, Nat.add_right_comm position distance 1, ih]
      split <;> rfl

theorem counts_append (front back : List String) (name : String) :
    (countNames (front ++ back)).get? name =
      Option.merge (· + ·) ((countNames front).get? name) ((countNames back).get? name) := by
  simp only [get?_countNames, List.mem_append, List.count_append]
  by_cases before : name ∈ front <;> by_cases after : name ∈ back <;>
    simp [before, after, List.count_eq_zero_of_not_mem]

/-- Around a quote or a comment that stands between blanks, a statement has the
    placeholders of the text before it and, further on by the bytes in front of them, those
    of the text behind it, and counts both; what the region holds has no part in it. -/
theorem scan_around_region {front : String} (outside : EndsOutside front) {region : Region}
    {content : String} (inside : region.Inside (Text.bytes content)) (back : String) :
    let lead := front ++ " " ++ region.enclose content ++ " "
    (scan (lead ++ back)).occurrences =
        (scan front).occurrences ++ (scan back).occurrences.map (·.moved lead.utf8ByteSize)
    ∧ ∀ name, (scan (lead ++ back)).counts.get? name =
        Option.merge (· + ·) ((scan front).counts.get? name) ((scan back).counts.get? name) := by
  intro lead
  obtain ⟨segments, ⟨written, fits⟩, shut⟩ := outside
  let hidden := Segment.region region (Text.bytes content) true
  have blank : Text.bytes " " = [space] := by decide +kernel
  have bytes : Text.bytes (lead ++ back) =
      Segment.writtenAll segments ++ space :: (hidden.written ++ space :: Text.bytes back) := by
    simp only [lead, bytes_append, bytes_enclose, blank, written, hidden, List.append_assoc,
      List.cons_append, List.nil_append]
  have size : lead.utf8ByteSize =
      (Segment.writtenAll segments).length + 1 + hidden.written.length + 1 := by
    rw [← length_bytes]
    simp only [lead, bytes_append, bytes_enclose, blank, written, hidden, List.length_append,
      List.length_singleton]
  have alone : hidden.Fits none [] := ⟨inside, by cases region <;> simp [Region.Ends]⟩
  have fit : hidden.Fits none (space :: Text.bytes back) :=
    Segment.fits_append_space alone rfl (Text.bytes back)
  have occurrences : (scan (lead ++ back)).occurrences =
      (scan front).occurrences ++ (scan back).occurrences.map (·.moved lead.utf8ByteSize) := by
    have first : (scan front).occurrences = Segment.placed 0 segments := by
      rw [scan_eq_occurrencesInBytes, ← written]
      exact Segment.occurrencesInBytes_writtenAll fits 0
    rw [scan_eq_occurrencesInBytes, bytes, first, scan_eq_occurrencesInBytes,
      ← occurrencesInBytes_moved, Nat.zero_add, size]
    have read := Segment.occurrencesInBytes_writtenAll_space fits shut 0
      (hidden.written ++ space :: Text.bytes back)
    rw [Nat.zero_add] at read
    refine read.trans (congrArg (Segment.placed 0 segments ++ ·) ?_)
    -- The region is read as one segment that finds nothing.
    exact (Segment.occurrencesInBytes_segment fit _).trans
      (Segment.occurrencesInBytes_space _ _ _)
  refine ⟨occurrences, fun name => ?_⟩
  have names : (scan (lead ++ back)).occurrences.map (·.name) =
      (scan front).occurrences.map (·.name) ++ (scan back).occurrences.map (·.name) := by
    rw [occurrences, List.map_append, List.map_map]
    rfl
  change (countNames ((scan (lead ++ back)).occurrences.map (·.name))).get? name = _
  rw [names]
  exact counts_append _ _ name

/-- The slash and the star next to the marks of a comment do not close it, and what looks
    like a placeholder, a quote or a comment in it is none. -/
theorem scan_around_block :
    let lead := "'b' :a" ++ " " ++ Region.block.enclose "/ it's :x -- *" ++ " "
    (scan (lead ++ ":a")).occurrences = [⟨4, 2, "a"⟩, ⟨26, 2, "a"⟩]
    ∧ (scan (lead ++ ":a")).counts.get? "a" = some 2
    ∧ (scan (lead ++ ":a")).counts.get? "x" = none := by
  have fits : Segment.AllFit none
      [.region (.quoted .single) ['b'.toUInt8] true, .other space, .placeholder "a"] := by
    have ends : some space ≠ some Quote.single.byte := by decide
    have letter : 'b'.toUInt8 ≠ Quote.single.byte := by decide
    have proper : ProperName "a" := by
      refine ⟨by decide, fun c member => ?_⟩
      rw [List.mem_singleton.mp member]
      decide
    refine ⟨⟨.byte letter .nil, ends⟩, ⟨?_, fun both => absurd both.1 (by decide)⟩, ?_, trivial⟩
    · rintro (_ | _ | _ | (_ | _ | _)) <;> decide +kernel
    · exact ⟨by decide, proper, by decide⟩
  have outside : EndsOutside "'b' :a" := ⟨_, ⟨by decide +kernel, fits⟩, by simp [Segment.Shut]⟩
  have inside : Region.block.Inside (Text.bytes "/ it's :x -- *") := by
    rw [Region.Inside]
    decide +kernel
  obtain ⟨occurrences, counts⟩ := scan_around_region outside inside ":a"
  refine ⟨occurrences.trans ?_, (counts "a").trans ?_, (counts "x").trans ?_⟩ <;> decide +kernel

end SealedColumns.Placeholder
