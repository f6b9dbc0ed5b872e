import SealedColumns.Proofs.Placeholder.Bytes

/-!
The grammar of a statement: comments, quoted regions, placeholders, and single
bytes for all else. A region may be left open by the end of the statement. Every
text is made of exactly one list of segments, each taken as far as it goes.
-/

namespace SealedColumns.Placeholder

inductive Quote where
  | single
  | double
  | backtick
  deriving DecidableEq

def Quote.mark : Quote → Char
  | single => '\x27'
  | double => '\x22'
  | backtick => '\x60'

def Quote.byte (quote : Quote) : UInt8 := quote.mark.toUInt8

/-- What hides its text from the scan. -/
inductive Region where
  | hash
  | dashes
  | block
  | quoted (quote : Quote)
  deriving DecidableEq

def colon : UInt8 := ':'.toUInt8
def newline : UInt8 := '\n'.toUInt8
def star : UInt8 := '*'.toUInt8
def slash : UInt8 := '/'.toUInt8

/-- Bytes other than the quote, and quotes in pairs. -/
inductive Doubled (quote : UInt8) : List UInt8 → Prop where
  | nil : Doubled quote []
  | byte {first : UInt8} {rest : List UInt8} :
      first ≠ quote → Doubled quote rest → Doubled quote (first :: rest)
  | pair {rest : List UInt8} : Doubled quote rest → Doubled quote (quote :: quote :: rest)

namespace Region

def opener : Region → List UInt8
  | hash => ['#'.toUInt8]
  | dashes => ['-'.toUInt8, '-'.toUInt8]
  | block => [slash, star]
  | quoted quote => [quote.byte]

def closer : Region → List UInt8
  | hash | dashes => [newline]
  | block => [star, slash]
  | quoted quote => [quote.byte]

/-- The bytes that leave the region open. -/
def Inside : Region → List UInt8 → Prop
  | hash, body | dashes, body => newline ∉ body
  | block, body => ¬ [star, slash] <:+: body
  | quoted quote, body => Doubled quote.byte body

/-- What may stand behind the closer: a quote would be the second of a pair. -/
def Ends : Region → List UInt8 → Prop
  | quoted quote, rest => rest.head? ≠ some quote.byte
  | _, _ => True

/-- What may stand behind the bytes of a region. -/
def Follows (region : Region) (tail : List UInt8) : Prop :=
  tail = [] ∨ ∃ rest, tail = region.closer ++ rest ∧ region.Ends rest

end Region

inductive Segment where
  | region (kind : Region) (body : List UInt8) (closed : Bool)
  | placeholder (name : String)
  | other (byte : UInt8)
  deriving DecidableEq

namespace Segment

def written : Segment → List UInt8
  | region kind body true => kind.opener ++ body ++ kind.closer
  | region kind body false => kind.opener ++ body
  | placeholder name => colon :: Text.bytes name
  | other byte => [byte]

def writtenAll (segments : List Segment) : List UInt8 := segments.flatMap written

def name? : Segment → Option String
  | placeholder name => some name
  | _ => none

def names (segments : List Segment) : List String := segments.filterMap name?

/-- The placeholder that a segment at `position` is. -/
def found (position : Nat) (segment : Segment) : List Occurrence :=
  segment.name?.toList.map (⟨position, segment.written.length, ·⟩)

def placed (position : Nat) : List Segment → List Occurrence
  | [] => []
  | segment :: rest =>
      segment.found position ++ placed (position + segment.written.length) rest

/-- Whether a colon opens a placeholder. The colon of a cast does not. -/
def StartsName (before : Option UInt8) (rest : List UInt8) : Prop :=
  before ≠ some colon ∧ (rest.head?.map Char.ofUInt8).any isNameStart = true

/-- Whether a segment is what the text makes of its first bytes: `before` is the
    byte in front of it, `rest` the text behind it. -/
def Fits (before : Option UInt8) (segment : Segment) (rest : List UInt8) : Prop :=
  match segment with
  | region kind body true => kind.Inside body ∧ kind.Ends rest
  | region kind body false => kind.Inside body ∧ rest = []
  | placeholder name =>
      before ≠ some colon ∧ ProperName name ∧ rest.head?.any isNameByte = false
  | other byte =>
      (∀ kind : Region, ¬ kind.opener <+: byte :: rest)
        ∧ ¬ (byte = colon ∧ StartsName before rest)

def AllFit (before : Option UInt8) : List Segment → Prop
  | [] => True
  | segment :: rest =>
      segment.Fits before (writtenAll rest) ∧ AllFit segment.written.getLast? rest

end Segment

/-- The segments of a text. -/
structure Segmentation (text : List UInt8) (segments : List Segment) : Prop where
  written : Segment.writtenAll segments = text
  fits : Segment.AllFit none segments

/-! Marks. -/

theorem Quote.isQuote_mark (quote : Quote) : isQuote quote.mark = true := by
  cases quote <;> rfl

theorem Quote.ascii_mark (quote : Quote) : quote.mark.toNat < 128 :=
  ascii_of_isQuote quote.isQuote_mark

theorem Quote.ofUInt8_byte (quote : Quote) : Char.ofUInt8 quote.byte = quote.mark :=
  ofUInt8_toUInt8 quote.ascii_mark

theorem exists_quote {c : Char} (quote : isQuote c = true) : ∃ mark : Quote, mark.mark = c := by
  simp only [isQuote, Bool.or_eq_true, beq_iff_eq] at quote
  rcases quote with (rfl | rfl) | rfl
  · exact ⟨.single, rfl⟩
  · exact ⟨.double, rfl⟩
  · exact ⟨.backtick, rfl⟩

namespace Region

/-- The first byte of an opener says which region it opens. -/
theorem eq_of_head?_opener {region other : Region}
    (same : region.opener.head? = other.opener.head?) : region = other := by
  revert same
  rcases region with _ | _ | _ | (_ | _ | _) <;>
    rcases other with _ | _ | _ | (_ | _ | _) <;> decide

theorem opener_ne_nil (region : Region) : region.opener ≠ [] := by
  cases region <;> simp [opener]

theorem closer_ne_nil (region : Region) : region.closer ≠ [] := by
  cases region <;> simp [closer]

theorem head?_opener_append (region : Region) (text : List UInt8) :
    (region.opener ++ text).head? = region.opener.head? := by
  cases region <;> rfl

theorem head?_opener_ne_colon (region : Region) : region.opener.head? ≠ some colon := by
  rcases region with _ | _ | _ | (_ | _ | _) <;> decide

theorem getLast?_closer_ne_colon (region : Region) : region.closer.getLast? ≠ some colon := by
  rcases region with _ | _ | _ | (_ | _ | _) <;> decide

/-! How far a region goes. -/

theorem doubled_cons_iff (quote first : UInt8) (rest : List UInt8) :
    Doubled quote (first :: rest) ↔
      (first ≠ quote ∧ Doubled quote rest)
        ∨ (first = quote ∧ ∃ more, rest = quote :: more ∧ Doubled quote more) := by
  constructor
  · intro doubled
    cases doubled with
    | byte different later => exact .inl ⟨different, later⟩
    | pair later => exact .inr ⟨rfl, _, rfl, later⟩
  · rintro (⟨different, later⟩ | ⟨rfl, more, rfl, later⟩)
    · exact .byte different later
    · exact .pair later

theorem exists_line (text : List UInt8) :
    ∃ body tail, text = body ++ tail ∧ newline ∉ body
      ∧ (tail = [] ∨ ∃ rest, tail = newline :: rest) := by
  induction text with
  | nil => exact ⟨[], [], rfl, List.not_mem_nil, .inl rfl⟩
  | cons byte rest ih =>
      by_cases last : byte = newline
      · exact ⟨[], byte :: rest, rfl, List.not_mem_nil, .inr ⟨rest, last ▸ rfl⟩⟩
      · obtain ⟨body, tail, same, inside, follows⟩ := ih
        refine ⟨byte :: body, tail, by rw [same, List.cons_append], ?_, follows⟩
        simp [Ne.symm last, inside]

theorem exists_block (text : List UInt8) :
    ∃ body tail, text = body ++ tail ∧ ¬ [star, slash] <:+: body
      ∧ (tail = [] ∨ ∃ rest, tail = star :: slash :: rest) := by
  induction text with
  | nil => exact ⟨[], [], rfl, by simp, .inl rfl⟩
  | cons byte rest ih =>
      by_cases last : [star, slash] <+: byte :: rest
      · obtain ⟨more, same⟩ := last
        exact ⟨[], byte :: rest, rfl, by simp, .inr ⟨more, same.symm⟩⟩
      · obtain ⟨body, tail, same, inside, follows⟩ := ih
        refine ⟨byte :: body, tail, by rw [same, List.cons_append], ?_, follows⟩
        rw [List.infix_cons_iff, not_or]
        -- A closer at the front of the body would be one at the front of the text.
        exact ⟨fun early => last (early.trans (by simp [same])), inside⟩

theorem exists_quoted (quote : UInt8) (text : List UInt8) :
    ∃ body tail, text = body ++ tail ∧ Doubled quote body
      ∧ (tail = [] ∨ ∃ rest, tail = quote :: rest ∧ rest.head? ≠ some quote) := by
  induction size : text.length using Nat.strong_induction_on generalizing text with
  | _ size ih =>
    cases text with
    | nil => exact ⟨[], [], rfl, .nil, .inl rfl⟩
    | cons byte rest =>
        by_cases marked : byte = quote
        · by_cases paired : rest.head? = some quote
          · cases rest with
            | nil => simp at paired
            | cons second more =>
                obtain ⟨body, tail, same, inside, follows⟩ :=
                  ih more.length (by simp at size; omega) more rfl
                have second : second = quote := by simpa using paired
                refine ⟨quote :: quote :: body, tail, ?_, .pair inside, follows⟩
                rw [marked, second, same, List.cons_append, List.cons_append]
          · exact ⟨[], byte :: rest, rfl, .nil, .inr ⟨rest, marked ▸ rfl, paired⟩⟩
        · obtain ⟨body, tail, same, inside, follows⟩ :=
            ih rest.length (by simp at size; omega) rest rfl
          exact ⟨byte :: body, tail, by rw [same, List.cons_append], .byte marked inside, follows⟩

theorem exists_body (region : Region) (text : List UInt8) :
    ∃ body tail, text = body ++ tail ∧ region.Inside body ∧ region.Follows tail := by
  cases region with
  | hash | dashes =>
      obtain ⟨body, tail, same, inside, follows⟩ := exists_line text
      exact ⟨body, tail, same, inside,
        follows.imp_right fun ⟨rest, behind⟩ => ⟨rest, behind, trivial⟩⟩
  | block =>
      obtain ⟨body, tail, same, inside, follows⟩ := exists_block text
      exact ⟨body, tail, same, inside,
        follows.imp_right fun ⟨rest, behind⟩ => ⟨rest, behind, trivial⟩⟩
  | quoted quote => exact exists_quoted quote.byte text

theorem doubled_of_append {quote : UInt8} {body more : List UInt8}
    (inside : Doubled quote body) (whole : Doubled quote (body ++ more)) :
    Doubled quote more := by
  induction inside with
  | nil => exact whole
  | byte different _ ih =>
      rw [List.cons_append, doubled_cons_iff] at whole
      rcases whole with ⟨-, later⟩ | ⟨same, -⟩
      · exact ih later
      · exact absurd same different
  | pair _ ih =>
      rw [List.cons_append, List.cons_append, doubled_cons_iff] at whole
      rcases whole with ⟨different, -⟩ | ⟨-, rest, same, later⟩
      · exact absurd rfl different
      · exact ih ((List.cons.inj same).2 ▸ later)

theorem inside_of_append {region : Region} {body more : List UInt8}
    (inside : region.Inside body) (whole : region.Inside (body ++ more)) :
    region.Inside more := by
  cases region with
  | hash | dashes => exact fun member => whole (List.mem_append_right body member)
  | block => exact fun early => whole (early.trans (List.suffix_append body more).isInfix)
  | quoted quote => exact doubled_of_append inside whole

theorem nil_of_follows {region : Region} {body tail : List UInt8}
    (inside : region.Inside body) (follows : region.Follows tail)
    (whole : region.Follows (body ++ tail)) : body = [] := by
  rcases whole with empty | ⟨rest, closes, ends⟩
  · exact (List.append_eq_nil_iff.mp empty).1
  cases body with
  | nil => rfl
  | cons first more =>
      exfalso
      cases region with
      | hash | dashes =>
          have last : first = newline := (List.cons.inj closes).1
          exact inside (by simp [last])
      | block =>
          simp only [closer, List.cons_append, List.nil_append, List.cons.injEq] at closes
          obtain ⟨rfl, behind⟩ := closes
          cases more with
          | nil =>
              rcases follows with rfl | ⟨rest, rfl, -⟩
              · exact absurd behind (by simp)
              · exact absurd (List.cons.inj behind).1 (by decide)
          | cons second more =>
              have second : second = slash := (List.cons.inj behind).1
              exact inside ⟨[], more, by simp [second]⟩
      | quoted quote =>
          simp only [closer, List.cons_append, List.nil_append, List.cons.injEq] at closes
          obtain ⟨rfl, behind⟩ := closes
          rcases (doubled_cons_iff _ _ _).mp inside with ⟨different, -⟩ | ⟨-, later, rfl, -⟩
          · exact different rfl
          · exact ends (by rw [← behind, List.cons_append, List.head?_cons])

theorem body_unique {region : Region} {body other tail following : List UInt8}
    (inside : region.Inside body) (follows : region.Follows tail)
    (within : region.Inside other) (comes : region.Follows following)
    (same : body ++ tail = other ++ following) : body = other ∧ tail = following := by
  rcases List.append_eq_append_iff.mp same with ⟨more, rfl, rfl⟩ | ⟨more, rfl, rfl⟩
  · have none := nil_of_follows (inside_of_append inside within) comes follows
    simp [none]
  · have none := nil_of_follows (inside_of_append within inside) follows comes
    simp [none]

end Region

namespace Segment

@[simp] theorem writtenAll_nil : writtenAll [] = [] := rfl

@[simp] theorem writtenAll_cons (segment : Segment) (rest : List Segment) :
    writtenAll (segment :: rest) = segment.written ++ writtenAll rest := rfl

theorem written_region (kind : Region) (body : List UInt8) (closed : Bool) :
    (region kind body closed).written
      = kind.opener ++ (body ++ if closed then kind.closer else []) := by
  cases closed <;> simp [written]

theorem fits_region {before : Option UInt8} {kind : Region} {body rest : List UInt8}
    {closed : Bool} (fits : (region kind body closed).Fits before rest) :
    kind.Inside body ∧ kind.Follows ((if closed then kind.closer else []) ++ rest) := by
  cases closed with
  | true => exact ⟨fits.1, .inr ⟨rest, rfl, fits.2⟩⟩
  | false => exact ⟨fits.1, .inl (by simp [fits.2])⟩

theorem written_ne_nil (segment : Segment) : segment.written ≠ [] := by
  cases segment with
  | region kind body closed => simp [written_region, kind.opener_ne_nil]
  | _ => simp [written]

end Segment

namespace Segment

/-! One list of segments. -/

theorem region_ne_placeholder {kind : Region} {body rest text : List UInt8} {closed : Bool}
    {name : String} :
    (region kind body closed).written ++ rest ≠ (placeholder name).written ++ text := by
  intro same
  have first := congrArg List.head? same
  rw [written_region, List.append_assoc, kind.head?_opener_append] at first
  exact kind.head?_opener_ne_colon first

theorem region_ne_other {before : Option UInt8} {kind : Region} {body rest text : List UInt8}
    {closed : Bool} {byte : UInt8} (fits : (other byte).Fits before text) :
    (region kind body closed).written ++ rest ≠ (other byte).written ++ text := by
  intro same
  rw [written_region, List.append_assoc] at same
  exact fits.1 kind ⟨_, same⟩

theorem placeholder_ne_other {before : Option UInt8} {name : String} {rest text : List UInt8}
    {byte : UInt8} (named : (placeholder name).Fits before rest)
    (fits : (other byte).Fits before text) :
    (placeholder name).written ++ rest ≠ (other byte).written ++ text := by
  intro same
  obtain ⟨rfl, rfl⟩ := List.cons.inj same
  exact fits.2 ⟨rfl, named.1, head?_bytes_append named.2.1 rest⟩

theorem first_unique {before : Option UInt8} {segment another : Segment}
    {rest following : List UInt8} (fits : segment.Fits before rest)
    (fit : another.Fits before following)
    (same : segment.written ++ rest = another.written ++ following) :
    segment = another ∧ rest = following := by
  cases segment with
  | region kind body closed =>
      cases another with
      | region also within ended =>
          simp only [written_region, List.append_assoc] at same
          have first := congrArg List.head? same
          rw [kind.head?_opener_append, also.head?_opener_append] at first
          obtain rfl := Region.eq_of_head?_opener first
          have behind := List.append_cancel_left same
          obtain ⟨rfl, tails⟩ := Region.body_unique (fits_region fits).1 (fits_region fits).2
            (fits_region fit).1 (fits_region fit).2 behind
          -- A region that is closed goes on behind its bytes, one left open does not.
          cases closed <;> cases ended <;>
            simp_all [Fits, List.append_eq_nil_iff, Region.closer_ne_nil]
      | placeholder name => exact absurd same region_ne_placeholder
      | other byte => exact absurd same (region_ne_other fit)
  | placeholder name =>
      cases another with
      | region kind body closed => exact absurd same.symm region_ne_placeholder
      | placeholder also =>
          have behind := (List.cons.inj same).2
          have letters : name.toList = also.toList := by
            rw [← takeWhile_bytes fits.2.1.2 fits.2.2, ← takeWhile_bytes fit.2.1.2 fit.2.2]
            exact congrArg (fun text => (text.takeWhile isNameByte).map Char.ofUInt8) behind
          obtain rfl := String.toList_injective letters
          exact ⟨rfl, List.append_cancel_left behind⟩
      | other byte => exact absurd same (placeholder_ne_other fits fit)
  | other byte =>
      cases another with
      | region kind body closed => exact absurd same.symm (region_ne_other fits)
      | placeholder name => exact absurd same.symm (placeholder_ne_other fit fits)
      | other also =>
          obtain ⟨rfl, rfl⟩ := List.cons.inj same
          exact ⟨rfl, rfl⟩

theorem segments_unique {before : Option UInt8} {segments others : List Segment}
    (fits : AllFit before segments) (fit : AllFit before others)
    (same : writtenAll segments = writtenAll others) : segments = others := by
  induction segments generalizing before others with
  | nil =>
      cases others with
      | nil => rfl
      | cons another following =>
          have empty := (List.append_eq_nil_iff.mp same.symm).1
          exact absurd empty another.written_ne_nil
  | cons segment rest ih =>
      cases others with
      | nil => exact absurd (List.append_eq_nil_iff.mp same).1 segment.written_ne_nil
      | cons another following =>
          obtain ⟨rfl, later⟩ := first_unique fits.1 fit.1 same
          rw [ih fits.2 fit.2 later]

theorem exists_placeholder {before : Option UInt8} {text : List UInt8}
    (names : StartsName before text) :
    ∃ name rest, (placeholder name).written ++ rest = colon :: text
      ∧ (placeholder name).Fits before rest := by
  have letters : ∀ byte ∈ text.takeWhile isNameByte, isNameByte byte = true :=
    fun byte member => List.all_eq_true.mp List.all_takeWhile byte member
  refine ⟨String.ofList ((text.takeWhile isNameByte).map Char.ofUInt8),
    text.dropWhile isNameByte, ?_, names.1, ⟨?_, ?_⟩, ?_⟩
  · rw [written, bytes_eq_encoding, String.toList_ofList, encoding_letters letters,
      List.cons_append, List.takeWhile_append_dropWhile]
  · have starts := names.2
    cases text with
    | nil => simp at starts
    | cons byte more =>
        have starts : isNameStart (Char.ofUInt8 byte) = true := by simpa using starts
        simp [isNameByte, isNameChar_of_isNameStart starts, starts]
  · rw [String.toList_ofList]
    intro c member
    obtain ⟨byte, here, rfl⟩ := List.mem_map.mp member
    exact letters byte here
  · have stop := List.head?_dropWhile_not isNameByte text
    cases ahead : (text.dropWhile isNameByte).head? with
    | none => rfl
    | some byte => simpa [ahead] using stop

theorem exists_first (before : Option UInt8) (byte : UInt8) (text : List UInt8) :
    ∃ segment rest, written segment ++ rest = byte :: text ∧ segment.Fits before rest := by
  by_cases opens : ∃ kind : Region, kind.opener <+: byte :: text
  · obtain ⟨kind, behind, same⟩ := opens
    obtain ⟨body, tail, rfl, inside, follows⟩ := kind.exists_body behind
    rcases follows with rfl | ⟨rest, rfl, ends⟩
    · exact ⟨region kind body false, [], by simpa [written] using same, inside, rfl⟩
    · exact ⟨region kind body true, rest, by simpa [written] using same, inside, ends⟩
  by_cases names : byte = colon ∧ StartsName before text
  · obtain ⟨rfl, names⟩ := names
    obtain ⟨name, rest, same, fits⟩ := exists_placeholder names
    exact ⟨placeholder name, rest, same, fits⟩
  · exact ⟨other byte, text, rfl, not_exists.mp opens, names⟩

theorem exists_segments (before : Option UInt8) (text : List UInt8) :
    ∃ segments, writtenAll segments = text ∧ AllFit before segments := by
  induction size : text.length using Nat.strong_induction_on generalizing before text with
  | _ count ih =>
    cases text with
    | nil => exact ⟨[], rfl, trivial⟩
    | cons byte more =>
        obtain ⟨segment, rest, same, fits⟩ := exists_first before byte more
        have shorter : rest.length < count := by
          have longer := List.length_pos_iff.mpr segment.written_ne_nil
          rw [← size, ← same, List.length_append]
          omega
        obtain ⟨segments, written, later⟩ :=
          ih rest.length shorter segment.written.getLast? rest rfl
        refine ⟨segment :: segments, by rw [writtenAll_cons, written, same], ?_, later⟩
        rwa [written]

end Segment

end SealedColumns.Placeholder
