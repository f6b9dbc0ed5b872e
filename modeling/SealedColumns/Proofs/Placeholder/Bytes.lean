import SealedColumns.Proofs.Placeholder.Tokens
import SealedColumns.Text.Utf8

/-!
The scan of a statement read byte by byte. Every mark of the grammar and every
letter of a name is one byte below 128, and the bytes of any other character are
all above. Such bytes neither open nor close anything, so a reader that knows only
bytes goes through the same modes and finds the same placeholders.
-/

namespace SealedColumns.Placeholder

def isNameByte (byte : UInt8) : Bool := isNameChar (Char.ofUInt8 byte)

/-- The placeholders in bytes, the first byte standing at `position`. -/
def occurrencesInBytes (mode : Mode) (position : Nat) : List UInt8 → List Occurrence
  | [] => []
  | byte :: rest =>
      let c := Char.ofUInt8 byte
      let ahead := rest.head?.map Char.ofUInt8
      let later := occurrencesInBytes (mode.next c ahead) (position + 1) rest
      if mode.opens c ahead then
        let name := String.ofList ((rest.takeWhile isNameByte).map Char.ofUInt8)
        ⟨position, 1 + name.utf8ByteSize, name⟩ :: later
      else later

/-- A mode of a reader that has only opened quotes with quotation marks. -/
def Mode.Quoting : Mode → Prop
  | .quoted quote | .escaped quote => isQuote quote = true
  | _ => True

/-- The mode behind a character that is no mark. -/
def Mode.settled : Mode → Mode
  | .plain _ | .blockClose => .plain false
  | .quoted quote | .escaped quote => .quoted quote
  | .line => .line
  | .blockOpen | .block => .block

/-- Two looks ahead at the same mark, or both at none. -/
def SameMark (ahead other : Option Char) : Prop :=
  ∀ mark : Char, mark.toNat < 128 → (ahead = some mark ↔ other = some mark)

theorem ascii_of_isQuote {c : Char} (quote : isQuote c = true) : c.toNat < 128 := by
  simp only [isQuote, Bool.or_eq_true, beq_iff_eq] at quote
  rcases quote with (same | same) | same <;> subst same <;> decide

theorem ascii_of_isNameChar {c : Char} (letter : isNameChar c = true) : c.toNat < 128 := by
  change (((decide ('A'.val ≤ c.val ∧ c.val ≤ 'Z'.val)
    || (decide ('a'.val ≤ c.val) && decide (c.val ≤ 'z'.val)))
    || (decide ('0'.val ≤ c.val) && decide (c.val ≤ '9'.val))) || c == '_') = true at letter
  simp only [Bool.or_eq_true, Bool.and_eq_true, decide_eq_true_eq, beq_iff_eq] at letter
  rcases letter with ((⟨-, upper⟩ | ⟨-, lower⟩) | ⟨-, digit⟩) | rfl
  · exact Nat.lt_of_le_of_lt (UInt32.le_iff_toNat_le.mp upper) (by decide)
  · exact Nat.lt_of_le_of_lt (UInt32.le_iff_toNat_le.mp lower) (by decide)
  · exact Nat.lt_of_le_of_lt (UInt32.le_iff_toNat_le.mp digit) (by decide)
  · decide

theorem ne_of_not_ascii {c mark : Char} (wide : 128 ≤ c.toNat) (ascii : mark.toNat < 128) :
    c ≠ mark := by
  rintro rfl
  exact absurd ascii (Nat.not_lt.mpr wide)

namespace Mode

theorem quoting_next {mode : Mode} (quoting : mode.Quoting) (c : Char) (ahead : Option Char) :
    (mode.next c ahead).Quoting := by
  cases mode with
  | plain afterColon =>
      by_cases quote : isQuote c = true
      · simp [next, quote, Quoting]
      · rw [next, if_neg quote]
        split_ifs <;> trivial
  | quoted quote =>
      simp only [next]
      split_ifs
      · exact quoting
      · exact quoting
      · trivial
  | escaped quote => exact quoting
  | line =>
      simp only [next]
      split_ifs <;> trivial
  | block =>
      simp only [next]
      split_ifs <;> trivial
  | _ => trivial

theorem quoting_settled {mode : Mode} (quoting : mode.Quoting) : mode.settled.Quoting := by
  cases mode <;> exact quoting

@[simp] theorem settled_settled (mode : Mode) : mode.settled.settled = mode.settled := by
  cases mode <;> rfl

theorem next_of_not_ascii {mode : Mode} (quoting : mode.Quoting) {c : Char}
    (wide : 128 ≤ c.toNat) (ahead : Option Char) : mode.next c ahead = mode.settled := by
  have other (mark : Char) (ascii : mark.toNat < 128) : c ≠ mark := ne_of_not_ascii wide ascii
  cases mode with
  | plain afterColon =>
      have quote : isQuote c = false := by
        by_contra quote
        exact absurd (ascii_of_isQuote (by simpa using quote)) (Nat.not_lt.mpr wide)
      simp [next, settled, quote, other '#' (by decide), other '-' (by decide),
        other '/' (by decide), other ':' (by decide)]
  | quoted quote => simp [next, settled, other quote (ascii_of_isQuote quoting)]
  | line => simp [next, settled, other '\n' (by decide)]
  | block => simp [next, settled, other '*' (by decide)]
  | _ => rfl

theorem opens_of_not_ascii (mode : Mode) {c : Char} (wide : 128 ≤ c.toNat)
    (ahead : Option Char) : mode.opens c ahead = false := by
  have colon : c ≠ ':' := ne_of_not_ascii wide (by decide)
  rw [Bool.eq_false_iff, ne_eq, opens_iff]
  exact fun opens => colon opens.2.1

theorem next_sameMark {mode : Mode} (quoting : mode.Quoting) (c : Char)
    {ahead other : Option Char} (same : SameMark ahead other) :
    mode.next c ahead = mode.next c other := by
  cases mode with
  | plain afterColon => simp [next, same '-' (by decide), same '*' (by decide)]
  | quoted quote => simp [next, same quote (ascii_of_isQuote quoting)]
  | block => simp [next, same '/' (by decide)]
  | _ => rfl

theorem opens_sameMark (mode : Mode) (c : Char) {ahead other : Option Char}
    (same : SameMark ahead other) : mode.opens c ahead = mode.opens c other := by
  have starts : ahead.any isNameStart = true ↔ other.any isNameStart = true := by
    simp only [Option.any_eq_true]
    constructor <;> rintro ⟨first, here, letter⟩
    all_goals
      have ascii := ascii_of_isNameChar (isNameChar_of_isNameStart letter)
      refine ⟨first, ?_, letter⟩
    · exact (same first ascii).mp here
    · exact (same first ascii).mpr here
  rw [Bool.eq_iff_iff, opens_iff, opens_iff, starts]

end Mode

/-! The bytes of a character. -/

theorem encoding_ascii {c : Char} (ascii : c.toNat < 128) :
    String.utf8EncodeChar c = [c.toUInt8] := by
  have single : c.utf8Size = 1 := by
    rw [Char.utf8Size_eq_one_iff, UInt32.le_iff_toNat_le]
    exact Nat.le_of_lt_succ ascii
  rw [String.utf8EncodeChar_eq_singleton single]
  rfl

theorem ofUInt8_toUInt8 {c : Char} (ascii : c.toNat < 128) : Char.ofUInt8 c.toUInt8 = c := by
  apply Char.ext
  apply UInt32.toNat_inj.mp
  show c.toNat % 256 = c.toNat
  exact Nat.mod_eq_of_lt (by omega)

theorem ofUInt8_eq_iff {mark : Char} (ascii : mark.toNat < 128) (byte : UInt8) :
    Char.ofUInt8 byte = mark ↔ byte = mark.toUInt8 := by
  constructor
  · rintro rfl
    exact UInt8.toNat_inj.mp (Nat.mod_eq_of_lt byte.toNat_lt).symm
  · rintro rfl
    exact ofUInt8_toUInt8 ascii

theorem map_ofUInt8_eq_iff {mark : Char} (ascii : mark.toNat < 128) (ahead : Option UInt8) :
    ahead.map Char.ofUInt8 = some mark ↔ ahead = some mark.toUInt8 := by
  cases ahead with
  | none => simp
  | some byte => simp [ofUInt8_eq_iff ascii]

theorem encoding_not_ascii {c : Char} (wide : 128 ≤ c.toNat) {byte : UInt8}
    (member : byte ∈ String.utf8EncodeChar c) : 128 ≤ byte.toNat := by
  have longer : ¬ c.val.toNat ≤ 0x7f := by
    have : c.toNat = c.val.toNat := rfl
    omega
  simp only [String.utf8EncodeChar, if_neg longer] at member
  split_ifs at member <;> simp only [List.mem_cons, List.not_mem_nil, or_false] at member
  all_goals
    rcases member with rfl | rfl | rfl | rfl <;> simp only [UInt8.toNat_ofNat'] <;> omega

def encoding (text : List Char) : List UInt8 := text.flatMap String.utf8EncodeChar

@[simp] theorem encoding_nil : encoding [] = [] := rfl

@[simp] theorem encoding_cons (c : Char) (rest : List Char) :
    encoding (c :: rest) = String.utf8EncodeChar c ++ encoding rest := rfl

theorem encoding_append (front back : List Char) :
    encoding (front ++ back) = encoding front ++ encoding back := List.flatMap_append

theorem bytes_eq_encoding (text : String) : Text.bytes text = encoding text.toList := by
  rw [Text.bytes, String.toUTF8_eq_toByteArray, ← String.utf8Encode_toList]
  exact List.toList_data_toByteArray

theorem bytes_append (front back : String) :
    Text.bytes (front ++ back) = Text.bytes front ++ Text.bytes back := by
  simp only [bytes_eq_encoding, String.toList_append, encoding_append]

theorem length_bytes (text : String) : (Text.bytes text).length = text.utf8ByteSize := by
  rw [Text.bytes, String.toUTF8_eq_toByteArray, Array.length_toList]
  rfl

/-- The first byte stands for the first character as far as marks go. -/
theorem sameMark_head? (text : List Char) :
    SameMark ((encoding text).head?.map Char.ofUInt8) text.head? := by
  intro mark markAscii
  cases text with
  | nil => simp
  | cons c rest =>
      by_cases ascii : c.toNat < 128
      · simp [encoding_ascii ascii, ofUInt8_toUInt8 ascii]
      · cases written : String.utf8EncodeChar c with
        | nil => exact absurd written String.utf8EncodeChar_ne_nil
        | cons byte more =>
            have wide : 128 ≤ byte.toNat :=
              encoding_not_ascii (Nat.not_lt.mp ascii) (by simp [written])
            have other : Char.ofUInt8 byte ≠ mark := ne_of_not_ascii wide markAscii
            have different : c ≠ mark := ne_of_not_ascii (Nat.not_lt.mp ascii) markAscii
            simp [written, other, different]

theorem takeWhile_encoding (text : List Char) :
    ((encoding text).takeWhile isNameByte).map Char.ofUInt8 = text.takeWhile isNameChar := by
  induction text with
  | nil => rfl
  | cons c rest ih =>
      by_cases letter : isNameChar c = true
      · have ascii := ascii_of_isNameChar letter
        have same := ofUInt8_toUInt8 ascii
        have kept : isNameByte c.toUInt8 = true := by rw [isNameByte, same, letter]
        simp [encoding_ascii ascii, kept, letter, same, ih]
      · have look := sameMark_head? (c :: rest)
        cases written : encoding (c :: rest) with
        | nil => simp [letter]
        | cons byte more =>
            -- The name stops at the first byte, whether or not it is the whole character.
            have stop : ¬ isNameByte byte = true := by
              intro named
              have here := (look _ (ascii_of_isNameChar named)).mp (by rw [written]; rfl)
              rw [List.head?_cons, Option.some.injEq] at here
              exact letter (here ▸ named)
            simp [stop, letter]

/-! The letters of a name. -/

theorem encoding_letters {letters : List UInt8} (named : ∀ byte ∈ letters, isNameByte byte = true) :
    encoding (letters.map Char.ofUInt8) = letters := by
  induction letters with
  | nil => rfl
  | cons byte rest ih =>
      have ascii := ascii_of_isNameChar (named byte (by simp))
      have same := (ofUInt8_eq_iff ascii byte).mp rfl
      rw [List.map_cons, encoding_cons, encoding_ascii ascii, ← same,
        ih (fun other member => named other (by simp [member])), List.singleton_append]

theorem map_ofUInt8_bytes {name : String} (letters : ∀ c ∈ name.toList, isNameChar c = true) :
    (Text.bytes name).map Char.ofUInt8 = name.toList := by
  rw [bytes_eq_encoding]
  generalize name.toList = text at letters
  induction text with
  | nil => rfl
  | cons c rest ih =>
      have ascii := ascii_of_isNameChar (letters c (by simp))
      rw [encoding_cons, encoding_ascii ascii, List.singleton_append, List.map_cons,
        ofUInt8_toUInt8 ascii, ih (fun other member => letters other (by simp [member]))]

theorem isNameByte_of_mem_bytes {name : String}
    (letters : ∀ c ∈ name.toList, isNameChar c = true) {byte : UInt8}
    (member : byte ∈ Text.bytes name) : isNameByte byte = true := by
  apply letters
  rw [← map_ofUInt8_bytes letters]
  exact List.mem_map_of_mem member

theorem takeWhile_isNameByte_bytes {name : String}
    (letters : ∀ c ∈ name.toList, isNameChar c = true) {rest : List UInt8}
    (stop : rest.head?.any isNameByte = false) :
    (Text.bytes name ++ rest).takeWhile isNameByte = Text.bytes name := by
  have none : rest.takeWhile isNameByte = [] := by
    cases rest with
    | nil => rfl
    | cons byte more =>
        have stop : isNameByte byte = false := by simpa using stop
        rw [List.takeWhile_cons_of_neg (by simp [stop])]
  rw [List.takeWhile_append_of_pos fun _ => isNameByte_of_mem_bytes letters, none,
    List.append_nil]

theorem takeWhile_bytes {name : String} (letters : ∀ c ∈ name.toList, isNameChar c = true)
    {rest : List UInt8} (stop : rest.head?.any isNameByte = false) :
    ((Text.bytes name ++ rest).takeWhile isNameByte).map Char.ofUInt8 = name.toList := by
  rw [takeWhile_isNameByte_bytes letters stop, map_ofUInt8_bytes letters]

theorem head?_bytes_append {name : String} (proper : ProperName name) (rest : List UInt8) :
    ((Text.bytes name ++ rest).head?.map Char.ofUInt8).any isNameStart = true := by
  have starts := proper.1
  rw [← map_ofUInt8_bytes proper.2] at starts
  cases written : Text.bytes name with
  | nil => simp [written] at starts
  | cons byte more => simpa [written] using starts

/-! Both readers. -/

theorem occurrencesInBytes_not_ascii {mode : Mode} (quoting : mode.Quoting)
    {bytes : List UInt8} (wide : ∀ byte ∈ bytes, 128 ≤ byte.toNat) (nonempty : bytes ≠ [])
    (position : Nat) (rest : List UInt8) :
    occurrencesInBytes mode position (bytes ++ rest) =
      occurrencesInBytes mode.settled (position + bytes.length) rest := by
  induction bytes generalizing mode position with
  | nil => exact absurd rfl nonempty
  | cons byte more ih =>
      have first : 128 ≤ (Char.ofUInt8 byte).toNat := wide byte (by simp)
      rw [List.cons_append, occurrencesInBytes]
      simp only [Mode.opens_of_not_ascii mode first, Mode.next_of_not_ascii quoting first]
      cases more with
      | nil => rfl
      | cons second last =>
          have later := ih (Mode.quoting_settled quoting)
            (fun byte member => wide byte (by simp [member])) (by simp) (position + 1)
          rw [Mode.settled_settled, Nat.add_assoc, Nat.add_comm 1] at later
          simpa using later

theorem occurrencesInBytes_encoding {mode : Mode} (quoting : mode.Quoting) (position : Nat)
    (text : List Char) :
    occurrencesInBytes mode position (encoding text) = occurrencesFrom mode position text := by
  induction text generalizing mode position with
  | nil => rfl
  | cons c rest ih =>
      have later := ih (Mode.quoting_next quoting c rest.head?) (position + c.utf8Size)
      rw [occurrencesFrom, encoding_cons]
      by_cases ascii : c.toNat < 128
      · have size : c.utf8Size = 1 := by
          rw [← String.length_utf8EncodeChar, encoding_ascii ascii, List.length_singleton]
        have look := sameMark_head? rest
        rw [size] at later ⊢
        rw [encoding_ascii ascii, List.singleton_append, occurrencesInBytes]
        simp only [ofUInt8_toUInt8 ascii, Mode.next_sameMark quoting c look,
          Mode.opens_sameMark mode c look, takeWhile_encoding, later]
      · have wide := Nat.not_lt.mp ascii
        rw [occurrencesInBytes_not_ascii quoting (fun byte => encoding_not_ascii wide)
          String.utf8EncodeChar_ne_nil, String.length_utf8EncodeChar,
          Mode.opens_of_not_ascii mode wide, ← Mode.next_of_not_ascii quoting wide rest.head?,
          later]
        rfl

theorem scan_eq_occurrencesInBytes (sql : String) :
    (scan sql).occurrences = occurrencesInBytes .start 0 (Text.bytes sql) := by
  have quoting : Mode.start.Quoting := trivial
  rw [bytes_eq_encoding, occurrencesInBytes_encoding quoting]
  rfl

end SealedColumns.Placeholder
