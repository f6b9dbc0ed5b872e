import SealedColumns.Cipher.Base64
import SealedColumns.Text.Blank
import SealedColumns.Proofs.Placeholder.Bytes

/-!
Bytes and the text in which they are written. Reading gives back what was written, and
accepts nothing else: the bits that belong to no byte have to be zero and the last group
has to be filled up, so that every sequence of bytes is written in one way. No symbol is
white space, so that trimming leaves a written text as it is.
-/

namespace SealedColumns

namespace Text

theorem bytes_inj {text other : String} : bytes text = bytes other ↔ text = other := by
  constructor
  · intro same
    have read := decode?_bytes text
    rw [same, decode?_bytes] at read
    exact (Option.some.inj read).symm
  · exact congrArg bytes

theorem dropWhile_eq_self {drop : Char → Bool} {text : List Char}
    (kept : ∀ c ∈ text, drop c = false) : text.dropWhile drop = text := by
  cases text with
  | nil => rfl
  | cons c rest => rw [List.dropWhile_cons, kept c List.mem_cons_self]; rfl

theorem trim_eq_self {text : String} (kept : ∀ c ∈ text.toList, isBlank c = false) :
    trim text = text := by
  have backwards : ∀ c ∈ text.toList.reverse, isBlank c = false := fun c member =>
    kept c (List.mem_reverse.mp member)
  rw [trim, dropTrailing, dropWhile_eq_self kept, dropWhile_eq_self backwards, List.reverse_reverse,
    String.ofList_toList]

end Text

namespace Base64

/-! Symbols. -/

theorem symbolValue?_symbol : ∀ n < 64, symbolValue? (symbol n) = some n := by decide

theorem symbol_ne_pad : ∀ n < 64, symbol n ≠ pad := by decide

theorem eq_symbol_of_symbolValue? {byte : UInt8} {n : Nat} (read : symbolValue? byte = some n) :
    n < 64 ∧ byte = symbol n := by
  have table : ∀ k < 256, (symbolValue? k.toUInt8).all
      (fun n => n < 64 ∧ k.toUInt8 = symbol n) = true := by decide +kernel
  have known := table byte.toNat byte.toNat_lt
  have same : byte.toNat.toUInt8 = byte := UInt8.ofNat_toNat
  rw [same, read] at known
  simpa using known

theorem readSymbol_eq_ok_iff {offset : Nat} {byte : UInt8} {n : Nat} :
    readSymbol offset byte = .ok n ↔ n < 64 ∧ byte = symbol n := by
  unfold readSymbol
  constructor
  · intro read
    split at read
    · next value found =>
      obtain rfl := Except.ok.inj read
      exact eq_symbol_of_symbolValue? found
    · contradiction
  · rintro ⟨small, rfl⟩
    rw [symbolValue?_symbol n small]

theorem readSymbol_symbol {n : Nat} (small : n < 64) (offset : Nat) :
    readSymbol offset (symbol n) = .ok n := readSymbol_eq_ok_iff.mpr ⟨small, rfl⟩

theorem readSymbol_bind_eq_ok {offset : Nat} {byte : UInt8} {data : List UInt8}
    {next : Nat → Except Fault (List UInt8)} (read : (readSymbol offset byte).bind next = .ok data) :
    ∃ n < 64, byte = symbol n ∧ next n = .ok data := by
  cases value : readSymbol offset byte with
  | error fault =>
      rw [value] at read
      contradiction
  | ok n =>
      rw [value] at read
      obtain ⟨small, same⟩ := readSymbol_eq_ok_iff.mp value
      exact ⟨n, small, same, read⟩

theorem mem_encode {data : List UInt8} {byte : UInt8} (member : byte ∈ encode data) :
    byte = pad ∨ ∃ n < 64, byte = symbol n := by
  fun_induction encode data with
  | case1 => contradiction
  | case2 a =>
      have := a.toNat_lt
      simp only [List.mem_cons, List.not_mem_nil, or_false] at member
      rcases member with rfl | rfl | rfl | rfl
      · exact Or.inr ⟨_, by omega, rfl⟩
      · exact Or.inr ⟨_, by omega, rfl⟩
      · exact Or.inl rfl
      · exact Or.inl rfl
  | case3 a b =>
      have := a.toNat_lt
      have := b.toNat_lt
      simp only [List.mem_cons, List.not_mem_nil, or_false] at member
      rcases member with rfl | rfl | rfl | rfl
      · exact Or.inr ⟨_, by omega, rfl⟩
      · exact Or.inr ⟨_, by omega, rfl⟩
      · exact Or.inr ⟨_, by omega, rfl⟩
      · exact Or.inl rfl
  | case4 a b c rest ih =>
      have := a.toNat_lt
      have := b.toNat_lt
      have := c.toNat_lt
      simp only [List.mem_cons] at member
      rcases member with rfl | rfl | rfl | rfl | later
      · exact Or.inr ⟨_, by omega, rfl⟩
      · exact Or.inr ⟨_, by omega, rfl⟩
      · exact Or.inr ⟨_, by omega, rfl⟩
      · exact Or.inr ⟨_, by omega, rfl⟩
      · exact ih later

theorem length_encode_mod (data : List UInt8) : (encode data).length % 4 = 0 := by
  fun_induction encode data with
  | case1 | case2 | case3 => simp
  | case4 a b c rest ih =>
      simp only [List.length_cons]
      omega

/-! Three bytes are four numbers below 64. -/

theorem byte_of_numbers (a b c : UInt8) :
    (a.toNat / 4 * 4 + (a.toNat % 4 * 16 + b.toNat / 16) / 16).toUInt8 = a
      ∧ ((a.toNat % 4 * 16 + b.toNat / 16) % 16 * 16
        + (b.toNat % 16 * 4 + c.toNat / 64) / 4).toUInt8 = b
      ∧ ((b.toNat % 16 * 4 + c.toNat / 64) % 4 * 64 + c.toNat % 64).toUInt8 = c := by
  have := a.toNat_lt
  have := b.toNat_lt
  have := c.toNat_lt
  refine ⟨?_, ?_, ?_⟩ <;> apply UInt8.toNat_inj.mp <;> rw [Nat.toUInt8, UInt8.toNat_ofNat'] <;> omega

theorem number_of_bytes {v w x y : Nat} (hv : v < 64) (hw : w < 64) (hx : x < 64) (hy : y < 64) :
    let a := (v * 4 + w / 16).toUInt8
    let b := (w % 16 * 16 + x / 4).toUInt8
    let c := (x % 4 * 64 + y).toUInt8
    a.toNat / 4 = v ∧ a.toNat % 4 * 16 + b.toNat / 16 = w ∧ b.toNat % 16 * 4 + c.toNat / 64 = x
      ∧ c.toNat % 64 = y := by
  simp only [Nat.toUInt8, UInt8.toNat_ofNat']
  omega

/-! The last group: symbols, and pads behind at least two of them. -/

/-- The group that is read from symbols of the numbers and pads. -/
def LastGroup.ofNumbers (numbers : List Nat) (pads : Nat) : LastGroup :=
  ⟨numbers.map fun n => (symbol n, n), pads⟩

theorem readLastGroup_pads (start pads : Nat) {index : Nat} (behind : 2 ≤ index)
    (firstPad : Option Nat) :
    readLastGroup start index firstPad (List.replicate pads pad) = .ok (.ofNumbers [] pads) := by
  induction pads generalizing index firstPad with
  | zero => rfl
  | succ pads ih =>
      rw [List.replicate_succ, readLastGroup.eq_def]
      dsimp only
      rw [if_pos rfl, if_neg (Nat.not_lt.mpr behind), ih (Nat.le_succ_of_le behind)]
      rfl

theorem readLastGroup_numbers (start pads : Nat) {index : Nat} {numbers : List Nat}
    (small : ∀ n ∈ numbers, n < 64) (behind : pads = 0 ∨ 2 ≤ index + numbers.length) :
    readLastGroup start index none (numbers.map symbol ++ List.replicate pads pad) =
      .ok (.ofNumbers numbers pads) := by
  induction numbers generalizing index with
  | nil =>
      rcases behind with rfl | behind
      · rfl
      · exact readLastGroup_pads start pads behind none
  | cons n rest ih =>
      have later := @ih (index + 1) (fun n member => small n (List.mem_cons_of_mem _ member))
        (behind.imp_right fun behind => by rw [List.length_cons] at behind; omega)
      rw [List.map_cons, List.cons_append, readLastGroup,
        if_neg (symbol_ne_pad n (small n List.mem_cons_self)),
        readSymbol_symbol (small n List.mem_cons_self), later]
      rfl

theorem readLastGroup_eq_ok {start index : Nat} {firstPad : Option Nat} {last : List UInt8}
    {group : LastGroup} (read : readLastGroup start index firstPad last = .ok group) :
    ∃ numbers pads, (∀ n ∈ numbers, n < 64) ∧ group = .ofNumbers numbers pads
      ∧ last = numbers.map symbol ++ List.replicate pads pad
      ∧ (firstPad.isSome → numbers = []) := by
  induction last generalizing index firstPad group with
  | nil =>
      obtain rfl := Except.ok.inj read
      exact ⟨[], 0, by simp, rfl, rfl, fun _ => rfl⟩
  | cons byte rest ih =>
      rw [readLastGroup.eq_def] at read
      dsimp only at read
      split at read
      · next same =>
        subst same
        split at read
        · contradiction
        · cases more : readLastGroup start (index + 1) (some (firstPad.getD (start + index))) rest with
          | error fault =>
              rw [more] at read
              contradiction
          | ok later =>
              rw [more] at read
              obtain rfl := Except.ok.inj read
              -- Behind a pad there are only pads.
              obtain ⟨numbers, pads, -, rfl, rfl, none⟩ := ih more
              obtain rfl := none rfl
              exact ⟨[], pads + 1, by simp, rfl, rfl, fun _ => rfl⟩
      · cases firstPad with
        | some offset => contradiction
        | none =>
            dsimp only at read
            cases first : readSymbol (start + index) byte with
            | error fault =>
                rw [first] at read
                contradiction
            | ok n =>
                obtain ⟨small, rfl⟩ := readSymbol_eq_ok_iff.mp first
                cases more : readLastGroup start (index + 1) none rest with
                | error fault =>
                    rw [first, more] at read
                    contradiction
                | ok later =>
                    rw [first, more] at read
                    obtain rfl := Except.ok.inj read
                    obtain ⟨numbers, pads, others, rfl, rfl, -⟩ := ih more
                    exact ⟨n :: numbers, pads, List.forall_mem_cons.mpr ⟨small, others⟩, rfl, rfl,
                      nofun⟩

theorem decodeFrom_last (offset : Nat) {last : List UInt8} (some : last ≠ [])
    (few : last.length ≤ 4) :
    decodeFrom offset last = (readLastGroup offset 0 none last).bind (·.bytes offset) := by
  match last, few with
  | [_], _ | [_, _], _ | [_, _, _], _ | [_, _, _, _], _ => rfl

/-! Reading what was written. -/

theorem decodeFrom_numbers (offset : Nat) (numbers : List Nat) (pads : Nat)
    (small : ∀ n ∈ numbers, n < 64) (two : 2 ≤ numbers.length) (four : numbers.length + pads ≤ 4) :
    decodeFrom offset (numbers.map symbol ++ List.replicate pads pad) =
      (LastGroup.ofNumbers numbers pads).bytes offset := by
  have size : (numbers.map symbol ++ List.replicate pads pad).length = numbers.length + pads := by
    simp
  rw [decodeFrom_last offset (List.ne_nil_of_length_pos (by omega)) (by omega),
    readLastGroup_numbers offset pads small (Or.inr (by omega))]
  rfl

theorem decodeFrom_encode (offset : Nat) (data : List UInt8) :
    decodeFrom offset (encode data) = .ok data := by
  fun_induction encode data generalizing offset with
  | case1 => rfl
  | case2 a =>
      have := a.toNat_lt
      obtain ⟨first, -⟩ := byte_of_numbers a 0 0
      have spare : a.toNat % 4 * 16 % 16 = 0 := by omega
      have read := decodeFrom_numbers offset [a.toNat / 4, a.toNat % 4 * 16] 2
        (by simp; omega) (by simp) (by simp)
      refine read.trans ?_
      simp only [LastGroup.ofNumbers, LastGroup.bytes, List.map_cons, List.map_nil, ne_eq,
        not_true_eq_false, if_false, spare]
      exact congrArg (fun byte => Except.ok [byte]) first
  | case3 a b =>
      have := a.toNat_lt
      have := b.toNat_lt
      obtain ⟨first, second, -⟩ := byte_of_numbers a b 0
      have spare : b.toNat % 16 * 4 % 4 = 0 := by omega
      have read := decodeFrom_numbers offset
        [a.toNat / 4, a.toNat % 4 * 16 + b.toNat / 16, b.toNat % 16 * 4] 1 (by simp; omega) (by simp) (by simp)
      refine read.trans ?_
      simp only [LastGroup.ofNumbers, LastGroup.bytes, List.map_cons, List.map_nil, ne_eq,
        not_true_eq_false, if_false, spare]
      exact congrArg₂ (fun first second => Except.ok [first, second]) first second
  | case4 a b c rest ih =>
      have := a.toNat_lt
      have := b.toNat_lt
      have := c.toNat_lt
      obtain ⟨first, second, third⟩ := byte_of_numbers a b c
      cases written : encode rest with
      | nil =>
          -- This group is the last one.
          have none := ih 0
          rw [written] at none
          obtain rfl := Except.ok.inj none
          have read := decodeFrom_numbers offset [a.toNat / 4,
            a.toNat % 4 * 16 + b.toNat / 16, b.toNat % 16 * 4 + c.toNat / 64, c.toNat % 64] 0
            (by simp; omega) (by simp) (by simp)
          refine read.trans ?_
          simp only [LastGroup.ofNumbers, LastGroup.bytes, List.map_cons, List.map_nil, first, second,
            third]
      | cons symbol more =>
          have later := ih (offset + 4)
          rw [written] at later
          rw [decodeFrom, readSymbol_symbol (by omega), readSymbol_symbol (by omega),
            readSymbol_symbol (by omega), readSymbol_symbol (by omega), later]
          simp only [bind, Except.bind, first, second, third]

/-! What is read was written. -/

theorem eq_encode_of_bytes {numbers : List Nat} {pads start : Nat} {data : List UInt8}
    (small : ∀ n ∈ numbers, n < 64) (four : numbers.length + pads ≤ 4)
    (gives : (LastGroup.ofNumbers numbers pads).bytes start = .ok data) :
    numbers.map symbol ++ List.replicate pads pad = encode data := by
  have zero : 0 < 64 := by decide
  match numbers with
  | [] | [_] => contradiction
  | [v, w] =>
      simp only [List.forall_mem_cons] at small
      obtain ⟨first, second, -⟩ := number_of_bytes small.1 small.2.1 zero zero
      simp only [LastGroup.ofNumbers, LastGroup.bytes, List.map_cons, List.map_nil] at gives
      split at gives
      · contradiction
      · next two =>
        split at gives
        · contradiction
        · next spare =>
          obtain rfl := Except.ok.inj gives
          obtain rfl := not_not.mp two
          -- The bits that a second byte would have are zero.
          rw [not_not.mp spare] at second
          replace second : (v * 4 + w / 16).toUInt8.toNat % 4 * 16 = w := second
          simp only [encode, first, second]
          rfl
  | [v, w, x] =>
      simp only [List.forall_mem_cons] at small
      obtain ⟨first, second, third, -⟩ := number_of_bytes small.1 small.2.1 small.2.2.1 zero
      simp only [LastGroup.ofNumbers, LastGroup.bytes, List.map_cons, List.map_nil] at gives
      split at gives
      · contradiction
      · next one =>
        split at gives
        · contradiction
        · next spare =>
          obtain rfl := Except.ok.inj gives
          obtain rfl := not_not.mp one
          rw [not_not.mp spare] at third
          replace third : (w % 16 * 16 + x / 4).toUInt8.toNat % 16 * 4 = x := third
          simp only [encode, first, second, third]
          rfl
  | v :: w :: x :: y :: more =>
      obtain rfl : pads = 0 := by simp only [List.length_cons] at four; omega
      obtain rfl : more = [] :=
        List.eq_nil_of_length_eq_zero (by simp only [List.length_cons] at four; omega)
      simp only [List.forall_mem_cons] at small
      obtain ⟨first, second, third, fourth⟩ :=
        number_of_bytes small.1 small.2.1 small.2.2.1 small.2.2.2.1
      obtain rfl := Except.ok.inj gives
      simp only [encode, first, second, third, fourth]
      rfl

theorem eq_encode_of_last {offset : Nat} {last data : List UInt8} (few : last.length ≤ 4)
    (read : (readLastGroup offset 0 none last).bind (·.bytes offset) = .ok data) :
    last = encode data := by
  cases found : readLastGroup offset 0 none last with
  | error fault =>
      rw [found] at read
      contradiction
  | ok group =>
      rw [found] at read
      obtain ⟨numbers, pads, small, rfl, rfl, -⟩ := readLastGroup_eq_ok found
      have four : numbers.length + pads ≤ 4 := by simpa using few
      exact eq_encode_of_bytes small four read

theorem eq_encode_of_decodeFrom {offset : Nat} {input data : List UInt8}
    (read : decodeFrom offset input = .ok data) : input = encode data := by
  fun_induction decodeFrom offset input generalizing data with
  | case1 =>
      obtain rfl := Except.ok.inj read
      rfl
  | case2 offset a b c d e rest ih =>
      obtain ⟨v, hv, rfl, readRest⟩ := readSymbol_bind_eq_ok read
      obtain ⟨w, hw, rfl, readLastTwo⟩ := readSymbol_bind_eq_ok readRest
      obtain ⟨x, hx, rfl, readLast⟩ := readSymbol_bind_eq_ok readLastTwo
      obtain ⟨y, hy, rfl, behind⟩ := readSymbol_bind_eq_ok readLast
      cases more : decodeFrom (offset + 4) (e :: rest) with
      | error fault =>
          rw [more] at behind
          contradiction
      | ok later =>
          rw [more] at behind
          obtain rfl := Except.ok.inj behind
          obtain ⟨first, second, third, fourth⟩ := number_of_bytes hv hw hx hy
          simp only [encode, first, second, third, fourth, ← ih more]
  | case3 offset last empty short =>
      have few : last.length ≤ 4 := by
        match last, short with
        | [], _ | [_], _ | [_, _], _ | [_, _, _], _ | [_, _, _, _], _ => simp
        | a :: b :: c :: d :: e :: rest, short => exact (short a b c d e rest rfl).elim
      exact eq_encode_of_last few read

/-- What is read are the bytes as whose written form the input stands, and no other
    input is read. -/
theorem decode_eq_ok_iff {input data : List UInt8} :
    decode input = .ok data ↔ input = encode data := by
  constructor
  · intro read
    unfold decode at read
    split at read
    · contradiction
    · exact eq_encode_of_decodeFrom read
  · rintro rfl
    have whole : loneLast? (encode data) = none := by
      unfold loneLast?
      split
      · rw [if_neg]
        rw [length_encode_mod]
        rintro ⟨lone, -⟩
        contradiction
      · rfl
    rw [decode, whole]
    exact decodeFrom_encode 0 data

/-! The written form as a text. -/

theorem plain_of_mem_encode {data : List UInt8} {byte : UInt8} (member : byte ∈ encode data) :
    byte.toNat < 128 ∧ Text.isBlank (Char.ofNat byte.toNat) = false := by
  have symbols : ∀ n < 64, (symbol n).toNat < 128
      ∧ Text.isBlank (Char.ofNat (symbol n).toNat) = false := by decide +kernel
  rcases mem_encode member with rfl | ⟨n, small, rfl⟩
  · decide
  · exact symbols n small

theorem encoding_map_ofNat {data : List UInt8} (ascii : ∀ byte ∈ data, byte.toNat < 128) :
    Placeholder.encoding (data.map fun byte => Char.ofNat byte.toNat) = data := by
  induction data with
  | nil => rfl
  | cons byte rest ih =>
      obtain ⟨small, others⟩ := List.forall_mem_cons.mp ascii
      have char : ∀ n < 128, (Char.ofNat n).toNat < 128 ∧ (Char.ofNat n).toUInt8.toNat = n := by
        decide
      have same : (Char.ofNat byte.toNat).toUInt8 = byte := UInt8.toNat_inj.mp (char _ small).2
      rw [List.map_cons, Placeholder.encoding_cons, ih others,
        Placeholder.encoding_ascii (char _ small).1, same]
      rfl

theorem bytes_encodeText (data : List UInt8) : Text.bytes (encodeText data) = encode data := by
  rw [Placeholder.bytes_eq_encoding, encodeText, String.toList_ofList]
  exact encoding_map_ofNat fun byte member => (plain_of_mem_encode member).1

theorem decode_bytes_eq_ok_iff {text : String} {data : List UInt8} :
    decode (Text.bytes text) = .ok data ↔ text = encodeText data := by
  rw [decode_eq_ok_iff, ← bytes_encodeText]
  exact Text.bytes_inj

theorem trim_encodeText (data : List UInt8) : Text.trim (encodeText data) = encodeText data := by
  apply Text.trim_eq_self
  intro c member
  rw [encodeText, String.toList_ofList] at member
  obtain ⟨byte, here, rfl⟩ := List.mem_map.mp member
  exact (plain_of_mem_encode here).2

end Base64

end SealedColumns
