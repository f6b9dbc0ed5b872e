import Mathlib.Data.String.Basic
import SealedColumns.Placeholder.Scan

/-!
A statement as a list of tokens: its placeholders, and every other character by
itself. Reading splits a text into tokens and writing joins them again. Reading
undoes writing for the lists that no reader would split otherwise, and those stay
such lists when their placeholders take on other names. The occurrences of a
scan are the placeholders of this list with the places at which they are written.
-/

namespace SealedColumns.Placeholder

inductive Token where
  | plain (c : Char)
  | placeholder (name : String)
  deriving DecidableEq

namespace Token

def written : Token → List Char
  | plain c => [c]
  | placeholder name => ':' :: name.toList

def writtenAll (tokens : List Token) : List Char := tokens.flatMap written

def name? : Token → Option String
  | plain _ => none
  | placeholder name => some name

def names (tokens : List Token) : List String := tokens.filterMap name?

/-- Splits a text that follows a mode. The letters of a name are taken at once. -/
def read (mode : Mode) : List Char → List Token
  | [] => []
  | c :: rest =>
      if mode.opens c rest.head? then
        placeholder (String.ofList (rest.takeWhile isNameChar))
          :: read (.plain false) (rest.dropWhile isNameChar)
      else plain c :: read (mode.next c rest.head?) rest
termination_by text => text.length
decreasing_by
  · exact Nat.lt_succ_of_le (List.dropWhile_sublist isNameChar).length_le
  · exact Nat.lt_succ_self rest.length

/-- The placeholders with their places, the first token standing at `position`. -/
def placed (position : Nat) : List Token → List Occurrence
  | [] => []
  | plain c :: rest => placed (position + c.utf8Size) rest
  | placeholder name :: rest =>
      ⟨position, 1 + name.utf8ByteSize, name⟩
        :: placed (position + (1 + name.utf8ByteSize)) rest

/-- Gives the placeholders new names in order. Without a name left they stay. -/
def renamed : List String → List Token → List Token
  | _, [] => []
  | names, plain c :: rest => plain c :: renamed names rest
  | [], placeholder name :: rest => placeholder name :: renamed [] rest
  | name :: names, placeholder _ :: rest => placeholder name :: renamed names rest

end Token

/-- A name that a placeholder can have. -/
def ProperName (name : String) : Prop :=
  name.toList.head?.any isNameStart = true ∧ ∀ c ∈ name.toList, isNameChar c = true

/-- The token lists that reading gives back once they are written: no character
    opens a placeholder, and no name goes on in the character behind it. -/
def Token.Separate : Mode → List Token → Prop
  | _, [] => True
  | mode, .plain c :: rest =>
      mode.opens c (writtenAll rest).head? = false
        ∧ Separate (mode.next c (writtenAll rest).head?) rest
  | mode, .placeholder name :: rest =>
      mode = .plain false ∧ ProperName name
        ∧ (writtenAll rest).head?.any isNameChar = false ∧ Separate (.plain false) rest

theorem isNameChar_of_isNameStart {c : Char} (starts : isNameStart c = true) :
    isNameChar c = true := by
  simp only [isNameStart, isNameChar, Char.isAlphanum, Bool.or_eq_true] at *
  tauto

theorem not_isQuote_of_isNameChar {c : Char} (letter : isNameChar c = true) :
    isQuote c = false := by
  by_contra quote
  simp only [isQuote, Bool.or_eq_true, beq_iff_eq, Bool.not_eq_false] at quote
  rcases quote with (same | same) | same <;> subst same <;> revert letter <;> decide

theorem ne_of_isNameChar {c mark : Char} (letter : isNameChar c = true)
    (foreign : isNameChar mark = false) : c ≠ mark := by
  rintro rfl
  simp [letter] at foreign

theorem Mode.next_of_isNameChar {c : Char} (letter : isNameChar c = true) (afterColon : Bool)
    (ahead : Option Char) : (Mode.plain afterColon).next c ahead = .plain false := by
  have quote := not_isQuote_of_isNameChar letter
  have hash := ne_of_isNameChar letter (show isNameChar '#' = false by decide)
  have dash := ne_of_isNameChar letter (show isNameChar '-' = false by decide)
  have slash := ne_of_isNameChar letter (show isNameChar '/' = false by decide)
  have colon := ne_of_isNameChar letter (show isNameChar ':' = false by decide)
  simp [Mode.next, quote, hash, dash, slash, colon]

theorem Mode.opens_iff (mode : Mode) (c : Char) (ahead : Option Char) :
    mode.opens c ahead = true ↔
      mode = .plain false ∧ c = ':' ∧ ahead.any isNameStart = true := by
  cases mode with
  | plain afterColon => cases afterColon <;> simp [Mode.opens]
  | _ => simp [Mode.opens]

theorem Mode.next_colon (ahead : Option Char) :
    (Mode.plain false).next ':' ahead = .plain true := by
  simp [Mode.next, isQuote]

namespace Token

@[simp] theorem writtenAll_nil : writtenAll [] = [] := rfl

@[simp] theorem writtenAll_cons (token : Token) (rest : List Token) :
    writtenAll (token :: rest) = token.written ++ writtenAll rest := rfl

@[simp] theorem names_nil : names [] = [] := rfl

@[simp] theorem names_plain (c : Char) (rest : List Token) :
    names (plain c :: rest) = names rest := rfl

@[simp] theorem names_placeholder (name : String) (rest : List Token) :
    names (placeholder name :: rest) = name :: names rest := rfl

theorem placed_names (position : Nat) (tokens : List Token) :
    (placed position tokens).map (·.name) = names tokens := by
  induction tokens generalizing position with
  | nil => rfl
  | cons token rest ih => cases token <;> simp [placed, ih]

theorem le_position_of_mem_placed {position : Nat} {tokens : List Token} {found : Occurrence}
    (member : found ∈ placed position tokens) : position ≤ found.position := by
  induction tokens generalizing position with
  | nil => simp [placed] at member
  | cons token rest ih =>
      cases token with
      | plain c => exact Nat.le_trans (Nat.le_add_right _ _) (ih member)
      | placeholder name =>
          rcases List.mem_cons.mp member with same | later
          · simp [same]
          · exact Nat.le_trans (Nat.le_add_right _ _) (ih later)

/-! Reading and writing. -/

theorem writtenAll_read (mode : Mode) (text : List Char) :
    writtenAll (read mode text) = text := by
  fun_induction read mode text with
  | case1 => rfl
  | case2 mode c rest opens ih =>
      have colon := ((Mode.opens_iff mode c rest.head?).mp opens).2.1
      simp [written, ih, colon]
  | case3 mode c rest shut ih => simp [written, ih]

theorem properName_takeWhile {rest : List Char} (starts : rest.head?.any isNameStart = true) :
    ProperName (String.ofList (rest.takeWhile isNameChar)) := by
  cases rest with
  | nil => simp at starts
  | cons c more =>
      simp only [List.head?_cons, Option.any_some] at starts
      constructor
      · simp [isNameChar_of_isNameStart starts, starts]
      · intro letter member
        rw [String.toList_ofList] at member
        exact List.all_eq_true.mp List.all_takeWhile letter member

theorem separate_read (mode : Mode) (text : List Char) : Separate mode (read mode text) := by
  fun_induction read mode text with
  | case1 => trivial
  | case2 mode c rest opens ih =>
      obtain ⟨open', -, starts⟩ := (Mode.opens_iff mode c rest.head?).mp opens
      refine ⟨open', properName_takeWhile starts, ?_, ih⟩
      -- What is read next begins where the letters of the name stop.
      rw [writtenAll_read]
      have stop := List.head?_dropWhile_not isNameChar rest
      cases ahead : (rest.dropWhile isNameChar).head? with
      | none => rfl
      | some c => simpa [ahead] using stop
  | case3 mode c rest shut ih =>
      refine ⟨?_, ?_⟩ <;> rw [writtenAll_read]
      · simpa using shut
      · exact ih

theorem takeWhile_name {name : String} (proper : ∀ c ∈ name.toList, isNameChar c = true)
    {rest : List Char} (stop : rest.head?.any isNameChar = false) :
    (name.toList ++ rest).takeWhile isNameChar = name.toList := by
  rw [List.takeWhile_append_of_pos proper]
  cases rest <;> simp_all

theorem dropWhile_name {name : String} (proper : ∀ c ∈ name.toList, isNameChar c = true)
    {rest : List Char} (stop : rest.head?.any isNameChar = false) :
    (name.toList ++ rest).dropWhile isNameChar = rest := by
  rw [List.dropWhile_append_of_pos proper]
  cases rest <;> simp_all

theorem head?_name_append {name : String} (proper : ProperName name) (rest : List Char) :
    (name.toList ++ rest).head?.any isNameStart = true := by
  have starts := proper.1
  cases letters : name.toList with
  | nil => simp [letters] at starts
  | cons c more => simpa [letters] using starts

theorem read_writtenAll {mode : Mode} {tokens : List Token} (separate : Separate mode tokens) :
    read mode (writtenAll tokens) = tokens := by
  induction tokens generalizing mode with
  | nil => simp [read]
  | cons token rest ih =>
      cases token with
      | plain c =>
          obtain ⟨shut, later⟩ := separate
          rw [writtenAll_cons, written, List.singleton_append, read]
          simp [shut, ih later]
      | placeholder name =>
          obtain ⟨rfl, proper, stop, later⟩ := separate
          have opens : (Mode.plain false).opens ':' (name.toList ++ writtenAll rest).head?
              = true := (Mode.opens_iff _ _ _).mpr ⟨rfl, rfl, head?_name_append proper _⟩
          rw [writtenAll_cons, written, List.cons_append, read]
          rw [if_pos opens, takeWhile_name proper.2 stop, dropWhile_name proper.2 stop,
            String.ofList_toList, ih later]

/-! Other names. -/

theorem names_renamed {fresh : List String} {tokens : List Token}
    (enough : fresh.length = (names tokens).length) : names (renamed fresh tokens) = fresh := by
  induction tokens generalizing fresh with
  | nil => simpa [renamed, eq_comm] using enough
  | cons token rest ih =>
      cases token with
      | plain c => simpa [renamed] using ih enough
      | placeholder name =>
          cases fresh with
          | nil => simp at enough
          | cons first more => simpa [renamed] using ih (by simpa using enough)

/-- Seen from the text before, a placeholder is a colon whatever its name is. -/
theorem head?_writtenAll_renamed (fresh : List String) (tokens : List Token) :
    (writtenAll (renamed fresh tokens)).head? = (writtenAll tokens).head? := by
  cases tokens with
  | nil => simp [renamed]
  | cons token rest => cases token <;> cases fresh <;> simp [renamed, written]

theorem separate_renamed {mode : Mode} {fresh : List String} {tokens : List Token}
    (proper : ∀ name ∈ fresh, ProperName name) (separate : Separate mode tokens) :
    Separate mode (renamed fresh tokens) := by
  induction tokens generalizing mode fresh with
  | nil => trivial
  | cons token rest ih =>
      cases token with
      | plain c =>
          obtain ⟨shut, later⟩ := separate
          simp only [renamed, Separate, head?_writtenAll_renamed]
          exact ⟨shut, ih proper later⟩
      | placeholder name =>
          obtain ⟨rfl, kept, stop, later⟩ := separate
          cases fresh with
          | nil =>
              simp only [renamed, Separate, head?_writtenAll_renamed]
              exact ⟨trivial, kept, stop, ih proper later⟩
          | cons first more =>
              simp only [renamed, Separate, head?_writtenAll_renamed]
              exact ⟨trivial, proper first (by simp), stop,
                ih (fun other member => proper other (by simp [member])) later⟩

theorem properName_of_mem_names {mode : Mode} {tokens : List Token}
    (separate : Separate mode tokens) {name : String} (member : name ∈ names tokens) :
    ProperName name := by
  induction tokens generalizing mode with
  | nil => simp at member
  | cons token rest ih =>
      cases token with
      | plain c => exact ih separate.2 member
      | placeholder first =>
          rcases List.mem_cons.mp member with same | later
          · exact same ▸ separate.2.1
          · exact ih separate.2.2.2 later

end Token

/-! Occurrences. -/

theorem occurrencesFrom_name_append {name rest : List Char}
    (letters : ∀ c ∈ name, isNameChar c = true) (position : Nat) :
    occurrencesFrom (.plain false) position (name ++ rest) =
      occurrencesFrom (.plain false) (position + String.utf8Len name) rest := by
  induction name generalizing position with
  | nil => simp
  | cons c more ih =>
      have letter := letters c (by simp)
      have colon := ne_of_isNameChar letter (show isNameChar ':' = false by decide)
      have shut (ahead : Option Char) : (Mode.plain false).opens c ahead = false := by
        simp [Mode.opens, colon]
      rw [List.cons_append, occurrencesFrom, Mode.next_of_isNameChar letter, shut,
        ih (fun c member => letters c (by simp [member]))]
      rw [String.utf8Len_cons, Nat.add_comm (String.utf8Len more), Nat.add_assoc]
      rfl

/-- Behind the colon reading goes on with the letters of the name, which neither
    open anything nor change the mode but for leaving the colon behind. -/
theorem occurrencesFrom_colon {name : List Char} (rest : List Char) (named : name ≠ [])
    (letters : ∀ c ∈ name, isNameChar c = true) (position : Nat) :
    occurrencesFrom (.plain true) position (name ++ rest) =
      occurrencesFrom (.plain false) (position + String.utf8Len name) rest := by
  cases name with
  | nil => exact absurd rfl named
  | cons c more =>
      have letter := letters c (by simp)
      rw [List.cons_append, occurrencesFrom, Mode.next_of_isNameChar letter,
        occurrencesFrom_name_append (fun c member => letters c (by simp [member]))]
      rw [String.utf8Len_cons, Nat.add_comm (String.utf8Len more), Nat.add_assoc]
      rfl

theorem occurrencesFrom_eq_placed (mode : Mode) (position : Nat) (text : List Char) :
    occurrencesFrom mode position text = Token.placed position (Token.read mode text) := by
  fun_induction Token.read mode text generalizing position with
  | case1 => rfl
  | case2 mode c rest opens ih =>
      obtain ⟨rfl, rfl, starts⟩ := (Mode.opens_iff mode c rest.head?).mp opens
      have proper := Token.properName_takeWhile starts
      have named : rest.takeWhile isNameChar ≠ [] := by
        intro empty
        simpa [empty] using proper.1
      -- The scan walks through the name that reading takes at once.
      have later := occurrencesFrom_colon (rest.dropWhile isNameChar) named
        (by simpa using proper.2) (position + 1)
      rw [List.takeWhile_append_dropWhile] at later
      simp only [occurrencesFrom, if_pos opens, Mode.next_colon, Token.placed,
        show (':' : Char).utf8Size = 1 from rfl, later, ih, String.utf8ByteSize_ofList,
        Nat.add_assoc]
  | case3 mode c rest shut ih =>
      rw [occurrencesFrom, if_neg shut, ih, Token.placed]

/-- The tokens of a statement. -/
def tokensOf (sql : String) : List Token := Token.read .start sql.toList

theorem scan_occurrences (sql : String) :
    (scan sql).occurrences = Token.placed 0 (tokensOf sql) :=
  occurrencesFrom_eq_placed .start 0 sql.toList

theorem scan_names (sql : String) :
    (scan sql).occurrences.map (·.name) = Token.names (tokensOf sql) := by
  rw [scan_occurrences, Token.placed_names]

theorem properName_of_mem_scan {sql name : String}
    (member : name ∈ (scan sql).occurrences.map (·.name)) : ProperName name := by
  rw [scan_names] at member
  exact Token.properName_of_mem_names (Token.separate_read .start sql.toList) member

/-! Counts. -/

theorem get?_foldl_counts (names : List String) (counts : Counts) (name : String) :
    (names.foldl (fun counts name =>
      counts.insert name (countOf counts name + 1)) counts).get? name =
      if name ∈ names then some (countOf counts name + names.count name)
      else counts.get? name := by
  induction names generalizing counts with
  | nil => simp
  | cons first rest ih =>
      rw [List.foldl_cons, ih, List.count_cons]
      by_cases same : name = first
      · by_cases again : first ∈ rest
        · simp [countOf, same, again]
          omega
        · simp [countOf, same, again, List.count_eq_zero_of_not_mem again]
      · simp [countOf, same, Ne.symm same]

theorem get?_countNames (names : List String) (name : String) :
    (countNames names).get? name = if name ∈ names then some (names.count name) else none := by
  rw [countNames, get?_foldl_counts]
  simp [countOf]

theorem countOf_scan (sql name : String) :
    countOf (scan sql).counts name = ((scan sql).occurrences.map (·.name)).count name :=
  countOf_countNames _ name

theorem mem_names_counts (sql name : String) :
    name ∈ (scan sql).counts.names ↔ name ∈ (scan sql).occurrences.map (·.name) := by
  rw [← NameMap.contains_iff, NameMap.contains, scan, get?_countNames]
  split <;> simp_all

theorem hasRepeats_iff (sql : String) :
    (scan sql).hasRepeats = true ↔
      ∃ name, 2 ≤ ((scan sql).occurrences.map (·.name)).count name := by
  rw [Scan.hasRepeats, List.any_eq_true]
  constructor
  · rintro ⟨entry, member, several⟩
    have found := (NameMap.get?_eq_some_iff _ _ _).mpr member
    have count := countOf_scan sql entry.1
    rw [countOf, found, Option.getD_some] at count
    exact ⟨entry.1, count ▸ of_decide_eq_true several⟩
  · rintro ⟨name, several⟩
    have here : name ∈ (scan sql).occurrences.map (·.name) :=
      List.count_pos_iff.mp (Nat.lt_of_lt_of_le Nat.zero_lt_two several)
    have found := get?_countNames ((scan sql).occurrences.map (·.name)) name
    rw [if_pos here] at found
    exact ⟨(name, _), (NameMap.get?_eq_some_iff _ _ _).mp found, decide_eq_true several⟩

end SealedColumns.Placeholder
