/-!
Sets of code points as ranges in ascending order, each given by its first and its
last member. Main statement: membership read off an ascending table is membership in
one of its ranges.
-/

namespace SealedColumns.Text

/-- Membership, read up to the first range that starts behind the code point. -/
def within : List (Nat × Nat) → Nat → Bool
  | [], _ => false
  | (first, last) :: rest, point =>
      if point < first then false else point ≤ last || within rest point

/-- No range is empty, and each starts at `floor` or later and behind the one before. -/
def ascendingFrom (floor : Nat) : List (Nat × Nat) → Bool
  | [] => true
  | (first, last) :: rest => floor ≤ first && first ≤ last && ascendingFrom (last + 1) rest

theorem floor_le_of_mem {ranges : List (Nat × Nat)} {floor : Nat}
    (ascending : ascendingFrom floor ranges = true) {range : Nat × Nat}
    (member : range ∈ ranges) : floor ≤ range.1 := by
  induction ranges generalizing floor with
  | nil => cases member
  | cons head rest ih =>
      simp only [ascendingFrom, Bool.and_eq_true, decide_eq_true_eq] at ascending
      rcases List.mem_cons.mp member with same | later
      · subst same
        exact ascending.1.1
      · have := ih ascending.2 later
        omega

theorem within_iff {ranges : List (Nat × Nat)} {floor : Nat}
    (ascending : ascendingFrom floor ranges = true) (point : Nat) :
    within ranges point = true ↔ ∃ range ∈ ranges, range.1 ≤ point ∧ point ≤ range.2 := by
  induction ranges generalizing floor with
  | nil => simp [within]
  | cons head rest ih =>
      have later {range : Nat × Nat} (member : range ∈ rest) : head.2 + 1 ≤ range.1 := by
        simp only [ascendingFrom, Bool.and_eq_true, decide_eq_true_eq] at ascending
        exact floor_le_of_mem ascending.2 member
      simp only [ascendingFrom, Bool.and_eq_true, decide_eq_true_eq] at ascending
      have found := ih ascending.2
      simp only [within, List.mem_cons, exists_eq_or_imp]
      by_cases before : point < head.1
      · simp only [before, if_true, Bool.false_eq_true, false_iff, not_or, not_and, not_exists]
        refine ⟨by omega, fun range member low => ?_⟩
        have := later member
        omega
      · simp only [before, if_false, Bool.or_eq_true, decide_eq_true_eq, found]
        constructor
        · rintro (inside | inside)
          · exact .inl ⟨by omega, inside⟩
          · exact .inr inside
        · rintro (inside | inside)
          · exact .inl inside.2
          · exact .inr inside

end SealedColumns.Text
