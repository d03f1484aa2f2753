/-!
# Character classes as ranges of code points

A class of characters is an ascending list of ranges of code points.  Looking a
character up stops at the first range that begins above it, and as the ranges
ascend it finds exactly the members of the ranges.
-/

namespace Linewise
namespace Text

/-- Whether a code point lies in one of the given ranges, if they ascend; both ends belong
to a range. -/
def inRanges (code : Nat) : List (Nat × Nat) -> Bool
  | [] => false
  | (first, last) :: rest =>
      if code < first then
        false
      else if code <= last then
        true
      else
        inRanges code rest

def Ascending : List (Nat × Nat) -> Prop
  | [] => True
  | [(first, last)] => first <= last
  | (first, last) :: (next, stop) :: rest =>
      first <= last ∧ last < next ∧ Ascending ((next, stop) :: rest)

instance decidableAscending : (ranges : List (Nat × Nat)) -> Decidable (Ascending ranges)
  | [] => inferInstanceAs (Decidable True)
  | [(first, last)] => inferInstanceAs (Decidable (first <= last))
  | (first, last) :: (next, stop) :: rest =>
      have := decidableAscending ((next, stop) :: rest)
      inferInstanceAs (Decidable (first <= last ∧ last < next ∧
        Ascending ((next, stop) :: rest)))

/-- In ascending ranges every code point of a later range lies above the
ranges before it. -/
theorem Ascending.lt_of_mem {first last : Nat} {rest : List (Nat × Nat)}
    (h : Ascending ((first, last) :: rest)) {range : Nat × Nat}
    (hmem : range ∈ rest) : last < range.1 := by
  induction rest generalizing first last with
  | nil => simp at hmem
  | cons next rest ih =>
      obtain ⟨_, hlt, htail⟩ := h
      cases hmem with
      | head => exact hlt
      | tail _ hmem =>
          have hnext : next.1 <= next.2 := by
            cases rest with
            | nil => exact htail
            | cons _ _ => exact htail.1
          have hlater := ih htail hmem
          omega

theorem Ascending.tail {range : Nat × Nat} {rest : List (Nat × Nat)}
    (h : Ascending (range :: rest)) : Ascending rest := by
  cases rest with
  | nil => trivial
  | cons _ _ => exact h.2.2

/-- Looking up in ascending ranges finds exactly the members of the ranges. -/
theorem inRanges_iff {code : Nat} {ranges : List (Nat × Nat)}
    (h : Ascending ranges) :
    inRanges code ranges = true <->
      exists range, range ∈ ranges ∧ range.1 <= code ∧ code <= range.2 := by
  induction ranges with
  | nil => simp [inRanges]
  | cons range rest ih =>
      obtain ⟨first, last⟩ := range
      have ih := ih h.tail
      by_cases hbelow : code < first
      · simp only [inRanges, hbelow, if_true, Bool.false_eq_true, false_iff]
        intro hex
        obtain ⟨other, hmem, hlow, _⟩ := hex
        cases hmem with
        | head => simp at hlow; omega
        | tail _ hmem =>
            have hlater := h.lt_of_mem hmem
            have hfirst : first <= last := by
              cases rest with
              | nil => exact h
              | cons _ _ => exact h.1
            omega
      · by_cases hin : code <= last
        · simp only [inRanges, hbelow, hin, if_true, if_false, true_iff]
          exact ⟨(first, last), List.mem_cons_self .., by simp; omega, hin⟩
        · simp only [inRanges, hbelow, hin, if_false, ih]
          constructor
          · intro hex
            obtain ⟨other, hmem, hbounds⟩ := hex
            exact ⟨other, List.mem_cons_of_mem _ hmem, hbounds⟩
          · intro hex
            obtain ⟨other, hmem, hlow, hhigh⟩ := hex
            cases hmem with
            | head => exact absurd hhigh hin
            | tail _ hmem => exact ⟨other, hmem, hlow, hhigh⟩

/-!
## Classes of characters
-/

structure CharClass where
  ranges : List (Nat × Nat)
  ascending : Ascending ranges

namespace CharClass

variable {inner outer : CharClass} {c : Char}

def contains (members : CharClass) (c : Char) : Bool := inRanges c.toNat members.ranges

theorem contains_iff :
    outer.contains c = true <->
      exists range, range ∈ outer.ranges ∧ range.1 <= c.toNat ∧ c.toNat <= range.2 :=
  inRanges_iff outer.ascending

def Within (inner outer : CharClass) : Prop :=
  forall range, range ∈ inner.ranges ->
    exists wider, wider ∈ outer.ranges ∧ wider.1 <= range.1 ∧ range.2 <= wider.2

instance : Decidable (inner.Within outer) :=
  decidable_of_iff
    (inner.ranges.all (fun range => outer.ranges.any (fun wider =>
      Nat.ble wider.1 range.1 && Nat.ble range.2 wider.2)) = true)
    (by simp [Within])

theorem Within.contains (h : inner.Within outer) (hc : inner.contains c = true) :
    outer.contains c = true := by
  rcases contains_iff.mp hc with ⟨range, hrange, hfirst, hlast⟩
  rcases h range hrange with ⟨wider, hwider, hlow, hhigh⟩
  exact contains_iff.mpr ⟨wider, hwider, Nat.le_trans hlow hfirst, Nat.le_trans hlast hhigh⟩

end CharClass

end Text
end Linewise
