/-!
# Byte offsets into text

Positions in a text are counted in bytes of its UTF-8 form, while the text
itself is read character by character.  The functions here cut a list of
characters at a byte offset; a cut inside a character, or past the last one,
is refused.
-/

namespace Linewise
namespace Text

def byteLength : List Char -> Nat
  | [] => 0
  | c :: cs => c.utf8Size + byteLength cs

def splitAtByte? : Nat -> List Char -> Option (List Char × List Char)
  | n, [] => if n = 0 then some ([], []) else none
  | n, c :: cs =>
      if n = 0 then
        some ([], c :: cs)
      else if c.utf8Size <= n then
        match splitAtByte? (n - c.utf8Size) cs with
        | some (front, back) => some (c :: front, back)
        | none => none
      else
        none

def dropBytes? (n : Nat) (cs : List Char) : Option (List Char) :=
  match splitAtByte? n cs with
  | some (_, back) => some back
  | none => none

def takeBytes? (n : Nat) (cs : List Char) : Option (List Char) :=
  match splitAtByte? n cs with
  | some (front, _) => some front
  | none => none

def slice? (start stop : Nat) (cs : List Char) : Option (List Char) :=
  if stop < start then
    none
  else
    match dropBytes? start cs with
    | some back => takeBytes? (stop - start) back
    | none => none

/-!
## Cuts and lengths
-/

@[simp] theorem byteLength_nil : byteLength [] = 0 := rfl

@[simp] theorem byteLength_cons (c : Char) (cs : List Char) :
    byteLength (c :: cs) = c.utf8Size + byteLength cs := rfl

@[simp] theorem byteLength_append (front back : List Char) :
    byteLength (front ++ back) = byteLength front + byteLength back := by
  induction front with
  | nil => simp
  | cons c front ih => simp [ih, Nat.add_assoc]

theorem splitAtByte?_append (front back : List Char) :
    splitAtByte? (byteLength front) (front ++ back) = some (front, back) := by
  induction front with
  | nil => cases back <;> simp [splitAtByte?]
  | cons c front ih =>
      have hpos : c.utf8Size ≠ 0 := Nat.pos_iff_ne_zero.mp c.utf8Size_pos
      simp [splitAtByte?, ih, hpos]

/-- The two parts of a cut make up the text, and the first has the length
asked for. -/
theorem splitAtByte?_eq_some {n : Nat} {cs front back : List Char}
    (h : splitAtByte? n cs = some (front, back)) :
    cs = front ++ back ∧ byteLength front = n := by
  induction cs generalizing n front with
  | nil =>
      by_cases hn : n = 0
      · simp [splitAtByte?, hn] at h
        obtain ⟨hfront, hback⟩ := h
        subst hfront hback
        simp [hn]
      · simp [splitAtByte?, hn] at h
  | cons c cs ih =>
      by_cases hn : n = 0
      · simp [splitAtByte?, hn] at h
        obtain ⟨hfront, hback⟩ := h
        subst hfront hback
        simp [hn]
      · by_cases hc : c.utf8Size <= n
        · cases hrest : splitAtByte? (n - c.utf8Size) cs with
          | none => simp [splitAtByte?, hn, hc, hrest] at h
          | some parts =>
              obtain ⟨rest, tail⟩ := parts
              simp [splitAtByte?, hn, hc, hrest] at h
              obtain ⟨hfront, hback⟩ := h
              subst hback
              have hcut := ih hrest
              subst hfront
              constructor
              · simp [hcut.1]
              · simp [hcut.2]
                omega
        · simp [splitAtByte?, hn, hc] at h

end Text
end Linewise
