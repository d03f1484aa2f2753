import Linewise.Proofs.Lossless
import Linewise.Token.Scanner

/-!
# Scanning never meets a fault

A scanner cuts the text at byte positions.  From the start of a text it only ever stands
between two characters, so none of its cuts is refused, and what it gives out one by one
are the items of the text.
-/

namespace Linewise

namespace Scanner

def cuts (scanner behind : Scanner) : List Nat :=
  let rest := (Text.dropBytes? scanner.position scanner.source.toList).getD []
  [scanner.position, scanner.position + Text.byteLength (rest.takeWhile Lexical.isBlank),
    behind.position]

/-- The scanner gives out these items and no more.  It never meets a fault, and the text
can be cut wherever the scanner cuts it. -/
inductive Gives : Scanner -> List Item -> Prop where
  | done {scanner behind : Scanner} (h : scanner.next = .ok (none, behind)) : Gives scanner []
  | item {scanner behind : Scanner} {item : Item} {items : List Item}
      (h : scanner.next = .ok (some item, behind))
      (hcuts : forall position, position ∈ scanner.cuts behind -> exists front back,
        Text.splitAtByte? position scanner.source.toList = some (front, back))
      (rest : Gives behind items) : Gives scanner (item :: items)

structure Between (scanner : Scanner) (front back : List Char) : Prop where
  source : scanner.source.toList = front ++ back
  position : scanner.position = Text.byteLength front
  unfinished : scanner.finished = false

end Scanner

namespace Lexical

theorem items_blanks (position : Nat) (last : Option Kind) (cs : List Char) :
    items position last 0 cs =
      items (position + Text.byteLength (cs.takeWhile isBlank)) last 0 (cs.dropWhile isBlank) := by
  induction cs generalizing position with
  | nil => rfl
  | cons c cs ih =>
      cases hblank : isBlank c with
      | true =>
          rw [items, if_pos hblank, ih, List.takeWhile_cons_of_pos hblank,
            List.dropWhile_cons_of_pos hblank, Text.byteLength_cons, Nat.add_assoc]
      | false =>
          rw [List.takeWhile_cons_of_neg (by simp [hblank]),
            List.dropWhile_cons_of_neg (by simp [hblank])]
          rfl

theorem items_step (position : Nat) (last : Option Kind) {c : Char} (cs : List Char)
    (hblank : isBlank c = false) :
    items position last 0 (c :: cs) = (step position last c cs).item ::
      items (position + Text.byteLength ((c :: cs).take (step position last c cs).width))
        (step position last c cs).last 0 ((c :: cs).drop (step position last c cs).width) := by
  have hskip := items_skip position (step position last c cs).last
    (step position last c cs).width (c :: cs)
  rw [← hskip]
  cases hwidth : (step position last c cs).width with
  | zero =>
      have hpos := step_width_pos position last c cs
      omega
  | succ width =>
      simp [items, hblank, hwidth]

end Lexical

namespace Scanner

variable {scanner : Scanner} {front back : List Char}

theorem Between.dropBytes? (h : scanner.Between front back) :
    Text.dropBytes? scanner.position scanner.source.toList = some back := by
  rw [h.source, h.position, Text.dropBytes?, Text.splitAtByte?_append]

theorem Between.remainder (h : scanner.Between front back) : scanner.remainder = .ok back := by
  rw [Scanner.remainder, h.dropBytes?]

theorem Between.atEnd (h : scanner.Between front back) : scanner.atEnd = back.isEmpty := by
  cases back with
  | nil => simp [Scanner.atEnd, h.source, h.position]
  | cons c cs =>
      have hsize := c.utf8Size_pos
      simp only [Scanner.atEnd, h.source, h.position, Text.byteLength_append,
        Text.byteLength_cons, List.isEmpty_cons, decide_eq_false_iff_not]
      omega

theorem Between.behindBlanks (h : scanner.Between front back) :
    scanner.source.toList =
        (front ++ back.takeWhile Lexical.isBlank) ++ back.dropWhile Lexical.isBlank ∧
      scanner.position + Text.byteLength (back.takeWhile Lexical.isBlank) =
        Text.byteLength (front ++ back.takeWhile Lexical.isBlank) := by
  constructor
  · rw [h.source, List.append_assoc, List.takeWhile_append_dropWhile]
  · rw [h.position, Text.byteLength_append]

/-!
## One item
-/

theorem Between.next_last (h : scanner.Between front back)
    (hrest : back.dropWhile Lexical.isBlank = []) :
    exists behind, scanner.next = .ok (some (.ok (Token.endAt behind.position)), behind) ∧
      behind.finished = true ∧
      behind.position = scanner.position + Text.byteLength (back.takeWhile Lexical.isBlank) := by
  have hend := h.atEnd
  cases hback : back with
  | nil =>
      rw [hback] at hend
      refine ⟨{ scanner with finished := true }, ?_, rfl, rfl⟩
      simp [next, h.unfinished, hend, finish]
  | cons first others =>
      rw [← hback]
      rw [hback] at hend
      refine ⟨{ scanner with
        position := scanner.position + Text.byteLength (back.takeWhile Lexical.isBlank)
        finished := true }, ?_, rfl, rfl⟩
      simp [next, h.unfinished, hend, h.remainder, hrest, finish]

theorem Between.next_item (h : scanner.Between front back) {c : Char} {cs : List Char}
    (hrest : back.dropWhile Lexical.isBlank = c :: cs) :
    exists item behind front' back', scanner.next = .ok (some item, behind) ∧
      behind.source = scanner.source ∧ behind.Between front' back' ∧
      back'.length < back.length ∧
      Lexical.items scanner.position scanner.last 0 back =
        item :: Lexical.items behind.position behind.last 0 back' := by
  have hend : scanner.atEnd = false := by
    rw [h.atEnd]
    cases back with
    | nil => cases hrest
    | cons first others => rfl
  have hblank : Lexical.isBlank c = false := by
    have hhead := List.head_dropWhile_not Lexical.isBlank (l := back)
    simpa [hrest] using hhead
  rcases h.behindBlanks with ⟨hsource, hposition⟩
  rw [Lexical.items_blanks, hrest, Lexical.items_step _ _ _ hblank]
  generalize hstart : scanner.position + Text.byteLength (back.takeWhile Lexical.isBlank) = start
    at hposition ⊢
  generalize hfound : Lexical.step start scanner.last c cs = found
  have hwidth : 0 < found.width := hfound ▸ Lexical.step_width_pos start scanner.last c cs
  refine ⟨found.item, { scanner with
      position := start + Text.byteLength ((c :: cs).take found.width), last := found.last },
    front ++ back.takeWhile Lexical.isBlank ++ (c :: cs).take found.width,
    (c :: cs).drop found.width, ?_, rfl, ⟨?_, ?_, h.unfinished⟩, ?_, rfl⟩
  · simp [next, h.unfinished, hend, h.remainder, hrest, hstart, hfound]
  · rw [List.append_assoc _ (List.take _ _), List.take_append_drop, ← hrest]
    exact hsource
  · rw [Text.byteLength_append _ (List.take _ _), ← hposition]
  · have hle := (List.dropWhile_suffix Lexical.isBlank (l := back)).length_le
    rw [hrest, List.length_cons] at hle
    rw [List.length_drop, List.length_cons]
    omega

/-!
## All items
-/

theorem exists_cut {cs : List Char} {position : Nat} (front back : List Char)
    (hcs : cs = front ++ back) (hposition : position = Text.byteLength front) :
    exists front back, Text.splitAtByte? position cs = some (front, back) := by
  rw [hcs, hposition]
  exact ⟨front, back, Text.splitAtByte?_append front back⟩

theorem Between.cut (h : scanner.Between front back) {behind : Scanner}
    (hbehind : exists front back, Text.splitAtByte? behind.position scanner.source.toList =
      some (front, back)) :
    forall position, position ∈ scanner.cuts behind -> exists front back,
      Text.splitAtByte? position scanner.source.toList = some (front, back) := by
  intro position hposition
  rw [cuts, h.dropBytes?, Option.getD_some] at hposition
  simp only [List.mem_cons, List.not_mem_nil, or_false] at hposition
  rcases hposition with rfl | rfl | rfl
  · exact exists_cut front back h.source h.position
  · exact exists_cut _ _ h.behindBlanks.1 h.behindBlanks.2
  · exact hbehind

theorem gives_between (h : scanner.Between front back) :
    scanner.Gives (Lexical.items scanner.position scanner.last 0 back) := by
  generalize hlength : back.length = length
  induction length using Nat.strongRecOn generalizing scanner front back with
  | ind length ih =>
      cases hrest : back.dropWhile Lexical.isBlank with
      | nil =>
          rcases h.next_last hrest with ⟨behind, hnext, hfinished, hposition⟩
          have hcuts := h.cut (hposition ▸ exists_cut _ _ h.behindBlanks.1 h.behindBlanks.2)
          have hdone : behind.Gives [] := by
            apply Gives.done
            rw [next, if_pos hfinished]
          rw [Lexical.items_blanks, hrest, ← hposition]
          exact Gives.item hnext hcuts hdone
      | cons c cs =>
          rcases h.next_item hrest with
            ⟨item, behind, front', back', hnext, hsource, hbetween, hshort, hitems⟩
          have hcut := exists_cut front' back' hbetween.source hbetween.position
          rw [hsource] at hcut
          rw [hitems]
          exact Gives.item hnext (h.cut hcut) (ih _ (hlength ▸ hshort) hbetween rfl)

theorem gives_ofSource (source : String) : (ofSource source).Gives (itemsOf source) := by
  have hstart : (ofSource source).Between [] source.toList := ⟨rfl, rfl, rfl⟩
  exact gives_between hstart

end Scanner

end Linewise
